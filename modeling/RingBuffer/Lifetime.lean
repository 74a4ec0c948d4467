import RingBuffer.Lib.Lockstep
import RingBuffer.Representation

/-! # Element lifetimes

The trace records for every element operation whether its slot was live. A run
keeps the lifetime discipline when every construct hit a raw slot, every other
element operation a live one, the live slots are the occupied ones after every
call, and the destructor destroys exactly what is left.
-/

namespace Dkyb

open Stateful

variable {T A : Type}

namespace Event

/-- The operation was allowed on a slot in that condition. -/
def Clean : Event A → Prop
  | .construct _ live => live = false
  | .destroy _ live | .assign _ live | .read _ live => live = true
  | .allocate .. | .deallocate .. | .subscript .. | .modulo _ => True

def isConstruct : Event A → Bool
  | .construct .. => true
  | _ => false

def isDestroy : Event A → Bool
  | .destroy .. => true
  | _ => false

end Event

namespace Memory

def Clean (m : Memory T A) : Prop := ∀ e ∈ m.trace, e.Clean

def constructed (m : Memory T A) : Nat := m.trace.countP Event.isConstruct

def destroyed (m : Memory T A) : Nat := m.trace.countP Event.isDestroy

end Memory

/-- The live slots of the buffer's block are the ones it counts as occupied. -/
def OccupiedLive (s : State T A) : Prop := ∀ k, (s.cell k).live = true ↔
  ∃ i < s.this.count_, k = (s.this.head_ + i) % s.this.capacity_

def LifetimesAt (s : State T A) (_ : Unit) (call : Call T) : Prop :=
  (final call.perform s).mem.Clean ∧ OccupiedLive (final call.perform s)

/-- The discipline over a run of calls with the destructor at its end. -/
def KeepsLifetimes (s : State T A) (calls : List (Call T)) : Prop :=
  let atEnd := final RingBuffer.finish (calls.foldl (fun s call => final call.perform s) s)
  Lockstep.Agrees (fun s call => final call.perform s) (fun _ _ => ()) LifetimesAt s () calls ∧
    atEnd.mem.Clean ∧ atEnd.mem.constructed = atEnd.mem.destroyed

/-- Where `tail_` is used it is where an aligned buffer has it, as far as
    lifetimes can tell: a push that finds room appends behind the last element,
    and a `back()` that goes to `tail_ - 1` finds that slot occupied. -/
def TailUsableAt (s : State T A) : Call T → Prop
  | .update update =>
      update.inserted.isSome = true → s.this.full_ = false → s.this.Aligned
  | .query .back => s.this.count_ ≠ 0 → s.this.justOverwrote_ = false →
      ∃ i < s.this.count_, s.this.decrementIndex s.this.tail_ =
        (s.this.head_ + i) % s.this.capacity_
  | .query _ => True

instance (s : State T A) : ∀ call : Call T, Decidable (TailUsableAt s call)
  | .update _ => inferInstanceAs (Decidable (_ → _ → _))
  | .query .back => inferInstanceAs (Decidable (_ → _ → _))
  | .query .front | .query (.index _) => isTrue trivial

def TailUsable : State T A → List (Call T) → Prop :=
  Lockstep.Guarded (fun s call => final call.perform s) TailUsableAt

instance (s : State T A) (calls : List (Call T)) : Decidable (TailUsable s calls) :=
  inferInstanceAs (Decidable (Lockstep.Guarded _ _ _ _))

/-! ## The invariant -/

/-- The flag of `back()` is on only in a full buffer, with the position in range,
    or in one that was cleared since. -/
def RingBuffer.FlagSound (rb : RingBuffer A) : Prop :=
  rb.justOverwrote_ = true → rb.count_ ≠ 0 →
    rb.count_ = rb.capacity_ ∧ rb.overwritePosition_ < rb.capacity_

structure Disciplined (c : Nat) (s : State T A) : Prop where
  holds : ∃ q, Holds c s q
  flag : s.this.FlagSound
  clean : s.mem.Clean
  balance : s.mem.constructed = s.mem.destroyed + s.this.count_

namespace Holds

variable {c : Nat} {s : State T A} {q : List T}

theorem occupiedLive (h : Holds c s q) : OccupiedLive s := h.live_iff

theorem live_occupied (h : Holds c s q) {i : Nat} (hi : i < s.this.count_) :
    (s.mem.slots (s.occupiedPtr i)).live = true :=
  (h.live_iff _).mpr ⟨i, hi, rfl⟩

theorem live_head (h : Holds c s q) (nonempty : s.this.count_ ≠ 0) :
    (s.mem.slots s.headPtr).live = true := by
  refine (h.live_iff _).mpr ⟨0, Nat.pos_of_ne_zero nonempty, ?_⟩
  rw [h.counted.capacity, Cyclic.position_zero h.counted.head]

theorem raw_tail (h : Holds c s q) (notFull : s.this.full_ = false) (aligned : s.this.Aligned) :
    (s.mem.slots s.tailPtr).live = false := by
  have blank := h.laid.next_blank (by simpa using h.room notFull)
  rw [List.length_map, ← h.count, ← h.counted.capacity, ← aligned] at blank
  exact congrArg Slot.live blank

/-- A full buffer has every slot live. -/
theorem live_full (h : Holds c s q) (full : s.this.count_ = c) {k : Nat} (inside : k < c) :
    (s.cell k).live = true := by
  obtain ⟨i, hi, position⟩ := Cyclic.position_surjective inside h.counted.head
  exact (h.live_iff k).mpr ⟨i, by omega, by rwa [h.counted.capacity]⟩

end Holds

namespace Disciplined

variable {c : Nat} {s : State T A} {v : T}

theorem created (pos : 0 < c) (a : A) : Disciplined c (State.created c a : State T A) where
  holds := ⟨[], Holds.created pos a⟩
  flag := by
    rw [created_eq pos]
    intro on
    cases on
  clean := by
    rw [created_eq pos]
    intro e member
    obtain rfl : e = .allocate 0 c a := List.mem_singleton.mp member
    trivial
  balance := by
    rw [created_eq pos]
    rfl

theorem appended (h : Disciplined c s) (notFull : s.this.full_ = false)
    (aligned : s.this.Aligned) (v : T) : Disciplined c (s.appended v) := by
  obtain ⟨q, holds⟩ := h.holds
  have cursors := RingBuffer.incrementTail_eq s.this notFull
  have raw := holds.raw_tail notFull aligned
  exact {
    holds := ⟨_, holds.appended notFull aligned v⟩
    flag := by
      intro on
      simp only [State.appended, cursors] at on
      cases on
    clean := by
      intro e member
      simp only [State.appended, List.mem_cons] at member
      rcases member with rfl | rfl | rfl | older
      · trivial
      · exact raw
      · trivial
      · exact h.clean e older
    balance := by
      have := h.balance
      simp only [Memory.constructed, Memory.destroyed, State.appended, cursors, List.countP_cons,
        Event.isConstruct, Event.isDestroy, Bool.false_eq_true, ↓reduceIte] at this ⊢
      omega }

theorem overwritten (h : Disciplined c s) (full : s.this.full_ = true) (v : T) :
    Disciplined c (s.overwritten v) := by
  obtain ⟨q, holds⟩ := h.holds
  have filled := holds.counted.full_iff.mp full
  have nonempty : s.this.count_ ≠ 0 := by
    have := holds.counted.pos
    omega
  cases q with
  | nil => exact absurd holds.count nonempty
  | cons x q =>
      exact {
        holds := ⟨_, holds.overwritten full v⟩
        flag := fun _ _ => ⟨filled.trans holds.counted.capacity.symm, by
          have := holds.counted.head
          rwa [← holds.counted.capacity] at this⟩
        clean := by
          intro e member
          simp only [State.overwritten, List.mem_cons] at member
          rcases member with rfl | rfl | rfl | older
          · trivial
          · exact holds.live_head nonempty
          · trivial
          · exact h.clean e older
        balance := h.balance }

theorem replaced (h : Disciplined c s) (full : s.this.full_ = true) (v : T) :
    Disciplined c (s.replaced v) := by
  obtain ⟨q, holds⟩ := h.holds
  have filled := holds.counted.full_iff.mp full
  have nonempty : s.this.count_ ≠ 0 := by
    have := holds.counted.pos
    omega
  cases q with
  | nil => exact absurd holds.count nonempty
  | cons x q =>
      exact {
        holds := ⟨_, holds.replaced full v⟩
        flag := fun _ _ => ⟨filled.trans holds.counted.capacity.symm, by
          have := holds.counted.head
          rwa [← holds.counted.capacity] at this⟩
        clean := by
          intro e member
          simp only [State.replaced, List.mem_cons] at member
          rcases member with rfl | rfl | rfl | rfl | rfl | older
          · trivial
          · rfl
          · trivial
          · exact holds.live_head nonempty
          · trivial
          · exact h.clean e older
        balance := by
          have := h.balance
          simp only [Memory.constructed, Memory.destroyed, State.replaced, List.countP_cons,
        Event.isConstruct, Event.isDestroy, Bool.false_eq_true, ↓reduceIte, RingBuffer.overwriteAdvanceHead_eq] at this ⊢
          omega }

theorem popped (h : Disciplined c s) (nonempty : s.this.count_ ≠ 0) :
    Disciplined c s.popped := by
  obtain ⟨q, holds⟩ := h.holds
  have cursors := RingBuffer.incrementHead_eq s.this
  have live := holds.live_head nonempty
  cases q with
  | nil => exact absurd holds.count nonempty
  | cons x q =>
      exact {
        holds := ⟨_, holds.popped⟩
        flag := by
          intro on
          simp only [State.popped, cursors] at on
          cases on
        clean := by
          intro e member
          simp only [State.popped, List.mem_cons] at member
          rcases member with rfl | rfl | rfl | rfl | rfl | older
          · trivial
          · exact live
          · trivial
          · exact live
          · trivial
          · exact h.clean e older
        balance := by
          have := h.balance
          simp only [Memory.constructed, Memory.destroyed, State.popped, cursors, List.countP_cons,
        Event.isConstruct, Event.isDestroy, Bool.false_eq_true, ↓reduceIte] at this ⊢
          omega }

/-- Each round of the loop in `clear()` destroys one more live element. -/
theorem vacated (h : Disciplined c s) (n : Nat) (bound : n ≤ s.this.count_) :
    (s.vacated n).mem.Clean ∧
      (s.vacated n).mem.constructed + n = (s.vacated n).mem.destroyed + s.this.count_ := by
  obtain ⟨q, holds⟩ := h.holds
  have capacity := holds.counted.capacity
  have count := holds.counted.count
  induction n with
  | zero => exact ⟨h.clean, h.balance⟩
  | succ n ih =>
      obtain ⟨clean, balance⟩ := ih (by omega)
      have here : (s.vacated n).occupiedPtr n = s.occupiedPtr n := by
        simp only [State.occupiedPtr, State.vacated_this]
      have live : ((s.vacated n).mem.slots (s.occupiedPtr n)).live = true := by
        rcases s.vacated_slots n (s.occupiedPtr n) with ⟨⟨i, hi, same⟩, _⟩ | ⟨_, kept⟩
        · have position : (s.this.head_ + n) % c = (s.this.head_ + i) % c := by
            simpa [State.occupiedPtr, capacity] using same
          have := Cyclic.position_injective (by omega) (by omega) position
          omega
        · rw [kept]
          exact holds.live_occupied (by omega)
      constructor
      · intro e member
        simp only [State.vacated, List.mem_cons, here] at member
        rcases member with rfl | rfl | rfl | older
        · exact live
        · trivial
        · trivial
        · exact clean e older
      · simp only [Memory.constructed, Memory.destroyed, State.vacated, List.countP_cons,
        Event.isConstruct, Event.isDestroy, Bool.false_eq_true, ↓reduceIte] at balance ⊢
        omega

theorem cleared (h : Disciplined c s) : Disciplined c s.cleared := by
  obtain ⟨q, holds⟩ := h.holds
  obtain ⟨clean, balance⟩ := h.vacated s.this.count_ (Nat.le_refl _)
  exact {
    holds := ⟨_, holds.cleared⟩
    flag := fun _ nonempty => absurd rfl nonempty
    clean := clean
    balance := by
      have : s.cleared.this.count_ = 0 := rfl
      simp only [State.cleared, State.mapThis_mem] at this ⊢
      omega }

theorem looked (h : Disciplined c s) {p : Ptr} (live : (s.mem.slots p).live = true) :
    Disciplined c (s.looked p) := by
  obtain ⟨q, holds⟩ := h.holds
  exact {
    holds := ⟨q, ⟨holds.counted, holds.count, holds.laid, holds.quiet⟩⟩
    flag := h.flag
    clean := by
      intro e member
      simp only [State.looked, State.mapMem_mem, Memory.emit_trace, List.mem_cons] at member
      rcases member with rfl | rfl | older
      · exact live
      · trivial
      · exact h.clean e older
    balance := h.balance }

theorem emit_modulo (h : Disciplined c s) (n : Nat) :
    Disciplined c (s.mapMem (Memory.emit (.modulo n))) := by
  obtain ⟨q, holds⟩ := h.holds
  exact {
    holds := ⟨q, ⟨holds.counted, holds.count, holds.laid, holds.quiet⟩⟩
    flag := h.flag
    clean := by
      intro e member
      rcases List.mem_cons.mp member with rfl | older
      · trivial
      · exact h.clean e older
    balance := h.balance }

/-! ## One call -/

/-- With the flag on, `back()` of a non-empty disciplined buffer reads a live slot. -/
theorem live_overwritten (h : Disciplined c s) (nonempty : s.this.count_ ≠ 0)
    (on : s.this.justOverwrote_ = true) : (s.cell s.this.overwritePosition_).live = true := by
  obtain ⟨q, holds⟩ := h.holds
  obtain ⟨filled, inside⟩ := h.flag on nonempty
  rw [holds.counted.capacity] at filled inside
  exact holds.live_full filled inside

theorem update (h : Disciplined c s) {call : Update T} (usable : TailUsableAt s (.update call)) :
    Disciplined c (final call.perform s) := by
  obtain ⟨q, holds⟩ := h.holds
  have insert : ∀ v, call.inserted = some v → Disciplined c (final call.perform s) := by
    intro v inserted
    cases full : s.this.full_ with
    | false =>
        rw [final_of_run (run_insert_room holds.quiet v inserted full)]
        exact h.appended full (usable (by rw [inserted]; rfl) full) v
    | true =>
        rcases run_insert_full holds.quiet v inserted full with run | run
        · rw [final_of_run run]
          exact h.overwritten full v
        · rw [final_of_run run]
          exact h.replaced full v
  cases call with
  | pushBack v | pushBackMove v | emplaceBack v => exact insert v rfl
  | popFront =>
      by_cases empty : s.this.count_ = 0
      · rw [final_of_error (run_perform_popFront_empty empty)]
        exact h
      · rw [final_of_run (run_perform_popFront holds.quiet empty)]
        exact h.popped empty
  | clear =>
      rw [final_of_run (run_perform_clear s)]
      exact h.cleared

theorem query (h : Disciplined c s) {call : Query}
    (usable : TailUsableAt s (.query call : Call T)) : Disciplined c (final call.ask s) := by
  obtain ⟨q, holds⟩ := h.holds
  by_cases empty : s.this.count_ = 0
  · rw [final_of_error (run_ask_empty empty call)]
    exact h
  · cases call with
    | front =>
        rw [final_of_run (run_ask_front empty)]
        exact h.looked (holds.live_head empty)
    | back =>
        rw [final_of_run (run_ask_back empty)]
        apply h.looked
        show (s.cell s.this.backIndex).live = true
        cases flag : s.this.justOverwrote_ with
        | true =>
            simp only [RingBuffer.backIndex, flag, if_true]
            exact h.live_overwritten empty flag
        | false =>
            simp only [RingBuffer.backIndex, flag, Bool.false_eq_true, if_false]
            exact (holds.live_iff _).mpr (usable empty flag)
    | index i =>
        by_cases inside : i < s.this.count_
        · rw [final_of_run (run_ask_index inside)]
          exact (h.emit_modulo _).looked (holds.live_occupied inside)
        · rw [final_of_error (run_ask_outside (Nat.not_lt.mp inside))]
          exact h

theorem perform (h : Disciplined c s) {call : Call T} (usable : TailUsableAt s call) :
    Disciplined c (final call.perform s) := by
  cases call with
  | update call => exact h.update usable
  | query call =>
      rw [final_query]
      exact h.query usable

/-- A call that uses `tail_` when it is astray breaks the discipline at once: a
    push counts a slot it did not fill, `back()` reads a slot nothing lives in. -/
theorem usable_of_lifetimes (h : Disciplined c s) {call : Call T}
    (kept : LifetimesAt s () call) : TailUsableAt s call := by
  obtain ⟨q, holds⟩ := h.holds
  obtain ⟨clean, occupied⟩ := kept
  cases call with
  | update call =>
      intro isInsert notFull
      by_contra astray
      obtain ⟨v, inserted⟩ := Option.isSome_iff_exists.mp isInsert
      have cursors := RingBuffer.incrementTail_eq s.this notFull
      have run : (Call.update call).perform.run s = .ok .done (s.appended v) :=
        run_insert_room holds.quiet v inserted notFull
      rw [final_of_run run] at occupied
      have live := (occupied ((s.this.head_ + s.this.count_) % s.this.capacity_)).mpr
        ⟨s.this.count_, by simp only [State.appended, cursors]; omega,
          by simp only [State.appended, cursors]⟩
      rw [holds.appended_astray notFull astray v] at live
      cases live
  | query call =>
      cases call with
      | front => trivial
      | index i => trivial
      | back =>
          intro nonempty flag
          have run := run_ask_back nonempty
          rw [final_query, final_of_run run] at clean
          have live : (s.cell s.this.backIndex).live = true :=
            clean (.read ⟨s.this.buffer_, s.this.backIndex⟩ _) List.mem_cons_self
          simp only [RingBuffer.backIndex, flag, Bool.false_eq_true, if_false] at live
          exact (holds.live_iff _).mp live

/-- The destructor destroys exactly what is left. -/
theorem finish (h : Disciplined c s) : (final RingBuffer.finish s).mem.Clean ∧
    (final RingBuffer.finish s).mem.constructed = (final RingBuffer.finish s).mem.destroyed := by
  have cleared := h.cleared
  have balance : s.cleared.mem.constructed = s.cleared.mem.destroyed := cleared.balance
  have run : RingBuffer.finish.run s = RingBuffer.deallocate.run s.cleared := by
    simp only [RingBuffer.finish, EStateM.run_bind, run_clear]
  unfold final
  rw [run]
  simp only [RingBuffer.deallocate, EStateM.run_bind, EStateM.run_get]
  cases block : s.cleared.this.buffer_ with
  | none => exact ⟨cleared.clean, balance⟩
  | some b =>
      refine ⟨?_, balance⟩
      intro e member
      rcases List.mem_cons.mp member with rfl | older
      · trivial
      · exact cleared.clean e older

end Disciplined

/-- A run on a new buffer, with reads between the updates and the destructor at
    its end, keeps the lifetime discipline exactly when every use of `tail_`
    finds it usable. -/
theorem keepsLifetimes_iff {c : Nat} (pos : 0 < c) (a : A) (calls : List (Call T)) :
    KeepsLifetimes (State.created c a) calls ↔ TailUsable (State.created c a) calls := by
  have start : Disciplined c (State.created c a : State T A) := .created pos a
  have lockstep : Lockstep.Agrees (fun s call => final call.perform s) (fun _ _ => ()) LifetimesAt
      (State.created c a : State T A) () calls ↔ TailUsable (State.created c a) calls :=
    Lockstep.agrees_iff_guarded (R := fun s _ => Disciplined c s)
      (fun _ _ _ h usable => h.perform usable)
      (fun _ _ _ h usable => ⟨(h.perform usable).clean,
        (h.perform usable).holds.elim fun _ holds => holds.occupiedLive⟩)
      (fun _ _ _ h kept => h.usable_of_lifetimes kept) start calls
  constructor
  · intro kept
    exact lockstep.mp kept.1
  · intro usable
    have atEnd := Lockstep.invariant_after (fun _ _ h usable => h.perform usable) start usable
    exact ⟨lockstep.mpr usable, atEnd.finish⟩

theorem keepsLifetimes_two : KeepsLifetimes (State.created 2 () : State Nat Unit)
    [.update (.pushBack 1), .update (.emplaceBack 2), .update (.emplaceBack 3), .query .back,
      .update .popFront, .query (.index 0), .update .clear, .update (.pushBackMove 4)] :=
  (keepsLifetimes_iff (by decide) () _).mpr (by decide)

/-- Capacity 3: one overwrite, a pop and a push, which constructs on a live slot. -/
theorem keepsLifetimes_fails : ¬ KeepsLifetimes (State.created 3 () : State Nat Unit)
    [.update (.pushBack 1), .update (.pushBack 2), .update (.pushBack 3), .update (.pushBack 4),
      .update .popFront, .update (.pushBack 5)] := by
  intro kept
  obtain ⟨-, -, -, -, -, ⟨clean, -⟩, -⟩ := kept.1
  have live := clean (.construct ⟨some 0, 0⟩ true) (by decide)
  cases live

end Dkyb
