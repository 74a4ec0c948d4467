import RingBuffer.Frame
import RingBuffer.Lifetime

/-! # What a copy shows

Both copying members give the new object the cursors of the other one, turn the
overwrite flag off and copy the first `count_` physical slots. Clients read
through logical positions, so a copy mirrors its source only where the two agree.
-/

namespace Dkyb

open Stateful

variable {T A : Type}

/-- Both reads reached the same element, or threw the same exception. -/
def SameReading : Except Exn (Option T) → Except Exn (Option T) → Prop
  | .ok (some v), .ok (some w) => v = w
  | .error e, .error e' => e = e'
  | _, _ => False

/-- A client cannot tell `copy` from `source`, the live slots of the copy are its
    occupied ones, and the source's block is what it was. -/
structure Mirrors (source copy : State T A) : Prop where
  capacity : copy.this.capacity = source.this.capacity
  size : copy.this.size = source.this.size
  full : copy.this.full = source.this.full
  available : copy.this.available = source.this.available
  answers : ∀ query : Query, SameReading (reply query.ask source) (reply query.ask copy)
  occupied : OccupiedLive copy
  untouched : ∀ p, p.block = source.this.buffer_ → copy.mem.slots p = source.mem.slots p

/-- `member`, run on the target `s`, leaves a mirror of the object `other`. -/
def Copies (member : Op T A Unit) (other : RingBuffer A) (s : State T A) : Prop :=
  ∃ copy, member.run s = .ok () copy ∧ Mirrors ⟨other, s.mem⟩ copy

/-- Empty, or the occupied slots hold elements and are the first `count_` physical
    ones, and the one before `tail_` is among them and holds what `back()` reads. -/
def Copyable (s : State T A) : Prop :=
  s.this.count_ = 0 ∨
    (∀ i < s.this.count_,
      (s.cell ((s.this.head_ + i) % s.this.capacity_)).content.isSome = true) ∧
    (s.this.head_ = 0 ∨ s.this.count_ = s.this.capacity_) ∧
    s.this.decrementIndex s.this.tail_ < s.this.count_ ∧
    (s.cell (s.this.decrementIndex s.this.tail_)).content = (s.cell s.this.backIndex).content

instance [DecidableEq T] (s : State T A) : Decidable (Copyable s) :=
  inferInstanceAs (Decidable (_ ∨ _ ∧ _ ∧ _ ∧ _))

theorem copyable_congr {s s' : State T A} (this : s.this = s'.this)
    (cells : ∀ k, s.cell k = s'.cell k) : Copyable s ↔ Copyable s' := by
  simp only [Copyable, this, cells]

/-! ## What the copying members build -/

structure Duplicates (source copy : State T A) : Prop where
  capacity : copy.this.capacity_ = source.this.capacity_
  head : copy.this.head_ = source.this.head_
  tail : copy.this.tail_ = source.this.tail_
  count : copy.this.count_ = source.this.count_
  full : copy.this.full_ = source.this.full_
  flag : copy.this.justOverwrote_ = false
  cell : ∀ k, copy.cell k =
    if k < source.this.count_ then ⟨(source.cell k).content, true⟩ else .raw
  untouched : ∀ p, p.block = source.this.buffer_ → copy.mem.slots p = source.mem.slots p

/-- The state just before the element loop: a raw block, apart from the other
    object's one, which is as it was in the memory `m`. -/
structure Prepared (other : RingBuffer A) (m : Memory T A) (s : State T A) : Prop where
  apart : other.buffer_ ≠ s.this.buffer_
  raw : ∀ p, p.block = s.this.buffer_ → s.mem.slots p = .raw
  kept : ∀ p, p.block = other.buffer_ → s.mem.slots p = m.slots p

namespace Prepared

variable {other : RingBuffer A} {m : Memory T A} {s : State T A}

theorem cell (h : Prepared other m s) (n k : Nat) : (s.copied other n).cell k =
    if k < n then ⟨(m.slots ⟨other.buffer_, k⟩).content, true⟩ else .raw := by
  rw [State.cell, State.copied_this, State.copied_slot s h.apart, h.kept _ rfl, h.raw _ rfl]

theorem untouched (h : Prepared other m s) (n : Nat) (p : Ptr) (own : p.block = other.buffer_) :
    (s.copied other n).mem.slots p = m.slots p := by
  rw [State.copied_elsewhere s other n (by rw [own]; exact h.apart), h.kept p own]

/-- A block that was just allocated. -/
theorem of_grown (own : s.this.buffer_ = some m.next) (grown : s.mem.slots = m.grow.slots)
    (fresh : other.buffer_ ≠ some m.next) : Prepared other m s where
  apart := by rwa [own]
  raw p here := by rw [grown, Memory.grow_slots, if_pos (here.trans own)]
  kept p there := by rw [grown, Memory.grow_slots, if_neg (by rwa [there])]

end Prepared

/-! ## Reading -/

theorem sameReading_iff {x y : Option T} :
    SameReading (.ok x) (.ok y) ↔ ∃ v, x = some v ∧ y = some v := by
  cases x with
  | none => simp [SameReading]
  | some v => cases y <;> simp [SameReading, eq_comm]

namespace Duplicates

variable {source copy : State T A} {c : Nat}

theorem backIndex (h : Duplicates source copy) :
    copy.this.backIndex = source.this.decrementIndex source.this.tail_ := by
  simp only [RingBuffer.backIndex, RingBuffer.decrementIndex, h.flag, h.tail, h.capacity,
    Bool.false_eq_true, if_false]

theorem content (h : Duplicates source copy) {k : Nat} (inside : k < source.this.count_) :
    (copy.cell k).content = (source.cell k).content := by
  rw [h.cell, if_pos inside]

theorem content_beyond (h : Duplicates source copy) {k : Nat}
    (beyond : ¬ k < source.this.count_) : (copy.cell k).content = none := by
  rw [h.cell, if_neg beyond]
  rfl

theorem live_iff (h : Duplicates source copy) (k : Nat) :
    (copy.cell k).live = true ↔ k < source.this.count_ := by
  rw [h.cell]
  split <;> simp_all

/-- The occupied slots of the copy are live exactly when they are the first ones. -/
theorem occupiedLive_iff (h : Duplicates source copy) (counted : source.this.Counted c)
    (nonempty : source.this.count_ ≠ 0) :
    OccupiedLive copy ↔ source.this.head_ = 0 ∨ source.this.count_ = source.this.capacity_ := by
  have head := counted.head
  have bound := counted.count
  have capacity := counted.capacity
  unfold OccupiedLive
  simp only [h.live_iff, h.count, h.head, h.capacity, capacity]
  constructor
  · intro same
    by_contra apart
    obtain ⟨shifted, partly⟩ := not_or.mp apart
    -- the head's slot is live, hence so is the first slot that was not copied
    have first := (same source.this.head_).mpr
      ⟨0, by omega, (Cyclic.position_zero head).symm⟩
    have last := (same source.this.count_).mpr
      ⟨source.this.count_ - source.this.head_, by omega, by
        rw [Nat.add_sub_cancel' (Nat.le_of_lt first), Nat.mod_eq_of_lt (by omega)]⟩
    exact Nat.lt_irrefl _ last
  · intro either k
    constructor
    · intro inside
      cases either with
      | inl atZero => exact ⟨k, inside, by rw [atZero, Nat.zero_add, Nat.mod_eq_of_lt (by omega)]⟩
      | inr filled =>
          rw [filled] at inside ⊢
          exact Cyclic.position_surjective inside head
    · rintro ⟨i, hi, rfl⟩
      cases either with
      | inl atZero => rwa [atZero, Nat.zero_add, Nat.mod_eq_of_lt (by omega)]
      | inr filled =>
          rw [filled]
          exact Nat.mod_lt _ counted.pos

/-- What is left to show of a mirror. -/
theorem mirrors (h : Duplicates source copy)
    (answers : ∀ query : Query, SameReading (reply query.ask source) (reply query.ask copy))
    (occupied : OccupiedLive copy) : Mirrors source copy where
  capacity := h.capacity
  size := h.count
  full := h.full
  available := by simp only [RingBuffer.available, h.full, h.capacity, h.count]
  answers := answers
  occupied := occupied
  untouched := h.untouched

theorem mirrors_of_empty (h : Duplicates source copy) (empty : source.this.count_ = 0) :
    Mirrors source copy := by
  refine h.mirrors ?_ ?_
  · intro query
    rw [reply_of_error (run_ask_empty empty query),
      reply_of_error (run_ask_empty (h.count.trans empty) query), h.capacity]
    exact rfl
  · intro k
    rw [h.live_iff, h.count, empty]
    simp

/-- When the two objects give the same element at a logical position. -/
theorem index_iff (h : Duplicates source copy) {i : Nat} (inside : i < source.this.count_) :
    SameReading (reply (Query.index i).ask source) (reply (Query.index i).ask copy) ↔ ∃ v,
      (source.cell ((source.this.head_ + i) % source.this.capacity_)).content = some v ∧
      (copy.cell ((source.this.head_ + i) % source.this.capacity_)).content = some v := by
  have inside' : i < copy.this.count_ := by rwa [h.count]
  rw [reply_ask_index inside, reply_ask_index inside', h.head, h.capacity, sameReading_iff]

theorem back_iff (h : Duplicates source copy) (nonempty : source.this.count_ ≠ 0) :
    SameReading (reply Query.back.ask source) (reply Query.back.ask copy) ↔ ∃ v,
      (source.cell source.this.backIndex).content = some v ∧
      (copy.cell (source.this.decrementIndex source.this.tail_)).content = some v := by
  have nonempty' : copy.this.count_ ≠ 0 := by rwa [h.count]
  rw [reply_ask_back nonempty, reply_ask_back nonempty', h.backIndex, sameReading_iff]

theorem copyable_of_mirrors (h : Duplicates source copy) (counted : source.this.Counted c)
    (nonempty : source.this.count_ ≠ 0) (mirrors : Mirrors source copy) : Copyable source := by
  refine .inr ⟨?_, (h.occupiedLive_iff counted nonempty).mp mirrors.occupied, ?_⟩
  · intro i hi
    obtain ⟨v, read, -⟩ := (h.index_iff hi).mp (mirrors.answers (.index i))
    exact Option.isSome_iff_exists.mpr ⟨v, read⟩
  · obtain ⟨v, read, copied⟩ := (h.back_iff nonempty).mp (mirrors.answers .back)
    by_cases inside : source.this.decrementIndex source.this.tail_ < source.this.count_
    · rw [h.content inside] at copied
      exact ⟨inside, copied.trans read.symm⟩
    · rw [h.content_beyond inside] at copied
      cases copied

/-- Where the occupied slots of a copy live, the source's reads find them there. -/
theorem index_of_occupied (h : Duplicates source copy) (occupied : OccupiedLive copy)
    (known : ∀ i < source.this.count_,
      (source.cell ((source.this.head_ + i) % source.this.capacity_)).content.isSome = true)
    {i : Nat} (inside : i < source.this.count_) :
    SameReading (reply (Query.index i).ask source) (reply (Query.index i).ask copy) := by
  obtain ⟨v, read⟩ := Option.isSome_iff_exists.mp (known i inside)
  have copied : (source.this.head_ + i) % source.this.capacity_ < source.this.count_ := by
    rw [← h.live_iff]
    exact (occupied _).mpr ⟨i, by rwa [h.count], by rw [h.head, h.capacity]⟩
  exact (h.index_iff inside).mpr ⟨v, read, by rw [h.content copied, read]⟩

theorem mirrors_of_copyable (h : Duplicates source copy) (counted : source.this.Counted c)
    (nonempty : source.this.count_ ≠ 0)
    (known : ∀ i < source.this.count_,
      (source.cell ((source.this.head_ + i) % source.this.capacity_)).content.isSome = true)
    (first : source.this.head_ = 0 ∨ source.this.count_ = source.this.capacity_)
    (inside : source.this.decrementIndex source.this.tail_ < source.this.count_)
    (same : (source.cell (source.this.decrementIndex source.this.tail_)).content =
      (source.cell source.this.backIndex).content) : Mirrors source copy := by
  have occupied := (h.occupiedLive_iff counted nonempty).mpr first
  have nonempty' : copy.this.count_ ≠ 0 := by rwa [h.count]
  refine h.mirrors ?_ occupied
  intro query
  cases query with
  | front =>
      have front := h.index_of_occupied occupied known (Nat.pos_of_ne_zero nonempty)
      rw [reply_ask_index (Nat.pos_of_ne_zero nonempty),
        reply_ask_index (Nat.pos_of_ne_zero nonempty'), h.head, h.capacity,
        counted.capacity, Cyclic.position_zero counted.head] at front
      rwa [reply_ask_front nonempty, reply_ask_front nonempty', h.head]
  | back =>
      obtain ⟨i, hi, position⟩ := (occupied _).mp ((h.live_iff _).mpr inside)
      rw [h.count] at hi
      rw [h.head, h.capacity] at position
      obtain ⟨v, read⟩ := Option.isSome_iff_exists.mp (known i hi)
      rw [← position] at read
      exact (h.back_iff nonempty).mpr ⟨v, same.symm.trans read, by rw [h.content inside, read]⟩
  | index i =>
      by_cases hi : i < source.this.count_
      · exact h.index_of_occupied occupied known hi
      · rw [reply_of_error (run_ask_outside (Nat.not_lt.mp hi)),
          reply_of_error (run_ask_outside (by rw [h.count]; exact Nat.not_lt.mp hi)), h.capacity]
        exact rfl

theorem mirrors_iff (h : Duplicates source copy) (counted : source.this.Counted c) :
    Mirrors source copy ↔ Copyable source := by
  by_cases empty : source.this.count_ = 0
  · exact ⟨fun _ => .inl empty, fun _ => h.mirrors_of_empty empty⟩
  constructor
  · exact h.copyable_of_mirrors counted empty
  · intro copyable
    cases copyable with
    | inl none => exact absurd none empty
    | inr copyable =>
        obtain ⟨known, first, inside, same⟩ := copyable
        exact h.mirrors_of_copyable counted empty known first inside same

end Duplicates

/-! ## The two copying members -/

namespace State

variable {s : State T A} {other : RingBuffer A} (traits : AllocatorTraits A)

theorem copyConstructed_prepared (fresh : other.buffer_ ≠ some s.mem.next) :
    Prepared other s.mem ((s.allocated (traits.selectOnContainerCopyConstruction other.allocator_)
      other.capacity_).mapThis fun _ =>
        { other with
          allocator_ := traits.selectOnContainerCopyConstruction other.allocator_
          buffer_ := some s.mem.next
          justOverwrote_ := false
          overwritePosition_ := 0 }) := .of_grown rfl rfl fresh

theorem copyConstructed_duplicates (fresh : other.buffer_ ≠ some s.mem.next) :
    Duplicates ⟨other, s.mem⟩ (s.copyConstructed traits other) where
  capacity := by simp only [copyConstructed, copied_this, mapThis_this]
  head := by simp only [copyConstructed, copied_this, mapThis_this]
  tail := by simp only [copyConstructed, copied_this, mapThis_this]
  count := by simp only [copyConstructed, copied_this, mapThis_this]
  full := by simp only [copyConstructed, copied_this, mapThis_this]
  flag := by simp only [copyConstructed, copied_this, mapThis_this]
  cell := (copyConstructed_prepared traits fresh).cell other.count_
  untouched := (copyConstructed_prepared traits fresh).untouched other.count_

theorem retargeted_prepared (apart : s.this.buffer_ ≠ other.buffer_)
    (fresh : other.buffer_ ≠ some s.mem.next) :
    Prepared other s.mem (s.retargeted traits other) := by
  have frame := Frame.cleared s
  have next : s.cleared.deallocated.mem.next = s.mem.next := by
    rw [deallocated_next, frame.next]
  have prepared : Prepared other s.cleared.deallocated.mem (s.retargeted traits other) :=
    .of_grown rfl rfl (by rwa [next])
  refine ⟨prepared.apart, prepared.raw, fun p own => ?_⟩
  rw [prepared.kept p own, deallocated_slots, frame.elsewhere p (by rw [own]; exact apart.symm)]

theorem copyAssigned_duplicates (apart : s.this.buffer_ ≠ other.buffer_)
    (fresh : other.buffer_ ≠ some s.mem.next) :
    Duplicates ⟨other, s.mem⟩ (s.copyAssigned traits other) where
  capacity := by simp only [copyAssigned, retargeted, copied_this, mapThis_this]
  head := by simp only [copyAssigned, retargeted, copied_this, mapThis_this]
  tail := by simp only [copyAssigned, retargeted, copied_this, mapThis_this]
  count := by simp only [copyAssigned, retargeted, copied_this, mapThis_this]
  full := by simp only [copyAssigned, retargeted, copied_this, mapThis_this]
  flag := rfl
  cell := (retargeted_prepared traits apart fresh).cell other.count_
  untouched := (retargeted_prepared traits apart fresh).untouched other.count_

end State

/-! ## Two objects in one memory -/

/-- The target `t` of a copy shares its memory with an object whose fields and
    slots are those of `s`. -/
structure Beside (s t : State T A) : Prop where
  apart : t.this.buffer_ ≠ s.this.buffer_
  slots : ∀ p, p.block = s.this.buffer_ → t.mem.slots p = s.mem.slots p
  fresh : s.this.buffer_ ≠ some t.mem.next
  quiet : t.mem.fuse = none

namespace Beside

variable {s t : State T A}

/-- Calls on the target do not disturb the other object. -/
theorem after (h : Beside s t) (updates : List (Update T)) : Beside s (t.after updates) := by
  have frame := Frame.after h.quiet updates
  refine ⟨?_, ?_, ?_, frame.fuse.trans h.quiet⟩
  · rw [frame.buffer]
    exact h.apart
  · intro p own
    rw [frame.elsewhere p (by rw [own]; exact h.apart.symm), h.slots p own]
  · rw [frame.next]
    exact h.fresh

/-- A target of any capacity, created in the memory of any reachable source. -/
theorem created {c c' : Nat} (pos : 0 < c) (pos' : 0 < c') (a a' : A) (updates : List (Update T)) :
    let s := (State.created c a : State T A).after updates
    Beside s (final (RingBuffer.create c' a') ⟨RingBuffer.blank a', s.mem⟩) := by
  intro s
  have start := created_eq (T := T) pos a
  have quiet : (State.created c a : State T A).mem.fuse = none := by rw [start]; rfl
  have frame := Frame.after quiet updates
  have buffer : s.this.buffer_ = some 0 := by rw [frame.buffer, start]
  have next : s.mem.next = 1 := by rw [frame.next, start]
  have run := run_create (s := ⟨RingBuffer.blank a', s.mem⟩) (frame.fuse.trans quiet) pos' a'
  rw [final_of_run run]
  exact {
    apart := by
      intro same
      rw [buffer] at same
      cases next.symm.trans (Option.some.inj same)
    slots := by
      intro p own
      refine (Memory.grow_slots _ p).trans (if_neg ?_)
      intro same
      rw [own, buffer] at same
      cases next.symm.trans (Option.some.inj same).symm
    fresh := by
      intro same
      rw [buffer] at same
      cases Option.some.inj same
    quiet := frame.fuse.trans quiet }

end Beside

/-- A copy of a buffer after any calls, made into a new object or assigned to any
    target beside it, mirrors the buffer exactly when it was copyable. -/
theorem copies_iff {c : Nat} (pos : 0 < c) (a : A) (updates : List (Update T))
    (traits : AllocatorTraits A) (t : State T A)
    (beside : Beside ((State.created c a : State T A).after updates) t) :
    let s := (State.created c a : State T A).after updates
    (Copies (RingBuffer.copyConstruct traits s.this) s.this
        ⟨RingBuffer.blank s.this.allocator_, t.mem⟩ ↔ Copyable s) ∧
      (Copies (RingBuffer.copyAssign traits false s.this) s.this t ↔ Copyable s) := by
  intro s
  have start := created_eq (T := T) pos a
  have quiet : (State.created c a : State T A).mem.fuse = none := by rw [start]; rfl
  have counted : s.this.Counted c := (Holds.created pos a).counted.after quiet updates
  have same : Copyable (⟨s.this, t.mem⟩ : State T A) ↔ Copyable s :=
    copyable_congr rfl fun k => beside.slots _ rfl
  have mirrored : ∀ {member : Op T A Unit} {d : RingBuffer A} {copy : State T A},
      member.run ⟨d, t.mem⟩ = .ok () copy → Duplicates ⟨s.this, t.mem⟩ copy →
        (Copies member s.this ⟨d, t.mem⟩ ↔ Copyable s) := by
    intro member d copy run duplicates
    rw [← same, ← duplicates.mirrors_iff counted]
    constructor
    · rintro ⟨copy', run', mirrors⟩
      rw [run] at run'
      cases run'
      exact mirrors
    · intro mirrors
      exact ⟨copy, run, mirrors⟩
  constructor
  · exact mirrored (run_copyConstruct (s := ⟨RingBuffer.blank _, t.mem⟩) beside.quiet traits s.this)
      (State.copyConstructed_duplicates traits beside.fresh)
  · exact mirrored (run_copyAssign beside.quiet traits s.this)
      (State.copyAssigned_duplicates traits beside.apart beside.fresh)

/-- `std::allocator` propagates nothing and is the same everywhere. -/
def AllocatorTraits.standard : AllocatorTraits Unit := ⟨false, id, id⟩

/-- Partly filled from slot 0: a copy and its source answer alike. -/
theorem copies_two :
    let s := (State.created 3 () : State Nat Unit).after [.pushBack 7, .pushBack 8]
    let t := (final (RingBuffer.create 2 ()) ⟨RingBuffer.blank (), s.mem⟩).after [.pushBack 1]
    Copies (RingBuffer.copyConstruct .standard s.this) s.this ⟨RingBuffer.blank (), t.mem⟩ ∧
      Copies (RingBuffer.copyAssign .standard false s.this) s.this t := by
  have both := copies_iff (by decide : 0 < 3) () [.pushBack 7, .pushBack 8] .standard _
    ((Beside.created (by decide) (by decide : 0 < 2) () () _).after [.pushBack (1 : Nat)])
  exact ⟨both.1.mpr (by decide), both.2.mpr (by decide)⟩

/-- After one overwrite the copy's `back()` is the element before the last, and
    after one pop the copy reads a slot nothing was copied to. -/
theorem copies_fails :
    let s := (State.created 2 () : State Nat Unit).after [.pushBack 1, .pushBack 2, .pushBack 3]
    let s' := (State.created 3 () : State Nat Unit).after [.pushBack 1, .pushBack 2, .popFront]
    let copy := final (RingBuffer.copyConstruct .standard s.this) ⟨RingBuffer.blank (), s.mem⟩
    let copy' := final (RingBuffer.copyConstruct .standard s'.this) ⟨RingBuffer.blank (), s'.mem⟩
    (reply Query.back.ask s = .ok (some 3) ∧ reply Query.back.ask copy = .ok (some 2)) ∧
      (reply (Query.index 0).ask s' = .ok (some 2) ∧
        reply (Query.index 0).ask copy' = .ok none) ∧
      ¬ Copies (RingBuffer.copyConstruct .standard s.this) s.this ⟨RingBuffer.blank (), s.mem⟩ ∧
      ¬ Copies (RingBuffer.copyAssign .standard false s'.this) s'.this
        ⟨RingBuffer.blank (), s'.mem⟩ := by
  refine ⟨⟨rfl, rfl⟩, ⟨rfl, rfl⟩, ?_, ?_⟩
  · rintro ⟨copy, run, mirrors⟩
    cases run
    have same : (3 : Nat) = 2 := mirrors.answers .back
    cases same
  · rintro ⟨copy, run, mirrors⟩
    cases run
    exact mirrors.answers (.index 0)

end Dkyb
