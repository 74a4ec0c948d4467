import RingBuffer.Lib.Lockstep
import RingBuffer.Representation

/-! # A ring buffer as a drop-oldest queue

The specification is `DropOldest`; what a client can see of a buffer is
`Observes`. The two stay together as long as every push that finds room finds
`tail_` behind the last element, and part at the first one that does not.
-/

namespace Dkyb

open Stateful

variable {T A : Type}

/-- What the observers of the class say about a buffer that should contain `q`. -/
structure Observes (c : Nat) (s : State T A) (q : List T) : Prop where
  size : s.this.size = q.length
  full : s.this.full = true ↔ q.length = c
  available : s.this.available = c - q.length
  index : ∀ i (hi : i < q.length), reply (Query.index i).ask s = .ok (some q[i])
  traverse : ∀ fuel, q.length < fuel →
    reply (RingBuffer.traverse fuel) s = .ok (some (q.map some))
  front : ∀ v, q.head? = some v → reply Query.front.ask s = .ok (some v)

def Update.command : Update T → DropOldest.Command T
  | .pushBack item | .pushBackMove item | .emplaceBack item => .push item
  | .popFront => .pop
  | .clear => .clear

/-- The reply of a call is the one the queue's answer asks for. -/
def Answers : DropOldest.Answer T → Except Exn (Reply T) → Prop
  | .done, reply => reply = .ok .done
  | .item v, reply => reply = .ok (.content (some v))
  | .empty, reply => ∃ what, reply = .error (.ringBufferException what)

def RefinesAt (c : Nat) (s : State T A) (q : List T) (update : Update T) : Prop :=
  Answers (DropOldest.answer q update.command) (reply update.perform s) ∧
    Observes c (final update.perform s) (DropOldest.step c q update.command)

/-- Every call of the run answers and leaves the buffer as the queue says. -/
def Refines (c : Nat) : State T A → List T → List (Update T) → Prop :=
  Lockstep.Agrees (fun s update => final update.perform s)
    (fun q update => DropOldest.step c q update.command) (RefinesAt c)

/-- A push that finds the buffer not full finds `tail_` behind the last element. -/
def FitsAt (s : State T A) (update : Update T) : Prop :=
  update.inserted.isSome = true → s.this.full_ = false → s.this.Aligned

instance (s : State T A) (update : Update T) : Decidable (FitsAt s update) :=
  inferInstanceAs (Decidable (_ → _ → _))

theorem fitsAt_of_not_insert (s : State T A) (update : Update T) (h : update.inserted = none) :
    FitsAt s update := by
  intro isInsert
  rw [h] at isInsert
  cases isInsert

def Fits : State T A → List (Update T) → Prop :=
  Lockstep.Guarded (fun s update => final update.perform s) FitsAt

instance (s : State T A) (updates : List (Update T)) : Decidable (Fits s updates) :=
  inferInstanceAs (Decidable (Lockstep.Guarded _ _ _ _))

/-! ## Observing -/

namespace Holds

variable {c : Nat} {s : State T A} {q : List T}

theorem emit (h : Holds c s q) (e : Event A) : Holds c (s.mapMem (Memory.emit e)) q :=
  ⟨h.counted, h.count, h.laid, h.quiet⟩

theorem looked (h : Holds c s q) (p : Ptr) : Holds c (s.looked p) q := (h.emit _).emit _

theorem asks_index (h : Holds c s q) {i : Nat} (hi : i < q.length) :
    ∃ s', (Query.index i).ask.run s = .ok (some q[i]) s' ∧ Holds c s' q := by
  have content : (s.mem.slots (s.occupiedPtr i)).content = some q[i] :=
    congrArg Slot.content (h.cell_entry hi)
  have run := run_ask_index (s := s) (h.count.symm ▸ hi)
  rw [content] at run
  exact ⟨_, run, (h.emit _).looked _⟩

theorem asks_front {v : T} (h : Holds c s (v :: q)) :
    ∃ s', Query.front.ask.run s = .ok (some v) s' ∧ Holds c s' (v :: q) := by
  have content : (s.mem.slots s.headPtr).content = some v := congrArg Slot.content h.cell_head
  have run := run_ask_front (s := s) (by simp [h.count])
  rw [content] at run
  exact ⟨_, run, h.looked _⟩

/-- The loop of a range-for reads the remaining elements and stops. -/
theorem run_visit (h : Holds c s q) (n m : Nat) : ∀ fuel i, i ≤ q.length → q.length - i < fuel →
    ∃ s', (RingBuffer.visit fuel ⟨i, n⟩ ⟨q.length, m⟩).run s =
      .ok (some ((q.drop i).map some)) s' := by
  intro fuel
  induction fuel generalizing s with
  | zero => intro i _ impossible; exact absurd impossible (Nat.not_lt_zero _)
  | succ fuel ih =>
      intro i inside enough
      by_cases last : i = q.length
      · subst last
        refine ⟨s, ?_⟩
        simp [RingBuffer.visit, RingBuffer.Iterator.equal]
      · have notEqual : RingBuffer.Iterator.equal ⟨i, n⟩ ⟨q.length, m⟩ = false := by
          simpa [RingBuffer.Iterator.equal] using last
        have hi : i < q.length := by omega
        obtain ⟨s₁, asked, h₁⟩ := h.asks_index hi
        obtain ⟨s₂, rest⟩ := ih h₁ (i + 1) (by omega) (by omega)
        have dereferenced : (RingBuffer.Iterator.dereference ⟨i, n⟩ >>= read).run s =
            .ok (some q[i]) s₁ := asked
        refine ⟨s₂, ?_⟩
        rw [EStateM.run_bind] at dereferenced
        simp only [RingBuffer.visit, notEqual, Bool.false_eq_true, if_false, EStateM.run_bind,
          EStateM.run_pure]
        cases located : (RingBuffer.Iterator.dereference ⟨i, n⟩).run s with
        | error e s' => rw [located] at dereferenced; cases dereferenced
        | ok p s' =>
            rw [located] at dereferenced
            simp only at dereferenced ⊢
            rw [dereferenced]
            simp only [RingBuffer.Iterator.increment, rest]
            rw [List.drop_eq_getElem_cons hi]
            rfl

theorem observes (h : Holds c s q) : Observes c s q where
  size := h.count
  full := h.full_iff
  available := by
    have bound := h.laid.fits
    simp only [List.length_map] at bound
    simp only [RingBuffer.available, h.counted.capacity, h.count]
    split
    · have := h.full_iff.mp ‹_›
      omega
    · rfl
  index i hi := by
    obtain ⟨s', run, _⟩ := h.asks_index hi
    exact reply_of_run run
  traverse fuel enough := by
    obtain ⟨s', run⟩ := h.run_visit s.this.size s.this.size fuel 0 (Nat.zero_le _) (by omega)
    have whole : (RingBuffer.traverse fuel).run s = .ok (some (q.map some)) s' := by
      simpa only [RingBuffer.traverse, RingBuffer.begin, RingBuffer.end_, EStateM.run_bind,
        EStateM.run_get, EStateM.run_pure, h.count, List.drop_zero] using run
    exact reply_of_run whole
  front v first := by
    cases q with
    | nil => cases first
    | cons x q =>
        obtain rfl : x = v := by simpa using first
        obtain ⟨s', run, _⟩ := h.asks_front
        exact reply_of_run run

/-! ## One call -/

/-- An insertion that fits drops the oldest element only when there is no room. -/
theorem insert (h : Holds c s q) {update : Update T} {v : T} (inserted : update.inserted = some v)
    (fits : FitsAt s update) : reply update.perform s = .ok .done ∧
      Holds c (final update.perform s) (DropOldest.push c q v) := by
  cases full : s.this.full_ with
  | false =>
      have run := run_insert_room h.quiet v inserted full
      refine ⟨reply_of_run run, ?_⟩
      rw [final_of_run run, DropOldest.push_room (h.room full)]
      exact h.appended full (fits (by rw [inserted]; rfl) full) v
  | true =>
      have filled := h.full_iff.mp full
      rw [DropOldest.push_full filled]
      cases q with
      | nil =>
          have := h.counted.pos
          simp only [List.length_nil] at filled
          omega
      | cons x q =>
          rcases run_insert_full h.quiet v inserted full with run | run
          · refine ⟨reply_of_run run, ?_⟩
            rw [final_of_run run]
            exact h.overwritten full v
          · refine ⟨reply_of_run run, ?_⟩
            rw [final_of_run run]
            exact h.replaced full v

/-- A call that fits answers like the queue and leaves what the queue holds. -/
theorem perform (h : Holds c s q) {update : Update T} (fits : FitsAt s update) :
    Answers (DropOldest.answer q update.command) (reply update.perform s) ∧
      Holds c (final update.perform s) (DropOldest.step c q update.command) := by
  cases update with
  | pushBack v | pushBackMove v | emplaceBack v => exact h.insert rfl fits
  | popFront =>
      cases q with
      | nil =>
          have run := run_perform_popFront_empty h.count
          refine ⟨⟨_, reply_of_error run⟩, ?_⟩
          rw [final_of_error run]
          exact h
      | cons x q =>
          have run := run_perform_popFront h.quiet (s := s) (by simp [h.count])
          have content : (s.mem.slots s.headPtr).content = some x :=
            congrArg Slot.content h.cell_head
          rw [content] at run
          refine ⟨reply_of_run run, ?_⟩
          rw [final_of_run run]
          exact h.popped
  | clear =>
      have run := run_perform_clear s
      refine ⟨reply_of_run run, ?_⟩
      rw [final_of_run run]
      exact h.cleared

/-- A push to the wrong slot shows at once: the last position reads raw storage. -/
theorem fits_of_observes (h : Holds c s q) {update : Update T}
    (seen : Observes c (final update.perform s) (DropOldest.step c q update.command)) :
    FitsAt s update := by
  intro isInsert notFull
  by_contra astray
  obtain ⟨v, inserted⟩ := Option.isSome_iff_exists.mp isInsert
  have command : update.command = .push v := by cases update <;> cases inserted <;> rfl
  have run := run_insert_room h.quiet v inserted notFull
  rw [command, DropOldest.step, DropOldest.push_room (h.room notFull), final_of_run run] at seen
  have cursors := RingBuffer.incrementTail_eq s.this notFull
  have count : (s.appended v).this.count_ = q.length + 1 := by
    simp only [State.appended, cursors, h.count]
  have asked := run_ask_index (s := s.appended v) (i := q.length) (by omega)
  have raw : ((s.appended v).mem.slots ((s.appended v).occupiedPtr q.length)).content = none := by
    have blank := congrArg Slot.content (h.appended_astray notFull astray v)
    rw [h.count] at blank
    simpa only [State.occupiedPtr, State.appended, cursors] using! blank
  have last := seen.index q.length (by simp)
  rw [reply_of_run asked, raw] at last
  simp at last

end Holds

/-- Run lemma: a buffer whose pushes all fit holds what the queue holds. -/
theorem Holds.after {c : Nat} {s : State T A} {q : List T} (h : Holds c s q)
    {updates : List (Update T)} (fits : Fits s updates) : Holds c (s.after updates)
      (updates.foldl (fun q update => DropOldest.step c q update.command) q) :=
  Lockstep.related_after (fun _ _ _ h fits => (h.perform fits).2) h fits

theorem Holds.refines_iff {c : Nat} {s : State T A} {q : List T} (h : Holds c s q)
    (updates : List (Update T)) : Refines c s q updates ↔ Fits s updates :=
  Lockstep.agrees_iff_guarded (fun _ _ _ h fits => (h.perform fits).2)
    (fun _ _ _ h fits => ⟨(h.perform fits).1, (h.perform fits).2.observes⟩)
    (fun _ _ _ h agrees => h.fits_of_observes agrees.2) h updates

/-- A new buffer shows an empty queue, and a run of calls on it refines the
    drop-oldest queue exactly when every push that finds room finds `tail_`
    right behind the last element. -/
theorem refines_dropOldest_iff {c : Nat} (pos : 0 < c) (a : A) (updates : List (Update T)) :
    Observes c (State.created c a : State T A) [] ∧
      (Refines c (State.created c a) [] updates ↔ Fits (State.created c a) updates) :=
  ⟨(Holds.created pos a).observes, (Holds.created pos a).refines_iff updates⟩

theorem refines_dropOldest_three : Refines 3 (State.created 3 () : State Nat Unit) []
    [.pushBack 1, .emplaceBack 2, .pushBackMove 3, .pushBack 4, .popFront, .clear, .pushBack 5] :=
  (refines_dropOldest_iff (by decide) () _).2.mpr (by decide)

/-- For capacity 3: overwrite once, pop once, push again. -/
def astrayRun : List (Update Nat) :=
  [.pushBack 1, .pushBack 2, .pushBack 3, .pushBack 4, .popFront, .pushBack 5]

/-- The last push of `astrayRun` lands on the slot of element 4, and the slot
    counted in its place holds nothing. -/
theorem refines_dropOldest_fails :
    ¬ Refines 3 (State.created 3 () : State Nat Unit) [] astrayRun ∧
      reply (Query.index 1).ask ((State.created 3 () : State Nat Unit).after astrayRun) =
        .ok (some 5) ∧
      reply (Query.index 2).ask ((State.created 3 () : State Nat Unit).after astrayRun) =
        .ok none := by
  refine ⟨?_, rfl, rfl⟩
  rw [(Holds.created (by decide) ()).refines_iff]
  decide

end Dkyb
