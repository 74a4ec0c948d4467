import RingBuffer.SpecialMembers

/-! # What every call preserves

Whatever a call does to the elements, it leaves the storage its object owns, the
blocks handed out and given back, and the slots of all other blocks alone. The
cursors stay in range, aligned or not.
-/

namespace Dkyb

open Stateful

variable {T A : Type}

namespace Event

def allocated : Event A → Option (Nat × Nat × A)
  | .allocate block n allocator => some (block, n, allocator)
  | _ => none

def deallocated : Event A → Option (Nat × Nat × A)
  | .deallocate block n allocator => some (block, n, allocator)
  | _ => none

end Event

namespace Memory

/-- Every block handed out so far, with its element count and its allocator. -/
def allocations (m : Memory T A) : List (Nat × Nat × A) := m.trace.filterMap Event.allocated

/-- Every block given back so far, with the count and the allocator given. -/
def deallocations (m : Memory T A) : List (Nat × Nat × A) := m.trace.filterMap Event.deallocated

end Memory

structure Frame (s s' : State T A) : Prop where
  storage : s'.this.storage = s.this.storage
  next : s'.mem.next = s.mem.next
  fuse : s'.mem.fuse = s.mem.fuse
  allocations : s'.mem.allocations = s.mem.allocations
  deallocations : s'.mem.deallocations = s.mem.deallocations
  elsewhere : ∀ p, p.block ≠ s.this.buffer_ → s'.mem.slots p = s.mem.slots p

namespace Frame

variable {s s' s'' : State T A}

theorem refl (s : State T A) : Frame s s := ⟨rfl, rfl, rfl, rfl, rfl, fun _ _ => rfl⟩

theorem buffer (h : Frame s s') : s'.this.buffer_ = s.this.buffer_ := congrArg Prod.fst h.storage

theorem trans (h : Frame s s') (h' : Frame s' s'') : Frame s s'' where
  storage := h'.storage.trans h.storage
  next := h'.next.trans h.next
  fuse := h'.fuse.trans h.fuse
  allocations := h'.allocations.trans h.allocations
  deallocations := h'.deallocations.trans h.deallocations
  elsewhere p apart := by
    rw [h'.elsewhere p (by rwa [h.buffer]), h.elsewhere p apart]

/-- One slot of the own block is written. -/
theorem written {slots : Ptr → Slot T} {x : Slot T} {buffer : Option Nat} {k : Nat} (p : Ptr)
    (apart : p.block ≠ buffer) : Function.update slots ⟨buffer, k⟩ x p = slots p := by
  apply Function.update_of_ne
  rintro rfl
  exact apart rfl

variable (s)

theorem appended (v : T) : Frame s (s.appended v) where
  storage := RingBuffer.storage_incrementTail s.this
  next := rfl
  fuse := rfl
  allocations := rfl
  deallocations := rfl
  elsewhere := written

theorem overwritten (v : T) : Frame s (s.overwritten v) where
  storage := rfl
  next := rfl
  fuse := rfl
  allocations := rfl
  deallocations := rfl
  elsewhere := written

theorem replaced (v : T) : Frame s (s.replaced v) where
  storage := rfl
  next := rfl
  fuse := rfl
  allocations := rfl
  deallocations := rfl
  elsewhere := written

theorem popped : Frame s s.popped where
  storage := RingBuffer.storage_incrementHead s.this
  next := rfl
  fuse := rfl
  allocations := rfl
  deallocations := rfl
  elsewhere := written

/-- One round of the loop in `clear()`. -/
theorem vacated (n : Nat) : Frame s (s.vacated n) := by
  induction n with
  | zero => exact refl s
  | succ n ih =>
      apply ih.trans
      exact {
        storage := rfl
        next := rfl
        fuse := rfl
        allocations := rfl
        deallocations := rfl
        elsewhere := written }

theorem cleared : Frame s s.cleared :=
  (vacated s s.this.count_).trans ⟨rfl, rfl, rfl, rfl, rfl, fun _ _ => rfl⟩

theorem looked (p : Ptr) : Frame s (s.looked p) := ⟨rfl, rfl, rfl, rfl, rfl, fun _ _ => rfl⟩

/-- Copying elements in writes to the own block only. -/
theorem copied (other : RingBuffer A) (n : Nat) : Frame s (s.copied other n) := by
  induction n with
  | zero => exact refl s
  | succ n ih =>
      apply ih.trans
      exact {
        storage := rfl
        next := rfl
        fuse := rfl
        allocations := rfl
        deallocations := rfl
        elsewhere := written }

variable {s}

theorem update (quiet : s.mem.fuse = none) (call : Update T) : Frame s (final call.perform s) := by
  have insert : ∀ v, call.inserted = some v → Frame s (final call.perform s) := by
    intro v inserted
    cases full : s.this.full_ with
    | false =>
        rw [final_of_run (run_insert_room quiet v inserted full)]
        exact appended s v
    | true =>
        rcases run_insert_full quiet v inserted full with run | run
        · rw [final_of_run run]
          exact overwritten s v
        · rw [final_of_run run]
          exact replaced s v
  cases call with
  | pushBack v | pushBackMove v | emplaceBack v => exact insert v rfl
  | popFront =>
      by_cases empty : s.this.count_ = 0
      · rw [final_of_error (run_perform_popFront_empty empty)]
        exact refl s
      · rw [final_of_run (run_perform_popFront quiet empty)]
        exact popped s
  | clear =>
      rw [final_of_run (run_perform_clear s)]
      exact cleared s

theorem query (s : State T A) (call : Query) : Frame s (final call.ask s) := by
  by_cases empty : s.this.count_ = 0
  · rw [final_of_error (run_ask_empty empty call)]
    exact refl s
  · cases call with
    | front =>
        rw [final_of_run (run_ask_front empty)]
        exact looked s _
    | back =>
        rw [final_of_run (run_ask_back empty)]
        exact looked s _
    | index i =>
        by_cases inside : i < s.this.count_
        · rw [final_of_run (run_ask_index inside)]
          exact ⟨rfl, rfl, rfl, rfl, rfl, fun _ _ => rfl⟩
        · rw [final_of_error (run_ask_outside (Nat.not_lt.mp inside))]
          exact refl s

theorem perform (quiet : s.mem.fuse = none) (call : Call T) : Frame s (final call.perform s) := by
  cases call with
  | update call => exact update quiet call
  | query call =>
      rw [final_query]
      exact query s call

/-- Run lemma. -/
theorem after (quiet : s.mem.fuse = none) (updates : List (Update T)) :
    Frame s (s.after updates) := by
  induction updates generalizing s with
  | nil => exact refl s
  | cons call updates ih =>
      have first := update quiet call
      exact first.trans (ih (first.fuse.trans quiet))

end Frame

/-! ## Cursors -/

/-- How a call moves the cursors, whatever the elements. -/
def RingBuffer.moves (rb : RingBuffer A) : Update T → RingBuffer A
  | .pushBack _ | .pushBackMove _ | .emplaceBack _ =>
      if rb.full_ then rb.overwriteAdvanceHead else rb.incrementTail
  | .popFront => if rb.count_ = 0 then rb else rb.incrementHead
  | .clear => rb.reset

namespace State

variable {s : State T A}

theorem update_this (quiet : s.mem.fuse = none) (call : Update T) :
    (final call.perform s).this = s.this.moves call := by
  have insert : ∀ v, call.inserted = some v → (final call.perform s).this =
      if s.this.full_ then s.this.overwriteAdvanceHead else s.this.incrementTail := by
    intro v inserted
    cases full : s.this.full_ with
    | false =>
        rw [final_of_run (run_insert_room quiet v inserted full)]
        rfl
    | true =>
        rcases run_insert_full quiet v inserted full with run | run
        · rw [final_of_run run]
          rfl
        · rw [final_of_run run]
          rfl
  cases call with
  | pushBack v | pushBackMove v | emplaceBack v => exact insert v rfl
  | popFront =>
      by_cases empty : s.this.count_ = 0
      · rw [final_of_error (run_perform_popFront_empty empty), RingBuffer.moves, if_pos empty]
      · rw [final_of_run (run_perform_popFront quiet empty), RingBuffer.moves, if_neg empty]
        rfl
  | clear =>
      rw [final_of_run (run_perform_clear s)]
      simp only [State.cleared, State.mapThis_this, State.vacated_this, RingBuffer.moves]

theorem after_this (quiet : s.mem.fuse = none) (updates : List (Update T)) :
    (s.after updates).this = updates.foldl RingBuffer.moves s.this := by
  induction updates generalizing s with
  | nil => rfl
  | cons call updates ih =>
      rw [List.foldl_cons, ← update_this quiet call]
      exact ih ((Frame.update quiet call).fuse.trans quiet)

end State

namespace RingBuffer.Counted

variable {rb : RingBuffer A} {c : Nat}

theorem moves (h : Counted c rb) (call : Update T) : Counted c (rb.moves call) := by
  have insert : Counted c (if rb.full_ then rb.overwriteAdvanceHead else rb.incrementTail) := by
    cases full : rb.full_ with
    | false => exact h.incrementTail full
    | true => exact h.overwriteAdvanceHead
  cases call with
  | pushBack v | pushBackMove v | emplaceBack v => exact insert
  | popFront =>
      by_cases empty : rb.count_ = 0
      · rw [RingBuffer.moves, if_pos empty]
        exact h
      · rw [RingBuffer.moves, if_neg empty]
        exact h.incrementHead empty
  | clear => exact h.reset

/-- Run lemma. -/
theorem foldl_moves (h : Counted c rb) (updates : List (Update T)) :
    Counted c (updates.foldl RingBuffer.moves rb) := by
  induction updates generalizing rb with
  | nil => exact h
  | cons call updates ih => exact ih (h.moves call)

theorem update {s : State T A} (h : Counted c s.this) (quiet : s.mem.fuse = none)
    (call : Update T) : Counted c (final call.perform s).this := by
  rw [State.update_this quiet]
  exact h.moves call

theorem after {s : State T A} (h : Counted c s.this) (quiet : s.mem.fuse = none)
    (updates : List (Update T)) : Counted c (s.after updates).this := by
  rw [State.after_this quiet]
  exact h.foldl_moves updates

end RingBuffer.Counted

end Dkyb
