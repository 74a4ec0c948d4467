import RingBuffer.Lib.Cyclic
import RingBuffer.Lib.DropOldest
import RingBuffer.Runs

/-! # The list a ring buffer stands for

`Holds c s q` is the relation between the three cursors, the flags and the slots
of a buffer and the list of its elements. `tail_` is not part of it: whether
`tail_` points right behind the last element is a separate question, which
overwriting answers with no.
-/

namespace Dkyb

open Stateful

variable {T A : Type}

structure Holds (c : Nat) (s : State T A) (q : List T) : Prop where
  counted : s.this.Counted c
  count : s.this.count_ = q.length
  laid : Cyclic.Laid s.cell .raw c s.this.head_ (q.map Slot.holding)
  quiet : s.mem.fuse = none

namespace State

variable (s : State T A)

theorem cell_update (m : Memory T A) (buffer : Option Nat) (j : Nat) (x : Slot T) :
    (fun k => Function.update m.slots ⟨buffer, j⟩ x ⟨buffer, k⟩) =
      Function.update (fun k => m.slots ⟨buffer, k⟩) j x := by
  funext k
  by_cases same : k = j
  · subst same
    simp only [Function.update_self]
  · rw [Function.update_of_ne same, Function.update_of_ne]
    simpa using same

theorem buffer_of_storage {rb rb' : RingBuffer A} (h : rb.storage = rb'.storage) :
    rb.buffer_ = rb'.buffer_ := congrArg Prod.fst h

theorem appended_cell (v : T) :
    (s.appended v).cell = Function.update s.cell s.this.tail_ (.holding v) := by
  have buffer : (s.appended v).this.buffer_ = s.this.buffer_ :=
    buffer_of_storage (RingBuffer.storage_incrementTail s.this)
  have cells := cell_update s.mem s.this.buffer_ s.this.tail_ (.holding v)
  funext k
  rw [cell, buffer]
  exact congrFun cells k

theorem overwritten_cell (v : T) : (s.overwritten v).cell =
    Function.update s.cell s.this.head_ ⟨some v, (s.cell s.this.head_).live⟩ :=
  cell_update s.mem s.this.buffer_ s.this.head_ _

theorem replaced_cell (v : T) :
    (s.replaced v).cell = Function.update s.cell s.this.head_ (.holding v) :=
  cell_update s.mem s.this.buffer_ s.this.head_ _

theorem popped_cell : s.popped.cell = Function.update s.cell s.this.head_ .raw := by
  have buffer : s.popped.this.buffer_ = s.this.buffer_ :=
    buffer_of_storage (RingBuffer.storage_incrementHead s.this)
  have cells := cell_update s.mem s.this.buffer_ s.this.head_ .raw
  funext k
  rw [cell, buffer]
  exact congrFun cells k

theorem cleared_cell (k : Nat) :
    (∃ i < s.this.count_, k = (s.this.head_ + i) % s.this.capacity_) ∧ s.cleared.cell k = .raw ∨
      (∀ i < s.this.count_, k ≠ (s.this.head_ + i) % s.this.capacity_) ∧
        s.cleared.cell k = s.cell k := by
  have buffer : s.cleared.this.buffer_ = s.this.buffer_ := by
    simp only [cleared, mapThis_this, RingBuffer.reset, vacated_this]
  rcases s.vacated_slots s.this.count_ ⟨s.this.buffer_, k⟩ with ⟨⟨i, hi, same⟩, gone⟩ | ⟨apart, kept⟩
  · refine .inl ⟨⟨i, hi, ?_⟩, ?_⟩
    · simpa [occupiedPtr] using same
    · rw [cell, buffer]
      exact gone
  · refine .inr ⟨fun i hi same => apart i hi ?_, ?_⟩
    · simp only [occupiedPtr, same]
    · rw [cell, buffer]
      exact kept

end State

namespace Holds

variable {c : Nat} {s : State T A} {q : List T} {x : T}

theorem full_iff (h : Holds c s q) : s.this.full_ = true ↔ q.length = c := by
  rw [h.counted.full_iff, h.count]

theorem room (h : Holds c s q) (notFull : s.this.full_ = false) : q.length < c := by
  rw [← h.count]
  exact h.counted.room notFull

theorem cell_entry (h : Holds c s q) {i : Nat} (hi : i < q.length) :
    s.cell ((s.this.head_ + i) % s.this.capacity_) = .holding q[i] := by
  have entry := h.laid.entry i (by simpa using hi)
  rw [h.counted.capacity, entry, List.getElem_map]

/-- A state that differs in its trace alone. -/
theorem of_same {s' : State T A} (h : Holds c s q) (this : s'.this = s.this)
    (slots : s'.mem.slots = s.mem.slots) (fuse : s'.mem.fuse = s.mem.fuse) : Holds c s' q where
  counted := this ▸ h.counted
  count := this ▸ h.count
  laid := by
    have cell : s'.cell = s.cell := by
      funext k
      simp only [State.cell, this, slots]
    rw [cell, this]
    exact h.laid
  quiet := fuse.trans h.quiet

theorem cell_head (h : Holds c s (x :: q)) : s.cell s.this.head_ = .holding x := h.laid.first

/-- The live slots are exactly the ones counted as occupied. -/
theorem live_iff (h : Holds c s q) (k : Nat) : (s.cell k).live = true ↔
    ∃ i < s.this.count_, k = (s.this.head_ + i) % s.this.capacity_ := by
  constructor
  · intro live
    by_contra outside
    have raw := h.laid.rest k fun i hi same => outside ⟨i, by simpa [h.count] using hi,
      by rw [h.counted.capacity]; exact same⟩
    rw [raw] at live
    cases live
  · rintro ⟨i, hi, rfl⟩
    rw [h.cell_entry (by rwa [← h.count])]
    rfl

/-! ## What the modifiers do to it -/

theorem created {c : Nat} (pos : 0 < c) (a : A) : Holds c (State.created c a : State T A) [] := by
  rw [created_eq pos]
  exact {
    counted := {
      pos := pos
      capacity := rfl
      head := pos
      tail := pos
      count := Nat.zero_le c
      full := (beq_eq_false_iff_ne.mpr (Nat.ne_of_lt pos)).symm }
    count := rfl
    laid := .empty pos fun k => by simp [State.cell, Memory.grow_slots, Memory.empty, Memory.emit]
    quiet := rfl }

theorem appended (h : Holds c s q) (notFull : s.this.full_ = false) (aligned : s.this.Aligned)
    (v : T) : Holds c (s.appended v) (q ++ [v]) := by
  have extended := h.laid.append (by simpa using h.room notFull) (.holding v)
  have behind : s.this.tail_ = (s.this.head_ + (q.map Slot.holding).length) % c := by
    rw [List.length_map, ← h.count, ← h.counted.capacity]
    exact aligned
  have head : (s.appended v).this.head_ = s.this.head_ := by
    simp only [State.appended, RingBuffer.incrementTail_eq _ notFull]
  exact {
    counted := h.counted.incrementTail notFull
    count := by
      simp only [State.appended, RingBuffer.incrementTail_eq _ notFull, h.count,
        List.length_append, List.length_singleton]
    laid := by
      rw [State.appended_cell, head, behind, List.map_append]
      exact extended
    quiet := h.quiet }

theorem overwritten (h : Holds c s (x :: q)) (full : s.this.full_ = true) (v : T) :
    Holds c (s.overwritten v) (q ++ [v]) := by
  have size : q.length + 1 = c := by simpa using h.full_iff.mp full
  have replaced := h.laid.replace_first (by simpa using size) (.holding v)
  exact {
    counted := h.counted.overwriteAdvanceHead
    count := h.count.trans (by simp)
    laid := by
      rw [State.overwritten_cell, h.cell_head, List.map_append]
      simpa only [State.overwritten, RingBuffer.overwriteAdvanceHead_eq, h.counted.capacity] using!
        replaced
    quiet := h.quiet }

theorem replaced (h : Holds c s (x :: q)) (full : s.this.full_ = true) (v : T) :
    Holds c (s.replaced v) (q ++ [v]) := by
  have size : q.length + 1 = c := by simpa using h.full_iff.mp full
  have replaced := h.laid.replace_first (by simpa using size) (.holding v)
  exact {
    counted := h.counted.overwriteAdvanceHead
    count := h.count.trans (by simp)
    laid := by
      rw [State.replaced_cell, List.map_append]
      simpa only [State.replaced, RingBuffer.overwriteAdvanceHead_eq, h.counted.capacity] using!
        replaced
    quiet := h.quiet }

theorem popped (h : Holds c s (x :: q)) : Holds c s.popped q := by
  have nonempty : s.this.count_ ≠ 0 := by simp [h.count]
  have shorter := h.laid.drop_first
  exact {
    counted := h.counted.incrementHead nonempty
    count := by simp [State.popped, RingBuffer.incrementHead_eq, h.count]
    laid := by
      rw [State.popped_cell]
      simpa only [State.popped, RingBuffer.incrementHead_eq, h.counted.capacity] using shorter
    quiet := h.quiet }

theorem cleared (h : Holds c s q) : Holds c s.cleared [] where
  counted := by
    simp only [State.cleared, State.mapThis_this, State.vacated_this]
    exact h.counted.reset
  count := rfl
  laid := by
    refine .empty h.counted.pos fun k => ?_
    rcases s.cleared_cell k with ⟨_, gone⟩ | ⟨apart, kept⟩
    · exact gone
    · rw [kept]
      apply h.laid.rest
      intro i hi
      rw [← h.counted.capacity]
      exact apart i (by simpa [h.count] using hi)
  quiet := by simpa only [State.cleared, State.mapThis_mem, State.vacated_fuse] using h.quiet

/-- A push to where `tail_` says, when that is not behind the last element,
    counts in a slot that holds nothing. -/
theorem appended_astray (h : Holds c s q) (notFull : s.this.full_ = false)
    (astray : ¬ s.this.Aligned) (v : T) :
    (s.appended v).cell ((s.this.head_ + s.this.count_) % s.this.capacity_) = .raw := by
  have elsewhere : s.this.tail_ ≠ (s.this.head_ + (q.map Slot.holding).length) % c := by
    rw [List.length_map, ← h.count, ← h.counted.capacity]
    exact astray
  have blank := h.laid.misplaced (by simpa using h.room notFull) elsewhere (.holding v)
  rw [State.appended_cell, h.count, h.counted.capacity]
  simpa only [List.length_map] using blank

end Holds

end Dkyb
