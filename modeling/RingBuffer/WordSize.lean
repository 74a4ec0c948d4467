import RingBuffer.Guarantees
import RingBuffer.Lib.Words

/-! # Cursors in 64 bits

The object's numbers as `size_type` has them. Every cursor function is written
again over words; along any run the words stand for the numbers of the object,
because the cursors stay below a capacity that is at most half the range.
-/

namespace Dkyb

open Stateful Words

variable {T A : Type}

abbrev SizeType := BitVec 64

/-- The numbers and flags of a ring buffer. -/
structure Cursors where
  capacity_ : SizeType
  head_ : SizeType
  tail_ : SizeType
  count_ : SizeType
  full_ : Bool
  justOverwrote_ : Bool
  overwritePosition_ : SizeType
  deriving DecidableEq, Repr

namespace Cursors

/-- Those of a new buffer. -/
def initial (capacity : SizeType) : Cursors := ⟨capacity, 0, 0, 0, false, false, 0⟩

def incrementHead (w : Cursors) : Cursors :=
  let w := { w with head_ := (w.head_ + 1) % w.capacity_ }
  let w := if w.full_ then { w with full_ := false } else w
  let w := if w.count_ > 0 then { w with count_ := w.count_ - 1 } else w
  { w with justOverwrote_ := false }

def overwriteAdvanceHead (w : Cursors) : Cursors :=
  let w := { w with overwritePosition_ := w.head_ }
  let w := { w with head_ := (w.head_ + 1) % w.capacity_ }
  { w with justOverwrote_ := true }

def incrementTail (w : Cursors) : Cursors :=
  let w := { w with tail_ := (w.tail_ + 1) % w.capacity_ }
  let w :=
    if !w.full_ then
      let w := { w with count_ := w.count_ + 1 }
      { w with full_ := w.count_ == w.capacity_ }
    else w
  { w with justOverwrote_ := false }

def decrementIndex (w : Cursors) (index : SizeType) : SizeType :=
  if index = 0 then w.capacity_ - 1 else index - 1

def reset (w : Cursors) : Cursors := { w with head_ := 0, tail_ := 0, count_ := 0, full_ := false }

def available (w : Cursors) : SizeType := if w.full_ then 0 else w.capacity_ - w.count_

/-- The slot that `operator[]` and the loop in `clear()` go to. -/
def slot (w : Cursors) (i : SizeType) : SizeType := (w.head_ + i) % w.capacity_

/-- What a call does that returns. -/
def moves (w : Cursors) : Modifier T → Cursors
  | .insert _ => if w.full_ then w.overwriteAdvanceHead else w.incrementTail
  | .popFront => w.incrementHead
  | .clear => w.reset

/-- Along a run: a call that throws leaves the words alone. -/
def run (w : Cursors) (s : State T A) : List (Option Nat × Modifier T) → Cursors
  | [] => w
  | (fuse, modifier) :: calls =>
      let s := s.armed fuse
      let w := if threw modifier.perform s then w else w.moves modifier
      w.run (final modifier.perform s) calls

theorem incrementHead_eq (w : Cursors) : w.incrementHead =
    { w with
      head_ := (w.head_ + 1) % w.capacity_
      full_ := false
      count_ := if w.count_ > 0 then w.count_ - 1 else w.count_
      justOverwrote_ := false } := by
  unfold incrementHead
  cases full : w.full_ with
  | true => split <;> simp_all
  | false => split <;> simp_all

theorem incrementTail_eq (w : Cursors) (room : w.full_ = false) : w.incrementTail =
    { w with
      tail_ := (w.tail_ + 1) % w.capacity_
      count_ := w.count_ + 1
      full_ := w.count_ + 1 == w.capacity_
      justOverwrote_ := false } := by
  simp [incrementTail, room]

theorem moves_capacity (w : Cursors) (modifier : Modifier T) :
    (w.moves modifier).capacity_ = w.capacity_ := by
  cases modifier with
  | insert insertion =>
      cases full : w.full_ with
      | true => simp only [moves, full, if_true, overwriteAdvanceHead]
      | false => simp only [moves, full, Bool.false_eq_true, if_false, incrementTail_eq w full]
  | popFront => simp only [moves, incrementHead_eq]
  | clear => rfl

/-- The words stand for the numbers of the object. -/
structure Encodes (w : Cursors) (rb : RingBuffer A) : Prop where
  capacity : w.capacity_.toNat = rb.capacity_
  head : w.head_.toNat = rb.head_
  tail : w.tail_.toNat = rb.tail_
  count : w.count_.toNat = rb.count_
  full : w.full_ = rb.full_
  justOverwrote : w.justOverwrote_ = rb.justOverwrote_
  overwritePosition : w.overwritePosition_.toNat = rb.overwritePosition_

/-! ## The words follow the numbers -/

namespace Encodes

variable {w : Cursors} {rb : RingBuffer A}

theorem initial (capacity : SizeType) (a : A) (block : Option Nat) :
    Encodes (initial capacity)
      { RingBuffer.blank a with capacity_ := capacity.toNat, buffer_ := block } :=
  ⟨rfl, rfl, rfl, rfl, rfl, rfl, rfl⟩

/-- The next position of a cursor. -/
theorem next (h : Encodes w rb) (roomy : Roomy w.capacity_) {x : SizeType} {n : Nat}
    (position : x.toNat = n) (inside : n < rb.capacity_) :
    ((x + 1) % w.capacity_).toNat = (n + 1) % rb.capacity_ := by
  have bound : x.toNat ≤ w.capacity_.toNat := by
    rw [position, h.capacity]
    exact Nat.le_of_lt inside
  rw [BitVec.toNat_umod, roomy.toNat_succ bound, position, h.capacity]

theorem incrementHead (h : Encodes w rb) (counted : rb.Counted rb.capacity_)
    (roomy : Roomy w.capacity_) : Encodes w.incrementHead rb.incrementHead := by
  have head := h.next roomy h.head counted.head
  rw [RingBuffer.incrementHead_eq, incrementHead_eq]
  refine ⟨h.capacity, head, h.tail, ?_, rfl, rfl, h.overwritePosition⟩
  simp only [← h.count]
  by_cases nonempty : w.count_ > 0
  · rw [if_pos nonempty, roomy.toNat_pred nonempty]
  · rw [if_neg nonempty]
    have empty : ¬ 0 < w.count_.toNat := nonempty
    omega

theorem overwriteAdvanceHead (h : Encodes w rb) (counted : rb.Counted rb.capacity_)
    (roomy : Roomy w.capacity_) : Encodes w.overwriteAdvanceHead rb.overwriteAdvanceHead :=
  ⟨h.capacity, h.next roomy h.head counted.head, h.tail, h.count, h.full, rfl, h.head⟩

theorem incrementTail (h : Encodes w rb) (counted : rb.Counted rb.capacity_)
    (roomy : Roomy w.capacity_) (notFull : rb.full_ = false) :
    Encodes w.incrementTail rb.incrementTail := by
  have tail := h.next roomy h.tail counted.tail
  have bound : w.count_.toNat ≤ w.capacity_.toNat := by
    rw [h.count, h.capacity]
    exact counted.count
  have count : (w.count_ + 1).toNat = rb.count_ + 1 := by rw [roomy.toNat_succ bound, h.count]
  rw [RingBuffer.incrementTail_eq rb notFull, incrementTail_eq w (h.full.trans notFull)]
  refine ⟨h.capacity, h.head, tail, count, ?_, rfl, h.overwritePosition⟩
  simp only [← count, ← h.capacity]
  rw [Bool.eq_iff_iff, beq_iff_eq, beq_iff_eq, BitVec.toNat_inj]

theorem reset (h : Encodes w rb) : Encodes w.reset rb.reset :=
  ⟨h.capacity, rfl, rfl, rfl, rfl, h.justOverwrote, h.overwritePosition⟩

/-- Step lemma. -/
theorem moves (h : Encodes w rb) (counted : rb.Counted rb.capacity_) (roomy : Roomy w.capacity_)
    (modifier : Modifier T) : Encodes (w.moves modifier) (rb.modified modifier) := by
  cases modifier with
  | insert insertion =>
      simp only [Cursors.moves, RingBuffer.modified, RingBuffer.pushed, h.full]
      cases full : rb.full_ with
      | true => exact h.overwriteAdvanceHead counted roomy
      | false => exact h.incrementTail counted roomy full
  | popFront => exact h.incrementHead counted roomy
  | clear => exact h.reset

/-- Run lemma. -/
theorem run {c : Nat} {s : State T A} (h : Encodes w s.this) (usable : Usable c s)
    (roomy : Roomy w.capacity_) (calls : List (Option Nat × Modifier T)) :
    Encodes (w.run s calls) (s.trials calls).this := by
  induction calls generalizing w s with
  | nil => exact h
  | cons call calls ih =>
      obtain ⟨fuse, modifier⟩ := call
      have next := usable.trial fuse modifier
      have this := usable.trial_this fuse modifier
      simp only [Cursors.run]
      cases thrown : threw modifier.perform (s.armed fuse) with
      | true =>
          rw [thrown, if_pos rfl] at this
          rw [if_pos rfl]
          rw [← this] at h
          exact ih h next roomy
      | false =>
          have moved := h.moves usable.counted_self roomy modifier
          rw [thrown, if_neg Bool.false_ne_true] at this
          rw [if_neg Bool.false_ne_true]
          rw [← this] at moved
          refine ih moved next ?_
          rw [moves_capacity]
          exact roomy

end Encodes

/-! ## Exact expressions -/

/-- Every index expression of the code, in words, has the value it has in
    unbounded integers. -/
structure Exact (w : Cursors) : Prop where
  head_succ : ((w.head_ + 1).toNat : Int) = w.head_.toNat + 1
  tail_succ : ((w.tail_ + 1).toNat : Int) = w.tail_.toNat + 1
  head_add : ∀ i < w.count_, ((w.head_ + i).toNat : Int) = w.head_.toNat + i.toNat
  count_succ : ((w.count_ + 1).toNat : Int) = w.count_.toNat + 1
  count_pred : w.count_ > 0 → ((w.count_ - 1).toNat : Int) = w.count_.toNat - 1
  room : ((w.capacity_ - w.count_).toNat : Int) = w.capacity_.toNat - w.count_.toNat
  tail_pred : ((w.decrementIndex w.tail_).toNat : Int) =
    if w.tail_.toNat = 0 then (w.capacity_.toNat : Int) - 1 else w.tail_.toNat - 1

/-- The cursors and every slot the code gets from them are below the capacity. -/
structure Inside (w : Cursors) : Prop where
  head : w.head_ < w.capacity_
  tail : w.tail_ < w.capacity_
  head_next : (w.head_ + 1) % w.capacity_ < w.capacity_
  tail_next : (w.tail_ + 1) % w.capacity_ < w.capacity_
  slot : ∀ i < w.count_, w.slot i < w.capacity_
  last : w.decrementIndex w.tail_ < w.capacity_
  overwritten : w.overwritePosition_ < w.capacity_

/-- What the code computes from the words stands for what it computes from the
    numbers. -/
structure Agrees (w : Cursors) (rb : RingBuffer A) : Prop where
  available : w.available.toNat = rb.available
  slot : ∀ i < w.count_, (w.slot i).toNat = (rb.head_ + i.toNat) % rb.capacity_
  last : (w.decrementIndex w.tail_).toNat = rb.decrementIndex rb.tail_

section Fitting

variable {w : Cursors} (roomy : Roomy w.capacity_)

include roomy

theorem decrementIndex_toNat (index : SizeType) : (w.decrementIndex index).toNat =
    if index.toNat = 0 then w.capacity_.toNat - 1 else index.toNat - 1 := by
  have zero : index = 0 ↔ index.toNat = 0 := BitVec.toNat_eq
  unfold decrementIndex
  by_cases first : index = 0
  · rw [if_pos first, if_pos (zero.mp first), roomy.toNat_pred roomy.pos]
  · have positive := Nat.pos_of_ne_zero fun none => first (zero.mpr none)
    rw [if_neg first, if_neg (Nat.ne_of_gt positive), roomy.toNat_pred positive]

theorem inside_of_bounds (head : w.head_ < w.capacity_) (tail : w.tail_ < w.capacity_)
    (overwritten : w.overwritePosition_ < w.capacity_) : w.Inside where
  head := head
  tail := tail
  head_next := BitVec.umod_lt _ roomy.pos
  tail_next := BitVec.umod_lt _ roomy.pos
  slot := fun _ _ => BitVec.umod_lt _ roomy.pos
  last := by
    have pos := roomy.pos
    rw [BitVec.lt_def] at tail ⊢
    rw [decrementIndex_toNat roomy]
    split
    · omega
    · omega
  overwritten := overwritten

theorem exact_of_bounds (head : w.head_ < w.capacity_) (tail : w.tail_ < w.capacity_)
    (count : w.count_ ≤ w.capacity_) : w.Exact where
  head_succ := by
    rw [roomy.toNat_succ (Nat.le_of_lt head)]
    rfl
  tail_succ := by
    rw [roomy.toNat_succ (Nat.le_of_lt tail)]
    rfl
  head_add := fun i accepted => by
    rw [roomy.toNat_add head (Nat.le_trans (Nat.le_of_lt accepted) count)]
    rfl
  count_succ := by
    rw [roomy.toNat_succ count]
    rfl
  count_pred := fun nonempty => by
    have positive : 0 < w.count_.toNat := nonempty
    rw [roomy.toNat_pred positive]
    omega
  room := by
    have bound : w.count_.toNat ≤ w.capacity_.toNat := count
    rw [BitVec.toNat_sub_of_le count]
    omega
  tail_pred := by
    have pos := roomy.pos
    rw [decrementIndex_toNat roomy]
    split
    · omega
    · omega

end Fitting

/-! ## The same slots -/

namespace Encodes

variable {w : Cursors} {rb : RingBuffer A} (h : Encodes w rb) (roomy : Roomy w.capacity_)

include h

theorem available (counted : rb.Counted rb.capacity_) : w.available.toNat = rb.available := by
  have bound : w.count_.toNat ≤ w.capacity_.toNat := by
    rw [h.count, h.capacity]
    exact counted.count
  unfold Cursors.available RingBuffer.available
  rw [h.full]
  cases rb.full_ with
  | true => rfl
  | false =>
      rw [if_neg Bool.false_ne_true, if_neg Bool.false_ne_true, BitVec.toNat_sub_of_le bound,
        h.count, h.capacity]

include roomy

theorem slot (counted : rb.Counted rb.capacity_) {i : SizeType} (accepted : i < w.count_) :
    (w.slot i).toNat = (rb.head_ + i.toNat) % rb.capacity_ := by
  have head : w.head_.toNat < w.capacity_.toNat := by
    rw [h.head, h.capacity]
    exact counted.head
  have index : i.toNat ≤ w.capacity_.toNat := by
    have bound := counted.count
    rw [← h.count, ← h.capacity] at bound
    exact Nat.le_trans (Nat.le_of_lt accepted) bound
  rw [Cursors.slot, BitVec.toNat_umod, roomy.toNat_add head index, h.head, h.capacity]

theorem decrementIndex {index : SizeType} :
    (w.decrementIndex index).toNat = rb.decrementIndex index.toNat := by
  rw [decrementIndex_toNat roomy, h.capacity, RingBuffer.decrementIndex]

theorem agrees (counted : rb.Counted rb.capacity_) : w.Agrees rb where
  available := h.available counted
  slot _ accepted := h.slot roomy counted accepted
  last := by rw [h.decrementIndex roomy, h.tail]

end Encodes

end Cursors

/-- The position of the last overwrite was one of `head_`. -/
theorem overwritePosition_modified {rb : RingBuffer A} (counted : rb.Counted rb.capacity_)
    (inside : rb.overwritePosition_ < rb.capacity_) (modifier : Modifier T) :
    (rb.modified modifier).overwritePosition_ < rb.capacity_ := by
  cases modifier with
  | insert insertion =>
      simp only [RingBuffer.modified, RingBuffer.pushed]
      cases full : rb.full_ with
      | true =>
          rw [if_pos rfl, RingBuffer.overwriteAdvanceHead_eq]
          exact counted.head
      | false =>
          rw [if_neg Bool.false_ne_true, RingBuffer.incrementTail_eq rb full]
          exact inside
  | popFront =>
      simp only [RingBuffer.modified, RingBuffer.incrementHead_eq]
      exact inside
  | clear => exact inside

theorem overwritePosition_trials {c : Nat} {s : State T A} (usable : Usable c s)
    (inside : s.this.overwritePosition_ < c) (calls : List (Option Nat × Modifier T)) :
    (s.trials calls).this.overwritePosition_ < c := by
  induction calls generalizing s with
  | nil => exact inside
  | cons call calls ih =>
      refine ih (usable.trial call.1 call.2) ?_
      rw [usable.trial_this call.1 call.2]
      split
      · exact inside
      · rw [← usable.counted.capacity] at inside ⊢
        exact overwritePosition_modified usable.counted_self inside call.2

/-- In 64 bits, at every capacity from 1 to 2 ^ 63 - 1 and after any calls on a new
    buffer, some of which may throw: the words stand for the numbers and lead to the
    same slots, no index expression wraps around, and every slot is below the
    capacity. -/
theorem index_arithmetic_exact (capacity : SizeType) (pos : 0 < capacity.toNat)
    (most : capacity.toNat ≤ 2 ^ 63 - 1) (a : A) (calls : List (Option Nat × Modifier T)) :
    let s : State T A := State.created capacity.toNat a
    let w := (Cursors.initial capacity).run s calls
    w.Encodes (s.trials calls).this ∧ w.Exact ∧ w.Inside ∧ w.Agrees (s.trials calls).this := by
  intro s w
  have roomy : Roomy capacity := ⟨pos, by omega⟩
  have usable : Usable capacity.toNat s := .created pos a
  have begun : (Cursors.initial capacity).Encodes (State.created capacity.toNat a : State T A).this := by
    rw [created_eq pos]
    exact .initial capacity a (some 0)
  have encodes : w.Encodes (s.trials calls).this := begun.run usable roomy calls
  have counted := (usable.trials calls).counted_self
  have same : w.capacity_ = capacity :=
    BitVec.eq_of_toNat_eq (encodes.capacity.trans (usable.trials calls).counted.capacity)
  rw [← same] at roomy
  have head : w.head_ < w.capacity_ := by
    rw [BitVec.lt_def, encodes.head, encodes.capacity]
    exact counted.head
  have tail : w.tail_ < w.capacity_ := by
    rw [BitVec.lt_def, encodes.tail, encodes.capacity]
    exact counted.tail
  have count : w.count_ ≤ w.capacity_ := by
    rw [BitVec.le_def, encodes.count, encodes.capacity]
    exact counted.count
  have overwritten : w.overwritePosition_ < w.capacity_ := by
    have start : (State.created capacity.toNat a : State T A).this.overwritePosition_ <
        capacity.toNat := by
      rw [created_eq pos]
      exact pos
    rw [BitVec.lt_def, encodes.overwritePosition, same]
    exact overwritePosition_trials usable start calls
  exact ⟨encodes, Cursors.exact_of_bounds roomy head tail count,
    Cursors.inside_of_bounds roomy head tail overwritten, encodes.agrees roomy counted⟩

/-- The largest capacity, with pushes, a push that throws and a pop. -/
theorem index_arithmetic_exact_largest :
    let calls : List (Option Nat × Modifier Nat) :=
      [(none, .insert (.pushBack (.value 5))),
        (some 0, .insert (.emplaceBack (.lvalue (.value 6)))),
        (none, .insert (.pushBackMove (.value 7))), (none, .popFront)]
    let w := (Cursors.initial (2 ^ 63 - 1)).run
      (State.created (2 ^ 63 - 1 : SizeType).toNat () : State Nat Unit) calls
    w.count_ = 1 ∧ w.Exact := by
  intro calls w
  have safe := index_arithmetic_exact (2 ^ 63 - 1) (by decide +kernel) (by decide +kernel) () calls
  exact ⟨by decide +kernel, safe.2.1⟩

end Dkyb
