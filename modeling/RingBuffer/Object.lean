import RingBuffer.Memory

/-! # The fields of a ring buffer and the functions that only touch them

`incrementHead`, `overwriteAdvanceHead`, `incrementTail` and `decrementIndex` are
the private cursor functions of the class; the observers that read no element
stand next to them. Sizes are natural numbers here.
-/

namespace Dkyb

/-- The data members of `ring_buffer<T, Allocator>`. -/
structure RingBuffer (A : Type) where
  capacity_ : Nat
  allocator_ : A
  buffer_ : Option Nat
  head_ : Nat
  tail_ : Nat
  count_ : Nat
  full_ : Bool
  justOverwrote_ : Bool
  overwritePosition_ : Nat
  deriving DecidableEq, Repr

namespace RingBuffer

variable {A : Type}

/-- The default member initialisers, with an allocator already in place. -/
def blank (allocator : A) : RingBuffer A :=
  ⟨0, allocator, none, 0, 0, 0, false, false, 0⟩

/-! ## Observers -/

def size (rb : RingBuffer A) : Nat := rb.count_

def capacity (rb : RingBuffer A) : Nat := rb.capacity_

def empty (rb : RingBuffer A) : Bool := rb.count_ == 0

def full (rb : RingBuffer A) : Bool := rb.full_

def available (rb : RingBuffer A) : Nat := if rb.full_ then 0 else rb.capacity_ - rb.count_

/-! ## Cursor functions -/

/-- Increment the head index, wrapping around if necessary. -/
def incrementHead (rb : RingBuffer A) : RingBuffer A :=
  let rb := { rb with head_ := (rb.head_ + 1) % rb.capacity_ }
  let rb := if rb.full_ then { rb with full_ := false } else rb
  let rb := if rb.count_ > 0 then { rb with count_ := rb.count_ - 1 } else rb
  { rb with justOverwrote_ := false }

/-- Advance the head index when overwriting an element. `tail_` stays behind. -/
def overwriteAdvanceHead (rb : RingBuffer A) : RingBuffer A :=
  let rb := { rb with overwritePosition_ := rb.head_ }
  let rb := { rb with head_ := (rb.head_ + 1) % rb.capacity_ }
  { rb with justOverwrote_ := true }

/-- Increment the tail index, wrapping around if necessary. -/
def incrementTail (rb : RingBuffer A) : RingBuffer A :=
  let rb := { rb with tail_ := (rb.tail_ + 1) % rb.capacity_ }
  let rb :=
    if !rb.full_ then
      let rb := { rb with count_ := rb.count_ + 1 }
      { rb with full_ := rb.count_ == rb.capacity_ }
    else rb
  { rb with justOverwrote_ := false }

/-- Decrement an index, wrapping around if necessary. -/
def decrementIndex (rb : RingBuffer A) (index : Nat) : Nat :=
  if index = 0 then rb.capacity_ - 1 else index - 1

/-- The last four statements of `clear()`; they leave `just_overwrote_` and
    `overwrite_position_` alone. -/
def reset (rb : RingBuffer A) : RingBuffer A :=
  { rb with head_ := 0, tail_ := 0, count_ := 0, full_ := false }

/-- What a move leaves of the object moved from. -/
def release (rb : RingBuffer A) : RingBuffer A :=
  { rb with buffer_ := none, capacity_ := 0, head_ := 0, tail_ := 0, count_ := 0, full_ := false }

/-! ## Which fields they leave alone -/

/-- Everything that says which storage the object owns. -/
def storage (rb : RingBuffer A) : Option Nat × Nat × A := (rb.buffer_, rb.capacity_, rb.allocator_)

variable (rb : RingBuffer A)

theorem incrementHead_eq : rb.incrementHead =
    { rb with
      head_ := (rb.head_ + 1) % rb.capacity_
      full_ := false
      count_ := rb.count_ - 1
      justOverwrote_ := false } := by
  rcases rb with ⟨c, a, b, h, t, n, f, j, o⟩
  cases f <;> rcases n.eq_zero_or_pos with rfl | pos <;> simp [incrementHead, *]

@[simp] theorem overwriteAdvanceHead_eq : rb.overwriteAdvanceHead =
    { rb with
      overwritePosition_ := rb.head_
      head_ := (rb.head_ + 1) % rb.capacity_
      justOverwrote_ := true } := rfl

theorem incrementTail_eq (room : rb.full_ = false) : rb.incrementTail =
    { rb with
      tail_ := (rb.tail_ + 1) % rb.capacity_
      count_ := rb.count_ + 1
      full_ := rb.count_ + 1 == rb.capacity_
      justOverwrote_ := false } := by
  simp [incrementTail, room]

@[simp] theorem storage_incrementHead : rb.incrementHead.storage = rb.storage := by
  rw [incrementHead_eq]
  rfl

@[simp] theorem storage_overwriteAdvanceHead : rb.overwriteAdvanceHead.storage = rb.storage := rfl

@[simp] theorem storage_incrementTail : rb.incrementTail.storage = rb.storage := by
  unfold incrementTail storage
  simp only
  split <;> rfl

@[simp] theorem storage_reset : rb.reset.storage = rb.storage := rfl

/-! ## The cursor invariant -/

/-- What every cursor function preserves on an object of capacity `c`, whatever
    its slots hold: in range, and `full_` exactly when `count_` is the capacity. -/
structure Counted (c : Nat) (rb : RingBuffer A) : Prop where
  pos : 0 < c
  capacity : rb.capacity_ = c
  head : rb.head_ < c
  tail : rb.tail_ < c
  count : rb.count_ ≤ c
  full : rb.full_ = (rb.count_ == c)

namespace Counted

variable {rb : RingBuffer A} {c : Nat}

theorem full_iff (h : Counted c rb) : rb.full_ = true ↔ rb.count_ = c := by
  rw [h.full, beq_iff_eq]

theorem room (h : Counted c rb) (notFull : rb.full_ = false) : rb.count_ < c := by
  have bound := h.count
  have : rb.count_ ≠ c := fun same => by simp [h.full_iff.mpr same] at notFull
  omega

theorem incrementHead (h : Counted c rb) (nonempty : rb.count_ ≠ 0) :
    Counted c rb.incrementHead := by
  have bound := h.count
  rw [incrementHead_eq]
  exact {
    pos := h.pos
    capacity := h.capacity
    head := by simpa only [h.capacity] using Nat.mod_lt _ h.pos
    tail := h.tail
    count := by simp only; omega
    full := by simp only; symm; rw [beq_eq_false_iff_ne]; omega }

theorem overwriteAdvanceHead (h : Counted c rb) : Counted c rb.overwriteAdvanceHead where
  pos := h.pos
  capacity := h.capacity
  head := by simpa only [overwriteAdvanceHead_eq, h.capacity] using Nat.mod_lt _ h.pos
  tail := h.tail
  count := h.count
  full := h.full

theorem incrementTail (h : Counted c rb) (notFull : rb.full_ = false) :
    Counted c rb.incrementTail := by
  rw [incrementTail_eq rb notFull]
  exact {
    pos := h.pos
    capacity := h.capacity
    head := h.head
    tail := by simpa only [h.capacity] using Nat.mod_lt _ h.pos
    count := h.room notFull
    full := by simp only [h.capacity] }

theorem reset (h : Counted c rb) : Counted c rb.reset where
  pos := h.pos
  capacity := h.capacity
  head := h.pos
  tail := h.pos
  count := Nat.zero_le c
  full := by
    have := h.pos
    simp only [RingBuffer.reset]
    symm
    rw [beq_eq_false_iff_ne]
    omega

end Counted

/-! ## Where the next and the last element are -/

/-- The next free slot is where `tail_` says it is. -/
def Aligned (rb : RingBuffer A) : Prop := rb.tail_ = (rb.head_ + rb.count_) % rb.capacity_

instance (rb : RingBuffer A) : Decidable rb.Aligned := inferInstanceAs (Decidable (_ = _))

/-- The slot index `back()` goes to. -/
def backIndex (rb : RingBuffer A) : Nat :=
  if rb.justOverwrote_ then rb.overwritePosition_ else rb.decrementIndex rb.tail_

/-- The bookkeeping behind `back()` is sound: either nothing was just overwritten
    and `tail_` is behind the last element, or the buffer is full and the slot
    overwritten last is the one before the head. -/
def Tracks (rb : RingBuffer A) : Prop :=
  (rb.justOverwrote_ = false ∧ rb.Aligned) ∨
    (rb.justOverwrote_ = true ∧ rb.count_ = rb.capacity_ ∧
      rb.overwritePosition_ < rb.capacity_ ∧
      rb.head_ = (rb.overwritePosition_ + 1) % rb.capacity_)

theorem Aligned.incrementTail {rb : RingBuffer A} (h : rb.Aligned) (notFull : rb.full_ = false) :
    rb.incrementTail.Aligned := by
  unfold Aligned at *
  rw [incrementTail_eq rb notFull]
  simp only [h, Nat.mod_add_mod, Nat.add_assoc]

theorem Aligned.incrementHead {rb : RingBuffer A} (h : rb.Aligned) (nonempty : rb.count_ ≠ 0) :
    rb.incrementHead.Aligned := by
  unfold Aligned at *
  rw [incrementHead_eq]
  simp only [h, Nat.mod_add_mod]
  congr 1
  omega

theorem Aligned.reset (rb : RingBuffer A) : rb.reset.Aligned := (Nat.zero_mod _).symm

/-- One step back from the position behind the last element. -/
theorem decrementIndex_behind {rb : RingBuffer A} {c i : Nat} (h : Counted c rb)
    (inside : i < c) :
    rb.decrementIndex ((rb.head_ + (i + 1)) % c) = (rb.head_ + i) % c := by
  have head := h.head
  unfold decrementIndex
  rw [h.capacity]
  rcases Nat.lt_trichotomy (rb.head_ + (i + 1)) c with below | wraps | beyond
  · rw [Nat.mod_eq_of_lt below, Nat.mod_eq_of_lt (by omega), if_neg (by omega)]
    omega
  · rw [wraps, Nat.mod_self, if_pos rfl, Nat.mod_eq_of_lt (by omega)]
    omega
  · rw [Nat.mod_eq_sub_mod (by omega), Nat.mod_eq_of_lt (by omega), if_neg (by omega),
      Nat.mod_eq_sub_mod (by omega), Nat.mod_eq_of_lt (by omega)]
    omega

/-- Sound bookkeeping takes `back()` to the last occupied slot. -/
theorem Tracks.backIndex_eq {rb : RingBuffer A} {c : Nat} (h : rb.Tracks) (counted : Counted c rb)
    (nonempty : rb.count_ ≠ 0) : rb.backIndex = (rb.head_ + (rb.count_ - 1)) % c := by
  have bound := counted.count
  rcases h with ⟨flag, aligned⟩ | ⟨flag, filled, inside, head⟩
  · have last : rb.count_ = rb.count_ - 1 + 1 := by omega
    have behind : rb.tail_ = (rb.head_ + (rb.count_ - 1 + 1)) % c := by
      rw [← last, ← counted.capacity]
      exact aligned
    simp only [backIndex, flag, Bool.false_eq_true, if_false]
    rw [behind]
    exact decrementIndex_behind counted (by omega)
  · rw [counted.capacity] at filled inside head
    simp only [backIndex, flag, if_true, filled]
    rw [head, Nat.mod_add_mod, show rb.overwritePosition_ + 1 + (c - 1) = rb.overwritePosition_ + c by
      omega, Nat.add_mod_right, Nat.mod_eq_of_lt inside]

theorem Tracks.aligned {rb : RingBuffer A} {c : Nat} (h : rb.Tracks) (counted : Counted c rb)
    (notFull : rb.full_ = false) : rb.Aligned := by
  rcases h with ⟨_, aligned⟩ | ⟨_, filled, _⟩
  · exact aligned
  · rw [counted.capacity] at filled
    rw [counted.full_iff.mpr filled] at notFull
    cases notFull

theorem Tracks.incrementTail {rb : RingBuffer A} {c : Nat} (h : rb.Tracks) (counted : Counted c rb)
    (notFull : rb.full_ = false) : rb.incrementTail.Tracks := by
  refine .inl ⟨?_, (h.aligned counted notFull).incrementTail notFull⟩
  rw [incrementTail_eq rb notFull]

theorem Counted.overwriteAdvanceHead_tracks {rb : RingBuffer A} {c : Nat} (h : Counted c rb)
    (full : rb.full_ = true) : rb.overwriteAdvanceHead.Tracks := by
  refine .inr ⟨rfl, ?_, ?_, rfl⟩
  · exact (h.full_iff.mp full).trans h.capacity.symm
  · simpa only [overwriteAdvanceHead_eq, h.capacity] using h.head

end RingBuffer

end Dkyb
