import RingBuffer.SpecialMembers

/-! # Copying when something throws

The two copying members fail at the allocation or at the copy of some element.
The element loop leaves the elements it has constructed and the object that
counts them; nothing in either member cleans up.
-/

namespace Dkyb

open Stateful

variable {T A : Type}

namespace State

theorem armed_of_fuse {s : State T A} {fuse : Option Nat} (h : s.mem.fuse = fuse) :
    s.armed fuse = s := by
  subst h
  rfl

/-- The element loop of a copy, thrown out of at element `j`. -/
def interrupted (s : State T A) (other : RingBuffer A) (j : Nat) : State T A :=
  let s := s.copied other j
  let target : Ptr := ⟨s.this.buffer_, j⟩
  let source : Ptr := ⟨other.buffer_, j⟩
  { s with
    mem := { s.mem with
      fuse := none
      trace := .construct target (s.mem.slots target).live ::
        .read source (s.mem.slots source).live ::
        .subscript other.buffer_ j other.capacity_ ::
        .subscript s.this.buffer_ j s.this.capacity_ :: s.mem.trace } }

@[simp] theorem interrupted_this (s : State T A) (other : RingBuffer A) (j : Nat) :
    (s.interrupted other j).this = s.this := s.copied_this other j

@[simp] theorem interrupted_slots (s : State T A) (other : RingBuffer A) (j : Nat) :
    (s.interrupted other j).mem.slots = (s.copied other j).mem.slots := rfl

theorem vacated_armed (s : State T A) (fuse : Option Nat) (n : Nat) :
    (s.armed fuse).vacated n = (s.vacated n).armed fuse := by
  induction n with
  | zero => rfl
  | succ n ih =>
      simp only [vacated, ih]
      rfl

theorem cleared_armed (s : State T A) (fuse : Option Nat) :
    (s.armed fuse).cleared = s.cleared.armed fuse := by
  rw [cleared, vacated_armed]
  rfl

theorem deallocated_armed (s : State T A) (fuse : Option Nat) :
    (s.armed fuse).deallocated = s.deallocated.armed fuse := by
  unfold deallocated
  rw [armed_this]
  cases s.this.buffer_ <;> rfl

/-- The copy constructor up to the new block, still without elements. -/
def duplicated (s : State T A) (traits : AllocatorTraits A) (other : RingBuffer A) : State T A :=
  let allocator := traits.selectOnContainerCopyConstruction other.allocator_
  (s.allocated allocator other.capacity_).mapThis fun _ =>
    { other with
      allocator_ := allocator
      buffer_ := some s.mem.next
      justOverwrote_ := false
      overwritePosition_ := 0 }

/-- Copy assignment just before it asks for a new block. -/
def stranded (s : State T A) (traits : AllocatorTraits A) (other : RingBuffer A) : State T A :=
  s.cleared.deallocated.mapThis fun rb =>
    { rb with
      allocator_ :=
        if traits.propagateOnContainerCopyAssignment then other.allocator_ else rb.allocator_
      capacity_ := other.capacity_ }

theorem stranded_armed (s : State T A) (fuse : Option Nat) (traits : AllocatorTraits A)
    (other : RingBuffer A) :
    (s.armed fuse).stranded traits other = (s.stranded traits other).armed fuse := by
  simp only [stranded, cleared_armed, deallocated_armed]
  rfl

end State

/-- The second half of copy assignment. -/
def RingBuffer.refill (other : RingBuffer A) : Op T A Unit := do
  let rb := (← get).this
  let block ← allocate rb.allocator_ rb.capacity_
  modify (State.mapThis fun rb =>
    { rb with
      buffer_ := some block
      head_ := other.head_
      tail_ := other.tail_
      count_ := other.count_
      full_ := other.full_ })
  copyElements other
  modify (State.mapThis fun rb => { rb with justOverwrote_ := false })

/-! ## The element loop -/

section Rounds

variable (s : State T A) (other : RingBuffer A)

/-- While there is something left to burn, a loop of `n` rounds copies; otherwise
    the round without it throws. -/
theorem run_rounds (j n : Nat) :
    (forRange n fun i => do
      construct (← RingBuffer.subscript i) do
        emit (.subscript other.buffer_ i other.capacity_)
        read ⟨other.buffer_, i⟩).run (s.armed (some j)) =
      if n ≤ j then .ok () ((s.copied other n).armed (some (j - n)))
      else .error .element (s.interrupted other j) := by
  induction n with
  | zero => rfl
  | succ n ih =>
      simp only [forRange, EStateM.run_bind, ih]
      rcases Nat.lt_trichotomy n j with earlier | here | later
      · obtain ⟨left, rest⟩ : ∃ left, j - n = left + 1 := ⟨j - n - 1, by omega⟩
        have next : j - (n + 1) = left := by omega
        rw [if_pos (Nat.le_of_lt earlier), if_pos (Nat.succ_le_of_lt earlier), rest, next]
        simp only [construct, EStateM.run_bind, RingBuffer.run_subscript, run_emit, run_read,
          EStateM.run_get]
        rw [run_mayThrow_succ rfl]
        rfl
      · subst here
        rw [if_pos (Nat.le_refl n), if_neg (Nat.not_succ_le_self n), Nat.sub_self]
        simp only [construct, EStateM.run_bind, RingBuffer.run_subscript, run_emit, run_read,
          EStateM.run_get]
        rw [run_mayThrow_zero rfl]
        rfl
      · rw [if_neg (Nat.not_le.mpr later), if_neg (by omega)]

theorem run_copyElements_armed (j : Nat) :
    (RingBuffer.copyElements other).run (s.armed (some j)) =
      if s.this.count_ ≤ j then
        .ok () ((s.copied other s.this.count_).armed (some (j - s.this.count_)))
      else .error .element (s.interrupted other j) := by
  simp only [RingBuffer.copyElements, EStateM.run_bind, EStateM.run_get]
  exact run_rounds s other j s.this.count_

end Rounds

/-! ## The allocation -/

theorem run_allocate_zero (s : State T A) (allocator : A) (n : Nat) :
    (allocate allocator n).run (s.armed (some 0)) = .error .badAlloc (s.armed none) := by
  simp only [allocate, EStateM.run_bind]
  rw [run_mayThrow_zero rfl]
  rfl

theorem run_allocate_succ (s : State T A) (allocator : A) (n j : Nat) :
    (allocate allocator n).run (s.armed (some (j + 1))) =
      .ok s.mem.next ((s.allocated allocator n).armed (some j)) := by
  simp only [allocate, EStateM.run_bind]
  rw [run_mayThrow_succ rfl]
  rfl

theorem run_allocate_ready {s : State T A} (ready : s.mem.fuse ≠ some 0) (allocator : A) (n : Nat) :
    (allocate allocator n).run s =
      .ok s.mem.next ((s.allocated allocator n).armed (s.mem.fuse.map Nat.pred)) := by
  cases fuse : s.mem.fuse with
  | none =>
      rw [run_allocate fuse, Option.map_none, ← fuse]
      rfl
  | some j =>
      cases j with
      | zero => exact absurd fuse ready
      | succ j =>
          rw [← State.armed_of_fuse fuse, run_allocate_succ]
          rfl

/-! ## The members -/

/-- The three ways out of a member that allocates and then copies `n` elements. -/
theorem cases_of_copying {s stopped whole : State T A} {broken : Nat → State T A}
    {member : Op T A Unit} {n : Nat}
    (quiet : s.mem.fuse = none → member.run s = .ok () (whole.armed none))
    (zero : member.run (s.armed (some 0)) = .error .badAlloc stopped)
    (succ : ∀ j, member.run (s.armed (some (j + 1))) =
      if n ≤ j then .ok () (whole.armed (some (j - n))) else .error .element (broken j)) :
    s.mem.fuse = some 0 ∧ member.run s = .error .badAlloc stopped ∨
      (∃ j < n, s.mem.fuse = some (j + 1) ∧ member.run s = .error .element (broken j)) ∨
      (∀ j, s.mem.fuse = some j → n < j) ∧ ∃ fuse, member.run s = .ok () (whole.armed fuse) := by
  cases fuse : s.mem.fuse with
  | none => exact .inr (.inr ⟨fun _ => nofun, none, quiet fuse⟩)
  | some k =>
      have armed := State.armed_of_fuse fuse
      cases k with
      | zero =>
          rw [armed] at zero
          exact .inl ⟨rfl, zero⟩
      | succ j =>
          have run := succ j
          rw [armed] at run
          by_cases enough : n ≤ j
          · rw [if_pos enough] at run
            refine .inr (.inr ⟨fun k same => ?_, _, run⟩)
            cases same
            exact Nat.lt_succ_of_le enough
          · rw [if_neg enough] at run
            exact .inr (.inl ⟨j, Nat.not_le.mp enough, rfl, run⟩)

section Members

variable (s : State T A) (traits : AllocatorTraits A) (other : RingBuffer A)

theorem run_copyConstruct_zero :
    (RingBuffer.copyConstruct traits other).run (s.armed (some 0)) =
      .error .badAlloc (s.armed none) := by
  simp only [RingBuffer.copyConstruct, EStateM.run_bind, run_allocate_zero]

theorem run_copyConstruct_succ (j : Nat) :
    (RingBuffer.copyConstruct traits other).run (s.armed (some (j + 1))) =
      if other.count_ ≤ j then
        .ok () ((s.copyConstructed traits other).armed (some (j - other.count_)))
      else .error .element ((s.duplicated traits other).interrupted other j) := by
  simp only [RingBuffer.copyConstruct, EStateM.run_bind, run_allocate_succ, EStateM.run_modify]
  exact run_copyElements_armed (s.duplicated traits other) other j

/-- Everything before the allocation succeeds. -/
theorem run_copyAssign_stranded :
    (RingBuffer.copyAssign traits false other).run s =
      (RingBuffer.refill other).run (s.stranded traits other) := by
  simp only [RingBuffer.copyAssign, Bool.not_false, if_true, EStateM.run_bind, run_clear,
    run_deallocate, State.stranded]
  cases propagate : traits.propagateOnContainerCopyAssignment with
  | true =>
      simp only [if_true, EStateM.run_bind, EStateM.run_modify]
      rfl
  | false =>
      simp only [Bool.false_eq_true, if_false, EStateM.run_bind, EStateM.run_modify]
      rfl

theorem run_copyAssign_zero :
    (RingBuffer.copyAssign traits false other).run (s.armed (some 0)) =
      .error .badAlloc ((s.stranded traits other).armed none) := by
  rw [run_copyAssign_stranded, State.stranded_armed]
  simp only [RingBuffer.refill, EStateM.run_bind, EStateM.run_get, run_allocate_zero]

theorem run_copyAssign_succ (j : Nat) :
    (RingBuffer.copyAssign traits false other).run (s.armed (some (j + 1))) =
      if other.count_ ≤ j then
        .ok () ((s.copyAssigned traits other).armed (some (j - other.count_)))
      else .error .element ((s.retargeted traits other).interrupted other j) := by
  have refilled : (RingBuffer.refill other).run ((s.stranded traits other).armed (some (j + 1))) =
      (do
        RingBuffer.copyElements other
        modify (State.mapThis fun rb => { rb with justOverwrote_ := false })).run
        ((s.retargeted traits other).armed (some j)) := by
    simp only [RingBuffer.refill, EStateM.run_bind, EStateM.run_get, run_allocate_succ,
      EStateM.run_modify]
    rfl
  have count : (s.retargeted traits other).this.count_ = other.count_ := rfl
  rw [run_copyAssign_stranded, State.stranded_armed, refilled, EStateM.run_bind,
    run_copyElements_armed, count]
  by_cases all : other.count_ ≤ j
  · rw [if_pos all, if_pos all]
    rfl
  · rw [if_neg all, if_neg all]

/-- However a copy construction ends: nothing allocated, a copy of an element
    thrown out of, or all elements copied. -/
theorem copyConstruct_cases :
    s.mem.fuse = some 0 ∧
        (RingBuffer.copyConstruct traits other).run s = .error .badAlloc (s.armed none) ∨
      (∃ j < other.count_, s.mem.fuse = some (j + 1) ∧
        (RingBuffer.copyConstruct traits other).run s =
          .error .element ((s.duplicated traits other).interrupted other j)) ∨
      (∀ j, s.mem.fuse = some j → other.count_ < j) ∧ ∃ fuse,
        (RingBuffer.copyConstruct traits other).run s =
          .ok () ((s.copyConstructed traits other).armed fuse) := by
  refine cases_of_copying (fun quiet => ?_) (run_copyConstruct_zero s traits other)
    (run_copyConstruct_succ s traits other)
  have unarmed : (s.copyConstructed traits other).mem.fuse = none :=
    (State.copied_fuse ..).trans quiet
  rw [run_copyConstruct quiet, State.armed_of_fuse unarmed]

/-- The same for copy assignment from another object. -/
theorem copyAssign_cases :
    s.mem.fuse = some 0 ∧ (RingBuffer.copyAssign traits false other).run s =
        .error .badAlloc ((s.stranded traits other).armed none) ∨
      (∃ j < other.count_, s.mem.fuse = some (j + 1) ∧
        (RingBuffer.copyAssign traits false other).run s =
          .error .element ((s.retargeted traits other).interrupted other j)) ∨
      (∀ j, s.mem.fuse = some j → other.count_ < j) ∧ ∃ fuse,
        (RingBuffer.copyAssign traits false other).run s =
          .ok () ((s.copyAssigned traits other).armed fuse) := by
  refine cases_of_copying (fun quiet => ?_) (run_copyAssign_zero s traits other)
    (run_copyAssign_succ s traits other)
  have emptied := s.cleared.deallocated_fuse.trans s.cleared_fuse
  have unarmed : (s.copyAssigned traits other).mem.fuse = none :=
    (State.copied_fuse ..).trans (emptied.trans quiet)
  rw [run_copyAssign quiet, State.armed_of_fuse unarmed]

/-- The capacity is looked at after the block is there. -/
theorem run_create_refused {s : State T A} (ready : s.mem.fuse ≠ some 0) (allocator : A) :
    (RingBuffer.create 0 allocator).run s =
      .error (.invalidArgument "Ring buffer capacity must be greater than 0")
        (((s.allocated allocator 0).armed (s.mem.fuse.map Nat.pred)).mapThis fun _ =>
          { RingBuffer.blank allocator with buffer_ := some s.mem.next }) := by
  simp only [RingBuffer.create, EStateM.run_bind, run_allocate_ready ready, EStateM.run_modify,
    if_true, run_throw]
  rfl

theorem run_create_zero (capacity : Nat) (allocator : A) :
    (RingBuffer.create capacity allocator).run (s.armed (some 0)) =
      .error .badAlloc (s.armed none) := by
  simp only [RingBuffer.create, EStateM.run_bind, run_allocate_zero]

theorem run_create_ready {s : State T A} (ready : s.mem.fuse ≠ some 0) {capacity : Nat}
    (pos : capacity ≠ 0) (allocator : A) :
    ∃ s', (RingBuffer.create capacity allocator).run s = .ok () s' := by
  simp only [RingBuffer.create, EStateM.run_bind, run_allocate_ready ready, EStateM.run_modify,
    if_neg pos]
  exact ⟨_, rfl⟩

end Members

end Dkyb
