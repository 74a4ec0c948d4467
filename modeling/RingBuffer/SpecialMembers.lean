import RingBuffer.Runs

/-! # Copying, moving and assigning ring buffers

The special members take the other object's fields as they are at the call. The
members that move return what they leave of the other object. `Heap` puts any
number of objects into one memory.
-/

namespace Dkyb

open Stateful

variable {T A : Type}

/-- What `allocator_traits<Allocator>` and the allocator's own moves decide. -/
structure AllocatorTraits (A : Type) where
  propagateOnContainerCopyAssignment : Bool
  selectOnContainerCopyConstruction : A → A
  /-- The allocator left behind when one is moved from. -/
  movedFrom : A → A

namespace RingBuffer

/-- The element loop of both copying members. It pairs up physical slots. -/
def copyElements (other : RingBuffer A) : Op T A Unit := do
  forRange (← get).this.count_ fun i => do
    construct (← subscript i) do
      emit (.subscript other.buffer_ i other.capacity_)
      read ⟨other.buffer_, i⟩

/-- `ring_buffer(ring_buffer const& other)`. -/
def copyConstruct (traits : AllocatorTraits A) (other : RingBuffer A) : Op T A Unit := do
  let allocator := traits.selectOnContainerCopyConstruction other.allocator_
  let block ← allocate allocator other.capacity_
  modify (State.mapThis fun _ =>
    { other with
      allocator_ := allocator
      buffer_ := some block
      justOverwrote_ := false
      overwritePosition_ := 0 })
  copyElements other

/-- `ring_buffer(ring_buffer&& other)`. -/
def moveConstruct (traits : AllocatorTraits A) (other : RingBuffer A) :
    Op T A (RingBuffer A) := do
  modify (State.mapThis fun _ => { other with justOverwrote_ := false, overwritePosition_ := 0 })
  return { other.release with allocator_ := traits.movedFrom other.allocator_ }

/-- `operator=(ring_buffer const& other)`; `same` is `this == &other`. -/
def copyAssign (traits : AllocatorTraits A) (same : Bool) (other : RingBuffer A) :
    Op T A Unit := do
  if !same then
    clear
    deallocate
    if traits.propagateOnContainerCopyAssignment then
      modify (State.mapThis fun rb => { rb with allocator_ := other.allocator_ })
    modify (State.mapThis fun rb => { rb with capacity_ := other.capacity_ })
    let rb := (← get).this
    let block ← allocate rb.allocator_ rb.capacity_
    modify (State.mapThis fun rb =>
      { rb with
        buffer_ := some block
        head_ := other.head_
        tail_ := other.tail_
        count_ := other.count_
        full_ := other.full_ })
    copyElements other
    modify (State.mapThis fun rb => { rb with justOverwrote_ := false })

/-- `operator=(ring_buffer&& other)`. The flag and the overwrite position of the
    target stay what they were. -/
def moveAssign (traits : AllocatorTraits A) (same : Bool) (other : RingBuffer A) :
    Op T A (RingBuffer A) := do
  if same then
    return other
  clear
  deallocate
  modify (State.mapThis fun rb =>
    { rb with
      capacity_ := other.capacity_
      buffer_ := other.buffer_
      head_ := other.head_
      tail_ := other.tail_
      count_ := other.count_
      full_ := other.full_
      allocator_ := other.allocator_ })
  return { other.release with allocator_ := traits.movedFrom other.allocator_ }

end RingBuffer

/-! ## Many objects -/

/-- The existing objects, by name, and the memory they share. -/
structure Heap (T A : Type) where
  objects : Nat → Option (RingBuffer A)
  mem : Memory T A

/-- One statement of a program over named objects. -/
inductive Statement (T A : Type) where
  | create (i capacity : Nat) (allocator : A)
  | copyConstruct (i j : Nat)
  | moveConstruct (i j : Nat)
  | copyAssign (i j : Nat)
  | moveAssign (i j : Nat)
  | call (i : Nat) (call : Call T)
  | destroy (i : Nat)

namespace Heap

def empty : Heap T A := ⟨fun _ => none, Memory.empty⟩

/-- Object `i` becomes what the program left as `this`. -/
def put (h : Heap T A) (i : Nat) (s : State T A) : Heap T A :=
  ⟨Function.update h.objects i (some s.this), s.mem⟩

/-- Run a constructor for the new object `i`; if it throws there is no object. -/
def construct (h : Heap T A) (i : Nat) (allocator : A) (constructor : Op T A Unit) : Heap T A :=
  match constructor.run ⟨RingBuffer.blank allocator, h.mem⟩ with
  | .ok _ s => h.put i s
  | .error _ s => { h with mem := s.mem }

/-- `none` when the statement names an object that does not exist, or creates
    one that does. -/
def exec (traits : AllocatorTraits A) (h : Heap T A) : Statement T A → Option (Heap T A)
  | .create i capacity allocator =>
      match h.objects i with
      | some _ => none
      | none => some (h.construct i allocator (RingBuffer.create capacity allocator))
  | .copyConstruct i j =>
      match h.objects i, h.objects j with
      | none, some other =>
          some (h.construct i other.allocator_ (RingBuffer.copyConstruct traits other))
      | _, _ => none
  | .moveConstruct i j =>
      match h.objects i, h.objects j with
      | none, some other =>
          match (RingBuffer.moveConstruct traits other).run
              ⟨RingBuffer.blank other.allocator_, h.mem⟩ with
          | .ok left s => some ((h.put i s).put j ⟨left, s.mem⟩)
          | .error _ s => some { h with mem := s.mem }
      | _, _ => none
  | .copyAssign i j =>
      match h.objects i, h.objects j with
      | some rb, some other =>
          some (h.put i (final (RingBuffer.copyAssign traits (i == j) other) ⟨rb, h.mem⟩))
      | _, _ => none
  | .moveAssign i j =>
      match h.objects i, h.objects j with
      | some rb, some other =>
          match (RingBuffer.moveAssign traits (i == j) other).run ⟨rb, h.mem⟩ with
          | .ok left s => some ((h.put i s).put j ⟨left, s.mem⟩)
          | .error _ s => some (h.put i s)
      | _, _ => none
  | .call i call =>
      match h.objects i with
      | some rb => some (h.put i (final call.perform ⟨rb, h.mem⟩))
      | none => none
  | .destroy i =>
      match h.objects i with
      | some rb =>
          some ⟨Function.update h.objects i none, (final RingBuffer.finish ⟨rb, h.mem⟩).mem⟩
      | none => none

/-- A whole program. -/
def run (traits : AllocatorTraits A) (h : Heap T A) (program : List (Statement T A)) :
    Option (Heap T A) :=
  program.foldlM (Heap.exec traits) h

end Heap

/-! ## While nothing throws -/

namespace State

/-- The first `n` rounds of the element loop that copies from `other`. -/
def copied (s : State T A) (other : RingBuffer A) : Nat → State T A
  | 0 => s
  | n + 1 =>
      let s := s.copied other n
      let target : Ptr := ⟨s.this.buffer_, n⟩
      let source : Ptr := ⟨other.buffer_, n⟩
      { s with
        mem := { s.mem with
          slots := Function.update s.mem.slots target ⟨(s.mem.slots source).content, true⟩
          trace := .construct target (s.mem.slots target).live ::
            .read source (s.mem.slots source).live ::
            .subscript other.buffer_ n other.capacity_ ::
            .subscript s.this.buffer_ n s.this.capacity_ :: s.mem.trace } }

@[simp] theorem copied_this (s : State T A) (other : RingBuffer A) (n : Nat) :
    (s.copied other n).this = s.this := by
  induction n with
  | zero => rfl
  | succ n ih => exact ih

@[simp] theorem copied_fuse (s : State T A) (other : RingBuffer A) (n : Nat) :
    (s.copied other n).mem.fuse = s.mem.fuse := by
  induction n with
  | zero => rfl
  | succ n ih => exact ih

/-- A slot of another block is not touched. -/
theorem copied_elsewhere (s : State T A) (other : RingBuffer A) (n : Nat) {p : Ptr}
    (elsewhere : p.block ≠ s.this.buffer_) :
    (s.copied other n).mem.slots p = s.mem.slots p := by
  induction n with
  | zero => rfl
  | succ n ih =>
      simp only [copied, copied_this]
      rw [Function.update_of_ne, ih]
      rintro rfl
      exact elsewhere rfl

/-- Copying from another block fills the first `n` slots with its contents. -/
theorem copied_slot (s : State T A) {other : RingBuffer A} (apart : other.buffer_ ≠ s.this.buffer_)
    (n k : Nat) : (s.copied other n).mem.slots ⟨s.this.buffer_, k⟩ =
      if k < n then ⟨(s.mem.slots ⟨other.buffer_, k⟩).content, true⟩
      else s.mem.slots ⟨s.this.buffer_, k⟩ := by
  induction n with
  | zero => rfl
  | succ n ih =>
      have source := s.copied_elsewhere other n (p := ⟨other.buffer_, n⟩) apart
      simp only [copied, copied_this, source]
      by_cases last : k = n
      · subst last
        rw [Function.update_self, if_pos (Nat.lt_succ_self k)]
      · rw [Function.update_of_ne (by simpa using last), ih]
        by_cases earlier : k < n
        · rw [if_pos earlier, if_pos (by omega)]
        · rw [if_neg earlier, if_neg (by omega)]

end State

theorem run_copyElements {s : State T A} (quiet : s.mem.fuse = none) (other : RingBuffer A) :
    (RingBuffer.copyElements other).run s = .ok () (s.copied other s.this.count_) := by
  have loop : ∀ n, (forRange n fun i => do
      construct (← RingBuffer.subscript i) do
        emit (.subscript other.buffer_ i other.capacity_)
        read ⟨other.buffer_, i⟩).run s = .ok () (s.copied other n) := by
    intro n
    induction n with
    | zero => rfl
    | succ n ih =>
        simp only [forRange, EStateM.run_bind, ih]
        simp only [construct, EStateM.run_bind, RingBuffer.run_subscript, run_emit, run_read,
          EStateM.run_get, run_mayThrow, State.mapMem_mem, Memory.emit_fuse, State.copied_fuse,
          quiet, EStateM.run_modify]
        rfl
  simp only [RingBuffer.copyElements, EStateM.run_bind, EStateM.run_get, loop]

namespace State

/-- A fresh block for `this`. -/
def allocated (s : State T A) (allocator : A) (n : Nat) : State T A :=
  (s.mapMem (Memory.emit (.allocate s.mem.next n allocator))).mapMem Memory.grow

/-- The destructor's last step. -/
def deallocated (s : State T A) : State T A :=
  match s.this.buffer_ with
  | none => s
  | some block => s.mapMem (Memory.emit (.deallocate block s.this.capacity_ s.this.allocator_))

@[simp] theorem deallocated_this (s : State T A) : s.deallocated.this = s.this := by
  unfold deallocated
  cases s.this.buffer_ <;> rfl

@[simp] theorem deallocated_slots (s : State T A) : s.deallocated.mem.slots = s.mem.slots := by
  unfold deallocated
  cases s.this.buffer_ <;> rfl

@[simp] theorem deallocated_next (s : State T A) : s.deallocated.mem.next = s.mem.next := by
  unfold deallocated
  cases s.this.buffer_ <;> rfl

@[simp] theorem deallocated_fuse (s : State T A) : s.deallocated.mem.fuse = s.mem.fuse := by
  unfold deallocated
  cases s.this.buffer_ <;> rfl

@[simp] theorem cleared_fuse (s : State T A) : s.cleared.mem.fuse = s.mem.fuse :=
  s.vacated_fuse s.this.count_

/-- The copy constructor. -/
def copyConstructed (s : State T A) (traits : AllocatorTraits A) (other : RingBuffer A) :
    State T A :=
  let allocator := traits.selectOnContainerCopyConstruction other.allocator_
  ((s.allocated allocator other.capacity_).mapThis fun _ =>
    { other with
      allocator_ := allocator
      buffer_ := some s.mem.next
      justOverwrote_ := false
      overwritePosition_ := 0 }).copied other other.count_

/-- Copy assignment up to the new block, still without elements. -/
def retargeted (s : State T A) (traits : AllocatorTraits A) (other : RingBuffer A) : State T A :=
  let s := s.cleared.deallocated
  let allocator :=
    if traits.propagateOnContainerCopyAssignment then other.allocator_ else s.this.allocator_
  (s.allocated allocator other.capacity_).mapThis fun rb =>
    { rb with
      allocator_ := allocator
      capacity_ := other.capacity_
      buffer_ := some s.mem.next
      head_ := other.head_
      tail_ := other.tail_
      count_ := other.count_
      full_ := other.full_ }

/-- Copy assignment from another object. -/
def copyAssigned (s : State T A) (traits : AllocatorTraits A) (other : RingBuffer A) : State T A :=
  ((s.retargeted traits other).copied other other.count_).mapThis fun rb =>
    { rb with justOverwrote_ := false }

/-- The target of a move construction. -/
def moveConstructed (s : State T A) (other : RingBuffer A) : State T A :=
  s.mapThis fun _ => { other with justOverwrote_ := false, overwritePosition_ := 0 }

/-- The target of a move assignment from another object. -/
def moveAssigned (s : State T A) (other : RingBuffer A) : State T A :=
  s.cleared.deallocated.mapThis fun rb =>
    { rb with
      capacity_ := other.capacity_
      buffer_ := other.buffer_
      head_ := other.head_
      tail_ := other.tail_
      count_ := other.count_
      full_ := other.full_
      allocator_ := other.allocator_ }

end State

/-- What either move leaves of the other object. -/
def RingBuffer.movedFrom (traits : AllocatorTraits A) (other : RingBuffer A) : RingBuffer A :=
  { other.release with allocator_ := traits.movedFrom other.allocator_ }

theorem run_deallocate (s : State T A) : RingBuffer.deallocate.run s = .ok () s.deallocated := by
  simp only [RingBuffer.deallocate, State.deallocated, EStateM.run_bind, EStateM.run_get]
  cases s.this.buffer_ <;> rfl

section Quiet

variable {s : State T A} (quiet : s.mem.fuse = none) (traits : AllocatorTraits A)
  (other : RingBuffer A)

include quiet

theorem run_copyConstruct :
    (RingBuffer.copyConstruct traits other).run s = .ok () (s.copyConstructed traits other) := by
  simp only [RingBuffer.copyConstruct, EStateM.run_bind, run_allocate quiet, EStateM.run_modify]
  rw [run_copyElements]
  · rfl
  · exact quiet

theorem run_copyAssign : (RingBuffer.copyAssign traits false other).run s =
    .ok () (s.copyAssigned traits other) := by
  simp only [RingBuffer.copyAssign, Bool.not_false, if_true, EStateM.run_bind, run_clear,
    run_deallocate]
  cases propagate : traits.propagateOnContainerCopyAssignment
  all_goals
    simp only [Bool.false_eq_true, if_true, if_false, EStateM.run_bind, EStateM.run_modify,
      EStateM.run_get]
    rw [run_allocate (by simpa using quiet)]
    simp only
    rw [run_copyElements (by simpa using quiet)]
    simp only [State.copyAssigned, State.retargeted, propagate, Bool.false_eq_true, if_true,
      if_false]
    rfl

end Quiet

theorem run_moveConstruct (traits : AllocatorTraits A) (other : RingBuffer A) (s : State T A) :
    (RingBuffer.moveConstruct traits other).run s =
      .ok (other.movedFrom traits) (s.moveConstructed other) := rfl

theorem run_moveAssign (traits : AllocatorTraits A) (other : RingBuffer A) (s : State T A) :
    (RingBuffer.moveAssign traits false other).run s =
      .ok (other.movedFrom traits) (s.moveAssigned other) := by
  simp only [RingBuffer.moveAssign, Bool.false_eq_true, if_false, EStateM.run_bind, run_clear,
    run_deallocate, EStateM.run_pure, EStateM.run_modify]
  rfl

theorem run_finish (s : State T A) :
    RingBuffer.finish.run s = .ok () s.cleared.deallocated := by
  simp only [RingBuffer.finish, EStateM.run_bind, run_clear, run_deallocate]

namespace Heap

/-! ## One statement at a time -/

section Inversions

variable {traits : AllocatorTraits A} {h h' : Heap T A} {i j : Nat}

theorem exec_create {capacity : Nat} {allocator : A} :
    h.exec traits (.create i capacity allocator) = some h' ↔ h.objects i = none ∧
      h.construct i allocator (RingBuffer.create capacity allocator) = h' := by
  cases found : h.objects i <;> simp [exec, found]

theorem exec_copyConstruct : h.exec traits (.copyConstruct i j) = some h' ↔
    ∃ other, h.objects i = none ∧ h.objects j = some other ∧
      h.construct i other.allocator_ (RingBuffer.copyConstruct traits other) = h' := by
  cases first : h.objects i <;> cases second : h.objects j <;> simp [exec, first, second]

theorem exec_moveConstruct : h.exec traits (.moveConstruct i j) = some h' ↔
    ∃ other, h.objects i = none ∧ h.objects j = some other ∧
      (h.put i ((⟨RingBuffer.blank other.allocator_, h.mem⟩ : State T A).moveConstructed other)).put j
        ⟨other.movedFrom traits, h.mem⟩ = h' := by
  cases first : h.objects i <;> cases second : h.objects j <;>
    simp [exec, first, second, run_moveConstruct, State.moveConstructed]

theorem exec_copyAssign : h.exec traits (.copyAssign i j) = some h' ↔
    ∃ rb other, h.objects i = some rb ∧ h.objects j = some other ∧
      h.put i (final (RingBuffer.copyAssign traits (i == j) other) ⟨rb, h.mem⟩) = h' := by
  cases first : h.objects i <;> cases second : h.objects j <;> simp [exec, first, second]

theorem exec_moveAssign (apart : i ≠ j) : h.exec traits (.moveAssign i j) = some h' ↔
    ∃ rb other, h.objects i = some rb ∧ h.objects j = some other ∧
      (h.put i ((⟨rb, h.mem⟩ : State T A).moveAssigned other)).put j
        ⟨other.movedFrom traits, ((⟨rb, h.mem⟩ : State T A).moveAssigned other).mem⟩ = h' := by
  cases first : h.objects i <;> cases second : h.objects j <;>
    simp [exec, first, second, beq_eq_false_iff_ne.mpr apart, run_moveAssign]

theorem exec_moveAssign_self : h.exec traits (.moveAssign i i) = some h' ↔
    ∃ rb, h.objects i = some rb ∧ (h.put i ⟨rb, h.mem⟩).put i ⟨rb, h.mem⟩ = h' := by
  cases found : h.objects i <;> simp [exec, found, RingBuffer.moveAssign]

theorem exec_call {call : Call T} : h.exec traits (.call i call) = some h' ↔
    ∃ rb, h.objects i = some rb ∧ h.put i (final call.perform ⟨rb, h.mem⟩) = h' := by
  cases found : h.objects i <;> simp [exec, found]

theorem exec_destroy : h.exec traits (.destroy i) = some h' ↔
    ∃ rb, h.objects i = some rb ∧
      ⟨Function.update h.objects i none, (⟨rb, h.mem⟩ : State T A).cleared.deallocated.mem⟩ = h' := by
  cases found : h.objects i <;> simp [exec, found, final_of_run (run_finish _)]

/-- Assigning to itself does nothing. -/
theorem copyAssign_self (other : RingBuffer A) (s : State T A) :
    final (RingBuffer.copyAssign traits (i == i) other) s = s := by
  simp [RingBuffer.copyAssign, final]

end Inversions

/-- What a statement does to the heap while nothing throws. -/
inductive Executes (traits : AllocatorTraits A) (h : Heap T A) : Statement T A → Heap T A → Prop where
  | create (i capacity : Nat) (allocator : A) (absent : h.objects i = none) :
      Executes traits h (.create i capacity allocator)
        (h.construct i allocator (RingBuffer.create capacity allocator))
  | copyConstruct (i j : Nat) (other : RingBuffer A) (absent : h.objects i = none)
      (found : h.objects j = some other) :
      Executes traits h (.copyConstruct i j)
        (h.construct i other.allocator_ (RingBuffer.copyConstruct traits other))
  | moveConstruct (i j : Nat) (other : RingBuffer A) (absent : h.objects i = none)
      (found : h.objects j = some other) :
      Executes traits h (.moveConstruct i j)
        ((h.put i ((⟨RingBuffer.blank other.allocator_, h.mem⟩ : State T A).moveConstructed other)).put j
          ⟨other.movedFrom traits, h.mem⟩)
  | copyAssign (i j : Nat) (rb other : RingBuffer A) (apart : i ≠ j)
      (target : h.objects i = some rb) (found : h.objects j = some other) :
      Executes traits h (.copyAssign i j)
        (h.put i ((⟨rb, h.mem⟩ : State T A).copyAssigned traits other))
  | copyAssignSelf (i : Nat) (rb : RingBuffer A) (target : h.objects i = some rb) :
      Executes traits h (.copyAssign i i) (h.put i ⟨rb, h.mem⟩)
  | moveAssign (i j : Nat) (rb other : RingBuffer A) (apart : i ≠ j)
      (target : h.objects i = some rb) (found : h.objects j = some other) :
      Executes traits h (.moveAssign i j)
        ((h.put i ((⟨rb, h.mem⟩ : State T A).moveAssigned other)).put j
          ⟨other.movedFrom traits, ((⟨rb, h.mem⟩ : State T A).moveAssigned other).mem⟩)
  | moveAssignSelf (i : Nat) (rb : RingBuffer A) (target : h.objects i = some rb) :
      Executes traits h (.moveAssign i i) ((h.put i ⟨rb, h.mem⟩).put i ⟨rb, h.mem⟩)
  | call (i : Nat) (call : Call T) (rb : RingBuffer A) (found : h.objects i = some rb) :
      Executes traits h (.call i call) (h.put i (final call.perform ⟨rb, h.mem⟩))
  | destroy (i : Nat) (rb : RingBuffer A) (found : h.objects i = some rb) :
      Executes traits h (.destroy i)
        ⟨Function.update h.objects i none, (⟨rb, h.mem⟩ : State T A).cleared.deallocated.mem⟩

/-- Inversion of a statement. -/
theorem executes_of_exec {traits : AllocatorTraits A} {h h' : Heap T A} (quiet : h.mem.fuse = none)
    {statement : Statement T A} (ran : h.exec traits statement = some h') :
    Executes traits h statement h' := by
  cases statement with
  | create i capacity allocator =>
      obtain ⟨absent, rfl⟩ := exec_create.mp ran
      exact .create i capacity allocator absent
  | copyConstruct i j =>
      obtain ⟨other, absent, found, rfl⟩ := exec_copyConstruct.mp ran
      exact .copyConstruct i j other absent found
  | moveConstruct i j =>
      obtain ⟨other, absent, found, rfl⟩ := exec_moveConstruct.mp ran
      exact .moveConstruct i j other absent found
  | copyAssign i j =>
      obtain ⟨rb, other, target, found, rfl⟩ := exec_copyAssign.mp ran
      by_cases same : i = j
      · subst same
        rw [copyAssign_self]
        exact .copyAssignSelf i rb target
      · have run := run_copyAssign (s := ⟨rb, h.mem⟩) quiet traits other
        rw [beq_eq_false_iff_ne.mpr same, final_of_run run]
        exact .copyAssign i j rb other same target found
  | moveAssign i j =>
      by_cases same : i = j
      · subst same
        obtain ⟨rb, target, rfl⟩ := exec_moveAssign_self.mp ran
        exact .moveAssignSelf i rb target
      · obtain ⟨rb, other, target, found, rfl⟩ := (exec_moveAssign same).mp ran
        exact .moveAssign i j rb other same target found
  | call i call =>
      obtain ⟨rb, found, rfl⟩ := exec_call.mp ran
      exact .call i call rb found
  | destroy i =>
      obtain ⟨rb, found, rfl⟩ := exec_destroy.mp ran
      exact .destroy i rb found

end Heap

end Dkyb
