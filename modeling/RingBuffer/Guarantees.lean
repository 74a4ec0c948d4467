import RingBuffer.Lib.Contracts
import RingBuffer.SpecialMembers

/-! # What every member guarantees, also when it throws

Each contract starts from a known object and says which object the member leaves
when it returns and which when an element operation, an allocation or the member
itself throws; on both ways out every access so far was in range.
-/

namespace Dkyb

open Stateful Std.Do

set_option mvcgen.warning false

variable {T A : Type}

/-- A remainder is by a capacity that is not zero, and a subscript goes to a slot
    below the capacity of a block. -/
def Event.InRange : Event A → Prop
  | .subscript buffer k capacity => buffer.isSome = true ∧ k < capacity
  | .modulo capacity => capacity ≠ 0
  | .allocate .. | .deallocate .. | .construct .. | .destroy .. | .assign .. | .read .. => True

def Memory.InRange (m : Memory T A) : Prop := ∀ e ∈ m.trace, e.InRange

/-- The object is `rb`, and all accesses so far were in range. -/
structure At (rb : RingBuffer A) (s : State T A) : Prop where
  this : s.this = rb
  inRange : s.mem.InRange

attribute [grind →] At.this

namespace RingBuffer

/-- The cursors fit the capacity, and an object that counts elements has a block.
    An object without capacity counts none and is not full. -/
structure Indexed (rb : RingBuffer A) : Prop where
  cursors : rb.capacity_ = 0 ∧ rb.count_ = 0 ∧ rb.full_ = false ∨ Counted rb.capacity_ rb
  block : rb.count_ ≠ 0 → rb.buffer_.isSome = true

/-- The object has storage to put elements into. -/
def Stored (rb : RingBuffer A) : Prop := rb.capacity_ ≠ 0 ∧ rb.buffer_.isSome = true

end RingBuffer

namespace At

variable {rb : RingBuffer A} {s : State T A}

theorem emit (h : At rb s) {e : Event A} (inRange : e.InRange) :
    At rb (s.mapMem (Memory.emit e)) where
  this := h.this
  inRange := List.forall_mem_cons.mpr ⟨inRange, h.inRange⟩

/-- Whatever happens to the slots and the fuse. -/
theorem silent (h : At rb s) {s' : State T A} (this : s'.this = s.this)
    (trace : s'.mem.trace = s.mem.trace) : At rb s' where
  this := this.trans h.this
  inRange := by
    rw [Memory.InRange, trace]
    exact h.inRange

theorem become (h : At rb s) (f : RingBuffer A → RingBuffer A) : At (f rb) (s.mapThis f) where
  this := congrArg f h.this
  inRange := h.inRange

end At

/-! ## Element and allocator operations -/

section Primitives

variable (rb : RingBuffer A)

@[spec] theorem emit_spec (e : Event A) (inRange : e.InRange) :
    ⦃fun s => ⌜At rb s⌝⦄ (emit e : Op T A Unit)
      ⦃post⟨fun _ s => ⌜At rb s⌝, fun _ s => ⌜At rb s⌝⟩⦄ := by
  simp only [emit]
  mvcgen
  exact At.emit ‹_› inRange

@[spec] theorem modifyMem_spec {f : Memory T A → Memory T A} (trace : ∀ m, (f m).trace = m.trace) :
    ⦃fun s => ⌜At rb s⌝⦄ (modify (State.mapMem f) : Op T A Unit)
      ⦃post⟨fun _ s => ⌜At rb s⌝, fun _ s => ⌜At rb s⌝⟩⦄ := by
  mvcgen
  rename_i h _
  exact h.silent rfl (trace _)

@[spec] theorem mayThrow_spec (e : Exn) :
    ⦃fun s => ⌜At rb s⌝⦄ (mayThrow e : Op T A Unit)
      ⦃post⟨fun _ s => ⌜At rb s⌝, fun _ s => ⌜At rb s⌝⟩⦄ := by
  simp only [mayThrow]
  mvcgen
  all_goals simp

@[spec] theorem read_spec (p : Ptr) :
    ⦃fun s => ⌜At rb s⌝⦄ (read p : Op T A (Option T))
      ⦃post⟨fun _ s => ⌜At rb s⌝, fun _ s => ⌜At rb s⌝⟩⦄ := by
  simp only [read]
  mvcgen

@[spec] theorem copied_spec (item : Arg T) :
    ⦃fun s => ⌜At rb s⌝⦄ (item.copied : Op T A (Option T))
      ⦃post⟨fun _ s => ⌜At rb s⌝, fun _ s => ⌜At rb s⌝⟩⦄ := by
  cases item <;> simp only [Arg.copied] <;> mvcgen

@[spec] theorem moved_spec (item : Arg T) :
    ⦃fun s => ⌜At rb s⌝⦄ (item.moved : Op T A (Option T))
      ⦃post⟨fun _ s => ⌜At rb s⌝, fun _ s => ⌜At rb s⌝⟩⦄ := by
  cases item <;> simp only [Arg.moved] <;> mvcgen
  all_goals simp

@[spec] theorem forward_spec (args : Forwarded T) :
    ⦃fun s => ⌜At rb s⌝⦄ (args.forward : Op T A (Option T))
      ⦃post⟨fun _ s => ⌜At rb s⌝, fun _ s => ⌜At rb s⌝⟩⦄ := by
  cases args with
  | lvalue arg => exact copied_spec rb arg
  | rvalue arg => exact moved_spec rb arg

@[spec] theorem construct_spec (p : Ptr) {argument : Op T A (Option T)}
    (reads : ⦃fun s => ⌜At rb s⌝⦄ argument
      ⦃post⟨fun _ s => ⌜At rb s⌝, fun _ s => ⌜At rb s⌝⟩⦄) :
    ⦃fun s => ⌜At rb s⌝⦄ (construct p argument : Op T A Unit)
      ⦃post⟨fun _ s => ⌜At rb s⌝, fun _ s => ⌜At rb s⌝⟩⦄ := by
  simp only [construct]
  mvcgen [reads]
  all_goals simp

@[spec] theorem assign_spec (p : Ptr) {argument : Op T A (Option T)}
    (reads : ⦃fun s => ⌜At rb s⌝⦄ argument
      ⦃post⟨fun _ s => ⌜At rb s⌝, fun _ s => ⌜At rb s⌝⟩⦄) :
    ⦃fun s => ⌜At rb s⌝⦄ (assign p argument : Op T A Unit)
      ⦃post⟨fun _ s => ⌜At rb s⌝, fun _ s => ⌜At rb s⌝⟩⦄ := by
  simp only [assign]
  mvcgen [reads]
  all_goals simp

@[spec] theorem destroy_spec (p : Ptr) :
    ⦃fun s => ⌜At rb s⌝⦄ (destroy p : Op T A Unit)
      ⦃post⟨fun _ s => ⌜At rb s⌝, fun _ s => ⌜At rb s⌝⟩⦄ := by
  simp only [destroy]
  mvcgen
  all_goals simp

@[spec] theorem allocate_spec (allocator : A) (n : Nat) :
    ⦃fun s => ⌜At rb s⌝⦄ (allocate allocator n : Op T A Nat)
      ⦃post⟨fun _ s => ⌜At rb s⌝, fun _ s => ⌜At rb s⌝⟩⦄ := by
  simp only [allocate]
  mvcgen
  all_goals simp

@[spec] theorem subscript_spec {k : Nat} (block : rb.buffer_.isSome = true)
    (inside : k < rb.capacity_) :
    ⦃fun s => ⌜At rb s⌝⦄ (RingBuffer.subscript k : Op T A Ptr)
      ⦃post⟨fun _ s => ⌜At rb s⌝, fun _ s => ⌜At rb s⌝⟩⦄ := by
  simp only [RingBuffer.subscript]
  mvcgen
  rename_i h
  rw [h.this]
  exact ⟨block, inside⟩

@[spec] theorem modulo_spec {n : Nat} (pos : rb.capacity_ ≠ 0) :
    ⦃fun s => ⌜At rb s⌝⦄ (RingBuffer.modulo n : Op T A Nat)
      ⦃post⟨fun r s => ⌜r < rb.capacity_ ∧ At rb s⌝, fun _ s => ⌜At rb s⌝⟩⦄ := by
  simp only [RingBuffer.modulo]
  mvcgen
  · rename_i h
    rw [h.this]
    exact pos
  · rename_i h _ _ kept
    rw [h.this]
    exact ⟨Nat.mod_lt _ (Nat.pos_of_ne_zero pos), kept⟩

@[spec] theorem advance_spec {cursor : RingBuffer A → RingBuffer A} (pos : rb.capacity_ ≠ 0) :
    ⦃fun s => ⌜At rb s⌝⦄ (RingBuffer.advance cursor : Op T A Unit)
      ⦃post⟨fun _ s => ⌜At (cursor rb) s⌝, fun _ s => ⌜At rb s⌝⟩⦄ := by
  simp only [RingBuffer.advance]
  mvcgen
  · rename_i h
    rw [h.this]
    exact pos
  · rename_i h _
    exact h.become cursor

end Primitives

/-! ## Modifiers -/

namespace RingBuffer

variable {rb : RingBuffer A}

namespace Indexed

theorem counted (h : rb.Indexed) (nonempty : rb.count_ ≠ 0) : Counted rb.capacity_ rb := by
  rcases h.cursors with ⟨_, empty, _⟩ | counted
  · exact absurd empty nonempty
  · exact counted

theorem counted_of_stored (h : rb.Indexed) (stored : rb.Stored) : Counted rb.capacity_ rb := by
  rcases h.cursors with ⟨none, _, _⟩ | counted
  · exact absurd none stored.1
  · exact counted

/-- An object that counts elements can take more, or overwrite. -/
theorem stored (h : rb.Indexed) (nonempty : rb.count_ ≠ 0) : rb.Stored :=
  ⟨Nat.ne_of_gt (h.counted nonempty).pos, h.block nonempty⟩

/-- What a member that checked for emptiness can rely on. -/
theorem reach (h : rb.Indexed) (notEmpty : ¬ rb.empty = true) : rb.count_ ≠ 0 ∧
    rb.capacity_ ≠ 0 ∧ rb.buffer_.isSome = true ∧ rb.head_ < rb.capacity_ := by
  have nonempty : rb.count_ ≠ 0 := by simpa [empty] using notEmpty
  have stored := h.stored nonempty
  exact ⟨nonempty, stored.1, stored.2, (h.counted nonempty).head⟩

end Indexed

/-- What a push does to the cursors. -/
def pushed (rb : RingBuffer A) : RingBuffer A :=
  if rb.full_ then rb.overwriteAdvanceHead else rb.incrementTail

section Pushes

variable (counted : Counted rb.capacity_ rb) (stored : rb.Stored) (item : Arg T)

include counted stored

@[spec] theorem pushBack_spec :
    ⦃fun s => ⌜At rb s⌝⦄ (pushBack item : Op T A Unit)
      ⦃post⟨fun _ s => ⌜At rb.pushed s⌝, fun _ s => ⌜At rb s⌝⟩⦄ := by
  have head := counted.head
  have tail := counted.tail
  obtain ⟨pos, block⟩ := stored
  simp only [pushBack]
  mvcgen
  all_goals grind [pushed]

@[spec] theorem pushBackMove_spec :
    ⦃fun s => ⌜At rb s⌝⦄ (pushBackMove item : Op T A Unit)
      ⦃post⟨fun _ s => ⌜At rb.pushed s⌝, fun _ s => ⌜At rb s⌝⟩⦄ := by
  have head := counted.head
  have tail := counted.tail
  obtain ⟨pos, block⟩ := stored
  simp only [pushBackMove]
  mvcgen
  all_goals grind [pushed]

@[spec] theorem emplaceBack_spec (args : Forwarded T) :
    ⦃fun s => ⌜At rb s⌝⦄ (emplaceBack args : Op T A Unit)
      ⦃post⟨fun _ s => ⌜At rb.pushed s⌝, fun _ s => ⌜At rb s⌝⟩⦄ := by
  have head := counted.head
  have tail := counted.tail
  obtain ⟨pos, block⟩ := stored
  simp only [emplaceBack]
  mvcgen
  all_goals grind [pushed]

end Pushes

section Objects

variable (indexed : rb.Indexed)

include indexed

@[spec] theorem popFront_spec :
    ⦃fun s => ⌜At rb s⌝⦄ (popFront : Op T A (Option T))
      ⦃post⟨fun _ s => ⌜rb.count_ ≠ 0 ∧ At rb.incrementHead s⌝, fun _ s => ⌜At rb s⌝⟩⦄ := by
  have reach := indexed.reach
  simp only [popFront]
  mvcgen
  all_goals grind

/-- Each round takes one remainder and one subscript. -/
theorem Indexed.clear_contract :
    ⦃fun s => ⌜At rb s⌝⦄ (clear : Op T A Unit)
      ⦃post⟨fun _ s => ⌜At rb.reset s⌝, fun _ s => ⌜At rb s⌝⟩⦄ := by
  have loop : ∀ first : Nat, ⦃fun s => ⌜At rb s⌝⦄
      (forRange rb.count_ fun i => do
        destroy (← subscript (← modulo (first + i))) : Op T A Unit)
      ⦃post⟨fun _ s => ⌜At rb s⌝, fun _ s => ⌜At rb s⌝⟩⦄ := by
    intro first
    apply forRange_spec (I := fun _ => At rb)
    intro i inside
    have nonempty : rb.count_ ≠ 0 := Nat.ne_zero_of_lt inside
    obtain ⟨pos, block⟩ := indexed.stored nonempty
    mvcgen
    all_goals grind
  simp only [clear]
  mvcgen
  rename_i s h
  rw [h.this]
  mvcgen [loop]
  rename_i h _
  exact h.become reset

@[spec] theorem clear_spec :
    ⦃fun s => ⌜At rb s⌝⦄ (clear : Op T A Unit) ⦃⇓ _ s => ⌜At rb.reset s⌝⦄ :=
  noThrow_of_ok (fun s => ⟨_, _, run_clear s⟩) indexed.clear_contract

@[spec] theorem front_spec :
    ⦃fun s => ⌜At rb s⌝⦄ (front : Op T A Ptr)
      ⦃post⟨fun _ s => ⌜At rb s⌝, fun _ s => ⌜At rb s⌝⟩⦄ := by
  have reach := indexed.reach
  simp only [front]
  mvcgen
  all_goals grind

@[spec] theorem index_spec (i : Nat) :
    ⦃fun s => ⌜At rb s⌝⦄ (index i : Op T A Ptr)
      ⦃post⟨fun _ s => ⌜At rb s⌝, fun _ s => ⌜At rb s⌝⟩⦄ := by
  have stored := indexed.stored
  simp only [index]
  mvcgen
  all_goals grind [Stored]

/-- `back()` of an object whose slot for it is below the capacity. -/
@[spec] theorem back_spec (inside : rb.count_ ≠ 0 → rb.backIndex < rb.capacity_) :
    ⦃fun s => ⌜At rb s⌝⦄ (back : Op T A Ptr)
      ⦃post⟨fun _ s => ⌜At rb s⌝, fun _ s => ⌜At rb s⌝⟩⦄ := by
  have reach := indexed.reach
  simp only [back]
  mvcgen
  all_goals grind [backIndex]

@[spec] theorem visit_spec (fuel : Nat) (it last : Iterator) :
    ⦃fun s => ⌜At rb s⌝⦄ (visit fuel it last : Op T A _)
      ⦃post⟨fun _ s => ⌜At rb s⌝, fun _ s => ⌜At rb s⌝⟩⦄ := by
  induction fuel generalizing it with
  | zero =>
      simp only [visit]
      mvcgen
  | succ fuel ih =>
      simp only [visit, Iterator.dereference]
      mvcgen [ih]

@[spec] theorem traverse_spec (fuel : Nat) :
    ⦃fun s => ⌜At rb s⌝⦄ (traverse fuel : Op T A _)
      ⦃post⟨fun _ s => ⌜At rb s⌝, fun _ s => ⌜At rb s⌝⟩⦄ := by
  simp only [traverse, begin, end_]
  mvcgen

end Objects

/-! ## Construction, destruction and the copying and moving members -/

@[spec] theorem modifyThis_spec (rb : RingBuffer A) {f : RingBuffer A → RingBuffer A} :
    ⦃fun s => ⌜At rb s⌝⦄ (modify (State.mapThis f) : Op T A Unit)
      ⦃⇓ _ s => ⌜At (f rb) s⌝⦄ := by
  mvcgen
  rename_i h _
  exact h.become f

@[spec] theorem deallocate_spec (rb : RingBuffer A) :
    ⦃fun s => ⌜At rb s⌝⦄ (deallocate : Op T A Unit) ⦃⇓ _ s => ⌜At rb s⌝⦄ := by
  have contract : ⦃fun s => ⌜At rb s⌝⦄ (deallocate : Op T A Unit)
      ⦃post⟨fun _ s => ⌜At rb s⌝, fun _ s => ⌜At rb s⌝⟩⦄ := by
    simp only [deallocate]
    mvcgen
  exact noThrow_of_ok (fun s => ⟨_, _, run_deallocate s⟩) contract

@[spec] theorem finish_spec (indexed : rb.Indexed) :
    ⦃fun s => ⌜At rb s⌝⦄ (finish : Op T A Unit) ⦃⇓ _ s => ⌜At rb.reset s⌝⦄ := by
  simp only [finish]
  mvcgen

@[spec] theorem create_spec (rb : RingBuffer A) {capacity : Nat} (pos : capacity ≠ 0)
    (allocator : A) : ⦃fun s => ⌜At rb s⌝⦄ (create capacity allocator : Op T A Unit)
      ⦃post⟨fun _ s => ⌜∃ block, At { blank allocator with
          capacity_ := capacity, buffer_ := some block } s⌝,
        fun _ s => ⌜At rb s⌝⟩⦄ := by
  simp only [create]
  mvcgen
  exact ⟨_, ‹At _ _›⟩

end RingBuffer

/-! ## Runs in which any call may throw -/

/-- The three ways to add an element, with any argument. -/
inductive Insertion (T : Type) where
  | pushBack (item : Arg T)
  | pushBackMove (item : Arg T)
  | emplaceBack (args : Forwarded T)
  deriving DecidableEq, Repr

def Insertion.perform : Insertion T → Op T A Unit
  | .pushBack item => RingBuffer.pushBack item
  | .pushBackMove item => RingBuffer.pushBackMove item
  | .emplaceBack args => RingBuffer.emplaceBack args

inductive Modifier (T : Type) where
  | insert (insertion : Insertion T)
  | popFront
  | clear
  deriving DecidableEq, Repr

def Modifier.perform : Modifier T → Op T A Unit
  | .insert insertion => insertion.perform
  | .popFront => do
      let _ ← RingBuffer.popFront
  | .clear => RingBuffer.clear

namespace State

/-- The state after a sequence of calls, each of which may be made to throw. -/
def trials (s : State T A) (calls : List (Option Nat × Modifier T)) : State T A :=
  calls.foldl (fun s call => final call.2.perform (s.armed call.1)) s

end State

/-- The object has the capacity and the block it was constructed with. -/
structure Usable (c : Nat) (s : State T A) : Prop where
  counted : s.this.Counted c
  block : s.this.buffer_.isSome = true
  inRange : s.mem.InRange

namespace RingBuffer

theorem storage_pushed (rb : RingBuffer A) : rb.pushed.storage = rb.storage := by
  unfold pushed
  split
  · exact storage_overwriteAdvanceHead rb
  · exact storage_incrementTail rb

theorem Counted.pushed {rb : RingBuffer A} {c : Nat} (h : Counted c rb) : Counted c rb.pushed := by
  unfold RingBuffer.pushed
  cases full : rb.full_ with
  | true => exact h.overwriteAdvanceHead
  | false => exact h.incrementTail full

/-- What a call does to the object when it returns. -/
def modified (rb : RingBuffer A) : Modifier T → RingBuffer A
  | .insert _ => rb.pushed
  | .popFront => rb.incrementHead
  | .clear => rb.reset

theorem storage_modified (rb : RingBuffer A) (modifier : Modifier T) :
    (rb.modified modifier).storage = rb.storage := by
  cases modifier with
  | insert insertion => exact storage_pushed rb
  | popFront => exact storage_incrementHead rb
  | clear => exact storage_reset rb

@[spec] theorem insert_spec {rb : RingBuffer A} (counted : Counted rb.capacity_ rb)
    (stored : rb.Stored) (insertion : Insertion T) :
    ⦃fun s => ⌜At rb s⌝⦄ (insertion.perform : Op T A Unit)
      ⦃post⟨fun _ s => ⌜At rb.pushed s⌝, fun _ s => ⌜At rb s⌝⟩⦄ := by
  cases insertion with
  | pushBack item => exact pushBack_spec counted stored item
  | pushBackMove item => exact pushBackMove_spec counted stored item
  | emplaceBack args => exact emplaceBack_spec counted stored args

end RingBuffer

namespace Usable

variable {c : Nat} {s : State T A}

theorem created (pos : 0 < c) (a : A) : Usable c (State.created c a : State T A) := by
  rw [created_eq pos]
  exact {
    counted := {
      pos := pos
      capacity := rfl
      head := pos
      tail := pos
      count := Nat.zero_le c
      full := (beq_eq_false_iff_ne.mpr (Nat.ne_of_lt pos)).symm }
    block := rfl
    inRange := by
      intro e member
      obtain rfl : e = .allocate 0 c a := List.mem_singleton.mp member
      trivial }

theorem counted_self (h : Usable c s) : s.this.Counted s.this.capacity_ := by
  have counted := h.counted
  rwa [← counted.capacity] at counted

theorem stored (h : Usable c s) : s.this.Stored := by
  refine ⟨?_, h.block⟩
  rw [h.counted.capacity]
  exact Nat.ne_of_gt h.counted.pos

theorem indexed (h : Usable c s) : s.this.Indexed := ⟨.inr h.counted_self, fun _ => h.block⟩

theorem of_at {rb : RingBuffer A} {s' : State T A} (counted : rb.Counted c)
    (storage : rb.storage = s.this.storage) (h : Usable c s) (left : At rb s') : Usable c s' where
  counted := by rwa [left.this]
  block := by
    rw [left.this, show rb.buffer_ = s.this.buffer_ from congrArg Prod.fst storage]
    exact h.block
  inRange := left.inRange

/-- A call that returns moves the cursors, one that throws does not. -/
theorem contract (h : Usable c s) (modifier : Modifier T) :
    ⦃fun s' => ⌜At s.this s'⌝⦄ (modifier.perform : Op T A Unit)
      ⦃post⟨fun _ s' => ⌜At (s.this.modified modifier) s' ∧ (s.this.modified modifier).Counted c⌝,
        fun _ s' => ⌜At s.this s'⌝⟩⦄ := by
  have counted := h.counted_self
  have stored := h.stored
  have indexed := h.indexed
  cases modifier with
  | insert insertion =>
      simp only [Modifier.perform]
      mvcgen
      · exact fun left => ⟨left, h.counted.pushed⟩
      · exact fun _ _ => counted
      · exact fun _ _ => stored
  | popFront =>
      simp only [Modifier.perform]
      mvcgen
      rename_i popped
      exact ⟨popped.2, h.counted.incrementHead popped.1⟩
  | clear =>
      simp only [Modifier.perform]
      mvcgen
      · exact fun left => ⟨left, h.counted.reset⟩
      · exact fun _ _ => indexed

/-- Step lemma: whether it returns or throws. -/
theorem trial (h : Usable c s) (fuse : Option Nat) (modifier : Modifier T) :
    Usable c (final modifier.perform (s.armed fuse)) := by
  have start : At s.this (s.armed fuse) := ⟨rfl, h.inRange⟩
  exact final_of_contract (h.contract modifier) start
    (fun _ _ left => of_at left.2 (RingBuffer.storage_modified _ modifier) h left.1)
    (fun _ _ left => of_at h.counted rfl h left)

theorem trial_this (h : Usable c s) (fuse : Option Nat) (modifier : Modifier T) :
    (final modifier.perform (s.armed fuse)).this =
      if threw modifier.perform (s.armed fuse) then s.this else s.this.modified modifier := by
  have start : At s.this (s.armed fuse) := ⟨rfl, h.inRange⟩
  rcases ends_of_contract (h.contract modifier) start with
    ⟨returned, _, left, -⟩ | ⟨thrown, _, left⟩
  · rw [returned, left.this, if_neg Bool.false_ne_true]
  · rw [thrown, left.this, if_pos rfl]

/-- Run lemma. -/
theorem trials (h : Usable c s) (calls : List (Option Nat × Modifier T)) :
    Usable c (s.trials calls) := by
  induction calls generalizing s with
  | nil => exact h
  | cons call calls ih => exact ih (h.trial call.1 call.2)

end Usable

end Dkyb
