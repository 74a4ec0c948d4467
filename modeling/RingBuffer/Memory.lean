import Mathlib.Logic.Function.Basic

/-! # Element storage, allocation and the trace of what is done to them

Storage is a set of blocks handed out by allocators. A slot of a block holds an
element or is raw. Element and allocator operations never get stuck: a construct
on a live slot or a read of a raw one goes on in the obvious way, and the trace
records whether the slot was live, so that a violation can be stated and proved
absent.
-/

namespace Dkyb

/-- `&block[index]`; a null pointer has no block. -/
structure Ptr where
  block : Option Nat
  index : Nat
  deriving DecidableEq, Repr

/-- One slot of a block: what a read of it gives, and whether an element lives
    there. `content = none` is storage whose value nobody wrote (or moved away). -/
structure Slot (T : Type) where
  content : Option T
  live : Bool
  deriving DecidableEq, Repr

namespace Slot

variable {T : Type}

/-- Storage without an element. -/
def raw : Slot T := ⟨none, false⟩

/-- A live element with a known value. -/
def holding (v : T) : Slot T := ⟨some v, true⟩

@[simp] theorem raw_content : (raw : Slot T).content = none := rfl
@[simp] theorem raw_live : (raw : Slot T).live = false := rfl
@[simp] theorem holding_content (v : T) : (holding v).content = some v := rfl
@[simp] theorem holding_live (v : T) : (holding v).live = true := rfl

end Slot

/-- One observable act of the code. Element operations carry the pointer and
    whether the slot was live just before. -/
inductive Event (A : Type) where
  /-- `allocator.allocate(n)`, which returned `block`. -/
  | allocate (block n : Nat) (allocator : A)
  /-- `allocator.deallocate(block, n)`. -/
  | deallocate (block n : Nat) (allocator : A)
  | construct (p : Ptr) (live : Bool)
  | destroy (p : Ptr) (live : Bool)
  | assign (p : Ptr) (live : Bool)
  | read (p : Ptr) (live : Bool)
  /-- An evaluation of `buffer_[k]` by an object of this `capacity_`. -/
  | subscript (buffer : Option Nat) (k capacity : Nat)
  /-- An evaluation of `… % capacity_`. -/
  | modulo (capacity : Nat)
  deriving DecidableEq, Repr

/-- The exceptions the code throws or lets through. -/
inductive Exn where
  | ringBufferException (what : String)
  | outOfRange (what : String)
  | invalidArgument (what : String)
  /-- Thrown by `allocate`. -/
  | badAlloc
  /-- Thrown by a constructor or an assignment of `T`. -/
  | element
  deriving DecidableEq, Repr

/-- The storage all objects share. -/
structure Memory (T A : Type) where
  slots : Ptr → Slot T
  /-- The block the next allocation returns. -/
  next : Nat
  /-- How many allocations and element operations still succeed before one
      throws; `none` when none ever does. -/
  fuse : Option Nat
  /-- Newest event first. -/
  trace : List (Event A)

namespace Memory

variable {T A : Type}

/-- Nothing allocated, nothing going to throw. -/
def empty : Memory T A := ⟨fun _ => .raw, 0, none, []⟩

def emit (e : Event A) (m : Memory T A) : Memory T A := { m with trace := e :: m.trace }

/-- An element with this content comes to life at `p`. -/
def fill (p : Ptr) (content : Option T) (m : Memory T A) : Memory T A :=
  { m with slots := Function.update m.slots p ⟨content, true⟩ }

/-- The element at `p` ends its life. -/
def vacate (p : Ptr) (m : Memory T A) : Memory T A :=
  { m with slots := Function.update m.slots p .raw }

/-- The slot's content is overwritten; that brings nothing to life. -/
def overwrite (p : Ptr) (content : Option T) (m : Memory T A) : Memory T A :=
  { m with slots := Function.update m.slots p ⟨content, (m.slots p).live⟩ }

/-- A fresh block of raw storage. -/
def grow (m : Memory T A) : Memory T A :=
  { m with
    slots := fun p => if p.block = some m.next then .raw else m.slots p
    next := m.next + 1 }

variable (e : Event A) (p : Ptr) (c : Option T) (m : Memory T A)

@[simp] theorem emit_slots : (m.emit e).slots = m.slots := rfl
@[simp] theorem emit_next : (m.emit e).next = m.next := rfl
@[simp] theorem emit_fuse : (m.emit e).fuse = m.fuse := rfl
@[simp] theorem emit_trace : (m.emit e).trace = e :: m.trace := rfl
@[simp] theorem fill_slots : (m.fill p c).slots = Function.update m.slots p ⟨c, true⟩ := rfl
@[simp] theorem fill_next : (m.fill p c).next = m.next := rfl
@[simp] theorem fill_fuse : (m.fill p c).fuse = m.fuse := rfl
@[simp] theorem fill_trace : (m.fill p c).trace = m.trace := rfl
@[simp] theorem vacate_slots : (m.vacate p).slots = Function.update m.slots p .raw := rfl
@[simp] theorem vacate_next : (m.vacate p).next = m.next := rfl
@[simp] theorem vacate_fuse : (m.vacate p).fuse = m.fuse := rfl
@[simp] theorem vacate_trace : (m.vacate p).trace = m.trace := rfl
@[simp] theorem overwrite_slots :
    (m.overwrite p c).slots = Function.update m.slots p ⟨c, (m.slots p).live⟩ := rfl
@[simp] theorem overwrite_next : (m.overwrite p c).next = m.next := rfl
@[simp] theorem overwrite_fuse : (m.overwrite p c).fuse = m.fuse := rfl
@[simp] theorem overwrite_trace : (m.overwrite p c).trace = m.trace := rfl
@[simp] theorem overwrite_content : m.overwrite p (m.slots p).content = m := by simp [overwrite]
@[simp] theorem grow_next : m.grow.next = m.next + 1 := rfl
@[simp] theorem grow_fuse : m.grow.fuse = m.fuse := rfl
@[simp] theorem grow_trace : m.grow.trace = m.trace := rfl

theorem grow_slots (p : Ptr) :
    m.grow.slots p = if p.block = some m.next then .raw else m.slots p := rfl

end Memory

end Dkyb
