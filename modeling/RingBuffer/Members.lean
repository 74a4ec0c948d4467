import RingBuffer.Lib.Stateful
import RingBuffer.Object

/-! # The element operations and the member functions of a ring buffer

Every member function is a program over the object it is called on (`this`) and
the shared memory. `Update` and `Query` name the calls a client can make on one
object; `perform` and `ask` run them.
-/

namespace Dkyb

open Stateful

structure State (T A : Type) where
  this : RingBuffer A
  mem : Memory T A

abbrev Op (T A : Type) := EStateM Exn (State T A)

/-- An argument of type `T const&` or `T&&`: a value kept outside the buffer (for
    `emplace_back` also the element its arguments construct), or the element
    stored at some place. -/
inductive Arg (T : Type) where
  | value (v : T)
  | element (p : Ptr)
  deriving DecidableEq, Repr

/-- An argument of type `Args&&`, with the value category it was given with. -/
inductive Forwarded (T : Type) where
  | lvalue (arg : Arg T)
  | rvalue (arg : Arg T)
  deriving DecidableEq, Repr

variable {T A : Type}

namespace State

def mapMem (f : Memory T A → Memory T A) (s : State T A) : State T A := { s with mem := f s.mem }

def mapThis (f : RingBuffer A → RingBuffer A) (s : State T A) : State T A :=
  { s with this := f s.this }

/-- The slot `buffer_[k]`. -/
def cell (s : State T A) (k : Nat) : Slot T := s.mem.slots ⟨s.this.buffer_, k⟩

@[simp] theorem mapMem_this (f : Memory T A → Memory T A) (s : State T A) :
    (s.mapMem f).this = s.this := rfl

@[simp] theorem mapMem_mem (f : Memory T A → Memory T A) (s : State T A) :
    (s.mapMem f).mem = f s.mem := rfl

@[simp] theorem mapMem_overwrite_content (p : Ptr) (s : State T A) :
    s.mapMem (Memory.overwrite p (s.mem.slots p).content) = s := by
  simp [mapMem]

@[simp] theorem mapThis_this (f : RingBuffer A → RingBuffer A) (s : State T A) :
    (s.mapThis f).this = f s.this := rfl

@[simp] theorem mapThis_mem (f : RingBuffer A → RingBuffer A) (s : State T A) :
    (s.mapThis f).mem = s.mem := rfl

end State

/-! ## Element and allocator operations -/

def emit (e : Event A) : Op T A Unit := modify (State.mapMem (Memory.emit e))

/-- The point where an operation throws if it is going to. -/
def mayThrow (e : Exn) : Op T A Unit := do
  match (← get).mem.fuse with
  | none => pure ()
  | some 0 =>
      modify (State.mapMem fun m => { m with fuse := none })
      throw e
  | some (n + 1) => modify (State.mapMem fun m => { m with fuse := some n })

def read (p : Ptr) : Op T A (Option T) := do
  let slot := (← get).mem.slots p
  emit (.read p slot.live)
  return slot.content

namespace Arg

def copied : Arg T → Op T A (Option T)
  | .value v => pure (some v)
  | .element p => read p

/-- Moving from an element leaves it alive with an unknown value. -/
def moved : Arg T → Op T A (Option T)
  | .value v => pure (some v)
  | .element p => do
      let content ← read p
      modify (State.mapMem (Memory.overwrite p none))
      return content

end Arg

/-- `std::forward<Args>(args)...`. -/
def Forwarded.forward : Forwarded T → Op T A (Option T)
  | .lvalue arg => arg.copied
  | .rvalue arg => arg.moved

/-- `allocator_traits::construct(allocator_, p, …)`. It creates nothing when it throws. -/
def construct (p : Ptr) (argument : Op T A (Option T)) : Op T A Unit := do
  let content ← argument
  emit (.construct p ((← get).mem.slots p).live)
  mayThrow .element
  modify (State.mapMem (Memory.fill p content))

/-- `*p = …`. It leaves `*p` as it was when it throws. -/
def assign (p : Ptr) (argument : Op T A (Option T)) : Op T A Unit := do
  let target := (← get).mem.slots p
  let content ← argument
  emit (.assign p target.live)
  -- an argument that is `*p` itself is not moved from before the assignment succeeds
  modify (State.mapMem (Memory.overwrite p target.content))
  mayThrow .element
  modify (State.mapMem (Memory.overwrite p content))

/-- `allocator_traits::destroy(allocator_, p)`. -/
def destroy (p : Ptr) : Op T A Unit := do
  emit (.destroy p ((← get).mem.slots p).live)
  modify (State.mapMem (Memory.vacate p))

def allocate (allocator : A) (n : Nat) : Op T A Nat := do
  mayThrow .badAlloc
  let block := (← get).mem.next
  emit (.allocate block n allocator)
  modify (State.mapMem Memory.grow)
  return block

namespace RingBuffer

/-- `&buffer_[k]`. -/
def subscript (k : Nat) : Op T A Ptr := do
  let rb := (← get).this
  emit (.subscript rb.buffer_ k rb.capacity_)
  return ⟨rb.buffer_, k⟩

/-- The value of `n % capacity_`. -/
def modulo (n : Nat) : Op T A Nat := do
  let rb := (← get).this
  emit (.modulo rb.capacity_)
  return n % rb.capacity_

/-- Run a cursor function; each of the three takes one remainder by `capacity_`. -/
def advance (cursor : RingBuffer A → RingBuffer A) : Op T A Unit := do
  emit (.modulo (← get).this.capacity_)
  modify (State.mapThis cursor)

/-! ## Modifiers -/

def pushBack (item : Arg T) : Op T A Unit := do
  let rb := (← get).this
  if rb.full_ then
    -- overwrite the oldest element
    assign (← subscript rb.head_) item.copied
    advance overwriteAdvanceHead
  else
    construct (← subscript rb.tail_) item.copied
    advance incrementTail

def pushBackMove (item : Arg T) : Op T A Unit := do
  let rb := (← get).this
  if rb.full_ then
    assign (← subscript rb.head_) item.moved
    advance overwriteAdvanceHead
  else
    construct (← subscript rb.tail_) item.moved
    advance incrementTail

def emplaceBack (args : Forwarded T) : Op T A Unit := do
  let rb := (← get).this
  if rb.full_ then
    -- the oldest element is destroyed before the arguments are looked at
    destroy (← subscript rb.head_)
    construct (← subscript rb.head_) args.forward
    advance overwriteAdvanceHead
  else
    construct (← subscript rb.tail_) args.forward
    advance incrementTail

/-- The reply is what the returned object was move-constructed from. A move that
    throws is taken to leave the element as it was. -/
def popFront : Op T A (Option T) := do
  let rb := (← get).this
  if rb.empty then
    throw (.ringBufferException "Cannot pop from empty ring buffer")
  let source ← subscript rb.head_
  mayThrow .element
  let item ← (Arg.element source).moved
  destroy (← subscript rb.head_)
  advance incrementHead
  return item

def clear : Op T A Unit := do
  let rb := (← get).this
  forRange rb.count_ fun i => do
    destroy (← subscript (← modulo (rb.head_ + i)))
  modify (State.mapThis reset)

/-! ## Element access -/

def front : Op T A Ptr := do
  let rb := (← get).this
  if rb.empty then
    throw (.ringBufferException "Cannot access front of empty ring buffer")
  subscript rb.head_

def back : Op T A Ptr := do
  let rb := (← get).this
  if rb.empty then
    throw (.ringBufferException "Cannot access back of empty ring buffer")
  if rb.justOverwrote_ then
    -- when we just overwrote, the back element is at the position we wrote to
    subscript rb.overwritePosition_
  else
    -- normal case: back element is at tail - 1
    subscript (rb.decrementIndex rb.tail_)

/-- `operator[]`. The message reports the capacity as the size. -/
def index (i : Nat) : Op T A Ptr := do
  let rb := (← get).this
  if i ≥ rb.count_ then
    throw (.outOfRange s!"Index {i} out of range [size={rb.capacity_}]")
  subscript (← modulo (rb.head_ + i))

/-! ## Iteration -/

/-- Both iterator classes; `buffer_` is the object the program runs on. -/
structure Iterator where
  index_ : Nat
  size_ : Nat
  deriving DecidableEq, Repr

namespace Iterator

def dereference (it : Iterator) : Op T A Ptr := index it.index_

def increment (it : Iterator) : Iterator := { it with index_ := it.index_ + 1 }

/-- `operator==` on iterators of one buffer does not look at `size_`. -/
def equal (it other : Iterator) : Bool := it.index_ == other.index_

end Iterator

def begin : Op T A Iterator := return ⟨0, (← get).this.size⟩

def end_ : Op T A Iterator := do
  let rb := (← get).this
  return ⟨rb.count_, rb.size⟩

/-- `for (; it != last; ++it) visit(*it)`, given up after `fuel` rounds. -/
def visit : Nat → Iterator → Iterator → Op T A (Option (List (Option T)))
  | 0, _, _ => return none
  | fuel + 1, it, last => do
      if it.equal last then
        return some []
      let content ← read (← it.dereference)
      return (← visit fuel it.increment last).map (content :: ·)

/-- A range-for loop over the buffer. -/
def traverse (fuel : Nat) : Op T A (Option (List (Option T))) := do
  let first ← begin
  let last ← end_
  visit fuel first last

/-! ## Construction and destruction -/

/-- `ring_buffer(capacity, allocator)`. -/
def create (capacity : Nat) (allocator : A) : Op T A Unit := do
  let block ← allocate allocator capacity
  modify (State.mapThis fun _ => { blank allocator with capacity_ := capacity, buffer_ := some block })
  if capacity = 0 then
    throw (.invalidArgument "Ring buffer capacity must be greater than 0")

/-- `if (buffer_) allocator_.deallocate(buffer_, capacity_)`. -/
def deallocate : Op T A Unit := do
  let rb := (← get).this
  match rb.buffer_ with
  | none => pure ()
  | some block => emit (.deallocate block rb.capacity_ rb.allocator_)

/-- `~ring_buffer()`. -/
def finish : Op T A Unit := do
  clear
  deallocate

end RingBuffer

/-! ## Calls -/

/-- The calls that change one buffer; the arguments are values outside it. -/
inductive Update (T : Type) where
  | pushBack (item : T)
  | pushBackMove (item : T)
  | emplaceBack (item : T)
  | popFront
  | clear
  deriving DecidableEq, Repr

/-- What a call returns to the client, references already read. -/
inductive Reply (T : Type) where
  | done
  | content (item : Option T)
  deriving DecidableEq, Repr

def Update.perform : Update T → Op T A (Reply T)
  | .pushBack item => do RingBuffer.pushBack (.value item); return .done
  | .pushBackMove item => do RingBuffer.pushBackMove (.value item); return .done
  | .emplaceBack item => do RingBuffer.emplaceBack (.lvalue (.value item)); return .done
  | .popFront => return .content (← RingBuffer.popFront)
  | .clear => do RingBuffer.clear; return .done

/-- The value a push brings, if the call is one of the three pushes. -/
def Update.inserted : Update T → Option T
  | .pushBack item | .pushBackMove item | .emplaceBack item => some item
  | .popFront | .clear => none

/-- The calls that return a reference to an element. -/
inductive Query where
  | front
  | back
  | index (i : Nat)
  deriving DecidableEq, Repr

def Query.locate : Query → Op T A Ptr
  | .front => RingBuffer.front
  | .back => RingBuffer.back
  | .index i => RingBuffer.index i

/-- Call and read through the returned reference. -/
def Query.ask (query : Query) : Op T A (Option T) := do
  read (← query.locate)

/-- A call of either kind. -/
inductive Call (T : Type) where
  | update (call : Update T)
  | query (call : Query)
  deriving DecidableEq, Repr

def Call.perform : Call T → Op T A (Reply T)
  | .update call => call.perform
  | .query call => return .content (← call.ask)

/-- A newly constructed buffer in otherwise unused memory. -/
def State.created (capacity : Nat) (allocator : A) : State T A :=
  final (RingBuffer.create capacity allocator) ⟨RingBuffer.blank allocator, Memory.empty⟩

/-- The state after a sequence of updates. -/
def State.after (s : State T A) (updates : List (Update T)) : State T A :=
  updates.foldl (fun s update => final update.perform s) s

end Dkyb
