import Mathlib.Data.Fintype.Basic
import RingBuffer.Members

/-! # The thread-safe ring buffer

What a thread does while it holds the mutex is one function of the buffer, its
critical section, and one step of the system, the test of its predicate and the
going to sleep included. It ends by going to sleep on a condition variable, by
leaving with a result, or by leaving the lock's scope with an inner call still to
come: the two members with a timeout call the buffer after the scope of their
lock, which is one further step, and notify in another. A reference to an element
is read in the section that returns it. A woken thread runs the section of its
call again.
-/

namespace Dkyb

open Stateful

variable {T A : Type}

namespace RingBufferThreadSafe

inductive CondVar where
  | notEmpty
  | notFull
  deriving DecidableEq, Repr

/-- What a call returns or throws; references are already read. -/
inductive Result (T : Type) where
  | void
  | bool (b : Bool)
  | element (content : Option T)
  | nullopt
  | number (n : Nat)
  | thrown (e : Exn)
  deriving DecidableEq, Repr

inductive Notice where
  | silent
  | one (cv : CondVar)
  | all (cv : CondVar)
  deriving DecidableEq, Repr

/-- How a critical section ends. -/
inductive Outcome (T A : Type) where
  | sleep
  | unlock
  | leave (result : Result T) (buffer : State T A) (notice : Notice)

/-! ## Shapes the members share -/

/-- Call the buffer, notify, return; an exception leaves before the notification. -/
def callAndLeave (inner : Update T) (returns : Reply T → Result T) (notice : Notice)
    (buffer : State T A) : Outcome T A :=
  match inner.perform.run buffer with
  | .ok reply s => .leave (returns reply) s notice
  | .error e s => .leave (.thrown e) s .silent

/-- `not_full_.wait(lock, …)` and an insertion. -/
def insertWhenRoom (inner : Update T) (buffer : State T A) : Outcome T A :=
  if buffer.this.full then
    .sleep
  else
    callAndLeave inner (fun _ => .void) (.one .notEmpty) buffer

def insertIfRoom (inner : Update T) (buffer : State T A) : Outcome T A :=
  if buffer.this.full then
    .leave (.bool false) buffer .silent
  else
    callAndLeave inner (fun _ => .bool true) (.one .notEmpty) buffer

/-- `wait_for(lock, timeout, ready)`, tested again on every wake-up; `expired` when
    the wake-up is the timeout. -/
def waitFor (ready expired : Bool) (met timedOut : Outcome T A) : Outcome T A :=
  if ready then met else if expired then timedOut else .sleep

/-- What a pop returns for the reply of `buffer_.pop_front()`. -/
def popped : Reply T → Result T
  | .content item => .element item
  | .done => .void

def inspect (look : RingBuffer A → Result T) (buffer : State T A) : Outcome T A :=
  .leave (look buffer.this) buffer .silent

def access (query : Query) (buffer : State T A) : Outcome T A :=
  match query.ask.run buffer with
  | .ok content s => .leave (.element content) s .silent
  | .error e s => .leave (.thrown e) s .silent

/-! ## The members -/

def pushBack (item : T) : State T A → Outcome T A := insertWhenRoom (.pushBack item)

def pushBackMove (item : T) : State T A → Outcome T A := insertWhenRoom (.pushBackMove item)

def emplaceBack (item : T) : State T A → Outcome T A := insertWhenRoom (.emplaceBack item)

def tryPushBack (item : T) : State T A → Outcome T A := insertIfRoom (.pushBack item)

def tryPushBackMove (item : T) : State T A → Outcome T A := insertIfRoom (.pushBackMove item)

/-- Both overloads; the insertion comes after the lock's scope. -/
def pushBackWithTimeout (expired : Bool) (buffer : State T A) : Outcome T A :=
  waitFor (!buffer.this.full) expired .unlock (.leave (.bool false) buffer .silent)

def popFront : State T A → Outcome T A := callAndLeave .popFront popped (.one .notFull)

def tryPopFront (buffer : State T A) : Outcome T A :=
  if buffer.this.empty then
    .leave .nullopt buffer .silent
  else
    callAndLeave .popFront popped (.one .notFull) buffer

/-- The removal comes after the lock's scope. -/
def popFrontWithTimeout (expired : Bool) (buffer : State T A) : Outcome T A :=
  waitFor (!buffer.this.empty) expired .unlock (.leave .nullopt buffer .silent)

def front : State T A → Outcome T A := access .front

def back : State T A → Outcome T A := access .back

def index (i : Nat) : State T A → Outcome T A := access (.index i)

def size : State T A → Outcome T A := inspect fun rb => .number rb.size

def capacity : State T A → Outcome T A := inspect fun rb => .number rb.capacity

def empty : State T A → Outcome T A := inspect fun rb => .bool rb.empty

def full : State T A → Outcome T A := inspect fun rb => .bool rb.full

def available : State T A → Outcome T A := inspect fun rb => .number rb.available

def clear : State T A → Outcome T A := callAndLeave .clear (fun _ => .void) (.all .notFull)

def waitUntilNotEmpty (expired : Bool) (buffer : State T A) : Outcome T A :=
  waitFor (!buffer.this.empty) expired (.leave (.bool true) buffer .silent)
    (.leave (.bool false) buffer .silent)

def waitUntilNotFull (expired : Bool) (buffer : State T A) : Outcome T A :=
  waitFor (!buffer.this.full) expired (.leave (.bool true) buffer .silent)
    (.leave (.bool false) buffer .silent)

/-! ## Calls -/

inductive Method (T : Type) where
  | pushBack (item : T)
  | pushBackMove (item : T)
  | emplaceBack (item : T)
  | tryPushBack (item : T)
  | tryPushBackMove (item : T)
  | pushBackWithTimeout (item : T)
  | pushBackWithTimeoutMove (item : T)
  | popFront
  | tryPopFront
  | popFrontWithTimeout
  | front
  | back
  | index (i : Nat)
  | size
  | capacity
  | empty
  | full
  | available
  | clear
  | waitUntilNotEmpty
  | waitUntilNotFull
  deriving DecidableEq, Repr

namespace Method

/-- What the call does each time it has the mutex. -/
def critical (expired : Bool) : Method T → State T A → Outcome T A
  | .pushBack item => RingBufferThreadSafe.pushBack item
  | .pushBackMove item => RingBufferThreadSafe.pushBackMove item
  | .emplaceBack item => RingBufferThreadSafe.emplaceBack item
  | .tryPushBack item => RingBufferThreadSafe.tryPushBack item
  | .tryPushBackMove item => RingBufferThreadSafe.tryPushBackMove item
  | .pushBackWithTimeout _ | .pushBackWithTimeoutMove _ =>
      RingBufferThreadSafe.pushBackWithTimeout expired
  | .popFront => RingBufferThreadSafe.popFront
  | .tryPopFront => RingBufferThreadSafe.tryPopFront
  | .popFrontWithTimeout => RingBufferThreadSafe.popFrontWithTimeout expired
  | .front => RingBufferThreadSafe.front
  | .back => RingBufferThreadSafe.back
  | .index i => RingBufferThreadSafe.index i
  | .size => RingBufferThreadSafe.size
  | .capacity => RingBufferThreadSafe.capacity
  | .empty => RingBufferThreadSafe.empty
  | .full => RingBufferThreadSafe.full
  | .available => RingBufferThreadSafe.available
  | .clear => RingBufferThreadSafe.clear
  | .waitUntilNotEmpty => RingBufferThreadSafe.waitUntilNotEmpty expired
  | .waitUntilNotFull => RingBufferThreadSafe.waitUntilNotFull expired

/-- The condition variable the call sleeps on, if it ever sleeps. -/
def condition : Method T → Option CondVar
  | .pushBack _ | .pushBackMove _ | .emplaceBack _ | .pushBackWithTimeout _
  | .pushBackWithTimeoutMove _ | .waitUntilNotFull => some .notFull
  | .popFrontWithTimeout | .waitUntilNotEmpty => some .notEmpty
  | _ => none

/-- The calls that wait with `wait_for`. -/
def timed : Method T → Bool
  | .pushBackWithTimeout _ | .pushBackWithTimeoutMove _ | .popFrontWithTimeout
  | .waitUntilNotEmpty | .waitUntilNotFull => true
  | _ => false

/-- The inner call that comes after the lock's scope, what the call then returns,
    and the condition variable it notifies before it does. -/
def remainder : Method T → Option (Update T × (Reply T → Result T) × CondVar)
  | .pushBackWithTimeout item => some (.pushBack item, fun _ => .bool true, .notEmpty)
  | .pushBackWithTimeoutMove item => some (.pushBackMove item, fun _ => .bool true, .notEmpty)
  | .popFrontWithTimeout => some (.popFront, popped, .notFull)
  | _ => none

end Method

/-! ## Threads -/

/-- Where a thread is. -/
inductive Phase (T : Type) where
  | idle
  /-- Asleep and not notified since. -/
  | asleep (method : Method T)
  /-- Woken, with its predicate still to recheck. -/
  | woken (method : Method T)
  /-- Past the lock's scope, with the inner call still to come. -/
  | unlocked (method : Method T)
  /-- Past the inner call, with the notification still to come. -/
  | notifying (cv : CondVar) (method : Method T) (result : Result T)
  deriving DecidableEq, Repr

def Phase.sleepsOn (cv : CondVar) : Phase T → Bool
  | .asleep method => method.condition == some cv
  | _ => false

def Phase.wake : Phase T → Phase T
  | .asleep method => .woken method
  | phase => phase

inductive Action (T : Type) where
  | call (method : Method T)
  /-- A spurious wake-up, or a timeout. -/
  | wake
  | recheck (expired : Bool)
  | proceed
  | notify
  deriving DecidableEq, Repr

/-- One step of the schedule; `chosen` is the sleeper a `notify_one` wakes. -/
structure Label (ι T : Type) where
  thread : ι
  action : Action T
  chosen : Option ι
  deriving DecidableEq

/-- One `ring_buffer_thread_safe` and the threads that use it. -/
structure System (ι T A : Type) where
  buffer : State T A
  phase : ι → Phase T

variable {ι : Type} [Fintype ι] [DecidableEq ι]

/-- `notify_one` wakes the chosen sleeper; only when nobody sleeps may it wake
    nobody. -/
def notifyOne (cv : CondVar) (chosen : Option ι) (phase : ι → Phase T) : Option (ι → Phase T) :=
  match chosen with
  | some k => if (phase k).sleepsOn cv then some (Function.update phase k (phase k).wake) else none
  | none => if ∀ k, (phase k).sleepsOn cv = false then some phase else none

def notifyAll (cv : CondVar) (phase : ι → Phase T) : ι → Phase T :=
  fun k => if (phase k).sleepsOn cv then (phase k).wake else phase k

def Notice.deliver (chosen : Option ι) (phase : ι → Phase T) : Notice → Option (ι → Phase T)
  | .silent => some phase
  | .one cv => notifyOne cv chosen phase
  | .all cv => some (notifyAll cv phase)

/-- A call that ended, and how. -/
abbrev Report (T : Type) := Option (Method T × Result T)

namespace System

/-- Thread `i`, inside `method`, has run its critical section. -/
def settle (sys : System ι T A) (i : ι) (method : Method T) (chosen : Option ι) :
    Outcome T A → Option (System ι T A × Report T)
  | .sleep => some (⟨sys.buffer, Function.update sys.phase i (.asleep method)⟩, none)
  | .unlock => some (⟨sys.buffer, Function.update sys.phase i (.unlocked method)⟩, none)
  | .leave result buffer notice =>
      (notice.deliver chosen (Function.update sys.phase i .idle)).map fun phase =>
        (⟨buffer, phase⟩, some (method, result))

/-- `none` when the thread cannot take that step now. -/
def step (sys : System ι T A) (l : Label ι T) : Option (System ι T A × Report T) :=
  match l.action, sys.phase l.thread with
  | .call method, .idle => sys.settle l.thread method l.chosen (method.critical false sys.buffer)
  | .wake, .asleep method =>
      some (⟨sys.buffer, Function.update sys.phase l.thread (.woken method)⟩, none)
  | .recheck expired, .woken method =>
      if expired && !method.timed then
        none
      else
        sys.settle l.thread method l.chosen (method.critical expired sys.buffer)
  | .proceed, .unlocked method =>
      match method.remainder with
      | none => none
      | some (inner, returns, cv) =>
          match inner.perform.run sys.buffer with
          | .ok reply s =>
              some (⟨s, Function.update sys.phase l.thread
                (.notifying cv method (returns reply))⟩, none)
          | .error e s =>
              some (⟨s, Function.update sys.phase l.thread .idle⟩, some (method, .thrown e))
  | .notify, .notifying cv method result =>
      (notifyOne cv l.chosen (Function.update sys.phase l.thread .idle)).map fun phase =>
        (⟨sys.buffer, phase⟩, some (method, result))
  | _, _ => none

/-- A newly constructed buffer, no call in progress. -/
def start (capacity : Nat) (allocator : A) : System ι T A :=
  ⟨State.created capacity allocator, fun _ => .idle⟩

end System

end RingBufferThreadSafe

end Dkyb
