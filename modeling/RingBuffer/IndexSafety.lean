import RingBuffer.Guarantees
import RingBuffer.Lib.Transitions
import RingBuffer.Throwing

/-! # Index safety of programs over many objects

A program constructs, copies, moves, assigns, uses and destroys any number of
objects, and every statement may be made to throw. The cursors of every object
always fit the capacity it has. The overwrite position does too, unless the flag
that makes `back()` look at it is left over from before an assignment.
-/

namespace Dkyb

open Stateful Transitions Std.Do

set_option mvcgen.warning false

variable {T A : Type}

/-! ## Programs -/

/-- One call on one object. -/
inductive Use (T : Type) where
  | modify (modifier : Modifier T)
  | ask (query : Query)
  | traverse (fuel : Nat)
  deriving DecidableEq, Repr

namespace Use

def perform : Use T → Op T A Unit
  | .modify modifier => modifier.perform
  | .ask query => do
      let _ ← query.ask
  | .traverse fuel => do
      let _ ← RingBuffer.traverse fuel

/-- The calls that write the overwrite flag when they return. -/
def writesFlag : Use T → Bool
  | .modify (.insert _) | .modify .popFront => true
  | .modify .clear | .ask _ | .traverse _ => false

end Use

/-- A call with values for arguments, as a use. -/
def Call.use : Call T → Use T
  | .update (.pushBack item) => .modify (.insert (.pushBack (.value item)))
  | .update (.pushBackMove item) => .modify (.insert (.pushBackMove (.value item)))
  | .update (.emplaceBack item) => .modify (.insert (.emplaceBack (.lvalue (.value item))))
  | .update .popFront => .modify .popFront
  | .update .clear => .modify .clear
  | .query q => .ask q

inductive Act (T A : Type) where
  | statement (statement : Statement T A)
  | use (i : Nat) (use : Use T)

/-- What to do next, and how many allocations and element operations of it
    succeed before one throws. -/
structure Attempt (T A : Type) where
  fuse : Option Nat
  act : Act T A

namespace Heap

def armed (h : Heap T A) (fuse : Option Nat) : Heap T A :=
  { h with mem := { h.mem with fuse := fuse } }

/-- The statement ends with an exception. -/
def throws (traits : AllocatorTraits A) (h : Heap T A) : Statement T A → Bool
  | .create _ capacity allocator =>
      threw (RingBuffer.create capacity allocator) ⟨RingBuffer.blank allocator, h.mem⟩
  | .copyConstruct _ j =>
      match h.objects j with
      | some other =>
          threw (RingBuffer.copyConstruct traits other) ⟨RingBuffer.blank other.allocator_, h.mem⟩
      | none => false
  | .copyAssign i j =>
      match h.objects i, h.objects j with
      | some rb, some other => threw (RingBuffer.copyAssign traits (i == j) other) ⟨rb, h.mem⟩
      | _, _ => false
  | .call i call =>
      match h.objects i with
      | some rb => threw call.perform ⟨rb, h.mem⟩
      | none => false
  | .moveConstruct .. | .moveAssign .. | .destroy .. => false

/-- The heap afterwards, and whether an exception came out. -/
def attempt (traits : AllocatorTraits A) (h : Heap T A) (l : Attempt T A) :
    Option (Heap T A × Bool) :=
  let h := h.armed l.fuse
  match l.act with
  | .statement statement =>
      (h.exec traits statement).map fun h' => (h', h.throws traits statement)
  | .use i use =>
      (h.objects i).map fun rb =>
        (h.put i (final use.perform ⟨rb, h.mem⟩), threw use.perform (⟨rb, h.mem⟩ : State T A))

end Heap

/-! ## Flags that were left over -/

/-- Whether the overwrite flag of an object is on since before the object was
    last assigned to. -/
abbrev Leftover := Nat → Bool

namespace Leftover

variable (leftover : Leftover) (h : Heap T A)

/-- An assignment that does not write the flag keeps the one of its target. -/
def kept (i : Nat) : Bool := (h.objects i).any RingBuffer.justOverwrote_

def used (i : Nat) (use : Use T) (threw : Bool) : Leftover :=
  Function.update leftover i (leftover i && (threw || !use.writesFlag))

def record (l : Attempt T A) (threw : Bool) : Leftover :=
  match l.act with
  | .statement (.create i ..) | .statement (.copyConstruct i _) | .statement (.moveConstruct i _) =>
      Function.update leftover i false
  | .statement (.copyAssign i j) =>
      if i = j then leftover else Function.update leftover i (threw && kept h i)
  | .statement (.moveAssign i j) =>
      if i = j then leftover else Function.update leftover i (kept h i)
  | .statement (.call i call) => leftover.used i call.use threw
  | .use i use => leftover.used i use threw
  | .statement (.destroy _) => leftover

end Leftover

/-! ## What is left out -/

instance (rb : RingBuffer A) : Decidable rb.Stored := inferInstanceAs (Decidable (_ ∧ _))

/-- No push goes to an object without storage, and no `back()` to a position that
    an older overwrite left behind outside the capacity. -/
def Use.Allowed (leftover : Bool) (rb : RingBuffer A) : Use T → Prop
  | .modify (.insert _) => rb.Stored
  | .ask .back => leftover = true → rb.count_ ≠ 0 → rb.backIndex < rb.capacity_
  | .modify .popFront | .modify .clear | .ask _ | .traverse _ => True

/-- Capacities of new objects are positive. -/
def Act.Allowed (h : Heap T A) (leftover : Leftover) : Act T A → Prop
  | .statement (.create _ capacity _) => 0 < capacity
  | .statement (.call i call) => ∀ rb ∈ h.objects i, call.use.Allowed (leftover i) rb
  | .use i u => ∀ rb ∈ h.objects i, u.Allowed (leftover i) rb
  | .statement _ => True

instance (leftover : Bool) (rb : RingBuffer A) (use : Use T) :
    Decidable (use.Allowed leftover rb) :=
  match use with
  | .modify (.insert _) => inferInstanceAs (Decidable rb.Stored)
  | .ask .back => inferInstanceAs (Decidable (_ → _ → _))
  | .modify .popFront | .modify .clear | .ask .front | .ask (.index _) | .traverse _ =>
      inferInstanceAs (Decidable True)

instance (h : Heap T A) (leftover : Leftover) (act : Act T A) :
    Decidable (act.Allowed h leftover) :=
  match act with
  | .statement (.create _ capacity _) => inferInstanceAs (Decidable (0 < capacity))
  | .statement (.call i call) =>
      inferInstanceAs (Decidable (∀ rb ∈ h.objects i, call.use.Allowed (leftover i) rb))
  | .use i use => inferInstanceAs (Decidable (∀ rb ∈ h.objects i, use.Allowed (leftover i) rb))
  | .statement (.copyConstruct ..) | .statement (.moveConstruct ..) | .statement (.copyAssign ..)
  | .statement (.moveAssign ..) | .statement (.destroy _) => inferInstanceAs (Decidable True)

abbrev World (T A : Type) := Heap T A × Leftover

namespace World

def start : World T A := (Heap.empty, fun _ => false)

def step (traits : AllocatorTraits A) : World T A → Attempt T A → Option (World T A × Bool) :=
  observed (Heap.attempt traits) fun leftover h l threw => leftover.record h l threw

def Allowed (w : World T A) (l : Attempt T A) : Prop := l.act.Allowed w.1 w.2

instance (w : World T A) (l : Attempt T A) : Decidable (w.Allowed l) :=
  inferInstanceAs (Decidable (l.act.Allowed w.1 w.2))

end World

/-- The least a program has to keep to: capacities of new objects are positive. -/
def Act.Positive : Act T A → Prop
  | .statement (.create _ capacity _) => 0 < capacity
  | .statement _ | .use .. => True

instance (act : Act T A) : Decidable act.Positive :=
  match act with
  | .statement (.create _ capacity _) => inferInstanceAs (Decidable (0 < capacity))
  | .use .. | .statement (.call ..) | .statement (.copyConstruct ..)
  | .statement (.moveConstruct ..) | .statement (.copyAssign ..) | .statement (.moveAssign ..)
  | .statement (.destroy _) => inferInstanceAs (Decidable True)

/-! ## One object -/

namespace RingBuffer

/-- Every subscript the object can make is below its capacity, unless the flag is
    left over. -/
structure Addressable (leftover : Bool) (rb : RingBuffer A) : Prop where
  indexed : rb.Indexed
  flag : leftover = false → rb.count_ ≠ 0 → rb.justOverwrote_ = true →
    rb.overwritePosition_ < rb.capacity_

namespace Indexed

variable {rb : RingBuffer A}

theorem full_iff (h : rb.Indexed) : rb.full = true ↔ rb.capacity ≠ 0 ∧ rb.size = rb.capacity := by
  unfold full capacity size
  rcases h.cursors with ⟨none, empty, notFull⟩ | counted
  · simp [none, notFull]
  · have pos := counted.pos
    rw [counted.full_iff]
    omega

theorem reset (h : rb.Indexed) : rb.reset.Indexed where
  cursors := by
    rcases h.cursors with ⟨none, _, _⟩ | counted
    · exact .inl ⟨none, rfl, rfl⟩
    · exact .inr counted.reset
  block nonempty := absurd rfl nonempty

/-- Without elements only the capacity matters. -/
theorem of_reset {rb : RingBuffer A} (head : rb.head_ = 0) (tail : rb.tail_ = 0)
    (count : rb.count_ = 0) (full : rb.full_ = false) : rb.Indexed where
  cursors := by
    rcases Nat.eq_zero_or_pos rb.capacity_ with none | pos
    · exact .inl ⟨none, count, full⟩
    · refine .inr ⟨pos, rfl, by omega, by omega, by omega, ?_⟩
      rw [full, count]
      exact (beq_eq_false_iff_ne.mpr (Nat.ne_of_lt pos)).symm
  block nonempty := absurd count nonempty

/-- The cursors of another object, with any block. -/
theorem of_copy {other : RingBuffer A} (h : other.Indexed) (capacity : rb.capacity_ = other.capacity_)
    (head : rb.head_ = other.head_) (tail : rb.tail_ = other.tail_) (count : rb.count_ = other.count_)
    (full : rb.full_ = other.full_) (block : rb.count_ ≠ 0 → rb.buffer_.isSome = true) :
    rb.Indexed where
  cursors := by
    rcases h.cursors with ⟨none, empty, notFull⟩ | counted
    · exact .inl ⟨capacity.trans none, count.trans empty, full.trans notFull⟩
    · rw [← capacity] at counted
      refine .inr ⟨counted.pos, rfl, ?_, ?_, ?_, ?_⟩
      · rw [head]
        exact counted.head
      · rw [tail]
        exact counted.tail
      · rw [count]
        exact counted.count
      · rw [full, count]
        exact counted.full
  block := block

end Indexed

namespace Addressable

variable {rb : RingBuffer A} {leftover : Bool}

theorem of_off (h : rb.Indexed) (off : rb.justOverwrote_ = false) : rb.Addressable leftover where
  indexed := h
  flag _ _ on := by
    rw [off] at on
    cases on

theorem of_empty (h : rb.Indexed) (empty : rb.count_ = 0) : rb.Addressable leftover where
  indexed := h
  flag _ nonempty := absurd empty nonempty

/-- A flag that is kept is left over. -/
theorem of_kept (h : rb.Indexed) {flag : Bool} (kept : rb.justOverwrote_ = flag) :
    rb.Addressable flag where
  indexed := h
  flag off _ on := by
    rw [kept, off] at on
    cases on

theorem pushed (h : rb.Addressable leftover) (stored : rb.Stored) : rb.pushed.Addressable false := by
  have counted := h.indexed.counted_of_stored stored
  have storage := storage_pushed rb
  obtain ⟨buffer, capacity, -⟩ : rb.pushed.buffer_ = rb.buffer_ ∧
      rb.pushed.capacity_ = rb.capacity_ ∧ rb.pushed.allocator_ = rb.allocator_ := by
    simpa [RingBuffer.storage] using storage
  have indexed : rb.pushed.Indexed := by
    refine ⟨.inr ?_, fun _ => ?_⟩
    · rw [capacity]
      exact counted.pushed
    · rw [buffer]
      exact stored.2
  cases full : rb.full_ with
  | true =>
      refine ⟨indexed, fun _ _ _ => ?_⟩
      simpa only [RingBuffer.pushed, full, if_true, overwriteAdvanceHead_eq] using counted.head
  | false =>
      refine of_off indexed ?_
      simp only [RingBuffer.pushed, full, Bool.false_eq_true, if_false, incrementTail_eq rb full]

theorem incrementHead (h : rb.Addressable leftover) (nonempty : rb.count_ ≠ 0) :
    rb.incrementHead.Addressable false := by
  have counted := (h.indexed.counted nonempty).incrementHead nonempty
  have block := h.indexed.block nonempty
  rw [incrementHead_eq] at counted ⊢
  exact of_off ⟨.inr counted, fun _ => block⟩ rfl

theorem reset (h : rb.Addressable leftover) : rb.reset.Addressable leftover :=
  of_empty h.indexed.reset rfl

theorem movedFrom (traits : AllocatorTraits A) : (rb.movedFrom traits).Addressable leftover :=
  of_empty (.of_reset rfl rfl rfl rfl) rfl

theorem created (c block : Nat) (a : A) :
    ({ blank a with capacity_ := c, buffer_ := some block } : RingBuffer A).Addressable leftover :=
  of_empty (.of_reset rfl rfl rfl rfl) rfl

/-- Where `back()` goes. -/
theorem backIndex (h : rb.Addressable leftover) (nonempty : rb.count_ ≠ 0)
    (usable : leftover = true → rb.backIndex < rb.capacity_) : rb.backIndex < rb.capacity_ := by
  cases leftover with
  | true => exact usable rfl
  | false =>
      have counted := h.indexed.counted nonempty
      have pos := counted.pos
      have tail := counted.tail
      unfold RingBuffer.backIndex decrementIndex
      cases flag : rb.justOverwrote_ with
      | true => exact h.flag rfl nonempty flag
      | false =>
          rw [if_neg Bool.false_ne_true]
          split
          · omega
          · omega

end Addressable

end RingBuffer

/-! ## One call -/

/-- The same call, the reply dropped. -/
theorem Call.run_use (call : Call T) (s : State T A) :
    final call.perform s = final call.use.perform s ∧
      threw call.perform s = threw call.use.perform s := by
  have dropped : ∀ {α β : Type} (x : Op T A α) (f : α → β),
      final (do return f (← x)) s = final x s ∧ threw (do return f (← x)) s = threw x s := by
    intro α β x f
    unfold final threw
    simp only [EStateM.run_bind, EStateM.run_pure]
    cases x.run s with
    | ok a s' => exact ⟨rfl, rfl⟩
    | error e s' => exact ⟨rfl, rfl⟩
  cases call with
  | update update =>
      cases update with
      | pushBack item => exact dropped (RingBuffer.pushBack (.value item)) fun _ => Reply.done
      | pushBackMove item =>
          exact dropped (RingBuffer.pushBackMove (.value item)) fun _ => Reply.done
      | emplaceBack item =>
          exact dropped (RingBuffer.emplaceBack (.lvalue (.value item))) fun _ => Reply.done
      | popFront =>
          have first := dropped RingBuffer.popFront Reply.content
          have second := dropped RingBuffer.popFront fun _ => ()
          exact ⟨first.1.trans second.1.symm, first.2.trans second.2.symm⟩
      | clear => exact dropped RingBuffer.clear fun _ => Reply.done
  | query query =>
      have first := dropped query.ask Reply.content
      have second := dropped query.ask fun _ => ()
      exact ⟨first.1.trans second.1.symm, first.2.trans second.2.symm⟩

section Uses

variable {rb : RingBuffer A} {leftover : Bool}

theorem ask_spec (h : rb.Addressable leftover) (query : Query)
    (allowed : (Use.ask query : Use T).Allowed leftover rb) :
    ⦃fun s => ⌜At rb s⌝⦄ (query.ask : Op T A (Option T))
      ⦃post⟨fun _ s => ⌜At rb s⌝, fun _ s => ⌜At rb s⌝⟩⦄ := by
  have indexed := h.indexed
  cases query with
  | front =>
      simp only [Query.ask, Query.locate]
      mvcgen
  | back =>
      have inside : rb.count_ ≠ 0 → rb.backIndex < rb.capacity_ :=
        fun nonempty => h.backIndex nonempty fun stale => allowed stale nonempty
      simp only [Query.ask, Query.locate]
      mvcgen
  | index i =>
      simp only [Query.ask, Query.locate]
      mvcgen

/-- A call that throws leaves the object; one that returns leaves what it promises. -/
theorem Use.ends_of_contract (h : rb.Addressable leftover) {use : Use T} {post : State T A → Prop}
    (contract : ⦃fun s => ⌜At rb s⌝⦄ (use.perform : Op T A Unit)
      ⦃post⟨fun _ s => ⌜post s⌝, fun _ s => ⌜At rb s⌝⟩⦄) {s : State T A} (start : At rb s)
    (returns : ∀ s', post s' →
      ∃ rb', At rb' s' ∧ rb'.Addressable (leftover && !use.writesFlag)) :
    ∃ rb', At rb' (final use.perform s) ∧
      rb'.Addressable (leftover && (threw use.perform s || !use.writesFlag)) := by
  rcases Stateful.ends_of_contract contract start with ⟨returned, _, left⟩ | ⟨thrown, _, left⟩
  · rw [returned, Bool.false_or]
    exact returns _ left
  · refine ⟨rb, left, ?_⟩
    rw [thrown, Bool.true_or, Bool.and_true]
    exact h

/-- Step lemma of one object. -/
theorem Use.ends (h : rb.Addressable leftover) {use : Use T} (allowed : use.Allowed leftover rb)
    {s : State T A} (start : At rb s) : ∃ rb', At rb' (final use.perform s) ∧
      rb'.Addressable (leftover && (threw use.perform s || !use.writesFlag)) := by
  have indexed := h.indexed
  cases use with
  | modify modifier =>
      cases modifier with
      | insert insertion =>
          have counted := indexed.counted_of_stored allowed
          have contract : ⦃fun s => ⌜At rb s⌝⦄
              ((Use.modify (.insert insertion)).perform : Op T A Unit)
              ⦃post⟨fun _ s => ⌜At rb.pushed s⌝, fun _ s => ⌜At rb s⌝⟩⦄ :=
            RingBuffer.insert_spec counted allowed insertion
          refine ends_of_contract h contract start fun s' left => ⟨_, left, ?_⟩
          simpa [writesFlag] using h.pushed allowed
      | popFront =>
          have contract : ⦃fun s => ⌜At rb s⌝⦄ ((Use.modify .popFront).perform : Op T A Unit)
              ⦃post⟨fun _ s => ⌜rb.count_ ≠ 0 ∧ At rb.incrementHead s⌝,
                fun _ s => ⌜At rb s⌝⟩⦄ := by
            simp only [perform, Modifier.perform]
            mvcgen
          refine ends_of_contract h contract start fun s' left => ⟨_, left.2, ?_⟩
          simpa [writesFlag] using h.incrementHead left.1
      | clear =>
          have contract : ⦃fun s => ⌜At rb s⌝⦄ ((Use.modify .clear).perform : Op T A Unit)
              ⦃post⟨fun _ s => ⌜At rb.reset s⌝, fun _ s => ⌜At rb s⌝⟩⦄ := indexed.clear_contract
          refine ends_of_contract h contract start fun s' left => ⟨_, left, ?_⟩
          simpa [writesFlag] using h.reset
  | ask query =>
      have answer := ask_spec h query allowed
      have contract : ⦃fun s => ⌜At rb s⌝⦄ ((Use.ask query).perform : Op T A Unit)
          ⦃post⟨fun _ s => ⌜At rb s⌝, fun _ s => ⌜At rb s⌝⟩⦄ := by
        simp only [perform]
        mvcgen [answer]
      refine ends_of_contract h contract start fun s' left => ⟨rb, left, ?_⟩
      simpa [writesFlag] using h
  | traverse fuel =>
      have contract : ⦃fun s => ⌜At rb s⌝⦄ ((Use.traverse fuel).perform : Op T A Unit)
          ⦃post⟨fun _ s => ⌜At rb s⌝, fun _ s => ⌜At rb s⌝⟩⦄ := by
        simp only [perform]
        mvcgen
      refine ends_of_contract h contract start fun s' left => ⟨rb, left, ?_⟩
      simpa [writesFlag] using h

end Uses

/-! ## Copying -/

namespace At

variable {rb : RingBuffer A} {s : State T A}

theorem armed (h : At rb s) (fuse : Option Nat) : At rb (s.armed fuse) := h.silent rfl rfl

theorem allocated (h : At rb s) (allocator : A) (n : Nat) : At rb (s.allocated allocator n) :=
  (h.emit (e := .allocate s.mem.next n allocator) trivial).silent rfl rfl

/-- The four accesses of one round, and whatever the element operations do. -/
theorem round (h : At rb s) {other : RingBuffer A} {n : Nat}
    (own : rb.buffer_.isSome = true ∧ n < rb.capacity_)
    (theirs : other.buffer_.isSome = true ∧ n < other.capacity_) {s' : State T A}
    (this : s'.this = s.this) {p q : Ptr} {live live' : Bool}
    (trace : s'.mem.trace = .construct p live :: .read q live' ::
      .subscript other.buffer_ n other.capacity_ ::
      .subscript s.this.buffer_ n s.this.capacity_ :: s.mem.trace) : At rb s' where
  this := this.trans h.this
  inRange := by
    rw [Memory.InRange, trace, h.this]
    simp only [List.forall_mem_cons]
    exact ⟨trivial, trivial, theirs, own, h.inRange⟩

theorem copied (h : At rb s) {other : RingBuffer A} {n : Nat}
    (own : ∀ i < n, rb.buffer_.isSome = true ∧ i < rb.capacity_)
    (theirs : ∀ i < n, other.buffer_.isSome = true ∧ i < other.capacity_) :
    At rb (s.copied other n) := by
  induction n with
  | zero => exact h
  | succ n ih =>
      have earlier := ih (fun i below => own i (Nat.lt_succ_of_lt below))
        fun i below => theirs i (Nat.lt_succ_of_lt below)
      exact earlier.round (own n (Nat.lt_succ_self n)) (theirs n (Nat.lt_succ_self n)) rfl rfl

theorem interrupted (h : At rb s) {other : RingBuffer A} {j : Nat}
    (own : ∀ i < j + 1, rb.buffer_.isSome = true ∧ i < rb.capacity_)
    (theirs : ∀ i < j + 1, other.buffer_.isSome = true ∧ i < other.capacity_) :
    At rb (s.interrupted other j) := by
  have earlier := h.copied (fun i below => own i (Nat.lt_succ_of_lt below))
    fun i below => theirs i (Nat.lt_succ_of_lt below)
  exact earlier.round (own j (Nat.lt_succ_self j)) (theirs j (Nat.lt_succ_self j)) rfl rfl

theorem emptied (h : At rb s) (indexed : rb.Indexed) : At rb.reset s.cleared.deallocated :=
  post_of_run (RingBuffer.finish_spec indexed) h (run_finish s)

theorem stranded (h : At rb s) (indexed : rb.Indexed) (traits : AllocatorTraits A)
    (other : RingBuffer A) : At
      { rb.reset with
        allocator_ :=
          if traits.propagateOnContainerCopyAssignment then other.allocator_ else rb.allocator_
        capacity_ := other.capacity_ }
      (s.stranded traits other) :=
  (h.emptied indexed).become fun rb =>
    { rb with
      allocator_ :=
        if traits.propagateOnContainerCopyAssignment then other.allocator_ else rb.allocator_
      capacity_ := other.capacity_ }

end At

/-- The state is one whose object has the cursors of `other` and some block. -/
structure CopyOf (other : RingBuffer A) (s : State T A) : Prop where
  here : At s.this s
  capacity : s.this.capacity_ = other.capacity_
  head : s.this.head_ = other.head_
  tail : s.this.tail_ = other.tail_
  count : s.this.count_ = other.count_
  full : s.this.full_ = other.full_
  block : s.this.buffer_.isSome = true

namespace CopyOf

variable {other : RingBuffer A} {s : State T A}

theorem indexed (h : CopyOf other s) (source : other.Indexed) : s.this.Indexed :=
  source.of_copy h.capacity h.head h.tail h.count h.full fun _ => h.block

theorem duplicated (inRange : s.mem.InRange) (traits : AllocatorTraits A) :
    CopyOf other (s.duplicated traits other) where
  here := ⟨rfl, ((⟨rfl, inRange⟩ : At s.this s).allocated _ _).inRange⟩
  capacity := rfl
  head := rfl
  tail := rfl
  count := rfl
  full := rfl
  block := rfl

theorem retargeted {rb : RingBuffer A} (h : At rb s) (indexed : rb.Indexed)
    (traits : AllocatorTraits A) : CopyOf other (s.retargeted traits other) where
  here := ⟨rfl, ((h.stranded indexed traits other).allocated _ _).inRange⟩
  capacity := rfl
  head := rfl
  tail := rfl
  count := rfl
  full := rfl
  block := rfl

theorem of_this (h : CopyOf other s) {s' : State T A} (this : s'.this = s.this)
    (here : At s.this s') : CopyOf other s' := by
  rw [← this] at here
  exact {
    here := here
    capacity := by rw [this, h.capacity]
    head := by rw [this, h.head]
    tail := by rw [this, h.tail]
    count := by rw [this, h.count]
    full := by rw [this, h.full]
    block := by rw [this, h.block] }

/-- Both objects have the slots of every round. -/
theorem reach (h : CopyOf other s) (source : other.Indexed) {i : Nat} (below : i < other.count_) :
    (s.this.buffer_.isSome = true ∧ i < s.this.capacity_) ∧
      other.buffer_.isSome = true ∧ i < other.capacity_ := by
  have nonempty : other.count_ ≠ 0 := Nat.ne_zero_of_lt below
  have inside : i < other.capacity_ := Nat.lt_of_lt_of_le below (source.counted nonempty).count
  exact ⟨⟨h.block, by rwa [h.capacity]⟩, source.block nonempty, inside⟩

theorem copied (h : CopyOf other s) (source : other.Indexed) :
    CopyOf other (s.copied other other.count_) :=
  h.of_this (s.copied_this other _) (h.here.copied (fun _ below => (h.reach source below).1)
    fun _ below => (h.reach source below).2)

theorem interrupted (h : CopyOf other s) (source : other.Indexed) {j : Nat}
    (inside : j < other.count_) : CopyOf other (s.interrupted other j) :=
  h.of_this (s.interrupted_this other j)
    (h.here.interrupted (fun _ below => (h.reach source (by omega)).1)
      fun _ below => (h.reach source (by omega)).2)

theorem armed (h : CopyOf other s) (fuse : Option Nat) : CopyOf other (s.armed fuse) :=
  h.of_this rfl (h.here.armed fuse)

end CopyOf

section Copies

variable {s : State T A} {rb other : RingBuffer A} (traits : AllocatorTraits A)

/-- However the constructor ends, and what it leaves when it returns. -/
theorem copyConstruct_ends (inRange : s.mem.InRange) (source : other.Indexed) :
    (final (RingBuffer.copyConstruct traits other) s).mem.InRange ∧
      (threw (RingBuffer.copyConstruct traits other) s = false →
        CopyOf other (final (RingBuffer.copyConstruct traits other) s) ∧
        (final (RingBuffer.copyConstruct traits other) s).this.justOverwrote_ = false) := by
  have duplicated : CopyOf other (s.duplicated traits other) := .duplicated inRange traits
  have all := duplicated.copied source
  have off : (s.copyConstructed traits other).this.justOverwrote_ = false := by
    rw [State.copyConstructed, State.copied_this]
    rfl
  unfold final threw
  rcases copyConstruct_cases s traits other with
    ⟨-, run⟩ | ⟨j, missing, -, run⟩ | ⟨-, fuse, run⟩
  · rw [run]
    exact ⟨inRange, nofun⟩
  · rw [run]
    exact ⟨(duplicated.interrupted source missing).here.inRange, nofun⟩
  · rw [run]
    exact ⟨all.here.inRange, fun _ => ⟨all.armed fuse, off⟩⟩

/-- The target fits its cursors, with the flag off or its own. -/
theorem copyAssign_ends (here : At rb s) (target : rb.Indexed) (source : other.Indexed) :
    ∃ rb', At rb' (final (RingBuffer.copyAssign traits false other) s) ∧
      rb'.Addressable (threw (RingBuffer.copyAssign traits false other) s && rb.justOverwrote_) := by
  have retargeted : CopyOf other (s.retargeted traits other) := .retargeted here target traits
  unfold final threw
  rcases copyAssign_cases s traits other with
    ⟨-, run⟩ | ⟨j, missing, -, run⟩ | ⟨-, fuse, run⟩
  · rw [run]
    exact ⟨_, (here.stranded target traits other).armed none,
      .of_kept (.of_reset rfl rfl rfl rfl) (by simp [RingBuffer.reset])⟩
  · have partly := retargeted.interrupted source missing
    rw [run]
    refine ⟨_, partly.here, .of_kept (partly.indexed source) ?_⟩
    rw [State.interrupted_this, Bool.true_and, ← here.this]
    simp only [State.retargeted, State.mapThis_this, State.allocated, State.mapMem_this,
      State.deallocated_this, State.cleared, State.vacated_this, RingBuffer.reset]
  · have all := (retargeted.copied source).armed fuse
    have indexed := all.indexed source
    rw [run]
    exact ⟨_, all.here.become fun rb => { rb with justOverwrote_ := false },
      .of_off ⟨indexed.cursors.imp id fun counted => { counted with }, indexed.block⟩ rfl⟩

end Copies

/-! ## Whole programs -/

namespace World

structure Safe (h : Heap T A) (leftover : Leftover) : Prop where
  inRange : h.mem.InRange
  objects : ∀ i rb, h.objects i = some rb → rb.Addressable (leftover i)

namespace Safe

variable {h : Heap T A} {leftover : Leftover} {traits : AllocatorTraits A}

theorem start : Safe (Heap.empty : Heap T A) (fun _ => false) where
  inRange := fun _ member => absurd member List.not_mem_nil
  objects := nofun

theorem armed (safe : Safe h leftover) (fuse : Option Nat) : Safe (h.armed fuse) leftover :=
  ⟨safe.inRange, safe.objects⟩

/-- One object becomes another. -/
theorem put (safe : Safe h leftover) (i : Nat) {s : State T A} {rb : RingBuffer A} {flag : Bool}
    (left : At rb s) (addressable : rb.Addressable flag) :
    Safe (h.put i s) (Function.update leftover i flag) where
  inRange := left.inRange
  objects k rb' found := by
    by_cases here : k = i
    · subst here
      simp only [Heap.put, Function.update_self, Option.some.injEq] at found
      rw [Function.update_self, ← found, left.this]
      exact addressable
    · simp only [Heap.put, Function.update_of_ne here] at found
      rw [Function.update_of_ne here]
      exact safe.objects k rb' found

/-- One object is written back. -/
theorem idle (safe : Safe h leftover) {i : Nat} {rb : RingBuffer A} (found : h.objects i = some rb) :
    Safe (h.put i ⟨rb, h.mem⟩) leftover := by
  have same := safe.put i (s := ⟨rb, h.mem⟩) ⟨rfl, safe.inRange⟩ (safe.objects i rb found)
  rwa [Function.update_eq_self] at same

/-- No object becomes another, and one name loses its history. -/
theorem forget (safe : Safe h leftover) (i : Nat) {m : Memory T A} (inRange : m.InRange)
    (absent : h.objects i = none) :
    Safe { h with mem := m } (Function.update leftover i false) where
  inRange := inRange
  objects k rb found := by
    have apart : k ≠ i := by
      rintro rfl
      rw [absent] at found
      cases found
    rw [Function.update_of_ne apart]
    exact safe.objects k rb found

theorem use (safe : Safe h leftover) {i : Nat} {rb : RingBuffer A} (found : h.objects i = some rb)
    {use : Use T} (allowed : use.Allowed (leftover i) rb) :
    Safe (h.put i (final use.perform ⟨rb, h.mem⟩))
      (leftover.used i use (threw use.perform (⟨rb, h.mem⟩ : State T A))) := by
  obtain ⟨rb', left, addressable⟩ := Use.ends (s := ⟨rb, h.mem⟩) (safe.objects i rb found) allowed
    ⟨rfl, safe.inRange⟩
  exact safe.put i left addressable

theorem create (safe : Safe h leftover) {i capacity : Nat} (absent : h.objects i = none)
    (pos : 0 < capacity) (allocator : A) :
    Safe (h.construct i allocator (RingBuffer.create capacity allocator))
      (Function.update leftover i false) := by
  have contract := RingBuffer.create_spec (T := T) (RingBuffer.blank allocator)
    (Nat.ne_of_gt pos) allocator
  have begun : At (RingBuffer.blank allocator) (⟨RingBuffer.blank allocator, h.mem⟩ : State T A) :=
    ⟨rfl, safe.inRange⟩
  unfold Heap.construct
  cases run : (RingBuffer.create capacity allocator).run
      (⟨RingBuffer.blank allocator, h.mem⟩ : State T A) with
  | ok _ s =>
      obtain ⟨block, left⟩ := post_of_run contract begun run
      exact safe.put i left (.created capacity block allocator)
  | error _ s => exact safe.forget i (failed_of_run contract begun run).inRange absent

theorem copyConstruct (safe : Safe h leftover) {i j : Nat} {other : RingBuffer A}
    (absent : h.objects i = none) (found : h.objects j = some other) :
    Safe (h.construct i other.allocator_ (RingBuffer.copyConstruct traits other))
      (Function.update leftover i false) := by
  have source := (safe.objects j other found).indexed
  have ends := copyConstruct_ends (s := ⟨RingBuffer.blank other.allocator_, h.mem⟩) traits
    safe.inRange source
  unfold final threw at ends
  unfold Heap.construct
  cases run : (RingBuffer.copyConstruct traits other).run
      (⟨RingBuffer.blank other.allocator_, h.mem⟩ : State T A) with
  | ok _ s =>
      rw [run] at ends
      obtain ⟨copy, off⟩ := ends.2 rfl
      exact safe.put i copy.here (.of_off (copy.indexed source) off)
  | error _ s =>
      rw [run] at ends
      exact safe.forget i ends.1 absent

/-- The block goes from `j` to `i`. -/
theorem hand_over (safe : Safe h leftover) (i j : Nat) {s : State T A} {rb : RingBuffer A}
    {flag : Bool} (left : At rb s) (addressable : rb.Addressable flag) (other : RingBuffer A) :
    Safe ((h.put i s).put j ⟨other.movedFrom traits, s.mem⟩) (Function.update leftover i flag) := by
  have taken := safe.put i left addressable
  have begun : At (other.movedFrom traits) (⟨other.movedFrom traits, s.mem⟩ : State T A) :=
    ⟨rfl, left.inRange⟩
  have nothing : (other.movedFrom traits).Addressable (Function.update leftover i flag j) :=
    .movedFrom traits
  have given := taken.put j begun nothing
  rwa [Function.update_eq_self] at given

theorem moveConstruct (safe : Safe h leftover) {i j : Nat} {other : RingBuffer A}
    (found : h.objects j = some other) :
    Safe ((h.put i ((⟨RingBuffer.blank other.allocator_, h.mem⟩ : State T A).moveConstructed other)).put j
      ⟨other.movedFrom traits, h.mem⟩) (Function.update leftover i false) := by
  have source := (safe.objects j other found).indexed
  have begun : At (RingBuffer.blank other.allocator_)
    (⟨RingBuffer.blank other.allocator_, h.mem⟩ : State T A) := ⟨rfl, safe.inRange⟩
  have left := begun.become fun _ => { other with justOverwrote_ := false, overwritePosition_ := 0 }
  exact safe.hand_over i j left
    (.of_off (source.of_copy rfl rfl rfl rfl rfl source.block) rfl) other

theorem moveAssign (safe : Safe h leftover) {i j : Nat} {rb other : RingBuffer A}
    (target : h.objects i = some rb) (found : h.objects j = some other) :
    Safe ((h.put i ((⟨rb, h.mem⟩ : State T A).moveAssigned other)).put j
      ⟨other.movedFrom traits, ((⟨rb, h.mem⟩ : State T A).moveAssigned other).mem⟩)
      (Function.update leftover i (Leftover.kept h i)) := by
  have source := (safe.objects j other found).indexed
  have begun : At rb (⟨rb, h.mem⟩ : State T A) := ⟨rfl, safe.inRange⟩
  have left := (begun.emptied (safe.objects i rb target).indexed).become fun rb =>
    { rb with
      capacity_ := other.capacity_
      buffer_ := other.buffer_
      head_ := other.head_
      tail_ := other.tail_
      count_ := other.count_
      full_ := other.full_
      allocator_ := other.allocator_ }
  have kept : Leftover.kept h i = rb.justOverwrote_ := by rw [Leftover.kept, target]; rfl
  rw [kept]
  refine safe.hand_over i j left (.of_kept ?_ rfl) other
  exact source.of_copy rfl rfl rfl rfl rfl source.block

theorem copyAssign (safe : Safe h leftover) {i j : Nat} {rb other : RingBuffer A}
    (target : h.objects i = some rb) (found : h.objects j = some other) :
    Safe (h.put i (final (RingBuffer.copyAssign traits false other) ⟨rb, h.mem⟩))
      (Function.update leftover i
        (threw (RingBuffer.copyAssign traits false other) (⟨rb, h.mem⟩ : State T A) &&
          Leftover.kept h i)) := by
  have kept : Leftover.kept h i = rb.justOverwrote_ := by rw [Leftover.kept, target]; rfl
  obtain ⟨rb', left, addressable⟩ := copyAssign_ends (s := ⟨rb, h.mem⟩) traits ⟨rfl, safe.inRange⟩
    (safe.objects i rb target).indexed (safe.objects j other found).indexed
  rw [kept]
  exact safe.put i left addressable

theorem destroy (safe : Safe h leftover) {i : Nat} {rb : RingBuffer A}
    (found : h.objects i = some rb) :
    Safe ⟨Function.update h.objects i none,
      (⟨rb, h.mem⟩ : State T A).cleared.deallocated.mem⟩ leftover where
  inRange := by
    have begun : At rb (⟨rb, h.mem⟩ : State T A) := ⟨rfl, safe.inRange⟩
    exact (begun.emptied (safe.objects i rb found).indexed).inRange
  objects k rb' present := by
    by_cases here : k = i
    · subst here
      simp only [Function.update_self] at present
      cases present
    · simp only [Function.update_of_ne here] at present
      exact safe.objects k rb' present

theorem statement (safe : Safe h leftover) {statement : Statement T A} {h' : Heap T A}
    (allowed : (Act.statement statement).Allowed h leftover)
    (ran : h.exec traits statement = some h') (fuse : Option Nat) :
    Safe h' (leftover.record h ⟨fuse, .statement statement⟩ (h.throws traits statement)) := by
  cases statement with
  | create i capacity allocator =>
      obtain ⟨absent, rfl⟩ := Heap.exec_create.mp ran
      exact safe.create absent allowed allocator
  | copyConstruct i j =>
      obtain ⟨other, absent, found, rfl⟩ := Heap.exec_copyConstruct.mp ran
      exact safe.copyConstruct absent found
  | moveConstruct i j =>
      obtain ⟨other, absent, found, rfl⟩ := Heap.exec_moveConstruct.mp ran
      exact safe.moveConstruct found
  | copyAssign i j =>
      obtain ⟨rb, other, target, found, rfl⟩ := Heap.exec_copyAssign.mp ran
      simp only [Leftover.record, Heap.throws, target, found]
      by_cases same : i = j
      · subst same
        rw [if_pos rfl, Heap.copyAssign_self]
        exact safe.idle target
      · rw [if_neg same, beq_eq_false_iff_ne.mpr same]
        exact safe.copyAssign target found
  | moveAssign i j =>
      simp only [Leftover.record]
      by_cases same : i = j
      · subst same
        obtain ⟨rb, target, rfl⟩ := Heap.exec_moveAssign_self.mp ran
        rw [if_pos rfl]
        exact (safe.idle target).idle (Function.update_self ..)
      · obtain ⟨rb, other, target, found, rfl⟩ := (Heap.exec_moveAssign same).mp ran
        rw [if_neg same]
        exact safe.moveAssign target found
  | call i call =>
      obtain ⟨rb, found, rfl⟩ := Heap.exec_call.mp ran
      have same := call.run_use (⟨rb, h.mem⟩ : State T A)
      simp only [Leftover.record, Heap.throws, found, same.1, same.2]
      exact safe.use found (allowed rb found)
  | destroy i =>
      obtain ⟨rb, found, rfl⟩ := Heap.exec_destroy.mp ran
      exact safe.destroy found

/-- Step lemma. -/
theorem step {w w' : World T A} (safe : Safe w.1 w.2) {l : Attempt T A} {threw : Bool}
    (allowed : w.Allowed l) (stepped : World.step traits w l = some (w', threw)) :
    Safe w'.1 w'.2 := by
  obtain ⟨fuse, act⟩ := l
  obtain ⟨h', leftover⟩ := w'
  obtain ⟨ran, recorded⟩ := observed_some.mp stepped
  have safe := safe.armed fuse
  rw [recorded]
  cases act with
  | statement statement =>
      obtain ⟨_, executed, same⟩ := Option.map_eq_some_iff.mp ran
      cases same
      exact safe.statement allowed executed fuse
  | use i use =>
      obtain ⟨rb, found, same⟩ := Option.map_eq_some_iff.mp ran
      cases same
      exact safe.use found (allowed rb found)

/-- Run lemma. -/
theorem reached {w : World T A} (run : Reaches (World.step traits) Allowed World.start w) :
    Safe w.1 w.2 :=
  run.invariant (I := fun w => Safe w.1 w.2) .start
    fun _ _ _ _ safe allowed stepped => safe.step allowed stepped

end Safe

end World

/-- In any program over any number of objects, moved-from ones included: every
    remainder is by a capacity that is not zero, every subscript goes to a slot of
    a block below the capacity, and an object is full when its size is its
    capacity, if it has any. -/
theorem index_safety (traits : AllocatorTraits A) {w : World T A}
    (run : Reaches (World.step traits) World.Allowed World.start w) :
    (∀ e ∈ w.1.mem.trace, e.InRange) ∧ ∀ i rb, w.1.objects i = some rb →
      (rb.full = true ↔ rb.capacity ≠ 0 ∧ rb.size = rb.capacity) := by
  have safe := World.Safe.reached run
  exact ⟨safe.inRange, fun i rb found => (safe.objects i rb found).indexed.full_iff⟩

/-- A full buffer that overwrote is moved to a smaller one, which is used on; the
    moved-from object is asked, cleared and assigned a copy, at first in vain. -/
theorem index_safety_two : ∃ (w : World Nat Unit) (rb : RingBuffer Unit),
    w.1.objects 1 = some rb ∧ (∀ e ∈ w.1.mem.trace, e.InRange) ∧ rb.full = true := by
  let program : List (Attempt Nat Unit) :=
    [⟨none, .statement (.create 0 2 ())⟩, ⟨none, .use 0 (.modify (.insert (.pushBack (.value 5))))⟩,
      ⟨none, .use 0 (.modify (.insert (.pushBackMove (.value 6))))⟩,
      ⟨none, .use 0 (.modify (.insert (.emplaceBack (.lvalue (.value 7)))))⟩,
      ⟨none, .statement (.create 1 1 ())⟩, ⟨none, .statement (.moveAssign 1 0)⟩,
      ⟨none, .use 0 (.ask .back)⟩, ⟨none, .use 0 (.modify .clear)⟩,
      ⟨none, .use 1 (.modify (.insert (.pushBack (.element ⟨some 0, 1⟩))))⟩,
      ⟨none, .statement (.call 1 (.query .back))⟩, ⟨some 0, .statement (.copyAssign 0 1)⟩,
      ⟨none, .statement (.copyAssign 0 1)⟩, ⟨none, .use 0 (.traverse 5)⟩,
      ⟨none, .statement (.moveConstruct 2 0)⟩, ⟨none, .use 2 (.modify .popFront)⟩,
      ⟨none, .statement (.destroy 2)⟩]
  have ran : (exec (World.step ⟨false, id, id⟩) World.Allowed World.start program).map
      (fun w => (w.1.objects 1).map fun rb => (rb.capacity, rb.size)) = some (some (2, 2)) := by
    decide +kernel
  obtain ⟨w, ran, found⟩ := Option.map_eq_some_iff.mp ran
  obtain ⟨rb, found, sizes⟩ := Option.map_eq_some_iff.mp found
  obtain ⟨capacity, size⟩ := Prod.mk.inj sizes
  have safe := index_safety _ (Reaches.of_exec ran)
  refine ⟨w, rb, found, safe.1, (safe.2 1 rb found).mpr ⟨?_, size.trans capacity.symm⟩⟩
  rw [capacity]
  decide

/-- A push onto an object that was moved from subscripts a null pointer and takes
    a remainder by 0, and another object that was moved from is not full, though
    its size is its capacity. A buffer of capacity 3 that overwrote its last slot
    and takes over one of capacity 1 goes to slot 2 in `back()`. -/
theorem index_safety_fails :
    (∃ w : World Nat Unit,
      Reaches (World.step ⟨false, id, id⟩) (fun _ l => l.act.Positive) World.start w ∧
        (.subscript none 0 0 ∈ w.1.mem.trace ∧ .modulo 0 ∈ w.1.mem.trace) ∧
        (¬ ∀ e ∈ w.1.mem.trace, e.InRange) ∧
        ¬ ∀ i rb, w.1.objects i = some rb → (rb.full = true ↔ rb.size = rb.capacity)) ∧
    ∃ w : World Nat Unit,
      Reaches (World.step ⟨false, id, id⟩) (fun _ l => l.act.Positive) World.start w ∧
        .subscript (some 0) 2 1 ∈ w.1.mem.trace ∧ ¬ ∀ e ∈ w.1.mem.trace, e.InRange := by
  constructor
  · let program : List (Attempt Nat Unit) :=
      [⟨none, .statement (.create 0 2 ())⟩, ⟨none, .statement (.moveConstruct 1 0)⟩,
        ⟨none, .statement (.moveConstruct 2 1)⟩,
        ⟨none, .use 0 (.modify (.insert (.pushBack (.value 5))))⟩]
    have ran : (exec (World.step ⟨false, id, id⟩) (fun _ l => l.act.Positive) World.start program).map
        (fun w => (w.1.mem.trace.take 3,
          (w.1.objects 1).map fun rb => (rb.full, rb.size, rb.capacity))) =
        some ([.modulo 0, .construct ⟨none, 0⟩ false, .subscript none 0 0], some (false, 0, 0)) := by
      decide +kernel
    obtain ⟨w, ran, facts⟩ := Option.map_eq_some_iff.mp ran
    obtain ⟨events, moved⟩ := Prod.mk.inj facts
    obtain ⟨rb, found, fields⟩ := Option.map_eq_some_iff.mp moved
    have recent : ∀ e ∈ w.1.mem.trace.take 3, e ∈ w.1.mem.trace := fun _ => List.mem_of_mem_take
    rw [events] at recent
    have remainder := recent (.modulo 0) (by simp)
    have subscript := recent (.subscript none 0 0) (by simp)
    refine ⟨w, Reaches.of_exec ran, ⟨subscript, remainder⟩, fun inRange => ?_, fun fulls => ?_⟩
    · exact inRange _ remainder rfl
    · simp only [Prod.mk.injEq] at fields
      obtain ⟨notFull, size, capacity⟩ := fields
      have full := (fulls 1 rb found).mpr (size.trans capacity.symm)
      rw [notFull] at full
      cases full
  · let push (i item : Nat) : Attempt Nat Unit :=
      ⟨none, .use i (.modify (.insert (.pushBack (.value item))))⟩
    let program : List (Attempt Nat Unit) :=
      [⟨none, .statement (.create 0 1 ())⟩, push 0 4, ⟨none, .statement (.create 1 3 ())⟩,
        push 1 5, push 1 6, push 1 7, push 1 8, push 1 9, push 1 10,
        ⟨none, .statement (.moveAssign 1 0)⟩, ⟨none, .use 1 (.ask .back)⟩]
    have ran : (exec (World.step ⟨false, id, id⟩) (fun _ l => l.act.Positive) World.start program).map
        (fun w => (w.1.mem.trace.drop 1).head?) = some (some (.subscript (some 0) 2 1)) := by
      decide +kernel
    obtain ⟨w, ran, event⟩ := Option.map_eq_some_iff.mp ran
    have recent := List.mem_of_mem_drop (List.mem_of_head? event)
    refine ⟨w, Reaches.of_exec ran, recent, fun inRange => ?_⟩
    have outside := (inRange _ recent).2
    omega

end Dkyb
