import RingBuffer.Guarantees
import RingBuffer.Representation

/-! # Insertions that throw

An insertion throws at its one element operation or not at all. By then
`emplace_back` onto a full buffer has already destroyed the oldest element, which
the cursors still count, and an argument that is moved from may have lost its
value, unless it is the very element that the assignment would have changed.
-/

namespace Dkyb

open Stateful

variable {T A : Type}

/-- What a client and the destructor rely on is as it was. -/
structure Untouched (s s' : State T A) : Prop where
  head : s'.this.head_ = s.this.head_
  tail : s'.this.tail_ = s.this.tail_
  count : s'.this.count_ = s.this.count_
  full : s'.this.full_ = s.this.full_
  live : ∀ p, (s'.mem.slots p).live = (s.mem.slots p).live
  index : ∀ i < s.this.count_, reply (Query.index i).ask s' = reply (Query.index i).ask s

namespace Arg

/-- Moving from the argument takes no known value out of the buffer. -/
def Spare (s : State T A) : Arg T → Prop
  | .value _ => True
  | .element p => ∀ i < s.this.count_, p = s.occupiedPtr i → (s.mem.slots p).content = none

/-- The argument is the element that an insertion onto a full buffer replaces. -/
def Recycled (s : State T A) (arg : Arg T) : Prop :=
  s.this.full_ = true ∧ arg = .element (s.occupiedPtr 0)

/-- The slots once the argument is moved from. -/
def spoil (slots : Ptr → Slot T) : Arg T → Ptr → Slot T
  | .value _ => slots
  | .element p => Function.update slots p ⟨none, (slots p).live⟩

end Arg

namespace Forwarded

def Spare (s : State T A) : Forwarded T → Prop
  | .lvalue _ => True
  | .rvalue arg => arg.Spare s

def spoil (slots : Ptr → Slot T) : Forwarded T → Ptr → Slot T
  | .lvalue _ => slots
  | .rvalue arg => arg.spoil slots

end Forwarded

/-- What the insertion has done to the slots when its element operation throws. -/
def Insertion.spoil (s : State T A) : Insertion T → Ptr → Slot T
  | .pushBack _ => s.mem.slots
  | .pushBackMove item =>
      if s.this.full_ then
        Function.update (item.spoil s.mem.slots) s.headPtr (s.mem.slots s.headPtr)
      else
        item.spoil s.mem.slots
  | .emplaceBack args =>
      args.spoil (if s.this.full_ then Function.update s.mem.slots s.headPtr .raw else s.mem.slots)

/-- The insertion spoils nothing: it is not `emplace_back` onto a full buffer with
    something left in the head's slot, and it does not move from an element of the
    buffer itself, unless to assign that element to itself. -/
def Insertion.Harmless (s : State T A) : Insertion T → Prop
  | .pushBack _ => True
  | .pushBackMove item => item.Spare s ∨ item.Recycled s
  | .emplaceBack args => (s.this.full_ = true → s.mem.slots s.headPtr = .raw) ∧ args.Spare s

section Decidable

variable [DecidableEq T] (s : State T A)

instance : ∀ arg : Arg T, Decidable (arg.Spare s)
  | .value _ => .isTrue trivial
  | .element _ => inferInstanceAs (Decidable (∀ i < _, _ → _))

instance (arg : Arg T) : Decidable (arg.Recycled s) := inferInstanceAs (Decidable (_ ∧ _))

instance : ∀ args : Forwarded T, Decidable (args.Spare s)
  | .lvalue _ => .isTrue trivial
  | .rvalue arg => inferInstanceAs (Decidable (arg.Spare s))

instance : ∀ insertion : Insertion T, Decidable (insertion.Harmless s)
  | .pushBack _ => .isTrue trivial
  | .pushBackMove _ => inferInstanceAs (Decidable (_ ∨ _))
  | .emplaceBack _ => inferInstanceAs (Decidable (_ ∧ _))

end Decidable

/-! ## What is left -/

@[simp] theorem Arg.spoil_live (slots : Ptr → Slot T) (item : Arg T) (p : Ptr) :
    (item.spoil slots p).live = (slots p).live := by
  cases item with
  | value v => rfl
  | element source =>
      by_cases here : p = source
      · simp only [spoil, here, Function.update_self]
      · simp only [spoil, Function.update_of_ne here]

theorem run_copied (item : Arg T) (s : State T A) : ∃ content s₁,
    item.copied.run s = .ok content s₁ ∧ s₁.this = s.this ∧ s₁.mem.slots = s.mem.slots := by
  cases item with
  | value v => exact ⟨some v, s, rfl, rfl, rfl⟩
  | element p => exact ⟨_, _, rfl, rfl, rfl⟩

/-- A moving argument leaves its element without a value. -/
theorem run_moved (item : Arg T) (s : State T A) : ∃ content s₁,
    item.moved.run s = .ok content s₁ ∧ s₁.this = s.this ∧
      s₁.mem.slots = item.spoil s.mem.slots := by
  cases item with
  | value v => exact ⟨some v, s, rfl, rfl, rfl⟩
  | element p => exact ⟨_, _, rfl, rfl, rfl⟩

theorem run_forward (args : Forwarded T) (s : State T A) : ∃ content s₁,
    args.forward.run s = .ok content s₁ ∧ s₁.this = s.this ∧
      s₁.mem.slots = args.spoil s.mem.slots := by
  cases args with
  | lvalue arg => exact run_copied arg s
  | rvalue arg => exact run_moved arg s

/-- The last two steps of every element operation. -/
theorem run_mayThrow_error {f : Memory T A → Memory T A} {s s' : State T A} {e : Exn}
    (run : (mayThrow .element >>= fun _ => modify (State.mapMem f)).run s = .error e s') :
    s' = s.armed none := by
  rw [EStateM.run_bind] at run
  match fuse : s.mem.fuse with
  | none =>
      rw [run_mayThrow fuse] at run
      cases run
  | some 0 =>
      rw [run_mayThrow_zero fuse] at run
      cases run
      rfl
  | some (n + 1) =>
      rw [run_mayThrow_succ fuse] at run
      cases run

section Operations

variable {p : Ptr} {argument : Op T A (Option T)} {s s' : State T A} {slots : Ptr → Slot T}
  {e : Exn}
  (argued : ∃ content s₁, argument.run s = .ok content s₁ ∧ s₁.this = s.this ∧
    s₁.mem.slots = slots)

include argued

/-- Nothing is constructed when the operation throws. -/
theorem run_construct_error (run : (construct p argument).run s = .error e s') :
    s'.this = s.this ∧ s'.mem.slots = slots := by
  obtain ⟨content, s₁, argued, this, slots⟩ := argued
  rw [construct, EStateM.run_bind, argued] at run
  rw [run_mayThrow_error (s := s₁.mapMem (Memory.emit (.construct p (s₁.mem.slots p).live))) run]
  exact ⟨this, slots⟩

/-- The target is as it was when the operation throws. -/
theorem run_assign_error (lives : (slots p).live = (s.mem.slots p).live)
    (run : (assign p argument).run s = .error e s') :
    s'.this = s.this ∧ s'.mem.slots = Function.update slots p (s.mem.slots p) := by
  obtain ⟨content, s₁, argued, this, rfl⟩ := argued
  have body := error_of_bind (EStateM.run_get s) run
  have emitted := error_of_bind argued body
  have restored := error_of_bind (run_emit _ _) emitted
  have thrown := error_of_bind (EStateM.run_modify _ _) restored
  rw [run_mayThrow_error thrown]
  refine ⟨this, ?_⟩
  simp [lives]

end Operations

/-- The cursor functions come last and do not throw. -/
theorem run_advance_error {x : Op T A Unit} {cursor : RingBuffer A → RingBuffer A} {s s' : State T A}
    {e : Exn} (run : (x >>= fun _ => RingBuffer.advance cursor).run s = .error e s') :
    x.run s = .error e s' := by
  rw [EStateM.run_bind] at run
  cases first : x.run s with
  | ok a s₁ =>
      rw [first] at run
      cases run
  | error e₁ s₁ =>
      rw [first] at run
      exact run

theorem run_insert_error {insertion : Insertion T} {s s' : State T A} {e : Exn}
    (run : insertion.perform.run s = .error e s') :
    s'.this = s.this ∧ s'.mem.slots = insertion.spoil s := by
  cases insertion with
  | pushBack item =>
      have body := error_of_bind (EStateM.run_get s) run
      dsimp only at body
      split at body
      · have assigned := error_of_bind (RingBuffer.run_subscript _ s) body
        have ended := run_assign_error (run_copied item _) rfl (run_advance_error assigned)
        rwa [Function.update_eq_self] at ended
      · have constructed := error_of_bind (RingBuffer.run_subscript _ s) body
        have ended := run_construct_error (run_copied item _) (run_advance_error constructed)
        exact ended
  | pushBackMove item =>
      have body := error_of_bind (EStateM.run_get s) run
      simp only [Insertion.spoil]
      dsimp only at body
      split at body
      · rw [if_pos ‹_›]
        have assigned := error_of_bind (RingBuffer.run_subscript _ s) body
        have ended := run_assign_error (run_moved item _) (item.spoil_live _ _)
          (run_advance_error assigned)
        exact ended
      · rw [if_neg ‹_›]
        have constructed := error_of_bind (RingBuffer.run_subscript _ s) body
        have ended := run_construct_error (run_moved item _) (run_advance_error constructed)
        exact ended
  | emplaceBack args =>
      have body := error_of_bind (EStateM.run_get s) run
      simp only [Insertion.spoil]
      dsimp only at body
      split at body
      · rw [if_pos ‹_›]
        have destroyed := error_of_bind (RingBuffer.run_subscript _ s) body
        have rest := error_of_bind (run_destroy _ _) destroyed
        have constructed := error_of_bind (RingBuffer.run_subscript _ _) rest
        have ended := run_construct_error (run_forward args _) (run_advance_error constructed)
        exact ended
      · rw [if_neg ‹_›]
        have constructed := error_of_bind (RingBuffer.run_subscript _ s) body
        have ended := run_construct_error (run_forward args _) (run_advance_error constructed)
        exact ended

/-! ## When it is what there was -/

namespace Arg

variable {s : State T A} {arg : Arg T}

/-- Another slot than that of the argument is not changed. -/
theorem spoil_of_ne {slots : Ptr → Slot T} {p : Ptr} (apart : arg ≠ .element p) :
    arg.spoil slots p = slots p := by
  cases arg with
  | value v => rfl
  | element source =>
      have elsewhere : p ≠ source := fun same => apart (congrArg Arg.element same.symm)
      simp only [spoil, Function.update_of_ne elsewhere]

theorem spoil_content (p : Ptr) (slots : Ptr → Slot T) :
    ((Arg.element p).spoil slots p).content = none := by
  simp only [spoil, Function.update_self]

theorem content_of_spare (spare : arg.Spare s) {i : Nat} (inside : i < s.this.count_) :
    (arg.spoil s.mem.slots (s.occupiedPtr i)).content =
      (s.mem.slots (s.occupiedPtr i)).content := by
  by_cases here : arg = .element (s.occupiedPtr i)
  · subst here
    rw [spoil_content, spare i inside rfl]
  · rw [spoil_of_ne here]

theorem spare_of_content (blank : ∀ i < s.this.count_, arg = .element (s.occupiedPtr i) →
    (s.mem.slots (s.occupiedPtr i)).content = none) : arg.Spare s := by
  cases arg with
  | value v => trivial
  | element source =>
      rintro i inside rfl
      exact blank i inside rfl

end Arg

namespace Forwarded

variable {s : State T A} {args : Forwarded T}

@[simp] theorem spoil_live (slots : Ptr → Slot T) (p : Ptr) :
    (args.spoil slots p).live = (slots p).live := by
  cases args with
  | lvalue arg => rfl
  | rvalue arg => exact arg.spoil_live slots p

/-- A slot without content has none to lose. -/
theorem spoil_content_none {slots : Ptr → Slot T} {p : Ptr} (blank : (slots p).content = none) :
    (args.spoil slots p).content = none := by
  cases args with
  | lvalue arg => exact blank
  | rvalue arg =>
      by_cases here : arg = .element p
      · rw [here]
        exact Arg.spoil_content p slots
      · rwa [spoil, Arg.spoil_of_ne here]

theorem content_of_spare (spare : args.Spare s) {i : Nat} (inside : i < s.this.count_) :
    (args.spoil s.mem.slots (s.occupiedPtr i)).content =
      (s.mem.slots (s.occupiedPtr i)).content := by
  cases args with
  | lvalue arg => rfl
  | rvalue arg => exact arg.content_of_spare spare inside

end Forwarded

section Reached

variable {c : Nat} {s : State T A} (counted : s.this.Counted c) {insertion : Insertion T}

include counted

theorem occupiedPtr_zero : s.occupiedPtr 0 = s.headPtr := by
  rw [State.occupiedPtr, counted.capacity, Cyclic.position_zero counted.head]
  rfl

theorem spoil_pushBackMove_of_harmless {item : Arg T}
    (harmless : (Insertion.pushBackMove item).Harmless s) {i : Nat} (inside : i < s.this.count_) :
    ((Insertion.pushBackMove item).spoil s (s.occupiedPtr i)).content =
      (s.mem.slots (s.occupiedPtr i)).content := by
  simp only [Insertion.spoil]
  split
  · by_cases first : s.occupiedPtr i = s.headPtr
    · rw [first, Function.update_self]
    · rw [Function.update_of_ne first]
      rcases harmless with spare | ⟨-, own⟩
      · exact Arg.content_of_spare spare inside
      · have apart : item ≠ .element (s.occupiedPtr i) := by
          rw [own, occupiedPtr_zero counted]
          exact fun same => first (Arg.element.inj same).symm
        rw [Arg.spoil_of_ne apart]
  · rcases harmless with spare | ⟨full, -⟩
    · exact Arg.content_of_spare spare inside
    · exact absurd full ‹_›

/-- Every slot stays as live as it was, and every position holds what it held. -/
theorem spoil_of_harmless (harmless : insertion.Harmless s) :
    (∀ p, (insertion.spoil s p).live = (s.mem.slots p).live) ∧ ∀ i < s.this.count_,
      (insertion.spoil s (s.occupiedPtr i)).content = (s.mem.slots (s.occupiedPtr i)).content := by
  cases insertion with
  | pushBack item => exact ⟨fun _ => rfl, fun _ _ => rfl⟩
  | pushBackMove item =>
      refine ⟨fun p => ?_, fun i inside => spoil_pushBackMove_of_harmless counted harmless inside⟩
      simp only [Insertion.spoil]
      split
      · by_cases here : p = s.headPtr
        · rw [here, Function.update_self]
        · rw [Function.update_of_ne here, Arg.spoil_live]
      · exact item.spoil_live _ p
  | emplaceBack args =>
      have same : (Insertion.emplaceBack args).spoil s = args.spoil s.mem.slots := by
        simp only [Insertion.spoil]
        split
        · rw [← harmless.1 ‹_›, Function.update_eq_self]
        · rfl
      rw [same]
      exact ⟨args.spoil_live _, fun i inside => args.content_of_spare harmless.2 inside⟩

theorem harmless_of_spoil (live : ∀ p, (insertion.spoil s p).live = (s.mem.slots p).live)
    (content : ∀ i < s.this.count_, (insertion.spoil s (s.occupiedPtr i)).content =
      (s.mem.slots (s.occupiedPtr i)).content) : insertion.Harmless s := by
  cases insertion with
  | pushBack item => trivial
  | pushBackMove item =>
      by_cases own : item.Recycled s
      · exact .inr own
      · refine .inl (Arg.spare_of_content fun i inside here => ?_)
        rw [← content i inside, here]
        simp only [Insertion.spoil]
        split
        · have first : s.occupiedPtr i ≠ s.headPtr := by
            rw [← occupiedPtr_zero counted]
            exact fun same => own ⟨‹_›, here.trans (congrArg Arg.element same)⟩
          rw [Function.update_of_ne first, Arg.spoil_content]
        · exact Arg.spoil_content _ _
  | emplaceBack args =>
      constructor
      · intro full
        have pos : 0 < s.this.count_ := by
          rw [counted.full_iff.mp full]
          exact counted.pos
        have dead := live s.headPtr
        have blank := content 0 pos
        rw [occupiedPtr_zero counted] at blank
        simp only [Insertion.spoil, full, if_true] at dead blank
        rw [args.spoil_live, Function.update_self] at dead
        rw [args.spoil_content_none (by rw [Function.update_self]; rfl)] at blank
        cases slot : s.mem.slots s.headPtr with
        | mk value live =>
            rw [slot] at dead blank
            exact congrArg₂ Slot.mk blank.symm dead.symm
      · cases args with
        | lvalue arg => trivial
        | rvalue arg =>
            refine Arg.spare_of_content fun i inside here => ?_
            rw [← content i inside, here]
            exact Arg.spoil_content _ _

end Reached

section Ended

variable {c : Nat} {s s' : State T A} {insertion : Insertion T}
  (this : s'.this = s.this) (slots : s'.mem.slots = insertion.spoil s)

include this slots

theorem reply_index_spoiled {i : Nat} (inside : i < s.this.count_) :
    reply (Query.index i).ask s' = .ok (insertion.spoil s (s.occupiedPtr i)).content := by
  rw [reply_ask, this, Query.place, if_pos inside, slots]
  rfl

theorem untouched_iff (counted : s.this.Counted c) : Untouched s s' ↔ insertion.Harmless s := by
  constructor
  · intro untouched
    apply harmless_of_spoil counted
    · intro p
      rw [← slots, untouched.live]
    · intro i inside
      have read := untouched.index i inside
      rw [reply_index_spoiled this slots inside, reply_ask_index inside] at read
      exact Except.ok.inj read
  · intro harmless
    obtain ⟨live, content⟩ := spoil_of_harmless counted harmless
    exact {
      head := by rw [this]
      tail := by rw [this]
      count := by rw [this]
      full := by rw [this]
      live := fun p => by rw [slots, live]
      index := fun i inside => by
        rw [reply_index_spoiled this slots inside, reply_ask_index inside, content i inside]
        rfl }

end Ended

/-- With room, `emplace_back(std::move(rb[0]))` fails and has taken the value. -/
example :
    let s := ((State.created 2 () : State Nat Unit).trials
      [(none, .insert (.pushBack (.value 1)))]).armed (some 0)
    let moved : Insertion Nat := .emplaceBack (.rvalue (.element (s.occupiedPtr 0)))
    ¬ moved.Harmless s ∧ reply (Query.index 0).ask (final moved.perform s) = .ok none :=
  ⟨by decide, rfl⟩

end Dkyb
