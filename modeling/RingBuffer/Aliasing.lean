import RingBuffer.FailedInserts

/-! # Inserting an element of the buffer itself

`push_back` reads its argument before it writes anything. `emplace_back` onto a
full buffer destroys the oldest element first, so an argument that is this
element is read too late.
-/

namespace Dkyb

open Stateful

variable {T A : Type}

namespace Arg

/-- The value of the argument before the call. -/
def content (s : State T A) : Arg T → Option T
  | .value v => some v
  | .element p => (s.mem.slots p).content

/-- The argument is a value outside the buffer, or its slot holds a live element. -/
def Alive (s : State T A) : Arg T → Prop
  | .value _ => True
  | .element p => (s.mem.slots p).live = true

/-- What reading the argument leaves in the trace. -/
def reads (s : State T A) : Arg T → List (Event A)
  | .value _ => []
  | .element p => [.read p (s.mem.slots p).live]

end Arg

/-- Between the two states no destroyed or raw slot was read. -/
def ReadsLive (s s' : State T A) : Prop :=
  ∃ events, s'.mem.trace = events ++ s.mem.trace ∧ ∀ p, .read p false ∉ events

/-- Both insertions return, a client cannot tell their results apart, the last
    element is what the argument was, and neither read a destroyed element. -/
structure Concur (s : State T A) (arg : Arg T) (pushed emplaced : State T A) : Prop where
  pushes : (RingBuffer.pushBack arg).run s = .ok () pushed
  emplaces : (RingBuffer.emplaceBack (.lvalue arg)).run s = .ok () emplaced
  size : emplaced.this.size = pushed.this.size
  full : emplaced.this.full = pushed.this.full
  answers : ∀ query : Query, reply query.ask emplaced = reply query.ask pushed
  back : reply Query.back.ask pushed = .ok (arg.content s)
  pushReads : ReadsLive s pushed
  emplaceReads : ReadsLive s emplaced

/-! ## The two runs -/

theorem run_copied_eq (arg : Arg T) (s : State T A) : arg.copied.run s = .ok (arg.content s)
    (s.mapMem fun m => { m with trace := arg.reads s ++ m.trace }) := by
  cases arg <;> rfl

namespace State

/-- An insertion where there is room. -/
def inserted (s : State T A) (arg : Arg T) : State T A where
  this := s.this.incrementTail
  mem := { s.mem with
    slots := Function.update s.mem.slots s.tailPtr ⟨arg.content s, true⟩
    trace := .modulo s.this.capacity_ :: .construct s.tailPtr (s.mem.slots s.tailPtr).live ::
      (arg.reads s ++ .subscript s.this.buffer_ s.this.tail_ s.this.capacity_ :: s.mem.trace) }

/-- `push_back` onto a full buffer. -/
def assigned (s : State T A) (arg : Arg T) : State T A where
  this := s.this.overwriteAdvanceHead
  mem := { s.mem with
    slots := Function.update s.mem.slots s.headPtr ⟨arg.content s, (s.mem.slots s.headPtr).live⟩
    trace := .modulo s.this.capacity_ :: .assign s.headPtr (s.mem.slots s.headPtr).live ::
      (arg.reads s ++ .subscript s.this.buffer_ s.this.head_ s.this.capacity_ :: s.mem.trace) }

/-- The oldest element is gone. -/
def vacatedHead (s : State T A) : State T A where
  this := s.this
  mem := { s.mem with
    slots := Function.update s.mem.slots s.headPtr .raw
    trace := .destroy s.headPtr (s.mem.slots s.headPtr).live ::
      .subscript s.this.buffer_ s.this.head_ s.this.capacity_ :: s.mem.trace }

/-- `emplace_back` onto a full buffer: the argument is read after the destruction. -/
def emplaced (s : State T A) (arg : Arg T) : State T A where
  this := s.this.overwriteAdvanceHead
  mem := { s.mem with
    slots := Function.update s.mem.slots s.headPtr ⟨arg.content s.vacatedHead, true⟩
    trace := .modulo s.this.capacity_ :: .construct s.headPtr false :: (arg.reads s.vacatedHead ++
      .subscript s.this.buffer_ s.this.head_ s.this.capacity_ :: s.vacatedHead.mem.trace) }

end State

section Quiet

variable {s : State T A} (quiet : s.mem.fuse = none) (arg : Arg T)

include quiet

theorem run_pushBack_inserted (room : s.this.full_ = false) :
    (RingBuffer.pushBack arg).run s = .ok () (s.inserted arg) := by
  simp only [RingBuffer.pushBack, EStateM.run_bind, EStateM.run_get, room, Bool.false_eq_true,
    if_false, RingBuffer.run_subscript, construct, run_copied_eq, run_emit, run_mayThrow,
    State.mapMem_mem, Memory.emit_fuse, quiet, EStateM.run_modify, RingBuffer.run_advance]
  cases arg <;> rfl

theorem run_emplaceBack_inserted (room : s.this.full_ = false) :
    (RingBuffer.emplaceBack (.lvalue arg)).run s = .ok () (s.inserted arg) := by
  simp only [RingBuffer.emplaceBack, EStateM.run_bind, EStateM.run_get, room, Bool.false_eq_true,
    if_false, RingBuffer.run_subscript, construct, Forwarded.forward, run_copied_eq,
    run_emit, run_mayThrow, State.mapMem_mem, Memory.emit_fuse, quiet, EStateM.run_modify,
    RingBuffer.run_advance]
  cases arg <;> rfl

theorem run_assign_copied (p : Ptr) : (assign p arg.copied).run s = .ok () (s.mapMem fun m =>
    { m with
      slots := Function.update m.slots p ⟨arg.content s, (m.slots p).live⟩
      trace := .assign p (m.slots p).live :: (arg.reads s ++ m.trace) }) := by
  simp [assign, run_copied_eq, run_mayThrow, quiet, State.mapMem, Memory.emit, Memory.overwrite]

theorem run_pushBack_assigned (full : s.this.full_ = true) :
    (RingBuffer.pushBack arg).run s = .ok () (s.assigned arg) := by
  simp only [RingBuffer.pushBack, EStateM.run_bind, EStateM.run_get, full, if_true,
    RingBuffer.run_subscript, run_assign_copied, State.mapMem_mem, Memory.emit_fuse, quiet,
    RingBuffer.run_advance]
  cases arg <;> rfl

theorem run_emplaceBack_emplaced (full : s.this.full_ = true) :
    (RingBuffer.emplaceBack (.lvalue arg)).run s = .ok () (s.emplaced arg) := by
  simp only [RingBuffer.emplaceBack, EStateM.run_bind, EStateM.run_get, full, if_true,
    RingBuffer.run_subscript, run_destroy, construct, Forwarded.forward, run_copied_eq,
    run_emit, run_mayThrow, State.mapMem_mem, Memory.emit_fuse, Memory.vacate_fuse, quiet,
    EStateM.run_modify, RingBuffer.run_advance]
  cases arg <;>
    simp only [State.emplaced, State.vacatedHead, Arg.content, Arg.reads, State.mapMem,
      State.mapThis, Memory.emit, Memory.vacate, Memory.fill, State.headPtr, Function.update_idem,
      Function.update_self, Slot.raw_live, List.nil_append, List.cons_append]

end Quiet

/-! ## What they show -/

namespace RingBuffer.Counted

variable {rb : RingBuffer A} {c : Nat}

/-- One step back from the advanced `tail_` is `tail_`. -/
theorem decrementIndex_next (h : Counted c rb) :
    rb.decrementIndex ((rb.tail_ + 1) % c) = rb.tail_ := by
  have tail := h.tail
  unfold decrementIndex
  rw [h.capacity]
  by_cases last : rb.tail_ + 1 = c
  · rw [last, Nat.mod_self, if_pos rfl]
    omega
  · rw [Nat.mod_eq_of_lt (by omega), if_neg (by omega)]
    omega

theorem backIndex_incrementTail (h : Counted c rb) (notFull : rb.full_ = false) :
    rb.incrementTail.backIndex = rb.tail_ := by
  have next := h.decrementIndex_next
  rw [← h.capacity] at next
  rw [incrementTail_eq rb notFull]
  exact next

end RingBuffer.Counted

/-- Objects with the same fields over slots with the same contents answer alike. -/
theorem answers_eq {s t : State T A} (this : t.this = s.this)
    (content : ∀ p, (t.mem.slots p).content = (s.mem.slots p).content) (query : Query) :
    reply query.ask t = reply query.ask s := by
  rw [reply_ask, reply_ask, this]
  simp only [content]

namespace State

variable {c : Nat} {s : State T A} {arg : Arg T}

theorem inserted_back (counted : s.this.Counted c) (room : s.this.full_ = false) :
    reply Query.back.ask (s.inserted arg) = .ok (arg.content s) := by
  have cursors := RingBuffer.incrementTail_eq s.this room
  have count : (s.inserted arg).this.count_ ≠ 0 := by
    simp only [inserted, cursors]
    omega
  have buffer : (s.inserted arg).this.buffer_ = s.this.buffer_ := by
    simp only [inserted, cursors]
  have position : (s.inserted arg).this.backIndex = s.this.tail_ :=
    counted.backIndex_incrementTail room
  rw [reply_ask_back count, position, cell, buffer]
  simp only [inserted, tailPtr, Function.update_self]

theorem assigned_back (counted : s.this.Counted c) (full : s.this.full_ = true) :
    reply Query.back.ask (s.assigned arg) = .ok (arg.content s) := by
  have count : (s.assigned arg).this.count_ ≠ 0 := by
    have filled := counted.full_iff.mp full
    have pos := counted.pos
    simp only [assigned, RingBuffer.overwriteAdvanceHead_eq]
    omega
  have position : (s.assigned arg).this.backIndex = s.this.head_ := rfl
  rw [reply_ask_back count, position, cell]
  simp only [assigned, headPtr, RingBuffer.overwriteAdvanceHead_eq, Function.update_self]

/-- The slots hold the same contents when the argument survives the destruction. -/
theorem emplaced_content (same : arg.content s.vacatedHead = arg.content s) (p : Ptr) :
    ((s.emplaced arg).mem.slots p).content = ((s.assigned arg).mem.slots p).content := by
  simp only [emplaced, assigned, same]
  by_cases here : p = s.headPtr
  · subst here
    simp only [Function.update_self]
  · simp only [Function.update_of_ne here]

end State

/-! ## When they concur -/

theorem ReadsLive.not_mem {s s' : State T A} (h : ReadsLive s s') {events : List (Event A)}
    (trace : s'.mem.trace = events ++ s.mem.trace) (p : Ptr) : .read p false ∉ events := by
  obtain ⟨events', trace', live⟩ := h
  rw [List.append_cancel_right (trace.symm.trans trace')]
  exact live p

namespace Arg

variable {s : State T A} {arg : Arg T}

/-- Reading the argument reads nothing destroyed exactly when it is alive. -/
theorem reads_live_iff : (∀ p, .read p false ∉ arg.reads s) ↔ arg.Alive s := by
  cases arg with
  | value v => exact iff_of_true (fun _ => List.not_mem_nil) trivial
  | element source =>
      cases live : (s.mem.slots source).live <;> simp [reads, Alive, live]

/-- Another slot is destroyed. -/
theorem vacatedHead_slot (apart : arg ≠ .element s.headPtr) :
    arg.content s.vacatedHead = arg.content s ∧ arg.reads s.vacatedHead = arg.reads s := by
  cases arg with
  | value v => exact ⟨rfl, rfl⟩
  | element source =>
      have elsewhere : source ≠ s.headPtr := fun same => apart (congrArg Arg.element same)
      simp only [content, reads, State.vacatedHead, Function.update_of_ne elsewhere, and_self]

end Arg

section Reached

variable {c : Nat} {s : State T A} (counted : s.this.Counted c) (quiet : s.mem.fuse = none)
  (arg : Arg T)

include counted quiet

theorem concur_of_room (room : s.this.full_ = false) :
    (∃ pushed emplaced, Concur s arg pushed emplaced) ↔ arg.Alive s := by
  have trace : (s.inserted arg).mem.trace = (.modulo s.this.capacity_ ::
      .construct s.tailPtr (s.mem.slots s.tailPtr).live :: (arg.reads s ++
        [.subscript s.this.buffer_ s.this.tail_ s.this.capacity_])) ++ s.mem.trace := by
    simp [State.inserted]
  constructor
  · rintro ⟨pushed, emplaced, concur⟩
    have run := concur.pushes
    rw [run_pushBack_inserted quiet arg room] at run
    cases run
    refine Arg.reads_live_iff.mp fun p dead => ?_
    have live := concur.pushReads.not_mem trace p
    simp [dead] at live
  · intro alive
    have live : ReadsLive s (s.inserted arg) := by
      refine ⟨_, trace, fun p => ?_⟩
      simp [Arg.reads_live_iff.mpr alive p]
    exact ⟨s.inserted arg, s.inserted arg, {
      pushes := run_pushBack_inserted quiet arg room
      emplaces := run_emplaceBack_inserted quiet arg room
      size := rfl
      full := rfl
      answers := fun _ => rfl
      back := State.inserted_back counted room
      pushReads := live
      emplaceReads := live }⟩

theorem concur_of_full (full : s.this.full_ = true) :
    (∃ pushed emplaced, Concur s arg pushed emplaced) ↔
      arg.Alive s ∧ arg ≠ .element s.headPtr := by
  have pushTrace : (s.assigned arg).mem.trace = (.modulo s.this.capacity_ ::
      .assign s.headPtr (s.mem.slots s.headPtr).live :: (arg.reads s ++
        [.subscript s.this.buffer_ s.this.head_ s.this.capacity_])) ++ s.mem.trace := by
    simp [State.assigned]
  have emplaceTrace : (s.emplaced arg).mem.trace = (.modulo s.this.capacity_ ::
      .construct s.headPtr false :: (arg.reads s.vacatedHead ++
        [.subscript s.this.buffer_ s.this.head_ s.this.capacity_,
          .destroy s.headPtr (s.mem.slots s.headPtr).live,
          .subscript s.this.buffer_ s.this.head_ s.this.capacity_])) ++ s.mem.trace := by
    simp [State.emplaced, State.vacatedHead]
  constructor
  · rintro ⟨pushed, emplaced, concur⟩
    have run := concur.pushes
    rw [run_pushBack_assigned quiet arg full] at run
    cases run
    have run := concur.emplaces
    rw [run_emplaceBack_emplaced quiet arg full] at run
    cases run
    constructor
    · refine Arg.reads_live_iff.mp fun p dead => ?_
      have live := concur.pushReads.not_mem pushTrace p
      simp [dead] at live
    · rintro rfl
      have live := concur.emplaceReads.not_mem emplaceTrace s.headPtr
      simp [Arg.reads, State.vacatedHead] at live
  · rintro ⟨alive, apart⟩
    obtain ⟨sameContent, sameReads⟩ := Arg.vacatedHead_slot apart
    have live := Arg.reads_live_iff.mpr alive
    exact ⟨s.assigned arg, s.emplaced arg, {
      pushes := run_pushBack_assigned quiet arg full
      emplaces := run_emplaceBack_emplaced quiet arg full
      size := rfl
      full := rfl
      answers := answers_eq rfl (State.emplaced_content sameContent)
      back := State.assigned_back counted full
      pushReads := ⟨_, pushTrace, fun p => by simp [live p]⟩
      emplaceReads := ⟨_, emplaceTrace, fun p => by simp [sameReads, live p]⟩ }⟩

end Reached

end Dkyb
