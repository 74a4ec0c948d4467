import RingBuffer.Members

/-! # What the member functions do while nothing throws

With no exception pending every operation runs to an explicit state. Callers use
these equations and never unfold a member function again.
-/

namespace Dkyb

open Stateful

variable {T A : Type}

/-! ## Element operations -/

@[simp] theorem run_emit (e : Event A) (s : State T A) :
    (emit e).run s = .ok () (s.mapMem (Memory.emit e)) := rfl

theorem run_mayThrow {s : State T A} (quiet : s.mem.fuse = none) (e : Exn) :
    (mayThrow e).run s = .ok () s := by
  simp [mayThrow, quiet]

@[simp] theorem run_read (p : Ptr) (s : State T A) :
    (read p).run s = .ok (s.mem.slots p).content
      (s.mapMem (Memory.emit (.read p (s.mem.slots p).live))) := rfl

@[simp] theorem run_destroy (p : Ptr) (s : State T A) :
    (destroy p).run s = .ok ()
      ((s.mapMem (Memory.emit (.destroy p (s.mem.slots p).live))).mapMem (Memory.vacate p)) := rfl

theorem run_construct {s : State T A} (quiet : s.mem.fuse = none) (p : Ptr) (content : Option T) :
    (construct p (pure content)).run s = .ok ()
      ((s.mapMem (Memory.emit (.construct p (s.mem.slots p).live))).mapMem
        (Memory.fill p content)) := by
  simp [construct, run_mayThrow, quiet]

/-- An argument outside the buffer is no target, so there is nothing to put back. -/
theorem run_assign_pure (p : Ptr) (content : Option T) (s : State T A) :
    (assign p (pure content)).run s =
      (mayThrow .element >>= fun _ => modify (State.mapMem (Memory.overwrite p content))).run
        (s.mapMem (Memory.emit (.assign p (s.mem.slots p).live))) := by
  have kept := State.mapMem_overwrite_content p
    (s.mapMem (Memory.emit (.assign p (s.mem.slots p).live)))
  rw [State.mapMem_mem, Memory.emit_slots] at kept
  simp only [assign, EStateM.run_bind, EStateM.run_get, EStateM.run_pure, run_emit,
    EStateM.run_modify, kept]

theorem run_assign {s : State T A} (quiet : s.mem.fuse = none) (p : Ptr) (content : Option T) :
    (assign p (pure content)).run s = .ok ()
      ((s.mapMem (Memory.emit (.assign p (s.mem.slots p).live))).mapMem
        (Memory.overwrite p content)) := by
  simp [run_assign_pure, run_mayThrow, quiet]

theorem run_allocate {s : State T A} (quiet : s.mem.fuse = none) (allocator : A) (n : Nat) :
    (allocate allocator n).run s = .ok s.mem.next
      ((s.mapMem (Memory.emit (.allocate s.mem.next n allocator))).mapMem Memory.grow) := by
  simp [allocate, run_mayThrow, quiet]

namespace RingBuffer

@[simp] theorem run_subscript (k : Nat) (s : State T A) :
    (subscript k).run s = .ok ⟨s.this.buffer_, k⟩
      (s.mapMem (Memory.emit (.subscript s.this.buffer_ k s.this.capacity_))) := rfl

@[simp] theorem run_modulo (n : Nat) (s : State T A) :
    (modulo n).run s = .ok (n % s.this.capacity_)
      (s.mapMem (Memory.emit (.modulo s.this.capacity_))) := rfl

@[simp] theorem run_advance (cursor : RingBuffer A → RingBuffer A) (s : State T A) :
    (advance cursor).run s = .ok ()
      ((s.mapMem (Memory.emit (.modulo s.this.capacity_))).mapThis cursor) := rfl

end RingBuffer

/-! ## Modifiers -/

namespace State

/-- Where the element at the head is stored. -/
def headPtr (s : State T A) : Ptr := ⟨s.this.buffer_, s.this.head_⟩

def tailPtr (s : State T A) : Ptr := ⟨s.this.buffer_, s.this.tail_⟩

/-- The `i`-th slot the buffer counts as occupied. -/
def occupiedPtr (s : State T A) (i : Nat) : Ptr :=
  ⟨s.this.buffer_, (s.this.head_ + i) % s.this.capacity_⟩

/-- A push onto a buffer that is not full. -/
def appended (s : State T A) (v : T) : State T A where
  this := s.this.incrementTail
  mem := { s.mem with
    slots := Function.update s.mem.slots s.tailPtr (.holding v)
    trace := .modulo s.this.capacity_ :: .construct s.tailPtr (s.mem.slots s.tailPtr).live ::
      .subscript s.this.buffer_ s.this.tail_ s.this.capacity_ :: s.mem.trace }

/-- `push_back` onto a full buffer. -/
def overwritten (s : State T A) (v : T) : State T A where
  this := s.this.overwriteAdvanceHead
  mem := { s.mem with
    slots := Function.update s.mem.slots s.headPtr ⟨some v, (s.mem.slots s.headPtr).live⟩
    trace := .modulo s.this.capacity_ :: .assign s.headPtr (s.mem.slots s.headPtr).live ::
      .subscript s.this.buffer_ s.this.head_ s.this.capacity_ :: s.mem.trace }

/-- `emplace_back` onto a full buffer. -/
def replaced (s : State T A) (v : T) : State T A where
  this := s.this.overwriteAdvanceHead
  mem := { s.mem with
    slots := Function.update s.mem.slots s.headPtr (.holding v)
    trace := .modulo s.this.capacity_ :: .construct s.headPtr false ::
      .subscript s.this.buffer_ s.this.head_ s.this.capacity_ ::
      .destroy s.headPtr (s.mem.slots s.headPtr).live ::
      .subscript s.this.buffer_ s.this.head_ s.this.capacity_ :: s.mem.trace }

/-- `pop_front` on a buffer that is not empty. -/
def popped (s : State T A) : State T A where
  this := s.this.incrementHead
  mem := { s.mem with
    slots := Function.update s.mem.slots s.headPtr .raw
    trace := .modulo s.this.capacity_ :: .destroy s.headPtr (s.mem.slots s.headPtr).live ::
      .subscript s.this.buffer_ s.this.head_ s.this.capacity_ ::
      .read s.headPtr (s.mem.slots s.headPtr).live ::
      .subscript s.this.buffer_ s.this.head_ s.this.capacity_ :: s.mem.trace }

/-- The first `n` rounds of the loop in `clear()`. -/
def vacated (s : State T A) : Nat → State T A
  | 0 => s
  | n + 1 =>
      let s := s.vacated n
      { s with
        mem := { s.mem with
          slots := Function.update s.mem.slots (s.occupiedPtr n) .raw
          trace := .destroy (s.occupiedPtr n) (s.mem.slots (s.occupiedPtr n)).live ::
            .subscript s.this.buffer_ ((s.this.head_ + n) % s.this.capacity_) s.this.capacity_ ::
            .modulo s.this.capacity_ :: s.mem.trace } }

def cleared (s : State T A) : State T A := (s.vacated s.this.count_).mapThis RingBuffer.reset

@[simp] theorem vacated_this (s : State T A) (n : Nat) : (s.vacated n).this = s.this := by
  induction n with
  | zero => rfl
  | succ n ih => exact ih

@[simp] theorem vacated_fuse (s : State T A) (n : Nat) : (s.vacated n).mem.fuse = s.mem.fuse := by
  induction n with
  | zero => rfl
  | succ n ih => exact ih

theorem vacated_slots (s : State T A) (n : Nat) (p : Ptr) :
    (∃ i < n, p = s.occupiedPtr i) ∧ (s.vacated n).mem.slots p = .raw ∨
      (∀ i < n, p ≠ s.occupiedPtr i) ∧ (s.vacated n).mem.slots p = s.mem.slots p := by
  induction n with
  | zero => exact .inr ⟨fun i hi => absurd hi (Nat.not_lt_zero i), rfl⟩
  | succ n ih =>
      have here : (s.vacated n).occupiedPtr n = s.occupiedPtr n := by
        simp only [occupiedPtr, vacated_this]
      by_cases last : p = s.occupiedPtr n
      · refine .inl ⟨⟨n, Nat.lt_succ_self n, last⟩, ?_⟩
        simp only [vacated, here, last, Function.update_self]
      · have untouched : (s.vacated (n + 1)).mem.slots p = (s.vacated n).mem.slots p := by
          simp only [vacated, here, Function.update_of_ne last]
        rcases ih with ⟨⟨i, hi, same⟩, gone⟩ | ⟨apart, kept⟩
        · exact .inl ⟨⟨i, by omega, same⟩, untouched.trans gone⟩
        · refine .inr ⟨fun i hi => ?_, untouched.trans kept⟩
          rcases Nat.lt_succ_iff_lt_or_eq.mp hi with earlier | rfl
          · exact apart i earlier
          · exact last

end State

section Quiet

variable {s : State T A} (quiet : s.mem.fuse = none) (v : T)

include quiet

theorem run_pushBack_room (room : s.this.full_ = false) :
    (RingBuffer.pushBack (.value v)).run s = .ok () (s.appended v) := by
  simp only [RingBuffer.pushBack, EStateM.run_bind, EStateM.run_get, room, Bool.false_eq_true,
    if_false, RingBuffer.run_subscript, Arg.copied, run_construct, State.mapMem_mem,
    Memory.emit_fuse, quiet]
  rfl

theorem run_pushBack_full (full : s.this.full_ = true) :
    (RingBuffer.pushBack (.value v)).run s = .ok () (s.overwritten v) := by
  simp only [RingBuffer.pushBack, EStateM.run_bind, EStateM.run_get, full, if_true,
    RingBuffer.run_subscript, Arg.copied, run_assign, State.mapMem_mem, Memory.emit_fuse, quiet]
  rfl

theorem run_pushBackMove_room (room : s.this.full_ = false) :
    (RingBuffer.pushBackMove (.value v)).run s = .ok () (s.appended v) := by
  simp only [RingBuffer.pushBackMove, EStateM.run_bind, EStateM.run_get, room, Bool.false_eq_true,
    if_false, RingBuffer.run_subscript, Arg.moved, run_construct, State.mapMem_mem,
    Memory.emit_fuse, quiet]
  rfl

theorem run_pushBackMove_full (full : s.this.full_ = true) :
    (RingBuffer.pushBackMove (.value v)).run s = .ok () (s.overwritten v) := by
  simp only [RingBuffer.pushBackMove, EStateM.run_bind, EStateM.run_get, full, if_true,
    RingBuffer.run_subscript, Arg.moved, run_assign, State.mapMem_mem, Memory.emit_fuse, quiet]
  rfl

theorem run_emplaceBack_room (room : s.this.full_ = false) :
    (RingBuffer.emplaceBack (.lvalue (.value v))).run s = .ok () (s.appended v) := by
  simp only [RingBuffer.emplaceBack, EStateM.run_bind, EStateM.run_get, room, Bool.false_eq_true,
    if_false, RingBuffer.run_subscript, Forwarded.forward, Arg.copied, run_construct,
    State.mapMem_mem, Memory.emit_fuse, quiet]
  rfl

theorem run_emplaceBack_full (full : s.this.full_ = true) :
    (RingBuffer.emplaceBack (.lvalue (.value v))).run s = .ok () (s.replaced v) := by
  simp only [RingBuffer.emplaceBack, EStateM.run_bind, EStateM.run_get, full, if_true,
    RingBuffer.run_subscript, run_destroy, Forwarded.forward, Arg.copied, run_construct,
    State.mapMem_mem, Memory.emit_fuse, Memory.vacate_fuse, quiet, RingBuffer.run_advance]
  congr 1
  simp only [State.replaced, State.mapMem, State.mapThis, Memory.emit, Memory.vacate, Memory.fill,
    State.headPtr, Function.update_idem, Function.update_self, Slot.raw_live]
  rfl

theorem run_popFront (nonempty : s.this.count_ ≠ 0) :
    (RingBuffer.popFront).run s = .ok (s.mem.slots s.headPtr).content s.popped := by
  have notEmpty : s.this.empty = false := by simpa [RingBuffer.empty] using nonempty
  simp only [RingBuffer.popFront, EStateM.run_bind, EStateM.run_get, notEmpty, Bool.false_eq_true,
    if_false, EStateM.run_pure, RingBuffer.run_subscript, run_mayThrow, State.mapMem_mem,
    Memory.emit_fuse, quiet, Arg.moved, run_read, EStateM.run_modify, run_destroy,
    RingBuffer.run_advance]
  congr 1
  simp only [State.popped, State.mapMem, State.mapThis, Memory.emit, Memory.vacate,
    Memory.overwrite, State.headPtr, Function.update_idem, Function.update_self]

theorem run_insert_room {update : Update T} (insert : update.inserted = some v)
    (room : s.this.full_ = false) : update.perform.run s = .ok .done (s.appended v) := by
  cases update <;> cases insert
  · simp only [Update.perform, EStateM.run_bind, run_pushBack_room quiet v room, EStateM.run_pure]
  · simp only [Update.perform, EStateM.run_bind, run_pushBackMove_room quiet v room,
      EStateM.run_pure]
  · simp only [Update.perform, EStateM.run_bind, run_emplaceBack_room quiet v room,
      EStateM.run_pure]

theorem run_insert_full {update : Update T} (insert : update.inserted = some v)
    (full : s.this.full_ = true) : update.perform.run s = .ok .done (s.overwritten v) ∨
      update.perform.run s = .ok .done (s.replaced v) := by
  cases update <;> cases insert
  · left
    simp only [Update.perform, EStateM.run_bind, run_pushBack_full quiet v full, EStateM.run_pure]
  · left
    simp only [Update.perform, EStateM.run_bind, run_pushBackMove_full quiet v full,
      EStateM.run_pure]
  · right
    simp only [Update.perform, EStateM.run_bind, run_emplaceBack_full quiet v full,
      EStateM.run_pure]

theorem run_perform_popFront (nonempty : s.this.count_ ≠ 0) : Update.popFront.perform.run s =
    .ok (.content (s.mem.slots s.headPtr).content) s.popped := by
  simp only [Update.perform, EStateM.run_bind, run_popFront quiet nonempty, EStateM.run_pure]

end Quiet

theorem run_popFront_empty {s : State T A} (empty : s.this.count_ = 0) :
    (RingBuffer.popFront).run s =
      .error (.ringBufferException "Cannot pop from empty ring buffer") s := by
  have isEmpty : s.this.empty = true := by simpa [RingBuffer.empty] using empty
  simp only [RingBuffer.popFront, EStateM.run_bind, EStateM.run_get, isEmpty, if_true, run_throw]

theorem run_clear (s : State T A) : (RingBuffer.clear).run s = .ok () s.cleared := by
  have loop : ∀ n, (forRange n fun i => do
      destroy (← RingBuffer.subscript (← RingBuffer.modulo (s.this.head_ + i)))).run s =
        .ok () (s.vacated n) := by
    intro n
    induction n with
    | zero => rfl
    | succ n ih =>
        simp only [forRange, EStateM.run_bind, ih, RingBuffer.run_modulo, RingBuffer.run_subscript,
          run_destroy, State.mapMem_this, State.vacated_this]
        simp only [State.vacated, State.occupiedPtr, State.vacated_this, State.mapMem, Memory.emit,
          Memory.vacate]
  simp only [RingBuffer.clear, EStateM.run_bind, EStateM.run_get, loop, EStateM.run_modify]
  rfl

theorem run_perform_popFront_empty {s : State T A} (empty : s.this.count_ = 0) :
    Update.popFront.perform.run s =
      .error (.ringBufferException "Cannot pop from empty ring buffer") s := by
  simp only [Update.perform, EStateM.run_bind, run_popFront_empty empty]

theorem run_perform_clear (s : State T A) :
    Update.clear.perform.run s = .ok .done s.cleared := by
  simp only [Update.perform, EStateM.run_bind, run_clear, EStateM.run_pure]

/-! ## Element access -/

theorem run_front {s : State T A} (nonempty : s.this.count_ ≠ 0) :
    (RingBuffer.front).run s = .ok s.headPtr
      (s.mapMem (Memory.emit (.subscript s.this.buffer_ s.this.head_ s.this.capacity_))) := by
  have notEmpty : s.this.empty = false := by simpa [RingBuffer.empty] using nonempty
  simp only [RingBuffer.front, EStateM.run_bind, EStateM.run_get, notEmpty, Bool.false_eq_true,
    if_false, RingBuffer.run_subscript]
  rfl

theorem run_front_empty {s : State T A} (empty : s.this.count_ = 0) :
    (RingBuffer.front).run s =
      .error (.ringBufferException "Cannot access front of empty ring buffer") s := by
  have isEmpty : s.this.empty = true := by simpa [RingBuffer.empty] using empty
  simp only [RingBuffer.front, EStateM.run_bind, EStateM.run_get, isEmpty, if_true, run_throw]

theorem run_back {s : State T A} (nonempty : s.this.count_ ≠ 0) :
    (RingBuffer.back).run s = .ok ⟨s.this.buffer_, s.this.backIndex⟩
      (s.mapMem (Memory.emit (.subscript s.this.buffer_ s.this.backIndex s.this.capacity_))) := by
  have notEmpty : s.this.empty = false := by simpa [RingBuffer.empty] using nonempty
  simp only [RingBuffer.back, EStateM.run_bind, EStateM.run_get, notEmpty, Bool.false_eq_true,
    if_false, RingBuffer.backIndex]
  split <;> simp only [RingBuffer.run_subscript]

theorem run_back_empty {s : State T A} (empty : s.this.count_ = 0) :
    (RingBuffer.back).run s =
      .error (.ringBufferException "Cannot access back of empty ring buffer") s := by
  have isEmpty : s.this.empty = true := by simpa [RingBuffer.empty] using empty
  simp only [RingBuffer.back, EStateM.run_bind, EStateM.run_get, isEmpty, if_true, run_throw]

theorem run_index {s : State T A} {i : Nat} (inside : i < s.this.count_) :
    (RingBuffer.index i).run s = .ok (s.occupiedPtr i)
      ((s.mapMem (Memory.emit (.modulo s.this.capacity_))).mapMem (Memory.emit (.subscript
        s.this.buffer_ ((s.this.head_ + i) % s.this.capacity_) s.this.capacity_))) := by
  simp only [RingBuffer.index, EStateM.run_bind, EStateM.run_get, ge_iff_le,
    Nat.not_le.mpr inside, if_false, RingBuffer.run_modulo, RingBuffer.run_subscript]
  rfl

theorem run_index_outside {s : State T A} {i : Nat} (outside : s.this.count_ ≤ i) :
    (RingBuffer.index i).run s =
      .error (.outOfRange s!"Index {i} out of range [size={s.this.capacity_}]") s := by
  simp only [RingBuffer.index, EStateM.run_bind, EStateM.run_get, ge_iff_le, outside, if_true,
    run_throw]

/-- Reading through a reference that `locate` returned. -/
def State.looked (s : State T A) (p : Ptr) : State T A :=
  (s.mapMem (Memory.emit (.subscript p.block p.index s.this.capacity_))).mapMem
    (Memory.emit (.read p (s.mem.slots p).live))

theorem run_ask_front {s : State T A} (nonempty : s.this.count_ ≠ 0) :
    Query.front.ask.run s = .ok (s.mem.slots s.headPtr).content (s.looked s.headPtr) := by
  simp only [Query.ask, Query.locate, EStateM.run_bind, run_front nonempty, run_read]
  rfl

theorem run_ask_back {s : State T A} (nonempty : s.this.count_ ≠ 0) :
    Query.back.ask.run s = .ok (s.cell s.this.backIndex).content
      (s.looked ⟨s.this.buffer_, s.this.backIndex⟩) := by
  simp only [Query.ask, Query.locate, EStateM.run_bind, run_back nonempty, run_read]
  rfl

theorem run_ask_index {s : State T A} {i : Nat} (inside : i < s.this.count_) :
    (Query.index i).ask.run s = .ok (s.mem.slots (s.occupiedPtr i)).content
      ((s.mapMem (Memory.emit (.modulo s.this.capacity_))).looked (s.occupiedPtr i)) := by
  simp only [Query.ask, Query.locate, EStateM.run_bind, run_index inside, run_read]
  rfl

theorem reply_ask_index {s : State T A} {i : Nat} (inside : i < s.this.count_) :
    reply (Query.index i).ask s =
      .ok (s.cell ((s.this.head_ + i) % s.this.capacity_)).content :=
  reply_of_run (run_ask_index inside)

theorem reply_ask_front {s : State T A} (nonempty : s.this.count_ ≠ 0) :
    reply Query.front.ask s = .ok (s.cell s.this.head_).content :=
  reply_of_run (run_ask_front nonempty)

theorem reply_ask_back {s : State T A} (nonempty : s.this.count_ ≠ 0) :
    reply Query.back.ask s = .ok (s.cell s.this.backIndex).content :=
  reply_of_run (run_ask_back nonempty)

/-- What a query of an empty buffer throws. -/
def Query.refusal (capacity : Nat) : Query → Exn
  | .front => .ringBufferException "Cannot access front of empty ring buffer"
  | .back => .ringBufferException "Cannot access back of empty ring buffer"
  | .index i => .outOfRange s!"Index {i} out of range [size={capacity}]"

theorem run_ask_empty {s : State T A} (empty : s.this.count_ = 0) (query : Query) :
    query.ask.run s = .error (query.refusal s.this.capacity_) s := by
  cases query with
  | front => simp only [Query.ask, Query.locate, EStateM.run_bind, run_front_empty empty,
      Query.refusal]
  | back => simp only [Query.ask, Query.locate, EStateM.run_bind, run_back_empty empty,
      Query.refusal]
  | index i =>
      have outside : s.this.count_ ≤ i := by omega
      simp only [Query.ask, Query.locate, EStateM.run_bind, run_index_outside outside,
        Query.refusal]

theorem run_ask_outside {s : State T A} {i : Nat} (outside : s.this.count_ ≤ i) :
    (Query.index i).ask.run s =
      .error (.outOfRange s!"Index {i} out of range [size={s.this.capacity_}]") s := by
  simp only [Query.ask, Query.locate, EStateM.run_bind, run_index_outside outside]

/-- The reference a query returns, or the exception it throws: a matter of the
    object's fields alone. -/
def Query.place (rb : RingBuffer A) : Query → Except Exn Ptr
  | .front =>
      if rb.count_ = 0 then .error (Query.front.refusal rb.capacity_)
      else .ok ⟨rb.buffer_, rb.head_⟩
  | .back =>
      if rb.count_ = 0 then .error (Query.back.refusal rb.capacity_)
      else .ok ⟨rb.buffer_, rb.backIndex⟩
  | .index i =>
      if i < rb.count_ then .ok ⟨rb.buffer_, (rb.head_ + i) % rb.capacity_⟩
      else .error ((Query.index i).refusal rb.capacity_)

theorem reply_locate (query : Query) (s : State T A) :
    reply query.locate s = query.place s.this := by
  by_cases empty : s.this.count_ = 0
  · cases query with
    | front => exact (reply_of_error (run_front_empty empty)).trans (if_pos empty).symm
    | back => exact (reply_of_error (run_back_empty empty)).trans (if_pos empty).symm
    | index i => exact (reply_of_error (run_index_outside (by omega))).trans (if_neg (by omega)).symm
  · cases query with
    | front => exact (reply_of_run (run_front empty)).trans (if_neg empty).symm
    | back => exact (reply_of_run (run_back empty)).trans (if_neg empty).symm
    | index i =>
        by_cases inside : i < s.this.count_
        · exact (reply_of_run (run_index inside)).trans (if_pos inside).symm
        · exact (reply_of_error (run_index_outside (Nat.not_lt.mp inside))).trans
            (if_neg inside).symm

theorem reply_ask (query : Query) (s : State T A) : reply query.ask s =
    (query.place s.this).map fun p => (s.mem.slots p).content := by
  by_cases empty : s.this.count_ = 0
  · rw [reply_of_error (run_ask_empty empty query)]
    cases query with
    | front => rw [Query.place, if_pos empty, Except.map]
    | back => rw [Query.place, if_pos empty, Except.map]
    | index i => rw [Query.place, if_neg (by omega), Except.map]
  · cases query with
    | front => rw [reply_ask_front empty, Query.place, if_neg empty, Except.map, State.cell]
    | back => rw [reply_ask_back empty, Query.place, if_neg empty, Except.map, State.cell]
    | index i =>
        by_cases inside : i < s.this.count_
        · rw [reply_ask_index inside, Query.place, if_pos inside, Except.map, State.cell]
        · rw [reply_of_error (run_ask_outside (Nat.not_lt.mp inside)), Query.place, if_neg inside,
            Except.map, Query.refusal]

/-- Reading changes nothing but the trace, and a query that throws not even that. -/
theorem ask_keeps (query : Query) (s : State T A) :
    match query.ask.run s with
    | .ok _ s' => s'.this = s.this ∧ s'.mem.slots = s.mem.slots ∧ s'.mem.fuse = s.mem.fuse
    | .error _ s' => s' = s := by
  by_cases empty : s.this.count_ = 0
  · rw [run_ask_empty empty]
  · cases query with
    | front =>
        rw [run_ask_front empty]
        exact ⟨rfl, rfl, rfl⟩
    | back =>
        rw [run_ask_back empty]
        exact ⟨rfl, rfl, rfl⟩
    | index i =>
        by_cases inside : i < s.this.count_
        · rw [run_ask_index inside]
          exact ⟨rfl, rfl, rfl⟩
        · rw [run_ask_outside (Nat.not_lt.mp inside)]

theorem final_query (query : Query) (s : State T A) :
    final (Call.query query).perform s = final query.ask s := by
  unfold final
  simp only [Call.perform, EStateM.run_bind, EStateM.run_pure]
  cases query.ask.run s <;> rfl

/-! ## When something is set to throw -/

namespace State

/-- Set how many allocations and element operations succeed before one throws. -/
def armed (s : State T A) (fuse : Option Nat) : State T A :=
  s.mapMem fun m => { m with fuse := fuse }

@[simp] theorem armed_this (s : State T A) (fuse : Option Nat) : (s.armed fuse).this = s.this := rfl

@[simp] theorem armed_slots (s : State T A) (fuse : Option Nat) :
    (s.armed fuse).mem.slots = s.mem.slots := rfl

@[simp] theorem armed_fuse (s : State T A) (fuse : Option Nat) : (s.armed fuse).mem.fuse = fuse := rfl

@[simp] theorem armed_trace (s : State T A) (fuse : Option Nat) :
    (s.armed fuse).mem.trace = s.mem.trace := rfl

@[simp] theorem armed_cell (s : State T A) (fuse : Option Nat) : (s.armed fuse).cell = s.cell := rfl

end State

theorem run_mayThrow_zero {s : State T A} (armed : s.mem.fuse = some 0) (e : Exn) :
    (mayThrow e).run s = .error e (s.armed none) := by
  simp only [mayThrow, EStateM.run_bind, EStateM.run_get, armed, EStateM.run_modify, run_throw]
  rfl

theorem run_mayThrow_succ {s : State T A} {n : Nat} (armed : s.mem.fuse = some (n + 1)) (e : Exn) :
    (mayThrow e).run s = .ok () (s.armed (some n)) := by
  simp only [mayThrow, EStateM.run_bind, EStateM.run_get, armed, EStateM.run_modify]
  rfl

/-! ## Construction -/

theorem run_create {s : State T A} (quiet : s.mem.fuse = none) {c : Nat} (pos : 0 < c) (a : A) :
    (RingBuffer.create c a).run s = .ok ()
      { this := { RingBuffer.blank a with capacity_ := c, buffer_ := some s.mem.next }
        mem := (s.mem.emit (.allocate s.mem.next c a)).grow } := by
  simp only [RingBuffer.create, EStateM.run_bind, run_allocate quiet, EStateM.run_modify,
    Nat.pos_iff_ne_zero.mp pos, if_false, EStateM.run_pure]
  rfl

theorem created_eq {c : Nat} (pos : 0 < c) (a : A) : (State.created c a : State T A) =
    { this := { RingBuffer.blank a with capacity_ := c, buffer_ := some 0 }
      mem := { (Memory.empty.emit (.allocate 0 c a)).grow with next := 1 } } :=
  final_of_run (run_create (s := ⟨RingBuffer.blank a, Memory.empty⟩) rfl pos a)

end Dkyb
