import RingBuffer.FailedInserts
import RingBuffer.Frame
import RingBuffer.Lifetime
import RingBuffer.Refinement
import RingBuffer.Throwing

/-! # Runs in which element operations throw

Any call of a run may be made to throw at its element operation, which is taken to
leave both sides as they were: a construction creates nothing, an assignment or a move
changes neither. Such a call should leave the queue as it was. It does, with one
exception that spoils the buffer, and the run goes on as if the call had not been made.
-/

namespace Dkyb

open Stateful

variable {T A : Type}

/-- A call, and how many element operations succeed before one throws. -/
structure Trial (T : Type) where
  fuse : Option Nat
  call : Update T
  deriving DecidableEq, Repr

def Update.emplaces : Update T → Bool
  | .emplaceBack _ => true
  | _ => false

theorem Update.emplaces_iff {call : Update T} :
    call.emplaces = true ↔ ∃ v, call = .emplaceBack v := by
  cases call <;> simp [Update.emplaces]

/-- The call gets to an operation on an element. -/
def Update.touches (rb : RingBuffer A) : Update T → Bool
  | .popFront => !rb.empty
  | .clear => false
  | _ => true

/-- The same cursors and slots, and nothing set to throw. -/
structure Unmoved (s s' : State T A) : Prop where
  this : s'.this = s.this
  slots : s'.mem.slots = s.mem.slots
  quiet : s'.mem.fuse = none

namespace Trial

/-- The call gets to its element operation, and that throws. -/
def fails (trial : Trial T) (q : List T) : Bool :=
  trial.fuse == some 0 &&
    match trial.call with
    | .popFront => !q.isEmpty
    | .clear => false
    | _ => true

/-- A call that fails is not made. -/
def step (c : Nat) (q : List T) (trial : Trial T) : List T :=
  if trial.fails q then q else DropOldest.step c q trial.call.command

def Answered (trial : Trial T) (q : List T) (reply : Except Exn (Reply T)) : Prop :=
  if trial.fails q then reply = .error .element
  else Answers (DropOldest.answer q trial.call.command) reply

end Trial

namespace State

/-- An insertion into a full buffer. -/
def recycled (s : State T A) (update : Update T) (v : T) : State T A :=
  if update.emplaces then s.replaced v else s.overwritten v

def tried (s : State T A) (trial : Trial T) : State T A :=
  (final trial.call.perform (s.armed trial.fuse)).armed none

end State

/-- The call answers and leaves the buffer as the queue says, with the occupied slots
    live and no other. -/
def SurvivesAt (c : Nat) (s : State T A) (q : List T) (trial : Trial T) : Prop :=
  trial.Answered q (reply trial.call.perform (s.armed trial.fuse)) ∧
    Observes c (s.tried trial) (trial.step c q) ∧ OccupiedLive (s.tried trial)

/-- A push that finds room finds `tail_` behind the last element, unless it throws, and
    `emplace_back` does not throw on a full buffer. -/
def SafeAt (s : State T A) (trial : Trial T) : Prop :=
  (trial.fuse ≠ some 0 → FitsAt s trial.call) ∧
    (trial.fuse = some 0 → trial.call.emplaces = true → s.this.full_ = false)

instance (s : State T A) (trial : Trial T) : Decidable (SafeAt s trial) :=
  inferInstanceAs (Decidable ((_ → _) ∧ (_ → _ → _)))

/-! ## With something left to burn -/

theorem run_insert_recycled {s : State T A} (quiet : s.mem.fuse = none) {update : Update T} {v : T}
    (insert : update.inserted = some v) (full : s.this.full_ = true) :
    update.perform.run s = .ok .done (s.recycled update v) := by
  cases update <;> cases insert
  · simp only [Update.perform, EStateM.run_bind, run_pushBack_full quiet v full, EStateM.run_pure]
    rfl
  · simp only [Update.perform, EStateM.run_bind, run_pushBackMove_full quiet v full,
      EStateM.run_pure]
    rfl
  · simp only [Update.perform, EStateM.run_bind, run_emplaceBack_full quiet v full,
      EStateM.run_pure]
    rfl

section Armed

variable {s : State T A} {n : Nat} (armed : s.mem.fuse = some (n + 1))

include armed

theorem run_construct_succ (p : Ptr) (content : Option T) :
    (construct p (pure content)).run s = .ok ()
      (((s.mapMem (Memory.emit (.construct p (s.mem.slots p).live))).mapMem
        (Memory.fill p content)).armed (some n)) := by
  have passed := run_mayThrow_succ (s := s.mapMem (Memory.emit
    (.construct p (s.mem.slots p).live))) armed .element
  simp only [construct, EStateM.run_bind, EStateM.run_pure, run_emit, EStateM.run_get, passed]
  rfl

theorem run_assign_succ (p : Ptr) (content : Option T) :
    (assign p (pure content)).run s = .ok ()
      (((s.mapMem (Memory.emit (.assign p (s.mem.slots p).live))).mapMem
        (Memory.overwrite p content)).armed (some n)) := by
  have passed := run_mayThrow_succ (s := s.mapMem (Memory.emit
    (.assign p (s.mem.slots p).live))) armed .element
  simp only [run_assign_pure, EStateM.run_bind, passed]
  rfl

theorem run_insert_room_succ {update : Update T} {v : T} (insert : update.inserted = some v)
    (room : s.this.full_ = false) :
    update.perform.run s = .ok .done ((s.appended v).armed (some n)) := by
  cases update <;> cases insert
  all_goals
    simp only [Update.perform, RingBuffer.pushBack, RingBuffer.pushBackMove, RingBuffer.emplaceBack,
      EStateM.run_bind, EStateM.run_get, room, Bool.false_eq_true, if_false,
      RingBuffer.run_subscript, Forwarded.forward, Arg.copied, Arg.moved,
      run_construct_succ (n := n), State.mapMem_mem, Memory.emit_fuse, armed, EStateM.run_pure]
    rfl

theorem run_insert_full_succ {update : Update T} {v : T} (insert : update.inserted = some v)
    (full : s.this.full_ = true) :
    update.perform.run s = .ok .done ((s.recycled update v).armed (some n)) := by
  cases update <;> cases insert
  · simp only [Update.perform, RingBuffer.pushBack, EStateM.run_bind, EStateM.run_get, full, if_true,
      RingBuffer.run_subscript, Arg.copied, run_assign_succ (n := n), State.mapMem_mem,
      Memory.emit_fuse, armed, EStateM.run_pure]
    rfl
  · simp only [Update.perform, RingBuffer.pushBackMove, EStateM.run_bind, EStateM.run_get, full,
      if_true, RingBuffer.run_subscript, Arg.moved, run_assign_succ (n := n), State.mapMem_mem,
      Memory.emit_fuse, armed, EStateM.run_pure]
    rfl
  · simp only [Update.perform, RingBuffer.emplaceBack, EStateM.run_bind, EStateM.run_get, full,
      if_true, RingBuffer.run_subscript, run_destroy, Forwarded.forward, Arg.copied,
      run_construct_succ (n := n), State.mapMem_mem, Memory.emit_fuse, Memory.vacate_fuse, armed,
      RingBuffer.run_advance, EStateM.run_pure]
    congr 1
    simp only [State.recycled, Update.emplaces, State.replaced, State.mapMem, State.mapThis,
      State.armed, Memory.emit, Memory.vacate, Memory.fill, State.headPtr, Function.update_idem,
      Function.update_self, Slot.raw_live]
    rfl

theorem run_popFront_succ (nonempty : s.this.count_ ≠ 0) : Update.popFront.perform.run s =
    .ok (.content (s.mem.slots s.headPtr).content) (s.popped.armed (some n)) := by
  have notEmpty : s.this.empty = false := by simpa [RingBuffer.empty] using nonempty
  simp only [Update.perform, RingBuffer.popFront, EStateM.run_bind, EStateM.run_get, notEmpty,
    Bool.false_eq_true, if_false, EStateM.run_pure, RingBuffer.run_subscript,
    run_mayThrow_succ (n := n), State.mapMem_mem, Memory.emit_fuse, armed, Arg.moved, run_read,
    EStateM.run_modify, run_destroy, RingBuffer.run_advance]
  congr 1
  simp only [State.popped, State.mapMem, State.mapThis, State.armed, Memory.emit, Memory.vacate,
    Memory.overwrite, State.headPtr, Function.update_idem, Function.update_self]

end Armed

/-! ## Thrown out of -/

section Struck

variable {s : State T A} (struck : s.mem.fuse = some 0)

include struck

theorem run_construct_zero (p : Ptr) (content : Option T) :
    (construct p (pure content)).run s = .error .element
      ((s.mapMem (Memory.emit (.construct p (s.mem.slots p).live))).armed none) := by
  have thrown := run_mayThrow_zero (s := s.mapMem (Memory.emit
    (.construct p (s.mem.slots p).live))) struck .element
  simp only [construct, EStateM.run_bind, EStateM.run_pure, run_emit, EStateM.run_get, thrown]

theorem run_assign_zero (p : Ptr) (content : Option T) :
    (assign p (pure content)).run s = .error .element
      ((s.mapMem (Memory.emit (.assign p (s.mem.slots p).live))).armed none) := by
  have thrown := run_mayThrow_zero (s := s.mapMem (Memory.emit
    (.assign p (s.mem.slots p).live))) struck .element
  simp only [run_assign_pure, EStateM.run_bind, thrown]

/-- Only `emplace_back` onto a full buffer has done something by then. -/
theorem run_insert_zero {update : Update T} {v : T} (insert : update.inserted = some v) :
    ∃ s', update.perform.run s = .error .element s' ∧ s'.this = s.this ∧
      s'.mem.slots = if update.emplaces && s.this.full_ then
        Function.update s.mem.slots s.headPtr .raw else s.mem.slots := by
  cases full : s.this.full_ with
  | false =>
      cases update <;> cases insert
      all_goals
        apply Exists.intro
        refine ⟨?run, ?_, ?_⟩
        case run =>
          simp only [Update.perform, RingBuffer.pushBack, RingBuffer.pushBackMove,
            RingBuffer.emplaceBack, EStateM.run_bind, EStateM.run_get, full, Bool.false_eq_true,
            if_false, RingBuffer.run_subscript, Forwarded.forward, Arg.copied, Arg.moved,
            run_construct_zero, State.mapMem_mem, Memory.emit_fuse, struck]
          rfl
        · rfl
        · simp
  | true =>
      cases update <;> cases insert
      all_goals
        apply Exists.intro
        refine ⟨?run, ?_, ?_⟩
        case run =>
          simp only [Update.perform, RingBuffer.pushBack, RingBuffer.pushBackMove,
            RingBuffer.emplaceBack, EStateM.run_bind, EStateM.run_get, full, if_true,
            RingBuffer.run_subscript, run_destroy, Forwarded.forward, Arg.copied, Arg.moved,
            run_construct_zero, run_assign_zero, State.mapMem_mem, Memory.emit_fuse,
            Memory.vacate_fuse, struck]
          rfl
        · rfl
        · simp [Update.emplaces, State.headPtr]

theorem run_popFront_zero (nonempty : s.this.count_ ≠ 0) :
    ∃ s', Update.popFront.perform.run s = .error .element s' ∧ s'.this = s.this ∧
      s'.mem.slots = s.mem.slots := by
  have notEmpty : s.this.empty = false := by simpa [RingBuffer.empty] using nonempty
  apply Exists.intro
  refine ⟨?run, ?_, ?_⟩
  case run =>
    simp only [Update.perform, RingBuffer.popFront, EStateM.run_bind, EStateM.run_get, notEmpty,
      Bool.false_eq_true, if_false, RingBuffer.run_subscript, run_mayThrow_zero, State.mapMem_mem,
      Memory.emit_fuse, struck]
    rfl
  · rfl
  · rfl

end Struck

/-! ## One trial -/

section Attempts

variable {c : Nat} {s : State T A} {q : List T} {trial : Trial T}

/-- A fuse that does not go off changes nothing. -/
theorem armed_succ (quiet : s.mem.fuse = none) (call : Update T) (n : Nat) :
    reply call.perform (s.armed (some (n + 1))) = reply call.perform s ∧
      (final call.perform (s.armed (some (n + 1)))).armed none = final call.perform s := by
  have insertion : ∀ v, call.inserted = some v →
      reply call.perform (s.armed (some (n + 1))) = reply call.perform s ∧
        (final call.perform (s.armed (some (n + 1)))).armed none = final call.perform s := by
    intro v inserted
    cases full : s.this.full_ with
    | false =>
        have run := run_insert_room quiet v inserted full
        have run' := run_insert_room_succ (s := s.armed (some (n + 1))) rfl inserted full
        rw [reply_of_run run, final_of_run run, reply_of_run run', final_of_run run']
        exact ⟨rfl, State.armed_of_fuse (s := s.appended v) quiet⟩
    | true =>
        have run := run_insert_recycled quiet inserted full
        have run' := run_insert_full_succ (s := s.armed (some (n + 1))) rfl inserted full
        have same : ((s.armed (some (n + 1))).recycled call v).armed none = s.recycled call v := by
          simp only [State.recycled]
          split
          · exact State.armed_of_fuse (s := s.replaced v) quiet
          · exact State.armed_of_fuse (s := s.overwritten v) quiet
        rw [reply_of_run run, final_of_run run, reply_of_run run', final_of_run run']
        exact ⟨rfl, same⟩
  cases call with
  | pushBack v | pushBackMove v | emplaceBack v => exact insertion v rfl
  | popFront =>
      by_cases empty : s.this.count_ = 0
      · have run := run_perform_popFront_empty empty
        have run' := run_perform_popFront_empty (s := s.armed (some (n + 1))) empty
        rw [reply_of_error run, final_of_error run, reply_of_error run', final_of_error run']
        exact ⟨rfl, State.armed_of_fuse quiet⟩
      · have run := run_perform_popFront quiet empty
        have run' := run_popFront_succ (s := s.armed (some (n + 1))) rfl empty
        rw [reply_of_run run, final_of_run run, reply_of_run run', final_of_run run']
        exact ⟨rfl, State.armed_of_fuse (s := s.popped) quiet⟩
  | clear =>
      have run := run_perform_clear s
      have run' := run_perform_clear (s.armed (some (n + 1)))
      rw [reply_of_run run, final_of_run run, reply_of_run run', final_of_run run',
        State.cleared_armed]
      exact ⟨rfl, State.armed_of_fuse (s := s.cleared)
        (by simpa only [State.cleared, State.mapThis_mem, State.vacated_fuse] using quiet)⟩

/-- A fuse that does not go off in the call changes nothing either. -/
theorem armed_calm (quiet : s.mem.fuse = none) {call : Update T} {fuse : Option Nat}
    (calm : fuse = some 0 → call.touches s.this = false) :
    reply call.perform (s.armed fuse) = reply call.perform s ∧
      (final call.perform (s.armed fuse)).armed none = final call.perform s := by
  have after : (final call.perform s).mem.fuse = none := (Frame.update quiet call).fuse.trans quiet
  match fuse with
  | none =>
      rw [State.armed_of_fuse quiet, State.armed_of_fuse after]
      exact ⟨rfl, rfl⟩
  | some (n + 1) => exact armed_succ quiet call n
  | some 0 =>
      have untouched := calm rfl
      cases call with
      | pushBack | pushBackMove | emplaceBack => cases untouched
      | popFront =>
          have empty : s.this.count_ = 0 := by
            simpa [Update.touches, RingBuffer.empty] using untouched
          have run := run_perform_popFront_empty (T := T) empty
          have run' := run_perform_popFront_empty (s := s.armed (some 0)) empty
          rw [reply_of_error run, final_of_error run, reply_of_error run', final_of_error run']
          exact ⟨rfl, State.armed_of_fuse quiet⟩
      | clear =>
          have run := run_perform_clear s
          have run' := run_perform_clear (s.armed (some 0))
          rw [final_of_run run] at after
          rw [reply_of_run run, final_of_run run, reply_of_run run', final_of_run run',
            State.cleared_armed]
          exact ⟨rfl, State.armed_of_fuse (s := s.cleared) after⟩

/-- A call that is thrown out of moves nothing, unless it emplaces onto a full buffer. -/
theorem run_struck {call : Update T} (touches : call.touches s.this = true)
    (gentle : call.emplaces = true → s.this.full_ = false) : ∃ s',
      call.perform.run (s.armed (some 0)) = .error .element s' ∧ Unmoved s (s'.armed none) := by
  have insertion : ∀ v, call.inserted = some v → ∃ s',
      call.perform.run (s.armed (some 0)) = .error .element s' ∧ Unmoved s (s'.armed none) := by
    intro v inserted
    obtain ⟨s', run, this, slots⟩ := run_insert_zero (s := s.armed (some 0)) rfl inserted
    have whole : (call.emplaces && (s.armed (some 0)).this.full_) = false := by
      cases emplaces : call.emplaces with
      | false => rfl
      | true => simpa using gentle emplaces
    rw [whole, if_neg Bool.false_ne_true] at slots
    exact ⟨s', run, this, slots, rfl⟩
  cases call with
  | pushBack v | pushBackMove v | emplaceBack v => exact insertion v rfl
  | popFront =>
      have nonempty : s.this.count_ ≠ 0 := by
        simpa [Update.touches, RingBuffer.empty] using touches
      obtain ⟨s', run, this, slots⟩ := run_popFront_zero (s := s.armed (some 0)) rfl nonempty
      exact ⟨s', run, this, slots, rfl⟩
  | clear => cases touches

theorem fails_iff (h : Holds c s q) (trial : Trial T) :
    trial.fails q = true ↔ trial.fuse = some 0 ∧ trial.call.touches s.this = true := by
  obtain ⟨fuse, call⟩ := trial
  cases call with
  | popFront => simp [Trial.fails, Update.touches, RingBuffer.empty, h.count]
  | _ => simp [Trial.fails, Update.touches]

/-- A safe trial does what the queue says. -/
theorem Holds.tried (h : Holds c s q) (safe : SafeAt s trial) :
    trial.Answered q (reply trial.call.perform (s.armed trial.fuse)) ∧
      Holds c (s.tried trial) (trial.step c q) := by
  have exactly := fails_iff h trial
  rw [Trial.Answered, Trial.step, State.tried]
  by_cases fails : trial.fails q = true
  · obtain ⟨goes, touches⟩ := exactly.mp fails
    obtain ⟨s', run, unmoved⟩ := run_struck touches (safe.2 goes)
    rw [if_pos fails, if_pos fails, goes, reply_of_error run, final_of_error run]
    exact ⟨rfl, h.of_same unmoved.this unmoved.slots (unmoved.quiet.trans h.quiet.symm)⟩
  · have calm : trial.fuse = some 0 → trial.call.touches s.this = false := by
      intro goes
      rw [← Bool.not_eq_true]
      exact fun touches => fails (exactly.mpr ⟨goes, touches⟩)
    have fits : FitsAt s trial.call := by
      by_cases goes : trial.fuse = some 0
      · apply fitsAt_of_not_insert
        cases call : trial.call with
        | popFront | clear => rfl
        | _ => rw [call] at calm; cases calm goes
      · exact safe.1 goes
    obtain ⟨answer, left⟩ := armed_calm h.quiet calm
    rw [if_neg fails, if_neg fails, answer, left]
    exact h.perform fits

/-- Where a trial does what the queue says it was safe. -/
theorem Holds.safe_of_survives (h : Holds c s q) (survives : SurvivesAt c s q trial) :
    SafeAt s trial := by
  obtain ⟨-, seen, -⟩ := survives
  constructor
  · intro lasts
    have calmly : trial.fuse = some 0 → trial.call.touches s.this = false :=
      fun goes => absurd goes lasts
    have left := (armed_calm h.quiet calmly).2
    have calm : ¬ trial.fails q = true := fun fails => lasts ((fails_iff h trial).mp fails).1
    rw [State.tried, left, Trial.step, if_neg calm] at seen
    exact h.fits_of_observes seen
  · intro goes emplaces
    by_contra full
    rw [Bool.not_eq_false] at full
    obtain ⟨v, call⟩ := Update.emplaces_iff.mp emplaces
    have fails : trial.fails q = true := by simp [Trial.fails, goes, call]
    have inserted : trial.call.inserted = some v := by rw [call]; rfl
    obtain ⟨s', run, this, slots⟩ := run_insert_zero (s := s.armed (some 0)) rfl inserted
    have spoiled : (trial.call.emplaces && (s.armed (some 0)).this.full_) = true := by
      rw [emplaces, State.armed_this, full]
      rfl
    rw [spoiled, if_pos rfl] at slots
    have some : 0 < q.length := by
      rw [h.full_iff.mp full]
      exact h.counted.pos
    have read := seen.index 0 (by rwa [Trial.step, if_pos fails])
    have same : (s'.armed none).this = s.this := this
    rw [State.tried, goes, final_of_error run,
      reply_ask_index (by rw [same, h.count]; exact some)] at read
    have blank : (s'.armed none).cell (((s'.armed none).this.head_ + 0) %
        (s'.armed none).this.capacity_) = .raw := by
      rw [same, h.counted.capacity, Cyclic.position_zero h.counted.head, State.armed_cell, State.cell,
        this, slots]
      exact Function.update_self ..
    rw [blank] at read
    cases read

end Attempts

/-- A run on a new buffer in which any call may be made to throw goes on as if the
    calls that threw had not been made, with the occupied slots live and no other,
    exactly when no `emplace_back` throws on a full buffer and every push that
    finds room finds `tail_` right behind the last element or throws. -/
theorem survives_throwing_iff {c : Nat} (pos : 0 < c) (a : A) (trials : List (Trial T)) :
    Lockstep.Agrees State.tried (Trial.step c) (SurvivesAt c) (State.created c a) [] trials ↔
      Lockstep.Guarded State.tried SafeAt (State.created c a) trials := by
  apply Lockstep.agrees_iff_guarded (R := Holds c)
  · exact fun _ _ _ h safe => (h.tried safe).2
  · intro s q trial h safe
    obtain ⟨answered, holds⟩ := h.tried safe
    exact ⟨answered, holds.observes, holds.live_iff⟩
  · exact fun _ _ _ h survives => h.safe_of_survives survives
  · exact Holds.created pos a

/-- Capacity 2: a push that throws on the full buffer, a pop that throws, and
    everything else as if they had not been there. -/
theorem survives_throwing_two :
    Lockstep.Agrees State.tried (Trial.step 2) (SurvivesAt 2)
      (State.created 2 () : State Nat Unit) []
      [⟨none, .emplaceBack 1⟩, ⟨some 0, .emplaceBack 2⟩, ⟨some 3, .pushBack 3⟩,
        ⟨some 0, .pushBackMove 4⟩, ⟨some 0, .popFront⟩, ⟨none, .popFront⟩, ⟨none, .pushBack 5⟩] :=
  (survives_throwing_iff (by decide) () _).mpr (by decide)

end Dkyb
