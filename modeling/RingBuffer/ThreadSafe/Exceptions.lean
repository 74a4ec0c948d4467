import RingBuffer.ThreadSafe.Journal
import RingBuffer.ThreadSafe.WakeUps
import RingBuffer.ThrowingRuns

/-! # Elements that throw, under threads

In any step of any thread an element operation of the buffer may be made to throw,
which leaves both sides as they were; the move of a removed element into the result is
not one of them. The lock is released and nothing is notified, so the elements are as
they were; but a thread that was woken for a slot and throws leaves the slot to nobody.
-/

namespace Dkyb

open Stateful

variable {T A : Type}

/-- How a call ends, with nothing set to throw any more. -/
def disarmed {α : Type} : EStateM.Result Exn (State T A) α → EStateM.Result Exn (State T A) α
  | .ok a s => .ok a (s.armed none)
  | .error e s => .error e (s.armed none)

section Calls

variable {s : State T A} {call : Update T} {fuse : Option Nat}

theorem disarmed_run {α : Type} {x : Op T A α} {s t : State T A} (answer : reply x s = reply x t)
    (left : (final x s).armed none = final x t) : disarmed (x.run s) = x.run t := by
  unfold reply at answer
  unfold final at left
  cases first : x.run s <;> cases second : x.run t <;> simp_all [disarmed]

/-- A fuse that does not go off in the call. -/
theorem run_calm (quiet : s.mem.fuse = none)
    (calm : fuse = some 0 → call.touches s.this = false) :
    disarmed (call.perform.run (s.armed fuse)) = call.perform.run s := by
  obtain ⟨answer, left⟩ := armed_calm quiet calm
  exact disarmed_run answer left

end Calls

namespace RingBufferThreadSafe

open Transitions Tally

/-! ## One step -/

/-- A step, and how many element operations succeed in it before one throws. -/
structure Attempt (ι T : Type) where
  fuse : Option Nat
  label : Label ι T
  deriving DecidableEq

variable {ι : Type} [Fintype ι] [DecidableEq ι]

namespace System

def armed (sys : System ι T A) (fuse : Option Nat) : System ι T A :=
  ⟨sys.buffer.armed fuse, sys.phase⟩

def attempt (sys : System ι T A) (x : Attempt ι T) : Option (System ι T A × Report T) :=
  ((sys.armed x.fuse).step x.label).map fun next => (next.1.armed none, next.2)

end System

/-- A critical section that gets to an operation on an element. -/
def Method.touches (rb : RingBuffer A) (method : Method T) : Bool :=
  method.remainder.isNone &&
    (method.offered.isSome && !rb.full || method.pops && !rb.empty)

/-- The call that gets to an operation on an element in this step. -/
def System.touches (sys : System ι T A) (l : Label ι T) : Option (Method T) :=
  match sys.running l with
  | some method => if method.touches sys.buffer.this then some method else none
  | none => match l.action, sys.phase l.thread with
    | .proceed, .unlocked method =>
        if method.timedPush || !sys.buffer.this.empty then some method else none
    | _, _ => none

/-- The call that is thrown out of by its element. -/
def System.strikes (sys : System ι T A) (x : Attempt ι T) : Option (Method T) :=
  if x.fuse = some 0 then sys.touches x.label else none

def Outcome.disarmed : Outcome T A → Outcome T A
  | .leave result buffer notice => .leave result (buffer.armed none) notice
  | .sleep => .sleep
  | .unlock => .unlock

section Sections

variable {s : State T A} {method : Method T} {fuse : Option Nat}

theorem callAndLeave_calm (quiet : s.mem.fuse = none) {inner : Update T}
    (calm : fuse = some 0 → inner.touches s.this = false) (returns : Reply T → Result T)
    (notice : Notice) : (callAndLeave inner returns notice (s.armed fuse)).disarmed =
      callAndLeave inner returns notice s := by
  unfold callAndLeave
  rw [← run_calm quiet calm]
  cases inner.perform.run (s.armed fuse) <;> rfl

theorem callAndLeave_struck {inner : Update T} (touches : inner.touches s.this = true)
    (gentle : inner.emplaces = true → s.this.full_ = false) (returns : Reply T → Result T)
    (notice : Notice) : ∃ s', Unmoved s s' ∧
      (callAndLeave inner returns notice (s.armed (some 0))).disarmed =
        .leave (.thrown .element) s' .silent := by
  obtain ⟨s', run, unmoved⟩ := run_struck touches gentle
  refine ⟨_, unmoved, ?_⟩
  unfold callAndLeave
  rw [run]
  rfl

theorem access_calm (quiet : s.mem.fuse = none) (query : Query) :
    (access query (s.armed fuse)).disarmed = access query s := by
  have looked : ∀ p, (s.looked p).armed none = s.looked p :=
    fun p => State.armed_of_fuse (s := s.looked p) quiet
  unfold access
  by_cases empty : s.this.count_ = 0
  · rw [run_ask_empty empty, run_ask_empty (s := s.armed fuse) empty]
    simp only [Outcome.disarmed]
    exact congrArg (Outcome.leave _ · _) (State.armed_of_fuse quiet)
  · cases query with
    | front =>
        rw [run_ask_front empty, run_ask_front (s := s.armed fuse) empty]
        exact congrArg (Outcome.leave _ · _) (looked s.headPtr)
    | back =>
        rw [run_ask_back empty, run_ask_back (s := s.armed fuse) empty]
        exact congrArg (Outcome.leave _ · _) (looked _)
    | index i =>
        by_cases inside : i < s.this.count_
        · rw [run_ask_index inside, run_ask_index (s := s.armed fuse) inside]
          exact congrArg (Outcome.leave _ · _) (State.armed_of_fuse
            (s := (s.mapMem (Memory.emit (.modulo s.this.capacity_))).looked (s.occupiedPtr i)) quiet)
        · have outside := Nat.not_lt.mp inside
          rw [run_ask_outside outside, run_ask_outside (s := s.armed fuse) outside]
          exact congrArg (Outcome.leave _ · _) (State.armed_of_fuse quiet)

/-- Nothing happens to a section that does not get to an element, or whose fuse lasts. -/
theorem critical_calm (quiet : s.mem.fuse = none) (expired : Bool)
    (calm : fuse = some 0 → method.touches s.this = false) :
    (method.critical expired (s.armed fuse)).disarmed = method.critical expired s := by
  have again : (s.armed fuse).armed none = s := State.armed_of_fuse quiet
  have leaves : ∀ result, (Outcome.leave result (s.armed fuse) .silent).disarmed =
      .leave result s .silent :=
    fun result => congrArg (Outcome.leave result · .silent) again
  have waits : ∀ (ready : Bool) (met timedOut : Outcome T A),
      (waitFor ready expired met timedOut).disarmed =
        waitFor ready expired met.disarmed timedOut.disarmed := by
    intro ready met timedOut
    cases ready <;> cases expired <;> rfl
  have insertion : ∀ (inner : Update T) (returns : Reply T → Result T) (notice : Notice),
      s.this.full = false → method.offered.isSome = true → method.remainder = none →
        (callAndLeave inner returns notice (s.armed fuse)).disarmed =
          callAndLeave inner returns notice s := by
    intro inner returns notice room offers locked
    refine callAndLeave_calm quiet (fun goes => ?_) returns notice
    have untouched := calm goes
    simp [Method.touches, locked, offers, room] at untouched
  have removal : method.pops = true → method.remainder = none →
      (callAndLeave .popFront popped (.one .notFull) (s.armed fuse)).disarmed =
        callAndLeave .popFront popped (.one .notFull) s := by
    intro pops locked
    refine callAndLeave_calm quiet (fun goes => ?_) popped _
    have untouched := calm goes
    simp only [Method.touches, locked, pops, Option.isNone_none, Bool.true_and,
      Bool.or_eq_false_iff] at untouched
    exact untouched.2
  cases method with
  | pushBack v | pushBackMove v | emplaceBack v =>
      cases full : s.this.full with
      | true => simp only [Method.critical, pushBack, pushBackMove, emplaceBack, insertWhenRoom,
          State.armed_this, full, if_true, Outcome.disarmed]
      | false =>
          simp only [Method.critical, pushBack, pushBackMove, emplaceBack, insertWhenRoom,
            State.armed_this, full, Bool.false_eq_true, if_false]
          exact insertion _ _ _ full rfl rfl
  | tryPushBack v | tryPushBackMove v =>
      cases full : s.this.full with
      | true =>
          simp only [Method.critical, tryPushBack, tryPushBackMove, insertIfRoom, State.armed_this,
            full, if_true]
          exact leaves _
      | false =>
          simp only [Method.critical, tryPushBack, tryPushBackMove, insertIfRoom, State.armed_this,
            full, Bool.false_eq_true, if_false]
          exact insertion _ _ _ full rfl rfl
  | pushBackWithTimeout | pushBackWithTimeoutMove | popFrontWithTimeout | waitUntilNotEmpty
  | waitUntilNotFull =>
      refine (waits _ _ _).trans ?_
      simp only [Outcome.disarmed, again]
      rfl
  | popFront => exact removal rfl rfl
  | tryPopFront =>
      cases empty : s.this.empty with
      | true =>
          simp only [Method.critical, tryPopFront, State.armed_this, empty, if_true]
          exact leaves _
      | false =>
          simp only [Method.critical, tryPopFront, State.armed_this, empty, Bool.false_eq_true,
            if_false]
          exact removal rfl rfl
  | front | back | index => exact access_calm quiet _
  | size | capacity | empty | full | available => exact leaves _
  | clear => exact callAndLeave_calm quiet (fun _ => rfl) _ _

theorem critical_struck (expired : Bool) (touches : method.touches s.this = true) :
    ∃ s', Unmoved s s' ∧ (method.critical expired (s.armed (some 0))).disarmed =
      .leave (.thrown .element) s' .silent := by
  have room : method.pops = false → s.this.full = false := by
    intro keeps
    simp only [Method.touches, keeps, Bool.false_and, Bool.or_false, Bool.and_eq_true,
      Bool.not_eq_true'] at touches
    exact touches.2.2
  have pops : method.offered = none → (Update.popFront : Update T).touches s.this = true := by
    intro offersNothing
    simp only [Method.touches, offersNothing, Option.isSome_none, Bool.false_and, Bool.false_or,
      Bool.and_eq_true] at touches
    exact touches.2.2
  have removal : ∀ {notice}, method.offered = none → ∃ s', Unmoved s s' ∧
      (callAndLeave .popFront popped notice (s.armed (some 0))).disarmed =
        .leave (.thrown .element) s' .silent :=
    fun offersNothing => callAndLeave_struck (pops offersNothing) (fun h => by cases h) popped _
  cases method with
  | pushBack v | pushBackMove v | emplaceBack v =>
      simp only [Method.critical, pushBack, pushBackMove, emplaceBack, insertWhenRoom,
        State.armed_this, room rfl, Bool.false_eq_true, if_false]
      exact callAndLeave_struck rfl (fun _ => room rfl) _ _
  | tryPushBack v | tryPushBackMove v =>
      simp only [Method.critical, tryPushBack, tryPushBackMove, insertIfRoom, State.armed_this,
        room rfl, Bool.false_eq_true, if_false]
      exact callAndLeave_struck rfl (fun _ => room rfl) _ _
  | popFront => exact removal rfl
  | tryPopFront =>
      have nonempty : s.this.empty = false := (Bool.not_eq_true' _).mp (pops rfl)
      simp only [Method.critical, tryPopFront, State.armed_this, nonempty, Bool.false_eq_true,
        if_false]
      exact removal rfl
  | _ => cases touches

end Sections

section Steps

variable {sys sys' : System ι T A} {x : Attempt ι T} {report : Report T}

theorem settle_disarmed (quiet : sys.buffer.mem.fuse = none) (fuse : Option Nat) (i : ι)
    (method : Method T) (chosen : Option ι) (outcome : Outcome T A) :
    ((sys.armed fuse).settle i method chosen outcome).map (fun next => (next.1.armed none, next.2)) =
      sys.settle i method chosen outcome.disarmed := by
  have again : (sys.buffer.armed fuse).armed none = sys.buffer := State.armed_of_fuse quiet
  cases outcome with
  | sleep | unlock =>
      simp only [System.settle, Outcome.disarmed, System.armed, Option.map_some, again]
  | leave result buffer notice =>
      simp only [System.settle, Outcome.disarmed, System.armed, Option.map_map]
      rfl

omit [Fintype ι] [DecidableEq ι] in
theorem touches_running {l : Label ι T} {method : Method T} (inside : sys.running l = some method) :
    sys.touches l = if method.touches sys.buffer.this then some method else none := by
  simp only [System.touches, inside]

omit [Fintype ι] [DecidableEq ι] in
theorem touches_proceed {l : Label ι T} {method : Method T} (action : l.action = .proceed)
    (phase : sys.phase l.thread = .unlocked method) : sys.touches l =
      if method.timedPush || !sys.buffer.this.empty then some method else none := by
  simp only [System.touches, System.running, action, phase]

/-- Where nothing throws, an attempt is the step. -/
theorem attempt_calm (quiet : sys.buffer.mem.fuse = none) (calm : sys.strikes x = none) :
    sys.attempt x = sys.step x.label := by
  obtain ⟨fuse, l⟩ := x
  have again : (sys.buffer.armed fuse).armed none = sys.buffer := State.armed_of_fuse quiet
  have spares : fuse = some 0 → sys.touches l = none := by
    rintro rfl
    exact calm
  have section_ : ∀ method expired, sys.running l = some method →
      ((sys.armed fuse).settle l.thread method l.chosen
        (method.critical expired (sys.buffer.armed fuse))).map
          (fun next => (next.1.armed none, next.2)) =
        sys.settle l.thread method l.chosen (method.critical expired sys.buffer) := by
    intro method expired inside
    rw [settle_disarmed quiet, critical_calm quiet expired]
    intro goes
    have spared := spares goes
    rw [touches_running inside] at spared
    simpa using spared
  obtain ⟨i, action, chosen⟩ := l
  simp only [System.attempt]
  cases action with
  | call method =>
      cases phase : sys.phase i with
      | idle =>
          simp only [System.step, System.armed, phase]
          exact section_ method false (by simp only [System.running, phase])
      | _ => simp [System.step, System.armed, phase]
  | recheck expired =>
      cases phase : sys.phase i with
      | woken method =>
          simp only [System.step, System.armed, phase]
          split
          · rfl
          · exact section_ method expired (by simp only [System.running, phase])
      | _ => simp [System.step, System.armed, phase]
  | proceed =>
      cases phase : sys.phase i with
      | unlocked method =>
          simp only [System.step, System.armed, phase]
          cases rest : method.remainder with
          | none => rfl
          | some remainder =>
              obtain ⟨inner, returns, cv⟩ := remainder
              have calm : fuse = some 0 → inner.touches sys.buffer.this = false := by
                intro goes
                have spared := spares goes
                rw [touches_proceed rfl phase] at spared
                rcases remainder_cases rest with ⟨v, timed, -⟩ | ⟨rfl, rfl, -⟩
                · simp [timed] at spared
                · simpa [Method.timedPush, Update.touches] using spared
              simp only
              rw [← run_calm quiet calm]
              cases inner.perform.run (sys.buffer.armed fuse) <;> rfl
      | _ => simp [System.step, System.armed, phase]
  | wake | notify =>
      cases phase : sys.phase i <;>
        simp [System.step, System.armed, phase, again, Function.comp_def]

omit [Fintype ι] [DecidableEq ι] in
theorem touches_cases {l : Label ι T} {method : Method T} (touches : sys.touches l = some method) :
    (sys.running l = some method ∧ method.touches sys.buffer.this = true) ∨
      (sys.phase l.thread = .unlocked method ∧ l.action = .proceed ∧
        (method.timedPush || !sys.buffer.this.empty) = true) := by
  cases inside : sys.running l with
  | some running =>
      rw [touches_running inside] at touches
      split at touches
      · cases touches
        exact .inl ⟨rfl, ‹_›⟩
      · cases touches
  | none =>
      simp only [System.touches, inside] at touches
      split at touches
      · split at touches
        · cases touches
          exact .inr ⟨‹_›, ‹_›, ‹_›⟩
        · cases touches
      · cases touches

/-- The section of a call that is thrown out of. -/
theorem settle_struck {i : ι} {method : Method T} {chosen : Option ι} {expired : Bool}
    (quiet : sys.buffer.mem.fuse = none) (touches : method.touches sys.buffer.this = true)
    (settled : ((sys.armed (some 0)).settle i method chosen
      (method.critical expired (sys.buffer.armed (some 0)))).map
        (fun next => (next.1.armed none, next.2)) = some (sys', report)) :
    Unmoved sys.buffer sys'.buffer ∧ sys'.phase = Function.update sys.phase i .idle ∧
      report = some (method, .thrown .element) := by
  obtain ⟨s', unmoved, outcome⟩ := critical_struck expired touches
  rw [settle_disarmed quiet, outcome] at settled
  cases settled
  exact ⟨unmoved, rfl, rfl⟩

/-- A call that is thrown out of by its element leaves the elements as they were. -/
theorem attempt_struck (quiet : sys.buffer.mem.fuse = none) {method : Method T}
    (strikes : sys.strikes x = some method) (attempted : sys.attempt x = some (sys', report)) :
    Unmoved sys.buffer sys'.buffer ∧
      sys'.phase = Function.update sys.phase x.label.thread .idle ∧
      report = some (method, .thrown .element) := by
  obtain ⟨fuse, i, action, chosen⟩ := x
  unfold System.strikes at strikes
  split at strikes
  swap
  · cases strikes
  obtain rfl : fuse = some 0 := ‹_›
  simp only [System.attempt, System.step, System.armed] at attempted
  rcases touches_cases strikes with ⟨inside, touches⟩ | ⟨phase, act, touches⟩
  · rcases running_cases inside with ⟨phase, act⟩ | ⟨phase, expired, act⟩
    · simp only at phase act
      subst act
      rw [phase] at attempted
      exact settle_struck quiet touches attempted
    · simp only at phase act
      subst act
      rw [phase] at attempted
      simp only at attempted
      split at attempted
      · cases attempted
      · exact settle_struck quiet touches attempted
  · simp only at phase act
    subst act
    rw [phase] at attempted
    cases rest : method.remainder with
    | none => simp [rest] at attempted
    | some remainder =>
        obtain ⟨inner, returns, cv⟩ := remainder
        have reaches : inner.touches sys.buffer.this = true ∧ inner.emplaces = false := by
          rcases remainder_cases rest with ⟨v, timed, offered, inserted, -⟩ | ⟨rfl, rfl, -⟩
          · cases method <;> cases timed <;> cases rest <;> exact ⟨rfl, rfl⟩
          · exact ⟨touches, rfl⟩
        obtain ⟨s', run, unmoved⟩ := run_struck reaches.1 fun emplaces => by
          rw [reaches.2] at emplaces
          cases emplaces
        simp only [rest, run, Option.map_some] at attempted
        cases attempted
        exact ⟨unmoved, rfl, rfl⟩

/-- Any call that throws, for whatever reason, leaves the elements as they were. -/
theorem unmoved_of_thrown (quiet : sys.buffer.mem.fuse = none) {method : Method T} {e : Exn}
    (attempted : sys.attempt x = some (sys', some (method, .thrown e))) :
    Unmoved sys.buffer sys'.buffer := by
  cases strikes : sys.strikes x with
  | none =>
      rw [attempt_calm quiet strikes] at attempted
      rw [unchanged_of_failed (turn_of_step quiet attempted) rfl]
      exact ⟨rfl, rfl, quiet⟩
  | some method => exact (attempt_struck quiet strikes attempted).1

end Steps

/-! ## The elements -/

/-- The journal of a run in which elements may throw. -/
def Journal.note (j : Journal ι T) (sys : System ι T A) (x : Attempt ι T) (report : Report T) :
    Journal ι T :=
  j.record sys x.label report

section Runs

variable {sys sys' : System ι T A} {x : Attempt ι T} {report : Report T} {j : Journal ι T} {c : Nat}

/-- Step lemma. -/
theorem Kept.attempt (h : Kept c sys j) (attempted : sys.attempt x = some (sys', report)) :
    Kept c sys' (j.note sys x report) := by
  cases strikes : sys.strikes x with
  | none =>
      rw [attempt_calm h.quiet strikes] at attempted
      exact h.step attempted
  | some method =>
      obtain ⟨unmoved, -, rfl⟩ := attempt_struck h.quiet strikes attempted
      have touches : sys.touches x.label = some method := by
        unfold System.strikes at strikes
        split at strikes
        · exact strikes
        · cases strikes
      have answer : sys.answered x.label (some (method, .thrown .element)) =
          some (method, .thrown .element) ∧ sys.discards x.label = [] := by
        rcases touches_cases touches with ⟨inside, touches⟩ | ⟨phase, action, -⟩
        · refine ⟨answered_running inside, discards_nothing inside ?_⟩
          rintro rfl
          cases touches
        · refine ⟨answered_throws action phase _, discards_outside ?_⟩
          simp only [System.running, action, phase]
      refine h.idle unmoved.this unmoved.slots (unmoved.quiet.trans h.quiet.symm) ?_ ?_ answer.2
      · rw [answer.1, Report.inserted_of_failed rfl]
      · rw [answer.1, Report.popped_of_failed rfl]

/-- A thread that comes for a free slot leaves without taking it. -/
def System.abandonsSlot (sys : System ι T A) (x : Attempt ι T) : Bool :=
  sys.leavesSlot x.label ||
    ((sys.strikes x).isSome && (sys.phase x.label.thread).onItsWay && !sys.buffer.this.full)

/-- A slot that is abandoned has others coming for it, or no producer sleeps. -/
def SlotSpared (sys : System ι T A) (x : Attempt ι T) : Prop :=
  sys.abandonsSlot x = true → (∃ k, (sys.phase k).blockedProducer = true) →
    sys.freeSlots < tally Phase.onItsWay sys.phase

instance (sys : System ι T A) (x : Attempt ι T) : Decidable (SlotSpared sys x) :=
  inferInstanceAs (Decidable (_ → _ → _))

namespace Served

/-- Step lemma. -/
theorem attempt (h : Served c sys) (spared : SlotSpared sys x)
    (attempted : sys.attempt x = some (sys', report)) : Served c sys' := by
  cases strikes : sys.strikes x with
  | none =>
      rw [attempt_calm h.quiet strikes] at attempted
      refine h.step (fun leaves => spared ?_) (turn_of_step h.quiet attempted)
      simp only [System.abandonsSlot, leaves, Bool.true_or]
  | some method =>
      obtain ⟨unmoved, phase, -⟩ := attempt_struck h.quiet strikes attempted
      have same : sys'.freeSlots = sys.freeSlots := by
        simp only [System.freeSlots, unmoved.this]
      refine ⟨unmoved.this ▸ h.counted, unmoved.quiet, ?_⟩
      rw [same, phase]
      cases coming : (sys.phase x.label.thread).onItsWay with
      | false =>
          apply h.covers.update rfl
          rw [coming]
          exact Nat.le_refl _
      | true =>
          cases full : sys.buffer.this.full with
          | true =>
              rw [freeSlots_full h.counted full]
              exact .zero _
          | false =>
              have more : Covers (sys.freeSlots + 1) sys.phase :=
                spared (by simp [System.abandonsSlot, strikes, coming, full])
              apply more.update rfl
              rw [coming]
              exact Nat.le_refl _

/-- A thread that abandons the last slot anybody comes for strands the producers. -/
theorem stranded_of_abandoned (h : Served c sys) (taken : ¬ SlotSpared sys x)
    (others : ∀ k, k ≠ x.label.thread → (sys.phase k).atRest = true)
    (attempted : sys.attempt x = some (sys', report)) : Stranded sys' := by
  simp only [SlotSpared, not_forall] at taken
  obtain ⟨abandons, ⟨i, blocked⟩, few⟩ := taken
  cases strikes : sys.strikes x with
  | none =>
      have leaves : sys.leavesSlot x.label = true := by
        simpa [System.abandonsSlot, strikes] using abandons
      rw [attempt_calm h.quiet strikes] at attempted
      exact stranded_of_taken (fun spared => few (spared leaves ⟨i, blocked⟩)) others attempted
  | some method =>
      obtain ⟨unmoved, phase, -⟩ := attempt_struck h.quiet strikes attempted
      have left : sys.buffer.this.full = false ∧
          (sys.phase x.label.thread).blockedProducer = false := by
        rcases Bool.or_eq_true_iff.mp abandons with leaves | thrown
        · obtain ⟨woken, notFull, -⟩ := leavesSlot_cases leaves
          rw [woken]
          exact ⟨notFull, rfl⟩
        · simp only [Bool.and_eq_true, Bool.not_eq_true'] at thrown
          obtain ⟨⟨-, coming⟩, notFull⟩ := thrown
          refine ⟨notFull, ?_⟩
          cases here : sys.phase x.label.thread with
          | asleep => rw [here] at coming; cases coming
          | _ => rfl
      have apart : i ≠ x.label.thread := by
        rintro rfl
        rw [left.2] at blocked
        cases blocked
      have still : ∀ k, k ≠ x.label.thread → sys'.phase k = sys.phase k := by
        intro k other
        rw [phase, Function.update_of_ne other]
      refine ⟨?_, i, ?_, ?_⟩
      · rw [unmoved.this]
        exact left.1
      · rw [still i apart]
        exact blocked
      · intro k _
        by_cases own : k = x.label.thread
        · subst own
          rw [phase, Function.update_self]
          rfl
        · rw [still k own]
          exact others k own

end Served

/-- In a run in which no call that is thrown out of, and no `wait_until_not_full`, takes
    away a wake-up that a sleeping producer needs, no producer is ever stranded; and a
    step taken while all others are at rest strands one exactly when it does. -/
theorem exceptions_strand_iff (pos : 0 < c) (a : A)
    (reached : Reaches System.attempt SlotSpared (System.start c a) sys) :
    ¬ Stranded sys ∧ ∀ x sys' report, sys.attempt x = some (sys', report) →
      (∀ k, k ≠ x.label.thread → (sys.phase k).atRest = true) →
        (¬ Stranded sys' ↔ SlotSpared sys x) := by
  have served : Served c sys :=
    reached.invariant (Served.start pos a) fun s x s' r served spared => served.attempt spared
  refine ⟨served.not_stranded, fun x sys' report attempted others => ?_⟩
  constructor
  · intro never
    by_contra taken
    exact never (served.stranded_of_abandoned taken others attempted)
  · intro spared
    exact (served.attempt spared attempted).not_stranded

/-- Capacity 1 and two blocked pushes: the pop wakes the first of them, whose element
    throws, and the second sleeps on beside the free slot. -/
theorem exceptions_strand_iff_one : ∃ (sys sys' : System (Fin 3) Nat Unit) (report : Report Nat),
    sys.phase 1 = .woken (.pushBack 8) ∧
      sys.attempt ⟨some 0, 1, .recheck false, none⟩ = some (sys', report) ∧
      ¬ Stranded sys ∧ Stranded sys' := by
  let schedule : List (Attempt (Fin 3) Nat) :=
    [⟨none, 0, .call (.pushBack 7), none⟩, ⟨none, 1, .call (.pushBack 8), none⟩,
      ⟨some 0, 2, .call (.pushBack 9), none⟩, ⟨none, 0, .call .popFront, some 1⟩]
  let last : Attempt (Fin 3) Nat := ⟨some 0, 1, .recheck false, none⟩
  have ran : (exec System.attempt SlotSpared (System.start 1 ()) schedule).map (fun sys =>
      (sys.phase 1, decide (∀ k, k ≠ 1 → (sys.phase k).atRest = true),
        decide (SlotSpared sys last), (sys.attempt last).isSome)) =
          some (.woken (.pushBack 8), true, false, true) := by decide +kernel
  obtain ⟨sys, ran, facts⟩ := Option.map_eq_some_iff.mp ran
  simp only [Prod.mk.injEq, decide_eq_true_eq, decide_eq_false_iff_not] at facts
  obtain ⟨woken, others, taken, enabled⟩ := facts
  obtain ⟨⟨sys', report⟩, attempted⟩ := Option.isSome_iff_exists.mp enabled
  obtain ⟨never, exactly⟩ := exceptions_strand_iff (by decide) () (Reaches.of_exec ran)
  refine ⟨sys, sys', report, woken, attempted, never, ?_⟩
  by_contra spared
  exact taken ((exactly last sys' report attempted others).mp spared)

end Runs

end RingBufferThreadSafe

end Dkyb
