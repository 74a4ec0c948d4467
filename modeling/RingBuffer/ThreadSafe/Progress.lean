import RingBuffer.ThreadSafe.WakeUps

/-! # Which calls depend on other threads

A thread left to itself, with no wake-up but its own timeout, can end its call within
four steps, unless the call is a blocking insertion that sleeps or finds the
buffer full. So where nobody can end a call alone, producers wait, and as long as
no wake-up is lost they wait for room.
-/

namespace Dkyb

open Stateful

variable {T A : Type}

namespace RingBufferThreadSafe

open Transitions Tally

/-- A step that asks nothing of the other threads: no new call, and a sleeper only
    wakes by its timeout. -/
def Phase.unaided : Phase T → Action T → Bool
  | _, .call _ => false
  | .asleep method, .wake => method.timed
  | _, _ => true

/-- Where a call cannot end without another thread. -/
def Phase.needsOthers (full : Bool) : Phase T → Bool
  | .asleep method => method.producer
  | .woken method => method.producer && full
  | _ => false

/-- What the phases of any run satisfy: only a call that waits sleeps, and only one
    with an inner call still to come is past its lock. -/
def Phase.proper : Phase T → Bool
  | .asleep method => method.condition.isSome
  | .unlocked method => method.remainder.isSome
  | _ => true

/-- Neither asleep nor about to notify. -/
def Phase.calm : Phase T → Bool
  | .asleep _ | .notifying .. => false
  | _ => true

theorem Phase.proper_wake {x : Phase T} (proper : x.proper = true) : x.wake.proper = true := by
  cases x with
  | asleep method => rfl
  | _ => exact proper

theorem Phase.producer_of_needsOthers {x : Phase T} {full : Bool} (needs : x.needsOthers full = true) :
    ∃ method, method.producer = true ∧ (x = .asleep method ∨ x = .woken method) := by
  cases x with
  | asleep method => exact ⟨method, needs, .inl rfl⟩
  | woken method => exact ⟨method, (Bool.and_eq_true_iff.mp needs).1, .inr rfl⟩
  | _ => cases needs

/-- While there is room, only a sleeper needs the others. -/
theorem Phase.blocked_of_needsOthers {x : Phase T} (needs : x.needsOthers false = true) :
    x.blockedProducer = true := by
  cases x with
  | asleep method => exact needs
  | woken method => cases (Bool.and_eq_true_iff.mp needs).2
  | _ => cases needs

theorem Phase.atRest_of_needsOthers {x : Phase T} (needs : x ≠ .idle → x.needsOthers false = true) :
    x.atRest = true := by
  by_cases idle : x = .idle
  · rw [idle]
    rfl
  · exact Phase.atRest_of_blocked (Phase.blocked_of_needsOthers (needs idle))

theorem Method.timed_of_condition {method : Method T} (waits : method.condition.isSome = true)
    (free : method.producer = false) : method.timed = true := by
  cases method <;> first | rfl | (cases waits; done) | cases free

variable {ι : Type}

/-- A step of thread `i` that asks nothing of the others. -/
def Alone (i : ι) (sys : System ι T A) (l : Label ι T) : Prop :=
  l.thread = i ∧ (sys.phase i).unaided l.action = true

/-- The call of thread `i` ends within `n` steps of its own. -/
def FinishesAlone [Fintype ι] [DecidableEq ι] (i : ι) (sys : System ι T A) (n : Nat) : Prop :=
  Within System.step (Alone i) (fun after => after.phase i = .idle) sys n

/-! ## Critical sections that sleep -/

section Sections

variable {s : State T A}

theorem leave_awake {result : Result T} {notice : Notice} :
    Outcome.leave result s notice ≠ .sleep := by
  intro sleeps
  cases sleeps

theorem callAndLeave_awake (inner : Update T) (returns : Reply T → Result T) (notice : Notice) :
    callAndLeave inner returns notice s ≠ .sleep := by
  unfold callAndLeave
  split <;> exact leave_awake

theorem access_awake (query : Query) : access (T := T) query s ≠ .sleep := by
  unfold access
  split <;> exact leave_awake

theorem waitFor_expired {ready : Bool} {met timedOut : Outcome T A} (onMet : met ≠ .sleep)
    (onTimeout : timedOut ≠ .sleep) : waitFor ready true met timedOut ≠ .sleep := by
  unfold waitFor
  split
  · exact onMet
  · simpa using onTimeout

theorem insertWhenRoom_sleeps {inner : Update T} (sleeps : insertWhenRoom inner s = .sleep) :
    s.this.full = true := by
  unfold insertWhenRoom at sleeps
  split at sleeps
  · assumption
  · exact absurd sleeps (callAndLeave_awake _ _ _)

/-- With its timeout over, only a blocking insertion goes to sleep. -/
theorem critical_sleeps {method : Method T} (sleeps : method.critical method.timed s = .sleep) :
    method.producer = true ∧ s.this.full = true := by
  cases method with
  | pushBack | pushBackMove | emplaceBack => exact ⟨rfl, insertWhenRoom_sleeps sleeps⟩
  | tryPushBack | tryPushBackMove =>
      simp only [Method.critical, tryPushBack, tryPushBackMove, insertIfRoom] at sleeps
      split at sleeps
      · cases sleeps
      · exact absurd sleeps (callAndLeave_awake _ _ _)
  | pushBackWithTimeout | pushBackWithTimeoutMove | popFrontWithTimeout =>
      exact absurd sleeps (waitFor_expired (by simp) leave_awake)
  | waitUntilNotEmpty | waitUntilNotFull =>
      exact absurd sleeps (waitFor_expired leave_awake leave_awake)
  | tryPopFront =>
      simp only [Method.critical, tryPopFront] at sleeps
      split at sleeps
      · cases sleeps
      · exact absurd sleeps (callAndLeave_awake _ _ _)
  | popFront | clear => exact absurd sleeps (callAndLeave_awake _ _ _)
  | front | back | index => exact absurd sleeps (access_awake _)
  | size | capacity | empty | full | available => cases sleeps

end Sections

/-! ## Steps that are always enabled -/

section Enabled

variable [Fintype ι] [DecidableEq ι]

theorem notifyOne_enabled (cv : CondVar) (phase : ι → Phase T) :
    ∃ chosen phase', notifyOne cv chosen phase = some phase' := by
  by_cases sleeper : ∃ k, (phase k).sleepsOn cv = true
  · obtain ⟨k, sleeps⟩ := sleeper
    exact ⟨some k, _, if_pos sleeps⟩
  · refine ⟨none, phase, if_pos fun k => ?_⟩
    rw [← Bool.not_eq_true]
    exact fun sleeps => sleeper ⟨k, sleeps⟩

/-- Some notification can be delivered, and it does not touch an idle thread. -/
theorem deliver_enabled (notice : Notice) (phase : ι → Phase T) :
    ∃ chosen phase', notice.deliver chosen phase = some phase' ∧
      ∀ i, phase i = .idle → phase' i = .idle := by
  cases notice with
  | silent => exact ⟨none, phase, rfl, fun _ idle => idle⟩
  | one cv =>
      obtain ⟨chosen, phase', delivered⟩ := notifyOne_enabled cv phase
      refine ⟨chosen, phase', delivered, fun i idle => ?_⟩
      exact (notifyOne_keeps (f := fun x => x = .idle) Phase.idle_wake delivered i).mpr idle
  | all cv =>
      refine ⟨none, notifyAll cv phase, rfl, fun i idle => ?_⟩
      exact (notifyAll_keeps (f := fun x => x = .idle) Phase.idle_wake i).mpr idle

variable {sys : System ι T A} {i : ι} {method : Method T}

omit [Fintype ι] in
theorem own_phase {buffer : State T A} {x : Phase T} :
    (⟨buffer, Function.update sys.phase i x⟩ : System ι T A).phase i = x :=
  Function.update_self ..

/-- A woken thread that has no room to wait for gets past its section. -/
theorem recheck_enabled (woken : sys.phase i = .woken method)
    (ready : (method.producer && sys.buffer.this.full) = false) :
    ∃ chosen after report, sys.step ⟨i, .recheck method.timed, chosen⟩ = some (after, report) ∧
      (after.phase i = .idle ∨ ∃ method, after.phase i = .unlocked method) := by
  have may : (method.timed && !method.timed) = false := Bool.and_not_self _
  simp only [System.step, woken, may, Bool.false_eq_true, if_false]
  cases section_ : method.critical method.timed sys.buffer with
  | sleep =>
      obtain ⟨producer, full⟩ := critical_sleeps section_
      rw [producer, full] at ready
      cases ready
  | unlock => exact ⟨none, _, _, rfl, .inr ⟨method, own_phase⟩⟩
  | leave result buffer notice =>
      obtain ⟨chosen, phase', delivered, keeps⟩ :=
        deliver_enabled notice (Function.update sys.phase i .idle)
      refine ⟨chosen, _, _, congrArg (Option.map _) delivered, .inl ?_⟩
      exact keeps i (Function.update_self ..)

theorem wake_enabled (asleep : sys.phase i = .asleep method) : sys.step ⟨i, .wake, none⟩ =
    some (⟨sys.buffer, Function.update sys.phase i (.woken method)⟩, none) := by
  simp only [System.step, asleep]

/-- A thread in no call, or woken in this one, runs its critical section. -/
theorem section_enabled (outside : sys.phase i = .idle ∨ sys.phase i = .woken method) :
    ∃ action, (action = .call method ∨ action = .recheck false) ∧
      sys.running ⟨i, action, none⟩ = some method ∧ sys.step ⟨i, action, none⟩ =
        sys.settle i method none (method.critical false sys.buffer) := by
  rcases outside with idle | woken
  · exact ⟨.call method, .inl rfl, by simp only [System.running, idle],
      by simp only [System.step, idle]⟩
  · exact ⟨.recheck false, .inr rfl, by simp only [System.running, woken],
      by simp [System.step, woken]⟩

theorem proceed_enabled (unlocked : sys.phase i = .unlocked method)
    (rest : method.remainder.isSome = true) :
    ∃ after report, sys.step ⟨i, .proceed, none⟩ = some (after, report) ∧
      (after.phase i = .idle ∨ ∃ cv method result, after.phase i = .notifying cv method result) := by
  obtain ⟨⟨inner, returns, cv⟩, remainder⟩ := Option.isSome_iff_exists.mp rest
  simp only [System.step, unlocked, remainder]
  cases inner.perform.run sys.buffer with
  | ok reply s => exact ⟨_, _, rfl, .inr ⟨cv, method, returns reply, own_phase⟩⟩
  | error e s => exact ⟨_, _, rfl, .inl own_phase⟩

theorem notify_enabled {cv : CondVar} {result : Result T}
    (notifying : sys.phase i = .notifying cv method result) :
    ∃ chosen phase, sys.step ⟨i, .notify, chosen⟩ =
      some (⟨sys.buffer, phase⟩, some (method, result)) ∧ phase i = .idle := by
  obtain ⟨chosen, phase', delivered, keeps⟩ :=
    deliver_enabled (.one cv) (Function.update sys.phase i .idle)
  refine ⟨chosen, phase', ?_, keeps i (Function.update_self ..)⟩
  simp only [System.step, notifying]
  exact congrArg (Option.map _) delivered

end Enabled

/-! ## What a step does to the other threads -/

section Others

variable [Fintype ι] [DecidableEq ι]

theorem notifyOne_woken {cv : CondVar} {chosen : Option ι}
    {phase phase' : ι → Phase T} (delivered : notifyOne cv chosen phase = some phase') (k : ι) :
    phase' k = phase k ∨ phase' k = (phase k).wake := by
  rcases notifyOne_cases delivered with ⟨j, -, rfl⟩ | ⟨-, rfl⟩
  · by_cases same : k = j
    · subst same
      exact .inr (Function.update_self ..)
    · exact .inl (Function.update_of_ne same ..)
  · exact .inl rfl

theorem Turn.others_woken {sys sys' : System ι T A}
    {l : Label ι T} {report : Report T} (turn : Turn sys l sys' report) {k : ι}
    (other : k ≠ l.thread) :
    sys'.phase k = sys.phase k ∨ sys'.phase k = (sys.phase k).wake := by
  have apart : ∀ x : Phase T, Function.update sys.phase l.thread x k = sys.phase k :=
    fun x => Function.update_of_ne other x sys.phase
  cases turn with
  | wakes | waits | unlocks | passes | appends | takes | throws => exact .inl (apart _)
  | inserts _ _ _ _ _ _ _ _ _ _ _ delivered | removes _ _ _ _ _ delivered
  | notifies _ _ _ _ _ delivered =>
      have woken := notifyOne_woken delivered k
      rwa [apart] at woken
  | clears =>
      simp only [notifyAll, apart]
      split
      · exact .inr rfl
      · exact .inl rfl

end Others

/-! ## Proper phases -/

section Runs

variable [Fintype ι] [DecidableEq ι] {c : Nat} {sys sys' : System ι T A} {l : Label ι T}
  {report : Report T} {i : ι}

theorem proper_step (phases : ∀ k, (sys.phase k).proper = true) (turn : Turn sys l sys' report) :
    ∀ k, (sys'.phase k).proper = true := by
  have becomes : ∀ x : Phase T, x.proper = true →
      ∀ k, (Function.update sys.phase l.thread x k).proper = true :=
    fun x proper => forall_update (P := fun x => x.proper = true) phases proper
  have left := becomes .idle rfl
  have one : ∀ {cv phase'}, notifyOne cv l.chosen (Function.update sys.phase l.thread .idle) =
      some phase' → ∀ k, (phase' k).proper = true := by
    intro cv phase' delivered
    rcases notifyOne_cases delivered with ⟨k, -, rfl⟩ | ⟨-, rfl⟩
    · exact forall_update (P := fun x => x.proper = true) left (Phase.proper_wake (left k))
    · exact left
  cases turn with
  | wakes method => exact becomes _ rfl
  | waits method cv inside waitsOn => exact becomes (.asleep method) (by simp [Phase.proper, waitsOn])
  | unlocks method cv inside waitsOn met rest => exact becomes (.unlocked method) rest
  | passes | throws => exact left
  | appends | takes => exact becomes _ rfl
  | inserts method inner v result phase inside inserted offered room locked succeeds delivered =>
      exact one delivered
  | removes method phase inside pops nonempty delivered => exact one delivered
  | notifies cv method result phase notifying delivered => exact one delivered
  | clears =>
      intro k
      simp only [notifyAll]
      split
      · exact Phase.proper_wake (left k)
      · exact left k

/-- What any run leaves behind. -/
structure Proper (c : Nat) (sys : System ι T A) : Prop where
  counted : sys.buffer.this.Counted c
  quiet : sys.buffer.mem.fuse = none
  phases : ∀ k, (sys.phase k).proper = true

namespace Proper

theorem step (h : Proper c sys) (stepped : sys.step l = some (sys', report)) : Proper c sys' := by
  have turn := turn_of_step h.quiet stepped
  obtain ⟨counted, quiet⟩ := turn.counted h.counted h.quiet
  exact ⟨counted, quiet, proper_step h.phases turn⟩

theorem of_reaches {ok : System ι T A → Label ι T → Prop} (pos : 0 < c) (a : A)
    (reached : Reaches System.step ok (System.start c a) sys) : Proper c sys := by
  refine reached.invariant ?_ fun s l s' r h _ stepped => h.step stepped
  exact ⟨(counted_start pos a).1, (counted_start pos a).2, fun _ => rfl⟩

end Proper

/-- A call has something to notify about only when it has done what it was asked to. -/
def Phase.Succeeds (x : Phase T) : Prop := ∀ cv method result, x = .notifying cv method result →
  method.timedPush = true ∧ result = .bool true ∨
    method = .popFrontWithTimeout ∧ ∃ content, result = .element content

theorem Phase.succeeds_wake (x : Phase T) : x.wake.Succeeds = x.Succeeds := by
  cases x <;> simp [Phase.Succeeds, Phase.wake]

theorem succeeds_step (all : ∀ k, (sys.phase k).Succeeds) (turn : Turn sys l sys' report) (k : ι) :
    (sys'.phase k).Succeeds := by
  by_cases own : k = l.thread
  · subst own
    have self : ∀ x : Phase T, Function.update sys.phase l.thread x l.thread = x :=
      fun x => Function.update_self l.thread x sys.phase
    cases turn with
    | wakes | waits | unlocks | passes | throws =>
        simp only [self]
        exact nofun
    | appends method inner v phase timed =>
        simp only [self]
        rintro _ _ _ ⟨⟩
        exact .inl ⟨timed, rfl⟩
    | takes =>
        simp only [self]
        rintro _ _ _ ⟨⟩
        exact .inr ⟨rfl, _, rfl⟩
    | inserts _ _ _ _ _ _ _ _ _ _ _ delivered | removes _ _ _ _ _ delivered
    | notifies _ _ _ _ _ delivered =>
        rw [notifyOne_keeps Phase.succeeds_wake delivered, self]
        exact nofun
    | clears =>
        simp only [notifyAll_keeps Phase.succeeds_wake, self]
        exact nofun
  · rw [turn.others Phase.succeeds_wake own]
    exact all k

theorem succeeds_of_reaches {ok : System ι T A → Label ι T → Prop} (pos : 0 < c) (a : A)
    (reached : Reaches System.step ok (System.start c a) sys) (k : ι) : (sys.phase k).Succeeds := by
  have both : Proper c sys ∧ ∀ k, (sys.phase k).Succeeds := by
    have begins : Reaches System.step ok (System.start c a : System ι T A) _ := .start
    refine reached.invariant (I := fun sys => Proper c sys ∧ ∀ k, (sys.phase k).Succeeds)
      ⟨.of_reaches pos a begins, fun _ => nofun⟩ ?_
    rintro s l s' r ⟨proper, all⟩ - stepped
    exact ⟨proper.step stepped, succeeds_step all (turn_of_step proper.quiet stepped)⟩
  exact both.2 k

namespace Proper

/-! ## Alone -/

theorem finishes_notifying {cv : CondVar} {method : Method T} {result : Result T}
    (notifying : sys.phase i = .notifying cv method result) : FinishesAlone i sys 1 := by
  obtain ⟨chosen, phase, stepped, idle⟩ := notify_enabled notifying
  exact .next ⟨rfl, by rw [notifying]; rfl⟩ stepped (.here idle)

theorem finishes_unlocked (h : Proper c sys) {method : Method T}
    (unlocked : sys.phase i = .unlocked method) : FinishesAlone i sys 2 := by
  have rest := h.phases i
  rw [unlocked] at rest
  obtain ⟨after, report, stepped, ended⟩ := proceed_enabled unlocked rest
  refine .next ⟨rfl, by rw [unlocked]; rfl⟩ stepped ?_
  rcases ended with idle | ⟨cv, method, result, notifying⟩
  · exact .here idle
  · exact finishes_notifying notifying

theorem finishes_woken (h : Proper c sys) {method : Method T} (woken : sys.phase i = .woken method)
    (ready : (method.producer && sys.buffer.this.full) = false) : FinishesAlone i sys 3 := by
  obtain ⟨chosen, after, report, stepped, ended⟩ := recheck_enabled woken ready
  refine .next ⟨rfl, by rw [woken]; rfl⟩ stepped ?_
  rcases ended with idle | ⟨method, unlocked⟩
  · exact .here idle
  · exact (h.step stepped).finishes_unlocked unlocked

/-- Four steps at most: the timeout, the predicate, the inner call, the notification. -/
theorem finishes (h : Proper c sys) (free : (sys.phase i).needsOthers sys.buffer.this.full = false) :
    FinishesAlone i sys 4 := by
  cases phase : sys.phase i with
  | idle => exact .here phase
  | asleep method =>
      rw [phase] at free
      have waits := h.phases i
      rw [phase] at waits
      have timed := Method.timed_of_condition waits free
      have ready : (method.producer && sys.buffer.this.full) = false := by
        rw [show method.producer = false from free, Bool.false_and]
      exact .next ⟨rfl, by rw [phase]; exact timed⟩ (wake_enabled phase)
        ((h.step (wake_enabled phase)).finishes_woken own_phase ready)
  | woken method =>
      rw [phase] at free
      exact (h.finishes_woken phase free).mono (by omega)
  | unlocked method => exact (h.finishes_unlocked phase).mono (by omega)
  | notifying cv method result => exact (finishes_notifying phase).mono (by omega)

/-- A call that needs the others still needs them after any step of its own. -/
theorem stuck_step (stuck : (sys.phase i).needsOthers sys.buffer.this.full = true)
    (alone : Alone i sys l) (stepped : sys.step l = some (sys', report)) :
    sys'.buffer = sys.buffer ∧ (sys'.phase i).needsOthers sys.buffer.this.full = true := by
  obtain ⟨rfl, unaided⟩ := alone
  obtain ⟨i, action, chosen⟩ := l
  cases phase : sys.phase i with
  | asleep method =>
      simp only [phase] at stuck unaided
      cases action with
      | wake => cases method <;> cases stuck <;> cases unaided
      | call => cases unaided
      | recheck | proceed | notify => simp [System.step, phase] at stepped
  | woken method =>
      simp only [phase, Phase.needsOthers, Bool.and_eq_true] at stuck
      obtain ⟨producer, full⟩ := stuck
      cases action with
      | call => cases unaided
      | recheck expired =>
          simp only [System.step, phase] at stepped
          split at stepped
          · cases stepped
          · have sleeps : method.critical expired sys.buffer = .sleep := by
              cases method <;> first | exact if_pos full | cases producer
            rw [sleeps] at stepped
            cases stepped
            exact ⟨rfl, by rw [own_phase]; exact producer⟩
      | wake | proceed | notify => simp [System.step, phase] at stepped
  | idle | unlocked | notifying =>
      rw [phase] at stuck
      cases stuck

theorem stuck_run (stuck : (sys.phase i).needsOthers sys.buffer.this.full = true)
    (reached : Reaches System.step (Alone i) sys sys') :
    sys'.buffer = sys.buffer ∧ (sys'.phase i).needsOthers sys.buffer.this.full = true := by
  refine reached.invariant (I := fun s => s.buffer = sys.buffer ∧
    (s.phase i).needsOthers sys.buffer.this.full = true) ⟨rfl, stuck⟩ ?_
  rintro s l s' r ⟨same, stuck⟩ alone stepped
  rw [← same] at stuck ⊢
  exact stuck_step stuck alone stepped

theorem never_finishes (stuck : (sys.phase i).needsOthers sys.buffer.this.full = true)
    (reached : Reaches System.step (Alone i) sys sys') : sys'.phase i ≠ .idle := by
  intro idle
  have still := (stuck_run stuck reached).2
  rw [idle] at still
  cases still

theorem not_finishesAlone (stuck : (sys.phase i).needsOthers sys.buffer.this.full = true) (n : Nat) :
    ¬ FinishesAlone i sys n := by
  intro ends
  obtain ⟨after, alone, idle⟩ := ends.reaches
  exact never_finishes stuck alone idle

end Proper

/-- In every state of every run, a thread left to itself can end its call within four
    steps, unless it is in a blocking insertion that sleeps or finds the buffer full;
    then no number of its own steps ends it. -/
theorem finishes_alone_iff (pos : 0 < c) (a : A) (sys : System ι T A)
    (reached : Reaches System.step (fun _ _ => True) (System.start c a) sys) (i : ι) :
    (FinishesAlone i sys 4 ↔ (sys.phase i).needsOthers sys.buffer.this.full = false) ∧
      ((sys.phase i).needsOthers sys.buffer.this.full = true →
        ∀ after, Reaches System.step (Alone i) sys after → after.phase i ≠ .idle) := by
  have proper := Proper.of_reaches pos a reached
  refine ⟨⟨fun ends => ?_, proper.finishes⟩, fun stuck after => Proper.never_finishes stuck⟩
  rw [← Bool.not_eq_true]
  exact fun stuck => Proper.not_finishesAlone stuck 4 ends

/-- Capacity 1: a pop past its lock ends alone, a producer asleep behind it does not. -/
theorem finishes_alone_iff_one : ∃ sys : System (Fin 3) Nat Unit,
    FinishesAlone 2 sys 4 ∧ ¬ FinishesAlone 1 sys 4 := by
  let schedule : List (Label (Fin 3) Nat) :=
    [⟨0, .call (.pushBack 7), none⟩, ⟨1, .call (.pushBack 8), none⟩,
      ⟨2, .call .popFrontWithTimeout, none⟩]
  have ran : (exec System.step (fun _ _ => True) (System.start 1 ()) schedule).map (fun sys =>
      ((sys.phase 2).needsOthers sys.buffer.this.full,
        (sys.phase 1).needsOthers sys.buffer.this.full)) = some (false, true) := by decide +kernel
  obtain ⟨sys, ran, facts⟩ := Option.map_eq_some_iff.mp ran
  simp only [Prod.mk.injEq] at facts
  obtain ⟨free, stuck⟩ := facts
  have ends := finishes_alone_iff (by decide) () sys (Reaches.of_exec ran)
  refine ⟨sys, (ends 2).1.mpr free, fun alone => ?_⟩
  rw [(ends 1).1.mp alone] at stuck
  cases stuck

/-- A run in which no `wait_until_not_full` takes away a wake-up only gets stuck on a
    full buffer: where no call in progress can end alone, there is no room, and each
    of them is a blocking insertion. -/
theorem stuck_only_when_full (pos : 0 < c) (a : A) (sys : System ι T A)
    (reached : Reaches System.step WakeUpSpared (System.start c a) sys)
    (busy : ∃ i, sys.phase i ≠ .idle)
    (stuck : ∀ i, sys.phase i ≠ .idle → ¬ FinishesAlone i sys 4) :
    sys.buffer.this.full = true ∧ ∀ i, sys.phase i = .idle ∨
      ∃ method, method.producer = true ∧ (sys.phase i = .asleep method ∨ sys.phase i = .woken method) := by
  have proper := Proper.of_reaches pos a reached
  have served : Served c sys := by
    refine reached.invariant (Served.start pos a) ?_
    intro s l s' r served spared stepped
    exact served.step spared (turn_of_step served.quiet stepped)
  have needs : ∀ i, sys.phase i ≠ .idle → (sys.phase i).needsOthers sys.buffer.this.full = true := by
    intro i apart
    rw [← Bool.not_eq_false]
    exact fun free => stuck i apart (proper.finishes free)
  have full : sys.buffer.this.full = true := by
    rw [← Bool.not_eq_false]
    intro room
    rw [room] at needs
    obtain ⟨i, apart⟩ := busy
    exact served.not_stranded ⟨room, i, Phase.blocked_of_needsOthers (needs i apart), fun k _ =>
      Phase.atRest_of_needsOthers (needs k)⟩
  refine ⟨full, fun i => ?_⟩
  by_cases idle : sys.phase i = .idle
  · exact .inl idle
  · exact .inr (Phase.producer_of_needsOthers (needs i idle))

/-- Capacity 1, one element, and two producers that wait for its removal. -/
theorem stuck_only_when_full_one : ∃ sys : System (Fin 2) Nat Unit,
    (∀ i, sys.phase i ≠ .idle) ∧ sys.buffer.this.full = true := by
  let schedule : List (Label (Fin 2) Nat) :=
    [⟨0, .call (.pushBack 7), none⟩, ⟨1, .call (.pushBack 8), none⟩,
      ⟨0, .call (.emplaceBack 9), none⟩]
  have ran : (exec System.step WakeUpSpared (System.start 1 ()) schedule).map (fun sys =>
      (sys.phase 0, sys.phase 1, sys.buffer.this.full)) =
        some (.asleep (.emplaceBack 9), .asleep (.pushBack 8), true) := by decide +kernel
  obtain ⟨sys, ran, facts⟩ := Option.map_eq_some_iff.mp ran
  simp only [Prod.mk.injEq] at facts
  obtain ⟨zero, one, -⟩ := facts
  have needs : ∀ i, (sys.phase i).needsOthers sys.buffer.this.full = true := by
    intro i
    match i with
    | 0 => rw [zero]; rfl
    | 1 => rw [one]; rfl
  have busy : ∀ i, sys.phase i ≠ .idle := by
    intro i idle
    have needed := needs i
    rw [idle] at needed
    cases needed
  exact ⟨sys, busy, (stuck_only_when_full (by decide) () sys (Reaches.of_exec ran) ⟨0, busy 0⟩
    fun i _ => Proper.not_finishesAlone (needs i) 4).1⟩

end Runs

end RingBufferThreadSafe

end Dkyb
