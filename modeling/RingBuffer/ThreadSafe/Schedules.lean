import RingBuffer.ThreadSafe.Completion

/-! # A schedule in which `run_simulation` returns

Where nothing stands in the way, the schedule is built step by step. Each step keeps
the way open and brings some thread nearer to its end: sleepers wake by their timeout,
packets that are promised are fetched, missing ones are made, and when all are consumed
the threads are joined.
-/

namespace Dkyb

open Stateful Signed Tally

variable {A : Type}

namespace RingBufferThreadSafe

open Transitions

namespace ProducerConsumerExample

section Schedules

variable {P K : Nat} {V : Type} {items c : Nat}

/-! ## How far the threads are from their end

A packet still to be made weighs 16 and one in the buffer 10. It gets lighter on its
way, and so does a thread with every step towards the end of its call or its loop.
-/

def ProducerAt.weight (items : Nat) (x : ProducerAt) (phase : Phase (DataPacket V)) : Nat :=
  16 * (items - x.count) + match x, phase with
    | .adding _, _ => 15
    | .loop _, .idle => 14
    | .loop _, .asleep _ => 13
    | .loop _, .woken _ => 12
    | .loop _, .unlocked _ => 11
    | .loop _, .notifying .. => 0

def ConsumerAt.weight (stopFlag : Bool) : ConsumerAt → Phase (DataPacket V) → Nat
  | .popping, .notifying .. => 8
  | .processing, _ => 7
  | .checking, _ => if stopFlag then 1 else 6
  | .popping, .idle => 5
  | .popping, .asleep _ => 4
  | .popping, .woken _ => 3
  | .popping, .unlocked _ => 2
  | .finished, _ => 0

def MonitorAt.weight : MonitorAt → Nat
  | .sizing => 3
  | .measuring => 2
  | .checking => 1
  | .finished => 0

def MainAt.weight : MainAt → Nat
  | .joiningProducers => 5
  | .stopping => 4
  | .joiningConsumers => 3
  | .joiningMonitor => 2
  | .dividing => 1
  | .finished => 0

def weight (items : Nat) (s : Simulation P K) :
    Thread P K → Phase (DataPacket V) → Nat
  | .producer i, phase => (s.producer i).weight items phase
  | .consumer j, phase => (s.consumer j).weight s.stopFlag phase
  | .monitor, _ => s.monitor.weight
  | .main, _ => s.main.weight

/-- What is left to do, with the packets in the buffer. -/
def toDo (items : Nat) (e : Execution (Thread P K) (DataPacket V) A (Simulation P K)) : Nat :=
  10 * e.sys.buffer.this.count_ + ∑ thread, weight items e.locals thread (e.sys.phase thread)

theorem ProducerAt.weight_wake (x : ProducerAt) (phase : Phase (DataPacket V)) :
    x.weight items phase.wake ≤ x.weight items phase := by
  cases x <;> cases phase <;> simp [ProducerAt.weight, Phase.wake]

theorem ConsumerAt.weight_wake (stopFlag : Bool) (x : ConsumerAt) (phase : Phase (DataPacket V)) :
    x.weight stopFlag phase.wake ≤ x.weight stopFlag phase := by
  cases x <;> cases phase <;> simp [ConsumerAt.weight, Phase.wake]

theorem ConsumerAt.weight_stop {before after : Bool} (stop : before = true → after = true)
    (x : ConsumerAt) (phase : Phase (DataPacket V)) :
    x.weight after phase ≤ x.weight before phase := by
  cases x <;> cases phase <;> cases before <;> cases after <;> simp_all [ConsumerAt.weight]

variable {e e' : Execution (Thread P K) (DataPacket V) A (Simulation P K)}
  {thread : Thread P K} {report : Report (DataPacket V)}

theorem Aside.weight_step (items : Nat) (h : Aside thread e e') :
    (∑ k, weight items e'.locals k (e'.sys.phase k)) +
        weight items e.locals thread (e.sys.phase thread) ≤
      (∑ k, weight items e.locals k (e.sys.phase k)) +
        weight items e'.locals thread (e'.sys.phase thread) := by
  refine sum_exchange_le (fun k => weight items e.locals k (e.sys.phase k))
    (fun k => weight items e'.locals k (e'.sys.phase k)) thread fun k apart => ?_
  cases k with
  | producer i =>
      simp only [weight, h.elsewhere.producer i apart.symm]
      rcases h.phases _ apart with same | woken
      · rw [same]
      · rw [woken]
        exact ProducerAt.weight_wake _ _
  | consumer j =>
      simp only [weight, h.elsewhere.consumer j apart.symm]
      refine (ConsumerAt.weight_stop h.stop _ _).trans ?_
      rcases h.phases _ apart with same | woken
      · rw [same]
      · rw [woken]
        exact ConsumerAt.weight_wake _ _ _
  | monitor => simp only [weight, h.elsewhere.monitor apart.symm, le_refl]
  | main => simp only [weight, h.main apart.symm, le_refl]

/-! ## The next step -/

/-- Some step leaves the way to the end open and less to do. -/
def Advances (items : Nat) (e : Execution (Thread P K) (DataPacket V) A (Simulation P K)) : Prop :=
  ∃ m e' report, (runSimulation items).step e m = some (e', report) ∧ CanReturn items e' ∧
    toDo items e' < toDo items e

/-- Only the main thread raises the stop flag. -/
theorem raised_by {s s' : Simulation P K} (going : own items s thread = some s')
    (up : s'.stopFlag = true) : s.stopFlag = true ∨ thread = .main ∧ s.main = .stopping := by
  rcases own_cases going with ⟨i, _, rfl, -, rfl⟩ | ⟨j, rfl, ⟨-, rfl⟩ | ⟨-, rfl⟩⟩ | ⟨rfl, -, rfl⟩ |
    ⟨rfl, next, flag, rfl, moved⟩
  · exact .inl up
  · exact .inl up
  · exact .inl up
  · exact .inl up
  · rcases moved with ⟨-, -, -, rfl⟩ | ⟨at_, -⟩ | ⟨-, -, -, rfl⟩ | ⟨-, -, -, rfl⟩ | ⟨-, -, -, rfl⟩
    · exact .inl up
    · exact .inr ⟨rfl, at_⟩
    · exact .inl up
    · exact .inl up
    · exact .inl up

/-- A step of a thread by itself; the stop flag is only raised when all is consumed. -/
theorem advances_own (can : CanReturn items e) {s : Simulation P K}
    (idle : e.sys.phase thread = .idle) (going : own items e.locals thread = some s)
    (inTime : thread = .main → e.locals.main = .stopping → P * items ≤ e.locals.totalConsumed)
    (lower : weight items s thread (.idle : Phase (DataPacket V)) <
      weight items e.locals thread (.idle : Phase (DataPacket V))) : Advances items e := by
  obtain ⟨relied, rounds, -⟩ := own_totals idle going
  have steps : (runSimulation items : Program (Thread P K) (DataPacket V) _).own e.locals thread =
    some s := going
  refine ⟨.own thread, { e with locals := s }, none, ?_, ?_, ?_⟩
  · simp [Program.step, can.running, Program.proceed, idle, steps]
  · refine ⟨can.running, can.unlost, relied ▸ can.enough, fun up => ?_, can.produces,
      can.consumers⟩
    rcases raised_by going up with before | ⟨rfl, stopping⟩
    · exact (can.attended before).trans rounds
    · exact ((inTime rfl stopping).trans (Nat.le_add_right _ _)).trans rounds
  · have load := (Aside.own going : Aside thread e { e with locals := s }).weight_step items
    simp only [idle] at load
    simp only [toDo]
    omega

/-- A step inside the buffer. -/
theorem advances_buffer (sound : Sound items c e) (can : CanReturn items e)
    {l : Label (Thread P K) (DataPacket V)} {sys : System (Thread P K) (DataPacket V) A}
    (permitted : (runSimulation items).permits e l = true) (ran : e.sys.step l = some (sys, report))
    (after : (runSimulation items).absorb
      { e with sys := sys, journal := e.journal.record e.sys l report } l.thread report = e')
    (running : e'.terminated = false)
    (unlost : Report.inserted (e.sys.answered l report) = none ∨ e.sys.buffer.this.full = false)
    (enough : e.locals.totalConsumed + relying e + Aside.reliesOn e' l.thread ≤
      P * items + Aside.reliesOn e l.thread)
    (attended : e.locals.stopFlag = true → P * items + Aside.inRoundOf e l.thread ≤
      e.locals.totalConsumed + tally ConsumerAt.inRound e.locals.consumer +
        Aside.inRoundOf e' l.thread)
    (lower : 10 * e'.sys.buffer.this.count_ +
        weight items e'.locals l.thread (e'.sys.phase l.thread) <
      10 * e.sys.buffer.this.count_ + weight items e.locals l.thread (e.sys.phase l.thread)) :
    Advances items e := by
  have turn := turn_of_step sound.audit.steady.quiet ran
  have aside : Aside l.thread e e' :=
    after ▸ Aside.buffer items turn (e.journal.record e.sys l report)
  have relied := aside.relying_step
  have rounds := aside.inRound_step
  have load := aside.weight_step items
  obtain ⟨total, flag⟩ := absorb_totals items l.thread report
    { e with sys := sys, journal := e.journal.record e.sys l report }
  rw [after] at total flag
  simp only at total flag
  refine ⟨.buffer l, e', report, ?_, ⟨running, ?_, by omega, fun up => ?_, can.produces, can.consumers⟩, ?_⟩
  · rw [Program.step, if_neg (by simp [can.running])]
    simp only [permitted, if_true, ran, Option.map_some, after]
  · have journal := ((runSimulation items).absorb_sys
      { e with sys := sys, journal := e.journal.record e.sys l report } l.thread report).2
    rw [after] at journal
    rw [journal]
    rcases unlost with nothing | room
    · simp [Journal.record, nothing, can.unlost]
    · simp [Journal.record, room, can.unlost]
  · have left := attended (flag.symm.trans up)
    omega
  · simp only [toDo]
    omega

/-- A step after which the thread relies on no more packets than before. -/
theorem CanReturn.enough_of (can : CanReturn items e) {before after : Nat} (le : after ≤ before) :
    e.locals.totalConsumed + relying e + after ≤ P * items + before :=
  Nat.add_le_add can.enough le

/-- A step after which the thread is in its round if it was before. -/
theorem CanReturn.attended_of (can : CanReturn items e) {before after : Nat} (le : before ≤ after)
    (up : e.locals.stopFlag = true) : P * items + before ≤
      e.locals.totalConsumed + tally ConsumerAt.inRound e.locals.consumer + after :=
  Nat.add_le_add (can.attended up) le

/-- A thread that still has to notify. -/
theorem advances_notify (sound : Sound items c e) (can : CanReturn items e) {cv : CondVar}
    {method : Method (DataPacket V)} {result : Result (DataPacket V)}
    (notifying : e.sys.phase thread = .notifying cv method result) : Advances items e := by
  obtain ⟨chosen, phase, ran, idle⟩ := notify_enabled notifying
  have called : calls items e.locals thread method = true :=
    sound.audit.steady.abides thread method (by rw [notifying]; rfl)
  have outside : ∀ report, e.sys.answered ⟨thread, .notify, chosen⟩ report = none :=
    fun _ => answered_outside (.inr rfl)
  cases thread with
  | producer i =>
      obtain ⟨count, packet, at_, below, rfl⟩ := calls_producer called
      obtain ⟨-, rfl⟩ | ⟨⟨⟩, -⟩ := sound.succeeds _ _ _ _ notifying
      apply advances_buffer sound can rfl ran rfl
      · simp [Program.absorb, runSimulation, returns, Result.failed, can.running]
      · exact .inl (by rw [outside]; rfl)
      · exact can.enough_of le_rfl
      · exact can.attended_of le_rfl
      · simp [Program.absorb, runSimulation, returns, Result.failed, weight, notifying, idle, at_,
          ProducerAt.weight, ProducerAt.count]
        omega
  | consumer j =>
      obtain ⟨popping, rfl⟩ := calls_consumer called
      obtain ⟨⟨⟩, -⟩ | ⟨-, content, rfl⟩ := sound.succeeds _ _ _ _ notifying
      apply advances_buffer sound can rfl ran rfl
      · simp [Program.absorb, runSimulation, returns, can.running]
      · exact .inl (by rw [outside]; rfl)
      · apply can.enough_of
        simp [Program.absorb, runSimulation, returns, Aside.reliesOn, notifying, popping,
          ConsumerAt.relies]
      · apply can.attended_of
        simp [Program.absorb, runSimulation, returns, Aside.inRoundOf, popping, ConsumerAt.inRound]
      · simp [Program.absorb, runSimulation, returns, weight, notifying, popping, ConsumerAt.weight]
  | monitor =>
      obtain ⟨-, rfl⟩ | ⟨-, rfl⟩ := calls_monitor called
      all_goals obtain ⟨⟨⟩, -⟩ | ⟨⟨⟩, -⟩ := sound.succeeds _ _ _ _ notifying
  | main =>
      rw [calls_main] at called
      cases called

/-- A sleeper whose timeout is over. -/
theorem advances_wake (sound : Sound items c e) (can : CanReturn items e)
    {method : Method (DataPacket V)} (asleep : e.sys.phase thread = .asleep method) :
    Advances items e := by
  have called : calls items e.locals thread method = true :=
    sound.audit.steady.abides thread method (by rw [asleep]; rfl)
  have waits := sound.proper thread
  rw [asleep] at waits
  have nothing : Report.inserted (e.sys.answered ⟨thread, .wake, none⟩ none) = none := by
    rw [answered_outside (.inl rfl)]
    rfl
  cases thread with
  | producer i =>
      obtain ⟨count, packet, at_, -⟩ := calls_producer called
      apply advances_buffer sound can rfl (wake_enabled asleep) rfl can.running (.inl nothing)
      · exact can.enough_of le_rfl
      · exact can.attended_of le_rfl
      · simp [Program.absorb, weight, at_, asleep, ProducerAt.weight]
  | consumer j =>
      obtain ⟨popping, rfl⟩ := calls_consumer called
      apply advances_buffer sound can rfl (wake_enabled asleep) rfl can.running (.inl nothing)
      · apply can.enough_of
        simp [Program.absorb, Aside.reliesOn, popping, asleep, ConsumerAt.relies]
      · exact can.attended_of le_rfl
      · simp [Program.absorb, weight, popping, asleep, ConsumerAt.weight]
  | monitor =>
      obtain ⟨-, rfl⟩ | ⟨-, rfl⟩ := calls_monitor called
      all_goals cases waits
  | main =>
      rw [calls_main] at called
      cases called

/-! Threads that are in no call of their own. -/

theorem producer_idle (sound : Sound items c e) {i : Fin P} {count : Nat}
    (at_ : e.locals.producer i = .adding count) : e.sys.phase (.producer i) = .idle := by
  apply sound.audit.steady.idle
  intro method
  rw [← Bool.not_eq_true]
  intro called
  obtain ⟨_, _, other, -⟩ := calls_producer called
  rw [at_] at other
  cases other

theorem consumer_idle (sound : Sound items c e) {j : Fin K}
    (apart : e.locals.consumer j ≠ .popping) : e.sys.phase (.consumer j) = .idle := by
  apply sound.audit.steady.idle
  intro method
  rw [← Bool.not_eq_true]
  exact fun called => apart (calls_consumer called).1

/-- The call a consumer is in. -/
theorem consumer_pops (sound : Sound items c e) {j : Fin K} {method : Method (DataPacket V)}
    (inside : (e.sys.phase (.consumer j)).method = some method) : method = .popFrontWithTimeout :=
  (calls_consumer (sound.audit.steady.abides _ _ inside)).2

theorem advances_adding (sound : Sound items c e) (can : CanReturn items e) {i : Fin P} {count : Nat}
    (at_ : e.locals.producer i = .adding count) : Advances items e := by
  have going : own items e.locals (.producer i) = some { e.locals with
      producer := Function.update e.locals.producer i (.loop count)
      totalProduced := e.locals.totalProduced + 1 } := by simp only [own, at_]
  apply advances_own can (producer_idle sound at_) going (fun same => by cases same)
  simp [weight, at_, ProducerAt.weight, ProducerAt.count]

theorem advances_processing (sound : Sound items c e) (can : CanReturn items e) {j : Fin K}
    (at_ : e.locals.consumer j = .processing) : Advances items e := by
  have going : own items e.locals (.consumer j) = some { e.locals with
      consumer := Function.update e.locals.consumer j .checking
      totalConsumed := e.locals.totalConsumed + 1 } := by simp only [own, at_]
  apply advances_own can (consumer_idle sound (by simp [at_])) going (fun same => by cases same)
  simp only [weight, at_, Function.update_self, ConsumerAt.weight]
  split <;> omega

theorem permits_section {method : Method (DataPacket V)} {action : Action (DataPacket V)}
    (called : calls items e.locals thread method = true)
    (runs : action = .call method ∨ action = .recheck false) :
    (runSimulation items).permits e ⟨thread, action, none⟩ = true := by
  rcases runs with rfl | rfl
  · exact called
  · rfl

/-- A producer while there is room. -/
theorem advances_producer (sound : Sound items c e) (can : CanReturn items e) (packet : V)
    {i : Fin P} {count : Nat} (at_ : e.locals.producer i = .loop count) (below : count < items)
    (calm : (e.sys.phase (.producer i)).calm = true) (room : e.sys.buffer.this.full = false) :
    Advances items e := by
  have pushes : ∀ method, (e.sys.phase (.producer i)).method = some method →
      ∃ packet, method = .pushBackWithTimeout packet := by
    intro method inside
    obtain ⟨_, packet, -, -, same⟩ := calls_producer (sound.audit.steady.abides _ _ inside)
    exact ⟨packet, same⟩
  have unlocks : ∀ packet, calls items e.locals (.producer i) (.pushBackWithTimeout packet) = true →
      e.sys.phase (.producer i) = .idle ∨
        e.sys.phase (.producer i) = .woken (.pushBackWithTimeout packet) → Advances items e := by
    intro packet called outside
    obtain ⟨action, runs, -, ran⟩ := section_enabled outside
    have passes : (Method.pushBackWithTimeout packet).critical false e.sys.buffer = .unlock := by
      simp [Method.critical, pushBackWithTimeout, waitFor, room]
    rw [passes] at ran
    apply advances_buffer sound can (permits_section called runs) ran rfl can.running (.inr room)
    · exact can.enough_of le_rfl
    · exact can.attended_of le_rfl
    · rcases outside with phase | phase
      all_goals simp [Program.absorb, weight, at_, phase, ProducerAt.weight]
  cases phase : e.sys.phase (.producer i) with
  | idle =>
      refine unlocks ⟨i * items + count, packet⟩ ?_ (.inl phase)
      simp [calls, at_, below]
  | woken method =>
      have called := sound.audit.steady.abides (.producer i) method (by rw [phase]; rfl)
      obtain ⟨packet, rfl⟩ := pushes method (by rw [phase]; rfl)
      exact unlocks packet called (.inr phase)
  | unlocked method =>
      obtain ⟨packet, rfl⟩ := pushes method (by rw [phase]; rfl)
      have inserted : (Update.pushBack packet).inserted = some packet := rfl
      have more := (insert_cursors sound.audit.steady.quiet inserted room).1
      have ran : e.sys.step ⟨.producer i, .proceed, none⟩ =
          some (⟨final (Update.pushBack packet).perform e.sys.buffer,
            Function.update e.sys.phase (.producer i)
              (.notifying .notEmpty (.pushBackWithTimeout packet) (.bool true))⟩, none) := by
        simp only [System.step, phase, Method.remainder,
          run_insert e.sys.buffer sound.audit.steady.quiet inserted]
      apply advances_buffer sound can rfl ran rfl can.running (.inr room)
      · exact can.enough_of le_rfl
      · exact can.attended_of le_rfl
      · simp [Program.absorb, weight, at_, phase, ProducerAt.weight, more]
        omega
  | asleep | notifying =>
      rw [phase] at calm
      cases calm

/-- A consumer in its round, while there is a packet for it. -/
theorem advances_popping (sound : Sound items c e) (can : CanReturn items e) {j : Fin K}
    (popping : e.locals.consumer j = .popping) (nonempty : e.sys.buffer.this.count_ ≠ 0)
    (calm : (e.sys.phase (.consumer j)).calm = true)
    (spare : ConsumerAt.relies .popping (e.sys.phase (.consumer j)) = false →
      e.locals.totalConsumed + relying e < P * items) : Advances items e := by
  have unlocks : e.sys.phase (.consumer j) = .idle ∨
      e.sys.phase (.consumer j) = .woken .popFrontWithTimeout → Advances items e := by
    intro outside
    obtain ⟨action, runs, inside, ran⟩ := section_enabled outside
    have passes : (Method.popFrontWithTimeout : Method (DataPacket V)).critical false e.sys.buffer =
        .unlock := by
      simp [Method.critical, popFrontWithTimeout, waitFor, RingBuffer.empty, nonempty]
    rw [passes] at ran
    have called : calls items e.locals (.consumer j) (.popFrontWithTimeout : Method (DataPacket V)) =
      true := by simp [calls, popping]
    apply advances_buffer sound can (permits_section called runs) ran rfl can.running
    · exact .inl (by rw [answered_running inside]; rfl)
    · rcases outside with phase | phase
      all_goals
        rw [phase] at spare
        simp [Program.absorb, Aside.reliesOn, popping, phase, ConsumerAt.relies]
        exact spare rfl
    · exact can.attended_of le_rfl
    · rcases outside with phase | phase
      all_goals simp [Program.absorb, weight, popping, phase, ConsumerAt.weight]
  cases phase : e.sys.phase (.consumer j) with
  | idle => exact unlocks (.inl phase)
  | woken method =>
      obtain rfl := consumer_pops sound (congrArg Phase.method phase)
      exact unlocks (.inr phase)
  | unlocked method =>
      obtain rfl := consumer_pops sound (congrArg Phase.method phase)
      have fewer := (popped_cursors e.sys.buffer).1
      have ran : e.sys.step ⟨.consumer j, .proceed, none⟩ =
          some (⟨e.sys.buffer.popped, Function.update e.sys.phase (.consumer j)
            (.notifying .notFull .popFrontWithTimeout
              (.element (e.sys.buffer.mem.slots e.sys.buffer.headPtr).content))⟩, none) := by
        simp only [System.step, phase, Method.remainder,
          run_perform_popFront sound.audit.steady.quiet nonempty, popped]
      apply advances_buffer sound can rfl ran rfl can.running
      · rw [answered_takes sound.audit.steady.quiet rfl phase nonempty]
        exact .inl rfl
      · apply can.enough_of
        simp [Program.absorb, Aside.reliesOn, popping, phase, ConsumerAt.relies]
      · exact can.attended_of le_rfl
      · simp [Program.absorb, weight, popping, phase, ConsumerAt.weight, fewer]
        omega
  | asleep | notifying =>
      rw [phase] at calm
      cases calm

/-- A consumer in its round, when nothing is left and the stop flag is up. -/
theorem advances_leaving (sound : Sound items c e) (can : CanReturn items e) {j : Fin K}
    (popping : e.locals.consumer j = .popping) (up : e.locals.stopFlag = true)
    (all : e.locals.totalConsumed = P * items) (empty : e.sys.buffer.this.count_ = 0)
    (calm : (e.sys.phase (.consumer j)).calm = true) : Advances items e := by
  have enough := can.enough
  have nobody : Aside.reliesOn e (.consumer j) = 0 := by
    have part : Aside.reliesOn e (.consumer j) ≤ relying e :=
      Finset.single_le_sum (f := fun k => Aside.reliesOn e (.consumer k)) (fun _ _ => Nat.zero_le _)
        (Finset.mem_univ j)
    omega
  cases phase : e.sys.phase (.consumer j) with
  | idle =>
      have ran : e.sys.step ⟨.consumer j, .call .popFrontWithTimeout, none⟩ =
          some (⟨e.sys.buffer, Function.update e.sys.phase (.consumer j)
            (.asleep .popFrontWithTimeout)⟩, none) := by
        simp [System.step, phase, Method.critical, popFrontWithTimeout, waitFor, RingBuffer.empty,
          empty, System.settle]
      have inside : e.sys.running ⟨.consumer j, .call .popFrontWithTimeout, none⟩ =
          some .popFrontWithTimeout := by simp only [System.running, phase]
      apply advances_buffer sound can _ ran rfl can.running
      · exact .inl (by rw [answered_running inside]; rfl)
      · apply can.enough_of
        simp [Program.absorb, Aside.reliesOn, popping, phase, ConsumerAt.relies]
      · exact can.attended_of le_rfl
      · simp [Program.absorb, weight, popping, phase, ConsumerAt.weight]
      · simp [Program.permits, runSimulation, calls, popping]
  | woken method =>
      obtain rfl := consumer_pops sound (congrArg Phase.method phase)
      have ran : e.sys.step ⟨.consumer j, .recheck true, none⟩ =
          some (⟨e.sys.buffer, Function.update e.sys.phase (.consumer j) .idle⟩,
            some (.popFrontWithTimeout, .nullopt)) := by
        simp [System.step, phase, Method.timed, Method.critical, popFrontWithTimeout, waitFor,
          RingBuffer.empty, empty, System.settle, Notice.deliver]
      have inside : e.sys.running ⟨.consumer j, .recheck true, none⟩ =
          some .popFrontWithTimeout := by simp only [System.running, phase]
      apply advances_buffer sound can rfl ran rfl
      · simp [Program.absorb, runSimulation, returns, can.running]
      · exact .inl (by rw [answered_running inside]; rfl)
      · apply can.enough_of
        simp [Program.absorb, runSimulation, returns, Aside.reliesOn, ConsumerAt.relies]
      · have present : tally ConsumerAt.inRound e.locals.consumer ≠ 0 := by
          intro none
          have absent := tally_zero_iff.mp none j
          rw [popping] at absent
          cases absent
        intro _
        simp only [Aside.inRoundOf, popping, ConsumerAt.inRound, Bool.toNat_true]
        omega
      · simp [Program.absorb, runSimulation, returns, weight, popping, phase, up, ConsumerAt.weight]
  | unlocked method => simp [Aside.reliesOn, popping, phase, ConsumerAt.relies] at nobody
  | asleep | notifying =>
      rw [phase] at calm
      cases calm

/-- Any consumer, then. -/
theorem advances_closing (sound : Sound items c e) (can : CanReturn items e) {j : Fin K}
    (busy : e.locals.consumer j ≠ .finished) (up : e.locals.stopFlag = true)
    (all : e.locals.totalConsumed = P * items) (empty : e.sys.buffer.this.count_ = 0)
    (calm : (e.sys.phase (.consumer j)).calm = true) : Advances items e := by
  cases at_ : e.locals.consumer j with
  | checking =>
      have going : own items e.locals (.consumer j) = some { e.locals with
          consumer := Function.update e.locals.consumer j .finished } := by
        simp only [own, at_, up, if_true]
      apply advances_own can (consumer_idle sound (by simp [at_])) going (fun same => by cases same)
      simp [weight, at_, up, ConsumerAt.weight]
  | popping => exact advances_leaving sound can at_ up all empty calm
  | processing => exact advances_processing sound can at_
  | finished => exact absurd at_ busy

/-- The monitor, when all is consumed. -/
theorem advances_monitor (sound : Sound items c e) (can : CanReturn items e)
    (busy : e.locals.monitor ≠ .finished) (all : e.locals.totalConsumed = P * items)
    (calm : (e.sys.phase .monitor).calm = true) : Advances items e := by
  have looks : ∀ method n, calls items e.locals .monitor method = true →
      e.sys.phase .monitor = .idle ∨ e.sys.phase .monitor = .woken method →
      method.critical false e.sys.buffer = .leave (.number n) e.sys.buffer .silent →
      method.offered = none → Advances items e := by
    intro method n called outside leaves observes
    obtain ⟨action, runs, inside, ran⟩ := section_enabled outside
    rw [leaves] at ran
    apply advances_buffer sound can (permits_section called runs) ran rfl
    · simp [Program.absorb, runSimulation, returns, can.running]
    · exact .inl (by rw [answered_running inside]; simp [Report.inserted, observes])
    · exact can.enough_of le_rfl
    · exact can.attended_of le_rfl
    · obtain ⟨at_, -⟩ | ⟨at_, -⟩ := calls_monitor called
      all_goals simp [Program.absorb, runSimulation, returns, weight, at_, MonitorAt.weight]
  have proper := sound.proper .monitor
  cases phase : e.sys.phase .monitor with
  | idle =>
      cases at_ : e.locals.monitor with
      | checking =>
          have going : own items e.locals (.monitor : Thread P K) = some { e.locals with
              monitor := .finished } := by
            simp [own, at_, all]
          apply advances_own can phase going (fun same => by cases same)
          simp [weight, at_, MonitorAt.weight]
      | sizing => exact looks .size _ (by simp [calls, at_]) (.inl phase) rfl rfl
      | measuring => exact looks .capacity _ (by simp [calls, at_]) (.inl phase) rfl rfl
      | finished => exact absurd at_ busy
  | woken method =>
      have called := sound.audit.steady.abides .monitor method (by rw [phase]; rfl)
      obtain ⟨-, rfl⟩ | ⟨-, rfl⟩ := calls_monitor called
      · exact looks .size _ called (.inr phase) rfl rfl
      · exact looks .capacity _ called (.inr phase) rfl rfl
  | unlocked method =>
      have called := sound.audit.steady.abides .monitor method (by rw [phase]; rfl)
      rw [phase] at proper
      obtain ⟨-, rfl⟩ | ⟨-, rfl⟩ := calls_monitor called
      all_goals cases proper
  | asleep | notifying =>
      rw [phase] at calm
      cases calm

/-- The main thread, when nobody it waits for is still running. -/
theorem advances_main (sound : Sound items c e) (can : CanReturn items e) (next : MainAt)
    (flag : Bool)
    (going : own items e.locals .main = some { e.locals with main := next, stopFlag := flag })
    (all : e.locals.totalConsumed = P * items)
    (lower : next.weight < e.locals.main.weight) : Advances items e := by
  have never : ∀ method : Method (DataPacket V), calls items e.locals .main method = false :=
    calls_main e.locals
  have idle : e.sys.phase .main = .idle := sound.audit.steady.idle never
  exact advances_own can idle going (fun _ _ => all.ge) lower

/-- Nothing is left in the buffer and nobody makes another packet. -/
theorem advances_joining (sound : Sound items c e) (can : CanReturn items e)
    (unfinished : e.locals.main ≠ .finished) (calm : ∀ thread, (e.sys.phase thread).calm = true)
    (made : ∀ i, (e.locals.producer i).isDone items = true)
    (all : e.locals.totalConsumed = P * items) (empty : e.sys.buffer.this.count_ = 0) :
    Advances items e := by
  have orderly := sound.orderly can.running
  cases at_ : e.locals.main with
  | joiningProducers =>
      refine advances_main sound can .stopping e.locals.stopFlag ?_ all ?_
      · simp [own, at_, made]
      · rw [at_]; decide
  | stopping =>
      refine advances_main sound can .joiningConsumers true ?_ all ?_
      · simp [own, at_]
      · rw [at_]; decide
  | joiningConsumers =>
      have up := orderly.stopped.mpr (by simp [at_])
      by_cases stopped : ∀ j, e.locals.consumer j = .finished
      · refine advances_main sound can .joiningMonitor e.locals.stopFlag ?_ all ?_
        · simp [own, at_, stopped]
        · rw [at_]; decide
      · obtain ⟨j, busy⟩ := not_forall.mp stopped
        exact advances_closing sound can busy up all empty (calm _)
  | joiningMonitor =>
      by_cases ended : e.locals.monitor = .finished
      · refine advances_main sound can .dividing e.locals.stopFlag ?_ all ?_
        · simp [own, at_, ended]
        · rw [at_]; decide
      · exact advances_monitor sound can ended all (calm _)
  | dividing =>
      have divides : e.locals.totalConsumed ≠ 0 := by
        rw [all]
        exact Nat.ne_of_gt can.produces
      refine advances_main sound can .finished e.locals.stopFlag ?_ all ?_
      · simp [own, at_, divides]
      · rw [at_]; decide
  | finished => exact absurd at_ unfinished

/-- A packet is left in the buffer. -/
theorem advances_draining (sound : Sound items c e) (can : CanReturn items e)
    (calm : ∀ thread, (e.sys.phase thread).calm = true)
    (still : ∀ j, e.locals.consumer j ≠ .processing)
    (left : e.locals.totalConsumed + e.sys.buffer.this.count_ ≤ P * items)
    (nonempty : e.sys.buffer.this.count_ ≠ 0) : Advances items e := by
  have orderly := sound.orderly can.running
  have attended := can.attended
  by_cases promise : ∃ j, (e.locals.consumer j).relies (e.sys.phase (.consumer j)) = true
  · obtain ⟨j, relies⟩ := promise
    have popping : e.locals.consumer j = .popping := by
      cases at_ : e.locals.consumer j with
      | popping => rfl
      | processing => exact absurd at_ (still j)
      | checking | finished => rw [at_] at relies; cases relies
    refine advances_popping sound can popping nonempty (calm _) fun free => ?_
    rw [popping, free] at relies
    cases relies
  · have nobody : relying e = 0 :=
      relying_zero fun j => by simpa using not_exists.mp promise j
    have goes : ∀ {j}, e.locals.consumer j = .popping → Advances items e :=
      fun popping => advances_popping sound can popping nonempty (calm _) fun _ => by omega
    cases up : e.locals.stopFlag with
    | true =>
        have present : tally ConsumerAt.inRound e.locals.consumer ≠ 0 := by
          have enough := attended up
          omega
        obtain ⟨j, inRound⟩ := not_forall.mp fun none => present (tally_zero_iff.mpr none)
        cases at_ : e.locals.consumer j with
        | popping => exact goes at_
        | processing => exact absurd at_ (still j)
        | checking | finished => rw [at_] at inRound; exact absurd rfl inRound
    | false =>
        let j : Fin K := ⟨0, can.consumers⟩
        cases at_ : e.locals.consumer j with
        | popping => exact goes at_
        | processing => exact absurd at_ (still j)
        | finished =>
            rw [orderly.told j at_] at up
            cases up
        | checking =>
            have going : own items e.locals (.consumer j) = some { e.locals with
                consumer := Function.update e.locals.consumer j .popping } := by
              simp [own, at_, up]
            apply advances_own can (consumer_idle sound (by simp [at_])) going
              (fun same => by cases same)
            simp [weight, at_, up, ConsumerAt.weight]

/-- Short of its end, some step leaves the way to it open and less to do. -/
theorem advances (sound : Sound items c e) (can : CanReturn items e) (packet : V)
    (unfinished : e.locals.main ≠ .finished) : Advances items e := by
  by_cases calm : ∀ thread, (e.sys.phase thread).calm = true
  · have silent : ∀ thread, (e.sys.phase thread).pending = none := by
      intro thread
      have calm := calm thread
      cases phase : e.sys.phase thread with
      | notifying => rw [phase] at calm; cases calm
      | _ => rfl
    by_cases adding : ∃ i count, e.locals.producer i = .adding count
    · obtain ⟨i, count, at_⟩ := adding
      exact advances_adding sound can at_
    · by_cases processing : ∃ j, e.locals.consumer j = .processing
      · obtain ⟨j, at_⟩ := processing
        exact advances_processing sound can at_
      · have still := not_exists.mp processing
        have counts := sound.audit.counts can.running
        have balanced := balance sound.audit can.running silent
        have none : tally ConsumerAt.isProcessing e.locals.consumer = 0 := by
          apply tally_zero_iff.mpr
          intro j
          cases at_ : e.locals.consumer j with
          | processing => exact absurd at_ (still j)
          | _ => rfl
        have most : ∑ i, (e.locals.producer i).count ≤ P * items := by
          have each := Finset.sum_le_card_nsmul Finset.univ _ items fun i _ => counts.bounded i
          simpa using each
        have unlost := can.unlost
        by_cases empty : e.sys.buffer.this.count_ = 0
        · by_cases made : ∀ i, (e.locals.producer i).isDone items = true
          · have all : ∑ i, (e.locals.producer i).count = P * items := by
              rw [Finset.sum_const_nat fun i _ => (isDone_count (counts.bounded i) (made i)).2,
                Finset.card_univ, Fintype.card_fin]
            exact advances_joining sound can unfinished calm made (by omega) empty
          · obtain ⟨i, short⟩ := not_forall.mp made
            cases at_ : e.locals.producer i with
            | adding count => exact absurd ⟨i, count, at_⟩ adding
            | loop count =>
                rw [at_] at short
                have room : e.sys.buffer.this.full = false := by
                  have pos := sound.audit.steady.counted.pos
                  rw [RingBuffer.full, sound.audit.steady.counted.full, empty]
                  simpa using Nat.ne_of_lt pos
                exact advances_producer sound can packet at_
                  (by simpa [ProducerAt.isDone] using short) (calm _) room
        · exact advances_draining sound can calm still (by omega) empty
  · obtain ⟨thread, apart⟩ := not_forall.mp calm
    cases phase : e.sys.phase thread with
    | asleep method => exact advances_wake sound can phase
    | notifying cv method result => exact advances_notify sound can phase
    | _ => rw [phase] at apart; exact absurd rfl apart

/-- In any state of any run: `run_simulation` can still return exactly when no
    exception ended the program, no packet was overwritten, each consumer that relies on
    a packet has one, there is a packet to make and a consumer, and the consumers still
    in their loop are enough for what is left once the stop flag is up. -/
theorem can_return_iff [Nonempty V] {a : A} (pos : 0 < c)
    (reached : Reaches (runSimulation items).step (fun _ _ => True)
      (Execution.start c a (initial : Simulation P K)) e) :
    (∃ e', Reaches (runSimulation items).step (fun _ _ => True) e e' ∧ e'.terminated = false ∧
      e'.locals.main = .finished) ↔ CanReturn items e := by
  constructor
  · rintro ⟨e', further, running, finished⟩
    have sound := sound_of_reaches pos (reached.trans further)
    exact .of_reaches pos reached further (.of_finished sound running finished)
  · intro can
    obtain ⟨packet⟩ := ‹Nonempty V›
    apply Within.reaches
    apply Within.of_measure (toDo items) (I := fun e => Reaches (runSimulation items).step
      (fun _ _ => True) (Execution.start c a (initial : Simulation P K)) e ∧ CanReturn items e)
    · rintro s ⟨reached, can⟩
      by_cases finished : s.locals.main = .finished
      · exact .inl ⟨can.running, finished⟩
      · obtain ⟨m, t, report, stepped, can, less⟩ :=
          advances (sound_of_reaches pos reached) can packet finished
        exact .inr ⟨m, t, report, trivial, stepped, ⟨.next reached trivial stepped, can⟩, less⟩
    · exact ⟨reached, can⟩

/-- One packet and one consumer: the way is open at the start, and closed when the stop
    flag is up before the consumer has come for the packet. -/
theorem can_return_iff_one :
    (∃ e' : Execution (Thread 1 1) (DataPacket Nat) Unit (Simulation 1 1),
      Reaches (runSimulation 1).step (fun _ _ => True) (Execution.start 1 () initial) e' ∧
        e'.terminated = false ∧ e'.locals.main = .finished) ∧
      ∃ e : Execution (Thread 1 1) (DataPacket Nat) Unit (Simulation 1 1),
        e.journal.overwrites = 0 ∧ ¬ ∃ e', Reaches (runSimulation 1).step (fun _ _ => True) e e' ∧
          e'.terminated = false ∧ e'.locals.main = .finished := by
  let schedule : List (Move (Thread 1 1) (DataPacket Nat)) :=
    [.buffer ⟨.producer 0, .call (.pushBackWithTimeout ⟨0, 7⟩), none⟩,
      .buffer ⟨.producer 0, .proceed, none⟩, .buffer ⟨.producer 0, .notify, none⟩,
      .own (.producer 0), .own .main, .own .main]
  have ran : (exec (runSimulation 1).step (fun _ _ => True) (Execution.start 1 () initial)
      schedule).map (fun e => (e.journal.overwrites, e.locals.stopFlag, e.locals.totalConsumed,
        tally ConsumerAt.inRound e.locals.consumer)) = some (0, true, 0, 0) := by
    decide +kernel
  obtain ⟨e, ran, recorded⟩ := Option.map_eq_some_iff.mp ran
  simp only [Prod.mk.injEq] at recorded
  obtain ⟨unlost, up, none, nobody⟩ := recorded
  have opens : CanReturn 1 (Execution.start 1 () (initial : Simulation 1 1) :
      Execution (Thread 1 1) (DataPacket Nat) Unit (Simulation 1 1)) :=
    ⟨rfl, rfl, by decide, fun up => Bool.noConfusion up, by decide, by decide⟩
  refine ⟨(can_return_iff (by decide) .start).mpr opens, e, unlost, fun returns => ?_⟩
  have attended := ((can_return_iff (by decide) (Reaches.of_exec ran)).mp returns).attended up
  omega

end Schedules

end ProducerConsumerExample

end RingBufferThreadSafe

end Dkyb
