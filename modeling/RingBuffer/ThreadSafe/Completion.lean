import RingBuffer.ThreadSafe.ProducerConsumer
import RingBuffer.ThreadSafe.Progress

/-! # What `run_simulation` needs to return

A consumer that found a packet relies on it after it has released the mutex, and from
the moment the stop flag is up no consumer starts another round of its loop. Whether
the main thread can still join everybody is decided by how many packets are left for
how many consumers, as long as nothing was overwritten; and no step opens the way
again once it is closed.
-/

namespace Dkyb

open Stateful Signed Tally

variable {A : Type}

namespace RingBufferThreadSafe

open Transitions

namespace ProducerConsumerExample

section Spots

variable {P K : Nat} {V : Type} {items c : Nat}

/-- Past the test that the buffer is not empty, and not counted yet. -/
def ConsumerAt.relies : ConsumerAt → Phase (DataPacket V) → Bool
  | .processing, _ | .popping, .unlocked _ | .popping, .notifying .. => true
  | _, _ => false

/-- In a round of the loop, so that it still takes a packet if there is one. -/
def ConsumerAt.inRound : ConsumerAt → Bool
  | .popping | .processing => true
  | _ => false

/-- How many consumers rely on a packet. -/
def relying (e : Execution (Thread P K) (DataPacket V) A (Simulation P K)) : Nat :=
  ∑ j, ((e.locals.consumer j).relies (e.sys.phase (.consumer j))).toNat

/-- `run_simulation` can still return. -/
structure CanReturn (items : Nat)
    (e : Execution (Thread P K) (DataPacket V) A (Simulation P K)) : Prop where
  running : e.terminated = false
  unlost : e.journal.overwrites = 0
  /-- There is a packet for each consumer that relies on one. -/
  enough : e.locals.totalConsumed + relying e ≤ P * items
  /-- After the stop flag, the consumers still in their loop get all that is left. -/
  attended : e.locals.stopFlag = true →
    P * items ≤ e.locals.totalConsumed + tally ConsumerAt.inRound e.locals.consumer
  /-- There is something to divide by in the end, and somebody to consume it. -/
  produces : 0 < P * items
  consumers : 0 < K

theorem ConsumerAt.relies_wake (x : ConsumerAt) (phase : Phase (DataPacket V)) :
    x.relies phase.wake = x.relies phase := by
  cases x <;> cases phase <;> rfl

/-! ## What a step leaves of the other threads -/

variable {e e' : Execution (Thread P K) (DataPacket V) A (Simulation P K)}
  {thread : Thread P K} {report : Report (DataPacket V)}

structure Aside (thread : Thread P K)
    (e e' : Execution (Thread P K) (DataPacket V) A (Simulation P K)) : Prop where
  elsewhere : Elsewhere thread e.locals e'.locals
  main : thread ≠ .main → e'.locals.main = e.locals.main
  stop : e.locals.stopFlag = true → e'.locals.stopFlag = true
  phases : ∀ k, k ≠ thread → e'.sys.phase k = e.sys.phase k ∨ e'.sys.phase k = (e.sys.phase k).wake

namespace Aside

theorem own {s : Simulation P K} (going : own items e.locals thread = some s) :
    Aside thread e { e with locals := s } := by
  have elsewhere : Elsewhere thread e.locals s := own_elsewhere going
  rcases own_cases going with ⟨i, _, rfl, -, rfl⟩ | ⟨j, rfl, ⟨-, rfl⟩ | ⟨-, rfl⟩⟩ | ⟨rfl, -, rfl⟩ |
    ⟨rfl, next, flag, rfl, moved⟩
  · exact ⟨elsewhere, fun _ => rfl, id, fun _ _ => .inl rfl⟩
  · exact ⟨elsewhere, fun _ => rfl, id, fun _ _ => .inl rfl⟩
  · exact ⟨elsewhere, fun _ => rfl, id, fun _ _ => .inl rfl⟩
  · exact ⟨elsewhere, fun _ => rfl, id, fun _ _ => .inl rfl⟩
  · refine ⟨elsewhere, fun apart => absurd rfl apart, fun up => ?_, fun _ _ => .inl rfl⟩
    rcases moved with ⟨-, -, -, rfl⟩ | ⟨-, -, rfl⟩ | ⟨-, -, -, rfl⟩ | ⟨-, -, -, rfl⟩ |
      ⟨-, -, -, rfl⟩
    all_goals first | exact up | rfl

theorem buffer (items : Nat) {l : Label (Thread P K) (DataPacket V)}
    {sys : System (Thread P K) (DataPacket V) A}
    (turn : Turn e.sys l sys report) (j : Journal (Thread P K) (DataPacket V)) :
    Aside l.thread e
      ((runSimulation items).absorb { e with sys := sys, journal := j } l.thread report) := by
  have phases : ∀ k, k ≠ l.thread →
      sys.phase k = e.sys.phase k ∨ sys.phase k = (e.sys.phase k).wake :=
    fun k apart => turn.others_woken apart
  have nothing : Elsewhere l.thread e.locals e.locals :=
    ⟨fun _ _ => rfl, fun _ _ => rfl, fun _ => rfl⟩
  rcases (runSimulation items).absorb_cases { e with sys := sys, journal := j } l.thread report with
    ⟨-, same⟩ | ⟨method, result, s, -, back, same⟩ | ⟨_, _, -, -, same⟩
  · rw [same]
    exact ⟨nothing, fun _ => rfl, id, phases⟩
  · have back : returns e.locals l.thread method result = some s := back
    have kept : s.main = e.locals.main ∧ s.stopFlag = e.locals.stopFlag := by
      rcases returns_cases back with ⟨i, -, ⟨-, rfl⟩ | ⟨-, rfl⟩⟩ | ⟨j, -, ⟨_, -, rfl⟩ | ⟨-, rfl⟩⟩ |
        ⟨-, rfl⟩ | ⟨-, rfl⟩
      all_goals exact ⟨rfl, rfl⟩
    rw [same]
    exact ⟨returns_elsewhere back, fun _ => kept.1, fun up => kept.2.trans up, phases⟩
  · rw [same]
    exact ⟨nothing, fun _ => rfl, id, phases⟩

/-- What one thread counts for. -/
def reliesOn (e : Execution (Thread P K) (DataPacket V) A (Simulation P K)) : Thread P K → Nat
  | .consumer j => ((e.locals.consumer j).relies (e.sys.phase (.consumer j))).toNat
  | _ => 0

def inRoundOf (e : Execution (Thread P K) (DataPacket V) A (Simulation P K)) : Thread P K → Nat
  | .consumer j => (e.locals.consumer j).inRound.toNat
  | _ => 0

theorem relying_step (h : Aside thread e e') :
    relying e' + reliesOn e thread = relying e + reliesOn e' thread := by
  have others : ∀ j, .consumer j ≠ thread →
      (e'.locals.consumer j).relies (e'.sys.phase (.consumer j)) =
        (e.locals.consumer j).relies (e.sys.phase (.consumer j)) := by
    intro j apart
    rw [h.elsewhere.consumer j apart.symm]
    rcases h.phases _ apart with same | woken
    · rw [same]
    · rw [woken, ConsumerAt.relies_wake]
  cases thread with
  | consumer j =>
      refine sum_exchange (fun k => reliesOn e (.consumer k)) (fun k => reliesOn e' (.consumer k)) j
        fun k apart => ?_
      simp only [reliesOn, others k fun same => apart (Thread.consumer.inj same)]
  | _ =>
      refine congrArg (· + 0) (Finset.sum_congr rfl fun k _ => ?_)
      rw [others k nofun]

theorem inRound_step (h : Aside thread e e') :
    tally ConsumerAt.inRound e'.locals.consumer + inRoundOf e thread =
      tally ConsumerAt.inRound e.locals.consumer + inRoundOf e' thread := by
  rw [tally_eq_sum, tally_eq_sum]
  cases thread with
  | consumer j =>
      refine sum_exchange (fun k => inRoundOf e (.consumer k))
        (fun k => inRoundOf e' (.consumer k)) j fun k apart => ?_
      simp only [inRoundOf, h.elsewhere.consumer k fun same => apart (Thread.consumer.inj same).symm]
  | _ =>
      refine congrArg (· + 0) (Finset.sum_congr rfl fun k _ => ?_)
      rw [h.elsewhere.consumer k nofun]

end Aside

/-! ## What is known in any state of a run -/

/-- When the stop flag is up, and whom it stops. -/
structure Orderly (s : Simulation P K) : Prop where
  stopped : s.stopFlag = true ↔ s.main ≠ .joiningProducers ∧ s.main ≠ .stopping
  told : ∀ j, s.consumer j = .finished → s.stopFlag = true
  manned : 0 < s.totalConsumed → 0 < K

namespace Orderly

variable {s s' : Simulation P K} {method : Method (DataPacket V)} {result : Result (DataPacket V)}

theorem initial : Orderly (initial : Simulation P K) where
  stopped := by simp [ProducerConsumerExample.initial]
  told := nofun
  manned := nofun

/-- A consumer moves on. -/
theorem moveConsumer (h : Orderly s) {j : Fin K} {x : ConsumerAt} {total : Nat}
    (stops : x = .finished → s.stopFlag = true) :
    Orderly { s with consumer := Function.update s.consumer j x, totalConsumed := total } where
  stopped := h.stopped
  told := by
    intro k finished
    simp only at finished
    by_cases same : k = j
    · subst same
      rw [Function.update_self] at finished
      exact stops finished
    · rw [Function.update_of_ne same] at finished
      exact h.told k finished
  manned _ := j.pos

theorem own (h : Orderly s) (going : ProducerConsumerExample.own items s thread = some s') :
    Orderly s' := by
  rcases own_cases going with ⟨i, _, rfl, -, rfl⟩ | ⟨j, rfl, ⟨-, rfl⟩ | ⟨-, rfl⟩⟩ | ⟨rfl, -, rfl⟩ |
    ⟨rfl, next, flag, rfl, moved⟩
  · exact ⟨h.stopped, h.told, h.manned⟩
  · apply h.moveConsumer
    cases s.stopFlag <;> simp
  · exact h.moveConsumer nofun
  · exact ⟨h.stopped, h.told, h.manned⟩
  · have stopped := h.stopped
    rcases moved with ⟨at_, -, rfl, rfl⟩ | ⟨at_, rfl, rfl⟩ | ⟨at_, -, rfl, rfl⟩ |
      ⟨at_, -, rfl, rfl⟩ | ⟨at_, -, rfl, rfl⟩
    · exact ⟨by simp_all, h.told, h.manned⟩
    · exact ⟨by simp, fun _ _ => rfl, h.manned⟩
    · exact ⟨by simp_all, h.told, h.manned⟩
    · exact ⟨by simp_all, h.told, h.manned⟩
    · exact ⟨by simp_all, h.told, h.manned⟩

theorem returns (h : Orderly s)
    (back : ProducerConsumerExample.returns s thread method result = some s') : Orderly s' := by
  rcases returns_cases back with ⟨i, -, ⟨-, rfl⟩ | ⟨-, rfl⟩⟩ | ⟨j, -, ⟨_, -, rfl⟩ | ⟨-, rfl⟩⟩ |
    ⟨-, rfl⟩ | ⟨-, rfl⟩
  · exact h
  · exact ⟨h.stopped, h.told, h.manned⟩
  · exact h.moveConsumer nofun
  · exact h.moveConsumer nofun
  · exact ⟨h.stopped, h.told, h.manned⟩
  · exact h

end Orderly

structure Sound (items c : Nat) (e : Execution (Thread P K) (DataPacket V) A (Simulation P K)) :
    Prop where
  audit : Audit items c e
  proper : ∀ k, (e.sys.phase k).proper = true
  succeeds : ∀ k, (e.sys.phase k).Succeeds
  orderly : e.terminated = false → Orderly e.locals

theorem sound_of_reaches {a : A} (pos : 0 < c)
    (reached : Reaches (runSimulation items).step (fun _ _ => True)
      (Execution.start c a (initial : Simulation P K)) e) : Sound items c e := by
  have below := (Program.reaches_system pos separate reached).of_observed
  have both : e.Steady (runSimulation items) c ∧ (e.terminated = false → Orderly e.locals) := by
    apply Program.invariant (I := fun s _ => Orderly s) pos separate Orderly.initial
    · exact fun h going => h.own going
    · intro s s' i method result _ orderly _ back
      exact orderly.returns (show returns s i method result = some s' from back)
    · exact reached
  exact ⟨audit_of_reaches pos reached, (Proper.of_reaches pos a below).phases,
    succeeds_of_reaches pos a below, both.2⟩

/-! ## Steps that cannot be made good -/

/-- A step of a thread by itself makes no promise and breaks none, unless it is the one
    that raises the stop flag. -/
theorem own_totals {s : Simulation P K} (idle : e.sys.phase thread = .idle)
    (going : own items e.locals thread = some s) :
    s.totalConsumed + relying { e with locals := s } = e.locals.totalConsumed + relying e ∧
      e.locals.totalConsumed + tally ConsumerAt.inRound e.locals.consumer ≤
        s.totalConsumed + tally ConsumerAt.inRound s.consumer ∧
      (e.locals.stopFlag = true → s.totalConsumed + tally ConsumerAt.inRound s.consumer =
        e.locals.totalConsumed + tally ConsumerAt.inRound e.locals.consumer) := by
  have aside : Aside thread e { e with locals := s } := Aside.own going
  have relied := aside.relying_step
  have rounds := aside.inRound_step
  rcases own_cases going with ⟨i, _, rfl, -, rfl⟩ | ⟨j, rfl, ⟨at_, rfl⟩ | ⟨at_, rfl⟩⟩ |
    ⟨rfl, -, rfl⟩ | ⟨rfl, next, flag, rfl, -⟩
  · exact ⟨congrArg _ relied, le_refl _, fun _ => rfl⟩
  · simp only [Aside.reliesOn, Aside.inRoundOf, idle, at_, Function.update_self] at relied rounds
    cases up : e.locals.stopFlag <;>
      simp [up, ConsumerAt.relies, ConsumerAt.inRound] at relied rounds ⊢ <;> omega
  · simp [Aside.reliesOn, Aside.inRoundOf, at_, ConsumerAt.relies, ConsumerAt.inRound]
      at relied rounds ⊢
    omega
  · exact ⟨congrArg _ relied, le_refl _, fun _ => rfl⟩
  · exact ⟨congrArg _ relied, le_refl _, fun _ => rfl⟩

section Calls

variable {s : Simulation P K} {method : Method (DataPacket V)}

theorem calls_producer {i : Fin P} (called : calls items s (.producer i) method = true) :
    ∃ count packet, s.producer i = .loop count ∧ count < items ∧
      method = .pushBackWithTimeout packet := by
  cases method with
  | pushBackWithTimeout packet =>
      simp only [calls] at called
      split at called
      · simp only [Bool.and_eq_true, decide_eq_true_eq] at called
        exact ⟨_, packet, ‹_›, called.1, rfl⟩
      · cases called
  | _ => cases called

theorem calls_consumer {j : Fin K} (called : calls items s (.consumer j) method = true) :
    s.consumer j = .popping ∧ method = .popFrontWithTimeout := by
  cases method with
  | popFrontWithTimeout => exact ⟨by simpa [calls] using called, rfl⟩
  | _ => cases called

theorem calls_monitor (called : calls items s .monitor method = true) :
    s.monitor = .sizing ∧ method = .size ∨ s.monitor = .measuring ∧ method = .capacity := by
  cases method with
  | size => exact .inl ⟨by simpa [calls] using called, rfl⟩
  | capacity => exact .inr ⟨by simpa [calls] using called, rfl⟩
  | _ => cases called

theorem calls_main (s : Simulation P K) (method : Method (DataPacket V)) :
    calls items s .main method = false := by
  cases method <;> rfl

end Calls

/-- The call a thread is in when it takes a step inside the buffer. -/
theorem engaged (steady : e.Steady (runSimulation items) c) {l : Label (Thread P K) (DataPacket V)}
    {sys : System (Thread P K) (DataPacket V) A}
    (permitted : (runSimulation items).permits e l = true) (turn : Turn e.sys l sys report) :
    ∃ method, calls items e.locals l.thread method = true ∧
      (e.sys.running l = some method ∨ (e.sys.phase l.thread).method = some method) := by
  have runs : ∀ {method}, e.sys.running l = some method →
      calls items e.locals l.thread method = true :=
    fun inside => steady.abides.running permitted inside
  have isIn : ∀ {method}, (e.sys.phase l.thread).method = some method →
      calls items e.locals l.thread method = true := fun inside => steady.abides _ _ inside
  cases turn with
  | waits _ _ inside | unlocks _ _ inside | passes _ _ _ inside | inserts _ _ _ _ _ inside
  | removes _ _ inside | clears inside => exact ⟨_, runs inside, .inl inside⟩
  | wakes _ phase | appends _ _ _ phase | takes phase | throws _ phase | notifies _ _ _ _ phase =>
      exact ⟨_, isIn (congrArg Phase.method phase), .inr (congrArg Phase.method phase)⟩

/-- A consumer that relies on a packet keeps to that until it has it counted, unless it
    throws. -/
theorem relies_kept (sound : Sound items c e) {l : Label (Thread P K) (DataPacket V)}
    {sys : System (Thread P K) (DataPacket V) A} {journal : Journal (Thread P K) (DataPacket V)}
    (permitted : (runSimulation items).permits e l = true) (turn : Turn e.sys l sys report)
    (running : ((runSimulation items).absorb { e with sys := sys, journal := journal } l.thread
      report).terminated = false) :
    Aside.reliesOn e l.thread ≤ Aside.reliesOn
      ((runSimulation items).absorb { e with sys := sys, journal := journal } l.thread report)
        l.thread := by
  obtain ⟨i, action, chosen⟩ := l
  cases i with
  | consumer j =>
      have self : ∀ x : Phase (DataPacket V),
          Function.update e.sys.phase (.consumer j) x (.consumer j) = x :=
        fun x => Function.update_self (.consumer j) x e.sys.phase
      obtain ⟨method, called, -⟩ := engaged sound.audit.steady permitted turn
      have popping := (calls_consumer called).1
      have fresh : ∀ {method}, e.sys.running ⟨.consumer j, action, chosen⟩ = some method →
          Aside.reliesOn e (.consumer j) = 0 := by
        intro method inside
        rcases running_cases inside with ⟨phase, -⟩ | ⟨phase, -⟩
        all_goals
          simp only at phase
          simp [Aside.reliesOn, popping, phase, ConsumerAt.relies]
      cases turn with
      | wakes method phase =>
          simp only at phase
          simp [Aside.reliesOn, popping, phase, ConsumerAt.relies]
      | waits _ _ inside | unlocks _ _ inside | passes _ _ _ inside | inserts _ _ _ _ _ inside
      | removes _ _ inside | clears inside =>
          rw [fresh inside]
          exact Nat.zero_le _
      | appends | takes =>
          simp only [Program.absorb, Aside.reliesOn, popping, self, ConsumerAt.relies]
          exact Bool.toNat_le _
      | throws => simp [Program.absorb, runSimulation, returns] at running
      | notifies cv method result phase notifying delivered =>
          simp only at notifying
          rcases sound.succeeds _ _ _ _ notifying with ⟨timed, -⟩ | ⟨rfl, content, rfl⟩
          · have called := sound.audit.steady.abides (.consumer j) method (by rw [notifying]; rfl)
            cases (calls_consumer called).2
            cases timed
          · simp only [Program.absorb, runSimulation, returns, Aside.reliesOn, Function.update_self,
              ConsumerAt.relies]
            exact Bool.toNat_le _
  | _ => exact Nat.zero_le _

/-- What a call returns is neither counted nor a stop. -/
theorem returns_totals {s s' : Simulation P K} {method : Method (DataPacket V)}
    {result : Result (DataPacket V)} (back : returns s thread method result = some s') :
    s'.totalConsumed = s.totalConsumed ∧ s'.stopFlag = s.stopFlag := by
  rcases returns_cases back with ⟨i, -, ⟨-, rfl⟩ | ⟨-, rfl⟩⟩ | ⟨j, -, ⟨_, -, rfl⟩ | ⟨-, rfl⟩⟩ |
    ⟨-, rfl⟩ | ⟨-, rfl⟩
  all_goals exact ⟨rfl, rfl⟩

theorem absorb_totals (items : Nat) (thread : Thread P K) (report : Report (DataPacket V))
    (e : Execution (Thread P K) (DataPacket V) A (Simulation P K)) :
    ((runSimulation items).absorb e thread report).locals.totalConsumed = e.locals.totalConsumed ∧
      ((runSimulation items).absorb e thread report).locals.stopFlag = e.locals.stopFlag := by
  rcases (runSimulation items).absorb_cases e thread report with
    ⟨-, same⟩ | ⟨method, result, s, -, back, same⟩ | ⟨_, _, -, -, same⟩
  · rw [same]
    exact ⟨rfl, rfl⟩
  · rw [same]
    exact returns_totals (show returns e.locals thread method result = some s from back)
  · rw [same]
    exact ⟨rfl, rfl⟩

/-- What is lost stays lost: only from a state from which `run_simulation` can return
    does a step lead to such a state. -/
theorem CanReturn.of_step (sound : Sound items c e) {m : Move (Thread P K) (DataPacket V)}
    (stepped : (runSimulation items).step e m = some (e', report)) (can : CanReturn items e') :
    CanReturn items e := by
  obtain ⟨running, moves⟩ := Program.step_cases stepped
  rcases moves with ⟨thread, s, idle, going, rfl⟩ | ⟨l, sys, permitted, ran, rfl⟩
  · have going : own items e.locals thread = some s := going
    obtain ⟨relied, -, rounds⟩ := own_totals idle going
    have stays : e.locals.stopFlag = true → s.stopFlag = true :=
      (Aside.own going : Aside thread e _).stop
    exact ⟨running, can.unlost, relied ▸ can.enough,
      fun up => (can.attended (stays up)).trans_eq (rounds up), can.produces, can.consumers⟩
  · have turn := turn_of_step sound.audit.steady.quiet ran
    have aside := Aside.buffer items turn (e.journal.record e.sys l report)
    have relied := aside.relying_step
    have rounds := aside.inRound_step
    have kept := relies_kept sound permitted turn can.running
    have within : Aside.inRoundOf ((runSimulation items).absorb
        { e with sys := sys, journal := e.journal.record e.sys l report } l.thread report) l.thread ≤
          Aside.inRoundOf e l.thread := by
      obtain ⟨method, called, -⟩ := engaged sound.audit.steady permitted turn
      cases thread : l.thread with
      | consumer j =>
          rw [thread] at called
          simp only [Aside.inRoundOf, (calls_consumer called).1, ConsumerAt.inRound]
          exact Bool.toNat_le _
      | _ => exact Nat.le_refl _
    obtain ⟨total, flag⟩ := absorb_totals items l.thread report
      { e with sys := sys, journal := e.journal.record e.sys l report }
    simp only at total flag
    have enough := can.enough
    have attended := can.attended
    have unlost := can.unlost
    rw [total] at enough attended
    rw [flag] at attended
    rw [(Program.absorb_sys _ _ _ _).2] at unlost
    refine ⟨running, Nat.eq_zero_of_add_eq_zero_right unlost, by omega, fun up => ?_, can.produces,
      can.consumers⟩
    have left := attended up
    omega

theorem relying_zero
    (stopped : ∀ j, (e.locals.consumer j).relies (e.sys.phase (.consumer j)) = false) :
    relying e = 0 := by
  apply Finset.sum_eq_zero
  intro j _
  rw [stopped j]
  rfl

theorem CanReturn.of_finished (sound : Sound items c e) (running : e.terminated = false)
    (finished : e.locals.main = .finished) : CanReturn items e := by
  have counts := sound.audit.counts running
  have bound := sound.audit.bound running
  have watched := counts.watched (counts.joined.monitor (.inr finished))
  have stopped := counts.joined.consumers (.inr (.inr finished))
  have divides := counts.joined.divided finished
  have nobody : relying e = 0 := relying_zero fun j => by rw [stopped j]; rfl
  exact ⟨running, by omega, by omega, fun _ => by omega, by omega,
    (sound.orderly running).manned (by omega)⟩

/-- Run lemma. -/
theorem CanReturn.of_reaches {a : A} (pos : 0 < c)
    (reached : Reaches (runSimulation items).step (fun _ _ => True)
      (Execution.start c a (initial : Simulation P K)) e)
    (further : Reaches (runSimulation items).step (fun _ _ => True) e e')
    (can : CanReturn items e') : CanReturn items e := by
  induction further with
  | start => exact can
  | next before _ stepped ih =>
      exact ih (can.of_step (sound_of_reaches pos (reached.trans before)) stepped)

/-! ## What is left -/

/-- While nobody has a packet to report, those that the producers counted are those that
    were overwritten, those that the consumers took and those in the buffer. -/
theorem balance (audit : Audit items c e) (running : e.terminated = false)
    (silent : ∀ thread, (e.sys.phase thread).pending = none) :
    ∑ i, (e.locals.producer i).count = e.journal.overwrites +
      (e.locals.totalConsumed + tally ConsumerAt.isProcessing e.locals.consumer) +
        e.sys.buffer.this.count_ := by
  have counts := audit.counts running
  have same : e.journal.answered.Perm e.journal.reported := by
    apply perm_of_entries
    intro thread
    rw [audit.told, silent]
    exact List.append_nil _
  have taken : e.journal.inserted.length = (confirmed e.journal.reported).length := by
    rw [confirmed, ← List.length_map Prod.snd, map_select]
    exact (same.filterMap _).length_eq
  have given : e.journal.removed.length = (returned e.journal.reported).length := by
    rw [audit.removed, returned, ← List.length_map Prod.snd, map_select]
    exact (same.filterMap _).length_eq
  have made : ∑ i, (e.locals.producer i).count = (confirmed e.journal.reported).length := by
    rw [← sum_length_entries]
    apply Fintype.sum_of_injective Thread.producer (fun i j => Thread.producer.inj)
    · intro thread other
      rw [counts.others thread fun i same => other ⟨i, same.symm⟩]
      rfl
    · intro i
      have ids := congrArg List.length (counts.ids i)
      simpa using ids.symm
  have size := audit.kept.size
  have consumed := counts.consumed
  omega

end Spots

end ProducerConsumerExample

end RingBufferThreadSafe

end Dkyb
