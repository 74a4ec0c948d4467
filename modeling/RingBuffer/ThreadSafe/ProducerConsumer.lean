import Mathlib.Data.Fintype.Sum
import Mathlib.Tactic.DeriveFintype
import RingBuffer.Lib.Tally
import RingBuffer.ThreadSafe.Programs

/-! # Producers and consumers on one buffer

The program of `ProducerConsumerExample::run_simulation`. Producers append with a
timeout and try again when it expires, consumers remove with a timeout until they
are told to stop, a monitor watches until enough was consumed, and the main thread
joins them all and divides by the number of packets consumed before it prints its
verdict. Time, random delays and output are left out: a timeout may expire at any
moment and any value may be produced. Numbers that are an `int` in the code are taken
to fit one.
-/

namespace Dkyb

open Signed Tally

variable {A : Type}

namespace RingBufferThreadSafe

open Transitions

structure DataPacket (V : Type) where
  id : Nat
  value : V
  deriving DecidableEq, Repr

namespace ProducerConsumerExample

/-- The threads, for any `NUM_PRODUCERS` and `NUM_CONSUMERS`. -/
inductive Thread (producers consumers : Nat) where
  | producer (i : Fin producers)
  | consumer (i : Fin consumers)
  | monitor
  | main
  deriving DecidableEq, Fintype

/-- Where a producer is; the number is `produced_count`. -/
inductive ProducerAt where
  | loop (count : Nat)
  /-- Before `total_produced_++`. -/
  | adding (count : Nat)
  deriving DecidableEq, Repr

namespace ProducerAt

def count : ProducerAt → Nat
  | .loop count | .adding count => count

def isAdding : ProducerAt → Bool
  | .loop _ => false
  | .adding _ => true

/-- The loop is over. -/
def isDone (items : Nat) : ProducerAt → Bool
  | .loop count => items ≤ count
  | .adding _ => false

end ProducerAt

inductive ConsumerAt where
  /-- Before it reads `stop_flag_`. -/
  | checking
  | popping
  /-- Before `total_consumed_++`. -/
  | processing
  | finished
  deriving DecidableEq, Repr

def ConsumerAt.isProcessing : ConsumerAt → Bool
  | .processing => true
  | _ => false

inductive MonitorAt where
  /-- Before it reads `total_consumed_`. -/
  | checking
  /-- Before `buffer_.size()`. -/
  | sizing
  /-- Before `buffer_.capacity()`. -/
  | measuring
  | finished
  deriving DecidableEq, Repr

inductive MainAt where
  | joiningProducers
  /-- Before `stop_flag_ = true`. -/
  | stopping
  | joiningConsumers
  | joiningMonitor
  /-- All threads are joined; before the division by `total_consumed_`. -/
  | dividing
  /-- The results are printed. -/
  | finished
  deriving DecidableEq, Repr

structure Simulation (producers consumers : Nat) where
  producer : Fin producers → ProducerAt
  consumer : Fin consumers → ConsumerAt
  monitor : MonitorAt
  main : MainAt
  stopFlag : Bool
  totalProduced : Nat
  totalConsumed : Nat

variable {P K : Nat}

def initial : Simulation P K := ⟨fun _ => .loop 0, fun _ => .checking, .checking,
  .joiningProducers, false, 0, 0⟩

section Members

variable {V : Type} (items : Nat)

def calls (s : Simulation P K) : Thread P K → Method (DataPacket V) → Bool
  | .producer i, .pushBackWithTimeout packet =>
      match s.producer i with
      | .loop count => count < items && packet.id == i * items + count
      | .adding _ => false
  | .consumer j, .popFrontWithTimeout => s.consumer j == .popping
  | .monitor, .size => s.monitor == .sizing
  | .monitor, .capacity => s.monitor == .measuring
  | _, _ => false

def own (s : Simulation P K) : Thread P K → Option (Simulation P K)
  | .producer i =>
      match s.producer i with
      | .adding count => some { s with
          producer := Function.update s.producer i (.loop count)
          totalProduced := s.totalProduced + 1 }
      | .loop _ => none
  | .consumer j =>
      match s.consumer j with
      | .checking => some { s with
          consumer := Function.update s.consumer j (if s.stopFlag then .finished else .popping) }
      | .processing => some { s with
          consumer := Function.update s.consumer j .checking
          totalConsumed := s.totalConsumed + 1 }
      | _ => none
  | .monitor =>
      match s.monitor with
      | .checking => some { s with
          monitor := if s.totalConsumed < P * items then .sizing else .finished }
      | _ => none
  | .main =>
      match s.main with
      | .joiningProducers =>
          if ∀ i, (s.producer i).isDone items then some { s with main := .stopping } else none
      | .stopping => some { s with main := .joiningConsumers, stopFlag := true }
      | .joiningConsumers =>
          if ∀ j, s.consumer j = .finished then some { s with main := .joiningMonitor } else none
      | .joiningMonitor =>
          if s.monitor = .finished then some { s with main := .dividing } else none
      | .dividing =>
          -- an integer divided by 0 has no result to go on with
          if s.totalConsumed = 0 then none else some { s with main := .finished }
      | .finished => none

/-- No thread of the example catches an exception. -/
def returns (s : Simulation P K) (thread : Thread P K) (_ : Method (DataPacket V))
    (result : Result (DataPacket V)) : Option (Simulation P K) :=
  match thread, result with
  | _, .thrown _ => none
  | .producer i, result =>
      if result.failed then
        some s
      else
        some { s with
          producer := Function.update s.producer i (.adding ((s.producer i).count + 1)) }
  | .consumer j, .element _ =>
      some { s with consumer := Function.update s.consumer j .processing }
  | .consumer j, _ => some { s with consumer := Function.update s.consumer j .checking }
  | .monitor, _ =>
      some { s with monitor := if s.monitor = .sizing then .measuring else .checking }
  | .main, _ => some s

/-- `run_simulation`, with the threads it starts, for any `ITEMS_PER_PRODUCER`. -/
def runSimulation : Program (Thread P K) (DataPacket V) (Simulation P K) where
  calls := calls items
  own := own items
  returns := returns

end Members

/-- The last line that is printed says that all items were processed. -/
def Simulation.verdict (s : Simulation P K) : Bool := s.totalProduced == s.totalConsumed

/-! ## What the counters count -/

section Counts

variable {V : Type} {items : Nat}

/-- The packets whose insertion was reported to their producer. -/
def confirmed (reports : List (Thread P K × Method (DataPacket V) × Result (DataPacket V))) :
    List (Thread P K × DataPacket V) :=
  select (fun call => Report.inserted (some call)) reports

/-- The packets that were returned to a consumer. -/
def returned (reports : List (Thread P K × Method (DataPacket V) × Result (DataPacket V))) :
    List (Thread P K × Option (DataPacket V)) :=
  select (fun call => Report.popped (some call)) reports

/-- The next step of the main thread waits for no thread that is still running. -/
structure Joined (items : Nat) (s : Simulation P K) : Prop where
  producers : s.main ≠ .joiningProducers → ∀ i, (s.producer i).isDone items = true
  consumers : s.main = .joiningMonitor ∨ s.main = .dividing ∨ s.main = .finished →
    ∀ j, s.consumer j = .finished
  monitor : s.main = .dividing ∨ s.main = .finished → s.monitor = .finished
  divided : s.main = .finished → s.totalConsumed ≠ 0

structure Counts (items : Nat) (s : Simulation P K)
    (reports : List (Thread P K × Method (DataPacket V) × Result (DataPacket V))) : Prop where
  bounded : ∀ i, (s.producer i).count ≤ items
  produced : s.totalProduced + tally ProducerAt.isAdding s.producer = ∑ i, (s.producer i).count
  ids : ∀ i, (entries (.producer i) (ProducerConsumerExample.confirmed reports)).map DataPacket.id =
    (List.range (s.producer i).count).map fun k => i * items + k
  others : ∀ thread, (∀ i, thread ≠ .producer i) →
    entries thread (ProducerConsumerExample.confirmed reports) = []
  consumed : s.totalConsumed + tally ConsumerAt.isProcessing s.consumer = (returned reports).length
  watched : s.monitor = .finished → P * items ≤ s.totalConsumed
  joined : Joined items s

variable {s s' : Simulation P K} {thread : Thread P K}
  {reports : List (Thread P K × Method (DataPacket V) × Result (DataPacket V))}
  {method : Method (DataPacket V)} {result : Result (DataPacket V)}

/-- Where the other threads are is left alone. -/
structure Elsewhere (thread : Thread P K) (s s' : Simulation P K) : Prop where
  producer : ∀ i, thread ≠ .producer i → s'.producer i = s.producer i
  consumer : ∀ j, thread ≠ .consumer j → s'.consumer j = s.consumer j
  monitor : thread ≠ .monitor → s'.monitor = s.monitor

theorem calls_elsewhere (h : Elsewhere thread s s') {other : Thread P K} (apart : other ≠ thread) :
    calls (V := V) items s' other = calls items s other := by
  funext method
  cases other with
  | producer i =>
      have same := h.producer i (Ne.symm apart)
      cases method <;> simp only [calls, same]
  | consumer j =>
      have same := h.consumer j (Ne.symm apart)
      cases method <;> simp only [calls, same]
  | monitor =>
      have same := h.monitor (Ne.symm apart)
      cases method <;> simp only [calls, same]
  | main => cases method <;> rfl

/-- Moving one producer, or one consumer. -/
theorem update_elsewhere {n : Nat} {β : Type} (f : Fin n → β) {i j : Fin n} (x : β)
    {place : Fin n → Thread P K} (apart : place i ≠ place j) : Function.update f i x j = f j :=
  Function.update_of_ne (fun same => apart (congrArg place same.symm)) x f

/-- A step of each kind of thread by itself. -/
theorem own_cases (going : own items s thread = some s') :
    (∃ i count, thread = .producer i ∧ s.producer i = .adding count ∧ s' = { s with
      producer := Function.update s.producer i (.loop count)
      totalProduced := s.totalProduced + 1 }) ∨
    (∃ j, thread = .consumer j ∧ (s.consumer j = .checking ∧ s' = { s with
        consumer := Function.update s.consumer j (if s.stopFlag then .finished else .popping) } ∨
      s.consumer j = .processing ∧ s' = { s with
        consumer := Function.update s.consumer j .checking
        totalConsumed := s.totalConsumed + 1 })) ∨
    (thread = .monitor ∧ s.monitor = .checking ∧ s' = { s with
      monitor := if s.totalConsumed < P * items then .sizing else .finished }) ∨
    (thread = .main ∧ ∃ next flag, s' = { s with main := next, stopFlag := flag } ∧
      (s.main = .joiningProducers ∧ (∀ i, (s.producer i).isDone items = true) ∧
          next = .stopping ∧ flag = s.stopFlag ∨
        s.main = .stopping ∧ next = .joiningConsumers ∧ flag = true ∨
        s.main = .joiningConsumers ∧ (∀ j, s.consumer j = .finished) ∧
          next = .joiningMonitor ∧ flag = s.stopFlag ∨
        s.main = .joiningMonitor ∧ s.monitor = .finished ∧ next = .dividing ∧ flag = s.stopFlag ∨
        s.main = .dividing ∧ s.totalConsumed ≠ 0 ∧ next = .finished ∧ flag = s.stopFlag)) := by
  cases thread with
  | producer i =>
      simp only [own] at going
      split at going <;> cases going
      exact .inl ⟨i, _, rfl, ‹_›, rfl⟩
  | consumer j =>
      refine .inr (.inl ⟨j, rfl, ?_⟩)
      simp only [own] at going
      split at going <;> cases going
      · exact .inl ⟨‹_›, rfl⟩
      · exact .inr ⟨‹_›, rfl⟩
  | monitor =>
      simp only [own] at going
      split at going <;> cases going
      exact .inr (.inr (.inl ⟨rfl, ‹_›, rfl⟩))
  | main =>
      refine .inr (.inr (.inr ⟨rfl, ?_⟩))
      simp only [own] at going
      split at going
      · split at going <;> cases going
        exact ⟨_, _, rfl, .inl ⟨‹_›, ‹_›, rfl, rfl⟩⟩
      · cases going
        exact ⟨_, _, rfl, .inr (.inl ⟨‹_›, rfl, rfl⟩)⟩
      · split at going <;> cases going
        exact ⟨_, _, rfl, .inr (.inr (.inl ⟨‹_›, ‹_›, rfl, rfl⟩))⟩
      · split at going <;> cases going
        exact ⟨_, _, rfl, .inr (.inr (.inr (.inl ⟨‹_›, ‹_›, rfl, rfl⟩)))⟩
      · split at going <;> cases going
        exact ⟨_, _, rfl, .inr (.inr (.inr (.inr ⟨‹_›, ‹_›, rfl, rfl⟩)))⟩
      · cases going

theorem own_elsewhere (going : own items s thread = some s') : Elsewhere thread s s' := by
  rcases own_cases going with ⟨i, _, rfl, -, rfl⟩ | ⟨j, rfl, ⟨-, rfl⟩ | ⟨-, rfl⟩⟩ | ⟨rfl, -, rfl⟩ |
    ⟨rfl, _, _, rfl, -⟩
  · exact ⟨fun k apart => update_elsewhere _ _ apart, fun _ _ => rfl, fun _ => rfl⟩
  · exact ⟨fun _ _ => rfl, fun k apart => update_elsewhere _ _ apart, fun _ => rfl⟩
  · exact ⟨fun _ _ => rfl, fun k apart => update_elsewhere _ _ apart, fun _ => rfl⟩
  · exact ⟨fun _ _ => rfl, fun _ _ => rfl, fun apart => absurd rfl apart⟩
  · exact ⟨fun _ _ => rfl, fun _ _ => rfl, fun _ => rfl⟩

/-- The return of a call to each kind of thread. -/
theorem returns_cases (back : returns s thread method result = some s') :
    (∃ i, thread = .producer i ∧ (result.failed = true ∧ s' = s ∨ result.failed = false ∧
      s' = { s with producer := Function.update s.producer i (.adding ((s.producer i).count + 1)) })) ∨
    (∃ j, thread = .consumer j ∧ ((∃ content, result = .element content ∧
        s' = { s with consumer := Function.update s.consumer j .processing }) ∨
      (∀ content, result ≠ .element content) ∧
        s' = { s with consumer := Function.update s.consumer j .checking })) ∨
    (thread = .monitor ∧
      s' = { s with monitor := if s.monitor = .sizing then .measuring else .checking }) ∨
    (thread = .main ∧ s' = s) := by
  cases thread with
  | producer i =>
      refine .inl ⟨i, rfl, ?_⟩
      cases result with
      | thrown e => cases back
      | _ =>
          simp only [returns] at back
          split at back
          · cases back
            exact .inl ⟨‹_›, rfl⟩
          · cases back
            exact .inr ⟨Bool.eq_false_iff.mpr ‹_›, rfl⟩
  | consumer j =>
      refine .inr (.inl ⟨j, rfl, ?_⟩)
      cases result with
      | thrown e => cases back
      | element content =>
          cases back
          exact .inl ⟨content, rfl, rfl⟩
      | _ =>
          cases back
          exact .inr ⟨nofun, rfl⟩
  | monitor =>
      refine .inr (.inr (.inl ⟨rfl, ?_⟩))
      cases result <;> cases back <;> rfl
  | main =>
      refine .inr (.inr (.inr ⟨rfl, ?_⟩))
      cases result <;> cases back <;> rfl

theorem returns_elsewhere (back : returns s thread method result = some s') :
    Elsewhere thread s s' := by
  rcases returns_cases back with ⟨i, rfl, ⟨-, rfl⟩ | ⟨-, rfl⟩⟩ | ⟨j, rfl, ⟨_, -, rfl⟩ | ⟨-, rfl⟩⟩ |
    ⟨rfl, rfl⟩ | ⟨rfl, rfl⟩
  · exact ⟨fun _ _ => rfl, fun _ _ => rfl, fun _ => rfl⟩
  · exact ⟨fun k apart => update_elsewhere _ _ apart, fun _ _ => rfl, fun _ => rfl⟩
  · exact ⟨fun _ _ => rfl, fun k apart => update_elsewhere _ _ apart, fun _ => rfl⟩
  · exact ⟨fun _ _ => rfl, fun k apart => update_elsewhere _ _ apart, fun _ => rfl⟩
  · exact ⟨fun _ _ => rfl, fun _ _ => rfl, fun apart => absurd rfl apart⟩
  · exact ⟨fun _ _ => rfl, fun _ _ => rfl, fun _ => rfl⟩

theorem separate : (runSimulation items : Program (Thread P K) (DataPacket V) _).Separate where
  own going _ apart := calls_elsewhere (own_elsewhere going) apart
  returns := by
    intro s thread method result s' back other apart
    have elsewhere : Elsewhere thread s s' := returns_elsewhere (show returns s thread method result =
      some s' from back)
    exact calls_elsewhere elsewhere apart

theorem Counts.initial : Counts (V := V) items (initial : Simulation P K) [] where
  bounded _ := Nat.zero_le _
  produced := by simp [ProducerConsumerExample.initial, tally, ProducerAt.isAdding, ProducerAt.count]
  ids _ := rfl
  others _ _ := rfl
  consumed := by simp [ProducerConsumerExample.initial, tally, ConsumerAt.isProcessing, returned,
    select]
  watched := nofun
  joined := ⟨fun late => absurd rfl late, nofun, nofun, nofun⟩

theorem sum_count_update (f : Fin P → ProducerAt) (i : Fin P) (x : ProducerAt) :
    (∑ k, (Function.update f i x k).count) + (f i).count = (∑ k, (f k).count) + x.count :=
  sum_update ProducerAt.count f i x

namespace Counts

/-- A consumer moves on, and counts what it got. -/
theorem moveConsumer (h : Counts items s reports) {j : Fin K} {x : ConsumerAt} {total : Nat}
    {reports' : List (Thread P K × Method (DataPacket V) × Result (DataPacket V))}
    (busy : s.consumer j ≠ .finished) (more : s.totalConsumed ≤ total)
    (sameIn : ProducerConsumerExample.confirmed reports' =
      ProducerConsumerExample.confirmed reports)
    (balance : total + x.isProcessing.toNat + (returned reports).length =
      s.totalConsumed + (s.consumer j).isProcessing.toNat + (returned reports').length) :
    Counts items { s with consumer := Function.update s.consumer j x, totalConsumed := total }
      reports' where
  bounded := h.bounded
  produced := h.produced
  ids := sameIn ▸ h.ids
  others := sameIn ▸ h.others
  consumed := by
    have moved := tally_update ConsumerAt.isProcessing s.consumer j x
    have consumed := h.consumed
    simp only
    omega
  watched ended := (h.watched ended).trans more
  joined := {
    producers := h.joined.producers
    consumers := fun late => absurd (h.joined.consumers late j) busy
    monitor := h.joined.monitor
    divided := fun ended => absurd (h.joined.consumers (.inr (.inr ended)) j) busy }

/-- A producer moves on, with or without another packet reported. -/
theorem moveProducer (h : Counts items s reports) {i : Fin P} {x : ProducerAt} {total : Nat}
    {reports' : List (Thread P K × Method (DataPacket V) × Result (DataPacket V))}
    (added : List (DataPacket V)) (busy : (s.producer i).isDone items = false)
    (bounded : x.count ≤ items)
    (balance : total + x.isAdding.toNat + (s.producer i).count =
      s.totalProduced + (s.producer i).isAdding.toNat + x.count)
    (more : ProducerConsumerExample.confirmed reports' =
      ProducerConsumerExample.confirmed reports ++ added.map fun packet => (.producer i, packet))
    (ids : (List.range (s.producer i).count).map (fun k => i * items + k) ++
      added.map DataPacket.id = (List.range x.count).map fun k => i * items + k)
    (sameOut : returned reports' = returned reports) :
    Counts items { s with producer := Function.update s.producer i x, totalProduced := total }
      reports' := by
  have counts := sum_count_update s.producer i x
  have waiting : s.main = .joiningProducers := by
    by_contra late
    rw [h.joined.producers late i] at busy
    cases busy
  exact {
    bounded := by
      intro k
      by_cases same : k = i
      · subst same
        simpa only [Function.update_self] using bounded
      · simpa only [Function.update_of_ne same] using h.bounded k
    produced := by
      have moved := tally_update ProducerAt.isAdding s.producer i x
      have produced := h.produced
      simp only
      omega
    ids := by
      intro k
      by_cases same : k = i
      · subst same
        simp only [more, entries_append, entries_own, List.map_append, h.ids, Function.update_self, ids]
      · have apart : (.producer i : Thread P K) ≠ .producer k :=
          fun mine => same (Thread.producer.inj mine).symm
        have other := entries_other apart added
        simp only [more, entries_append, other, List.append_nil, h.ids, Function.update_of_ne same]
    others := by
      intro thread apart
      have other := entries_other (Ne.symm (apart i)) added
      simp only [more, entries_append, other, h.others thread apart, List.append_nil]
    consumed := by simpa only [sameOut] using h.consumed
    watched := h.watched
    joined := {
      producers := fun late => absurd waiting late
      consumers := h.joined.consumers
      monitor := h.joined.monitor
      divided := h.joined.divided } }

/-- A step of a thread by itself. -/
theorem own (h : Counts items s reports)
    (going : ProducerConsumerExample.own items s thread = some s') : Counts items s' reports := by
  rcases own_cases going with ⟨i, count, rfl, at_, rfl⟩ | ⟨j, rfl, ⟨at_, rfl⟩ | ⟨at_, rfl⟩⟩ |
    ⟨rfl, at_, rfl⟩ | ⟨rfl, next, flag, rfl, moved⟩
  · have bounded := h.bounded i
    rw [at_] at bounded
    refine h.moveProducer [] ?_ bounded ?_ (List.append_nil _).symm ?_ rfl
    · rw [at_]
      rfl
    · rw [at_]
      simp [ProducerAt.isAdding, ProducerAt.count]
    · rw [at_]
      simp [ProducerAt.count]
  · refine h.moveConsumer ?_ (Nat.le_refl _) rfl ?_
    · rw [at_]
      nofun
    · rw [at_]
      cases s.stopFlag <;> rfl
  · refine h.moveConsumer ?_ (Nat.le_succ _) rfl ?_
    · rw [at_]
      nofun
    · rw [at_]
      simp [ConsumerAt.isProcessing]
  · have waiting : ¬ (s.main = .dividing ∨ s.main = .finished) := by
      intro ended
      have finished := h.joined.monitor ended
      rw [at_] at finished
      cases finished
    exact { h with
      watched := by
        intro ended
        simp only at ended
        split at ended
        · cases ended
        · exact Nat.not_lt.mp ‹_›
      joined := {
        producers := h.joined.producers
        consumers := h.joined.consumers
        monitor := fun ended => absurd ended waiting
        divided := h.joined.divided } }
  · suffices joined : Joined items { s with main := next, stopFlag := flag } from
      { h with joined := joined }
    rcases moved with ⟨-, done, rfl, -⟩ | ⟨at_, rfl, -⟩ | ⟨at_, stopped, rfl, -⟩ |
      ⟨at_, ended, rfl, -⟩ | ⟨at_, divides, rfl, -⟩
    · exact ⟨fun _ => done, nofun, nofun, nofun⟩
    · have done := h.joined.producers (by rw [at_]; nofun)
      exact ⟨fun _ => done, nofun, nofun, nofun⟩
    · have done := h.joined.producers (by rw [at_]; nofun)
      exact ⟨fun _ => done, fun _ => stopped, nofun, nofun⟩
    · have done := h.joined.producers (by rw [at_]; nofun)
      have stopped := h.joined.consumers (.inl at_)
      exact ⟨fun _ => done, fun _ => stopped, fun _ => ended, nofun⟩
    · have done := h.joined.producers (by rw [at_]; nofun)
      have stopped := h.joined.consumers (.inr (.inl at_))
      have ended := h.joined.monitor (.inl at_)
      exact ⟨fun _ => done, fun _ => stopped, fun _ => ended, fun _ => divides⟩

/-- The return of a call that the thread makes. -/
theorem returns (h : Counts items s reports) (called : calls items s thread method = true)
    (back : ProducerConsumerExample.returns s thread method result = some s') :
    Counts items s' (reports ++ [(thread, method, result)]) := by
  have nothingIn : Report.inserted (some (method, result)) = none →
      ProducerConsumerExample.confirmed (reports ++ [(thread, method, result)]) =
        ProducerConsumerExample.confirmed reports := by
    intro none
    simp [ProducerConsumerExample.confirmed, select, none]
  have nothingOut : Report.popped (some (method, result)) = none →
      returned (reports ++ [(thread, method, result)]) = returned reports := by
    intro none
    simp [returned, select, none]
  rcases returns_cases back with ⟨i, rfl, moved⟩ | ⟨j, rfl, moved⟩ | ⟨rfl, rfl⟩ | ⟨rfl, rfl⟩
  · cases method with
    | pushBackWithTimeout packet =>
        rcases moved with ⟨failed, rfl⟩ | ⟨succeeded, rfl⟩
        · have sameIn := nothingIn (Report.inserted_of_failed failed)
          have sameOut := nothingOut rfl
          exact { h with
            ids := sameIn ▸ h.ids
            others := sameIn ▸ h.others
            consumed := sameOut ▸ h.consumed }
        · simp only [calls] at called
          split at called
          · rename_i count at_
            simp only [Bool.and_eq_true, decide_eq_true_eq, beq_iff_eq] at called
            refine h.moveProducer [packet] ?_ ?_ ?_ ?_ ?_ (nothingOut rfl)
            · simpa [at_, ProducerAt.isDone] using called.1
            · rw [at_]
              exact called.1
            · rw [at_]
              simp [ProducerAt.isAdding, ProducerAt.count]
              omega
            · simp [ProducerConsumerExample.confirmed, select, Report.inserted, succeeded,
                Method.offered]
            · rw [at_]
              simp [ProducerAt.count, List.range_succ, called.2]
          · cases called
    | _ => cases called
  · cases method with
    | popFrontWithTimeout =>
        have popping : s.consumer j = .popping := by simpa [calls] using called
        have busy : s.consumer j ≠ .finished := by
          intro finished
          rw [popping] at finished
          cases finished
        rcases moved with ⟨content, rfl, rfl⟩ | ⟨nothing, rfl⟩
        · refine h.moveConsumer busy (Nat.le_refl _) (nothingIn rfl) ?_
          rw [popping]
          simp [ConsumerAt.isProcessing, returned, select, Report.popped]
          omega
        · have sameOut := nothingOut (by cases result <;> first | rfl | exact absurd rfl (nothing _))
          have sameIn := nothingIn (by simp [Report.inserted, Method.offered])
          refine h.moveConsumer busy (Nat.le_refl _) sameIn ?_
          rw [popping, sameOut]
          rfl
    | _ => cases called
  · have sameIn := nothingIn (by cases method <;> first | cases called | simp [Report.inserted,
      Method.offered])
    have sameOut := nothingOut (by cases method <;> first | rfl | cases called)
    have watching : s.monitor ≠ .finished := by
      intro ended
      cases method <;> simp [calls, ended] at called
    exact { h with
      ids := sameIn ▸ h.ids
      others := sameIn ▸ h.others
      consumed := sameOut ▸ h.consumed
      watched := by
        intro ended
        simp only at ended
        split at ended <;> cases ended
      joined := {
        producers := h.joined.producers
        consumers := h.joined.consumers
        monitor := fun ended => absurd (h.joined.monitor ended) watching
        divided := h.joined.divided } }
  · cases method <;> cases called

end Counts

end Counts

section Verdict

variable {V : Type} {items c : Nat} {e : Execution (Thread P K) (DataPacket V) A (Simulation P K)}

/-- How many packets a thread may ever put in. -/
def quota (items : Nat) : Thread P K → Nat
  | .producer _ => items
  | _ => 0

theorem sum_quota : ∑ thread : Thread P K, quota items thread = P * items := by
  have producers : ∑ _i : Fin P, items = ∑ thread : Thread P K, quota items thread := by
    apply Fintype.sum_of_injective Thread.producer (fun i j => Thread.producer.inj)
    · intro thread other
      cases thread with
      | producer i => exact absurd ⟨i, rfl⟩ other
      | _ => rfl
    · exact fun _ => rfl
  rw [← producers, Finset.sum_const_nat fun _ _ => rfl, Finset.card_univ, Fintype.card_fin]

/-- The packets one thread put in, the last of which it was perhaps not told about. -/
theorem Counts.share (h : Counts items e.locals e.journal.reported)
    (steady : e.Steady (runSimulation items) c) (thread : Thread P K) :
    (entries thread (confirmed e.journal.reported)).length +
      ((e.sys.phase thread).pending.toList.filterMap fun call => Report.inserted (some call)).length ≤
        quota items thread := by
  have abides := steady.abides thread
  cases thread with
  | producer i =>
      have told := congrArg List.length (h.ids i)
      have bounded := h.bounded i
      simp only [List.length_map, List.length_range] at told
      rw [told]
      cases phase : e.sys.phase (.producer i) with
      | notifying cv method result =>
          rw [phase] at abides
          have called := abides method rfl
          have more : (e.locals.producer i).count + 1 ≤ items := by
            cases method with
            | pushBackWithTimeout packet =>
                simp only [runSimulation, calls] at called
                split at called
                · rename_i at_
                  rw [at_]
                  simp only [Bool.and_eq_true, decide_eq_true_eq] at called
                  exact called.1
                · cases called
            | _ => cases called
          have one : ([(method, result)].filterMap fun call =>
            Report.inserted (some call)).length ≤ 1 := List.length_filterMap_le _ _
          simp only [Phase.pending, Option.toList_some, quota]
          omega
      | _ => simpa [Phase.pending, quota] using bounded
  | _ =>
      rw [h.others _ fun _ same => by cases same]
      cases phase : e.sys.phase _ with
      | notifying cv method result =>
          rw [phase] at abides
          have called := abides method rfl
          cases method <;> first | cases called | simp [Phase.pending, Report.inserted,
            Method.offered, quota]
      | _ => simp [Phase.pending, quota]

theorem Counts.author {s : Simulation P K}
    {reports : List (Thread P K × Method (DataPacket V) × Result (DataPacket V))}
    (h : Counts items s reports) {entry : Thread P K × DataPacket V}
    (member : entry ∈ confirmed reports) :
    ∃ i k, entry.1 = .producer i ∧ k < items ∧ entry.2.id = i * items + k := by
  obtain ⟨thread, packet⟩ := entry
  have own := mem_entries.mpr member
  cases thread with
  | producer i =>
      have label := List.mem_map_of_mem (f := DataPacket.id) own
      rw [h.ids i] at label
      obtain ⟨k, below, same⟩ := List.mem_map.mp label
      exact ⟨i, k, rfl, (List.mem_range.mp below).trans_le (h.bounded i), same.symm⟩
  | _ =>
      rw [h.others _ fun _ same => by cases same] at own
      cases own

/-- When all packets were made there is one for each id. -/
theorem Counts.ids_perm {s : Simulation P K}
    {reports : List (Thread P K × Method (DataPacket V) × Result (DataPacket V))}
    (h : Counts items s reports) (all : (confirmed reports).length = P * items) :
    ((confirmed reports).map fun entry => entry.2.id).Perm (List.range (P * items)) := by
  have distinct : ((confirmed reports).map fun entry => entry.2.id).Nodup := by
    apply nodup_map
    · intro thread
      cases thread with
      | producer i =>
          rw [h.ids i]
          exact List.nodup_range.map fun k k' same => Nat.add_left_cancel same
      | _ =>
          rw [h.others _ fun _ same => by cases same]
          exact List.nodup_nil
    · intro x hx y hy same
      obtain ⟨i, k, mine, below, number⟩ := h.author hx
      obtain ⟨i', k', yours, below', number'⟩ := h.author hy
      have quotient : ∀ {n r : Nat}, r < items → (n * items + r) / items = n := by
        intro n r less
        rw [Nat.add_comm, Nat.add_mul_div_right _ _ (Nat.zero_lt_of_lt less),
          Nat.div_eq_of_lt less, Nat.zero_add]
      have first : i.val = i'.val := by
        rw [← quotient (n := i) below, ← quotient (n := i') below', ← number, ← number', same]
      rw [mine, yours, Fin.ext first]
  have inside : ∀ id ∈ (confirmed reports).map fun entry => entry.2.id, id ∈ List.range (P * items) := by
    intro id member
    obtain ⟨entry, made, rfl⟩ := List.mem_map.mp member
    obtain ⟨i, k, -, below, number⟩ := h.author made
    have row := Nat.mul_le_mul_right items i.isLt
    rw [Nat.succ_mul] at row
    rw [List.mem_range, number]
    omega
  apply (distinct.subperm inside).perm_of_length_le
  simp [all]

/-- What is known of the whole program in any state of a run. -/
structure Audit (items c : Nat) (e : Execution (Thread P K) (DataPacket V) A (Simulation P K)) :
    Prop where
  steady : e.Steady (runSimulation items) c
  kept : Kept c e.sys e.journal
  told : ∀ thread, entries thread e.journal.answered =
    entries thread e.journal.reported ++ (e.sys.phase thread).pending.toList
  removed : e.journal.removed = e.journal.answered.filterMap fun call => Report.popped (some call.2)
  counts : e.terminated = false → Counts items e.locals e.journal.reported

theorem audit_of_reaches {a : A} (pos : 0 < c)
    (reached : Reaches (runSimulation items).step (fun _ _ => True)
      (Execution.start c a (initial : Simulation P K)) e) : Audit items c e := by
  have below := Program.reaches_system pos separate reached
  obtain ⟨steady, counts⟩ := Program.invariant pos separate Counts.initial
    (fun h going => h.own going) (fun h called back => h.returns called back) reached
  refine ⟨steady, Kept.of_reaches pos a below, told_of_reaches pos a below, ?_, counts⟩
  apply Program.removed_popped pos separate ?_ reached
  intro s thread
  cases thread <;> rfl

/-- Every packet is made at most once: those consumed, those present and those lost
    to an overwrite are never more than what the producers are to make. -/
theorem Audit.bound (h : Audit items c e) (running : e.terminated = false) :
    e.journal.overwrites + e.locals.totalConsumed + e.sys.buffer.this.size ≤ P * items := by
  have counts := h.counts running
  have put : e.journal.inserted.length ≤ P * items := by
    have all : e.journal.inserted = (select (fun call => Report.inserted (some call))
      e.journal.answered).map Prod.snd :=
        (map_select (fun call => Report.inserted (some call)) _).symm
    rw [all, List.length_map, ← sum_length_entries, ← sum_quota (P := P) (K := K)]
    apply Finset.sum_le_sum
    intro thread _
    rw [entries_select, h.told, List.filterMap_append, List.length_append, ← entries_select]
    exact counts.share h.steady thread
  have got : e.locals.totalConsumed ≤ e.journal.removed.length := by
    have more := length_select_le (fun call => Report.popped (some call))
      fun thread => ⟨_, (h.told thread).symm⟩
    have consumed := counts.consumed
    rw [h.removed, ← map_select (fun call => Report.popped (some call)), List.length_map]
    exact ((Nat.le_add_right _ _).trans_eq consumed).trans more
  have size := h.kept.size
  simp only [RingBuffer.size]
  omega

theorem isDone_count {x : ProducerAt} (bounded : x.count ≤ items) (done : x.isDone items = true) :
    x.isAdding = false ∧ x.count = items := by
  cases x with
  | loop count =>
      simp only [ProducerAt.isDone, decide_eq_true_eq] at done
      exact ⟨rfl, Nat.le_antisymm bounded done⟩
  | adding count => cases done

/-- Once the main thread is done no thread is in a call any more. -/
theorem Joined.ended {s : Simulation P K} (h : Joined items s) (finished : s.main = .finished)
    (thread : Thread P K) (method : Method (DataPacket V)) : calls items s thread method = false := by
  cases thread with
  | producer i =>
      have done := h.producers (by rw [finished]; nofun) i
      cases method with
      | pushBackWithTimeout packet =>
          cases at_ : s.producer i with
          | loop count =>
              rw [at_] at done
              simp only [ProducerAt.isDone, decide_eq_true_eq] at done
              simp only [calls, at_, Nat.not_lt.mpr done, decide_false, Bool.false_and]
          | adding count => simp only [calls, at_]
      | _ => rfl
  | consumer j =>
      have stopped := h.consumers (.inr (.inr finished)) j
      cases method <;> simp [calls, stopped]
  | monitor =>
      have ended := h.monitor (.inr finished)
      cases method <;> simp [calls, ended]
  | main => cases method <;> rfl

/-- An overwritten packet is missing for ever: from then on the monitor never sees
    as many consumed as there should be, and `run_simulation` does not return. -/
theorem lost_packet_hangs {a : A} (pos : 0 < c)
    (reached : Reaches (runSimulation items).step (fun _ _ => True)
      (Execution.start c a (initial : Simulation P K)) e) (running : e.terminated = false) :
    e.journal.overwrites + e.locals.totalConsumed + e.sys.buffer.this.size ≤ P * items ∧
      (0 < e.journal.overwrites → e.locals.monitor ≠ .finished ∧ e.locals.main ≠ .finished) := by
  have audit := audit_of_reaches pos reached
  have bound := audit.bound running
  refine ⟨bound, fun lost => ?_⟩
  have watching : e.locals.monitor ≠ .finished := by
    intro ended
    have watched := (audit.counts running).watched ended
    omega
  exact ⟨watching, fun finished => watching ((audit.counts running).joined.monitor (.inr finished))⟩

/-- Capacity 1: both producers find room and then append one after the other. -/
theorem lost_packet_hangs_two :
    ∃ e : Execution (Thread 2 1) (DataPacket Nat) Unit (Simulation 2 1),
      e.journal.overwrites = 1 ∧ (0 < e.journal.overwrites →
        e.locals.monitor ≠ .finished ∧ e.locals.main ≠ .finished) := by
  let schedule : List (Move (Thread 2 1) (DataPacket Nat)) :=
    [.buffer ⟨.producer 0, .call (.pushBackWithTimeout ⟨0, 7⟩), none⟩,
      .buffer ⟨.producer 1, .call (.pushBackWithTimeout ⟨1, 8⟩), none⟩,
      .buffer ⟨.producer 0, .proceed, none⟩, .buffer ⟨.producer 1, .proceed, none⟩]
  have ran : (exec (runSimulation 1).step (fun _ _ => True) (Execution.start 1 () initial)
      schedule).map (fun e => (e.journal.overwrites, e.terminated)) = some (1, false) := by
    decide +kernel
  obtain ⟨e, ran, recorded⟩ := Option.map_eq_some_iff.mp ran
  exact ⟨e, congrArg Prod.fst recorded,
    (lost_packet_hangs (by decide) (Reaches.of_exec ran) (congrArg Prod.snd recorded)).2⟩

/-- When `run_simulation` returns there was a packet to process and every packet was
    processed once: the counters agree, nothing was overwritten or left behind, and the
    consumers got exactly the packets that the producers made, one for each id. -/
theorem run_simulation_processes_all {a : A} (pos : 0 < c)
    (reached : Reaches (runSimulation items).step (fun _ _ => True)
      (Execution.start c a (initial : Simulation P K)) e) (running : e.terminated = false)
    (finished : e.locals.main = .finished) :
    0 < P * items ∧ e.locals.totalProduced = P * items ∧ e.locals.totalConsumed = P * items ∧
      e.locals.verdict = true ∧ e.journal.overwrites = 0 ∧ e.sys.buffer.contents = [] ∧
      ((returned e.journal.reported).map Prod.snd).Perm
        ((confirmed e.journal.reported).map fun entry => some entry.2) ∧
      ((confirmed e.journal.reported).map fun entry => entry.2.id).Perm (List.range (P * items)) := by
  have audit := audit_of_reaches pos reached
  have counts := audit.counts running
  have joined := counts.joined
  have bound := audit.bound running
  have watched := counts.watched (joined.monitor (.inr finished))
  have idle : ∀ thread, e.sys.phase thread = .idle :=
    fun thread => audit.steady.idle (joined.ended finished thread)
  have same : e.journal.answered.Perm e.journal.reported := by
    apply perm_of_entries
    intro thread
    rw [audit.told, idle]
    exact List.append_nil _
  have produced : e.locals.totalProduced = P * items := by
    have done : ∀ i, _ := fun i => isDone_count (counts.bounded i)
      (joined.producers (by rw [finished]; nofun) i)
    have none : tally ProducerAt.isAdding e.locals.producer = 0 :=
      tally_zero_iff.mpr fun i => (done i).1
    have all : ∑ i, (e.locals.producer i).count = P * items := by
      rw [Finset.sum_const_nat fun i _ => (done i).2, Finset.card_univ, Fintype.card_fin]
    have produced := counts.produced
    omega
  have empty : e.sys.buffer.this.count_ = 0 := by
    simp only [RingBuffer.size] at bound
    omega
  have consumed : e.locals.totalConsumed = P * items := by omega
  have unlost : e.journal.overwrites = 0 := by omega
  have nothing : e.sys.buffer.contents = [] := by simp [State.contents, empty]
  have taken : e.journal.inserted.Perm ((confirmed e.journal.reported).map Prod.snd) := by
    rw [confirmed, map_select]
    exact same.filterMap _
  have given : e.journal.removed.Perm ((returned e.journal.reported).map Prod.snd) := by
    rw [audit.removed, returned, map_select]
    exact same.filterMap _
  have through : e.journal.inserted.map some = e.journal.removed := by
    obtain ⟨q, queued, balance⟩ := audit.kept.order unlost
    have drained := queued.contents_eq
    rw [nothing] at drained
    rw [balance, ← drained, List.append_nil]
  have divides := joined.divided finished
  refine ⟨by omega, produced, consumed, ?_, unlost, nothing, ?_, ?_⟩
  · rw [Simulation.verdict, produced, consumed]
    exact beq_self_eq_true _
  · rw [← through] at given
    have both := given.symm.trans (taken.map some)
    rwa [List.map_map] at both
  · have all : (confirmed e.journal.reported).length = P * items := by
      have size := audit.kept.size
      have lengths := taken.length_eq
      have gone := given.length_eq
      have counted := counts.consumed
      have stopped : tally ConsumerAt.isProcessing e.locals.consumer = 0 := by
        apply tally_zero_iff.mpr
        intro j
        rw [joined.consumers (.inr (.inr finished)) j]
        rfl
      rw [List.length_map] at lengths gone
      omega
    exact counts.ids_perm all

/-- Capacity 1, one producer of one packet and one consumer. -/
theorem run_simulation_processes_all_one :
    ∃ e : Execution (Thread 1 1) (DataPacket Nat) Unit (Simulation 1 1),
      e.locals.main = .finished ∧ e.locals.totalConsumed = 1 ∧
        ((confirmed e.journal.reported).map fun entry => entry.2.id).Perm [0] := by
  let schedule : List (Move (Thread 1 1) (DataPacket Nat)) :=
    [.buffer ⟨.producer 0, .call (.pushBackWithTimeout ⟨0, 7⟩), none⟩,
      .buffer ⟨.producer 0, .proceed, none⟩, .buffer ⟨.producer 0, .notify, none⟩,
      .own (.producer 0), .own (.consumer 0), .own .main,
      .buffer ⟨.consumer 0, .call .popFrontWithTimeout, none⟩,
      .buffer ⟨.consumer 0, .proceed, none⟩, .buffer ⟨.consumer 0, .notify, none⟩,
      .own (.consumer 0), .own .main, .own (.consumer 0), .own .monitor, .own .main, .own .main,
      .own .main]
  have ran : (exec (runSimulation 1).step (fun _ _ => True) (Execution.start 1 () initial)
      schedule).map (fun e => (e.locals.main, e.terminated)) = some (.finished, false) := by
    decide +kernel
  obtain ⟨e, ran, recorded⟩ := Option.map_eq_some_iff.mp ran
  have finished := congrArg Prod.fst recorded
  have all := run_simulation_processes_all (by decide) (Reaches.of_exec ran)
    (congrArg Prod.snd recorded) finished
  exact ⟨e, finished, all.2.2.1, all.2.2.2.2.2.2.2⟩

end Verdict

end ProducerConsumerExample

end RingBufferThreadSafe

end Dkyb
