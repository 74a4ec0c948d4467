import RingBuffer.ThreadSafe.ProducerConsumer

/-! # Priorities on one buffer

The program of `demonstrate_priority_processing`. Two producers append packets of high
and of low value with the blocking `push_back`, and one consumer removes them with a
timeout and counts each by its value. Whatever the priorities, it gets the packets in
the order in which they were put in.
-/

namespace Dkyb

open Signed

variable {A : Type}

namespace RingBufferThreadSafe

open Transitions

namespace PriorityProcessing

inductive Thread where
  | highPriorityProducer
  | lowPriorityProducer
  | priorityConsumer
  | main
  deriving DecidableEq

instance : Fintype Thread where
  elems := {.highPriorityProducer, .lowPriorityProducer, .priorityConsumer, .main}
  complete thread := by cases thread <;> decide

inductive MainAt where
  | joiningHigh
  | joiningLow
  | joiningConsumer
  | finished
  deriving DecidableEq, Repr

/-- The loop counters of the producers, the two counters of `priority_processor`, and
    which thread the main thread joins. -/
structure Locals where
  high : Nat
  low : Nat
  processedHigh : Nat
  processedLow : Nat
  main : MainAt

def initial : Locals := ⟨0, 0, 0, 0, .joiningHigh⟩

def highPacket (i : Nat) : DataPacket Nat := ⟨i, 999⟩

def lowPacket (i : Nat) : DataPacket Nat := ⟨i + 1000, 1⟩

/-- The test of `priority_processor`. -/
def isHigh (packet : DataPacket Nat) : Bool := 500 < packet.value

section Members

variable (items : Nat)

def calls (s : Locals) : Thread → Method (DataPacket Nat) → Bool
  | .highPriorityProducer, .pushBack packet => s.high < items && packet == highPacket s.high
  | .lowPriorityProducer, .pushBack packet => s.low < items && packet == lowPacket s.low
  | .priorityConsumer, .popFrontWithTimeout => s.processedHigh + s.processedLow < 2 * items
  | _, _ => false

/-- Joining a thread waits for the end of its loop. -/
def own (s : Locals) : Thread → Option Locals
  | .main =>
      match s.main with
      | .joiningHigh => if items ≤ s.high then some { s with main := .joiningLow } else none
      | .joiningLow => if items ≤ s.low then some { s with main := .joiningConsumer } else none
      | .joiningConsumer =>
          if 2 * items ≤ s.processedHigh + s.processedLow then
            some { s with main := .finished }
          else
            none
      | .finished => none
  | _ => none

/-- Nothing catches an exception, and a slot that holds nothing has no value to
    compare. -/
def returns (s : Locals) (thread : Thread) (_ : Method (DataPacket Nat))
    (result : Result (DataPacket Nat)) : Option Locals :=
  match thread, result with
  | .highPriorityProducer, .void => some { s with high := s.high + 1 }
  | .lowPriorityProducer, .void => some { s with low := s.low + 1 }
  | .priorityConsumer, .nullopt => some s
  | .priorityConsumer, .element (some packet) =>
      if isHigh packet then
        some { s with processedHigh := s.processedHigh + 1 }
      else
        some { s with processedLow := s.processedLow + 1 }
  | _, _ => none

/-- The demonstration, for any number of packets of each kind. -/
def demonstratePriorityProcessing : Program Thread (DataPacket Nat) Locals where
  calls := calls items
  own := own items
  returns := returns

end Members

/-- Which thread makes which calls. -/
def Makes : Thread → Method (DataPacket Nat) → Prop
  | .highPriorityProducer, .pushBack _ | .lowPriorityProducer, .pushBack _
  | .priorityConsumer, .popFrontWithTimeout => True
  | _, _ => False

section Runs

variable {items c : Nat} {s s' : Locals} {thread : Thread} {method : Method (DataPacket Nat)}
  {result : Result (DataPacket Nat)}
  {reports : List (Thread × Method (DataPacket Nat) × Result (DataPacket Nat))}

theorem makes_of_calls (called : calls items s thread method = true) : Makes thread method := by
  cases thread <;> cases method <;> trivial

theorem makes_cases (made : Makes thread method) :
    (∃ packet, method = .pushBack packet) ∨
      thread = .priorityConsumer ∧ method = .popFrontWithTimeout := by
  cases thread <;> cases method <;> first | exact .inl ⟨_, rfl⟩ | exact .inr ⟨rfl, rfl⟩ | cases made

/-- The return of a call to each thread. -/
theorem returns_cases (back : returns s thread method result = some s') :
    (thread = .highPriorityProducer ∧ result = .void ∧ s' = { s with high := s.high + 1 }) ∨
    (thread = .lowPriorityProducer ∧ result = .void ∧ s' = { s with low := s.low + 1 }) ∨
    (thread = .priorityConsumer ∧ result = .nullopt ∧ s' = s) ∨
    ∃ packet, thread = .priorityConsumer ∧ result = .element (some packet) ∧
      s' = { s with
        processedHigh := s.processedHigh + (isHigh packet).toNat
        processedLow := s.processedLow + (!isHigh packet).toNat } := by
  unfold returns at back
  split at back
  · cases back
    exact .inl ⟨rfl, rfl, rfl⟩
  · cases back
    exact .inr (.inl ⟨rfl, rfl, rfl⟩)
  · cases back
    exact .inr (.inr (.inl ⟨rfl, rfl, rfl⟩))
  · rename_i packet
    refine .inr (.inr (.inr ⟨packet, rfl, rfl, ?_⟩))
    cases high : isHigh packet <;> simp only [high, Bool.false_eq_true, if_true, if_false] at back <;>
      cases back <;> rfl
  · cases back

theorem own_cases (going : own items s thread = some s') :
    thread = .main ∧ s'.high = s.high ∧ s'.low = s.low ∧ s'.processedHigh = s.processedHigh ∧
      s'.processedLow = s.processedLow ∧
      (s'.main = .joiningLow ∧ items ≤ s.high ∨
        s.main = .joiningLow ∧ s'.main = .joiningConsumer ∧ items ≤ s.low ∨
        s.main = .joiningConsumer ∧ s'.main = .finished ∧
          2 * items ≤ s.processedHigh + s.processedLow) := by
  cases thread with
  | main =>
      simp only [own] at going
      split at going
      · split at going <;> cases going
        exact ⟨rfl, rfl, rfl, rfl, rfl, .inl ⟨rfl, ‹_›⟩⟩
      · split at going <;> cases going
        exact ⟨rfl, rfl, rfl, rfl, rfl, .inr (.inl ⟨‹_›, rfl, ‹_›⟩)⟩
      · split at going <;> cases going
        exact ⟨rfl, rfl, rfl, rfl, rfl, .inr (.inr ⟨‹_›, rfl, ‹_›⟩)⟩
      · cases going
  | _ => cases going

theorem separate : (demonstratePriorityProcessing items).Separate where
  own := by
    intro s thread s' going other apart
    obtain ⟨-, high, low, processedHigh, processedLow, -⟩ :=
      own_cases (show own items s thread = some s' from going)
    funext method
    cases other <;> cases method <;> first | rfl |
      simp only [demonstratePriorityProcessing, calls, high, low, processedHigh, processedLow]
  returns := by
    intro s thread method result s' back other apart
    rcases returns_cases (show returns s thread method result = some s' from back) with
      ⟨rfl, -, rfl⟩ | ⟨rfl, -, rfl⟩ | ⟨rfl, -, rfl⟩ | ⟨packet, rfl, -, rfl⟩
    all_goals
      funext called
      cases other <;> cases called <;> first | rfl | exact absurd rfl apart

/-! ## What the counters count -/

/-- What was returned to the consumer so far. -/
def removed (reports : List (Thread × Method (DataPacket Nat) × Result (DataPacket Nat))) :
    List (Option (DataPacket Nat)) :=
  reports.filterMap fun call => Report.popped (some call.2)

theorem removed_snoc : removed (reports ++ [(thread, method, result)]) =
    removed reports ++ (Report.popped (some (method, result))).toList := by
  rw [removed, List.filterMap_append]
  rfl

structure Tallies (items : Nat) (s : Locals)
    (reports : List (Thread × Method (DataPacket Nat) × Result (DataPacket Nat))) : Prop where
  high : entries .highPriorityProducer (select (fun call => Report.inserted (some call)) reports) =
    (List.range s.high).map highPacket
  highBound : s.high ≤ items
  low : entries .lowPriorityProducer (select (fun call => Report.inserted (some call)) reports) =
    (List.range s.low).map lowPacket
  lowBound : s.low ≤ items
  processed : ∃ packets : List (DataPacket Nat), PriorityProcessing.removed reports = packets.map some ∧
    s.processedHigh = packets.countP isHigh ∧ s.processedLow = packets.countP fun x => !isHigh x
  joinedHigh : s.main ≠ .joiningHigh → items ≤ s.high
  joinedLow : s.main = .joiningConsumer ∨ s.main = .finished → items ≤ s.low
  joinedConsumer : s.main = .finished → 2 * items ≤ s.processedHigh + s.processedLow

namespace Tallies

theorem initial : Tallies items PriorityProcessing.initial [] where
  high := rfl
  highBound := Nat.zero_le _
  low := rfl
  lowBound := Nat.zero_le _
  processed := ⟨[], rfl, rfl, rfl⟩
  joinedHigh apart := absurd rfl apart
  joinedLow := by simp [PriorityProcessing.initial]
  joinedConsumer := by simp [PriorityProcessing.initial]

theorem own (h : Tallies items s reports)
    (going : PriorityProcessing.own items s thread = some s') : Tallies items s' reports := by
  obtain ⟨-, high, low, processedHigh, processedLow, moved⟩ := own_cases going
  refine ⟨high ▸ h.high, high ▸ h.highBound, low ▸ h.low, low ▸ h.lowBound,
    processedHigh ▸ processedLow ▸ h.processed, ?_, ?_, ?_⟩
  · intro _
    rw [high]
    rcases moved with ⟨-, done⟩ | ⟨before, -, -⟩ | ⟨before, -, -⟩
    · exact done
    · exact h.joinedHigh (by simp [before])
    · exact h.joinedHigh (by simp [before])
  · intro after
    rw [low]
    rcases moved with ⟨now, -⟩ | ⟨-, -, done⟩ | ⟨before, -, -⟩
    · simp [now] at after
    · exact done
    · exact h.joinedLow (.inl before)
  · intro after
    rw [processedHigh, processedLow]
    rcases moved with ⟨now, -⟩ | ⟨-, now, -⟩ | ⟨-, -, done⟩
    · simp [now] at after
    · simp [now] at after
    · exact done

/-- A producer appends its next packet. -/
theorem returns (h : Tallies items s reports) (called : calls items s thread method = true)
    (back : PriorityProcessing.returns s thread method result = some s') :
    Tallies items s' (reports ++ [(thread, method, result)]) := by
  obtain ⟨packets, gone, processedHigh, processedLow⟩ := h.processed
  rcases returns_cases back with ⟨rfl, rfl, rfl⟩ | ⟨rfl, rfl, rfl⟩ | ⟨rfl, rfl, rfl⟩ |
    ⟨packet, rfl, rfl, rfl⟩
  · cases method with
    | pushBack packet =>
        simp only [calls, Bool.and_eq_true, decide_eq_true_eq, beq_iff_eq] at called
        obtain ⟨below, rfl⟩ := called
        refine ⟨?_, below, ?_, h.lowBound, ⟨packets, ?_, processedHigh, processedLow⟩, ?_,
          h.joinedLow, h.joinedConsumer⟩
        · rw [entries_select_snoc, if_pos rfl, h.high, List.range_succ, List.map_append]
          rfl
        · rw [entries_select_snoc, if_neg (by decide), List.append_nil, h.low]
        · rw [removed_snoc, gone]
          exact List.append_nil _
        · exact fun apart => (h.joinedHigh apart).trans (Nat.le_succ _)
    | _ => cases called
  · cases method with
    | pushBack packet =>
        simp only [calls, Bool.and_eq_true, decide_eq_true_eq, beq_iff_eq] at called
        obtain ⟨below, rfl⟩ := called
        refine ⟨?_, h.highBound, ?_, below, ⟨packets, ?_, processedHigh, processedLow⟩,
          h.joinedHigh, ?_, h.joinedConsumer⟩
        · rw [entries_select_snoc, if_neg (by decide), List.append_nil, h.high]
        · rw [entries_select_snoc, if_pos rfl, h.low, List.range_succ, List.map_append]
          rfl
        · rw [removed_snoc, gone]
          exact List.append_nil _
        · exact fun after => (h.joinedLow after).trans (Nat.le_succ _)
    | _ => cases called
  · refine ⟨?_, h.highBound, ?_, h.lowBound, ⟨packets, ?_, processedHigh, processedLow⟩,
      h.joinedHigh, h.joinedLow, h.joinedConsumer⟩
    · rw [entries_select_snoc, if_neg (by decide), List.append_nil, h.high]
    · rw [entries_select_snoc, if_neg (by decide), List.append_nil, h.low]
    · rw [removed_snoc, gone]
      cases method <;> exact List.append_nil _
  · have more : 2 * items ≤ s.processedHigh + s.processedLow → 2 * items ≤
        s.processedHigh + (isHigh packet).toNat + (s.processedLow + (!isHigh packet).toNat) := by
      intro enough
      omega
    refine ⟨?_, h.highBound, ?_, h.lowBound, ⟨packets ++ [packet], ?_, ?_, ?_⟩,
      h.joinedHigh, h.joinedLow, fun after => more (h.joinedConsumer after)⟩
    · rw [entries_select_snoc, if_neg (by decide), List.append_nil, h.high]
    · rw [entries_select_snoc, if_neg (by decide), List.append_nil, h.low]
    · rw [removed_snoc, gone, List.map_append]
      cases method <;> first | rfl | cases called
    · cases high : isHigh packet <;> simp [high, processedHigh]
    · cases high : isHigh packet <;> simp [high, processedLow]

end Tallies

/-! ## Runs -/

variable {e : Execution Thread (DataPacket Nat) A Locals}

/-- Only the consumer removes, and nothing is appended after a lock's scope. -/
theorem unraced (steady : e.Steady (demonstratePriorityProcessing items) c)
    {l : Label Thread (DataPacket Nat)}
    (permitted : (demonstratePriorityProcessing items).permits e l = true) : Unraced e.sys l := by
  have inside : ∀ k method, (e.sys.phase k).method = some method → Makes k method :=
    fun k method called => makes_of_calls (steady.abides k method called)
  have popping : ∀ k, (e.sys.phase k).pendingPop = true → k = .priorityConsumer := by
    intro k pending
    have made := inside k .popFrontWithTimeout (by rw [Phase.pendingPop_iff.mp pending]; rfl)
    cases k <;> first | rfl | cases made
  constructor
  · intro _ _ k _
    rw [← Bool.not_eq_true]
    intro pending
    obtain ⟨method, phase, timed⟩ := Phase.pendingPush_iff.mp pending
    rcases makes_cases (inside k method (by rw [phase]; rfl)) with ⟨packet, rfl⟩ | ⟨-, rfl⟩
    all_goals cases timed
  · intro empties k other
    rw [← Bool.not_eq_true]
    intro pending
    have here := popping k pending
    cases running : e.sys.running l with
    | some method =>
        have made : Makes l.thread method :=
          makes_of_calls (steady.abides.running permitted running)
        rcases makes_cases made with ⟨packet, rfl⟩ | ⟨there, rfl⟩
        · simp [System.empties, running, Method.pops] at empties
        · exact other (here.trans there.symm)
    | none =>
        simp only [System.empties, running] at empties
        split at empties
        · rw [Bool.and_eq_true] at empties
          exact other (here.trans (popping l.thread empties.1).symm)
        · cases empties

theorem made_of_answered {a : A} (pos : 0 < c)
    (reached : Reaches (demonstratePriorityProcessing items).step (fun _ _ => True)
      (Execution.start c a initial) e) : ∀ call ∈ e.journal.answered, Makes call.1 call.2.1 :=
  Program.answered_made pos separate (fun called => makes_of_calls called) reached

theorem answered_of_reported {a : A} (pos : 0 < c)
    (reached : Reaches (demonstratePriorityProcessing items).step (fun _ _ => True)
      (Execution.start c a initial) e) {call : Thread × Method (DataPacket Nat) × Result (DataPacket Nat)}
    (reported : call ∈ e.journal.reported) : call ∈ e.journal.answered := by
  obtain ⟨thread, call⟩ := call
  rw [← mem_entries, told_of_reaches pos a (Program.reaches_system pos separate reached) thread]
  exact List.mem_append_left _ (mem_entries.mpr reported)

/-- No call of the program lets an exception through. -/
theorem not_terminated {a : A} (pos : 0 < c)
    (reached : Reaches (demonstratePriorityProcessing items).step (fun _ _ => True)
      (Execution.start c a initial) e) : e.terminated = false := by
  rw [← Bool.not_eq_true]
  intro ended
  obtain ⟨s, thread, method, result, reported, refused⟩ := Program.terminated_by reached ended
  have answered := answered_of_reported pos reached reported
  have made : Makes thread method := made_of_answered pos reached _ answered
  obtain ⟨-, last, -, legal⟩ := legal_of_reaches pos a
    (Program.reaches_guarded pos separate
      (fun steady permitted => unraced steady permitted) reached)
  obtain ⟨q, expired, q', spec⟩ := legal.specified answered
  have refused : returns s thread method result = none := refused
  cases thread with
  | highPriorityProducer | lowPriorityProducer =>
      cases method with
      | pushBack packet =>
          simp only [respond] at spec
          split at spec <;> cases spec
          cases refused
      | _ => cases made
  | priorityConsumer =>
      cases method with
      | popFrontWithTimeout =>
          simp only [respond] at spec
          split at spec
          · split at spec <;> cases spec
            cases refused
          · cases spec
            simp only [returns] at refused
            split at refused <;> cases refused
      | _ => cases made
  | main => cases method <;> cases made

/-- What left the buffer is what was returned to the consumer, save the last packet
    where the consumer has not got it yet. -/
theorem removed_of_reaches {a : A} (pos : 0 < c)
    (reached : Reaches (demonstratePriorityProcessing items).step (fun _ _ => True)
      (Execution.start c a initial) e) :
    e.journal.removed = removed e.journal.reported ++
      (e.sys.phase .priorityConsumer).pending.toList.filterMap fun call =>
        Report.popped (some call) := by
  have only : ∀ call ∈ e.journal.answered, (Report.popped (some call.2)).isSome = true →
      call.1 = .priorityConsumer := by
    rintro ⟨thread, method, result⟩ answered out
    rcases makes_cases (made_of_answered pos reached _ answered) with ⟨packet, rfl⟩ | ⟨same, -⟩
    · cases out
    · exact same
  have never : ∀ s thread, (demonstratePriorityProcessing items).calls s thread .clear = false := by
    intro s thread
    cases thread <;> rfl
  have answered := filterMap_entries (f := fun call => Report.popped (some call)) only
  have reported := filterMap_entries (f := fun call => Report.popped (some call))
    fun call member => only call (answered_of_reported pos reached member)
  rw [Program.removed_popped pos separate never reached, answered, removed, reported,
    told_of_reaches pos a (Program.reaches_system pos separate reached), List.filterMap_append]

theorem Tallies.idle (h : Tallies items e.locals reports)
    (steady : e.Steady (demonstratePriorityProcessing items) c)
    (finished : e.locals.main = .finished) (thread : Thread) : e.sys.phase thread = .idle := by
  apply steady.idle
  have high := h.joinedHigh (by rw [finished]; exact MainAt.noConfusion)
  have low := h.joinedLow (.inr finished)
  have consumed := h.joinedConsumer finished
  intro method
  cases thread <;> cases method <;> first | rfl | simp [demonstratePriorityProcessing, calls, *]

/-- The packets that were made. -/
theorem Tallies.made (h : Tallies items s reports)
    (kinds : ∀ call ∈ reports, Makes call.1 call.2.1) (high : s.high = items) (low : s.low = items) :
    (reports.filterMap fun call => Report.inserted (some call.2)).Perm
      ((List.range items).map highPacket ++ (List.range items).map lowPacket) := by
  have both : (select (fun call => Report.inserted (some call)) reports).Perm
      (((List.range items).map highPacket).map (fun packet => (.highPriorityProducer, packet)) ++
        ((List.range items).map lowPacket).map fun packet => (.lowPriorityProducer, packet)) := by
    apply perm_of_entries
    intro thread
    have others : thread = .priorityConsumer ∨ thread = .main →
        entries thread (select (fun call => Report.inserted (some call)) reports) = [] := by
      intro other
      rw [entries_select, List.filterMap_eq_nil_iff]
      rintro ⟨method, result⟩ member
      have made := kinds _ (mem_entries.mp member)
      rcases other with rfl | rfl <;> cases method <;> cases made
      simp [Report.inserted, Method.offered]
    rw [entries_append]
    cases thread with
    | highPriorityProducer =>
        rw [h.high, high, entries_own, entries_other Thread.noConfusion, List.append_nil]
    | lowPriorityProducer =>
        rw [h.low, low, entries_own, entries_other Thread.noConfusion, List.nil_append]
    | priorityConsumer =>
        rw [others (.inl rfl), entries_other Thread.noConfusion, entries_other Thread.noConfusion]
        rfl
    | main =>
        rw [others (.inr rfl), entries_other Thread.noConfusion, entries_other Thread.noConfusion]
        rfl
  have plain := both.map Prod.snd
  rw [map_select] at plain
  simpa [Function.comp_def] using plain

/-- Every run, in any interleaving of the steps: no call throws, nothing is overwritten, and the
    consumer got a prefix of the packets in the order in which they were put in,
    whatever their priority. When the threads are joined it got all of them, as many
    of each kind as were made. -/
theorem priority_processing_in_order {a : A} (pos : 0 < c)
    (reached : Reaches (demonstratePriorityProcessing items).step (fun _ _ => True)
      (Execution.start c a initial) e) :
    e.terminated = false ∧ e.journal.overwrites = 0 ∧
      ∃ processed, removed e.journal.reported = processed.map some ∧
        processed <+: e.journal.inserted ∧
        e.locals.processedHigh = processed.countP isHigh ∧
        e.locals.processedLow = processed.countP (fun packet => !isHigh packet) ∧
        (e.locals.main = .finished → processed = e.journal.inserted ∧
          e.sys.buffer.contents = [] ∧
          processed.Perm ((List.range items).map highPacket ++ (List.range items).map lowPacket)) := by
  have running := not_terminated pos reached
  have below := Program.reaches_system pos separate reached
  have none := unraced_overwrites pos a (Program.reaches_guarded pos separate
    (fun steady permitted => unraced steady permitted) reached)
  obtain ⟨steady, tallies⟩ := Program.invariant pos separate Tallies.initial
    (fun h going => h.own going) (fun h called back => h.returns called back) reached
  have tallies := tallies running
  have kept := Kept.of_reaches pos a below
  obtain ⟨q, queued, balance⟩ := kept.order none
  obtain ⟨processed, gone, processedHigh, processedLow⟩ := tallies.processed
  have through : ∃ rest, e.journal.inserted = processed ++ rest := by
    have left : (processed.map some) <+: e.journal.inserted.map some := by
      rw [balance, removed_of_reaches pos reached, gone, List.append_assoc]
      exact List.prefix_append _ _
    obtain ⟨first, ⟨rest, whole⟩, same⟩ := List.prefix_map_iff.mp left
    exact ⟨rest, by rw [← whole, List.map_injective_iff.mpr (Option.some_injective _) same]⟩
  obtain ⟨rest, whole⟩ := through
  refine ⟨running, none, processed, gone, ⟨rest, whole.symm⟩, processedHigh, processedLow, ?_⟩
  intro finished
  have idle := tallies.idle steady finished
  have same : e.journal.answered.Perm e.journal.reported := by
    apply perm_of_entries
    intro thread
    rw [told_of_reaches pos a below, idle]
    exact List.append_nil _
  have made : e.journal.inserted.Perm
      ((List.range items).map highPacket ++ (List.range items).map lowPacket) := by
    refine (same.filterMap _).trans (tallies.made ?_ ?_ ?_)
    · exact fun call reported => made_of_answered pos reached _
        (answered_of_reported pos reached reported)
    · exact Nat.le_antisymm tallies.highBound
        (tallies.joinedHigh (by rw [finished]; exact MainAt.noConfusion))
    · exact Nat.le_antisymm tallies.lowBound (tallies.joinedLow (.inr finished))
  have enough := tallies.joinedConsumer finished
  have counts : processed.length = processed.countP isHigh +
      processed.countP fun packet => !isHigh packet := by
    simpa using List.length_eq_countP_add_countP (l := processed) isHigh
  have lengths := made.length_eq
  simp only [List.length_append, List.length_map, List.length_range, whole] at lengths
  have nothing : rest = [] := by
    rw [← List.length_eq_zero_iff]
    omega
  rw [nothing, List.append_nil] at whole
  refine ⟨whole.symm, ?_, whole ▸ made⟩
  have size := kept.size
  rw [none, removed_of_reaches pos reached, gone, idle, whole] at size
  have empty : e.sys.buffer.this.count_ = 0 := by
    simp [Phase.pending] at size
    omega
  simp [State.contents, empty]

/-- Capacity 1: the packet of low value came first, and the high one waits behind it. -/
theorem priority_processing_in_order_one :
    ∃ e : Execution Thread (DataPacket Nat) Unit Locals, e.locals.main = .finished ∧
      removed e.journal.reported = [some (lowPacket 0), some (highPacket 0)] ∧
      e.terminated = false ∧ e.journal.overwrites = 0 := by
  let schedule : List (Move Thread (DataPacket Nat)) :=
    [.buffer ⟨.lowPriorityProducer, .call (.pushBack (lowPacket 0)), none⟩,
      .buffer ⟨.highPriorityProducer, .call (.pushBack (highPacket 0)), none⟩,
      .buffer ⟨.priorityConsumer, .call .popFrontWithTimeout, none⟩,
      .buffer ⟨.priorityConsumer, .proceed, none⟩,
      .buffer ⟨.priorityConsumer, .notify, some .highPriorityProducer⟩,
      .buffer ⟨.highPriorityProducer, .recheck false, none⟩,
      .buffer ⟨.priorityConsumer, .call .popFrontWithTimeout, none⟩,
      .buffer ⟨.priorityConsumer, .proceed, none⟩, .buffer ⟨.priorityConsumer, .notify, none⟩,
      .own .main, .own .main, .own .main]
  have ran : (exec (demonstratePriorityProcessing 1).step (fun _ _ => True)
      (Execution.start 1 () initial) schedule).map (fun e =>
        (e.locals.main, removed e.journal.reported)) =
          some (.finished, [some (lowPacket 0), some (highPacket 0)]) := by decide +kernel
  obtain ⟨e, ran, recorded⟩ := Option.map_eq_some_iff.mp ran
  have all := priority_processing_in_order (by decide) (Reaches.of_exec ran)
  exact ⟨e, congrArg Prod.fst recorded, congrArg Prod.snd recorded, all.1, all.2.1⟩

end Runs

end PriorityProcessing

end RingBufferThreadSafe

end Dkyb
