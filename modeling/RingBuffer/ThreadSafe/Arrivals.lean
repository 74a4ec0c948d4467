import RingBuffer.Lib.Coverage
import RingBuffer.ThreadSafe.WakeUps

/-! # Wake-ups and elements

The other side of the buffer. While a removal with a timeout sleeps on `not_empty_`,
every element should have a thread that was let go and still comes for it. An
insertion brings one element and lets one thread go; only `wait_until_not_empty`
leaves without taking the element it was woken for.
-/

namespace Dkyb

open Stateful

variable {T A : Type}

namespace RingBufferThreadSafe

open Transitions Tally Coverage

/-- Asleep and not notified in a removal with a timeout. -/
def Phase.sleepingPop : Phase T → Bool
  | .asleep .popFrontWithTimeout => true
  | _ => false

/-- On the way to an element, or about to send somebody there. -/
def Phase.comesForElement : Phase T → Bool
  | .woken method => method.condition == some .notEmpty
  | .unlocked .popFrontWithTimeout => true
  | .notifying cv _ _ => cv == .notEmpty
  | _ => false

theorem Phase.sleepingPop_iff {x : Phase T} :
    x.sleepingPop = true ↔ x = .asleep .popFrontWithTimeout := by
  cases x with
  | asleep method => cases method <;> simp [Phase.sleepingPop]
  | _ => simp [Phase.sleepingPop]

theorem Phase.sleepsOn_of_sleepingPop {x : Phase T} (sleeping : x.sleepingPop = true) :
    x.sleepsOn .notEmpty = true := by
  rw [Phase.sleepingPop_iff.mp sleeping]
  rfl

theorem Phase.atRest_of_sleepingPop {x : Phase T} (sleeping : x.sleepingPop = true) :
    x.atRest = true := by
  rw [Phase.sleepingPop_iff.mp sleeping]
  rfl

theorem Phase.not_comesForElement {x : Phase T} (atRest : x.atRest = true) :
    x.comesForElement = false := by
  cases x <;> first | rfl | cases atRest

/-- Waking a sleeper on `not_empty_` sends it to an element. -/
theorem Phase.sent_to_element {x : Phase T} (sleeps : x.sleepsOn .notEmpty = true) :
    x.wake.sleepingPop = false ∧ x.comesForElement = false ∧ x.wake.comesForElement = true := by
  cases x with
  | asleep method => exact ⟨rfl, rfl, sleeps⟩
  | _ => cases sleeps

theorem Phase.not_sent_to_element {x : Phase T} (sleeps : x.sleepsOn .notFull = true) :
    x.wake.sleepingPop = x.sleepingPop ∧ x.wake.comesForElement = x.comesForElement := by
  cases x with
  | asleep method => cases method <;> first | exact ⟨rfl, rfl⟩ | cases sleeps
  | _ => cases sleeps

theorem Method.waits_notEmpty {method : Method T} (waitsOn : method.condition = some .notEmpty) :
    method = .popFrontWithTimeout ∨ method = .waitUntilNotEmpty := by
  cases method <;> first | exact .inl rfl | exact .inr rfl | cases waitsOn

variable {ι : Type} [Fintype ι] [DecidableEq ι]

/-- While a removal sleeps, as many threads as there are elements come for them. -/
abbrev Attended (elements : Nat) (phase : ι → Phase T) : Prop :=
  Covered Phase.sleepingPop Phase.comesForElement elements phase

/-- There is an element, yet a removal sleeps and nobody else will do anything. -/
def Overlooked (sys : System ι T A) : Prop :=
  sys.buffer.this.empty = false ∧ ∃ i, (sys.phase i).sleepingPop = true ∧
    ∀ j, j ≠ i → (sys.phase j).atRest = true

/-- The step is a woken `wait_until_not_empty` that finds an element. -/
def System.leavesElement (sys : System ι T A) (l : Label ι T) : Bool :=
  match l.action, sys.phase l.thread with
  | .recheck _, .woken .waitUntilNotEmpty => !sys.buffer.this.empty
  | _, _ => false

/-- A `wait_until_not_empty` that leaves with its wake-up leaves enough others for
    the elements, or no removal sleeps. -/
def ArrivalSpared (sys : System ι T A) (l : Label ι T) : Prop :=
  sys.leavesElement l = true → (∃ k, (sys.phase k).sleepingPop = true) →
    sys.buffer.this.size < tally Phase.comesForElement sys.phase

instance (sys : System ι T A) (l : Label ι T) : Decidable (ArrivalSpared sys l) :=
  inferInstanceAs (Decidable (_ → _ → _))

omit [Fintype ι] [DecidableEq ι] in
theorem leavesElement_cases {sys : System ι T A} {l : Label ι T}
    (leaves : sys.leavesElement l = true) :
    sys.phase l.thread = .woken .waitUntilNotEmpty ∧ sys.buffer.this.empty = false ∧
      ∃ expired, l.action = .recheck expired := by
  unfold System.leavesElement at leaves
  split at leaves
  · exact ⟨‹_›, by simpa using leaves, _, ‹_›⟩
  · cases leaves

section Notified

variable {elements : Nat} {phase phase' : ι → Phase T} {chosen : Option ι}

/-- A notification of `not_empty_` sends one more thread, or no removal sleeps. -/
theorem Attended.notEmpty (h : Attended elements phase)
    (delivered : notifyOne .notEmpty chosen phase = some phase') :
    Attended (elements + 1) phase' := by
  rcases notifyOne_cases delivered with ⟨k, sleeps, rfl⟩ | ⟨nobody, rfl⟩
  · obtain ⟨awake, before, after⟩ := Phase.sent_to_element sleeps
    exact h.sent awake before after
  · apply Covered.nobody
    intro k
    rw [← Bool.not_eq_true]
    intro sleeping
    have sleeps := Phase.sleepsOn_of_sleepingPop sleeping
    rw [nobody k] at sleeps
    cases sleeps

/-- Waking a producer sends nobody to an element. -/
theorem Attended.notFull (h : Attended elements phase)
    (delivered : notifyOne .notFull chosen phase = some phase') : Attended elements phase' :=
  h.congr
    (notifyOne_keeps_asleep (fun _ sleeps => (Phase.not_sent_to_element sleeps).1) delivered)
    (notifyOne_keeps_asleep (fun _ sleeps => (Phase.not_sent_to_element sleeps).2) delivered)

end Notified

section Steps

variable {c : Nat} {sys sys' : System ι T A} {l : Label ι T} {report : Report T}
  {method : Method T}

omit [Fintype ι] [DecidableEq ι] in
/-- A thread that runs a critical section comes for an element only when it was woken
    from `not_empty_`. -/
theorem woken_of_comesForElement (inside : sys.running l = some method)
    (coming : (sys.phase l.thread).comesForElement = true) :
    method.condition = some .notEmpty ∧ sys.phase l.thread = .woken method ∧
      ∃ expired, l.action = .recheck expired := by
  rcases running_cases inside with ⟨phase, -⟩ | ⟨phase, action⟩
  · rw [phase] at coming
    cases coming
  · rw [phase] at coming
    exact ⟨beq_iff_eq.mp coming, phase, action⟩

omit [Fintype ι] [DecidableEq ι] in
theorem not_comesForElement_of_condition (inside : sys.running l = some method)
    (other : method.condition ≠ some .notEmpty) : (sys.phase l.thread).comesForElement = false := by
  rw [← Bool.not_eq_true]
  exact fun coming => other (woken_of_comesForElement inside coming).1

/-- A removal with a timeout that ends while it has the mutex found nothing. -/
theorem timedPop_gives_up {result : Result T} (inside : sys.running l = some .popFrontWithTimeout)
    (stepped : sys.step l = some (sys', some (.popFrontWithTimeout, result))) :
    sys.buffer.this.empty = true := by
  have gaveUp : ∀ {expired : Bool}, sys.settle l.thread .popFrontWithTimeout l.chosen
      (Method.critical expired .popFrontWithTimeout sys.buffer) =
        some (sys', some (.popFrontWithTimeout, result)) → sys.buffer.this.empty = true := by
    intro expired settled
    cases empty : sys.buffer.this.empty with
    | true => rfl
    | false => simp [Method.critical, popFrontWithTimeout, waitFor, empty, System.settle] at settled
  rcases running_cases inside with ⟨phase, action⟩ | ⟨phase, expired, action⟩
  · simp only [System.step, action, phase] at stepped
    exact gaveUp stepped
  · simp only [System.step, action, phase] at stepped
    split at stepped
    · cases stepped
    · exact gaveUp stepped

end Steps

structure Awaited (c : Nat) (sys : System ι T A) : Prop where
  counted : sys.buffer.this.Counted c
  quiet : sys.buffer.mem.fuse = none
  attended : Attended sys.buffer.this.size sys.phase

namespace Awaited

variable {c : Nat} {sys sys' : System ι T A} {l : Label ι T} {report : Report T}
  {method : Method T}

omit [DecidableEq ι] in
theorem start (pos : 0 < c) (a : A) : Awaited c (System.start c a : System ι T A) where
  counted := (counted_start pos a).1
  quiet := (counted_start pos a).2
  attended := .nobody fun _ => rfl

/-- A thread that leaves `wait_until_not_empty`, or a section that passes otherwise. -/
theorem passes_attended (h : Awaited c sys) (spared : ArrivalSpared sys l) {result : Result T}
    (inside : sys.running l = some method)
    (stepped : sys.step l = some (sys', some (method, result))) :
    Attended sys.buffer.this.size (Function.update sys.phase l.thread .idle) := by
  cases coming : (sys.phase l.thread).comesForElement with
  | false => exact h.attended.stays rfl coming
  | true =>
      obtain ⟨waitsOn, phase, expired, action⟩ := woken_of_comesForElement inside coming
      cases empty : sys.buffer.this.empty with
      | true =>
          rw [RingBuffer.size, empty_iff.mp empty]
          exact .zero
      | false =>
          rcases Method.waits_notEmpty waitsOn with rfl | rfl
          · rw [timedPop_gives_up inside stepped] at empty
            cases empty
          · have more : Attended (sys.buffer.this.size + 1) sys.phase :=
              spared (by simp [System.leavesElement, action, phase, empty])
            exact more.taken rfl

/-- Step lemma. -/
theorem step (h : Awaited c sys) (spared : ArrivalSpared sys l)
    (stepped : sys.step l = some (sys', report)) : Awaited c sys' := by
  have turn := turn_of_step h.quiet stepped
  obtain ⟨counted, quiet⟩ := turn.counted h.counted h.quiet
  refine ⟨counted, quiet, ?_⟩
  cases turn with
  | wakes method phase =>
      apply h.attended.stays rfl
      rw [phase]
      rfl
  | waits method cv inside waitsOn unmet =>
      cases cv with
      | notEmpty =>
          have empty : sys.buffer.this.empty = true := by simpa [CondVar.holds] using unmet
          rw [RingBuffer.size, empty_iff.mp empty]
          exact .zero
      | notFull =>
          apply h.attended.stays
          · cases method <;> first | rfl | cases waitsOn
          · exact not_comesForElement_of_condition inside (by simp [waitsOn])
  | unlocks method cv inside waitsOn met rest =>
      rcases Method.timedPush_of_remainder rest with timed | rfl
      · apply h.attended.stays rfl
        apply not_comesForElement_of_condition inside
        intro waitsOn
        cases method <;> cases timed <;> cases waitsOn
      · apply h.attended.update rfl
        have atMostOne := Bool.toNat_le (sys.phase l.thread).comesForElement
        exact Nat.add_le_add_left atMostOne _
  | passes method result s inside passes =>
      simp only [passes.this]
      exact h.passes_attended spared inside stepped
  | inserts method inner v result phase inside inserted offered room locked succeeds delivered =>
      have more := (insert_cursors h.quiet inserted room).1
      have left : Attended sys.buffer.this.size
          (Function.update sys.phase l.thread .idle) := by
        apply h.attended.stays rfl
        apply not_comesForElement_of_condition inside
        intro waitsOn
        cases method <;> cases offered <;> cases waitsOn
      simp only [RingBuffer.size, more] at left ⊢
      exact left.notEmpty delivered
  | removes method phase inside pops nonempty delivered =>
      have fewer := (popped_cursors sys.buffer).1
      have left : Attended (sys.buffer.this.size - 1)
          (Function.update sys.phase l.thread .idle) := h.attended.taken rfl
      simp only [RingBuffer.size, fewer] at left ⊢
      exact left.notFull delivered
  | clears inside => exact .zero
  | appends method inner v phase timed offered inserted =>
      apply h.attended.update rfl
      have more : (final inner.perform sys.buffer).this.count_ ≤ sys.buffer.this.count_ + 1 := by
        cases full : sys.buffer.this.full_ with
        | false => exact (insert_cursors h.quiet inserted full).1.le
        | true => exact (insert_cursors_full h.quiet inserted full).1.le.trans (Nat.le_succ _)
      have idle : (sys.phase l.thread).comesForElement = false := by
        rw [phase]
        cases method <;> first | rfl | cases timed
      rw [idle]
      exact more
  | takes phase nonempty =>
      have fewer := (popped_cursors sys.buffer).1
      simp only [RingBuffer.size, fewer]
      exact h.attended.taken rfl
  | throws e phase empty =>
      simp only [RingBuffer.size, empty]
      exact .zero
  | notifies cv method result phase notifying delivered =>
      cases cv with
      | notFull =>
          refine Attended.notFull (h.attended.stays rfl ?_) delivered
          rw [notifying]
          rfl
      | notEmpty =>
          have left : Attended (sys.buffer.this.size - 1)
              (Function.update sys.phase l.thread .idle) := h.attended.taken rfl
          exact (left.notEmpty delivered).fewer (Nat.le_add_of_sub_le (Nat.le_refl _))

/-- Run lemma. -/
theorem of_reaches (pos : 0 < c) (a : A)
    (reached : Reaches System.step ArrivalSpared (System.start c a) sys) : Awaited c sys :=
  reached.invariant (start pos a) fun _ _ _ _ h spared stepped => h.step spared stepped

theorem not_overlooked (h : Awaited c sys) : ¬ Overlooked sys := by
  rintro ⟨nonempty, i, sleeping, atRest⟩
  have nobody : tally Phase.comesForElement sys.phase = 0 := by
    rw [tally_zero_iff]
    intro k
    apply Phase.not_comesForElement
    by_cases same : k = i
    · subst same
      exact Phase.atRest_of_sleepingPop sleeping
    · exact atRest k same
  have attended := h.attended ⟨i, sleeping⟩
  rw [nobody] at attended
  rw [empty_iff.mpr (Nat.le_zero.mp attended)] at nonempty
  cases nonempty

/-- A `wait_until_not_empty` that takes the last wake-up leaves an element to nobody. -/
theorem overlooked_of_taken (taken : ¬ ArrivalSpared sys l)
    (others : ∀ k, k ≠ l.thread → (sys.phase k).atRest = true)
    (stepped : sys.step l = some (sys', report)) : Overlooked sys' := by
  simp only [ArrivalSpared, not_forall] at taken
  obtain ⟨leaves, ⟨i, sleeping⟩, -⟩ := taken
  obtain ⟨phase, nonempty, expired, action⟩ := leavesElement_cases leaves
  simp only [System.step, action, phase, Method.timed, Bool.not_true, Bool.and_false,
    Bool.false_eq_true, if_false, Method.critical, waitUntilNotEmpty, waitFor, nonempty,
    Bool.not_false, if_true, System.settle, Notice.deliver, Option.map_some] at stepped
  cases stepped
  have apart : i ≠ l.thread := by
    rintro rfl
    rw [phase] at sleeping
    cases sleeping
  have still : ∀ k, k ≠ l.thread → Function.update sys.phase l.thread .idle k = sys.phase k :=
    fun k other => Function.update_of_ne other _ sys.phase
  refine ⟨nonempty, i, ?_, ?_⟩
  · exact (congrArg Phase.sleepingPop (still i apart)).trans sleeping
  · intro k _
    by_cases own : k = l.thread
    · subst own
      exact congrArg Phase.atRest (Function.update_self l.thread .idle sys.phase)
    · exact (congrArg Phase.atRest (still k own)).trans (others k own)

end Awaited

/-- In a run in which no `wait_until_not_empty` takes away a wake-up that a sleeping
    removal needs, as many threads as there are elements come for them while a removal
    with a timeout sleeps; and a step taken while all others are at rest leaves an
    element to nobody, a removal asleep beside it, exactly when it does take one away. -/
theorem elements_attended {c : Nat} (pos : 0 < c) (a : A) (sys : System ι T A)
    (reached : Reaches System.step ArrivalSpared (System.start c a) sys) :
    ((∃ k, sys.phase k = .asleep .popFrontWithTimeout) →
      sys.buffer.this.size ≤ tally Phase.comesForElement sys.phase) ∧
    ∀ l sys' report, sys.step l = some (sys', report) →
      (∀ k, k ≠ l.thread → (sys.phase k).atRest = true) →
        (¬ Overlooked sys' ↔ ArrivalSpared sys l) := by
  have awaited := Awaited.of_reaches pos a reached
  constructor
  · rintro ⟨k, asleep⟩
    exact awaited.attended ⟨k, Phase.sleepingPop_iff.mpr asleep⟩
  · intro l sys' report stepped others
    constructor
    · intro never
      by_contra taken
      exact never (Awaited.overlooked_of_taken taken others stepped)
    · intro spared
      exact (awaited.step spared stepped).not_overlooked

/-- Capacity 2: the push wakes the `wait_until_not_empty`, one thread for one element,
    and its return leaves both removals asleep beside the element. -/
theorem elements_attended_two : ∃ sys sys' : System (Fin 4) Nat Unit,
    sys.phase 1 = .asleep .popFrontWithTimeout ∧
      sys.buffer.this.size ≤ tally Phase.comesForElement sys.phase ∧
      sys.step ⟨3, .recheck false, none⟩ = some (sys', some (.waitUntilNotEmpty, .bool true)) ∧
      Overlooked sys' := by
  let schedule : List (Label (Fin 4) Nat) :=
    [⟨1, .call .popFrontWithTimeout, none⟩, ⟨2, .call .popFrontWithTimeout, none⟩,
      ⟨3, .call .waitUntilNotEmpty, none⟩, ⟨0, .call (.pushBack 7), some 3⟩]
  have ran : (exec System.step ArrivalSpared (System.start 2 ()) schedule).map (fun sys =>
      (decide (sys.phase 1 = .asleep .popFrontWithTimeout ∧
        (∀ k, k ≠ 3 → (sys.phase k).atRest = true) ∧
        ¬ ArrivalSpared sys ⟨3, .recheck false, none⟩),
        (sys.step ⟨3, .recheck false, none⟩).map Prod.snd)) =
        some (true, some (some (.waitUntilNotEmpty, .bool true))) := by decide +kernel
  obtain ⟨sys, ran, facts⟩ := Option.map_eq_some_iff.mp ran
  simp only [Prod.mk.injEq, decide_eq_true_eq] at facts
  obtain ⟨⟨asleep, others, taken⟩, stepped⟩ := facts
  obtain ⟨⟨sys', report⟩, stepped, rfl⟩ := Option.map_eq_some_iff.mp stepped
  have attended := elements_attended (by decide) () sys (Reaches.of_exec ran)
  refine ⟨sys, sys', asleep, attended.1 ⟨1, asleep⟩, stepped, ?_⟩
  by_contra never
  exact taken ((attended.2 _ _ _ stepped others).mp never)

end RingBufferThreadSafe

end Dkyb
