import RingBuffer.Lib.Tally
import RingBuffer.ThreadSafe.Fifo

/-! # Wake-ups and free slots

While a producer sleeps on `not_full_`, every free slot should have a thread that
was let go and still comes for it. A removal frees one slot and lets one thread
go; only `wait_until_not_full` leaves without filling the slot it was woken for.
-/

namespace Dkyb

open Stateful

variable {T A : Type}

namespace RingBufferThreadSafe

open Transitions Tally

/-- Asleep and not notified in one of the insertions that block. -/
def Phase.blockedProducer : Phase T → Bool
  | .asleep method => method.producer
  | _ => false

/-- Woken in one of the insertions that block, with the predicate to recheck. -/
def Phase.wokenProducer : Phase T → Bool
  | .woken method => method.producer
  | _ => false

/-- Nothing left to do unless somebody wakes it. -/
def Phase.atRest : Phase T → Bool
  | .idle | .asleep _ => true
  | _ => false

/-- On the way to a free slot, or about to send somebody there. -/
def Phase.onItsWay : Phase T → Bool
  | .woken method => method.condition == some .notFull
  | .unlocked method => method.timedPush
  | .notifying cv _ _ => cv == .notFull
  | _ => false

theorem Phase.sleepsOn_of_blocked {x : Phase T} (blocked : x.blockedProducer = true) :
    x.sleepsOn .notFull = true := by
  cases x with
  | asleep method => cases method <;> first | rfl | cases blocked
  | _ => cases blocked

theorem Phase.atRest_of_blocked {x : Phase T} (blocked : x.blockedProducer = true) :
    x.atRest = true := by
  cases x <;> first | rfl | cases blocked

theorem Phase.not_onItsWay {x : Phase T} (atRest : x.atRest = true) : x.onItsWay = false := by
  cases x <;> first | rfl | cases atRest

theorem Phase.wokenProducer_of_basic {x : Phase T} (basic : x.basic = true) :
    x.wokenProducer = x.onItsWay := by
  cases x with
  | woken method => cases method <;> first | rfl | cases basic
  | unlocked => cases basic
  | notifying => cases basic
  | _ => rfl

theorem Phase.wake_notFull {x : Phase T} (sleeps : x.sleepsOn .notFull = true) :
    x.wake.blockedProducer = false ∧ x.onItsWay = false ∧ x.wake.onItsWay = true := by
  cases x with
  | asleep method => exact ⟨rfl, rfl, sleeps⟩
  | _ => cases sleeps

theorem Phase.wake_notEmpty {x : Phase T} (sleeps : x.sleepsOn .notEmpty = true) :
    x.wake.blockedProducer = x.blockedProducer ∧ x.wake.onItsWay = x.onItsWay := by
  cases x with
  | asleep method => cases method <;> first | exact ⟨rfl, rfl⟩ | cases sleeps
  | _ => cases sleeps

variable {ι : Type} [Fintype ι] [DecidableEq ι]

def System.freeSlots (sys : System ι T A) : Nat := sys.buffer.this.capacity - sys.buffer.this.size

/-- There is room, yet a producer sleeps and nobody else will do anything. -/
def Stranded (sys : System ι T A) : Prop :=
  sys.buffer.this.full = false ∧ ∃ i, (sys.phase i).blockedProducer = true ∧
    ∀ j, j ≠ i → (sys.phase j).atRest = true

/-- While a producer sleeps, as many threads as there are free slots come for them. -/
def Covers (free : Nat) (phase : ι → Phase T) : Prop :=
  (∃ k, (phase k).blockedProducer = true) → free ≤ tally Phase.onItsWay phase

namespace Covers

variable {free free' : Nat} {phase phase' : ι → Phase T} {chosen : Option ι}

omit [DecidableEq ι] in
theorem zero (phase : ι → Phase T) : Covers 0 phase := fun _ => Nat.zero_le _

/-- One thread moves on and does not go to sleep as a producer. -/
theorem update (h : Covers free phase) {i : ι} {x : Phase T} (awake : x.blockedProducer = false)
    (enough : free' + (phase i).onItsWay.toNat ≤ free + x.onItsWay.toNat) :
    Covers free' (Function.update phase i x) := by
  rintro ⟨k, blocked⟩
  have before : (phase k).blockedProducer = true := by
    by_cases same : k = i
    · subst same
      rw [Function.update_self, awake] at blocked
      cases blocked
    · rwa [Function.update_of_ne same] at blocked
  have covered := h ⟨k, before⟩
  have counts := tally_update Phase.onItsWay phase i x
  omega

/-- One thread takes the slot it came for, if there was one. -/
theorem used (h : Covers free phase) {i : ι} {x : Phase T} (awake : x.blockedProducer = false)
    (fewer : free' = free - 1) : Covers free' (Function.update phase i x) := by
  cases free with
  | zero =>
      subst fewer
      exact .zero _
  | succ rest =>
      have atMostOne := Bool.toNat_le (phase i).onItsWay
      apply h.update awake
      omega

/-- Waking a consumer sends nobody to a free slot. -/
theorem notEmpty (h : Covers free phase) (delivered : notifyOne .notEmpty chosen phase = some phase') :
    Covers free phase' := by
  have blocked : ∀ k, (phase' k).blockedProducer = (phase k).blockedProducer :=
    notifyOne_keeps_asleep (fun x sleeps => (Phase.wake_notEmpty sleeps).1) delivered
  have onItsWay : ∀ k, (phase' k).onItsWay = (phase k).onItsWay :=
    notifyOne_keeps_asleep (fun x sleeps => (Phase.wake_notEmpty sleeps).2) delivered
  rw [Covers, tally_congr onItsWay]
  rintro ⟨k, asleep⟩
  exact h ⟨k, (blocked k).symm.trans asleep⟩

/-- A notification of `not_full_` sends one more thread, or no producer sleeps. -/
theorem notFull (h : Covers free phase) (delivered : notifyOne .notFull chosen phase = some phase')
    (freed : free' ≤ free + 1) : Covers free' phase' := by
  rcases notifyOne_cases delivered with ⟨k, sleeps, rfl⟩ | ⟨nobody, rfl⟩
  · obtain ⟨awake, before, after⟩ := Phase.wake_notFull sleeps
    apply h.update awake
    rw [before, after]
    simpa using freed
  · rintro ⟨k, blocked⟩
    have sleeps := Phase.sleepsOn_of_blocked blocked
    rw [nobody k] at sleeps
    cases sleeps

omit [DecidableEq ι] in
theorem notifyAll (phase : ι → Phase T) : Covers free (notifyAll .notFull phase) := by
  rintro ⟨k, blocked⟩
  unfold RingBufferThreadSafe.notifyAll at blocked
  split at blocked
  · rw [(Phase.wake_notFull ‹_›).1] at blocked
    cases blocked
  · exact absurd (Phase.sleepsOn_of_blocked blocked) ‹_›

end Covers

/-- The step is a woken `wait_until_not_full` that finds room. -/
def System.leavesSlot (sys : System ι T A) (l : Label ι T) : Bool :=
  match l.action, sys.phase l.thread with
  | .recheck _, .woken .waitUntilNotFull => !sys.buffer.this.full
  | _, _ => false

/-- A `wait_until_not_full` that leaves with its wake-up leaves enough others for
    the free slots, or no producer sleeps. -/
def WakeUpSpared (sys : System ι T A) (l : Label ι T) : Prop :=
  sys.leavesSlot l = true → (∃ k, (sys.phase k).blockedProducer = true) →
    sys.freeSlots < tally Phase.onItsWay sys.phase

instance (sys : System ι T A) (l : Label ι T) : Decidable (WakeUpSpared sys l) :=
  inferInstanceAs (Decidable (_ → _ → _))

omit [Fintype ι] [DecidableEq ι] in
theorem leavesSlot_cases {sys : System ι T A} {l : Label ι T} (leaves : sys.leavesSlot l = true) :
    sys.phase l.thread = .woken .waitUntilNotFull ∧ sys.buffer.this.full = false ∧
      ∃ expired, l.action = .recheck expired := by
  unfold System.leavesSlot at leaves
  split at leaves
  · exact ⟨‹_›, by simpa using leaves, _, ‹_›⟩
  · cases leaves

structure Served (c : Nat) (sys : System ι T A) : Prop where
  counted : sys.buffer.this.Counted c
  quiet : sys.buffer.mem.fuse = none
  covers : Covers sys.freeSlots sys.phase

namespace Served

variable {c : Nat} {sys sys' : System ι T A} {l : Label ι T} {report : Report T}

omit [DecidableEq ι] in
theorem start (pos : 0 < c) (a : A) : Served c (System.start c a : System ι T A) where
  counted := (counted_start pos a).1
  quiet := (counted_start pos a).2
  covers := by
    rintro ⟨k, blocked⟩
    cases blocked

omit [Fintype ι] [DecidableEq ι] in
/-- A thread that runs a critical section is on its way only when it was woken from
    `not_full_`. -/
theorem woken_of_onItsWay {method : Method T} (inside : sys.running l = some method)
    (coming : (sys.phase l.thread).onItsWay = true) :
    method.condition = some .notFull ∧ sys.phase l.thread = .woken method ∧
      ∃ expired, l.action = .recheck expired := by
  rcases running_cases inside with ⟨phase, -⟩ | ⟨phase, action⟩
  · rw [phase] at coming
    cases coming
  · rw [phase] at coming
    exact ⟨beq_iff_eq.mp coming, phase, action⟩

omit [Fintype ι] [DecidableEq ι] in
theorem not_onItsWay_of_condition {method : Method T} (inside : sys.running l = some method)
    (other : method.condition ≠ some .notFull) : (sys.phase l.thread).onItsWay = false := by
  rw [← Bool.not_eq_true]
  intro coming
  exact other (woken_of_onItsWay inside coming).1

omit [Fintype ι] [DecidableEq ι] in
theorem freeSlots_eq (counted : sys.buffer.this.Counted c) :
    sys.freeSlots = c - sys.buffer.this.count_ := by
  simp only [System.freeSlots, RingBuffer.capacity, RingBuffer.size, counted.capacity]

omit [Fintype ι] [DecidableEq ι] in
theorem freeSlots_full (counted : sys.buffer.this.Counted c) (full : sys.buffer.this.full = true) :
    sys.freeSlots = 0 := by
  rw [freeSlots_eq counted, counted.full_iff.mp full, Nat.sub_self]

omit [Fintype ι] [DecidableEq ι] in
theorem freeSlots_insert (h : sys.buffer.this.Counted c) (h' : sys'.buffer.this.Counted c)
    (quiet : sys.buffer.mem.fuse = none) {inner : Update T} {v : T} (inserted : inner.inserted = some v)
    (same : sys'.buffer = final inner.perform sys.buffer) :
    sys'.freeSlots = sys.freeSlots - 1 := by
  cases full : sys.buffer.this.full_ with
  | false =>
      have more := (insert_cursors quiet inserted full).1
      rw [freeSlots_eq h, freeSlots_eq h', same, more]
      omega
  | true =>
      have full' := (insert_cursors_full quiet inserted full).2
      rw [freeSlots_full h full]
      exact freeSlots_full h' (same ▸ full')

omit [Fintype ι] [DecidableEq ι] in
theorem freeSlots_popped (h : sys.buffer.this.Counted c) (h' : sys'.buffer.this.Counted c)
    (same : sys'.buffer = sys.buffer.popped) : sys'.freeSlots ≤ sys.freeSlots + 1 := by
  have fewer := (popped_cursors sys.buffer).1
  rw [freeSlots_eq h, freeSlots_eq h', same, fewer]
  omega

/-- A thread that leaves `wait_until_not_full`, or a section that passes otherwise. -/
theorem passes_covers (h : Served c sys) (spared : WakeUpSpared sys l) {method : Method T}
    {result : Result T} {s : State T A} (inside : sys.running l = some method)
    (passes : Passes sys.buffer method result s) :
    Covers sys.freeSlots (Function.update sys.phase l.thread .idle) := by
  cases coming : (sys.phase l.thread).onItsWay with
  | false =>
      apply h.covers.update rfl
      rw [coming]
      exact Nat.le_add_right _ _
  | true =>
      obtain ⟨waitsOn, phase, expired, action⟩ := woken_of_onItsWay inside coming
      cases full : sys.buffer.this.full with
      | true =>
          rw [freeSlots_full h.counted full]
          exact .zero _
      | false =>
          rcases passes.full waitsOn with full' | rfl
          · rw [full] at full'
            cases full'
          · have more : Covers (sys.freeSlots + 1) sys.phase :=
              spared (by simp [System.leavesSlot, action, phase, full])
            apply more.update rfl
            rw [coming]
            exact Nat.le_refl _

/-- Step lemma. -/
theorem step (h : Served c sys) (spared : WakeUpSpared sys l) (turn : Turn sys l sys' report) :
    Served c sys' := by
  obtain ⟨counted, quiet⟩ := turn.counted h.counted h.quiet
  refine ⟨counted, quiet, ?_⟩
  cases turn with
  | wakes method phase =>
      apply h.covers.update rfl
      rw [phase]
      exact Nat.le_add_right _ _
  | waits method cv inside waitsOn unmet =>
      cases cv with
      | notFull =>
          have full : sys.buffer.this.full = true := by simpa [CondVar.holds] using unmet
          have none := freeSlots_full h.counted full
          rw [System.freeSlots] at none ⊢
          rw [none]
          exact .zero _
      | notEmpty =>
          have coming := not_onItsWay_of_condition inside (by simp [waitsOn])
          apply h.covers.update
          · cases method <;> first | rfl | cases waitsOn
          · rw [coming]
            exact Nat.le_refl _
  | unlocks method cv inside waitsOn met rest =>
      apply h.covers.update rfl
      cases coming : (sys.phase l.thread).onItsWay with
      | false => exact Nat.le_add_right _ _
      | true =>
          have notFull := (woken_of_onItsWay inside coming).1
          rcases Method.timedPush_of_remainder rest with timed | rfl
          · simp only [Phase.onItsWay, timed]
            exact Nat.le_refl _
          · cases notFull
  | passes method result s inside passes =>
      have same : System.freeSlots ⟨s, Function.update sys.phase l.thread .idle⟩ = sys.freeSlots := by
        simp only [System.freeSlots, passes.this]
      rw [same]
      exact h.passes_covers spared inside passes
  | inserts method inner v result phase inside inserted offered room locked succeeds delivered =>
      have fewer := freeSlots_insert h.counted counted h.quiet inserted rfl
      exact (h.covers.used rfl fewer).notEmpty delivered
  | removes method phase inside pops nonempty delivered =>
      have coming : (sys.phase l.thread).onItsWay = false := by
        apply not_onItsWay_of_condition inside
        intro waitsOn
        cases method <;> cases pops <;> cases waitsOn
      have left : Covers sys.freeSlots (Function.update sys.phase l.thread .idle) := by
        apply h.covers.update rfl
        rw [coming]
        exact Nat.le_refl _
      exact left.notFull delivered (freeSlots_popped h.counted counted rfl)
  | clears inside => exact .notifyAll _
  | appends method inner v phase timed offered inserted =>
      exact h.covers.used rfl (freeSlots_insert h.counted counted h.quiet inserted rfl)
  | takes phase nonempty =>
      apply h.covers.update rfl
      rw [phase]
      exact freeSlots_popped h.counted counted rfl
  | throws e phase empty =>
      apply h.covers.update rfl
      rw [phase]
      exact Nat.le_refl _
  | notifies cv method result phase notifying delivered =>
      cases cv with
      | notEmpty =>
          refine Covers.notEmpty (h.covers.update rfl ?_) delivered
          rw [notifying]
          exact Nat.le_refl _
      | notFull =>
          have left : Covers (sys.freeSlots - 1) (Function.update sys.phase l.thread .idle) :=
            h.covers.used rfl rfl
          exact left.notFull delivered (Nat.le_add_of_sub_le (Nat.le_refl _))

/-- Nobody is stranded where everybody who sleeps is covered. -/
theorem not_stranded (h : Served c sys) : ¬ Stranded sys := by
  rintro ⟨notFull, i, blocked, atRest⟩
  have nobody : tally Phase.onItsWay sys.phase = 0 := by
    rw [tally_zero_iff]
    intro k
    have still : (sys.phase k).atRest = true := by
      by_cases same : k = i
      · subst same
        exact Phase.atRest_of_blocked blocked
      · exact atRest k same
    exact Phase.not_onItsWay still
  have covered := h.covers ⟨i, blocked⟩
  have room := h.counted.room notFull
  rw [nobody, freeSlots_eq h.counted] at covered
  omega

omit [Fintype ι] in
/-- What a woken `wait_until_not_full` that finds room does. -/
theorem step_leavesSlot [Fintype ι] (leaves : sys.leavesSlot l = true) :
    sys.step l = some (⟨sys.buffer, Function.update sys.phase l.thread .idle⟩,
      some (.waitUntilNotFull, .bool true)) := by
  obtain ⟨phase, notFull, expired, action⟩ := leavesSlot_cases leaves
  simp [System.step, action, phase, Method.timed, Method.critical, waitUntilNotFull, waitFor, notFull,
    System.settle, Notice.deliver]

/-- A `wait_until_not_full` that takes the last wake-up strands the producers. -/
theorem stranded_of_taken (taken : ¬ WakeUpSpared sys l)
    (others : ∀ k, k ≠ l.thread → (sys.phase k).atRest = true)
    (stepped : sys.step l = some (sys', report)) : Stranded sys' := by
  simp only [WakeUpSpared, not_forall] at taken
  obtain ⟨leaves, ⟨i, blocked⟩, -⟩ := taken
  obtain ⟨phase, notFull, -⟩ := leavesSlot_cases leaves
  rw [step_leavesSlot leaves] at stepped
  cases stepped
  have apart : i ≠ l.thread := by
    rintro rfl
    rw [phase] at blocked
    cases blocked
  have still : ∀ k, k ≠ l.thread → Function.update sys.phase l.thread .idle k = sys.phase k :=
    fun k other => Function.update_of_ne other _ sys.phase
  refine ⟨notFull, i, ?_, ?_⟩
  · exact (congrArg Phase.blockedProducer (still i apart)).trans blocked
  · intro k _
    by_cases own : k = l.thread
    · subst own
      exact congrArg Phase.atRest (Function.update_self l.thread .idle sys.phase)
    · exact (congrArg Phase.atRest (still k own)).trans (others k own)

end Served

/-! ## The calls under the lock -/

/-- Under the calls that do everything under the lock, as long as a producer sleeps
    un-notified the woken ones are at least as many as the free slots. -/
theorem wakeUps_cover_freeSlots {c : Nat} (pos : 0 < c) (a : A) (sys : System ι T A)
    (reached : Reaches System.step (Calls Method.basic) (System.start c a) sys)
    (blocked : ∃ k, (sys.phase k).blockedProducer = true) :
    sys.buffer.this.capacity - sys.buffer.this.size ≤ tally Phase.wokenProducer sys.phase := by
  have both : (∀ k, (sys.phase k).basic = true) ∧ Served c sys := by
    refine reached.invariant (I := fun sys => (∀ k, (sys.phase k).basic = true) ∧ Served c sys)
      ⟨fun _ => rfl, Served.start pos a⟩ ?_
    rintro s l s' r ⟨phases, served⟩ calls stepped
    have turn := turn_of_step served.quiet stepped
    have spared : WakeUpSpared s l := by
      intro leaves
      have basic := phases l.thread
      rw [(leavesSlot_cases leaves).1] at basic
      cases basic
    exact ⟨basic_step phases calls turn, served.step spared turn⟩
  obtain ⟨phases, served⟩ := both
  have same : tally Phase.wokenProducer sys.phase = tally Phase.onItsWay sys.phase :=
    tally_congr fun k => Phase.wokenProducer_of_basic (phases k)
  rw [same]
  exact served.covers blocked

/-- Capacity 2, a full buffer and three blocked producers, of which a pop wakes one
    and a spurious wake-up another. -/
theorem wakeUps_cover_freeSlots_two : ∃ sys : System (Fin 4) Nat Unit,
    (sys.phase 3).blockedProducer = true ∧ sys.buffer.this.capacity - sys.buffer.this.size = 1 ∧
      tally Phase.wokenProducer sys.phase = 2 ∧ 1 ≤ tally Phase.wokenProducer sys.phase := by
  let schedule : List (Label (Fin 4) Nat) :=
    [⟨0, .call (.pushBack 7), none⟩, ⟨0, .call (.tryPushBack 8), none⟩,
      ⟨1, .call (.pushBack 9), none⟩, ⟨2, .call (.emplaceBack 10), none⟩,
      ⟨3, .call (.pushBackMove 11), none⟩, ⟨0, .call .popFront, some 1⟩, ⟨2, .wake, none⟩]
  have ran : (exec System.step (Calls Method.basic) (System.start 2 ()) schedule).map (fun sys =>
      ((sys.phase 3).blockedProducer, sys.buffer.this.capacity - sys.buffer.this.size,
        tally Phase.wokenProducer sys.phase)) = some (true, 1, 2) := by decide +kernel
  obtain ⟨sys, ran, facts⟩ := Option.map_eq_some_iff.mp ran
  simp only [Prod.mk.injEq] at facts
  obtain ⟨blocked, free, woken⟩ := facts
  have covered :=
    wakeUps_cover_freeSlots (by decide) () sys (Reaches.of_exec ran) ⟨3, blocked⟩
  rw [free] at covered
  exact ⟨sys, blocked, free, woken, covered⟩

/-! ## All calls -/

/-- In a run in which no `wait_until_not_full` takes away a wake-up that a sleeping
    producer needs, no producer is ever stranded; and a step taken while all others
    are at rest strands one exactly when it does take one away. -/
theorem never_stranded {c : Nat} (pos : 0 < c) (a : A) (sys : System ι T A)
    (reached : Reaches System.step WakeUpSpared (System.start c a) sys) :
    ¬ Stranded sys ∧ ∀ l sys' report, sys.step l = some (sys', report) →
      (∀ k, k ≠ l.thread → (sys.phase k).atRest = true) →
        (¬ Stranded sys' ↔ WakeUpSpared sys l) := by
  have served : Served c sys := by
    refine reached.invariant (Served.start pos a) ?_
    intro s l s' r served spared stepped
    exact served.step spared (turn_of_step served.quiet stepped)
  refine ⟨served.not_stranded, fun l sys' report stepped others => ?_⟩
  have turn := turn_of_step served.quiet stepped
  constructor
  · intro never
    by_contra taken
    exact never (Served.stranded_of_taken taken others stepped)
  · intro spared
    exact (served.step spared turn).not_stranded

/-- Capacity 2: the wait leaves while another woken thread comes for the only free
    slot. -/
theorem never_stranded_two : ∃ sys : System (Fin 4) Nat Unit,
    (sys.phase 3).blockedProducer = true ∧ sys.buffer.this.full = false ∧ ¬ Stranded sys := by
  let schedule : List (Label (Fin 4) Nat) :=
    [⟨0, .call (.pushBack 7), none⟩, ⟨0, .call (.tryPushBack 8), none⟩,
      ⟨1, .call .waitUntilNotFull, none⟩, ⟨2, .call (.pushBackWithTimeout 9), none⟩,
      ⟨3, .call (.emplaceBack 10), none⟩, ⟨0, .call .popFront, some 1⟩, ⟨2, .wake, none⟩,
      ⟨2, .recheck true, none⟩, ⟨1, .recheck false, none⟩]
  have ran : (exec System.step WakeUpSpared (System.start 2 ()) schedule).map (fun sys =>
      ((sys.phase 3).blockedProducer, sys.buffer.this.full)) = some (true, false) := by
    decide +kernel
  obtain ⟨sys, ran, facts⟩ := Option.map_eq_some_iff.mp ran
  simp only [Prod.mk.injEq] at facts
  obtain ⟨blocked, notFull⟩ := facts
  exact ⟨sys, blocked, notFull, (never_stranded (by decide) () sys (Reaches.of_exec ran)).1⟩

/-- Capacity 1: the pop wakes the `wait_until_not_full`, which returns, and the
    blocked push sleeps on beside a free slot. -/
theorem never_stranded_fails : ∃ sys : System (Fin 3) Nat Unit,
    Reaches System.step (fun _ _ => True) (System.start 1 ()) sys ∧
      sys.phase 0 = .idle ∧ sys.phase 1 = .idle ∧ sys.phase 2 = .asleep (.pushBack 8) ∧
      Stranded sys := by
  let schedule : List (Label (Fin 3) Nat) :=
    [⟨0, .call (.pushBack 7), none⟩, ⟨1, .call .waitUntilNotFull, none⟩,
      ⟨2, .call (.pushBack 8), none⟩, ⟨0, .call .popFront, some 1⟩, ⟨1, .recheck false, none⟩]
  have ran : (exec System.step (fun _ _ => True) (System.start 1 ()) schedule).map (fun sys =>
      (sys.buffer.this.full, sys.phase 0, sys.phase 1, sys.phase 2)) =
        some (false, .idle, .idle, .asleep (.pushBack 8)) := by decide +kernel
  obtain ⟨sys, ran, facts⟩ := Option.map_eq_some_iff.mp ran
  simp only [Prod.mk.injEq] at facts
  obtain ⟨notFull, zero, one, two⟩ := facts
  refine ⟨sys, Reaches.of_exec ran, zero, one, two, notFull, 2, ?_, ?_⟩
  · rw [two]
    rfl
  · intro k other
    match k, other with
    | 0, _ => rw [zero]; rfl
    | 1, _ => rw [one]; rfl
    | 2, other => exact absurd rfl other

end RingBufferThreadSafe

end Dkyb
