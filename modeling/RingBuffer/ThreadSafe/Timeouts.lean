import RingBuffer.Lib.Transitions
import RingBuffer.ThreadSafe.Fifo

/-! # The calls that act after their lock's scope

`push_back_with_timeout` and `pop_front_with_timeout` check under the lock and
call the buffer after its scope. What they checked still holds then as long as no
other thread takes the last free slot, or the last element, in between.
-/

namespace Dkyb

open Stateful

variable {T A : Type}

namespace RingBufferThreadSafe

open Transitions

/-- Past the lock's scope, with the element still to append. -/
def Phase.pendingPush : Phase T → Bool
  | .unlocked method => method.timedPush
  | _ => false

/-- Past the lock's scope, with the element still to remove. -/
def Phase.pendingPop : Phase T → Bool
  | .unlocked .popFrontWithTimeout => true
  | _ => false

theorem Phase.pendingPush_iff {x : Phase T} :
    x.pendingPush = true ↔ ∃ method, x = .unlocked method ∧ method.timedPush = true := by
  cases x <;> simp [Phase.pendingPush]

theorem Phase.pendingPop_iff {x : Phase T} :
    x.pendingPop = true ↔ x = .unlocked .popFrontWithTimeout := by
  cases x with
  | unlocked method => cases method <;> simp [Phase.pendingPop]
  | _ => simp [Phase.pendingPop]

theorem Phase.pendingPush_wake (x : Phase T) : x.wake.pendingPush = x.pendingPush := by
  cases x <;> rfl

theorem Phase.pendingPop_wake (x : Phase T) : x.wake.pendingPop = x.pendingPop := by
  cases x <;> rfl

variable {ι : Type} [Fintype ι] [DecidableEq ι]

namespace System

/-- The step is one that inserts when it finds room. -/
def inserts (sys : System ι T A) (l : Label ι T) : Bool :=
  match sys.running l with
  | some method => method.offered.isSome && !method.timedPush
  | none => match l.action with
    | .proceed => (sys.phase l.thread).pendingPush
    | _ => false

/-- The step is one that leaves the buffer empty. -/
def empties (sys : System ι T A) (l : Label ι T) : Bool :=
  match sys.running l with
  | some .clear => true
  | some method => method.pops && sys.buffer.this.count_ == 1
  | none => match l.action with
    | .proceed => (sys.phase l.thread).pendingPop && sys.buffer.this.count_ == 1
    | _ => false

end System

/-- Nobody takes the last free slot while another thread is about to append. -/
def LastSlotKept (sys : System ι T A) (l : Label ι T) : Prop :=
  sys.inserts l = true → sys.buffer.this.count_ + 1 = sys.buffer.this.capacity_ →
    ∀ k, k ≠ l.thread → (sys.phase k).pendingPush = false

/-- Nobody takes the last element while another thread is about to remove one. -/
def LastElementKept (sys : System ι T A) (l : Label ι T) : Prop :=
  sys.empties l = true → ∀ k, k ≠ l.thread → (sys.phase k).pendingPop = false

instance (sys : System ι T A) (l : Label ι T) : Decidable (LastSlotKept sys l) :=
  inferInstanceAs (Decidable (_ → _ → _))

instance (sys : System ι T A) (l : Label ι T) : Decidable (LastElementKept sys l) :=
  inferInstanceAs (Decidable (_ → _))

variable {sys sys' : System ι T A} {l : Label ι T} {report : Report T} {c : Nat}

/-- In any run the cursors stay in range and nothing throws. -/
theorem counted_of_reaches {ok : System ι T A → Label ι T → Prop} (pos : 0 < c) (a : A)
    (reached : Reaches System.step ok (System.start c a) sys) :
    sys.buffer.this.Counted c ∧ sys.buffer.mem.fuse = none := by
  refine reached.invariant (I := fun sys => sys.buffer.this.Counted c ∧ sys.buffer.mem.fuse = none)
    (counted_start pos a) ?_
  intro s l s' r h _ stepped
  exact (turn_of_step h.2 stepped).counted h.1 h.2

/-! ## Appending with a timeout -/

/-- Every append with a timeout finds room and only adds its element, and a call
    that gives up leaves the buffer as it was. -/
def NeverOverwrites (c : Nat) (sys : System ι T A) : Prop :=
  (∀ l sys' report method v, sys.step l = some (sys', report) → l.action = .proceed →
    sys.phase l.thread = .unlocked method → method.timedPush = true → method.offered = some v →
      sys.buffer.this.full = false ∧
        ∃ q, Observes c sys.buffer q ∧ Observes c sys'.buffer (q ++ [v])) ∧
  (∀ l sys' method, sys.step l = some (sys', some (method, .bool false)) →
    method.timedPush = true → sys'.buffer = sys.buffer)

structure RoomKept (c : Nat) (sys : System ι T A) : Prop where
  queue : ∃ q, Queued c sys.buffer q
  room : ∀ k, (sys.phase k).pendingPush = true → sys.buffer.this.full_ = false

/-- What makes the thread of a step one that is about to append. -/
theorem pendingPush_own (turn : Turn sys l sys' report)
    (pending : (sys'.phase l.thread).pendingPush = true) :
    sys'.buffer = sys.buffer ∧ sys.buffer.this.full_ = false := by
  obtain ⟨method, after, timed⟩ := Phase.pendingPush_iff.mp pending
  obtain ⟨same, cv, waitsOn, met⟩ := turn.unlocked_own after
  refine ⟨same, ?_⟩
  cases method <;> cases timed
  all_goals
    cases waitsOn
    simpa [CondVar.holds, RingBuffer.full] using met

/-- A buffer with room keeps some unless the step takes its last free slot. -/
theorem room_after (turn : Turn sys l sys' report) (quiet : sys.buffer.mem.fuse = none)
    (room : sys.buffer.this.full_ = false)
    (kept : sys.inserts l = true → sys.buffer.this.count_ + 1 ≠ sys.buffer.this.capacity_) :
    sys'.buffer.this.full_ = false := by
  cases turn with
  | wakes | waits | unlocks | throws | notifies => exact room
  | passes method result s inside passes => exact passes.this ▸ room
  | inserts method inner v result phase inside inserted offered room' locked succeeds =>
      have timed : method.timedPush = false := by
        cases method <;> first | rfl | cases locked
      have more := kept (by simp [System.inserts, inside, offered, timed])
      rw [(insert_cursors quiet inserted room).2]
      exact beq_eq_false_iff_ne.mpr more
  | removes => exact (popped_cursors sys.buffer).2
  | clears => rfl
  | appends method inner v phase timed offered inserted action =>
      have outside : sys.running l = none := by simp [System.running, action]
      have more := kept (by simp [System.inserts, outside, action, phase, Phase.pendingPush, timed])
      rw [(insert_cursors quiet inserted room).2]
      exact beq_eq_false_iff_ne.mpr more
  | takes => exact (popped_cursors sys.buffer).2

/-- A step that takes the last free slot leaves the buffer full. -/
theorem full_after (turn : Turn sys l sys' report) (quiet : sys.buffer.mem.fuse = none)
    (room : sys.buffer.this.full_ = false) (inserts : sys.inserts l = true)
    (last : sys.buffer.this.count_ + 1 = sys.buffer.this.capacity_) :
    sys'.buffer.this.full = true := by
  have filled : ∀ {inner : Update T} {v : T}, inner.inserted = some v →
      (final inner.perform sys.buffer).this.full = true := by
    intro inner v inserted
    exact (insert_cursors quiet inserted room).2.trans (beq_iff_eq.mpr last)
  have offers : ∀ {method : Method T}, sys.running l = some method →
      method.offered.isSome = true ∧ method.timedPush = false := by
    intro method inside
    simpa [System.inserts, inside] using inserts
  cases turn with
  | wakes method phase action => simp [System.inserts, System.running, action] at inserts
  | waits method cv inside waitsOn unmet =>
      obtain ⟨offered, -⟩ := offers inside
      cases method <;> cases waitsOn <;> cases offered
      all_goals simp [CondVar.holds, RingBuffer.full, room] at unmet
  | unlocks method cv inside waitsOn met rest =>
      obtain ⟨offered, timed⟩ := offers inside
      rcases Method.timedPush_of_remainder rest with timed' | rfl
      · rw [timed] at timed'
        cases timed'
      · cases offered
  | passes method result s inside passes =>
      have full := passes.refused (offers inside).1
      rw [RingBuffer.full, room] at full
      cases full
  | inserts method inner v result phase inside inserted => exact filled inserted
  | removes method phase inside pops =>
      obtain ⟨offered, -⟩ := offers inside
      cases method <;> cases pops <;> cases offered
  | clears inside => cases (offers inside).1
  | appends method inner v phase timed offered inserted => exact filled inserted
  | takes phase nonempty action =>
      simp [System.inserts, System.running, action, phase, Phase.pendingPush,
        Method.timedPush] at inserts
  | throws e phase empty action =>
      simp [System.inserts, System.running, action, phase, Phase.pendingPush,
        Method.timedPush] at inserts
  | notifies cv method result phase notifying delivered action =>
      simp [System.inserts, System.running, action] at inserts

namespace RoomKept

omit [Fintype ι] [DecidableEq ι] in
theorem start (pos : 0 < c) (a : A) : RoomKept c (System.start c a : System ι T A) where
  queue := ⟨[], Queued.created pos a⟩
  room k pending := by cases pending

/-- Step lemma. -/
theorem step (h : RoomKept c sys) (kept : LastSlotKept sys l) (turn : Turn sys l sys' report) :
    RoomKept c sys' := by
  obtain ⟨q, queued⟩ := h.queue
  have quiet := queued.holds.quiet
  refine ⟨?_, ?_⟩
  · cases turn with
    | wakes | waits | unlocks | throws | notifies => exact ⟨q, queued⟩
    | passes method result s inside passes =>
        exact ⟨q, queued.of_same passes.this passes.slots passes.fuse⟩
    | inserts method inner v result phase inside inserted offered room =>
        exact ⟨q ++ [v], queued.insert room inserted⟩
    | clears => exact ⟨[], queued.cleared⟩
    | appends method inner v phase timed offered inserted =>
        have room := h.room l.thread (by rw [phase]; exact timed)
        exact ⟨q ++ [v], queued.insert room inserted⟩
    | removes | takes =>
        cases q with
        | nil => exact absurd queued.holds.count ‹_›
        | cons x q => exact ⟨q, queued.popped⟩
  · intro k pending
    by_cases own : k = l.thread
    · subst own
      obtain ⟨same, room⟩ := pendingPush_own turn pending
      rwa [same]
    · rw [turn.others Phase.pendingPush_wake own] at pending
      apply room_after turn quiet (h.room k pending)
      intro inserts last
      have done := kept inserts last k own
      rw [pending] at done
      cases done

theorem of_reaches (pos : 0 < c) (a : A)
    (reached : Reaches System.step LastSlotKept (System.start c a) sys) : RoomKept c sys := by
  refine reached.invariant (start pos a) ?_
  intro s l s' r h kept stepped
  obtain ⟨q, queued⟩ := h.queue
  exact h.step kept (turn_of_step queued.holds.quiet stepped)

theorem neverOverwrites (h : RoomKept c sys) : NeverOverwrites c sys := by
  obtain ⟨q, queued⟩ := h.queue
  refine ⟨?_, ?_⟩
  · intro l sys' report method v stepped action phase timed offered
    have room := h.room l.thread (by rw [phase]; exact timed)
    refine ⟨room, q, queued.holds.observes, ?_⟩
    rcases (turn_of_step queued.holds.quiet stepped).proceeds action with
      ⟨method', inner, v', phase', timed', offered', inserted, done⟩ | ⟨other, -⟩ | ⟨other, -⟩
    · rw [phase] at phase'
      cases phase'
      rw [offered] at offered'
      cases offered'
      rw [done]
      exact (queued.insert room inserted).holds.observes
    · rw [phase] at other
      cases other
      cases timed
    · rw [phase] at other
      cases other
      cases timed
  · intro l sys' method stepped _
    exact unchanged_of_failed (turn_of_step queued.holds.quiet stepped) rfl

/-- Taking the last free slot makes the buffer full under a pending append. -/
theorem full_of_not_kept (h : RoomKept c sys) (turn : Turn sys l sys' report)
    (astray : ¬ LastSlotKept sys l) :
    ∃ k, (sys'.phase k).pendingPush = true ∧ sys'.buffer.this.full = true := by
  obtain ⟨q, queued⟩ := h.queue
  simp only [LastSlotKept, not_forall, Bool.not_eq_false] at astray
  obtain ⟨inserts, last, k, other, pending⟩ := astray
  exact ⟨k, (turn.others Phase.pendingPush_wake other).trans pending,
    full_after turn queued.holds.quiet (h.room k pending) inserts last⟩

omit [Fintype ι] in
/-- A pending append into a full buffer overwrites. -/
theorem not_neverOverwrites [Fintype ι] (quiet : sys.buffer.mem.fuse = none) {k : ι}
    (pending : (sys.phase k).pendingPush = true) (full : sys.buffer.this.full = true) :
    ¬ NeverOverwrites c sys := by
  intro never
  have room : ∀ {method : Method T} {inner : Update T} {v : T}, sys.phase k = .unlocked method →
      method.timedPush = true → method.offered = some v →
      method.remainder = some (inner, fun _ => .bool true, .notEmpty) →
      inner.inserted = some v → sys.buffer.this.full = false := by
    intro method inner v phase timed offered rest inserted
    have stepped : sys.step ⟨k, .proceed, none⟩ = some
        (⟨final inner.perform sys.buffer, Function.update sys.phase k
          (.notifying .notEmpty method (.bool true))⟩, none) := by
      simp only [System.step, phase, rest, run_insert sys.buffer quiet inserted]
    exact (never.1 _ _ _ method v stepped rfl phase timed offered).1
  obtain ⟨method, phase, timed⟩ := Phase.pendingPush_iff.mp pending
  cases method <;> cases timed
  all_goals
    have found := room phase rfl rfl rfl rfl
    rw [full] at found
    cases found

end RoomKept

/-- In a run that never takes the last free slot under a pending append, no append
    with a timeout overwrites; after the first step that does take it, the pending
    append is one that would. -/
theorem timedPush_never_overwrites (pos : 0 < c) (a : A)
    (reached : Reaches System.step LastSlotKept (System.start c a) sys) :
    NeverOverwrites c sys ∧ ∀ l sys' report, sys.step l = some (sys', report) →
      (NeverOverwrites c sys' ↔ LastSlotKept sys l) := by
  have kept := RoomKept.of_reaches pos a reached
  obtain ⟨q, queued⟩ := kept.queue
  refine ⟨kept.neverOverwrites, fun l sys' report stepped => ?_⟩
  have turn := turn_of_step queued.holds.quiet stepped
  constructor
  · intro never
    by_contra astray
    obtain ⟨k, pending, full⟩ := kept.full_of_not_kept turn astray
    have quiet := (turn.counted queued.holds.counted queued.holds.quiet).2
    exact RoomKept.not_neverOverwrites quiet pending full never
  · intro here
    exact (kept.step here turn).neverOverwrites

/-- Capacity 2: an append with a timeout that waits for room and finds it. -/
theorem timedPush_never_overwrites_two : ∃ sys : System (Fin 2) Nat Unit,
    sys.buffer.contents = [some 8, some 9] ∧ NeverOverwrites 2 sys := by
  let schedule : List (Label (Fin 2) Nat) :=
    [⟨0, .call (.pushBack 7), none⟩, ⟨0, .call (.tryPushBack 8), none⟩,
      ⟨1, .call (.pushBackWithTimeout 9), none⟩, ⟨0, .call .popFront, some 1⟩,
      ⟨1, .recheck true, none⟩, ⟨1, .proceed, none⟩]
  have ran : (exec System.step LastSlotKept (System.start 2 ()) schedule).map
      (fun sys => sys.buffer.contents) = some [some 8, some 9] := by decide +kernel
  obtain ⟨sys, ran, contents⟩ := Option.map_eq_some_iff.mp ran
  exact ⟨sys, contents, (timedPush_never_overwrites (by decide) () (Reaches.of_exec ran)).1⟩

/-- Capacity 1: two appends with a timeout pass their checks on the empty buffer,
    and the second one drops the element of the first. -/
theorem timedPush_never_overwrites_fails : ∃ sys sys' : System (Fin 2) Nat Unit,
    Reaches System.step (fun _ _ => True) (System.start 1 ()) sys ∧
      (∃ report, sys.step ⟨1, .proceed, none⟩ = some (sys', report)) ∧
      sys.buffer.contents = [some 7] ∧ sys'.buffer.contents = [some 8] ∧
      ¬ NeverOverwrites 1 sys := by
  let schedule : List (Label (Fin 2) Nat) :=
    [⟨0, .call (.pushBackWithTimeout 7), none⟩, ⟨1, .call (.pushBackWithTimeout 8), none⟩,
      ⟨0, .proceed, none⟩]
  have ran : (exec System.step (fun _ _ => True) (System.start 1 ()) schedule).map (fun sys =>
      (sys.buffer.contents, (sys.phase 1).pendingPush && sys.buffer.this.full,
        (sys.step ⟨1, .proceed, none⟩).map fun next => next.1.buffer.contents)) =
      some ([some 7], true, some [some 8]) := by decide +kernel
  obtain ⟨sys, ran, facts⟩ := Option.map_eq_some_iff.mp ran
  simp only [Prod.mk.injEq, Option.map_eq_some_iff, Bool.and_eq_true] at facts
  obtain ⟨before, ⟨pending, full⟩, ⟨sys', report⟩, stepped, after⟩ := facts
  have reached := Reaches.of_exec ran
  exact ⟨sys, sys', reached, ⟨report, stepped⟩, before, after,
    RoomKept.not_neverOverwrites (counted_of_reaches (by decide) () reached).2 pending full⟩

/-! ## Removing with a timeout -/

/-- A removal with a timeout returns what was at the front when it removed it, or
    `nullopt` from a buffer it left alone; it throws nothing. -/
def EmptyByNullopt (sys : System ι T A) : Prop :=
  (∀ l sys' report, sys.step l = some (sys', report) → l.action = .proceed →
    sys.phase l.thread = .unlocked .popFrontWithTimeout →
      ∃ content, reply Query.front.ask sys.buffer = .ok content ∧
        sys'.buffer = final Update.popFront.perform sys.buffer ∧
        sys'.phase l.thread = .notifying .notFull .popFrontWithTimeout (.element content)) ∧
  (∀ l sys' result, sys.step l = some (sys', some (.popFrontWithTimeout, result)) →
    (result = .nullopt ∧ sys'.buffer = sys.buffer) ∨
      ∃ content, result = .element content ∧
        sys.phase l.thread = .notifying .notFull .popFrontWithTimeout result)

/-- A removal that is past its inner call has an element to return. -/
def Phase.BringsElement (x : Phase T) : Prop := ∀ cv result,
  x = .notifying cv .popFrontWithTimeout result →
    cv = .notFull ∧ ∃ content, result = .element content

theorem Phase.bringsElement_wake (x : Phase T) : x.wake.BringsElement = x.BringsElement := by
  cases x <;> simp [Phase.BringsElement, Phase.wake]

structure ElementKept (c : Nat) (sys : System ι T A) : Prop where
  counted : sys.buffer.this.Counted c
  quiet : sys.buffer.mem.fuse = none
  element : ∀ k, (sys.phase k).pendingPop = true → sys.buffer.this.count_ ≠ 0
  brings : ∀ k, (sys.phase k).BringsElement

namespace ElementKept

omit [Fintype ι] [DecidableEq ι] in
theorem start (pos : 0 < c) (a : A) : ElementKept c (System.start c a : System ι T A) where
  counted := (counted_start pos a).1
  quiet := (counted_start pos a).2
  element k pending := by cases pending
  brings k := nofun

/-- What the thread of a step becomes. -/
theorem brings_own (turn : Turn sys l sys' report) :
    (sys'.phase l.thread).BringsElement := by
  have own : ∀ x : Phase T, Function.update sys.phase l.thread x l.thread = x :=
    fun x => Function.update_self l.thread x sys.phase
  cases turn with
  | wakes | waits | unlocks | passes | throws =>
      simp only [own]
      exact nofun
  | appends method inner v phase timed =>
      simp only [own]
      intro cv result same
      cases same
      cases timed
  | takes =>
      simp only [own]
      intro cv result same
      cases same
      exact ⟨rfl, _, rfl⟩
  | inserts _ _ _ _ _ _ _ _ _ _ _ delivered | removes _ _ _ _ _ delivered
  | notifies _ _ _ _ _ delivered =>
      rw [notifyOne_keeps Phase.bringsElement_wake delivered, own]
      exact nofun
  | clears =>
      rw [notifyAll_keeps Phase.bringsElement_wake, own]
      exact nofun

/-- What makes the thread of a step one that is about to remove. -/
theorem pendingPop_own (turn : Turn sys l sys' report)
    (pending : (sys'.phase l.thread).pendingPop = true) :
    sys'.buffer = sys.buffer ∧ sys.buffer.this.count_ ≠ 0 := by
  obtain ⟨same, cv, waitsOn, met⟩ := turn.unlocked_own (Phase.pendingPop_iff.mp pending)
  refine ⟨same, ?_⟩
  cases waitsOn
  simpa [CondVar.holds, RingBuffer.empty] using met

omit [Fintype ι] [DecidableEq ι] in
/-- An insertion leaves at least one element. -/
theorem insert_nonempty (h : ElementKept c sys) {inner : Update T} {v : T}
    (inserted : inner.inserted = some v) : (final inner.perform sys.buffer).this.count_ ≠ 0 := by
  have pos := h.counted.pos
  cases full : sys.buffer.this.full_ with
  | false =>
      rw [(insert_cursors h.quiet inserted full).1]
      exact Nat.succ_ne_zero _
  | true =>
      have filled := h.counted.full_iff.mp full
      rw [(insert_cursors_full h.quiet inserted full).1]
      omega

/-- A buffer with elements keeps some unless the step takes the last one. -/
theorem nonempty_after (h : ElementKept c sys) (turn : Turn sys l sys' report)
    (nonempty : sys.buffer.this.count_ ≠ 0) (kept : sys.empties l = false) :
    sys'.buffer.this.count_ ≠ 0 := by
  cases turn with
  | wakes | waits | unlocks | throws | notifies => exact nonempty
  | passes method result s inside passes => exact passes.this ▸ nonempty
  | inserts method inner v result phase inside inserted => exact h.insert_nonempty inserted
  | appends method inner v phase timed offered inserted => exact h.insert_nonempty inserted
  | removes method phase inside pops =>
      have more : sys.buffer.this.count_ ≠ 1 := by
        intro last
        cases method <;> cases pops
        all_goals simp [System.empties, inside, Method.pops, last] at kept
      rw [(popped_cursors sys.buffer).1]
      omega
  | clears inside => simp [System.empties, inside] at kept
  | takes phase nonempty action =>
      have more : sys.buffer.this.count_ ≠ 1 := by
        intro last
        simp [System.empties, System.running, action, phase, Phase.pendingPop, last] at kept
      rw [(popped_cursors sys.buffer).1]
      omega

/-- A step that takes the last element leaves none. -/
theorem empty_after (turn : Turn sys l sys' report) (nonempty : sys.buffer.this.count_ ≠ 0)
    (empties : sys.empties l = true) : sys'.buffer.this.count_ = 0 := by
  have emptied : ∀ {method : Method T}, sys.running l = some method →
      method = .clear ∨ (method.pops = true ∧ sys.buffer.this.count_ = 1) := by
    intro method inside
    cases method <;> simp_all [System.empties, Method.pops]
  have outside : sys.running l = none → l.action = .proceed ∧
      (sys.phase l.thread).pendingPop = true ∧ sys.buffer.this.count_ = 1 := by
    intro none
    simp only [System.empties, none] at empties
    split at empties
    · simp only [Bool.and_eq_true, beq_iff_eq] at empties
      exact ⟨‹_›, empties⟩
    · cases empties
  cases turn with
  | wakes method phase action => cases action.symm.trans (outside (by simp [System.running, action])).1
  | waits method cv inside waitsOn =>
      rcases emptied inside with rfl | ⟨pops, -⟩
      · cases waitsOn
      · cases method <;> cases pops <;> cases waitsOn
  | unlocks method cv inside waitsOn =>
      rcases emptied inside with rfl | ⟨pops, -⟩
      · cases waitsOn
      · cases method <;> cases pops <;> cases waitsOn
  | passes method result s inside passes =>
      rcases emptied inside with rfl | ⟨pops, -⟩
      · exact absurd rfl passes.keeps
      · exact absurd (passes.empty pops) nonempty
  | inserts method inner v result phase inside inserted offered =>
      rcases emptied inside with rfl | ⟨pops, -⟩
      · cases offered
      · cases method <;> cases pops <;> cases offered
  | removes method phase inside pops =>
      rcases emptied inside with rfl | ⟨-, last⟩
      · cases pops
      · rw [(popped_cursors sys.buffer).1, last]
  | clears => rfl
  | appends method inner v phase timed offered inserted action =>
      have own := (outside (by simp [System.running, action])).2.1
      rw [phase] at own
      cases method <;> cases own
      cases timed
  | takes phase nonempty action =>
      rw [(popped_cursors sys.buffer).1, (outside (by simp [System.running, action])).2.2]
  | throws e phase empty action => exact empty
  | notifies cv method result phase notifying delivered action =>
      cases action.symm.trans (outside (by simp [System.running, action])).1

/-- Step lemma. -/
theorem step (h : ElementKept c sys) (kept : LastElementKept sys l)
    (turn : Turn sys l sys' report) : ElementKept c sys' := by
  obtain ⟨counted, quiet⟩ := turn.counted h.counted h.quiet
  refine ⟨counted, quiet, ?_, ?_⟩
  · intro k pending
    by_cases own : k = l.thread
    · subst own
      obtain ⟨same, nonempty⟩ := pendingPop_own turn pending
      rwa [same]
    · rw [turn.others Phase.pendingPop_wake own] at pending
      apply h.nonempty_after turn (h.element k pending)
      rw [← Bool.not_eq_true]
      intro empties
      have done := kept empties k own
      rw [pending] at done
      cases done
  · intro k
    by_cases own : k = l.thread
    · subst own
      exact brings_own turn
    · rw [turn.others Phase.bringsElement_wake own]
      exact h.brings k

theorem of_reaches (pos : 0 < c) (a : A)
    (reached : Reaches System.step LastElementKept (System.start c a) sys) :
    ElementKept c sys := by
  refine reached.invariant (start pos a) ?_
  intro s l s' r h kept stepped
  exact h.step kept (turn_of_step h.quiet stepped)

theorem emptyByNullopt (h : ElementKept c sys) : EmptyByNullopt sys := by
  refine ⟨?_, ?_⟩
  · intro l sys' report stepped action phase
    have nonempty := h.element l.thread (by rw [phase]; rfl)
    rcases (turn_of_step h.quiet stepped).proceeds action with
      ⟨method, inner, v, other, timed, -⟩ | ⟨-, -, done, brings⟩ | ⟨-, empty⟩
    · rw [phase] at other
      cases other
      cases timed
    · refine ⟨_, reply_ask_front nonempty, ?_, brings⟩
      rw [done, final_of_run (run_perform_popFront h.quiet nonempty)]
    · exact absurd empty nonempty
  · intro l sys' result stepped
    cases turn_of_step h.quiet stepped with
    | passes _ _ s inside passes =>
        have gaveUp := passes.timedPop rfl
        subst gaveUp
        exact .inl ⟨rfl, passes.failed rfl⟩
    | inserts _ inner v _ phase inside inserted offered => cases offered
    | removes _ phase inside pops => cases pops
    | throws e phase empty => exact absurd empty (h.element l.thread (by rw [phase]; rfl))
    | notifies cv _ _ phase notifying =>
        obtain ⟨rfl, content, rfl⟩ := h.brings l.thread cv result notifying
        exact .inr ⟨content, rfl, notifying⟩

/-- A pending removal from an empty buffer throws. -/
theorem not_emptyByNullopt {k : ι} (pending : (sys.phase k).pendingPop = true)
    (empty : sys.buffer.this.count_ = 0) : ¬ EmptyByNullopt sys := by
  intro never
  have phase := Phase.pendingPop_iff.mp pending
  have stepped : sys.step ⟨k, .proceed, none⟩ = some
      (⟨sys.buffer, Function.update sys.phase k .idle⟩, some (.popFrontWithTimeout,
        .thrown (.ringBufferException "Cannot pop from empty ring buffer"))) := by
    simp only [System.step, phase, Method.remainder, run_perform_popFront_empty empty]
  rcases never.2 _ _ _ stepped with ⟨impossible, -⟩ | ⟨content, impossible, -⟩
  · cases impossible
  · cases impossible

/-- Taking the last element leaves a pending removal with nothing. -/
theorem empty_of_not_kept (h : ElementKept c sys) (turn : Turn sys l sys' report)
    (astray : ¬ LastElementKept sys l) :
    ∃ k, (sys'.phase k).pendingPop = true ∧ sys'.buffer.this.count_ = 0 := by
  simp only [LastElementKept, not_forall, Bool.not_eq_false] at astray
  obtain ⟨empties, k, other, pending⟩ := astray
  exact ⟨k, (turn.others Phase.pendingPop_wake other).trans pending,
    empty_after turn (h.element k pending) empties⟩

end ElementKept

/-- In a run that never takes the last element under a pending removal, no removal
    with a timeout throws; after the first step that does take it, the pending removal
    is one that would. -/
theorem timedPop_never_throws (pos : 0 < c) (a : A)
    (reached : Reaches System.step LastElementKept (System.start c a) sys) :
    EmptyByNullopt sys ∧ ∀ l sys' report, sys.step l = some (sys', report) →
      (EmptyByNullopt sys' ↔ LastElementKept sys l) := by
  have kept := ElementKept.of_reaches pos a reached
  refine ⟨kept.emptyByNullopt, fun l sys' report stepped => ?_⟩
  have turn := turn_of_step kept.quiet stepped
  constructor
  · intro never
    by_contra astray
    obtain ⟨k, pending, empty⟩ := kept.empty_of_not_kept turn astray
    exact ElementKept.not_emptyByNullopt pending empty never
  · intro here
    exact (kept.step here turn).emptyByNullopt

/-- Two elements and two removals with a timeout, the second let through while the
    first has still to remove. -/
theorem timedPop_never_throws_two : ∃ sys : System (Fin 2) Nat Unit,
    sys.buffer.contents = [] ∧ EmptyByNullopt sys := by
  let schedule : List (Label (Fin 2) Nat) :=
    [⟨0, .call .popFrontWithTimeout, none⟩, ⟨1, .call (.pushBack 7), some 0⟩,
      ⟨1, .call (.tryPushBack 8), none⟩, ⟨0, .recheck false, none⟩,
      ⟨1, .call .popFrontWithTimeout, none⟩, ⟨0, .proceed, none⟩, ⟨0, .notify, none⟩,
      ⟨1, .proceed, none⟩]
  have ran : (exec System.step LastElementKept (System.start 2 ()) schedule).map
      (fun sys => sys.buffer.contents) = some [] := by decide +kernel
  obtain ⟨sys, ran, contents⟩ := Option.map_eq_some_iff.mp ran
  exact ⟨sys, contents, (timedPop_never_throws (by decide) () (Reaches.of_exec ran)).1⟩

/-- Capacity 1: two removals with a timeout pass their checks on one element, and
    the second one throws. -/
theorem timedPop_never_throws_fails : ∃ sys sys' : System (Fin 2) Nat Unit,
    Reaches System.step (fun _ _ => True) (System.start 1 ()) sys ∧
      sys.step ⟨1, .proceed, none⟩ = some (sys', some (.popFrontWithTimeout,
        .thrown (.ringBufferException "Cannot pop from empty ring buffer"))) ∧
      ¬ EmptyByNullopt sys := by
  let schedule : List (Label (Fin 2) Nat) :=
    [⟨0, .call (.pushBack 7), none⟩, ⟨0, .call .popFrontWithTimeout, none⟩,
      ⟨1, .call .popFrontWithTimeout, none⟩, ⟨0, .proceed, none⟩]
  have ran : (exec System.step (fun _ _ => True) (System.start 1 ()) schedule).map (fun sys =>
      ((sys.phase 1).pendingPop && sys.buffer.this.count_ == 0,
        (sys.step ⟨1, .proceed, none⟩).map Prod.snd)) =
      some (true, some (some (.popFrontWithTimeout,
        .thrown (.ringBufferException "Cannot pop from empty ring buffer")))) := by decide +kernel
  obtain ⟨sys, ran, facts⟩ := Option.map_eq_some_iff.mp ran
  simp only [Prod.mk.injEq, Option.map_eq_some_iff, Bool.and_eq_true, beq_iff_eq] at facts
  obtain ⟨⟨pending, empty⟩, ⟨sys', report⟩, stepped, thrown⟩ := facts
  cases thrown
  exact ⟨sys, sys', Reaches.of_exec ran, stepped,
    ElementKept.not_emptyByNullopt pending empty⟩

end RingBufferThreadSafe

end Dkyb
