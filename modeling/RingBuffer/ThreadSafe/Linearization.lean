import RingBuffer.ThreadSafe.Journal

/-! # The wrapper as a bounded queue with atomic calls

`respond` is what a bounded queue answers to each of the calls when nobody
interferes. As long as no step takes the last free slot, or the last element,
from a call with a timeout that was already let through, the answers of all calls,
in the order they were given, are those of such a queue.
-/

namespace Dkyb

open Stateful Signed

variable {T A : Type}

namespace Queued

variable {c : Nat} {s : State T A} {q : List T}

theorem full_eq (h : Queued c s q) : s.this.full = !decide (q.length < c) := by
  have bound := h.holds.laid.fits
  rw [List.length_map] at bound
  cases full : s.this.full with
  | true => simp [h.holds.full_iff.mp full]
  | false => simpa using h.holds.room full

theorem empty_eq (h : Queued c s q) : s.this.empty = q.isEmpty := by
  cases q with
  | nil => simp [RingBuffer.empty, h.holds.count]
  | cons v q => simp [RingBuffer.empty, h.holds.count]

theorem room (h : Queued c s q) (fits : q.length < c) : s.this.full_ = false := by
  simpa [fits, RingBuffer.full] using h.full_eq

end Queued

namespace RingBufferThreadSafe

open Transitions

/-- What an access finds at its place in the queue. -/
def found (place : Option T) (refusal : Exn) : Result T :=
  match place with
  | some v => .element (some v)
  | none => .thrown refusal

/-- The specification: the answer of a queue of at most `c` elements that holds `q`,
    and what it holds afterwards. `none` while the call has to wait. -/
def respond (c : Nat) (q : List T) (expired : Bool) : Method T → Option (Result T × List T)
  | .pushBack v | .pushBackMove v | .emplaceBack v =>
      if q.length < c then some (.void, q ++ [v]) else none
  | .tryPushBack v | .tryPushBackMove v =>
      some (if q.length < c then (.bool true, q ++ [v]) else (.bool false, q))
  | .pushBackWithTimeout v | .pushBackWithTimeoutMove v =>
      if q.length < c then some (.bool true, q ++ [v])
      else if expired then some (.bool false, q) else none
  | .popFront =>
      some (found q.head? (.ringBufferException "Cannot pop from empty ring buffer"), q.tail)
  | .tryPopFront =>
      match q with
      | [] => some (.nullopt, [])
      | v :: q => some (.element (some v), q)
  | .popFrontWithTimeout =>
      match q with
      | [] => if expired then some (.nullopt, []) else none
      | v :: q => some (.element (some v), q)
  | .front => some (found q.head? (Query.front.refusal c), q)
  | .back => some (found q.getLast? (Query.back.refusal c), q)
  | .index i => some (found q[i]? ((Query.index i).refusal c), q)
  | .size => some (.number q.length, q)
  | .capacity => some (.number c, q)
  | .empty => some (.bool q.isEmpty, q)
  | .full => some (.bool (q.length == c), q)
  | .available => some (.number (c - q.length), q)
  | .clear => some (.void, [])
  | .waitUntilNotEmpty =>
      if !q.isEmpty then some (.bool true, q) else if expired then some (.bool false, q) else none
  | .waitUntilNotFull =>
      if q.length < c then some (.bool true, q) else if expired then some (.bool false, q) else none

/-! ## Critical sections -/

/-- The section ends as the queue answers; one that leaves its lock's scope first
    would get an answer right now. -/
def Responds (c : Nat) (q : List T) (expired : Bool) (method : Method T) : Outcome T A → Prop
  | .sleep => respond c q expired method = none
  | .unlock => method.remainder.isSome = true ∧ ∃ answer, respond c q false method = some answer
  | .leave result s _ => ∃ q', respond c q expired method = some (result, q') ∧ Queued c s q'

section Sections

variable {c : Nat} {s : State T A} {q : List T} {expired : Bool} {method : Method T}

theorem responds_insertWhenRoom (h : Queued c s q) {inner : Update T} {v : T}
    (inserted : inner.inserted = some v)
    (spec : respond c q expired method = if q.length < c then some (.void, q ++ [v]) else none) :
    Responds c q expired method (insertWhenRoom inner s) := by
  unfold insertWhenRoom
  rw [h.full_eq]
  by_cases fits : q.length < c
  · have run := run_insert_room h.holds.quiet v inserted (h.room fits)
    simp only [fits, decide_true, Bool.not_true, Bool.false_eq_true, if_false, callAndLeave, run]
    refine ⟨q ++ [v], by rw [spec, if_pos fits], ?_⟩
    rw [← final_of_run run]
    exact h.insert (h.room fits) inserted
  · simp only [fits, decide_false, Bool.not_false, if_true]
    exact spec.trans (if_neg fits)

theorem responds_insertIfRoom (h : Queued c s q) {inner : Update T} {v : T}
    (inserted : inner.inserted = some v) (spec : respond c q expired method =
      some (if q.length < c then (.bool true, q ++ [v]) else (.bool false, q))) :
    Responds c q expired method (insertIfRoom inner s) := by
  unfold insertIfRoom
  rw [h.full_eq]
  by_cases fits : q.length < c
  · have run := run_insert_room h.holds.quiet v inserted (h.room fits)
    simp only [fits, decide_true, Bool.not_true, Bool.false_eq_true, if_false, callAndLeave, run]
    refine ⟨q ++ [v], by rw [spec, if_pos fits], ?_⟩
    rw [← final_of_run run]
    exact h.insert (h.room fits) inserted
  · simp only [fits, decide_false, Bool.not_false, if_true]
    exact ⟨q, by rw [spec, if_neg fits], h⟩

/-- The inner removal, once it is known that there is something to remove. -/
theorem run_popFront_queued {v : T} (h : Queued c s (v :: q)) :
    Update.popFront.perform.run s = .ok (.content (some v)) s.popped := by
  have content : (s.mem.slots s.headPtr).content = some v := congrArg Slot.content h.holds.cell_head
  rw [run_perform_popFront h.holds.quiet (by simp [h.holds.count]), content]

theorem responds_popFront (h : Queued c s q) :
    Responds c q expired .popFront (popFront s) := by
  unfold popFront callAndLeave
  cases q with
  | nil =>
      rw [run_perform_popFront_empty h.holds.count]
      exact ⟨[], rfl, h⟩
  | cons v q =>
      rw [run_popFront_queued h]
      exact ⟨q, rfl, h.popped⟩

theorem responds_tryPopFront (h : Queued c s q) :
    Responds c q expired .tryPopFront (tryPopFront s) := by
  unfold tryPopFront callAndLeave
  rw [h.empty_eq]
  cases q with
  | nil => exact ⟨[], rfl, h⟩
  | cons v q =>
      rw [run_popFront_queued h]
      exact ⟨q, rfl, h.popped⟩

/-- The three accesses read through the place they look up. -/
theorem responds_access (h : Queued c s q) {query : Query} {place : Option T}
    (looked : reply query.ask s = match place with
      | some v => .ok (some v)
      | none => .error (query.refusal c))
    (spec : respond c q expired method = some (found place (query.refusal c), q)) :
    Responds c q expired method (access query s) := by
  have keeps := ask_keeps query s
  unfold access
  unfold reply at looked
  cases run : query.ask.run s with
  | ok content s' =>
      rw [run] at keeps looked
      cases place with
      | some v =>
          cases looked
          exact ⟨q, spec, h.of_same keeps.1 keeps.2.1 keeps.2.2⟩
      | none => cases looked
  | error e s' =>
      rw [run] at keeps looked
      cases place with
      | some v => cases looked
      | none =>
          cases looked
          simp only at keeps
          subst keeps
          exact ⟨q, spec, h⟩

theorem looked_front (h : Queued c s q) : reply Query.front.ask s =
    match q.head? with
      | some v => .ok (some v)
      | none => .error (Query.front.refusal c) := by
  cases q with
  | nil =>
      have empty := run_ask_empty (s := s) h.holds.count Query.front
      rw [h.holds.counted.capacity] at empty
      exact reply_of_error empty
  | cons v q => exact h.holds.observes.front v rfl

theorem looked_back (h : Queued c s q) : reply Query.back.ask s =
    match q.getLast? with
      | some v => .ok (some v)
      | none => .error (Query.back.refusal c) := by
  cases last : q.getLast? with
  | none =>
      rw [List.getLast?_eq_none_iff] at last
      subst last
      have empty := run_ask_empty (s := s) h.holds.count Query.back
      rw [h.holds.counted.capacity] at empty
      exact reply_of_error empty
  | some v => exact h.asks_back last

theorem looked_index (h : Queued c s q) (i : Nat) : reply (Query.index i).ask s =
    match q[i]? with
      | some v => .ok (some v)
      | none => .error ((Query.index i).refusal c) := by
  by_cases inside : i < q.length
  · rw [List.getElem?_eq_getElem inside]
    exact h.holds.observes.index i inside
  · rw [List.getElem?_eq_none (by omega)]
    have outside := run_ask_outside (s := s) (i := i) (by rw [h.holds.count]; omega)
    rw [h.holds.counted.capacity] at outside
    exact reply_of_error outside

/-- What any call does while it has the mutex is what the queue answers. -/
theorem responds_critical (h : Queued c s q) (expired : Bool) (method : Method T) :
    Responds c q expired method (method.critical expired s) := by
  cases method with
  | pushBack v | pushBackMove v | emplaceBack v => exact responds_insertWhenRoom h rfl rfl
  | tryPushBack v | tryPushBackMove v => exact responds_insertIfRoom h rfl rfl
  | pushBackWithTimeout v | pushBackWithTimeoutMove v =>
      simp only [Method.critical, pushBackWithTimeout, waitFor, h.full_eq, Bool.not_not]
      by_cases fits : q.length < c
      · simp [fits, Responds, respond, Method.remainder]
      · cases expired <;> simp [fits, Responds, respond, h]
  | popFront => exact responds_popFront h
  | tryPopFront => exact responds_tryPopFront h
  | popFrontWithTimeout =>
      simp only [Method.critical, popFrontWithTimeout, waitFor, h.empty_eq]
      cases q with
      | nil => cases expired <;> simp [Responds, respond, h]
      | cons v q => simp [Responds, respond, Method.remainder]
  | front => exact responds_access h (looked_front h) rfl
  | back => exact responds_access h (looked_back h) rfl
  | index i => exact responds_access h (looked_index h i) rfl
  | size =>
      simp only [Method.critical, size, inspect, h.holds.observes.size]
      exact ⟨q, rfl, h⟩
  | capacity =>
      simp only [Method.critical, capacity, inspect, RingBuffer.capacity, h.holds.counted.capacity]
      exact ⟨q, rfl, h⟩
  | empty =>
      simp only [Method.critical, empty, inspect, h.empty_eq]
      exact ⟨q, rfl, h⟩
  | full =>
      have same : s.this.full = (q.length == c) := by
        rw [Bool.eq_iff_iff, h.holds.observes.full, beq_iff_eq]
      simp only [Method.critical, full, inspect, same]
      exact ⟨q, rfl, h⟩
  | available =>
      simp only [Method.critical, available, inspect, h.holds.observes.available]
      exact ⟨q, rfl, h⟩
  | clear =>
      simp only [Method.critical, clear, callAndLeave, run_perform_clear]
      exact ⟨[], rfl, h.cleared⟩
  | waitUntilNotEmpty =>
      simp only [Method.critical, waitUntilNotEmpty, waitFor, h.empty_eq]
      cases q with
      | nil => cases expired <;> simp [Responds, respond, h]
      | cons v q => simp [Responds, respond, h]
  | waitUntilNotFull =>
      simp only [Method.critical, waitUntilNotFull, waitFor, h.full_eq, Bool.not_not]
      by_cases fits : q.length < c
      · simp [fits, Responds, respond, h]
      · cases expired <;> simp [fits, Responds, respond, h]

end Sections

/-! ## Runs -/

variable {ι : Type} [Fintype ι] [DecidableEq ι]

/-- Neither of the two races of the calls with a timeout. -/
def Unraced (sys : System ι T A) (l : Label ι T) : Prop :=
  LastSlotKept sys l ∧ LastElementKept sys l

instance (sys : System ι T A) (l : Label ι T) : Decidable (Unraced sys l) :=
  inferInstanceAs (Decidable (_ ∧ _))

/-- The answer of a step, if there is one, is what a queue that holds `q` answers. -/
def Justified (c : Nat) (q : List T) : Report T → List T → Prop
  | some (method, result), q' => ∃ expired, respond c q expired method = some (result, q')
  | none, q' => q' = q

/-- A bounded queue that is empty at first can give these answers one after the
    other, and holds `q` then. -/
inductive Legal (c : Nat) : List (ι × Method T × Result T) → List T → Prop where
  | nothing : Legal c [] []
  | answer {history : List (ι × Method T × Result T)} {q q' : List T} {i : ι} {method : Method T}
      {result : Result T} {expired : Bool} (earlier : Legal c history q)
      (spec : respond c q expired method = some (result, q')) :
      Legal c (history ++ [(i, method, result)]) q'

/-- The buffer holds a queue in which every call that was let through finds what it
    was let through for. -/
structure Unshared (c : Nat) (sys : System ι T A) : Prop where
  room : RoomKept c sys
  element : ElementKept c sys

section Steps

variable {c : Nat} {q : List T} {sys sys' : System ι T A} {l : Label ι T} {report : Report T}
  {j : Journal ι T}

/-- A thread that returns is not asleep, whomever it wakes. -/
theorem awake_after_delivery {notice : Notice} {phase : ι → Phase T} {k : ι} {method : Method T}
    (delivered : notice.deliver l.chosen (Function.update sys.phase k .idle) = some phase) :
    phase k ≠ .asleep method := by
  have here : Function.update sys.phase k .idle k = .idle := Function.update_self ..
  have idle : phase k = .idle := by
    cases notice with
    | silent =>
        cases delivered
        exact here
    | one cv => exact (notifyOne_keeps (f := fun x => x = .idle) Phase.idle_wake delivered k).mpr here
    | all cv =>
        cases delivered
        exact (notifyAll_keeps (f := fun x => x = .idle) Phase.idle_wake k).mpr here
  intro asleep
  rw [idle] at asleep
  cases asleep

/-- A critical section answers as the queue does, or sleeps when the queue waits. -/
theorem justified_settle (h : Queued c sys.buffer q) {method : Method T} {expired : Bool}
    (settled : sys.settle l.thread method l.chosen (method.critical expired sys.buffer) =
      some (sys', report)) :
    (∃ q', Queued c sys'.buffer q' ∧ Justified c q report q') ∧
      (sys'.phase l.thread = .asleep method → respond c q expired method = none) := by
  have responds := responds_critical h expired method
  generalize method.critical expired sys.buffer = outcome at responds settled
  cases outcome with
  | sleep =>
      cases settled
      exact ⟨⟨q, h, rfl⟩, fun _ => responds⟩
  | unlock =>
      cases settled
      refine ⟨⟨q, h, rfl⟩, fun asleep => ?_⟩
      simp only [Function.update_self] at asleep
      cases asleep
  | leave result s notice =>
      obtain ⟨q', spec, next⟩ := responds
      obtain ⟨phase, delivered, same⟩ := Option.map_eq_some_iff.mp settled
      cases same
      exact ⟨⟨q', next, expired, spec⟩, fun asleep => absurd asleep (awake_after_delivery delivered)⟩

/-- Any step that runs a critical section. -/
theorem justified_running (h : Queued c sys.buffer q) {method : Method T}
    (inside : sys.running l = some method) (stepped : sys.step l = some (sys', report)) :
    (∃ q', Queued c sys'.buffer q' ∧ Justified c q report q') ∧
      (sys'.phase l.thread = .asleep method → ∃ expired, respond c q expired method = none) := by
  rcases running_cases inside with ⟨phase, action⟩ | ⟨phase, expired, action⟩
  · simp only [System.step, action, phase] at stepped
    obtain ⟨justified, waits⟩ := justified_settle h stepped
    exact ⟨justified, fun asleep => ⟨false, waits asleep⟩⟩
  · simp only [System.step, action, phase] at stepped
    split at stepped
    · cases stepped
    · obtain ⟨justified, waits⟩ := justified_settle h stepped
      exact ⟨justified, fun asleep => ⟨expired, waits asleep⟩⟩

/-- Step lemma. -/
theorem justified_step (h : Unshared c sys) (queued : Queued c sys.buffer q)
    (stepped : sys.step l = some (sys', report)) :
    ∃ q', Queued c sys'.buffer q' ∧ Justified c q (sys.answered l report) q' := by
  have quiet := queued.holds.quiet
  have turn := turn_of_step quiet stepped
  have locked : ∀ {method : Method T}, sys.running l = some method →
      ∃ q', Queued c sys'.buffer q' ∧ Justified c q (sys.answered l report) q' := by
    intro method inside
    rw [answered_running inside]
    exact (justified_running queued inside stepped).1
  cases turn with
  | waits _ _ inside | unlocks _ _ inside | passes _ _ _ inside | inserts _ _ _ _ _ inside
  | removes _ _ inside | clears inside => exact locked inside
  | wakes method phase action =>
      rw [answered_outside (.inl action)]
      exact ⟨q, queued, rfl⟩
  | notifies cv method result phase notifying delivered action =>
      rw [answered_outside (.inr action)]
      exact ⟨q, queued, rfl⟩
  | appends method inner v phase timed offered inserted action =>
      have room := h.room.room l.thread (by rw [phase]; exact timed)
      have fits := queued.holds.room room
      rw [answered_appends quiet action phase timed]
      refine ⟨q ++ [v], queued.insert room inserted, false, ?_⟩
      cases method <;> cases timed
      all_goals
        cases offered
        simp only [respond, fits, if_true]
  | takes phase nonempty action =>
      rw [answered_takes quiet action phase nonempty]
      cases q with
      | nil => exact absurd queued.holds.count nonempty
      | cons v q =>
          have content : (sys.buffer.mem.slots sys.buffer.headPtr).content = some v :=
            congrArg Slot.content queued.holds.cell_head
          exact ⟨q, queued.popped, false, by rw [content]; rfl⟩
  | throws e phase empty action =>
      exact absurd empty (h.element.element l.thread (by rw [phase]; rfl))

omit [Fintype ι] [DecidableEq ι] in
theorem Legal.extend {history : List (ι × Method T × Result T)} {q' : List T} {answer : Report T}
    {i : ι} (legal : Legal c history q) (justified : Justified c q answer q') :
    Legal c (history ++ answer.toList.map fun call => (i, call)) q' := by
  cases answer with
  | none =>
      obtain rfl := justified
      simpa using legal
  | some call =>
      obtain ⟨expired, spec⟩ := justified
      exact .answer legal spec

/-- Run lemma. -/
theorem legal_of_reaches (pos : 0 < c) (a : A)
    (reached : Reaches (observed System.step Journal.record) (fun s l => Unraced s.1 l)
      (System.start c a, .blank) (sys, j)) :
    Unshared c sys ∧ ∃ q, Queued c sys.buffer q ∧ Legal c j.answered q := by
  refine reached.invariant (I := fun s => Unshared c s.1 ∧
    ∃ q, Queued c s.1.buffer q ∧ Legal c s.2.answered q)
    ⟨⟨.start pos a, .start pos a⟩, [], Queued.created pos a, .nothing⟩ ?_
  rintro s l s' r ⟨unshared, q, queued, legal⟩ unraced stepped
  obtain ⟨ran, recorded⟩ := observed_some.mp stepped
  have turn := turn_of_step queued.holds.quiet ran
  obtain ⟨q', queued', justified⟩ := justified_step unshared queued ran
  rw [recorded]
  exact ⟨⟨unshared.room.step unraced.1 turn, unshared.element.step unraced.2 turn⟩, q', queued',
    legal.extend justified⟩

omit [Fintype ι] [DecidableEq ι] in
/-- Every answer of a legal history is one that the queue gives. -/
theorem Legal.specified {history : List (ι × Method T × Result T)} (legal : Legal c history q)
    {call : ι × Method T × Result T} (member : call ∈ history) :
    ∃ q expired q', respond c q expired call.2.1 = some (call.2.2, q') := by
  induction legal with
  | nothing => cases member
  | answer earlier spec ih =>
      rcases List.mem_append.mp member with before | last
      · exact ih before
      · rw [List.mem_singleton.mp last]
        exact ⟨_, _, _, spec⟩

/-- Any calls of any threads, in any schedule of their steps in which nobody takes the
    last free slot or the last element from a call that was let through: the answers
    given so far, in this order and with references read in the section that returns
    them, are those of a bounded queue, which holds what the buffer holds; every thread was
    told its answers in order, save the last one where it has not returned; and a call goes
    to sleep only when the queue makes it wait. -/
theorem linearizes (pos : 0 < c) (a : A)
    (reached : Reaches (observed System.step Journal.record) (fun s l => Unraced s.1 l)
      (System.start c a, .blank) (sys, j)) :
    ∃ q, Observes c sys.buffer q ∧ Legal c j.answered q ∧
      (∀ i, entries i j.answered = entries i j.reported ++ (sys.phase i).pending.toList) ∧
      (∀ l sys' report method, sys.step l = some (sys', report) → sys.running l = some method →
        sys'.phase l.thread = .asleep method → ∃ expired, respond c q expired method = none) := by
  obtain ⟨-, q, queued, legal⟩ := legal_of_reaches pos a reached
  refine ⟨q, queued.holds.observes, legal, told_of_reaches pos a reached, ?_⟩
  intro l sys' report method stepped inside
  exact (justified_running queued inside stepped).2

/-! ## One thread that inserts, one that removes -/

/-- The call a thread is in. -/
def Phase.method : Phase T → Option (Method T)
  | .idle => none
  | .asleep method | .woken method | .unlocked method | .notifying _ method _ => some method

theorem Phase.method_wake (x : Phase T) : x.wake.method = x.method := by
  cases x <;> rfl

/-- The calls that take elements out. -/
def Method.removes : Method T → Bool
  | .popFront | .tryPopFront | .popFrontWithTimeout | .clear => true
  | _ => false

/-- Only `p` makes calls that insert, and only `k` calls that remove. -/
def Plays (p k i : ι) (method : Method T) : Prop :=
  (method.offered.isSome = true → i = p) ∧ (method.removes = true → i = k)

instance (p k i : ι) (method : Method T) : Decidable (Plays p k i method) :=
  inferInstanceAs (Decidable (_ ∧ _))

/-- The step starts no call against the roles. -/
def Divided (p k : ι) (_ : System ι T A) (l : Label ι T) : Prop :=
  match l.action with
  | .call method => Plays p k l.thread method
  | _ => True

instance (p k : ι) (sys : System ι T A) (l : Label ι T) : Decidable (Divided p k sys l) := by
  unfold Divided
  split <;> infer_instance

/-- A thread is in the call it was in, or in the one it starts with this step. -/
theorem Turn.method_cases (turn : Turn sys l sys' report) {i : ι} {method : Method T}
    (after : (sys'.phase i).method = some method) :
    (sys.phase i).method = some method ∨ i = l.thread ∧ sys.running l = some method := by
  by_cases own : i = l.thread
  · subst own
    have self : ∀ x : Phase T, Function.update sys.phase l.thread x l.thread = x :=
      fun x => Function.update_self l.thread x sys.phase
    cases turn with
    | wakes method phase action =>
        rw [phase]
        simp only [self] at after
        exact .inl after
    | waits method cv inside | unlocks method cv inside =>
        simp only [self] at after
        cases after
        exact .inr ⟨rfl, inside⟩
    | passes | throws =>
        simp only [self] at after
        cases after
    | inserts _ _ _ _ _ _ _ _ _ _ _ delivered | removes _ _ _ _ _ delivered
    | notifies _ _ _ _ _ delivered =>
        rw [notifyOne_keeps Phase.method_wake delivered, self] at after
        cases after
    | clears inside =>
        rw [notifyAll_keeps Phase.method_wake, self] at after
        cases after
    | appends method inner v phase | takes phase =>
        rw [phase]
        simp only [self] at after
        exact .inl after
  · rw [turn.others Phase.method_wake own] at after
    exact .inl after

omit [Fintype ι] [DecidableEq ι] in
/-- The call that a step runs plays its role if all calls under way do. -/
theorem plays_running {p k : ι} (roles : ∀ i method, (sys.phase i).method = some method →
      Plays p k i method) (divided : Divided p k sys l) {method : Method T}
    (inside : sys.running l = some method) : Plays p k l.thread method := by
  rcases running_cases inside with ⟨-, action⟩ | ⟨phase, -⟩
  · rw [Divided, action] at divided
    exact divided
  · exact roles l.thread method (by rw [phase]; rfl)

omit [Fintype ι] [DecidableEq ι] in
/-- With the roles divided nobody interferes with a call that was let through. -/
theorem unraced_of_roles {p k : ι} (roles : ∀ i method, (sys.phase i).method = some method →
      Plays p k i method) (divided : Divided p k sys l) : Unraced sys l := by
  constructor
  · intro inserts _ i other
    rw [← Bool.not_eq_true]
    intro pending
    obtain ⟨method, phase, timed⟩ := Phase.pendingPush_iff.mp pending
    have offers : method.offered.isSome = true := by cases method <;> first | rfl | cases timed
    have here : i = p := (roles i method (by rw [phase]; rfl)).1 offers
    have there : l.thread = p := by
      cases inside : sys.running l with
      | some method =>
          simp only [System.inserts, inside, Bool.and_eq_true] at inserts
          exact (plays_running roles divided inside).1 inserts.1
      | none =>
          simp only [System.inserts, inside] at inserts
          split at inserts
          · obtain ⟨method, phase, timed⟩ := Phase.pendingPush_iff.mp inserts
            have offers : method.offered.isSome = true := by
              cases method <;> first | rfl | cases timed
            exact (roles l.thread method (by rw [phase]; rfl)).1 offers
          · cases inserts
    exact other (here.trans there.symm)
  · intro empties i other
    rw [← Bool.not_eq_true]
    intro pending
    have phase := Phase.pendingPop_iff.mp pending
    have here : i = k := (roles i .popFrontWithTimeout (by rw [phase]; rfl)).2 rfl
    have there : l.thread = k := by
      cases inside : sys.running l with
      | some method =>
          have removes : method.removes = true := by
            cases method <;> first | rfl | simp [System.empties, inside, Method.pops] at empties
          exact (plays_running roles divided inside).2 removes
      | none =>
          simp only [System.empties, inside] at empties
          split at empties
          · rw [Bool.and_eq_true] at empties
            have phase := Phase.pendingPop_iff.mp empties.1
            exact (roles l.thread .popFrontWithTimeout (by rw [phase]; rfl)).2 rfl
          · cases empties
    exact other (here.trans there.symm)

/-- An unraced step never overwrites. -/
theorem keeps_all (h : RoomKept c sys) (turn : Turn sys l sys' report)
    (stepped : sys.step l = some (sys', report)) :
    (j.record sys l report).overwrites = j.overwrites := by
  obtain ⟨q, queued⟩ := h.queue
  have quiet := queued.holds.quiet
  have room : (Report.inserted (sys.answered l report)).isSome = true →
      sys.buffer.this.full = false := by
    intro comesIn
    cases turn with
    | wakes _ _ action => rw [answered_outside (.inl action)] at comesIn; cases comesIn
    | notifies _ _ _ _ _ _ action => rw [answered_outside (.inr action)] at comesIn; cases comesIn
    | waits _ _ inside | unlocks _ _ inside => rw [answered_running inside] at comesIn; cases comesIn
    | passes method result s inside passes =>
        rw [answered_running inside,
          (passes.moves_nothing (timedPush_gives_up stepped inside)).1] at comesIn
        cases comesIn
    | inserts method inner v result phase inside inserted offered room => exact room
    | removes method phase inside pops =>
        rw [answered_running inside] at comesIn
        cases method <;> cases pops <;> cases comesIn
    | clears inside => rw [answered_running inside] at comesIn; cases comesIn
    | appends method inner v phase timed => exact h.room l.thread (by rw [phase]; exact timed)
    | takes phase nonempty action =>
        rw [answered_takes quiet action phase nonempty] at comesIn
        cases comesIn
    | throws e phase empty action =>
        rw [answered_throws action phase] at comesIn
        cases comesIn
  cases comesIn : (Report.inserted (sys.answered l report)).isSome with
  | false => simp [Journal.record, comesIn]
  | true => simp [Journal.record, room comesIn]

/-- Without races nothing is ever overwritten. -/
theorem unraced_overwrites (pos : 0 < c) (a : A)
    (reached : Reaches (observed System.step Journal.record) (fun s l => Unraced s.1 l)
      (System.start c a, .blank) (sys, j)) : j.overwrites = 0 := by
  have both : Unshared c sys ∧ j.overwrites = 0 := by
    refine reached.invariant (I := fun s => Unshared c s.1 ∧ s.2.overwrites = 0)
      ⟨⟨.start pos a, .start pos a⟩, rfl⟩ ?_
    rintro s l s' r ⟨unshared, none⟩ ⟨slot, element⟩ stepped
    obtain ⟨ran, recorded⟩ := observed_some.mp stepped
    have turn := turn_of_step unshared.element.quiet ran
    refine ⟨⟨unshared.room.step slot turn, unshared.element.step element turn⟩, ?_⟩
    rw [recorded, keeps_all unshared.room turn ran]
    exact none
  exact both.2

theorem divided_roles {p k : ι} {a : A}
    (reached : Reaches (observed System.step Journal.record) (fun s l => Divided p k s.1 l)
      (System.start c a, .blank) (sys, j)) (pos : 0 < c) :
    Reaches (observed System.step Journal.record) (fun s l => Unraced s.1 l)
      (System.start c a, .blank) (sys, j) := by
  refine reached.strengthen (I := fun s => s.1.buffer.mem.fuse = none ∧
    s.1.buffer.this.Counted c ∧ ∀ i method, (s.1.phase i).method = some method →
      Plays p k i method) ⟨(counted_start pos a).2, (counted_start pos a).1, nofun⟩ ?_ ?_
  · rintro s l s' r ⟨quiet, counted, roles⟩ divided stepped
    have turn := turn_of_step quiet (observed_some.mp stepped).1
    obtain ⟨counted', quiet'⟩ := turn.counted counted quiet
    refine ⟨quiet', counted', fun i method after => ?_⟩
    rcases turn.method_cases after with before | ⟨rfl, inside⟩
    · exact roles i method before
    · exact plays_running roles divided inside
  · rintro s l ⟨-, -, roles⟩ divided
    exact unraced_of_roles roles divided

/-- One thread makes all calls that insert and one all calls that remove, with or
    without timeouts, and any thread any other calls: then the answers are those of a
    bounded queue, nothing is ever overwritten, and what was removed and what is
    present is what was inserted, in this order. -/
theorem single_producer_single_consumer {p k : ι} (pos : 0 < c) (a : A)
    (reached : Reaches (observed System.step Journal.record) (fun s l => Divided p k s.1 l)
      (System.start c a, .blank) (sys, j)) :
    j.overwrites = 0 ∧ ∃ q, Observes c sys.buffer q ∧ Legal c j.answered q ∧
      j.inserted.map some = j.removed ++ q.map some := by
  have unraced := divided_roles reached pos
  have none := unraced_overwrites pos a unraced
  obtain ⟨-, q, queued, legal⟩ := legal_of_reaches pos a unraced
  obtain ⟨q', queued', balance⟩ := (Kept.of_reaches pos a reached).order none
  have same : q'.map some = q.map some := queued'.contents_eq.symm.trans queued.contents_eq
  refine ⟨none, q, queued.holds.observes, legal, ?_⟩
  rw [balance, same]

end Steps

/-- Capacity 2: a pop with a timeout that waits for an element, gets it after its
    lock's scope and has still to return. -/
theorem linearizes_two : ∃ (sys : System (Fin 2) Nat Unit) (j : Journal (Fin 2) Nat) (q : List Nat),
    j.answered = [(1, .pushBack 7, .void), (1, .tryPushBack 8, .bool true),
      (0, .popFrontWithTimeout, .element (some 7))] ∧
    Legal 2 j.answered q ∧ Observes 2 sys.buffer q := by
  let schedule : List (Label (Fin 2) Nat) :=
    [⟨0, .call .popFrontWithTimeout, none⟩, ⟨1, .call (.pushBack 7), some 0⟩,
      ⟨0, .recheck false, none⟩, ⟨1, .call (.tryPushBack 8), none⟩, ⟨0, .proceed, none⟩]
  have ran : (exec (observed System.step Journal.record) (fun s l => Unraced s.1 l)
      (System.start 2 (), .blank) schedule).map (fun s => s.2.answered) =
        some [(1, .pushBack 7, .void), (1, .tryPushBack 8, .bool true),
          (0, .popFrontWithTimeout, .element (some 7))] := by decide +kernel
  obtain ⟨⟨sys, j⟩, ran, answered⟩ := Option.map_eq_some_iff.mp ran
  obtain ⟨q, seen, legal, -⟩ := linearizes (by decide) () (Reaches.of_exec ran)
  exact ⟨sys, j, q, answered, legal, seen⟩

/-- Capacity 1: the producer times out once and the consumer waits, while a third
    thread looks at the front. -/
theorem single_producer_single_consumer_three : ∃ (sys : System (Fin 3) Nat Unit)
    (j : Journal (Fin 3) Nat) (q : List Nat), j.inserted = [7, 9] ∧ j.removed = [some 7] ∧
      j.overwrites = 0 ∧ Observes 1 sys.buffer q ∧ Legal 1 j.answered q ∧
      j.inserted.map some = j.removed ++ q.map some := by
  let schedule : List (Label (Fin 3) Nat) :=
    [⟨1, .call .popFrontWithTimeout, none⟩, ⟨0, .call (.pushBackWithTimeout 7), none⟩,
      ⟨0, .proceed, none⟩, ⟨0, .notify, some 1⟩, ⟨0, .call (.pushBackWithTimeout 8), none⟩,
      ⟨0, .wake, none⟩, ⟨0, .recheck true, none⟩, ⟨1, .recheck false, none⟩,
      ⟨2, .call .front, none⟩, ⟨1, .proceed, none⟩, ⟨0, .call (.tryPushBack 9), none⟩,
      ⟨1, .notify, none⟩]
  have ran : (exec (observed System.step Journal.record) (fun s l => Divided 0 1 s.1 l)
      (System.start 1 (), .blank) schedule).map (fun s => (s.2.inserted, s.2.removed)) =
        some ([7, 9], [some 7]) := by decide +kernel
  obtain ⟨⟨sys, j⟩, ran, recorded⟩ := Option.map_eq_some_iff.mp ran
  obtain ⟨none, q, seen, legal, balance⟩ :=
    single_producer_single_consumer (by decide) () (Reaches.of_exec ran)
  exact ⟨sys, j, q, congrArg Prod.fst recorded, congrArg Prod.snd recorded, none, seen, legal,
    balance⟩

end RingBufferThreadSafe

end Dkyb
