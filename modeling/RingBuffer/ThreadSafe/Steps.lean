import RingBuffer.Frame
import RingBuffer.ThreadSafe

/-! # What one step of a thread can do

`Ends` lists how a critical section can end and `Turn` what a step can do to the
buffer and to the phases, both for element operations that do not throw. The
invariants are proved by cases on `Turn` and never unfold a member again.
-/

namespace Dkyb

open Stateful

variable {T A : Type}

namespace RingBufferThreadSafe

/-- The predicate of the waits on that condition variable. -/
def CondVar.holds (rb : RingBuffer A) : CondVar → Bool
  | .notEmpty => !rb.empty
  | .notFull => !rb.full

/-- The call gave up or threw. -/
def Result.failed : Result T → Bool
  | .bool false | .nullopt | .thrown _ => true
  | _ => false

namespace Method

/-- The value an insertion brings. -/
def offered : Method T → Option T
  | .pushBack item | .pushBackMove item | .emplaceBack item | .tryPushBack item
  | .tryPushBackMove item | .pushBackWithTimeout item | .pushBackWithTimeoutMove item => some item
  | _ => none

/-- The calls that change the buffer, all of it under the lock. -/
def basic : Method T → Bool
  | .pushBack _ | .pushBackMove _ | .emplaceBack _ | .tryPushBack _ | .tryPushBackMove _
  | .popFront | .tryPopFront | .clear => true
  | _ => false

/-- The calls that block until there is room. -/
def producer : Method T → Bool
  | .pushBack _ | .pushBackMove _ | .emplaceBack _ => true
  | _ => false

/-- The two removals under the lock. -/
def pops : Method T → Bool
  | .popFront | .tryPopFront => true
  | _ => false

/-- The two overloads of `push_back_with_timeout`. -/
def timedPush : Method T → Bool
  | .pushBackWithTimeout _ | .pushBackWithTimeoutMove _ => true
  | _ => false

theorem timedPush_of_remainder {method : Method T} (rest : method.remainder.isSome = true) :
    method.timedPush = true ∨ method = .popFrontWithTimeout := by
  cases method <;> first | exact .inl rfl | exact .inr rfl | cases rest

end Method

/-! ## Critical sections -/

/-- A section that leaves the elements alone and notifies nobody. -/
structure Passes (s : State T A) (method : Method T) (result : Result T) (s' : State T A) : Prop where
  this : s'.this = s.this
  slots : s'.mem.slots = s.mem.slots
  fuse : s'.mem.fuse = s.mem.fuse
  failed : result.failed = true → s' = s
  basic : method.basic = true → result.failed = true
  full : method.condition = some .notFull → s.this.full = true ∨ method = .waitUntilNotFull
  refused : method.offered.isSome = true → s.this.full = true
  empty : method.pops = true → s.this.count_ = 0
  keeps : method ≠ .clear
  timedPop : method = .popFrontWithTimeout → result = .nullopt

inductive Ends (s : State T A) (method : Method T) : Outcome T A → Prop where
  | waits (cv : CondVar) (waitsOn : method.condition = some cv) (unmet : cv.holds s.this = false) :
      Ends s method .sleep
  | unlocks (cv : CondVar) (waitsOn : method.condition = some cv) (met : cv.holds s.this = true)
      (rest : method.remainder.isSome = true) : Ends s method .unlock
  | passes (result : Result T) (s' : State T A) (passes : Passes s method result s') :
      Ends s method (.leave result s' .silent)
  | inserts (inner : Update T) (v : T) (result : Result T) (inserted : inner.inserted = some v)
      (offered : method.offered = some v) (room : s.this.full_ = false)
      (locked : method.remainder = none) (succeeds : result.failed = false) :
      Ends s method (.leave result (final inner.perform s) (.one .notEmpty))
  | removes (pops : method.pops = true) (nonempty : s.this.count_ ≠ 0) :
      Ends s method (.leave (.element (s.mem.slots s.headPtr).content) s.popped (.one .notFull))
  | clears (clears : method = .clear) : Ends s method (.leave .void s.cleared (.all .notFull))

section Sections

variable {s : State T A} {method : Method T}

theorem empty_iff : s.this.empty = true ↔ s.this.count_ = 0 := by
  simp [RingBuffer.empty]

/-- The three blocking insertions. -/
theorem ends_insertWhenRoom (quiet : s.mem.fuse = none) {inner : Update T} {v : T}
    (inserted : inner.inserted = some v) (offered : method.offered = some v)
    (waitsOn : method.condition = some .notFull) (locked : method.remainder = none) :
    Ends s method (insertWhenRoom inner s) := by
  unfold insertWhenRoom
  cases full : s.this.full with
  | true =>
      refine .waits .notFull waitsOn ?_
      simp [CondVar.holds, full]
  | false =>
      have run := run_insert_room quiet v inserted full
      simp only [Bool.false_eq_true, if_false, callAndLeave, run]
      rw [← final_of_run run]
      exact .inserts inner v .void inserted offered full locked rfl

theorem ends_insertIfRoom (quiet : s.mem.fuse = none) {inner : Update T} {v : T}
    (inserted : inner.inserted = some v) (offered : method.offered = some v)
    (never : method.condition = none) (locked : method.remainder = none) :
    Ends s method (insertIfRoom inner s) := by
  unfold insertIfRoom
  cases full : s.this.full with
  | true =>
      refine .passes _ _ ⟨rfl, rfl, rfl, fun _ => rfl, fun _ => rfl, ?_, fun _ => full, ?_, ?_, ?_⟩
      · intro waitsOn
        rw [never] at waitsOn
        cases waitsOn
      · intro pops
        cases method <;> cases pops <;> cases offered
      · rintro rfl
        cases offered
      · rintro rfl
        cases never
  | false =>
      have run := run_insert_room quiet v inserted full
      simp only [Bool.false_eq_true, if_false, callAndLeave, run]
      rw [← final_of_run run]
      exact .inserts inner v (.bool true) inserted offered full locked rfl

theorem ends_popFront (quiet : s.mem.fuse = none) : Ends s .popFront (popFront s) := by
  unfold popFront callAndLeave
  by_cases empty : s.this.count_ = 0
  · rw [run_perform_popFront_empty empty]
    exact .passes _ _ ⟨rfl, rfl, rfl, fun _ => rfl, fun _ => rfl, nofun, nofun, fun _ => empty, nofun,
      nofun⟩
  · rw [run_perform_popFront quiet empty]
    exact .removes rfl empty

theorem ends_tryPopFront (quiet : s.mem.fuse = none) : Ends s .tryPopFront (tryPopFront s) := by
  unfold tryPopFront callAndLeave
  by_cases empty : s.this.count_ = 0
  · rw [if_pos (empty_iff.mpr empty)]
    exact .passes _ _ ⟨rfl, rfl, rfl, fun _ => rfl, fun _ => rfl, nofun, nofun, fun _ => empty, nofun,
      nofun⟩
  · rw [if_neg (mt empty_iff.mp empty), run_perform_popFront quiet empty]
    exact .removes rfl empty

/-- The observers, which never wait and change nothing. -/
def Method.observes : Method T → Bool
  | .front | .back | .index _ | .size | .capacity | .empty | .full | .available => true
  | _ => false

/-- An observer asks nothing of the way it passes. -/
theorem passes_of_observer {result : Result T} {s' : State T A} (observer : method.observes = true)
    (this : s'.this = s.this) (slots : s'.mem.slots = s.mem.slots)
    (fuse : s'.mem.fuse = s.mem.fuse) (failed : result.failed = true → s' = s) :
    Passes s method result s' := by
  cases method with
  | front | back | index | size | capacity | empty | full | available =>
      exact ⟨this, slots, fuse, failed, nofun, nofun, nofun, nofun, nofun, nofun⟩
  | _ => cases observer

theorem ends_access (query : Query) (observer : method.observes = true) :
    Ends s method (access query s) := by
  have keeps := ask_keeps query s
  unfold access
  cases run : query.ask.run s with
  | ok content s' =>
      rw [run] at keeps
      obtain ⟨this, slots, fuse⟩ := keeps
      exact .passes _ _ (passes_of_observer observer this slots fuse nofun)
  | error e s' =>
      rw [run] at keeps
      simp only at keeps
      subst keeps
      exact .passes _ _ (passes_of_observer observer rfl rfl rfl fun _ => rfl)

theorem ends_inspect (look : RingBuffer A → Result T) (observer : method.observes = true) :
    Ends s method (inspect look s) :=
  .passes _ _ (passes_of_observer observer rfl rfl rfl fun _ => rfl)

/-- The waits with a timeout: `met` and `timedOut` are how they end. -/
theorem ends_waitFor (cv : CondVar) (waitsOn : method.condition = some cv) (expired : Bool)
    {met timedOut : Outcome T A} (onMet : cv.holds s.this = true → Ends s method met)
    (onTimeout : cv.holds s.this = false → Ends s method timedOut) :
    Ends s method (waitFor (cv.holds s.this) expired met timedOut) := by
  unfold waitFor
  cases holds : cv.holds s.this with
  | true => exact onMet holds
  | false =>
      cases expired with
      | true => exact onTimeout holds
      | false => exact .waits cv waitsOn holds

/-- A timed call that gives up. -/
theorem ends_timedOut {result : Result T} (timed : method.timed = true)
    (failed : result.failed = true) (unmet : method.condition = some .notFull → s.this.full = true)
    (pops : method = .popFrontWithTimeout → result = .nullopt) :
    Ends s method (.leave result s .silent) := by
  have waits : method.condition = some .notFull → s.this.full = true ∨ method = .waitUntilNotFull :=
    fun waitsOn => .inl (unmet waitsOn)
  cases method with
  | pushBackWithTimeout | pushBackWithTimeoutMove =>
      exact .passes _ _ ⟨rfl, rfl, rfl, fun _ => rfl, fun _ => failed, waits, fun _ => unmet rfl, nofun,
        nofun, pops⟩
  | popFrontWithTimeout | waitUntilNotEmpty | waitUntilNotFull =>
      exact .passes _ _ ⟨rfl, rfl, rfl, fun _ => rfl, fun _ => failed, waits, nofun, nofun, nofun, pops⟩
  | _ => cases timed

/-- What the critical section of any call can do. -/
theorem ends_critical (quiet : s.mem.fuse = none) (expired : Bool) (method : Method T) :
    Ends s method (method.critical expired s) := by
  have full : CondVar.notFull.holds s.this = false → s.this.full = true := by
    simp [CondVar.holds]
  cases method with
  | pushBack v | pushBackMove v | emplaceBack v =>
      exact ends_insertWhenRoom quiet rfl rfl rfl rfl
  | tryPushBack v | tryPushBackMove v => exact ends_insertIfRoom quiet rfl rfl rfl rfl
  | pushBackWithTimeout v | pushBackWithTimeoutMove v =>
      refine ends_waitFor .notFull rfl expired ?_ ?_
      · intro met
        exact .unlocks .notFull rfl met rfl
      · intro unmet
        exact ends_timedOut rfl rfl (fun _ => full unmet) nofun
  | popFront => exact ends_popFront quiet
  | tryPopFront => exact ends_tryPopFront quiet
  | popFrontWithTimeout =>
      refine ends_waitFor .notEmpty rfl expired ?_ ?_
      · intro met
        exact .unlocks .notEmpty rfl met rfl
      · intro _
        exact ends_timedOut rfl rfl nofun (fun _ => rfl)
  | front | back => exact ends_access _ rfl
  | index i => exact ends_access _ rfl
  | size => exact ends_inspect (fun rb => .number rb.size) rfl
  | capacity => exact ends_inspect (fun rb => .number rb.capacity) rfl
  | empty => exact ends_inspect (fun rb => .bool rb.empty) rfl
  | full => exact ends_inspect (fun rb => .bool rb.full) rfl
  | available => exact ends_inspect (fun rb => .number rb.available) rfl
  | clear =>
      have run := run_perform_clear s
      simp only [Method.critical, clear, callAndLeave, run]
      exact .clears rfl
  | waitUntilNotEmpty =>
      refine ends_waitFor .notEmpty rfl expired ?_ ?_
      · intro _
        exact .passes _ _ ⟨rfl, rfl, rfl, nofun, nofun, nofun, nofun, nofun, nofun, nofun⟩
      · intro _
        exact ends_timedOut rfl rfl nofun nofun
  | waitUntilNotFull =>
      refine ends_waitFor .notFull rfl expired ?_ ?_
      · intro _
        exact .passes _ _ ⟨rfl, rfl, rfl, nofun, nofun, fun _ => .inr rfl, nofun, nofun, nofun,
          nofun⟩
      · intro unmet
        exact ends_timedOut rfl rfl (fun _ => full unmet) nofun

end Sections

/-! ## Notifications -/

theorem Phase.idle_wake (x : Phase T) : (x.wake = .idle) = (x = .idle) := by
  cases x <;> simp [Phase.wake]

variable {ι : Type} [Fintype ι] [DecidableEq ι]

section Notifications

variable {phase phase' : ι → Phase T} {cv : CondVar} {chosen : Option ι} {P : Phase T → Prop}

theorem notifyOne_cases (delivered : notifyOne cv chosen phase = some phase') :
    (∃ k, (phase k).sleepsOn cv = true ∧ phase' = Function.update phase k (phase k).wake) ∨
      (∀ k, (phase k).sleepsOn cv = false) ∧ phase' = phase := by
  unfold notifyOne at delivered
  cases chosen with
  | some k =>
      simp only at delivered
      split at delivered
      · cases delivered
        exact .inl ⟨k, ‹_›, rfl⟩
      · cases delivered
  | none =>
      simp only at delivered
      split at delivered
      · cases delivered
        exact .inr ⟨‹_›, rfl⟩
      · cases delivered

omit [Fintype ι] in
theorem forall_update (all : ∀ k, P (phase k)) {i : ι} {x : Phase T} (here : P x) (k : ι) :
    P (Function.update phase i x k) := by
  by_cases same : k = i
  · subst same
    rwa [Function.update_self]
  · rw [Function.update_of_ne same]
    exact all k

/-- What waking a sleeper does not change, a notification leaves alone. -/
theorem notifyOne_keeps_asleep {β : Type*} {f : Phase T → β}
    (wakes : ∀ x, x.sleepsOn cv = true → f x.wake = f x)
    (delivered : notifyOne cv chosen phase = some phase') (k : ι) : f (phase' k) = f (phase k) := by
  rcases notifyOne_cases delivered with ⟨j, sleeps, rfl⟩ | ⟨_, rfl⟩
  · by_cases same : k = j
    · subst same
      rw [Function.update_self, wakes _ sleeps]
    · rw [Function.update_of_ne same]
  · rfl

theorem notifyOne_keeps {β : Type*} {f : Phase T → β} (wakes : ∀ x, f x.wake = f x)
    (delivered : notifyOne cv chosen phase = some phase') (k : ι) : f (phase' k) = f (phase k) :=
  notifyOne_keeps_asleep (fun x _ => wakes x) delivered k

omit [Fintype ι] [DecidableEq ι] in
theorem notifyAll_keeps {β : Type*} {f : Phase T → β} (wakes : ∀ x, f x.wake = f x) (k : ι) :
    f (notifyAll cv phase k) = f (phase k) := by
  unfold notifyAll
  split
  · exact wakes _
  · rfl

end Notifications

/-! ## Steps -/

/-- The call whose critical section the step runs, if it runs one. -/
def System.running (sys : System ι T A) (l : Label ι T) : Option (Method T) :=
  match l.action, sys.phase l.thread with
  | .call method, .idle => some method
  | .recheck _, .woken method => some method
  | _, _ => none

omit [Fintype ι] [DecidableEq ι] in
theorem running_cases {sys : System ι T A} {l : Label ι T} {method : Method T}
    (inside : sys.running l = some method) :
    (sys.phase l.thread = .idle ∧ l.action = .call method) ∨
      (sys.phase l.thread = .woken method ∧ ∃ expired, l.action = .recheck expired) := by
  unfold System.running at inside
  split at inside
  · cases inside
    exact .inl ⟨‹_›, ‹_›⟩
  · cases inside
    exact .inr ⟨‹_›, _, ‹_›⟩
  · cases inside

inductive Turn (sys : System ι T A) (l : Label ι T) : System ι T A → Report T → Prop where
  | wakes (method : Method T) (phase : sys.phase l.thread = .asleep method)
      (action : l.action = .wake) :
      Turn sys l ⟨sys.buffer, Function.update sys.phase l.thread (.woken method)⟩ none
  | waits (method : Method T) (cv : CondVar) (inside : sys.running l = some method)
      (waitsOn : method.condition = some cv) (unmet : cv.holds sys.buffer.this = false) :
      Turn sys l ⟨sys.buffer, Function.update sys.phase l.thread (.asleep method)⟩ none
  | unlocks (method : Method T) (cv : CondVar) (inside : sys.running l = some method)
      (waitsOn : method.condition = some cv) (met : cv.holds sys.buffer.this = true)
      (rest : method.remainder.isSome = true) :
      Turn sys l ⟨sys.buffer, Function.update sys.phase l.thread (.unlocked method)⟩ none
  | passes (method : Method T) (result : Result T) (s : State T A) (inside : sys.running l = some method)
      (passes : Passes sys.buffer method result s) :
      Turn sys l ⟨s, Function.update sys.phase l.thread .idle⟩ (some (method, result))
  | inserts (method : Method T) (inner : Update T) (v : T) (result : Result T)
      (phase : ι → Phase T) (inside : sys.running l = some method) (inserted : inner.inserted = some v)
      (offered : method.offered = some v) (room : sys.buffer.this.full_ = false)
      (locked : method.remainder = none) (succeeds : result.failed = false)
      (delivered : notifyOne .notEmpty l.chosen (Function.update sys.phase l.thread .idle) =
        some phase) :
      Turn sys l ⟨final inner.perform sys.buffer, phase⟩ (some (method, result))
  | removes (method : Method T) (phase : ι → Phase T) (inside : sys.running l = some method)
      (pops : method.pops = true) (nonempty : sys.buffer.this.count_ ≠ 0)
      (delivered : notifyOne .notFull l.chosen (Function.update sys.phase l.thread .idle) =
        some phase) :
      Turn sys l ⟨sys.buffer.popped, phase⟩
        (some (method, .element (sys.buffer.mem.slots sys.buffer.headPtr).content))
  | clears (inside : sys.running l = some .clear) :
      Turn sys l ⟨sys.buffer.cleared,
        notifyAll .notFull (Function.update sys.phase l.thread .idle)⟩ (some (.clear, .void))
  | appends (method : Method T) (inner : Update T) (v : T)
      (phase : sys.phase l.thread = .unlocked method) (timed : method.timedPush = true)
      (offered : method.offered = some v) (inserted : inner.inserted = some v)
      (action : l.action = .proceed) :
      Turn sys l ⟨final inner.perform sys.buffer,
        Function.update sys.phase l.thread (.notifying .notEmpty method (.bool true))⟩ none
  | takes (phase : sys.phase l.thread = .unlocked .popFrontWithTimeout)
      (nonempty : sys.buffer.this.count_ ≠ 0) (action : l.action = .proceed) :
      Turn sys l ⟨sys.buffer.popped, Function.update sys.phase l.thread
        (.notifying .notFull .popFrontWithTimeout
          (.element (sys.buffer.mem.slots sys.buffer.headPtr).content))⟩ none
  | throws (e : Exn) (phase : sys.phase l.thread = .unlocked .popFrontWithTimeout)
      (empty : sys.buffer.this.count_ = 0) (action : l.action = .proceed) :
      Turn sys l ⟨sys.buffer, Function.update sys.phase l.thread .idle⟩
        (some (.popFrontWithTimeout, .thrown e))
  | notifies (cv : CondVar) (method : Method T) (result : Result T) (phase : ι → Phase T)
      (notifying : sys.phase l.thread = .notifying cv method result)
      (delivered : notifyOne cv l.chosen (Function.update sys.phase l.thread .idle) =
        some phase) (action : l.action = .notify) :
      Turn sys l ⟨sys.buffer, phase⟩ (some (method, result))

variable {sys sys' : System ι T A} {l : Label ι T} {report : Report T}

/-- Running a critical section. -/
theorem turn_of_settle (quiet : sys.buffer.mem.fuse = none) {method : Method T} {expired : Bool}
    (inside : sys.running l = some method)
    (settled : sys.settle l.thread method l.chosen (method.critical expired sys.buffer) =
      some (sys', report)) : Turn sys l sys' report := by
  have ends := ends_critical quiet expired method
  generalize method.critical expired sys.buffer = outcome at ends settled
  cases ends with
  | waits cv waitsOn unmet =>
      cases settled
      exact .waits method cv inside waitsOn unmet
  | unlocks cv waitsOn met rest =>
      cases settled
      exact .unlocks method cv inside waitsOn met rest
  | passes result s passes =>
      cases settled
      exact .passes method result s inside passes
  | inserts inner v result inserted offered room locked succeeds =>
      obtain ⟨phase, delivered, same⟩ := Option.map_eq_some_iff.mp settled
      cases same
      exact .inserts method inner v result phase inside inserted offered room locked succeeds
        delivered
  | removes pops nonempty =>
      obtain ⟨phase, delivered, same⟩ := Option.map_eq_some_iff.mp settled
      cases same
      exact .removes method phase inside pops nonempty delivered
  | clears clears =>
      subst clears
      cases settled
      exact .clears inside

/-- What the inner call after the lock's scope can be. -/
theorem remainder_cases {method : Method T} {inner : Update T} {returns : Reply T → Result T}
    {cv : CondVar} (rest : method.remainder = some (inner, returns, cv)) :
    (∃ v, method.timedPush = true ∧ method.offered = some v ∧ inner.inserted = some v ∧
      (∀ reply, returns reply = .bool true) ∧ cv = .notEmpty) ∨
    (method = .popFrontWithTimeout ∧ inner = .popFront ∧ returns = popped ∧ cv = .notFull) := by
  cases method with
  | pushBackWithTimeout v | pushBackWithTimeoutMove v =>
      cases rest
      exact .inl ⟨v, rfl, rfl, rfl, fun _ => rfl, rfl⟩
  | popFrontWithTimeout =>
      cases rest
      exact .inr ⟨rfl, rfl, rfl, rfl⟩
  | _ => cases rest

/-- Whatever the buffer holds, an insertion returns. -/
theorem run_insert (s : State T A) (quiet : s.mem.fuse = none) {inner : Update T} {v : T}
    (inserted : inner.inserted = some v) :
    inner.perform.run s = .ok .done (final inner.perform s) := by
  cases full : s.this.full_ with
  | false =>
      have run := run_insert_room quiet v inserted full
      rw [run, final_of_run run]
  | true =>
      rcases run_insert_full quiet v inserted full with run | run
      all_goals rw [run, final_of_run run]

/-- Inversion of a step. -/
theorem turn_of_step (quiet : sys.buffer.mem.fuse = none)
    (stepped : sys.step l = some (sys', report)) : Turn sys l sys' report := by
  obtain ⟨i, action, chosen⟩ := l
  cases action with
  | call method =>
      cases phase : sys.phase i with
      | idle =>
          simp only [System.step, phase] at stepped
          exact turn_of_settle quiet (by simp only [System.running, phase]) stepped
      | _ => simp [System.step, phase] at stepped
  | wake =>
      cases phase : sys.phase i with
      | asleep method =>
          simp only [System.step, phase] at stepped
          cases stepped
          exact .wakes method phase rfl
      | _ => simp [System.step, phase] at stepped
  | recheck expired =>
      cases phase : sys.phase i with
      | woken method =>
          simp only [System.step, phase] at stepped
          split at stepped
          · cases stepped
          · exact turn_of_settle quiet (by simp only [System.running, phase]) stepped
      | _ => simp [System.step, phase] at stepped
  | proceed =>
      cases phase : sys.phase i with
      | unlocked method =>
          simp only [System.step, phase] at stepped
          cases rest : method.remainder with
          | none => simp [rest] at stepped
          | some remainder =>
              obtain ⟨inner, returns, cv⟩ := remainder
              rcases remainder_cases rest with
                ⟨v, timed, offered, inserted, returned, rfl⟩ | ⟨rfl, rfl, rfl, rfl⟩
              · simp only [rest, run_insert sys.buffer quiet inserted, returned,
                  Option.some.injEq, Prod.mk.injEq] at stepped
                obtain ⟨rfl, rfl⟩ := stepped
                exact .appends method inner v phase timed offered inserted rfl
              · by_cases empty : sys.buffer.this.count_ = 0
                · simp only [rest, run_perform_popFront_empty empty, Option.some.injEq,
                    Prod.mk.injEq] at stepped
                  obtain ⟨rfl, rfl⟩ := stepped
                  exact .throws _ phase empty rfl
                · simp only [rest, run_perform_popFront quiet empty, Option.some.injEq,
                    Prod.mk.injEq] at stepped
                  obtain ⟨rfl, rfl⟩ := stepped
                  exact .takes phase empty rfl
      | _ => simp [System.step, phase] at stepped
  | notify =>
      cases phase : sys.phase i with
      | notifying cv method result =>
          simp only [System.step, phase, Option.map_eq_some_iff, Prod.mk.injEq] at stepped
          obtain ⟨phase', delivered, rfl, rfl⟩ := stepped
          exact .notifies cv method result phase' phase delivered rfl
      | _ => simp [System.step, phase] at stepped

/-! ## What all steps have in common -/

namespace Turn

/-- Other threads are at most woken. -/
theorem others (turn : Turn sys l sys' report) {β : Type*} {f : Phase T → β}
    (wakes : ∀ x, f x.wake = f x) {k : ι} (other : k ≠ l.thread) :
    f (sys'.phase k) = f (sys.phase k) := by
  have apart : ∀ x : Phase T, Function.update sys.phase l.thread x k = sys.phase k :=
    fun x => Function.update_of_ne other x sys.phase
  cases turn with
  | wakes | waits | unlocks | passes | appends | takes | throws => simp only [apart]
  | inserts method inner v result phase inside inserted offered room locked succeeds delivered =>
      rw [notifyOne_keeps wakes delivered, apart]
  | removes method phase inside pops nonempty delivered =>
      rw [notifyOne_keeps wakes delivered, apart]
  | clears inside => rw [notifyAll_keeps wakes, apart]
  | notifies cv method result phase notifying delivered =>
      rw [notifyOne_keeps wakes delivered, apart]

/-- Only the end of a lock's scope takes a thread past it, and it finds what its
    wait was for. -/
theorem unlocked_own (turn : Turn sys l sys' report) {method : Method T}
    (after : sys'.phase l.thread = .unlocked method) :
    sys'.buffer = sys.buffer ∧
      ∃ cv, method.condition = some cv ∧ cv.holds sys.buffer.this = true := by
  have own : ∀ x : Phase T, Function.update sys.phase l.thread x l.thread = x :=
    fun x => Function.update_self l.thread x sys.phase
  have wakes : ∀ x : Phase T, (x.wake = .unlocked method) = (x = .unlocked method) := by
    intro x
    cases x <;> simp [Phase.wake]
  cases turn with
  | unlocks method cv inside waitsOn met =>
      simp only [own] at after
      cases after
      exact ⟨rfl, cv, waitsOn, met⟩
  | wakes | waits | passes | appends | takes | throws =>
      simp only [own] at after
      cases after
  | inserts _ _ _ _ _ _ _ _ _ _ _ delivered | removes _ _ _ _ _ delivered
  | notifies _ _ _ _ _ delivered =>
      have kept := notifyOne_keeps (f := fun x => x = .unlocked method) wakes delivered l.thread
      simp only [own] at kept
      cases kept.mp after
  | clears =>
      have kept : (notifyAll .notFull (Function.update sys.phase l.thread .idle) l.thread =
          .unlocked method) = _ := notifyAll_keeps (f := fun x => x = .unlocked method) wakes l.thread
      simp only [own] at kept
      cases kept.mp after

/-- The step of a thread past its lock is its inner call. -/
theorem proceeds (turn : Turn sys l sys' report) (action : l.action = .proceed) :
    (∃ (method : Method T) (inner : Update T) (v : T),
      sys.phase l.thread = .unlocked method ∧ method.timedPush = true ∧
      method.offered = some v ∧ inner.inserted = some v ∧
      sys'.buffer = final inner.perform sys.buffer) ∨
    (sys.phase l.thread = .unlocked .popFrontWithTimeout ∧ sys.buffer.this.count_ ≠ 0 ∧
      sys'.buffer = sys.buffer.popped ∧ sys'.phase l.thread =
        .notifying .notFull .popFrontWithTimeout
          (.element (sys.buffer.mem.slots sys.buffer.headPtr).content)) ∨
    (sys.phase l.thread = .unlocked .popFrontWithTimeout ∧ sys.buffer.this.count_ = 0) := by
  have outside : sys.running l = none := by simp [System.running, action]
  cases turn with
  | wakes _ _ other => rw [action] at other; cases other
  | waits _ _ inside => rw [outside] at inside; cases inside
  | unlocks _ _ inside => rw [outside] at inside; cases inside
  | passes _ _ _ inside => rw [outside] at inside; cases inside
  | inserts _ _ _ _ _ inside => rw [outside] at inside; cases inside
  | removes _ _ inside => rw [outside] at inside; cases inside
  | clears inside => rw [outside] at inside; cases inside
  | appends method inner v phase timed offered inserted =>
      exact .inl ⟨method, inner, v, phase, timed, offered, inserted, rfl⟩
  | takes phase nonempty =>
      exact .inr (.inl ⟨phase, nonempty, rfl, Function.update_self ..⟩)
  | throws e phase empty => exact .inr (.inr ⟨phase, empty⟩)
  | notifies _ _ _ _ _ _ other => rw [action] at other; cases other

variable {c : Nat}

/-- The cursors stay in range and nothing throws. -/
theorem counted (turn : Turn sys l sys' report) (counted : sys.buffer.this.Counted c)
    (quiet : sys.buffer.mem.fuse = none) :
    sys'.buffer.this.Counted c ∧ sys'.buffer.mem.fuse = none := by
  have updated : ∀ inner : Update T, (final inner.perform sys.buffer).this.Counted c ∧
      (final inner.perform sys.buffer).mem.fuse = none :=
    fun inner => ⟨counted.update quiet inner, (Frame.update quiet inner).fuse.trans quiet⟩
  cases turn with
  | wakes | waits | unlocks | throws | notifies => exact ⟨counted, quiet⟩
  | passes method result s inside passes =>
      exact ⟨passes.this ▸ counted, passes.fuse.trans quiet⟩
  | inserts method inner v => exact updated inner
  | removes method phase inside pops nonempty =>
      exact ⟨counted.incrementHead nonempty, quiet⟩
  | clears inside =>
      rw [← final_of_run (run_perform_clear sys.buffer)]
      exact updated .clear
  | appends method inner v => exact updated inner
  | takes phase nonempty => exact ⟨counted.incrementHead nonempty, quiet⟩

end Turn

/-- An insertion that finds room. -/
theorem insert_cursors {s : State T A} (quiet : s.mem.fuse = none) {inner : Update T} {v : T}
    (inserted : inner.inserted = some v) (room : s.this.full_ = false) :
    (final inner.perform s).this.count_ = s.this.count_ + 1 ∧
      (final inner.perform s).this.full_ = (s.this.count_ + 1 == s.this.capacity_) := by
  have cursors := RingBuffer.incrementTail_eq s.this room
  rw [final_of_run (run_insert_room quiet v inserted room)]
  simp only [State.appended, cursors, and_self]

/-- An insertion that does not. -/
theorem insert_cursors_full {s : State T A} (quiet : s.mem.fuse = none) {inner : Update T} {v : T}
    (inserted : inner.inserted = some v) (full : s.this.full_ = true) :
    (final inner.perform s).this.count_ = s.this.count_ ∧
      (final inner.perform s).this.full_ = true := by
  rcases run_insert_full quiet v inserted full with run | run
  all_goals
    rw [final_of_run run]
    exact ⟨rfl, full⟩

theorem popped_cursors (s : State T A) :
    s.popped.this.count_ = s.this.count_ - 1 ∧ s.popped.this.full_ = false := by
  simp only [State.popped, RingBuffer.incrementHead_eq, and_self]

end RingBufferThreadSafe

end Dkyb
