import RingBuffer.Lib.Signed
import RingBuffer.ThreadSafe.Timeouts

/-! # What all calls do to the elements, and what they report

A run of any calls keeps a journal. A call has its answer when the buffer has done
what it was asked to do; a call with a timeout reports it some steps later, after
its notification. What the buffer took in and gave out can be read off the answers.
-/

namespace Dkyb

open Stateful Signed

variable {T A : Type}

namespace RingBufferThreadSafe

open Transitions

namespace Report

/-- The element of an insertion that succeeded. -/
def inserted : Report T → Option T
  | some (method, result) => if result.failed then none else method.offered
  | none => none

/-- What a pop that succeeded returns. -/
def popped : Report T → Option (Option T)
  | some (.popFront, .element content) | some (.tryPopFront, .element content)
  | some (.popFrontWithTimeout, .element content) => some content
  | _ => none

variable {method : Method T} {result : Result T}

theorem popped_of_offered {v : T} (offered : method.offered = some v) (result : Result T) :
    popped (some (method, result)) = none := by
  cases method <;> cases offered <;> rfl

theorem inserted_of_failed (failed : result.failed = true) :
    inserted (some (method, result)) = none := by
  simp only [inserted, failed, if_true]

theorem popped_of_failed (failed : result.failed = true) :
    popped (some (method, result)) = none := by
  cases method <;> cases result <;> first | rfl | cases failed

end Report

/-- The answer of a call that has still to return. -/
def Phase.pending : Phase T → Report T
  | .notifying _ method result => some (method, result)
  | _ => none

theorem Phase.pending_wake (x : Phase T) : x.wake.pending = x.pending := by
  cases x <;> rfl

variable {ι : Type} [Fintype ι] [DecidableEq ι]

namespace System

/-- The call that has its answer with this step, and what it is. -/
def answered (sys : System ι T A) (l : Label ι T) (report : Report T) : Report T :=
  match sys.running l with
  | some _ => report
  | none => match l.action, sys.phase l.thread, report with
    | .proceed, .unlocked _, some thrown => some thrown
    | .proceed, .unlocked method, none => method.remainder.bind fun rest =>
        match reply rest.1.perform sys.buffer with
        | .ok answer => some (method, rest.2.1 answer)
        | .error _ => none
    | _, _, _ => none

/-- What `clear` takes out in this step. -/
def discards (sys : System ι T A) (l : Label ι T) : List (Option T) :=
  match sys.running l with
  | some .clear => sys.buffer.contents
  | _ => []

end System

structure Journal (ι T : Type) where
  answered : List (ι × Method T × Result T)
  reported : List (ι × Method T × Result T)
  /-- Everything that left the buffer by a pop or by `clear`. -/
  removed : List (Option T)
  /-- How many insertions found the buffer full. -/
  overwrites : Nat

namespace Journal

def blank : Journal ι T := ⟨[], [], [], 0⟩

def record (j : Journal ι T) (sys : System ι T A) (l : Label ι T) (report : Report T) :
    Journal ι T where
  answered := j.answered ++ (sys.answered l report).toList.map fun call => (l.thread, call)
  reported := j.reported ++ report.toList.map fun call => (l.thread, call)
  removed := j.removed ++ (Report.popped (sys.answered l report)).toList ++ sys.discards l
  overwrites := j.overwrites +
    if (Report.inserted (sys.answered l report)).isSome && sys.buffer.this.full then 1 else 0

/-- Every element the buffer took, in this order. -/
def inserted (j : Journal ι T) : List T := j.answered.filterMap fun call => Report.inserted (some call.2)

end Journal

section Steps

variable {sys sys' : System ι T A} {l : Label ι T} {report : Report T} {method : Method T}
  {result : Result T}

omit [Fintype ι] [DecidableEq ι] in
theorem answered_running (inside : sys.running l = some method) : sys.answered l report = report := by
  simp only [System.answered, inside]

omit [Fintype ι] [DecidableEq ι] in
theorem answered_outside (action : l.action = .wake ∨ l.action = .notify) :
    sys.answered l report = none := by
  rcases action with action | action
  all_goals simp [System.answered, System.running, action]

omit [Fintype ι] [DecidableEq ι] in
theorem answered_appends (quiet : sys.buffer.mem.fuse = none) (action : l.action = .proceed)
    (phase : sys.phase l.thread = .unlocked method) (timed : method.timedPush = true) :
    sys.answered l none = some (method, .bool true) := by
  have returned : ∀ {inner : Update T} {v : T}, inner.inserted = some v →
      reply inner.perform sys.buffer = .ok .done :=
    fun inserted => reply_of_run (run_insert sys.buffer quiet inserted)
  cases method <;> cases timed
  all_goals
    simp only [System.answered, System.running, action, phase, Method.remainder, Option.bind_some]
    rw [returned rfl]

omit [Fintype ι] [DecidableEq ι] in
theorem answered_takes (quiet : sys.buffer.mem.fuse = none) (action : l.action = .proceed)
    (phase : sys.phase l.thread = .unlocked .popFrontWithTimeout)
    (nonempty : sys.buffer.this.count_ ≠ 0) : sys.answered l none =
      some (.popFrontWithTimeout, .element (sys.buffer.mem.slots sys.buffer.headPtr).content) := by
  have returned := reply_of_run (run_perform_popFront quiet nonempty)
  simp only [System.answered, System.running, action, phase, Method.remainder, Option.bind_some,
    returned, popped]

omit [Fintype ι] [DecidableEq ι] in
theorem answered_throws (action : l.action = .proceed)
    (phase : sys.phase l.thread = .unlocked method) (thrown : Method T × Result T) :
    sys.answered l (some thrown) = some thrown := by
  simp only [System.answered, System.running, action, phase]

omit [Fintype ι] [DecidableEq ι] in
theorem discards_outside (outside : sys.running l = none) : sys.discards l = [] := by
  simp only [System.discards, outside]

omit [Fintype ι] [DecidableEq ι] in
theorem discards_nothing (inside : sys.running l = some method) (keeps : method ≠ .clear) :
    sys.discards l = [] := by
  unfold System.discards
  rw [inside]
  cases method <;> first | rfl | exact absurd rfl keeps

/-- An append with a timeout that ends while it has the mutex gave up. -/
theorem timedPush_gives_up (stepped : sys.step l = some (sys', some (method, result)))
    (inside : sys.running l = some method) (timed : method.timedPush = true) :
    result = .bool false := by
  have gaveUp : ∀ {expired : Bool}, sys.settle l.thread method l.chosen
      (method.critical expired sys.buffer) = some (sys', some (method, result)) →
      result = .bool false := by
    intro expired settled
    cases method <;> cases timed
    all_goals
      cases full : sys.buffer.this.full <;> cases expired
      all_goals simp [Method.critical, pushBackWithTimeout, waitFor, full, System.settle,
        Notice.deliver] at settled
      exact settled.2.symm
  rcases running_cases inside with ⟨phase, action⟩ | ⟨phase, expired, action⟩
  · simp only [System.step, action, phase] at stepped
    exact gaveUp stepped
  · simp only [System.step, action, phase] at stepped
    split at stepped
    · cases stepped
    · exact gaveUp stepped

omit [Fintype ι] [DecidableEq ι] in
/-- A section that passes moves no element. -/
theorem Passes.moves_nothing {s' : State T A} (passes : Passes sys.buffer method result s')
    (timed : method.timedPush = true → result = .bool false) :
    Report.inserted (some (method, result)) = none ∧
      Report.popped (some (method, result)) = none := by
  have failed : method.basic = true → _ := passes.basic
  have gaveUp : method = .popFrontWithTimeout → _ := passes.timedPop
  cases method with
  | popFrontWithTimeout =>
      obtain rfl := gaveUp rfl
      exact ⟨rfl, rfl⟩
  | pushBackWithTimeout | pushBackWithTimeoutMove =>
      obtain rfl := timed rfl
      exact ⟨rfl, rfl⟩
  | pushBack | pushBackMove | emplaceBack | tryPushBack | tryPushBackMove | popFront
  | tryPopFront | clear =>
      exact ⟨Report.inserted_of_failed (failed rfl), Report.popped_of_failed (failed rfl)⟩
  | _ => exact ⟨by simp [Report.inserted, Method.offered], rfl⟩

end Steps

section Runs

variable {sys sys' : System ι T A} {l : Label ι T} {report : Report T} {j : Journal ι T} {c : Nat}

/-! ## The balance of elements -/

/-- Elements taken in are overwritten, removed or present; and in order as long as
    none was overwritten. -/
structure Kept (c : Nat) (sys : System ι T A) (j : Journal ι T) : Prop where
  counted : sys.buffer.this.Counted c
  quiet : sys.buffer.mem.fuse = none
  size : j.inserted.length = j.overwrites + j.removed.length + sys.buffer.this.count_
  order : j.overwrites = 0 → ∃ q, Queued c sys.buffer q ∧
    j.inserted.map some = j.removed ++ q.map some

namespace Kept

omit [Fintype ι] [DecidableEq ι] in
theorem start (pos : 0 < c) (a : A) : Kept c (System.start c a : System ι T A) .blank where
  counted := (counted_start pos a).1
  quiet := (counted_start pos a).2
  size := by
    have empty : (System.start c a : System ι T A).buffer.this.count_ = 0 :=
      (Queued.created pos a : Queued c (State.created c a : State T A) []).holds.count
    simp [Journal.blank, Journal.inserted, empty]
  order _ := ⟨[], Queued.created pos a, rfl⟩

omit [Fintype ι] [DecidableEq ι] in
theorem inserted_record (j : Journal ι T) : (j.record sys l report).inserted =
    j.inserted ++ (Report.inserted (sys.answered l report)).toList := by
  simp only [Journal.record, Journal.inserted, List.filterMap_append]
  congr 1
  cases sys.answered l report with
  | none => rfl
  | some call => cases moved : Report.inserted (some call) <;> simp [moved]

omit [Fintype ι] [DecidableEq ι] in
/-- Nothing comes in and nothing goes out. -/
theorem idle (h : Kept c sys j) {s : State T A} {phase : ι → Phase T}
    (this : s.this = sys.buffer.this) (slots : s.mem.slots = sys.buffer.mem.slots)
    (fuse : s.mem.fuse = sys.buffer.mem.fuse)
    (nothingIn : Report.inserted (sys.answered l report) = none)
    (nothingOut : Report.popped (sys.answered l report) = none) (nothingLost : sys.discards l = []) :
    Kept c ⟨s, phase⟩ (j.record sys l report) where
  counted := this ▸ h.counted
  quiet := fuse.trans h.quiet
  size := by
    rw [inserted_record]
    simp [Journal.record, nothingIn, nothingOut, nothingLost, this, h.size]
  order := by
    intro none
    simp only [Journal.record, nothingIn, Option.isSome_none, Bool.false_and, Bool.false_eq_true,
      if_false, Nat.add_zero] at none
    obtain ⟨q, queued, balance⟩ := h.order none
    refine ⟨q, queued.of_same this slots fuse, ?_⟩
    rw [inserted_record]
    simpa [Journal.record, nothingIn, nothingOut, nothingLost] using balance

omit [Fintype ι] [DecidableEq ι] in
/-- The buffer takes an element, perhaps in place of another one. -/
theorem insert (h : Kept c sys j) {inner : Update T} {v : T} {phase : ι → Phase T}
    (inserted : inner.inserted = some v)
    (comesIn : Report.inserted (sys.answered l report) = some v)
    (nothingOut : Report.popped (sys.answered l report) = none) (nothingLost : sys.discards l = []) :
    Kept c ⟨final inner.perform sys.buffer, phase⟩ (j.record sys l report) where
  counted := h.counted.update h.quiet inner
  quiet := (Frame.update h.quiet inner).fuse.trans h.quiet
  size := by
    rw [inserted_record]
    cases full : sys.buffer.this.full_ with
    | false =>
        have more := (insert_cursors h.quiet inserted full).1
        simp [Journal.record, comesIn, nothingOut, nothingLost, RingBuffer.full, full, more, h.size]
        omega
    | true =>
        have same := (insert_cursors_full h.quiet inserted full).1
        simp [Journal.record, comesIn, nothingOut, nothingLost, RingBuffer.full, full, same, h.size]
        omega
  order := by
    intro none
    cases full : sys.buffer.this.full_ with
    | false =>
        simp only [Journal.record, RingBuffer.full, full, Bool.and_false,
          Bool.false_eq_true, if_false, Nat.add_zero] at none
        obtain ⟨q, queued, balance⟩ := h.order none
        refine ⟨q ++ [v], queued.insert full inserted, ?_⟩
        rw [inserted_record]
        simp [Journal.record, comesIn, nothingOut, nothingLost, balance]
    | true => simp [Journal.record, comesIn, RingBuffer.full, full] at none

omit [Fintype ι] [DecidableEq ι] in
/-- The oldest element goes. -/
theorem pop (h : Kept c sys j) {phase : ι → Phase T} (nonempty : sys.buffer.this.count_ ≠ 0)
    (nothingIn : Report.inserted (sys.answered l report) = none)
    (goesOut : Report.popped (sys.answered l report) =
      some (sys.buffer.mem.slots sys.buffer.headPtr).content)
    (nothingLost : sys.discards l = []) :
    Kept c ⟨sys.buffer.popped, phase⟩ (j.record sys l report) where
  counted := h.counted.incrementHead nonempty
  quiet := h.quiet
  size := by
    have fewer := (popped_cursors sys.buffer).1
    rw [inserted_record]
    simp [Journal.record, nothingIn, goesOut, nothingLost, fewer, h.size]
    omega
  order := by
    intro none
    simp only [Journal.record, nothingIn, Option.isSome_none, Bool.false_and, Bool.false_eq_true,
      if_false, Nat.add_zero] at none
    obtain ⟨q, queued, balance⟩ := h.order none
    cases q with
    | nil => exact absurd queued.holds.count nonempty
    | cons x q =>
        have content : (sys.buffer.mem.slots sys.buffer.headPtr).content = some x :=
          congrArg Slot.content queued.holds.cell_head
        refine ⟨q, queued.popped, ?_⟩
        rw [inserted_record]
        simp [Journal.record, nothingIn, goesOut, nothingLost, content, balance]

omit [Fintype ι] [DecidableEq ι] in
theorem clear (h : Kept c sys j) {phase : ι → Phase T}
    (nothingIn : Report.inserted (sys.answered l report) = none)
    (nothingOut : Report.popped (sys.answered l report) = none)
    (all : sys.discards l = sys.buffer.contents) :
    Kept c ⟨sys.buffer.cleared, phase⟩ (j.record sys l report) where
  counted := by
    rw [← final_of_run (run_perform_clear sys.buffer)]
    exact h.counted.update h.quiet .clear
  quiet := by simpa [State.cleared] using h.quiet
  size := by
    have none : sys.buffer.cleared.this.count_ = 0 := rfl
    rw [inserted_record]
    simp [Journal.record, nothingIn, nothingOut, all, none, State.contents, h.size]
    omega
  order := by
    intro none
    simp only [Journal.record, nothingIn, Option.isSome_none, Bool.false_and, Bool.false_eq_true,
      if_false, Nat.add_zero] at none
    obtain ⟨q, queued, balance⟩ := h.order none
    refine ⟨[], queued.cleared, ?_⟩
    rw [inserted_record]
    simp [Journal.record, nothingIn, nothingOut, all, queued.contents_eq, balance]

/-- Step lemma. -/
theorem step (h : Kept c sys j) (stepped : sys.step l = some (sys', report)) :
    Kept c sys' (j.record sys l report) := by
  have turn := turn_of_step h.quiet stepped
  cases turn with
  | wakes method phase action =>
      have none : sys.answered l none = none := answered_outside (.inl action)
      refine h.idle rfl rfl rfl (by rw [none]; rfl) (by rw [none]; rfl) (discards_outside ?_)
      simp [System.running, action]
  | waits method cv inside waitsOn | unlocks method cv inside waitsOn =>
      have none : sys.answered l none = none := answered_running inside
      refine h.idle rfl rfl rfl (by rw [none]; rfl) (by rw [none]; rfl) (discards_nothing inside ?_)
      rintro rfl
      cases waitsOn
  | passes method result s inside passes =>
      have answer : sys.answered l (some (method, result)) = some (method, result) :=
        answered_running inside
      obtain ⟨nothingIn, nothingOut⟩ := passes.moves_nothing (timedPush_gives_up stepped inside)
      refine h.idle passes.this passes.slots passes.fuse ?_ ?_ (discards_nothing inside passes.keeps)
      · rw [answer, nothingIn]
      · rw [answer, nothingOut]
  | inserts method inner v result phase inside inserted offered room locked succeeds =>
      have answer : sys.answered l (some (method, result)) = some (method, result) :=
        answered_running inside
      refine h.insert inserted ?_ ?_ (discards_nothing inside ?_)
      · simp [answer, Report.inserted, succeeds, offered]
      · rw [answer, Report.popped_of_offered offered]
      · rintro rfl
        cases offered
  | removes method phase inside pops nonempty =>
      refine h.pop nonempty ?_ ?_ (discards_nothing inside ?_)
      all_goals cases method <;> cases pops
      all_goals simp [answered_running inside, Report.inserted, Report.popped, Method.offered]
  | clears inside =>
      refine h.clear ?_ ?_ ?_
      · simp [answered_running inside, Report.inserted, Method.offered]
      · simp [answered_running inside, Report.popped]
      · simp [System.discards, inside]
  | appends method inner v phase timed offered inserted action =>
      have answer := answered_appends h.quiet action phase timed
      refine h.insert inserted ?_ ?_ (discards_outside ?_)
      · simp [answer, Report.inserted, offered, Result.failed]
      · rw [answer, Report.popped_of_offered offered]
      · simp [System.running, action]
  | takes phase nonempty action =>
      have answer := answered_takes h.quiet action phase nonempty
      refine h.pop nonempty ?_ ?_ (discards_outside ?_)
      · simp [answer, Report.inserted, Method.offered]
      · simp [answer, Report.popped]
      · simp [System.running, action]
  | throws e phase empty action =>
      have answer := answered_throws action phase (.popFrontWithTimeout, .thrown e)
      refine h.idle rfl rfl rfl ?_ ?_ (discards_outside ?_)
      · simp [answer, Report.inserted, Method.offered]
      · simp [answer, Report.popped]
      · simp [System.running, action]
  | notifies cv method result phase notifying delivered action =>
      have none : sys.answered l (some (method, result)) = none := answered_outside (.inr action)
      refine h.idle rfl rfl rfl (by rw [none]; rfl) (by rw [none]; rfl) (discards_outside ?_)
      simp [System.running, action]

/-- Run lemma. -/
theorem of_reaches {ok : System ι T A × Journal ι T → Label ι T → Prop} (pos : 0 < c) (a : A)
    (reached : Reaches (observed System.step Journal.record) ok
      (System.start c a, .blank) (sys, j)) : Kept c sys j := by
  refine reached.invariant (I := fun s => Kept c s.1 s.2) (start pos a) ?_
  intro s l s' r h _ stepped
  obtain ⟨ran, recorded⟩ := observed_some.mp stepped
  rw [recorded]
  exact h.step ran

end Kept

omit [Fintype ι] [DecidableEq ι] in
/-- A thread that can run a section has nothing left to report. -/
theorem nothing_pending {method : Method T} (inside : sys.running l = some method) :
    (sys.phase l.thread).pending = none := by
  rcases running_cases inside with ⟨phase, -⟩ | ⟨phase, -⟩
  all_goals rw [phase]; rfl

/-- The thread of a step: its answers are what it reports and what it has still to
    report. -/
theorem Turn.answers (turn : Turn sys l sys' report) (quiet : sys.buffer.mem.fuse = none) :
    (sys.phase l.thread).pending.toList ++ (sys.answered l report).toList =
      report.toList ++ (sys'.phase l.thread).pending.toList := by
  have own : ∀ x : Phase T, Function.update sys.phase l.thread x l.thread = x :=
    fun x => Function.update_self l.thread x sys.phase
  cases turn with
  | wakes method phase action =>
      simp only [answered_outside (.inl action), phase, own]
      rfl
  | waits method cv inside | unlocks method cv inside =>
      simp only [answered_running inside, nothing_pending inside, own]
      rfl
  | passes method result s inside =>
      simp only [answered_running inside, nothing_pending inside, own]
      rfl
  | inserts method inner v result phase inside inserted offered room locked succeeds delivered =>
      simp only [answered_running inside, nothing_pending inside,
        notifyOne_keeps Phase.pending_wake delivered, own]
      rfl
  | removes method phase inside pops nonempty delivered =>
      simp only [answered_running inside, nothing_pending inside,
        notifyOne_keeps Phase.pending_wake delivered, own]
      rfl
  | clears inside =>
      simp only [answered_running inside, nothing_pending inside, notifyAll_keeps Phase.pending_wake, own]
      rfl
  | appends method inner v phase timed offered inserted action =>
      simp only [answered_appends quiet action phase timed, phase, own]
      rfl
  | takes phase nonempty action =>
      simp only [answered_takes quiet action phase nonempty, phase, own]
      rfl
  | throws e phase empty action =>
      simp only [answered_throws action phase, phase, own]
      rfl
  | notifies cv method result phase notifying delivered action =>
      simp only [answered_outside (.inr action), notifying,
        notifyOne_keeps Phase.pending_wake delivered, own]
      rfl

/-- Step lemma. -/
theorem told_step (told : ∀ i, entries i j.answered =
      entries i j.reported ++ (sys.phase i).pending.toList)
    (quiet : sys.buffer.mem.fuse = none) (turn : Turn sys l sys' report) (i : ι) :
    entries i (j.record sys l report).answered =
      entries i (j.record sys l report).reported ++ (sys'.phase i).pending.toList := by
  by_cases own : i = l.thread
  · subst own
    simp only [Journal.record, entries_append, entries_own, told, List.append_assoc,
      turn.answers quiet]
  · have others := turn.others Phase.pending_wake own
    simp only [Journal.record, entries_append, entries_other (Ne.symm own), others, told,
      List.append_nil]

/-- Run lemma: what a thread was told is what its calls did, in order, save the one
    call that has its answer and has not returned. -/
theorem told_of_reaches {ok : System ι T A × Journal ι T → Label ι T → Prop} (pos : 0 < c) (a : A)
    (reached : Reaches (observed System.step Journal.record) ok
      (System.start c a, .blank) (sys, j)) (i : ι) :
    entries i j.answered = entries i j.reported ++ (sys.phase i).pending.toList := by
  have both : Kept c sys j ∧ ∀ i, entries i j.answered =
      entries i j.reported ++ (sys.phase i).pending.toList := by
    refine reached.invariant (I := fun s => Kept c s.1 s.2 ∧ ∀ i, entries i s.2.answered =
      entries i s.2.reported ++ (s.1.phase i).pending.toList) ⟨.start pos a, fun _ => rfl⟩ ?_
    rintro s l s' r ⟨kept, told⟩ _ stepped
    obtain ⟨ran, recorded⟩ := observed_some.mp stepped
    rw [recorded]
    exact ⟨kept.step ran, told_step told kept.quiet (turn_of_step kept.quiet ran)⟩
  exact both.2 i

end Runs

end RingBufferThreadSafe

end Dkyb
