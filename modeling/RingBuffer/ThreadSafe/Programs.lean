import RingBuffer.ThreadSafe.Linearization

/-! # Programs whose threads share one buffer

A program says which call each thread may make next, what it does by itself between
its calls, and what it does with what a call returns. An exception that leaves a
thread ends the program. Its runs are runs of the wrapper, and an invariant of the
program's own state need only look at the calls that returned.
-/

namespace Dkyb

open Signed

variable {T A : Type}

namespace RingBufferThreadSafe

open Transitions

/-- `σ` is what the threads keep apart from the buffer. -/
structure Program (ι T σ : Type) where
  /-- Whether this may be the next call of the thread. -/
  calls : σ → ι → Method T → Bool
  /-- The thread's next step of its own. -/
  own : σ → ι → Option σ
  /-- What the thread does when its call returns; `none` when it lets the exception
      through. -/
  returns : σ → ι → Method T → Result T → Option σ

inductive Move (ι T : Type) where
  | own (i : ι)
  | buffer (l : Label ι T)

structure Execution (ι T A σ : Type) where
  sys : System ι T A
  locals : σ
  terminated : Bool
  /-- Written next to the program and never read by it. -/
  journal : Journal ι T

variable {ι σ : Type} [Fintype ι] [DecidableEq ι]

/-- A new buffer, all threads before their first step. -/
def Execution.start (capacity : Nat) (allocator : A) (locals : σ) : Execution ι T A σ :=
  ⟨System.start capacity allocator, locals, false, .blank⟩

namespace Program

/-- The step starts no call that the program does not make. -/
def permits (p : Program ι T σ) (e : Execution ι T A σ) (l : Label ι T) : Bool :=
  match l.action with
  | .call method => p.calls e.locals l.thread method
  | _ => true

/-- Thread `i` goes on by itself, when it is in no call. -/
def proceed (p : Program ι T σ) (e : Execution ι T A σ) (i : ι) : Option (Execution ι T A σ) :=
  match e.sys.phase i with
  | .idle => (p.own e.locals i).map fun locals => { e with locals := locals }
  | _ => none

/-- Thread `i` gets the report of a call, if there is one. -/
def absorb (p : Program ι T σ) (e : Execution ι T A σ) (i : ι) : Report T → Execution ι T A σ
  | none => e
  | some (method, result) =>
      match p.returns e.locals i method result with
      | some locals => { e with locals := locals }
      | none => { e with terminated := true }

def step (p : Program ι T σ) (e : Execution ι T A σ) (m : Move ι T) :
    Option (Execution ι T A σ × Report T) :=
  if e.terminated then
    none
  else
    match m with
    | .own i => (p.proceed e i).map fun e => (e, none)
    | .buffer l =>
        if p.permits e l then
          (e.sys.step l).map fun next =>
            (p.absorb { e with sys := next.1, journal := e.journal.record e.sys l next.2 } l.thread
              next.2, next.2)
        else
          none

/-- What a thread does leaves the next calls of the others as they are. -/
structure Separate (p : Program ι T σ) : Prop where
  own : ∀ {s i s'}, p.own s i = some s' → ∀ k, k ≠ i → p.calls s' k = p.calls s k
  returns : ∀ {s i method result s'}, p.returns s i method result = some s' →
    ∀ k, k ≠ i → p.calls s' k = p.calls s k

end Program

section Runs

variable {p : Program ι T σ} {e e' : Execution ι T A σ} {m : Move ι T} {report : Report T} {c : Nat}

omit [Fintype ι] [DecidableEq ι] in
theorem Program.proceed_cases {i : ι} (own : p.proceed e i = some e') :
    ∃ locals, e.sys.phase i = .idle ∧ p.own e.locals i = some locals ∧
      e' = { e with locals := locals } := by
  unfold Program.proceed at own
  split at own
  · obtain ⟨locals, own, same⟩ := Option.map_eq_some_iff.mp own
    exact ⟨locals, ‹_›, own, same.symm⟩
  · cases own

omit [Fintype ι] [DecidableEq ι] in
theorem Program.absorb_cases (p : Program ι T σ) (e : Execution ι T A σ) (i : ι) (report : Report T) :
    (report = none ∧ p.absorb e i report = e) ∨
      (∃ method result locals, report = some (method, result) ∧
        p.returns e.locals i method result = some locals ∧
        p.absorb e i report = { e with locals := locals }) ∨
      (∃ method result, report = some (method, result) ∧
        p.returns e.locals i method result = none ∧
        p.absorb e i report = { e with terminated := true }) := by
  cases report with
  | none => exact .inl ⟨rfl, rfl⟩
  | some call =>
      obtain ⟨method, result⟩ := call
      cases returned : p.returns e.locals i method result with
      | some locals =>
          exact .inr (.inl ⟨method, result, locals, rfl, returned, by simp [absorb, returned]⟩)
      | none => exact .inr (.inr ⟨method, result, rfl, returned, by simp [absorb, returned]⟩)

/-- What a step of a program is: a thread goes on by itself, or a step inside the
    buffer with what its report leads to. -/
theorem Program.step_cases (stepped : p.step e m = some (e', report)) :
    e.terminated = false ∧
    ((∃ i locals, e.sys.phase i = .idle ∧ p.own e.locals i = some locals ∧
      e' = { e with locals := locals }) ∨
    ∃ l sys, p.permits e l = true ∧ e.sys.step l = some (sys, report) ∧
      e' = p.absorb { e with sys := sys, journal := e.journal.record e.sys l report } l.thread
        report) := by
  unfold Program.step at stepped
  split at stepped
  · cases stepped
  · refine ⟨by simpa using ‹¬ e.terminated = true›, ?_⟩
    cases m with
    | own i =>
        obtain ⟨e'', own, same⟩ := Option.map_eq_some_iff.mp stepped
        cases same
        obtain ⟨locals, idle, own, same⟩ := Program.proceed_cases own
        exact .inl ⟨i, locals, idle, own, same⟩
    | buffer l =>
        simp only at stepped
        split at stepped
        · obtain ⟨⟨sys, report'⟩, ran, same⟩ := Option.map_eq_some_iff.mp stepped
          cases same
          exact .inr ⟨l, sys, ‹_›, ran, rfl⟩
        · cases stepped

omit [Fintype ι] [DecidableEq ι] in
/-- Absorbing a report does nothing to the buffer. -/
theorem Program.absorb_sys (p : Program ι T σ) (e : Execution ι T A σ) (i : ι) (report : Report T) :
    (p.absorb e i report).sys = e.sys ∧ (p.absorb e i report).journal = e.journal := by
  rcases p.absorb_cases e i report with ⟨-, same⟩ | ⟨_, _, _, -, -, same⟩ | ⟨_, _, -, -, same⟩
  all_goals rw [same]; exact ⟨rfl, rfl⟩

/-- A call that reports is the one the thread was in, and the thread is free then. -/
theorem Turn.reported {sys sys' : System ι T A} {l : Label ι T} {method : Method T}
    {result : Result T} (turn : Turn sys l sys' (some (method, result))) :
    (sys.running l = some method ∨ (sys.phase l.thread).method = some method) ∧
      (sys'.phase l.thread).method = none := by
  have self : ∀ x : Phase T, Function.update sys.phase l.thread x l.thread = x :=
    fun x => Function.update_self l.thread x sys.phase
  cases turn with
  | passes _ _ s inside =>
      simp only [self]
      exact ⟨.inl inside, rfl⟩
  | inserts _ _ _ _ _ inside _ _ _ _ _ delivered | removes _ _ inside _ _ delivered =>
      simp only [notifyOne_keeps Phase.method_wake delivered, self]
      exact ⟨.inl inside, rfl⟩
  | clears inside =>
      simp only [notifyAll_keeps Phase.method_wake, self]
      exact ⟨.inl inside, rfl⟩
  | throws e phase =>
      simp only [self, phase]
      exact ⟨.inr rfl, rfl⟩
  | notifies cv _ _ phase notifying delivered =>
      simp only [notifyOne_keeps Phase.method_wake delivered, self, notifying]
      exact ⟨.inr rfl, rfl⟩

/-- Every call under way is one that its thread would make now. -/
def Execution.Abides (p : Program ι T σ) (e : Execution ι T A σ) : Prop :=
  ∀ i method, (e.sys.phase i).method = some method → p.calls e.locals i method = true

omit [Fintype ι] [DecidableEq ι] in
theorem Execution.Abides.running (h : e.Abides p) {l : Label ι T} (permitted : p.permits e l = true)
    {method : Method T} (inside : e.sys.running l = some method) :
    p.calls e.locals l.thread method = true := by
  rcases running_cases inside with ⟨-, action⟩ | ⟨phase, -⟩
  · rwa [Program.permits, action] at permitted
  · exact h l.thread method (by rw [phase]; rfl)

/-- Step lemma. -/
theorem Execution.Abides.step (h : e.Abides p) (separate : p.Separate)
    (quiet : e.sys.buffer.mem.fuse = none) (stepped : p.step e m = some (e', report)) :
    e'.Abides p := by
  rcases (Program.step_cases stepped).2 with ⟨i, locals, idle, own, rfl⟩ |
    ⟨l, sys, permitted, ran, rfl⟩
  · intro k method inside
    by_cases same : k = i
    · subst same
      simp only [idle] at inside
      cases inside
    · simp only [separate.own own k same]
      exact h k method inside
  · have turn := turn_of_step quiet ran
    have kept : ∀ k method, (sys.phase k).method = some method →
        p.calls e.locals k method = true := by
      intro k method inside
      rcases turn.method_cases inside with before | ⟨rfl, started⟩
      · exact h k method before
      · exact h.running permitted started
    rcases p.absorb_cases { e with sys := sys, journal := e.journal.record e.sys l report } l.thread
      report with ⟨-, same⟩ | ⟨called, result, locals, rfl, returned, same⟩ | ⟨_, _, -, -, same⟩
    · rw [same]
      exact kept
    · rw [same]
      intro k method inside
      by_cases own : k = l.thread
      · subst own
        rw [turn.reported.2] at inside
        cases inside
      · simp only [separate.returns returned k own]
        exact kept k method inside
    · rw [same]
      exact kept

/-- A report is that of a call its thread makes. -/
theorem Execution.Abides.reported (h : e.Abides p) {l : Label ι T} {sys : System ι T A}
    {method : Method T} {result : Result T} (permitted : p.permits e l = true)
    (turn : Turn e.sys l sys (some (method, result))) :
    p.calls e.locals l.thread method = true := by
  rcases turn.reported.1 with inside | inside
  · exact h.running permitted inside
  · exact h l.thread method inside

/-- What holds in every run of a program whose threads are separate. -/
structure Execution.Steady (p : Program ι T σ) (c : Nat) (e : Execution ι T A σ) : Prop where
  counted : e.sys.buffer.this.Counted c
  quiet : e.sys.buffer.mem.fuse = none
  abides : e.Abides p

namespace Execution.Steady

omit [Fintype ι] [DecidableEq ι] in
theorem start (pos : 0 < c) (a : A) (locals : σ) :
    (Execution.start c a locals : Execution ι T A σ).Steady p c where
  counted := (counted_start pos a).1
  quiet := (counted_start pos a).2
  abides := by
    intro i method inside
    cases inside

/-- Step lemma. -/
theorem step (h : e.Steady p c) (separate : p.Separate) (stepped : p.step e m = some (e', report)) :
    e'.Steady p c := by
  have abides := h.abides.step separate h.quiet stepped
  rcases (Program.step_cases stepped).2 with ⟨i, locals, -, -, rfl⟩ | ⟨l, sys, -, ran, rfl⟩
  · exact ⟨h.counted, h.quiet, abides⟩
  · have sameSys := (p.absorb_sys { e with sys := sys, journal := e.journal.record e.sys l report }
      l.thread report).1
    have kept := (turn_of_step h.quiet ran).counted h.counted h.quiet
    exact ⟨sameSys ▸ kept.1, sameSys ▸ kept.2, abides⟩

omit [Fintype ι] [DecidableEq ι] in
/-- A thread that would call nothing is in no call. -/
theorem idle (h : e.Steady p c) {i : ι} (ended : ∀ method, p.calls e.locals i method = false) :
    e.sys.phase i = .idle := by
  have outside : ∀ method, (e.sys.phase i).method ≠ some method := by
    intro method inside
    have called := h.abides i method inside
    rw [ended] at called
    cases called
  cases phase : e.sys.phase i with
  | idle => rfl
  | _ =>
      rw [phase] at outside
      exact absurd rfl (outside _)

end Execution.Steady

/-- The wrapper under a program only does what it does under any calls that the
    program may make. -/
theorem Program.reaches_guarded {G : System ι T A → Label ι T → Prop} {a : A} {locals : σ}
    (pos : 0 < c) (separate : p.Separate)
    (each : ∀ {e : Execution ι T A σ} {l}, e.Steady p c → p.permits e l = true → G e.sys l)
    (reached : Reaches p.step (fun _ _ => True) (Execution.start c a locals) e) :
    Reaches (observed System.step Journal.record) (fun s l => G s.1 l)
      (System.start c a, .blank) (e.sys, e.journal) := by
  have steady := reached.strengthen (I := fun e => e.Steady p c) (.start pos a locals)
    (fun _ _ _ _ h _ stepped => h.step separate stepped) fun _ _ h _ => h
  refine steady.project (fun e => (e.sys, e.journal)) ?_
  intro e m e' report h stepped
  rcases (Program.step_cases stepped).2 with ⟨i, locals, -, -, rfl⟩ | ⟨l, sys, permitted, ran, rfl⟩
  · exact .inl rfl
  · refine .inr ⟨l, report, each h permitted, ?_⟩
    obtain ⟨sameSys, sameJournal⟩ := p.absorb_sys
      { e with sys := sys, journal := e.journal.record e.sys l report } l.thread report
    rw [observed_some, sameSys, sameJournal]
    exact ⟨ran, rfl⟩

theorem Program.reaches_system {a : A} {locals : σ} (pos : 0 < c) (separate : p.Separate)
    (reached : Reaches p.step (fun _ _ => True) (Execution.start c a locals) e) :
    Reaches (observed System.step Journal.record) (fun _ _ => True)
      (System.start c a, .blank) (e.sys, e.journal) :=
  Program.reaches_guarded (G := fun _ _ => True) pos separate (fun _ _ => trivial) reached

/-- Rule for programs: an invariant of the state apart from the buffer and of the
    calls that returned holds as long as the program runs, if it survives the steps
    of the threads and the returns of calls that they make. -/
theorem Program.invariant {I : σ → List (ι × Method T × Result T) → Prop} {a : A} {locals : σ}
    (pos : 0 < c) (separate : p.Separate) (begins : I locals [])
    (own : ∀ {s s' i reports}, I s reports → p.own s i = some s' → I s' reports)
    (returns : ∀ {s s' i method result reports}, I s reports → p.calls s i method = true →
      p.returns s i method result = some s' → I s' (reports ++ [(i, method, result)]))
    (reached : Reaches p.step (fun _ _ => True) (Execution.start c a locals) e) :
    e.Steady p c ∧ (e.terminated = false → I e.locals e.journal.reported) := by
  refine reached.invariant (I := fun e : Execution ι T A σ =>
    e.Steady p c ∧ (e.terminated = false → I e.locals e.journal.reported))
    ⟨.start pos a locals, fun _ => begins⟩ ?_
  rintro e m e' report ⟨steady, holds⟩ - stepped
  refine ⟨steady.step separate stepped, ?_⟩
  obtain ⟨running, moves⟩ := Program.step_cases stepped
  have holds := holds running
  rcases moves with ⟨i, locals, -, going, rfl⟩ | ⟨l, sys, permitted, ran, rfl⟩
  · exact fun _ => own holds going
  · have turn := turn_of_step steady.quiet ran
    intro ended
    rw [(p.absorb_sys { e with sys := sys, journal := e.journal.record e.sys l report } l.thread
      report).2]
    rcases p.absorb_cases { e with sys := sys, journal := e.journal.record e.sys l report }
      l.thread report with ⟨rfl, same⟩ | ⟨called, result, locals, rfl, returned, same⟩ |
      ⟨_, _, -, -, same⟩
    · rw [same]
      simpa [Journal.record] using holds
    · rw [same]
      exact returns holds (steady.abides.reported permitted turn) returned
    · rw [same] at ended
      cases ended

/-- What every call of the program is, every call that has its answer is. -/
theorem Program.answered_made {K : ι → Method T → Prop} {a : A} {locals : σ} (pos : 0 < c)
    (separate : p.Separate) (kinds : ∀ {s i method}, p.calls s i method = true → K i method)
    (reached : Reaches p.step (fun _ _ => True) (Execution.start c a locals) e) :
    ∀ call ∈ e.journal.answered, K call.1 call.2.1 := by
  have both : e.Steady p c ∧ ∀ call ∈ e.journal.reported, K call.1 call.2.1 := by
    refine reached.invariant (I := fun e : Execution ι T A σ => e.Steady p c ∧
      ∀ call ∈ e.journal.reported, K call.1 call.2.1)
      ⟨.start pos a locals, fun _ member => by cases member⟩ ?_
    rintro e m e' report ⟨steady, made⟩ - stepped
    refine ⟨steady.step separate stepped, ?_⟩
    rcases (Program.step_cases stepped).2 with ⟨i, locals, -, -, rfl⟩ | ⟨l, sys, permitted, ran, rfl⟩
    · exact made
    · rw [(p.absorb_sys { e with sys := sys, journal := e.journal.record e.sys l report } l.thread
        report).2]
      intro call member
      rcases List.mem_append.mp member with before | last
      · exact made call before
      · cases report with
        | none => cases last
        | some answer =>
            rw [List.mem_singleton.mp last]
            exact kinds (steady.abides.reported permitted (turn_of_step steady.quiet ran))
  obtain ⟨steady, made⟩ := both
  rintro ⟨i, method, result⟩ member
  have here := mem_entries.mpr member
  rw [told_of_reaches pos a (Program.reaches_system pos separate reached) i] at here
  rcases List.mem_append.mp here with reported | pending
  · exact made _ (mem_entries.mp reported)
  · cases phase : e.sys.phase i with
    | notifying cv inside answer =>
        rw [phase] at pending
        cases List.mem_singleton.mp pending
        exact kinds (steady.abides i method (by rw [phase]; rfl))
    | _ =>
        rw [phase] at pending
        cases pending

/-- A program ends early only by a call that returned what its thread lets through. -/
theorem Program.terminated_by {a : A} {locals : σ}
    (reached : Reaches p.step (fun _ _ => True) (Execution.start c a locals) e)
    (ended : e.terminated = true) : ∃ s i method result,
      (i, method, result) ∈ e.journal.reported ∧ p.returns s i method result = none := by
  revert ended
  refine reached.invariant (I := fun e => e.terminated = true → ∃ s i method result,
    (i, method, result) ∈ e.journal.reported ∧ p.returns s i method result = none)
    (fun ended => by cases ended) ?_
  intro e m e' report _ _ stepped ended
  obtain ⟨running, moves⟩ := Program.step_cases stepped
  rcases moves with ⟨i, locals, -, -, rfl⟩ | ⟨l, sys, -, -, rfl⟩
  · rw [running] at ended
    cases ended
  · have going : e.terminated ≠ true := by simp [running]
    rcases p.absorb_cases { e with sys := sys, journal := e.journal.record e.sys l report }
      l.thread report with ⟨-, same⟩ | ⟨_, _, _, -, -, same⟩ | ⟨method, result, rfl, refused, same⟩
    · rw [same] at ended
      exact absurd ended going
    · rw [same] at ended
      exact absurd ended going
    · rw [same]
      refine ⟨e.locals, l.thread, method, result, ?_, refused⟩
      simp [Journal.record]

/-- A program that never calls `clear` only removes what its pops return. -/
theorem Program.removed_popped {a : A} {locals : σ} (pos : 0 < c) (separate : p.Separate)
    (never : ∀ s i, p.calls s i .clear = false)
    (reached : Reaches p.step (fun _ _ => True) (Execution.start c a locals) e) :
    e.journal.removed = e.journal.answered.filterMap fun call => Report.popped (some call.2) := by
  have both : e.Steady p c ∧ e.journal.removed =
      e.journal.answered.filterMap fun call => Report.popped (some call.2) := by
    refine reached.invariant (I := fun e : Execution ι T A σ => e.Steady p c ∧
      e.journal.removed = e.journal.answered.filterMap fun call => Report.popped (some call.2))
      ⟨.start pos a locals, rfl⟩ ?_
    rintro e m e' report ⟨steady, removed⟩ - stepped
    refine ⟨steady.step separate stepped, ?_⟩
    rcases (Program.step_cases stepped).2 with ⟨i, locals, -, -, rfl⟩ | ⟨l, sys, permitted, -, rfl⟩
    · exact removed
    · have stays : e.sys.discards l = [] := by
        unfold System.discards
        split
        · rename_i clearing
          have called := steady.abides.running permitted clearing
          rw [never] at called
          cases called
        · rfl
      rw [(p.absorb_sys { e with sys := sys, journal := e.journal.record e.sys l report } l.thread
        report).2]
      simp only [Journal.record, stays, List.append_nil, List.filterMap_append, removed]
      congr 1
      cases e.sys.answered l report with
      | none => rfl
      | some call => cases taken : Report.popped (some call) <;> simp [taken]
  exact both.2

end Runs

end RingBufferThreadSafe

end Dkyb
