import RingBuffer.Lib.Transitions
import RingBuffer.SlidingWindow
import RingBuffer.ThreadSafe.Steps

/-! # The wrapper as a queue shared by threads

As long as no push meets a full buffer the wrapped one never overwrites: `tail_`
stays right behind the last element and the overwrite flag stays off. The calls
that do everything under the lock keep it so for any number of threads.
-/

namespace Dkyb

open Stateful

variable {T A : Type}

/-- What the slots counted as occupied hold, oldest first. -/
def State.contents (s : State T A) : List (Option T) :=
  (List.range s.this.count_).map fun i => (s.mem.slots (s.occupiedPtr i)).content

/-- A buffer that holds `q` and never overwrote since it was empty. -/
structure Queued (c : Nat) (s : State T A) (q : List T) : Prop where
  holds : Holds c s q
  flag : s.this.justOverwrote_ = false
  aligned : s.this.Aligned

namespace Queued

variable {c : Nat} {s s' : State T A} {q : List T} {v : T}

theorem created (pos : 0 < c) (a : A) : Queued c (State.created c a : State T A) [] := by
  refine ⟨Holds.created pos a, ?_, ?_⟩
  all_goals rw [created_eq pos]
  · rfl
  · exact (Nat.zero_mod _).symm

theorem contents_eq (h : Queued c s q) : s.contents = q.map some := by
  apply List.ext_getElem
  · simp [State.contents, h.holds.count]
  · intro i hi hi'
    have inside : i < q.length := by simpa using hi'
    have entry := congrArg Slot.content (h.holds.cell_entry inside)
    simpa [State.contents] using! entry

theorem insert (h : Queued c s q) (room : s.this.full_ = false) {inner : Update T}
    (inserted : inner.inserted = some v) : Queued c (final inner.perform s) (q ++ [v]) := by
  have cursors := RingBuffer.incrementTail_eq s.this room
  rw [final_of_run (run_insert_room h.holds.quiet v inserted room)]
  refine ⟨h.holds.appended room h.aligned v, ?_, h.aligned.incrementTail room⟩
  simp only [State.appended, cursors]

theorem popped (h : Queued c s (v :: q)) : Queued c s.popped q := by
  have cursors := RingBuffer.incrementHead_eq s.this
  have nonempty : s.this.count_ ≠ 0 := by simp [h.holds.count]
  refine ⟨h.holds.popped, ?_, h.aligned.incrementHead nonempty⟩
  simp only [State.popped, cursors]

theorem cleared (h : Queued c s q) : Queued c s.cleared [] := by
  refine ⟨h.holds.cleared, ?_, ?_⟩
  · simp only [State.cleared, State.mapThis_this, State.vacated_this]
    exact h.flag
  · simp only [State.cleared, State.mapThis_this, State.vacated_this]
    exact RingBuffer.Aligned.reset s.this

/-- Reading does not disturb it. -/
theorem of_same (h : Queued c s q) (this : s'.this = s.this) (slots : s'.mem.slots = s.mem.slots)
    (fuse : s'.mem.fuse = s.mem.fuse) : Queued c s' q where
  holds := h.holds.of_same this slots fuse
  flag := this ▸ h.flag
  aligned := this ▸ h.aligned

theorem asks_back (h : Queued c s q) (last : q.getLast? = some v) :
    reply Query.back.ask s = .ok (some v) := by
  obtain ⟨q', rfl⟩ := List.getLast?_eq_some_iff.mp last
  exact h.holds.asks_back (.inl ⟨h.flag, h.aligned⟩)

end Queued

namespace RingBufferThreadSafe

open Transitions

/-- The wrapper's accessors hand out what the buffer's reply shows. -/
theorem access_of_reply {query : Query} {s : State T A} {content : Option T}
    (answers : reply query.ask s = .ok content) :
    ∃ s', access query s = .leave (.element content) s' .silent := by
  unfold reply at answers
  unfold access
  cases run : query.ask.run s with
  | ok found s' =>
      rw [run] at answers
      cases answers
      exact ⟨s', rfl⟩
  | error e s' =>
      rw [run] at answers
      cases answers

/-! ## The history of a run -/

structure History (ι T : Type) where
  /-- Thread and element of every successful insertion, in lock order. -/
  accepted : List (ι × T)
  /-- Everything removed, by a pop or by `clear`. -/
  removed : List (Option T)

/-- What a call that returned took out of the buffer it found. -/
def removedBy (s : State T A) : Method T → Result T → List (Option T)
  | .popFront, .element content | .tryPopFront, .element content => [content]
  | .clear, .void => s.contents
  | _, _ => []

theorem removedBy_failed (s : State T A) (method : Method T) {result : Result T}
    (failed : result.failed = true) : removedBy s method result = [] := by
  cases method <;> cases result <;> first | rfl | cases failed

theorem removedBy_offered (s : State T A) {method : Method T} {v : T}
    (offered : method.offered = some v) (result : Result T) : removedBy s method result = [] := by
  cases method <;> cases offered <;> rfl

variable {ι : Type} [Fintype ι] [DecidableEq ι]

/-- Add what a step of the calls under the lock did. -/
def History.record (h : History ι T) (sys : System ι T A) (l : Label ι T) :
    Report T → History ι T
  | none => h
  | some (method, result) =>
      { accepted := h.accepted ++
          (if result.failed then none else method.offered).toList.map fun v => (l.thread, v)
        removed := h.removed ++ removedBy sys.buffer method result }

/-- Only calls from the given set are made. -/
def Calls (allowed : Method T → Bool) (_ : System ι T A) (l : Label ι T) : Prop :=
  (match l.action with
  | .call method => allowed method
  | _ => true) = true

instance (allowed : Method T → Bool) (sys : System ι T A) (l : Label ι T) :
    Decidable (Calls allowed sys l) := inferInstanceAs (Decidable (_ = true))

/-- The thread is in none but a basic call, and never past its lock. -/
def Phase.basic : Phase T → Bool
  | .idle => true
  | .asleep method | .woken method => method.basic
  | .unlocked _ | .notifying .. => false

theorem Phase.basic_wake (x : Phase T) : x.wake.basic = x.basic := by
  cases x <;> rfl

theorem Method.basic_locked {method : Method T} (basic : method.basic = true) :
    method.remainder = none := by
  cases method <;> first | rfl | cases basic

section Basic

variable {sys sys' : System ι T A} {l : Label ι T} {report : Report T}

omit [Fintype ι] [DecidableEq ι] in
theorem inside_basic (phases : ∀ k, (sys.phase k).basic = true) (calls : Calls Method.basic sys l)
    {method : Method T} (inside : sys.running l = some method) : method.basic = true := by
  rcases running_cases inside with ⟨_, action⟩ | ⟨phase, _⟩
  · rw [Calls, action] at calls
    exact calls
  · have basic := phases l.thread
    rw [phase] at basic
    exact basic

/-- Basic calls stay basic. -/
theorem basic_step (phases : ∀ k, (sys.phase k).basic = true) (calls : Calls Method.basic sys l)
    (turn : Turn sys l sys' report) : ∀ k, (sys'.phase k).basic = true := by
  have here := phases l.thread
  have becomes : ∀ x : Phase T, x.basic = true →
      ∀ k, (Function.update sys.phase l.thread x k).basic = true :=
    fun x basic => forall_update (P := fun x => x.basic = true) phases basic
  have left := becomes .idle rfl
  cases turn with
  | wakes method phase =>
      rw [phase] at here
      exact becomes (.woken method) here
  | waits method cv inside => exact becomes (.asleep method) (inside_basic phases calls inside)
  | unlocks method cv inside waitsOn met rest =>
      rw [Method.basic_locked (inside_basic phases calls inside)] at rest
      cases rest
  | passes => exact left
  | inserts method inner v result phase inside inserted offered room locked succeeds delivered =>
      exact fun k => (notifyOne_keeps Phase.basic_wake delivered k).trans (left k)
  | removes method phase inside pops nonempty delivered =>
      exact fun k => (notifyOne_keeps Phase.basic_wake delivered k).trans (left k)
  | clears => exact fun k => (notifyAll_keeps Phase.basic_wake k).trans (left k)
  | appends method inner v phase => rw [phase] at here; cases here
  | takes phase => rw [phase] at here; cases here
  | throws e phase => rw [phase] at here; cases here
  | notifies cv method result phase notifying => rw [notifying] at here; cases here

end Basic

omit [Fintype ι] [DecidableEq ι] in
/-- A new buffer has its cursors in range and throws nothing. -/
theorem counted_start {c : Nat} (pos : 0 < c) (a : A) :
    (System.start c a : System ι T A).buffer.this.Counted c ∧
      (System.start c a : System ι T A).buffer.mem.fuse = none := by
  have start : Holds c (State.created c a : State T A) [] := Holds.created pos a
  exact ⟨start.counted, start.quiet⟩

/-! ## Accepted, removed, present -/

structure Accounted (c : Nat) (sys : System ι T A) (history : History ι T) : Prop where
  phases : ∀ k, (sys.phase k).basic = true
  queue : ∃ q, Queued c sys.buffer q ∧
    history.accepted.map (fun entry => some entry.2) = history.removed ++ q.map some

namespace Accounted

variable {c : Nat} {sys sys' : System ι T A} {history : History ι T} {l : Label ι T}
  {report : Report T}

omit [Fintype ι] [DecidableEq ι] in
theorem start (pos : 0 < c) (a : A) :
    Accounted c (System.start c a : System ι T A) ⟨[], []⟩ where
  phases _ := rfl
  queue := ⟨[], Queued.created pos a, rfl⟩

/-- Step lemma: what one step accepts goes to the end of the queue and what it
    removes was at its front. -/
theorem step (h : Accounted c sys history) (calls : Calls Method.basic sys l)
    (turn : Turn sys l sys' report) : Accounted c sys' (history.record sys l report) := by
  obtain ⟨q, queued, balance⟩ := h.queue
  have phases := basic_step h.phases calls turn
  have here := h.phases l.thread
  refine ⟨phases, ?_⟩
  cases turn with
  | wakes | waits | unlocks => exact ⟨q, queued, balance⟩
  | passes method result s inside passes =>
      have failed := passes.basic (inside_basic h.phases calls inside)
      refine ⟨q, queued.of_same passes.this passes.slots passes.fuse, ?_⟩
      simpa [History.record, failed, removedBy_failed] using balance
  | inserts method inner v result phase inside inserted offered room locked succeeds =>
      refine ⟨q ++ [v], queued.insert room inserted, ?_⟩
      simp [History.record, succeeds, offered, removedBy_offered _ offered, balance]
  | removes method phase inside pops nonempty =>
      cases q with
      | nil => exact absurd queued.holds.count nonempty
      | cons x q =>
          have content : (sys.buffer.mem.slots sys.buffer.headPtr).content = some x :=
            congrArg Slot.content queued.holds.cell_head
          refine ⟨q, queued.popped, ?_⟩
          cases method <;> cases pops
          all_goals simp [History.record, Result.failed, Method.offered, removedBy, content, balance]
  | clears inside =>
      refine ⟨[], queued.cleared, ?_⟩
      simp [History.record, Result.failed, Method.offered, removedBy, queued.contents_eq, balance]
  | appends method inner v phase => rw [phase] at here; cases here
  | takes phase => rw [phase] at here; cases here
  | throws e phase => rw [phase] at here; cases here
  | notifies cv method result phase notifying => rw [notifying] at here; cases here

/-- Run lemma. -/
theorem of_reaches (pos : 0 < c) (a : A)
    (reached : Reaches (observed System.step History.record)
      (fun s l => Calls Method.basic s.1 l) (System.start c a, ⟨[], []⟩) (sys, history)) :
    Accounted c sys history := by
  refine reached.invariant (I := fun s => Accounted c s.1 s.2) (start pos a) ?_
  intro s l s' r h calls stepped
  obtain ⟨ran, recorded⟩ := observed_some.mp stepped
  obtain ⟨q, queued, -⟩ := h.queue
  rw [recorded]
  exact h.step calls (turn_of_step queued.holds.quiet ran)

end Accounted

/-- A call that fails leaves the buffer exactly as it was. -/
theorem unchanged_of_failed {sys sys' : System ι T A} {l : Label ι T} {method : Method T}
    {result : Result T} (turn : Turn sys l sys' (some (method, result)))
    (failed : result.failed = true) : sys'.buffer = sys.buffer := by
  cases turn with
  | passes _ _ s inside passes => exact passes.failed failed
  | inserts _ inner v _ phase inside inserted offered room locked succeeds =>
      rw [succeeds] at failed
      cases failed
  | removes => cases failed
  | clears => cases failed
  | throws => rfl
  | notifies => rfl

omit [Fintype ι] in
/-- What has left of each producer is the first of what it pushed. -/
theorem removed_of_producer {accepted : List (ι × T)} {removed : List (Option T)} {q : List T}
    (balance : accepted.map (fun entry => some entry.2) = removed ++ q.map some) (owner : T → ι)
    (owned : ∀ entry ∈ accepted, owner entry.2 = entry.1) (i : ι) :
    removed.filter (fun x => x.map owner = some i) <+:
      (accepted.filter fun entry => entry.1 = i).map fun entry => some entry.2 := by
  have begins : removed <+: accepted.map fun entry => some entry.2 := ⟨q.map some, balance.symm⟩
  have sorted : (accepted.map fun entry => some entry.2).filter (fun x => x.map owner = some i) =
      (accepted.filter fun entry => entry.1 = i).map fun entry => some entry.2 := by
    rw [List.filter_map]
    congr 1
    apply List.filter_congr
    intro entry member
    simp [owned entry member]
  rw [← sorted]
  exact begins.filter _

/-- Any threads, any schedule of the calls that do everything under the lock: the
    accepted elements are the removed ones followed by the present ones, and where
    elements tell their producer, those of each leave in the order it pushed them. -/
theorem accepted_eq_removed_append_present {c : Nat} (pos : 0 < c) (a : A)
    (sys : System ι T A) (history : History ι T)
    (reached : Reaches (observed System.step History.record)
      (fun s l => Calls Method.basic s.1 l) (System.start c a, ⟨[], []⟩) (sys, history)) :
    ∃ q : List T,
      history.accepted.map (fun entry => some entry.2) = history.removed ++ q.map some ∧
      sys.buffer.contents = q.map some ∧ Observes c sys.buffer q ∧ q.length ≤ c ∧
      (∀ v, q.getLast? = some v → reply Query.back.ask sys.buffer = .ok (some v)) ∧
      (∀ v, q.head? = some v → ∃ s', front sys.buffer = .leave (.element (some v)) s' .silent) ∧
      (∀ v, q.getLast? = some v → ∃ s', back sys.buffer = .leave (.element (some v)) s' .silent) ∧
      (∀ owner : T → ι, (∀ entry ∈ history.accepted, owner entry.2 = entry.1) → ∀ i,
        history.removed.filter (fun x => x.map owner = some i) <+:
          (history.accepted.filter fun entry => entry.1 = i).map fun entry => some entry.2) ∧
      (∀ l sys' method result, sys.step l = some (sys', some (method, result)) →
        result.failed = true → sys'.buffer = sys.buffer) := by
  obtain ⟨q, queued, balance⟩ := (Accounted.of_reaches pos a reached).queue
  have seen := queued.holds.observes
  refine ⟨q, balance, queued.contents_eq, seen, ?_, fun v => queued.asks_back, ?_, ?_,
    removed_of_producer balance, ?_⟩
  · simpa using queued.holds.laid.fits
  · exact fun v first => access_of_reply (seen.front v first)
  · exact fun v last => access_of_reply (queued.asks_back last)
  · intro l sys' method result stepped
    exact unchanged_of_failed (turn_of_step queued.holds.quiet stepped)

/-- Capacity 1: the second push sleeps until the first element has been popped. -/
theorem accepted_eq_removed_append_present_two :
    ∃ (sys : System (Fin 2) Nat Unit) (history : History (Fin 2) Nat) (q : List Nat),
      history.accepted = [(0, 7), (1, 8)] ∧ history.removed = [some 7] ∧
      history.accepted.map (fun entry => some entry.2) = history.removed ++ q.map some ∧
      Observes 1 sys.buffer q := by
  let schedule : List (Label (Fin 2) Nat) :=
    [⟨0, .call (.pushBack 7), none⟩, ⟨1, .call (.emplaceBack 8), none⟩,
      ⟨0, .call (.tryPushBack 9), none⟩, ⟨0, .call .popFront, some 1⟩, ⟨1, .recheck false, none⟩]
  have ran : (exec (observed System.step History.record) (fun s l => Calls Method.basic s.1 l)
      (System.start 1 (), ⟨[], []⟩) schedule).map (fun s => (s.2.accepted, s.2.removed)) =
        some ([(0, 7), (1, 8)], [some 7]) := by decide +kernel
  obtain ⟨⟨sys, history⟩, ran, recorded⟩ := Option.map_eq_some_iff.mp ran
  obtain ⟨q, balance, -, seen, -⟩ :=
    accepted_eq_removed_append_present (by decide) () sys history (Reaches.of_exec ran)
  exact ⟨sys, history, q, congrArg Prod.fst recorded, congrArg Prod.snd recorded, balance, seen⟩

end RingBufferThreadSafe

end Dkyb
