import RingBuffer.Frame
import RingBuffer.Lib.Bisimulation
import RingBuffer.Refinement

/-! # `clear()` against a new buffer

`clear()` leaves the overwrite flag, the overwrite position and, when the buffer
had gone astray, some slots as they were. A new buffer fills its slots in order
before it overwrites for the first time, and no read goes past the filled ones,
so what was left behind never shows.
-/

namespace Dkyb

open Stateful

variable {T A : Type}

/-- Everything a client can call on one buffer. -/
inductive Request (T : Type) where
  | call (call : Call T)
  | size
  | full
  | empty
  | available
  | traverse (fuel : Nat)
  deriving DecidableEq, Repr

inductive Outcome (T : Type) where
  | reply (reply : Reply T)
  | number (n : Nat)
  | truth (b : Bool)
  | contents (items : Option (List (Option T)))
  deriving DecidableEq, Repr

def Request.perform : Request T → Op T A (Outcome T)
  | .call c => .reply <$> c.perform
  | .size => (fun s => .number s.this.size) <$> get
  | .full => (fun s => .truth s.this.full) <$> get
  | .empty => (fun s => .truth s.this.empty) <$> get
  | .available => (fun s => .number s.this.available) <$> get
  | .traverse fuel => .contents <$> RingBuffer.traverse fuel

namespace RingBuffer

/-- All cursors but the bookkeeping of `back()` are the same. -/
structure InStep (c : Nat) (rb rb' : RingBuffer A) : Prop where
  counted : Counted c rb
  storage : rb'.storage = rb.storage
  head : rb'.head_ = rb.head_
  tail : rb'.tail_ = rb.tail_
  count : rb'.count_ = rb.count_
  full : rb'.full_ = rb.full_

namespace InStep

variable {c : Nat} {rb rb' : RingBuffer A}

theorem capacity (h : InStep c rb rb') : rb'.capacity_ = rb.capacity_ :=
  congrArg (fun owned => owned.2.1) h.storage

theorem incrementTail (h : InStep c rb rb') (notFull : rb.full_ = false) :
    InStep c rb.incrementTail rb'.incrementTail where
  counted := h.counted.incrementTail notFull
  storage := by rw [storage_incrementTail, storage_incrementTail, h.storage]
  head := by
    rw [incrementTail_eq rb notFull, incrementTail_eq rb' (h.full.trans notFull)]
    exact h.head
  tail := by
    rw [incrementTail_eq rb notFull, incrementTail_eq rb' (h.full.trans notFull)]
    simp only [h.tail, h.capacity]
  count := by
    rw [incrementTail_eq rb notFull, incrementTail_eq rb' (h.full.trans notFull)]
    simp only [h.count]
  full := by
    rw [incrementTail_eq rb notFull, incrementTail_eq rb' (h.full.trans notFull)]
    simp only [h.count, h.capacity]

theorem overwriteAdvanceHead (h : InStep c rb rb') :
    InStep c rb.overwriteAdvanceHead rb'.overwriteAdvanceHead where
  counted := h.counted.overwriteAdvanceHead
  storage := h.storage
  head := by simp only [overwriteAdvanceHead_eq, h.head, h.capacity]
  tail := h.tail
  count := h.count
  full := h.full

theorem incrementHead (h : InStep c rb rb') (nonempty : rb.count_ ≠ 0) :
    InStep c rb.incrementHead rb'.incrementHead where
  counted := h.counted.incrementHead nonempty
  storage := by rw [storage_incrementHead, storage_incrementHead, h.storage]
  head := by simp only [incrementHead_eq, h.head, h.capacity]
  tail := by simp only [incrementHead_eq, h.tail]
  count := by simp only [incrementHead_eq, h.count]
  full := by simp only [incrementHead_eq]

theorem reset (h : InStep c rb rb') : InStep c rb.reset rb'.reset where
  counted := h.counted.reset
  storage := h.storage
  head := rfl
  tail := rfl
  count := rfl
  full := rfl

end InStep

end RingBuffer

/-- The first `n` slots read the same, and these are all of them unless neither
    buffer has come round to slot 0 yet. -/
def FilledAlike (c : Nat) (s t : State T A) : Prop :=
  ∃ n ≤ c, (∀ k < n, (t.cell k).content = (s.cell k).content) ∧
    (n = c ∨ s.this.head_ + s.this.count_ = n ∧ s.this.tail_ = n)

/-- The two states differ at most in what no call can reach. -/
structure Alike (c : Nat) (s t : State T A) : Prop where
  cursors : s.this.InStep c t.this
  filled : FilledAlike c s t
  back : s.this.count_ ≠ 0 → t.this.backIndex = s.this.backIndex ∧
    (t.cell s.this.backIndex).content = (s.cell s.this.backIndex).content
  quiet : s.mem.fuse = none
  quiet' : t.mem.fuse = none

namespace FilledAlike

variable {c : Nat} {s t : State T A}

/-- A full buffer has come round. -/
theorem whole (h : FilledAlike c s t) (full : s.this.count_ = c) {k : Nat} (inside : k < c) :
    (t.cell k).content = (s.cell k).content := by
  obtain ⟨n, bound, same, reached⟩ := h
  exact same k (by omega)

theorem occupied (h : FilledAlike c s t) (counted : s.this.Counted c) {i : Nat}
    (inside : i < s.this.count_) :
    (t.cell ((s.this.head_ + i) % c)).content = (s.cell ((s.this.head_ + i) % c)).content := by
  obtain ⟨n, bound, same, whole | ⟨ends, -⟩⟩ := h
  · apply same
    rw [whole]
    exact Nat.mod_lt _ counted.pos
  · rw [Nat.mod_eq_of_lt (by omega)]
    exact same _ (by omega)

/-- The slot before `tail_` is one of those that read the same. -/
theorem beforeTail (h : FilledAlike c s t) (counted : s.this.Counted c)
    (nonempty : s.this.count_ ≠ 0) :
    (t.cell (s.this.decrementIndex s.this.tail_)).content =
      (s.cell (s.this.decrementIndex s.this.tail_)).content := by
  have tail := counted.tail
  obtain ⟨n, bound, same, reached⟩ := h
  apply same
  unfold RingBuffer.decrementIndex
  rw [counted.capacity]
  split <;> omega

end FilledAlike

namespace Alike

variable {c : Nat} {s t s' t' : State T A}

theorem head (h : Alike c s t) (nonempty : s.this.count_ ≠ 0) :
    (t.cell t.this.head_).content = (s.cell s.this.head_).content := by
  have counted := h.cursors.counted
  have first := h.filled.occupied counted (Nat.pos_of_ne_zero nonempty)
  rw [Cyclic.position_zero counted.head] at first
  rwa [h.cursors.head]

theorem nonempty (h : Alike c s t) (nonempty : s.this.count_ ≠ 0) : t.this.count_ ≠ 0 := by
  rwa [h.cursors.count]

/-- With both flags off `back()` goes to the slot before `tail_`. -/
theorem of_unflagged (cursors : s.this.InStep c t.this) (filled : FilledAlike c s t)
    (flag : s.this.justOverwrote_ = false) (flag' : t.this.justOverwrote_ = false)
    (quiet : s.mem.fuse = none) (quiet' : t.mem.fuse = none) : Alike c s t where
  cursors := cursors
  filled := filled
  back nonempty := by
    have before := filled.beforeTail cursors.counted nonempty
    simp only [RingBuffer.backIndex, flag, flag', RingBuffer.decrementIndex, cursors.tail,
      cursors.capacity, Bool.false_eq_true, if_false, true_and] at before ⊢
    exact before
  quiet := quiet
  quiet' := quiet'

theorem content_update {f g : Nat → Slot T} {x y : Slot T} {k : Nat} (j : Nat)
    (same : k ≠ j → (f k).content = (g k).content) (content : x.content = y.content) :
    (Function.update f j x k).content = (Function.update g j y k).content := by
  by_cases here : k = j
  · subst here
    simp only [Function.update_self, content]
  · simp only [Function.update_of_ne here]
    exact same here

/-! ## Updates -/

theorem appended (h : Alike c s t) (notFull : s.this.full_ = false) (v : T) :
    Alike c (s.appended v) (t.appended v) := by
  have counted := h.cursors.counted
  have cursors := RingBuffer.incrementTail_eq s.this notFull
  have cursors' := RingBuffer.incrementTail_eq t.this (h.cursors.full.trans notFull)
  refine of_unflagged (h.cursors.incrementTail notFull) ?_ (by simp only [State.appended, cursors])
    (by simp only [State.appended, cursors']) h.quiet h.quiet'
  have tail := counted.tail
  obtain ⟨n, bound, same, reached⟩ := h.filled
  have written : ∀ k, (k ≠ s.this.tail_ → k < n) →
      ((t.appended v).cell k).content = ((s.appended v).cell k).content := by
    intro k older
    rw [State.appended_cell, State.appended_cell, h.cursors.tail]
    exact content_update _ (fun apart => same k (older apart)) rfl
  rcases reached with rfl | ⟨ends, atTail⟩
  · exact ⟨n, Nat.le_refl n, fun k inside => written k fun _ => inside, .inl rfl⟩
  · refine ⟨n + 1, by omega, fun k inside => written k fun apart => by omega, ?_⟩
    by_cases round : n + 1 = c
    · exact .inl round
    · simp only [State.appended, cursors, counted.capacity, atTail]
      exact .inr ⟨by omega, Nat.mod_eq_of_lt (by omega)⟩

/-- Both overwrites, in whichever way, put the same value into the head's slot. -/
theorem overwritten (h : Alike c s t) (full : s.this.full_ = true) {x y : Slot T}
    (content : y.content = x.content)
    (this : s'.this = s.this.overwriteAdvanceHead) (this' : t'.this = t.this.overwriteAdvanceHead)
    (cell : s'.cell = Function.update s.cell s.this.head_ x)
    (cell' : t'.cell = Function.update t.cell t.this.head_ y)
    (quiet : s'.mem.fuse = none) (quiet' : t'.mem.fuse = none) : Alike c s' t' := by
  have same : ∀ k < c, (t'.cell k).content = (s'.cell k).content := by
    intro k inside
    rw [cell, cell', h.cursors.head]
    exact content_update _ (fun _ => h.filled.whole (h.cursors.counted.full_iff.mp full) inside) content
  have position : s'.this.backIndex = s.this.head_ := by rw [this]; rfl
  have position' : t'.this.backIndex = t.this.head_ := by rw [this']; rfl
  exact {
    cursors := by
      rw [this, this']
      exact h.cursors.overwriteAdvanceHead
    filled := ⟨c, Nat.le_refl c, same, .inl rfl⟩
    back := fun _ => ⟨by rw [position, position', h.cursors.head], by
      rw [position]
      exact same _ h.cursors.counted.head⟩
    quiet := quiet
    quiet' := quiet' }

theorem popped (h : Alike c s t) (nonempty : s.this.count_ ≠ 0) : Alike c s.popped t.popped := by
  have counted := h.cursors.counted
  have cursors := RingBuffer.incrementHead_eq s.this
  have cursors' := RingBuffer.incrementHead_eq t.this
  refine of_unflagged (h.cursors.incrementHead nonempty) ?_ (by simp only [State.popped, cursors])
    (by simp only [State.popped, cursors']) h.quiet h.quiet'
  have tail := counted.tail
  obtain ⟨n, bound, same, reached⟩ := h.filled
  have kept : ∀ k < n, (t.popped.cell k).content = (s.popped.cell k).content := by
    intro k inside
    rw [State.popped_cell, State.popped_cell, h.cursors.head]
    exact content_update _ (fun _ => same k inside) rfl
  refine ⟨n, bound, kept, ?_⟩
  rcases reached with whole | ⟨ends, atTail⟩
  · exact .inl whole
  · simp only [State.popped, cursors, counted.capacity]
    exact .inr ⟨by rw [Nat.mod_eq_of_lt (by omega)]; omega, atTail⟩

theorem cleared (h : Alike c s t) : Alike c s.cleared t.cleared where
  cursors := by
    simp only [State.cleared, State.mapThis_this, State.vacated_this]
    exact h.cursors.reset
  filled := ⟨0, Nat.zero_le c, fun _ inside => absurd inside (Nat.not_lt_zero _), .inr ⟨rfl, rfl⟩⟩
  back := fun nonempty => absurd rfl nonempty
  quiet := (Frame.cleared s).fuse.trans h.quiet
  quiet' := (Frame.cleared t).fuse.trans h.quiet'

theorem emit (h : Alike c s t) (e e' : Event A) :
    Alike c (s.mapMem (Memory.emit e)) (t.mapMem (Memory.emit e')) :=
  ⟨h.cursors, h.filled, h.back, h.quiet, h.quiet'⟩

theorem looked (h : Alike c s t) (p p' : Ptr) : Alike c (s.looked p) (t.looked p') :=
  (h.emit _ _).emit _ _

/-! ## Calls -/

theorem update (call : Update T) :
    Bisimilar (Alike c) (call.perform : Op T A (Reply T)) call.perform := by
  intro s t h
  have insert : ∀ v, call.inserted = some v →
      EndAlike (Alike c) (call.perform.run s) (call.perform.run t) := by
    intro v inserted
    cases full : s.this.full_ with
    | false =>
        rw [run_insert_room h.quiet v inserted full,
          run_insert_room h.quiet' v inserted (h.cursors.full.trans full)]
        exact ⟨rfl, h.appended full v⟩
    | true =>
        have overwrites : ∀ {u : State T A}, u.mem.fuse = none → u.this.full_ = true →
            ∃ u' x, call.perform.run u = .ok .done u' ∧ u'.this = u.this.overwriteAdvanceHead ∧
              u'.cell = Function.update u.cell u.this.head_ x ∧ x.content = some v ∧
              u'.mem.fuse = none := by
          intro u quiet full
          rcases run_insert_full quiet v inserted full with run | run
          · exact ⟨_, _, run, rfl, u.overwritten_cell v, rfl, quiet⟩
          · exact ⟨_, _, run, rfl, u.replaced_cell v, rfl, quiet⟩
        obtain ⟨s', x, run, this, cell, content, quiet⟩ := overwrites h.quiet full
        obtain ⟨t', y, run', this', cell', content', quiet'⟩ :=
          overwrites h.quiet' (h.cursors.full.trans full)
        rw [run, run']
        exact ⟨rfl, h.overwritten full (content'.trans content.symm) this this' cell cell' quiet
          quiet'⟩
  cases call with
  | pushBack v | pushBackMove v | emplaceBack v => exact insert v rfl
  | popFront =>
      by_cases empty : s.this.count_ = 0
      · rw [run_perform_popFront_empty empty,
          run_perform_popFront_empty (h.cursors.count.trans empty)]
        exact ⟨rfl, h⟩
      · rw [run_perform_popFront h.quiet empty, run_perform_popFront h.quiet' (h.nonempty empty)]
        exact ⟨congrArg Reply.content (h.head empty).symm, h.popped empty⟩
  | clear =>
      rw [run_perform_clear, run_perform_clear]
      exact ⟨rfl, h.cleared⟩

theorem ask (query : Query) : Bisimilar (Alike c) (query.ask : Op T A (Option T)) query.ask := by
  intro s t h
  by_cases empty : s.this.count_ = 0
  · rw [run_ask_empty empty, run_ask_empty (h.cursors.count.trans empty), h.cursors.capacity]
    exact ⟨rfl, h⟩
  · cases query with
    | front =>
        rw [run_ask_front empty, run_ask_front (h.nonempty empty)]
        exact ⟨(h.head empty).symm, h.looked _ _⟩
    | back =>
        obtain ⟨position, content⟩ := h.back empty
        rw [run_ask_back empty, run_ask_back (h.nonempty empty), position]
        exact ⟨content.symm, h.looked _ _⟩
    | index i =>
        by_cases inside : i < s.this.count_
        · have same := h.filled.occupied h.cursors.counted inside
          rw [run_ask_index inside, run_ask_index (by rwa [h.cursors.count])]
          refine ⟨?_, (h.emit _ _).looked _ _⟩
          rw [← h.cursors.counted.capacity] at same
          simp only [State.occupiedPtr, h.cursors.head, h.cursors.capacity]
          exact same.symm
        · rw [run_ask_outside (Nat.not_lt.mp inside),
            run_ask_outside (by rw [h.cursors.count]; exact Nat.not_lt.mp inside),
            h.cursors.capacity]
          exact ⟨rfl, h⟩

/-- The loop of a range-for: each round compares the iterators and asks once. -/
theorem visit (fuel : Nat) (it last : RingBuffer.Iterator) :
    Bisimilar (Alike c) (RingBuffer.visit fuel it last : Op T A _) (RingBuffer.visit fuel it last) := by
  induction fuel generalizing it with
  | zero => exact .pure none
  | succ fuel ih =>
      unfold RingBuffer.visit
      split
      · exact .pure (some [])
      · have asked : Bisimilar (Alike c) (it.dereference >>= read : Op T A _)
            (it.dereference >>= read) := ask (.index it.index_)
        have round := asked.bind fun content =>
          (ih it.increment).bind fun rest => .pure (rest.map (content :: ·))
        simpa only [bind_assoc] using round

theorem traverse (fuel : Nat) :
    Bisimilar (Alike c) (RingBuffer.traverse fuel : Op T A _) (RingBuffer.traverse fuel) := by
  have first : Bisimilar (Alike c) (RingBuffer.begin : Op T A _) RingBuffer.begin :=
    .observe fun s t h => by rw [RingBuffer.size, RingBuffer.size, h.cursors.count]
  have last : Bisimilar (Alike c) (RingBuffer.end_ : Op T A _) RingBuffer.end_ :=
    .observe fun s t h => by rw [RingBuffer.size, RingBuffer.size, h.cursors.count]
  exact first.bind fun it => last.bind fun it' => visit fuel it it'

theorem request (request : Request T) :
    Bisimilar (Alike c) (request.perform : Op T A (Outcome T)) request.perform := by
  cases request with
  | call call =>
      apply Bisimilar.map
      cases call with
      | update call => exact update call
      | query call => exact (ask call).bind fun content => .pure (Reply.content content)
  | size => exact .observe fun s t h => by rw [RingBuffer.size, RingBuffer.size, h.cursors.count]
  | full => exact .observe fun s t h => by rw [RingBuffer.full, RingBuffer.full, h.cursors.full]
  | empty => exact .observe fun s t h => by rw [RingBuffer.empty, RingBuffer.empty, h.cursors.count]
  | available =>
      refine .observe fun s t h => ?_
      simp only [RingBuffer.available, h.cursors.full, h.cursors.capacity, h.cursors.count]
  | traverse fuel => exact (traverse fuel).map Outcome.contents

/-- A cleared buffer and a new one with the same block. -/
theorem of_cleared (counted : s.this.Counted c) (quiet : s.mem.fuse = none)
    (fresh : t.this.Counted c) (storage : t.this.storage = s.this.storage)
    (empty : t.this.count_ = 0) (head : t.this.head_ = 0) (tail : t.this.tail_ = 0)
    (quiet' : t.mem.fuse = none) : Alike c s.cleared t where
  cursors := {
    counted := by
      simp only [State.cleared, State.mapThis_this, State.vacated_this]
      exact counted.reset
    storage := storage.trans (Frame.cleared s).storage.symm
    head := head
    tail := tail
    count := empty
    full := by
      have pos := counted.pos
      rw [fresh.full, empty]
      exact beq_eq_false_iff_ne.mpr (Nat.ne_of_lt pos) }
  filled := ⟨0, Nat.zero_le c, fun _ inside => absurd inside (Nat.not_lt_zero _), .inr ⟨rfl, rfl⟩⟩
  back := fun nonempty => absurd rfl nonempty
  quiet := (Frame.cleared s).fuse.trans quiet
  quiet' := quiet'

end Alike

/-- After any calls on a new buffer, `clear()` leaves one that answers every
    further sequence of requests as the new buffer did. -/
theorem cleared_replies_as_created {c : Nat} (pos : 0 < c) (a : A) (updates : List (Update T))
    (requests : List (Request T)) :
    replies Request.perform
        (final RingBuffer.clear ((State.created c a : State T A).after updates)) requests =
      replies Request.perform (State.created c a) requests := by
  have start : Holds c (State.created c a : State T A) [] := .created pos a
  have frame := Frame.after start.quiet updates
  have counted := start.counted.after start.quiet updates
  rw [final_of_run (run_clear _)]
  have alike : Alike c ((State.created c a : State T A).after updates).cleared (State.created c a) :=
    .of_cleared counted (frame.fuse.trans start.quiet) start.counted frame.storage.symm start.count
      (by rw [created_eq pos]; rfl) (by rw [created_eq pos]; rfl) start.quiet
  exact Bisimilar.replies_eq Alike.request alike requests

theorem cleared_replies_as_created_two :
    let s := (State.created 2 () : State Nat Unit).after [.pushBack 1, .pushBack 2, .emplaceBack 3]
    let requests : List (Request Nat) := [.call (.query .back), .call (.update (.pushBack 7)),
      .call (.query .back), .traverse 5, .available]
    replies Request.perform (final RingBuffer.clear s) requests =
      replies Request.perform (State.created 2 ()) requests :=
  cleared_replies_as_created (by decide) () _ _

end Dkyb
