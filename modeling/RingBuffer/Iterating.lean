import RingBuffer.Clearing
import RingBuffer.Drift

/-! # Loops that change the buffer they run over

The end of a range-for is taken once, before the first round, and an iterator is no
more than a position. So whatever the body calls, the loop makes as many rounds as
there were elements, shows what is at its position by then, and throws when there is
nothing any more.
-/

namespace Dkyb

open Stateful DropOldest

variable {T A : Type}

namespace RingBuffer

/-- `visit`, with the calls the body makes in each round; the body catches what they
    throw. -/
def visitWith (body : Nat → List (Update T)) : Nat → Iterator → Iterator →
    Op T A (Option (List (Option T)))
  | 0, _, _ => return none
  | fuel + 1, it, last => do
      if it.equal last then
        return some []
      let content ← read (← it.dereference)
      modify (State.after · (body it.index_))
      return (← visitWith body fuel it.increment last).map (content :: ·)

/-- `for (auto const& item : buffer)`, with a body that calls the buffer. -/
def forEach (body : Nat → List (Update T)) (fuel : Nat) : Op T A (Option (List (Option T))) := do
  let first ← begin
  let last ← end_
  visitWith body fuel first last

end RingBuffer

/-- The calls of the first `i` rounds. -/
def rounds (body : Nat → List (Update T)) (i : Nat) : List (Update T) :=
  (List.range i).flatMap body

section Loops

variable {c : Nat} {s t : State T A} {body : Nat → List (Update T)}

theorem rounds_succ (body : Nat → List (Update T)) (i : Nat) :
    rounds body (i + 1) = rounds body i ++ body i := by
  simp only [rounds, List.range_succ, List.flatMap_append, List.flatMap_singleton]

theorem Alike.of_same {s' : State T A} (h : Alike c s t) (this : s'.this = s.this)
    (slots : s'.mem.slots = s.mem.slots) (fuse : s'.mem.fuse = s.mem.fuse) : Alike c s' t := by
  have cell : s'.cell = s.cell := by
    funext k
    simp only [State.cell, this, slots]
  have filled := h.filled
  have back := h.back
  refine ⟨this ▸ h.cursors, ?_, ?_, fuse.trans h.quiet, h.quiet'⟩
  · unfold FilledAlike at filled ⊢
    rwa [this, cell]
  · rwa [this, cell]

/-- A read leaves a state nobody can tell from the one before. -/
theorem Alike.asked {s' : State T A} {query : Query} {content : Option T} (h : Alike c s t)
    (run : query.ask.run s = .ok content s') : Alike c s' t := by
  have keeps := ask_keeps query s
  rw [run] at keeps
  exact h.of_same keeps.1 keeps.2.1 keeps.2.2

theorem Alike.after (h : Alike c s t) (updates : List (Update T)) :
    Alike c (s.after updates) (t.after updates) := by
  induction updates generalizing s t with
  | nil => exact h
  | cons call updates ih => exact ih ((Alike.update call).final_related h)

theorem Alike.refl (counted : s.this.Counted c) (quiet : s.mem.fuse = none) : Alike c s s where
  cursors := ⟨counted, rfl, rfl, rfl, rfl, rfl⟩
  filled := ⟨c, Nat.le_refl c, fun _ _ => rfl, .inl rfl⟩
  back _ := ⟨rfl, rfl⟩
  quiet := quiet
  quiet' := quiet

theorem visitWith_succ (fuel : Nat) (it last : RingBuffer.Iterator) :
    (RingBuffer.visitWith body (fuel + 1) it last : Op T A _) =
      if it.equal last then return some []
      else (Query.index it.index_).ask >>= fun content => do
        modify (State.after · (body it.index_))
        return (← RingBuffer.visitWith body fuel it.increment last).map (content :: ·) := by
  rw [RingBuffer.visitWith]
  split
  · rfl
  · simp only [Query.ask, Query.locate, bind_assoc, RingBuffer.Iterator.dereference]

/-- By induction on the rounds that are left; `t` is the state without the reads. -/
theorem reply_visitWith (fuel n : Nat) : ∀ {s : State T A} {i}, Alike c s (t.after (rounds body i)) →
    i ≤ n → n - i < fuel → ∀ m k, reply (RingBuffer.visitWith body fuel ⟨i, m⟩ ⟨n, k⟩) s =
      ((List.range' i (n - i)).mapM fun j =>
        reply (Query.index j).ask (t.after (rounds body j))).map some := by
  induction fuel with
  | zero => exact fun _ _ short => absurd short (Nat.not_lt_zero _)
  | succ fuel ih =>
      intro s i alike inside enough m k
      rw [visitWith_succ]
      by_cases last : i = n
      · subst last
        rw [if_pos (by simp [RingBuffer.Iterator.equal]), Nat.sub_self]
        rfl
      · rw [if_neg (by simpa [RingBuffer.Iterator.equal] using last),
          show n - i = n - (i + 1) + 1 by omega, List.range'_succ, List.mapM_cons,
          ← (Alike.ask (.index i)).reply_eq alike]
        cases run : (Query.index i).ask.run s with
        | error e s' =>
            rw [reply_of_error run]
            unfold reply
            simp only [EStateM.run_bind, run]
            rfl
        | ok content s' =>
            have next := (alike.asked run).after (body i)
            rw [← State.after_append, ← rounds_succ] at next
            have rest := ih next (by omega) (by omega) m k
            rw [reply_of_run run]
            generalize (List.range' (i + 1) (n - (i + 1))).mapM (fun j =>
              reply (Query.index j).ask (t.after (rounds body j))) = items at rest
            have steps : reply ((Query.index i).ask >>= fun content => do
                modify (State.after · (body i))
                return (← RingBuffer.visitWith body fuel ⟨i + 1, m⟩ ⟨n, k⟩).map (content :: ·)) s =
                (reply (RingBuffer.visitWith body fuel ⟨i + 1, m⟩ ⟨n, k⟩)
                  (s'.after (body i))).map fun seen => seen.map (content :: ·) := by
              simp only [reply, EStateM.run_bind, run, EStateM.run_modify]
              cases (RingBuffer.visitWith body fuel ⟨i + 1, m⟩ ⟨n, k⟩).run (s'.after (body i)) <;> rfl
            refine steps.trans ?_
            rw [rest]
            cases items <;> rfl

theorem reply_forEach (counted : s.this.Counted c) (quiet : s.mem.fuse = none)
    (body : Nat → List (Update T)) {fuel : Nat} (enough : s.this.size < fuel) :
    reply (RingBuffer.forEach body fuel) s = ((List.range s.this.size).mapM fun i =>
        reply (Query.index i).ask (s.after (rounds body i))).map some := by
  have still : Alike c s (s.after (rounds body 0)) := Alike.refl counted quiet
  have looped := reply_visitWith fuel s.this.size still (Nat.zero_le _) enough s.this.size s.this.size
  rwa [Nat.sub_zero, ← List.range_eq_range'] at looped

theorem mapM_returns_iff {α β ε : Type} (f : α → Except ε β) (xs : List α) :
    (∃ ys, xs.mapM f = .ok ys) ↔ ∀ x ∈ xs, ∃ y, f x = .ok y := by
  induction xs with
  | nil => exact iff_of_true ⟨[], rfl⟩ nofun
  | cons x xs ih =>
      rw [List.forall_mem_cons, ← ih, List.mapM_cons]
      cases f x with
      | error e => exact iff_of_false nofun nofun
      | ok y => cases xs.mapM f with
        | error e => exact iff_of_false nofun nofun
        | ok ys => exact iff_of_true ⟨y :: ys, rfl⟩ ⟨⟨y, rfl⟩, ys, rfl⟩

theorem asks_index_iff (s : State T A) (i : Nat) :
    (∃ content, reply (Query.index i).ask s = .ok content) ↔ i < s.this.count_ := by
  constructor
  · rintro ⟨content, shown⟩
    by_contra outside
    rw [reply_of_error (run_ask_outside (Nat.not_lt.mp outside))] at shown
    cases shown
  · exact fun inside => ⟨_, reply_ask_index inside⟩

/-- After any run, a range-for whose body makes any calls, and catches what they throw,
    ends after at most as many rounds as there were elements: round `i` shows what
    `operator[]` shows for `i` after the calls of the rounds before, and the loop throws in
    the first round in which that throws. None does exactly when the calls made by round `i`, counted on their own,
    leave more than `i` elements. -/
theorem range_for_shows_rounds (pos : 0 < c) (a : A) (updates : List (Update T))
    (body : Nat → List (Update T)) {fuel : Nat}
    (enough : ((State.created c a : State T A).after updates).this.size < fuel) :
    let s := (State.created c a : State T A).after updates
    reply (RingBuffer.forEach body fuel) s =
        ((List.range s.this.size).mapM fun i =>
          reply (Query.index i).ask (s.after (rounds body i))).map some ∧
      ((∃ items, reply (RingBuffer.forEach body fuel) s = .ok (some items)) ↔
        ∀ i < s.this.size, i < ((updates ++ rounds body i).foldl
          (fun d update => d.step c update.command) Drops.initial).held) := by
  intro s
  have start : (State.created c a : State T A).mem.fuse = none := (Holds.created pos a).quiet
  have follows : ∀ more, (s.after more).this.Follows c ((updates ++ more).foldl
      (fun d update => d.step c update.command) Drops.initial) := by
    intro more
    rw [← State.after_append, State.after_this start]
    exact (follows_created pos a).foldl_moves _
  have counted : s.this.Counted c := (follows []).counted
  have quiet : s.mem.fuse = none := (Frame.after start updates).fuse.trans start
  have looped := reply_forEach counted quiet body enough
  refine ⟨looped, ?_⟩
  rw [looped]
  have returns : (∃ items, ((List.range s.this.size).mapM fun i =>
      reply (Query.index i).ask (s.after (rounds body i))).map some = .ok (some items)) ↔
      ∃ items, ((List.range s.this.size).mapM fun i =>
        reply (Query.index i).ask (s.after (rounds body i))) = .ok items := by
    generalize ((List.range s.this.size).mapM fun i =>
      reply (Query.index i).ask (s.after (rounds body i))) = shown
    cases shown <;> simp [Except.map]
  rw [returns, mapM_returns_iff]
  constructor
  · intro all i inside
    have shown := (asks_index_iff _ i).mp (all i (List.mem_range.mpr inside))
    rwa [(follows _).held] at shown
  · intro all i member
    apply (asks_index_iff _ i).mpr
    rw [(follows _).held]
    exact all i (List.mem_range.mp member)

/-- Three elements on capacity 3: pushing in every round overwrites one element ahead of
    the loop each time, and popping in every round ends it with an exception. -/
theorem range_for_shows_rounds_three :
    let s := (State.created 3 () : State Nat Unit).after [.pushBack 1, .pushBack 2, .pushBack 3]
    reply (RingBuffer.forEach (fun i => [.pushBack (10 + i)]) 4) s =
        .ok (some [some 1, some 3, some 11]) ∧
      ¬ ∃ items, reply (RingBuffer.forEach (fun _ => [.popFront]) 4) s = .ok (some items) := by
  constructor
  · exact (range_for_shows_rounds (by decide) () [.pushBack 1, .pushBack 2, .pushBack 3]
      (fun i => [.pushBack (10 + i)]) (by decide)).1
  · intro returned
    have all := (range_for_shows_rounds (by decide) () [.pushBack 1, .pushBack 2, .pushBack 3]
      (fun _ => [.popFront]) (by decide)).2.mp returned
    exact absurd (all 2 (by decide)) (by decide)

end Loops

end Dkyb
