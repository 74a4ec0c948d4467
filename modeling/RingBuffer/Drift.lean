import RingBuffer.LastElement
import RingBuffer.SlidingWindow

/-! # Pushes that go astray

Whether a push that finds room lands behind the last element depends on nothing but
the number of overwrites since the buffer was new or cleared. Where it does not, the
value lands on another element or in a slot that is not counted, and the last
position counts a slot that holds nothing.
-/

namespace Dkyb

open Stateful DropOldest

variable {T A : Type}

namespace RingBuffer.Follows

variable {c : Nat} {rb : RingBuffer A} {d : Drops}

/-- Which position `tail_` is at, counted from the head. -/
theorem tail_iff (h : Follows c rb d) (i : Nat) :
    (rb.head_ + i) % c = rb.tail_ ↔ i + d.dropped ≡ rb.count_ [MOD c] := by
  calc (rb.head_ + i) % c = rb.tail_
      ↔ rb.head_ + i ≡ rb.tail_ [MOD c] := by rw [Nat.ModEq, Nat.mod_eq_of_lt h.counted.tail]
    _ ↔ rb.head_ + i + d.dropped ≡ rb.tail_ + d.dropped [MOD c] :=
        ⟨fun same => same.add_right _, fun same => same.add_right_cancel' _⟩
    _ ↔ rb.head_ + (i + d.dropped) ≡ rb.head_ + rb.count_ [MOD c] := by
        rw [Nat.add_assoc]
        exact ⟨fun same => same.trans h.lag, fun same => same.trans h.lag.symm⟩
    _ ↔ i + d.dropped ≡ rb.count_ [MOD c] :=
        ⟨fun same => same.add_left_cancel' _, fun same => same.add_left _⟩

theorem aligned_iff (h : Follows c rb d) : rb.Aligned ↔ c ∣ d.dropped := by
  rw [RingBuffer.Aligned, h.counted.capacity, eq_comm, h.tail_iff, ← Nat.modEq_zero_iff_dvd]
  exact ⟨fun same => same.add_left_cancel' (c := rb.count_), fun same => same.add_left rb.count_⟩

end RingBuffer.Follows

/-! ## The runs that go well -/

section Runs

variable {c : Nat} {s : State T A} {d : Drops}

theorem fitsAt_iff (follows : s.this.Follows c d) (update : Update T) :
    FitsAt s update ↔ d.Straight c update.command := by
  have room : s.this.full_ = false ↔ d.held ≠ c := by
    rw [follows.counted.full, follows.held, beq_eq_false_iff_ne]
  have insertion : (s.this.full_ = false → s.this.Aligned) ↔ (d.held ≠ c → c ∣ d.dropped) := by
    rw [room, follows.aligned_iff]
  cases update with
  | pushBack v | pushBackMove v | emplaceBack v =>
      exact ⟨fun fits => insertion.mp (fits rfl), fun straight _ => insertion.mpr straight⟩
  | popFront | clear => exact iff_of_true (fitsAt_of_not_insert s _ rfl) trivial

theorem State.after_append (updates more : List (Update T)) :
    s.after (updates ++ more) = (s.after updates).after more := List.foldl_append

theorem fits_iff (follows : s.this.Follows c d) (quiet : s.mem.fuse = none)
    (updates : List (Update T)) : Fits s updates ↔
      Lockstep.Guarded (fun d update => d.step c update.command)
        (fun d update => d.Straight c update.command) d updates := by
  apply Lockstep.guarded_iff (R := fun (s : State T A) d => s.this.Follows c d ∧ s.mem.fuse = none)
  · rintro s d update ⟨follows, quiet⟩
    rw [State.update_this quiet]
    exact ⟨follows.moves update, (Frame.update quiet update).fuse.trans quiet⟩
  · rintro s d update ⟨follows, -⟩
    exact fitsAt_iff follows update
  · exact ⟨follows, quiet⟩

/-- What the calls of a client alone tell: a run on a new buffer refines the
    drop-oldest queue exactly when every push that finds room comes after a multiple of
    the capacity of overwrites since the buffer was new or cleared. -/
theorem refines_iff_straight (pos : 0 < c) (a : A) (updates : List (Update T)) :
    Refines c (State.created c a) [] updates ↔
      Lockstep.Guarded (fun d update => d.step c update.command)
        (fun d update => d.Straight c update.command) Drops.initial updates := by
  have start : Holds c (State.created c a : State T A) [] := Holds.created pos a
  rw [start.refines_iff]
  exact fits_iff (follows_created pos a) start.quiet updates

theorem refines_iff_straight_two : Refines 2 (State.created 2 () : State Nat Unit) []
    [.pushBack 1, .emplaceBack 2, .pushBack 3, .pushBackMove 4, .popFront, .pushBack 5] :=
  (refines_iff_straight (by decide) () _).mpr (by decide)

/-! ## Where pushes land -/

theorem decrementIndex_next {rb : RingBuffer A} (inside : rb.tail_ < rb.capacity_) :
    rb.decrementIndex ((rb.tail_ + 1) % rb.capacity_) = rb.tail_ := by
  unfold RingBuffer.decrementIndex
  by_cases last : rb.tail_ + 1 = rb.capacity_
  · rw [last, Nat.mod_self, if_pos rfl]
    omega
  · rw [Nat.mod_eq_of_lt (by omega), if_neg (by omega)]
    omega

/-- `back()` right after a push that found room. -/
theorem back_of_appended (counted : s.this.Counted c) (notFull : s.this.full_ = false) (v : T) :
    reply Query.back.ask (s.appended v) = .ok (some v) := by
  have cursors := RingBuffer.incrementTail_eq s.this notFull
  have nonempty : (s.appended v).this.count_ ≠ 0 := by simp [State.appended, cursors]
  have place : (s.appended v).this.backIndex = s.this.tail_ := by
    have inside : s.this.tail_ < s.this.capacity_ := counted.capacity.symm ▸ counted.tail
    simp only [RingBuffer.backIndex, State.appended, cursors, Bool.false_eq_true, if_false]
    exact decrementIndex_next inside
  rw [reply_ask_back nonempty, place, State.appended_cell, Function.update_self]
  rfl

/-- What a burst of pushes that find room leaves. -/
structure Landed (c : Nat) (s s' : State T A) (dropped : Nat) (xs : List T) : Prop where
  head : s'.this.head_ = s.this.head_
  capacity : s'.this.capacity_ = c
  count : s'.this.count_ = s.this.count_ + xs.length
  hit : ∀ i m (inside : m < xs.length), i + dropped ≡ s.this.count_ + m [MOD c] →
    s'.cell ((s.this.head_ + i) % c) = .holding xs[m]
  missed : ∀ i, (∀ m < xs.length, ¬ i + dropped ≡ s.this.count_ + m [MOD c]) →
    s'.cell ((s.this.head_ + i) % c) = s.cell ((s.this.head_ + i) % c)
  back : ∀ v, xs.getLast? = some v → reply Query.back.ask s' = .ok (some v)

/-- By induction on the burst: the first push lands where `tail_` is, and the others
    land beside it. -/
theorem landed {xs : List T} {pushes : List (Update T)} (follows : s.this.Follows c d)
    (quiet : s.mem.fuse = none) (mix : pushes.map Update.inserted = xs.map some)
    (room : s.this.count_ + xs.length ≤ c) : Landed c s (s.after pushes) d.dropped xs := by
  induction pushes generalizing s d xs with
  | nil =>
      obtain rfl : xs = [] := by simpa using mix.symm
      exact {
        head := rfl
        capacity := follows.counted.capacity
        count := rfl
        hit := fun _ m inside => absurd inside (Nat.not_lt_zero m)
        missed := fun _ _ => rfl
        back := fun _ last => by cases last }
  | cons push pushes ih =>
      cases xs with
      | nil => simp at mix
      | cons x xs =>
          simp only [List.map_cons, List.cons.injEq] at mix
          simp only [List.length_cons] at room
          have notFull : s.this.full_ = false := by
            rw [follows.counted.full, beq_eq_false_iff_ne]
            omega
          have cursors := RingBuffer.incrementTail_eq s.this notFull
          have run := run_insert_room quiet x mix.1 notFull
          have first : s.after (push :: pushes) = (s.appended x).after pushes := by
            rw [State.after, List.foldl_cons, final_of_run run]
            rfl
          have count : (s.appended x).this.count_ = s.this.count_ + 1 := by
            simp only [State.appended, cursors]
          have head : (s.appended x).this.head_ = s.this.head_ := by
            simp only [State.appended, cursors]
          have rest : Landed c (s.appended x) ((s.appended x).after pushes) d.dropped xs :=
            ih (s := s.appended x) (d := ⟨d.held + 1, d.dropped, false⟩)
              (follows.incrementTail notFull) quiet mix.2 (by omega)
          have apart : ∀ m < xs.length, ¬ s.this.count_ + 0 ≡ s.this.count_ + (m + 1) [MOD c] := by
            intro m inside same
            have zero := (Nat.ModEq.add_left_cancel' s.this.count_ same).eq_of_lt_of_lt
              follows.counted.pos (by omega)
            omega
          have later : ∀ m, s.this.count_ + 1 + m = s.this.count_ + (m + 1) := fun m => by omega
          have landing : ∀ i, (s.this.head_ + i) % c = s.this.tail_ ↔
              i + d.dropped ≡ s.this.count_ + 0 [MOD c] := follows.tail_iff
          rw [first]
          exact {
            head := rest.head.trans head
            capacity := rest.capacity
            count := by
              rw [rest.count, count, List.length_cons]
              omega
            hit := by
              intro i m inside here
              rw [← head]
              cases m with
              | zero =>
                  have kept := rest.missed i fun m inside again => by
                    rw [count, later] at again
                    exact apart m inside (here.symm.trans again)
                  rw [kept, State.appended_cell, head, (landing i).mpr here, Function.update_self]
                  rfl
              | succ m =>
                  rw [← later, ← count] at here
                  exact rest.hit i m (by simpa using inside) here
            missed := by
              intro i nowhere
              have kept := rest.missed i fun m inside here => by
                rw [count, later] at here
                exact nowhere (m + 1) (by simpa using inside) here
              have away : (s.this.head_ + i) % c ≠ s.this.tail_ :=
                fun here => nowhere 0 (by simp) ((landing i).mp here)
              rw [← head, kept, State.appended_cell, head, Function.update_of_ne away]
            back := by
              intro v last
              cases xs with
              | nil =>
                  obtain rfl : x = v := by simpa using last
                  obtain rfl : pushes = [] := by simpa using mix.2
                  exact back_of_appended follows.counted notFull x
              | cons y xs => exact rest.back v (by simpa using last) }

/-- The entry of `q` at position `i` after a burst `xs`, when there were `lag`
    overwrites modulo the capacity. -/
def shown (c lag : Nat) (q xs : List T) (i : Nat) : Option T :=
  if q.length ≤ i + lag ∧ i + lag < q.length + xs.length then xs[i + lag - q.length]?
  else if q.length + c ≤ i + lag ∧ i + lag < q.length + xs.length + c then
    xs[i + lag - (q.length + c)]?
  else q[i]?

/-- Congruent positions below the capacity differ by the lag, once round or not. -/
theorem landing_iff {i n dropped : Nat} (pos : 0 < c) (inside : i < c) (below : n < c) :
    i + dropped ≡ n [MOD c] ↔ i + dropped % c = n ∨ i + dropped % c = n + c := by
  have lag := Nat.mod_lt dropped pos
  have reduced : (i + dropped) % c = (i + dropped % c) % c := by rw [Nat.add_mod_mod]
  rw [Nat.ModEq, Nat.mod_eq_of_lt below, reduced]
  rcases Nat.lt_or_ge (i + dropped % c) c with once | round
  · rw [Nat.mod_eq_of_lt once]
    omega
  · rw [Nat.mod_eq_sub_mod round, Nat.mod_eq_of_lt (by omega)]
    omega

/-- What a burst of pushes into the free slots shows, after any run that refined the
    drop-oldest queue so far: the values lie as many positions before where they
    belong as there were overwrites, modulo the capacity; they replace the elements
    there, and the positions they do not reach hold nothing. `back()` shows the last
    one all the same. -/
theorem pushes_land (pos : 0 < c) (a : A) (updates pushes : List (Update T)) (xs : List T)
    (mix : pushes.map Update.inserted = xs.map some)
    (refines : Refines c (State.created c a) [] updates) :
    let s := (State.created c a : State T A).after updates
    let d := updates.foldl (fun d update => d.step c update.command) Drops.initial
    let q := updates.foldl (fun q update => DropOldest.step c q update.command) []
    q.length + xs.length ≤ c →
      (s.after pushes).this.size = q.length + xs.length ∧
      (∀ i < q.length + xs.length, reply (Query.index i).ask (s.after pushes) =
        .ok (shown c (d.dropped % c) q xs i)) ∧
      (∀ v, xs.getLast? = some v → reply Query.back.ask (s.after pushes) = .ok (some v)) := by
  intro s d q room
  have start : Holds c (State.created c a : State T A) [] := Holds.created pos a
  have follows : s.this.Follows c d := by
    simp only [s, State.after_this start.quiet]
    exact (follows_created pos a).foldl_moves updates
  have holds : Holds c s q := start.after ((start.refines_iff updates).mp refines)
  have count : s.this.count_ = q.length := holds.count
  have landed := landed follows holds.quiet mix (by omega)
  have size : (s.after pushes).this.count_ = q.length + xs.length := by rw [landed.count, count]
  refine ⟨size, fun i inside => ?_, landed.back⟩
  have lands : ∀ m < xs.length, (i + d.dropped ≡ s.this.count_ + m [MOD c] ↔
      i + d.dropped % c = q.length + m ∨ i + d.dropped % c = q.length + m + c) := by
    intro m hm
    rw [count]
    exact landing_iff pos (by omega) (by omega)
  rw [reply_ask_index (by omega), landed.head, landed.capacity, shown]
  split
  · rename_i near
    have hm : i + d.dropped % c - q.length < xs.length := by omega
    rw [landed.hit i _ hm ((lands _ hm).mpr (by omega)), List.getElem?_eq_getElem hm]
    rfl
  · split
    · rename_i round
      have hm : i + d.dropped % c - (q.length + c) < xs.length := by omega
      rw [landed.hit i _ hm ((lands _ hm).mpr (by omega)), List.getElem?_eq_getElem hm]
      rfl
    · have nowhere : ∀ m < xs.length, ¬ i + d.dropped ≡ s.this.count_ + m [MOD c] := by
        intro m hm here
        have := (lands m hm).mp here
        omega
      rw [landed.missed i nowhere]
      rcases Nat.lt_or_ge i q.length with held | free
      · have entry := holds.cell_entry held
        rw [follows.counted.capacity] at entry
        rw [entry, List.getElem?_eq_getElem held]
        rfl
      · have blank := holds.laid.rest ((s.this.head_ + i) % c) fun k hk same => by
          have meets := Cyclic.position_injective (by omega) (by simp at hk; omega) same
          simp at hk
          omega
        rw [blank, List.getElem?_eq_none free]
        rfl

/-- `astrayRun`: element 4 is replaced by the push, and position 2 holds nothing. -/
theorem pushes_land_three :
    let s := (State.created 3 () : State Nat Unit).after
      [.pushBack 1, .pushBack 2, .pushBack 3, .pushBack 4, .popFront]
    (s.after [.pushBack 5]).this.size = 3 ∧
      reply (Query.index 1).ask (s.after [.pushBack 5]) = .ok (some 5) ∧
      reply (Query.index 2).ask (s.after [.pushBack 5]) = .ok none ∧
      reply Query.back.ask (s.after [.pushBack 5]) = .ok (some 5) := by
  have all := pushes_land (by decide : 0 < 3) ()
    [.pushBack 1, .pushBack 2, .pushBack 3, .pushBack 4, .popFront] [.pushBack 5] [5] rfl
    (((Holds.created (by decide) ()).refines_iff _).mpr (by decide)) (by decide)
  obtain ⟨size, index, back⟩ := all
  exact ⟨size, index 1 (by decide), index 2 (by decide), back 5 rfl⟩

/-! ## Popping what is shown -/

/-- Popping takes out what `operator[]` shows, in order, wherever pushes landed. -/
theorem replies_pops (counted : s.this.Counted c) (quiet : s.mem.fuse = none) {n : Nat}
    (enough : n ≤ s.this.count_) : s.replies (List.replicate n .popFront) =
      (List.range n).map fun i => .ok (.content (s.cell ((s.this.head_ + i) % c)).content) := by
  induction n generalizing s with
  | zero => rfl
  | succ n ih =>
      have nonempty : s.this.count_ ≠ 0 := by omega
      have bound := counted.count
      have cursors := RingBuffer.incrementHead_eq s.this
      have run := run_perform_popFront quiet nonempty
      have count : s.popped.this.count_ = s.this.count_ - 1 := by
        simp only [State.popped, cursors]
      have head : s.popped.this.head_ = (s.this.head_ + 1) % c := by
        simp only [State.popped, cursors, counted.capacity]
      have rest := ih (s := s.popped) (counted.incrementHead nonempty) quiet (by omega)
      have later : ∀ i ∈ List.range n, (Except.ok (.content
          (s.popped.cell ((s.popped.this.head_ + i) % c)).content) : Except Exn (Reply T)) =
          .ok (.content (s.cell ((s.this.head_ + (i + 1)) % c)).content) := by
        intro i inside
        have short : i < n := List.mem_range.mp inside
        have apart : (s.this.head_ + (i + 1)) % c ≠ s.this.head_ := by
          intro same
          have zero := Cyclic.position_injective (i := i + 1) (j := 0) (by omega) counted.pos
            (same.trans (Cyclic.position_zero counted.head).symm)
          omega
        rw [head, Cyclic.position_next, State.popped_cell, Function.update_of_ne apart]
      have first : (s.mem.slots s.headPtr).content = (s.cell ((s.this.head_ + 0) % c)).content := by
        rw [Cyclic.position_zero counted.head]
        rfl
      rw [List.replicate_succ, State.replies, final_of_run run, reply_of_run run, rest,
        List.range_succ_eq_map, List.map_cons, List.map_map, first]
      exact congrArg _ (List.map_congr_left later)

/-- After any run at all, pushes gone astray included: popping until the buffer is
    empty returns what `operator[]` showed for each position before, in order, and
    the next pop throws. -/
theorem drain_shows_index (pos : 0 < c) (a : A) (updates : List (Update T)) :
    let s := (State.created c a : State T A).after updates
    s.replies (List.replicate s.this.size .popFront) =
        (List.range s.this.size).map (fun i => (reply (Query.index i).ask s).map .content) ∧
      ∃ what, reply Update.popFront.perform
        (s.after (List.replicate s.this.size .popFront)) = .error (.ringBufferException what) := by
  intro s
  have start : Holds c (State.created c a : State T A) [] := Holds.created pos a
  have follows : s.this.Follows c (updates.foldl (fun d update => d.step c update.command)
      Drops.initial) := by
    simp only [s, State.after_this start.quiet]
    exact (follows_created pos a).foldl_moves updates
  have quiet : s.mem.fuse = none := (Frame.after start.quiet updates).fuse.trans start.quiet
  constructor
  · rw [replies_pops (n := s.this.size) follows.counted quiet (Nat.le_refl _)]
    apply List.map_congr_left
    intro i inside
    rw [reply_ask_index (List.mem_range.mp inside), follows.counted.capacity]
    rfl
  · have drained : ∀ (n : Nat) {s : State T A}, s.mem.fuse = none → s.this.count_ = n →
        (s.after (List.replicate n .popFront)).this.count_ = 0 := by
      intro n
      induction n with
      | zero => exact fun _ none => none
      | succ n ih =>
          intro s quiet some
          have run := run_perform_popFront quiet (by omega : s.this.count_ ≠ 0)
          have fewer : s.popped.this.count_ = n := by
            simp only [State.popped, RingBuffer.incrementHead_eq, some, Nat.add_sub_cancel]
          have rest := ih (s := s.popped) quiet fewer
          rw [State.after, List.replicate_succ, List.foldl_cons, final_of_run run]
          exact rest
    exact ⟨_, reply_of_error (run_perform_popFront_empty (drained s.this.size quiet rfl))⟩

/-- After `astrayRun` the three pops return element 4's slot, now 5, in second place,
    and nothing in the third. -/
theorem drain_shows_index_three :
    let s := (State.created 3 () : State Nat Unit).after astrayRun
    s.replies [.popFront, .popFront, .popFront] =
      [.ok (.content (some 3)), .ok (.content (some 5)), .ok (.content none)] :=
  (drain_shows_index (by decide) () astrayRun).1

end Runs

end Dkyb
