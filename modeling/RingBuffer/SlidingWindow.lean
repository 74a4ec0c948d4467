import RingBuffer.Refinement

/-! # Pushing without popping, then draining

Until the first pop the bookkeeping behind `back()` stays sound (`Tracks`): the
head rotates once per overwrite while `tail_` and `count_` stand still, and no
push needs `tail_` again before the buffer has been drained.
-/

namespace Dkyb

open Stateful

variable {T A : Type}

/-- The replies of a sequence of calls. -/
def State.replies (s : State T A) : List (Update T) → List (Except Exn (Reply T))
  | [] => []
  | update :: updates => reply update.perform s :: (final update.perform s).replies updates

namespace Holds

variable {c : Nat} {s : State T A} {q : List T}

theorem asks_back {v : T} (h : Holds c s (q ++ [v])) (tracks : s.this.Tracks) :
    reply Query.back.ask s = .ok (some v) := by
  have count : s.this.count_ = q.length + 1 := by simpa using h.count
  have last : s.this.backIndex = (s.this.head_ + q.length) % s.this.capacity_ := by
    rw [tracks.backIndex_eq h.counted (by omega), count, h.counted.capacity]
    rfl
  have content : (s.cell s.this.backIndex).content = some v := by
    rw [last, h.cell_entry (i := q.length) (by simp)]
    simp
  have run := run_ask_back (s := s) (by omega)
  rw [content] at run
  exact reply_of_run run

/-- One push keeps the bookkeeping sound, whether it finds room or not. -/
theorem push_tracks (h : Holds c s q) (tracks : s.this.Tracks) {update : Update T} {v : T}
    (insert : update.inserted = some v) :
    Holds c (final update.perform s) (DropOldest.push c q v) ∧
      (final update.perform s).this.Tracks := by
  have fits : FitsAt s update := fun _ notFull => tracks.aligned h.counted notFull
  refine ⟨(h.insert insert fits).2, ?_⟩
  cases full : s.this.full_ with
  | false =>
      rw [final_of_run (run_insert_room h.quiet v insert full)]
      exact tracks.incrementTail h.counted full
  | true =>
      rcases run_insert_full h.quiet v insert full with run | run
      · rw [final_of_run run]
        exact h.counted.overwriteAdvanceHead_tracks full
      · rw [final_of_run run]
        exact h.counted.overwriteAdvanceHead_tracks full

/-- Run lemma: pushing keeps the window of everything pushed so far. -/
theorem pushes {pushed xs : List T} {updates : List (Update T)}
    (h : Holds c s (DropOldest.window c pushed)) (tracks : s.this.Tracks)
    (mix : updates.map Update.inserted = xs.map some) :
    Holds c (s.after updates) (DropOldest.window c (pushed ++ xs)) ∧
      (s.after updates).this.Tracks := by
  induction updates generalizing s pushed xs with
  | nil =>
      obtain rfl : xs = [] := by simpa using mix.symm
      rw [List.append_nil]
      exact ⟨h, tracks⟩
  | cons update updates ih =>
      cases xs with
      | nil => simp at mix
      | cons v xs =>
          simp only [List.map_cons, List.cons.injEq] at mix
          obtain ⟨next, nextTracks⟩ := h.push_tracks tracks mix.1
          rw [DropOldest.push_window h.counted.pos] at next
          rw [List.append_cons]
          exact ih next nextTracks mix.2

/-- Popping returns the elements in order until none is left. -/
theorem drain (h : Holds c s q) :
    s.replies (List.replicate q.length .popFront) = q.map (fun v => .ok (.content (some v))) ∧
      Holds c (s.after (List.replicate q.length .popFront)) [] := by
  induction q generalizing s with
  | nil => exact ⟨rfl, h⟩
  | cons v q ih =>
      obtain ⟨answered, next⟩ := h.perform (fitsAt_of_not_insert s .popFront rfl)
      obtain ⟨rest, drained⟩ := ih next
      refine ⟨?_, drained⟩
      simp only [List.length_cons, List.replicate_succ, State.replies, List.map_cons]
      rw [rest]
      exact congrArg (· :: _) answered

end Holds

/-- The last `min n c` of `n` pushed values, in order, and nothing else: by every
    observer, and by popping until `pop_front` throws. -/
theorem sliding_window {c : Nat} (pos : 0 < c) (a : A) (xs : List T) (pushes : List (Update T))
    (mix : pushes.map Update.inserted = xs.map some) :
    let s := (State.created c a : State T A).after pushes
    let k := min xs.length c
    let kept := xs.drop (xs.length - k)
    s.this.size = k ∧ (s.this.full = true ↔ c ≤ xs.length) ∧ s.this.available = c - k ∧
      (∀ i (hi : i < kept.length), reply (Query.index i).ask s = .ok (some kept[i])) ∧
      (∀ fuel, k < fuel → reply (RingBuffer.traverse fuel) s = .ok (some (kept.map some))) ∧
      (0 < xs.length → ∃ x y, kept.head? = some x ∧ reply Query.front.ask s = .ok (some x) ∧
        kept.getLast? = some y ∧ reply Query.back.ask s = .ok (some y)) ∧
      s.replies (List.replicate k .popFront) = kept.map (fun v => .ok (.content (some v))) ∧
      ∃ what, reply Update.popFront.perform (s.after (List.replicate k .popFront)) =
        .error (.ringBufferException what) := by
  intro s k kept
  have window : kept = DropOldest.window c xs := by
    simp only [kept, k, DropOldest.window]
    congr 1
    omega
  have size : kept.length = k := by rw [window, DropOldest.window_length]
  have start : (State.created c a : State T A).this.Tracks := by
    rw [created_eq pos]
    exact .inl ⟨rfl, (Nat.zero_mod _).symm⟩
  have empty : Holds c (State.created c a : State T A) (DropOldest.window c []) := by
    rw [DropOldest.window_nil]
    exact Holds.created pos a
  obtain ⟨holds, tracks⟩ := empty.pushes start mix
  rw [List.nil_append, ← window] at holds
  have seen := holds.observes
  obtain ⟨popped, drained⟩ := holds.drain
  rw [size] at popped drained
  refine ⟨seen.size.trans size, ?_, ?_, seen.index, ?_, ?_, popped, ?_⟩
  · rw [seen.full, size]
    omega
  · rw [seen.available, size]
  · rw [← size]
    exact seen.traverse
  · intro some
    have nonempty : kept ≠ [] := List.ne_nil_of_length_pos (by omega)
    refine ⟨kept.head nonempty, kept.getLast nonempty, List.head?_eq_some_head nonempty, ?_,
      List.getLast?_eq_some_getLast nonempty, ?_⟩
    · exact seen.front _ (List.head?_eq_some_head nonempty)
    · have split := List.dropLast_append_getLast nonempty
      exact Holds.asks_back (split.symm ▸ holds) tracks
  · exact (drained.perform (fitsAt_of_not_insert _ .popFront rfl)).1

theorem sliding_window_two :
    reply Query.back.ask ((State.created 2 () : State Nat Unit).after
      [.pushBack 7, .emplaceBack 8, .pushBackMove 9]) = .ok (some 9) := by
  obtain ⟨-, -, -, -, -, ends, -⟩ := sliding_window (by decide : 0 < 2) () [7, 8, 9]
    [.pushBack 7, .emplaceBack 8, .pushBackMove 9] rfl
  obtain ⟨x, y, -, -, last, back⟩ := ends (by decide)
  cases last
  exact back

/-! ## Pushing and clearing -/

/-- A buffer that was only pushed to since it was new or last cleared, and what was
    pushed since then. -/
structure Recent (c : Nat) (s : State T A) (pushed : List T) : Prop where
  holds : Holds c s (DropOldest.window c pushed)
  fits : s.this.full_ = false → s.this.Aligned
  tracks : pushed ≠ [] → s.this.Tracks

namespace Recent

variable {c : Nat} {s s' : State T A} {pushed : List T}

theorem created (pos : 0 < c) (a : A) : Recent c (State.created c a : State T A) [] where
  holds := by
    rw [DropOldest.window_nil]
    exact Holds.created pos a
  fits := by
    rw [created_eq pos]
    exact fun _ => (Nat.zero_mod _).symm
  tracks := fun some => absurd rfl some

theorem push (h : Recent c s pushed) {update : Update T} {v : T}
    (insert : update.inserted = some v) : Recent c (final update.perform s) (pushed ++ [v]) := by
  have both : Holds c (final update.perform s) (DropOldest.push c (DropOldest.window c pushed) v) ∧
      (final update.perform s).this.Tracks := by
    by_cases first : pushed = []
    · have notFull : s.this.full_ = false := by
        have none := h.holds.count
        have pos := h.holds.counted.pos
        rw [first, DropOldest.window_nil, List.length_nil] at none
        rw [h.holds.counted.full, beq_eq_false_iff_ne]
        omega
      refine ⟨(h.holds.insert insert fun _ => h.fits).2, ?_⟩
      rw [final_of_run (run_insert_room h.holds.quiet v insert notFull)]
      refine .inl ⟨?_, (h.fits notFull).incrementTail notFull⟩
      simp only [State.appended, RingBuffer.incrementTail_eq _ notFull]
    · exact h.holds.push_tracks (h.tracks first) insert
  rw [DropOldest.push_window h.holds.counted.pos] at both
  exact ⟨both.1, both.2.aligned both.1.counted, fun _ => both.2⟩

theorem clear (h : Recent c s pushed) : Recent c s.cleared [] where
  holds := by
    rw [DropOldest.window_nil]
    exact h.holds.cleared
  fits := by
    intro _
    simp only [State.cleared, State.mapThis_this]
    exact RingBuffer.Aligned.reset _
  tracks := fun some => absurd rfl some

/-- Reading does not disturb it. -/
theorem of_same (h : Recent c s pushed) (this : s'.this = s.this)
    (slots : s'.mem.slots = s.mem.slots) (fuse : s'.mem.fuse = s.mem.fuse) : Recent c s' pushed where
  holds := h.holds.of_same this slots fuse
  fits := this ▸ h.fits
  tracks := this ▸ h.tracks

end Recent

end Dkyb
