import RingBuffer.Refinement
import RingBuffer.Frame

/-! # Where `back()` goes

Every overwrite moves the head and leaves `tail_` where it is, so `tail_` lags
behind the end of the buffer by the number of overwrites since it was new or
cleared. `back()` ignores `tail_` right after an overwrite; otherwise it is off
by the lag, modulo the capacity.
-/

namespace Dkyb

open Stateful DropOldest

variable {T A : Type}

/-- `back()` returns the slot that `operator[](size() - 1)` returns. -/
def BackIsLast (s : State T A) : Prop :=
  reply RingBuffer.back s = reply (RingBuffer.index (s.this.size - 1)) s

namespace RingBuffer

/-- The cursors after a run whose drops are `d`. -/
structure Follows (c : Nat) (rb : RingBuffer A) (d : Drops) : Prop where
  counted : Counted c rb
  held : rb.count_ = d.held
  lag : rb.tail_ + d.dropped ≡ rb.head_ + rb.count_ [MOD c]
  flag : rb.count_ ≠ 0 → rb.justOverwrote_ = d.justDropped
  tracks : rb.count_ ≠ 0 → rb.justOverwrote_ = true → rb.Tracks

namespace Follows

variable {c : Nat} {rb : RingBuffer A} {d : Drops}

theorem incrementTail (h : Follows c rb d) (notFull : rb.full_ = false) :
    Follows c rb.incrementTail ⟨d.held + 1, d.dropped, false⟩ := by
  have counted := h.counted.incrementTail notFull
  rw [incrementTail_eq rb notFull] at counted ⊢
  exact {
    counted := counted
    held := by simp only [h.held]
    lag := by
      have next : rb.tail_ + 1 + d.dropped ≡ rb.head_ + (rb.count_ + 1) [MOD c] := by
        have := h.lag.add_right 1
        rwa [Nat.add_right_comm, Nat.add_assoc rb.head_] at this
      rw [h.counted.capacity]
      exact ((Nat.mod_modEq _ c).add_right _).trans next
    flag := fun _ => rfl
    tracks := fun _ on => by cases on }

theorem overwriteAdvanceHead (h : Follows c rb d) (full : rb.full_ = true) :
    Follows c rb.overwriteAdvanceHead ⟨d.held, d.dropped + 1, true⟩ where
  counted := h.counted.overwriteAdvanceHead
  held := h.held
  lag := by
    have next : rb.tail_ + (d.dropped + 1) ≡ rb.head_ + 1 + rb.count_ [MOD c] := by
      have := h.lag.add_right 1
      rwa [Nat.add_assoc, Nat.add_right_comm] at this
    simp only [overwriteAdvanceHead_eq, h.counted.capacity]
    exact next.trans ((Nat.mod_modEq _ c).symm.add_right _)
  flag := fun _ => rfl
  tracks := fun _ _ => h.counted.overwriteAdvanceHead_tracks full

theorem incrementHead (h : Follows c rb d) (nonempty : rb.count_ ≠ 0) :
    Follows c rb.incrementHead ⟨d.held - 1, d.dropped, false⟩ := by
  have counted := h.counted.incrementHead nonempty
  rw [incrementHead_eq] at counted ⊢
  exact {
    counted := counted
    held := by simp only [h.held]
    lag := by
      have shifted : rb.head_ + 1 + (rb.count_ - 1) = rb.head_ + rb.count_ := by omega
      simp only [h.counted.capacity]
      refine h.lag.trans ?_
      rw [← shifted]
      exact (Nat.mod_modEq _ c).symm.add_right _
    flag := fun _ => rfl
    tracks := fun _ on => by cases on }

theorem reset (h : Follows c rb d) : Follows c rb.reset Drops.initial where
  counted := h.counted.reset
  held := rfl
  lag := rfl
  flag := fun nonempty => absurd rfl nonempty
  tracks := fun nonempty => absurd rfl nonempty

/-- Step lemma. -/
theorem moves (h : Follows c rb d) (call : Update T) :
    Follows c (rb.moves call) (d.step c call.command) := by
  have push : Follows c (if rb.full_ then rb.overwriteAdvanceHead else rb.incrementTail)
      (if d.held = c then ⟨d.held, d.dropped + 1, true⟩ else ⟨d.held + 1, d.dropped, false⟩) := by
    cases full : rb.full_ with
    | false =>
        have room := h.counted.room full
        rw [if_neg Bool.false_ne_true, if_neg (by rw [← h.held]; exact Nat.ne_of_lt room)]
        exact h.incrementTail full
    | true =>
        have filled := h.counted.full_iff.mp full
        rw [if_pos rfl, if_pos (by rw [← h.held]; exact filled)]
        exact h.overwriteAdvanceHead full
  cases call with
  | pushBack v | pushBackMove v | emplaceBack v => exact push
  | popFront =>
      simp only [RingBuffer.moves, Update.command, Drops.step, ← h.held]
      by_cases empty : rb.count_ = 0
      · rw [if_pos empty, if_pos empty]
        exact h
      · rw [if_neg empty, if_neg empty, h.held]
        exact h.incrementHead empty
  | clear => exact h.reset

/-- Run lemma. -/
theorem foldl_moves (h : Follows c rb d) (updates : List (Update T)) :
    Follows c (updates.foldl RingBuffer.moves rb)
      (updates.foldl (fun d update => d.step c update.command) d) := by
  induction updates generalizing rb d with
  | nil => exact h
  | cons call updates ih => exact ih (h.moves call)

/-- One step back from `tail_` is one step back modulo the capacity. -/
theorem decrementIndex_tail (h : Follows c rb d) :
    rb.decrementIndex rb.tail_ < c ∧ rb.decrementIndex rb.tail_ + 1 ≡ rb.tail_ [MOD c] := by
  have inside := h.counted.tail
  have pos := h.counted.pos
  unfold decrementIndex
  rw [h.counted.capacity]
  by_cases atZero : rb.tail_ = 0
  · rw [if_pos atZero, Nat.sub_add_cancel pos, atZero]
    exact ⟨by omega, by simp [Nat.ModEq]⟩
  · rw [if_neg atZero, Nat.sub_add_cancel (by omega)]
    exact ⟨by omega, .rfl⟩

/-- `tail_` is one step behind the last element exactly when its lag is a
    multiple of the capacity. -/
theorem decrementIndex_iff (h : Follows c rb d) (nonempty : rb.count_ ≠ 0) :
    rb.decrementIndex rb.tail_ = (rb.head_ + (rb.count_ - 1)) % c ↔ c ∣ d.dropped := by
  obtain ⟨inside, behind⟩ := h.decrementIndex_tail
  have last : rb.head_ + (rb.count_ - 1) + 1 = rb.head_ + rb.count_ := by omega
  calc rb.decrementIndex rb.tail_ = (rb.head_ + (rb.count_ - 1)) % c
      ↔ rb.decrementIndex rb.tail_ ≡ rb.head_ + (rb.count_ - 1) [MOD c] := by
        rw [Nat.ModEq, Nat.mod_eq_of_lt inside]
    _ ↔ rb.decrementIndex rb.tail_ + 1 ≡ rb.head_ + rb.count_ [MOD c] := by
        rw [← last]
        exact ⟨fun same => same.add_right 1, fun same => same.add_right_cancel' 1⟩
    _ ↔ rb.tail_ + d.dropped ≡ rb.tail_ + 0 [MOD c] :=
        ⟨fun same => h.lag.trans (same.symm.trans behind),
          fun same => behind.trans (same.symm.trans h.lag)⟩
    _ ↔ d.dropped ≡ 0 [MOD c] :=
        ⟨fun same => same.add_left_cancel' rb.tail_, fun same => same.add_left rb.tail_⟩
    _ ↔ c ∣ d.dropped := Nat.modEq_zero_iff_dvd

/-- Where `back()` goes in a non-empty buffer. -/
theorem backIndex_iff (h : Follows c rb d) (nonempty : rb.count_ ≠ 0) :
    rb.backIndex = (rb.head_ + (rb.count_ - 1)) % c ↔ d.justDropped = true ∨ c ∣ d.dropped := by
  cases flag : rb.justOverwrote_ with
  | true =>
      have last := (h.tracks nonempty flag).backIndex_eq h.counted nonempty
      have dropped : d.justDropped = true := (h.flag nonempty).symm.trans flag
      exact iff_of_true last (.inl dropped)
  | false =>
      have kept : d.justDropped = false := (h.flag nonempty).symm.trans flag
      rw [kept, ← h.decrementIndex_iff nonempty]
      simp only [backIndex, flag, Bool.false_eq_true, if_false, false_or]

end Follows

end RingBuffer

theorem follows_created {c : Nat} (pos : 0 < c) (a : A) :
    (State.created c a : State T A).this.Follows c Drops.initial where
  counted := (Holds.created pos a).counted
  held := by rw [created_eq pos]; rfl
  lag := by rw [created_eq pos]; exact .rfl
  flag := by rw [created_eq pos]; exact fun _ => rfl
  tracks := by rw [created_eq pos]; exact fun nonempty => absurd rfl nonempty

/-- Both members run on a non-empty buffer. -/
theorem backIsLast_iff {s : State T A} {c : Nat} (counted : s.this.Counted c)
    (nonempty : s.this.count_ ≠ 0) :
    BackIsLast s ↔ s.this.backIndex = (s.this.head_ + (s.this.count_ - 1)) % c := by
  have inside : s.this.count_ - 1 < s.this.count_ := Nat.sub_one_lt nonempty
  unfold BackIsLast
  rw [reply_of_run (run_back nonempty), RingBuffer.size, reply_of_run (run_index inside)]
  simp [State.occupiedPtr, counted.capacity]

/-- After any calls on a new buffer that leave it non-empty, `back()` returns the
    slot of the last position exactly when the last push or pop since the last
    `clear` overwrote, or the overwrites since then are a multiple of the capacity. -/
theorem back_is_last_iff {c : Nat} (pos : 0 < c) (a : A) (updates : List (Update T)) :
    let s := (State.created c a : State T A).after updates
    let d := updates.foldl (fun d update => d.step c update.command) Drops.initial
    s.this.count_ ≠ 0 → (BackIsLast s ↔ d.justDropped = true ∨ c ∣ d.dropped) := by
  intro s d nonempty
  have quiet : (State.created c a : State T A).mem.fuse = none := (Holds.created pos a).quiet
  have follows : s.this.Follows c d := by
    simp only [s, State.after_this quiet]
    exact (follows_created pos a).foldl_moves updates
  rw [backIsLast_iff follows.counted nonempty]
  exact follows.backIndex_iff nonempty

theorem back_is_last_two : BackIsLast ((State.created 2 () : State Nat Unit).after
    [.pushBack 1, .emplaceBack 2, .pushBack 3, .pushBackMove 4, .popFront]) :=
  (back_is_last_iff (by decide : 0 < 2) () _ (by decide)).mpr (.inr (by decide))

/-- Capacity 3: one overwrite, one pop. -/
def lagging : State Nat Unit :=
  (State.created 3 ()).after [.pushBack 1, .pushBack 2, .pushBack 3, .pushBack 4, .popFront]

/-- `back()` goes to slot 2, the last element is in slot 0. -/
theorem back_is_last_fails :
    reply RingBuffer.back lagging = .ok ⟨some 0, 2⟩ ∧
      reply (RingBuffer.index (lagging.this.size - 1)) lagging = .ok ⟨some 0, 0⟩ ∧
      reply Query.back.ask lagging = .ok (some 3) ∧
      reply (Query.index 1).ask lagging = .ok (some 4) ∧ ¬ BackIsLast lagging := by
  have back : reply RingBuffer.back lagging = .ok ⟨some 0, 2⟩ := rfl
  have last : reply (RingBuffer.index (lagging.this.size - 1)) lagging = .ok ⟨some 0, 0⟩ := rfl
  refine ⟨back, last, rfl, rfl, ?_⟩
  intro same
  rw [BackIsLast, back, last] at same
  cases same

end Dkyb
