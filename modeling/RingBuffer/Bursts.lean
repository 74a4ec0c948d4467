import RingBuffer.Drift

/-! # Bursts that do not wrap

A run of pushes, or of pops, that stays below the end of the storage rewrites
consecutive slots. A buffer that is only used in bursts of `k` on a capacity that is
a multiple of `k` is a smaller buffer whose elements are the bursts.
-/

namespace Dkyb

open Stateful

variable {T A : Type}

/-- `n` slots from `start` on were rewritten and no others. -/
structure Rewritten (s s' : State T A) (start n : Nat) (f : Nat → Option T) : Prop where
  hit : ∀ r < n, (s'.cell (start + r)).content = f r
  missed : ∀ p, p < start ∨ start + n ≤ p → (s'.cell p).content = (s.cell p).content

namespace Rewritten

variable {s s' s'' : State T A} {start n : Nat} {f : Nat → Option T}

theorem none : Rewritten s s start 0 f where
  hit _ inside := absurd inside (Nat.not_lt_zero _)
  missed _ _ := rfl

/-- One slot more. -/
theorem next (h : Rewritten s s' start n f) {slot : Slot T} (content : slot.content = f n)
    (cell : s''.cell = Function.update s'.cell (start + n) slot) :
    Rewritten s s'' start (n + 1) f where
  hit r inside := by
    rw [cell]
    by_cases last : r = n
    · rw [last, Function.update_self, content]
    · rw [Function.update_of_ne (by omega)]
      exact h.hit r (by omega)
  missed p outside := by
    rw [cell, Function.update_of_ne (by omega)]
    exact h.missed p (by omega)

end Rewritten

/-- What a burst leaves. -/
structure Burst (c : Nat) (s s' : State T A) (start n : Nat) (f : Nat → Option T) : Prop where
  counted : s'.this.Counted c
  quiet : s'.mem.fuse = none
  rewritten : Rewritten s s' start n f

section Bursts

variable {c n : Nat} {s : State T A}

theorem State.after_one (update : Update T) : s.after [update] = final update.perform s := rfl

/-- Pushes onto a full buffer, by induction on the burst. -/
theorem burst_overwrites (counted : s.this.Counted c) (quiet : s.mem.fuse = none)
    (full : s.this.count_ = c) (f : Nat → T) (inside : s.this.head_ + n ≤ c) :
    let s' := s.after ((List.range n).map fun r => .pushBack (f r))
    Burst c s s' s.this.head_ n (fun r => some (f r)) ∧ s'.this.head_ = (s.this.head_ + n) % c ∧
      s'.this.tail_ = s.this.tail_ ∧ s'.this.count_ = c := by
  induction n with
  | zero => exact ⟨⟨counted, quiet, .none⟩, (Nat.mod_eq_of_lt counted.head).symm, rfl, full⟩
  | succ n ih =>
      obtain ⟨burst, head, tail, count⟩ := ih (by omega)
      rw [List.range_succ, List.map_append, State.after_append]
      generalize s.after ((List.range n).map fun r => .pushBack (f r)) = t at burst head tail count
      rw [Nat.mod_eq_of_lt (by omega)] at head
      have run : (Update.pushBack (f n)).perform.run t = .ok .done (t.overwritten (f n)) := by
        simp only [Update.perform, EStateM.run_bind, EStateM.run_pure,
          run_pushBack_full burst.quiet (f n) (burst.counted.full_iff.mpr count)]
      rw [List.map_singleton, State.after_one, final_of_run run]
      have capacity := burst.counted.capacity
      refine ⟨⟨?_, burst.quiet, burst.rewritten.next rfl (by rw [t.overwritten_cell, head])⟩, ?_, tail,
        count⟩
      · exact burst.counted.overwriteAdvanceHead
      · simp only [State.overwritten, RingBuffer.overwriteAdvanceHead_eq, head, capacity]
        rfl

/-- Pushes that find room. -/
theorem burst_appends (counted : s.this.Counted c) (quiet : s.mem.fuse = none) (f : Nat → T)
    (room : s.this.count_ + n ≤ c) (inside : s.this.tail_ + n ≤ c) :
    let s' := s.after ((List.range n).map fun r => .pushBack (f r))
    Burst c s s' s.this.tail_ n (fun r => some (f r)) ∧ s'.this.head_ = s.this.head_ ∧
      s'.this.tail_ = (s.this.tail_ + n) % c ∧ s'.this.count_ = s.this.count_ + n := by
  induction n with
  | zero => exact ⟨⟨counted, quiet, .none⟩, rfl, (Nat.mod_eq_of_lt counted.tail).symm, rfl⟩
  | succ n ih =>
      obtain ⟨burst, head, tail, count⟩ := ih (by omega) (by omega)
      rw [List.range_succ, List.map_append, State.after_append]
      generalize s.after ((List.range n).map fun r => .pushBack (f r)) = t at burst head tail count
      rw [Nat.mod_eq_of_lt (by omega)] at tail
      have notFull : t.this.full_ = false := by
        rw [burst.counted.full, beq_eq_false_iff_ne]
        omega
      have run : (Update.pushBack (f n)).perform.run t = .ok .done (t.appended (f n)) :=
        run_insert_room burst.quiet (f n) rfl notFull
      rw [List.map_singleton, State.after_one, final_of_run run]
      have cursors := RingBuffer.incrementTail_eq t.this notFull
      have capacity := burst.counted.capacity
      refine ⟨⟨burst.counted.incrementTail notFull, burst.quiet,
        burst.rewritten.next rfl (by rw [t.appended_cell, tail])⟩, ?_, ?_, ?_⟩
      · simp only [State.appended, cursors, head]
      · simp only [State.appended, cursors, tail, capacity]
        rfl
      · simp only [State.appended, cursors, count]
        rfl

/-- Pops return what is in the slots. -/
theorem burst_replies (counted : s.this.Counted c) (quiet : s.mem.fuse = none)
    (enough : n ≤ s.this.count_) (inside : s.this.head_ + n ≤ c) :
    s.replies (List.replicate n .popFront) =
      (List.range n).map fun r => .ok (.content (s.cell (s.this.head_ + r)).content) := by
  rw [replies_pops counted quiet enough]
  apply List.map_congr_left
  intro r member
  have below := List.mem_range.mp member
  rw [Nat.mod_eq_of_lt (by omega)]

theorem burst_pops (counted : s.this.Counted c) (quiet : s.mem.fuse = none)
    (enough : n ≤ s.this.count_) (inside : s.this.head_ + n ≤ c) :
    let s' := s.after (List.replicate n .popFront)
    Burst c s s' s.this.head_ n (fun _ => none) ∧ s'.this.head_ = (s.this.head_ + n) % c ∧
      s'.this.tail_ = s.this.tail_ ∧ s'.this.count_ = s.this.count_ - n := by
  induction n with
  | zero => exact ⟨⟨counted, quiet, .none⟩, (Nat.mod_eq_of_lt counted.head).symm, rfl, rfl⟩
  | succ n ih =>
      obtain ⟨burst, head, tail, count⟩ := ih (by omega) (by omega)
      rw [List.replicate_succ', State.after_append]
      generalize s.after (List.replicate n .popFront) = t at burst head tail count
      rw [Nat.mod_eq_of_lt (by omega)] at head
      have nonempty : t.this.count_ ≠ 0 := by omega
      rw [State.after_one, final_of_run (run_perform_popFront burst.quiet nonempty)]
      have cursors := RingBuffer.incrementHead_eq t.this
      have capacity := burst.counted.capacity
      refine ⟨⟨burst.counted.incrementHead nonempty, burst.quiet,
        burst.rewritten.next rfl (by rw [t.popped_cell, head])⟩, ?_, ?_, ?_⟩
      · simp only [State.popped, cursors, head, capacity]
        rfl
      · simp only [State.popped, cursors, tail]
      · simp only [State.popped, cursors, count]
        omega

end Bursts

/-! ## A buffer of bursts -/

/-- `s` is `S` with each element spread over `k` slots. -/
structure Scaled {B : Type} (k m : Nat) (sample : Nat → Nat → T) (S : State Nat B) (s : State T A) :
    Prop where
  chunks : S.this.Counted m
  quietChunks : S.mem.fuse = none
  counted : s.this.Counted (m * k)
  quiet : s.mem.fuse = none
  head : s.this.head_ = S.this.head_ * k
  tail : s.this.tail_ = S.this.tail_ * k
  count : s.this.count_ = S.this.count_ * k
  cell : ∀ j < m, ∀ r < k,
    (s.cell (j * k + r)).content = (S.cell j).content.map fun n => sample n r

namespace Scaled

variable {B : Type} {k m : Nat} {sample : Nat → Nat → T} {S S' : State Nat B} {s s' : State T A}

theorem created (posk : 0 < k) (posm : 0 < m) (b : B) (a : A) :
    Scaled k m sample (State.created m b) (State.created (m * k) a) := by
  have small : Holds m (State.created m b : State Nat B) [] := Holds.created posm b
  have big : Holds (m * k) (State.created (m * k) a : State T A) [] :=
    Holds.created (Nat.mul_pos posm posk) a
  refine ⟨small.counted, small.quiet, big.counted, big.quiet, ?_, ?_, ?_, ?_⟩
  · simp only [created_eq posm, created_eq (Nat.mul_pos posm posk), RingBuffer.blank, Nat.zero_mul]
  · simp only [created_eq posm, created_eq (Nat.mul_pos posm posk), RingBuffer.blank, Nat.zero_mul]
  · rw [small.count, big.count, List.length_nil, List.length_nil, Nat.zero_mul]
  · intro j _ r _
    rw [created_eq posm, created_eq (Nat.mul_pos posm posk)]
    rfl

/-- Rewriting one slot there is rewriting `k` slots here. -/
theorem rewritten (h : Scaled k m sample S s) {at_ : Nat} {f : Nat → Option T}
    {g : Nat → Option Nat} (chunk : Rewritten S S' at_ 1 g) (burst : Rewritten s s' (at_ * k) k f)
    (same : ∀ r < k, f r = (g 0).map fun n => sample n r) {j r : Nat} (inside : j < m) (here : r < k) :
    (s'.cell (j * k + r)).content = (S'.cell j).content.map fun n => sample n r := by
  rcases Nat.lt_trichotomy j at_ with before | rfl | after
  · have rows := Nat.mul_le_mul_right k before
    rw [Nat.succ_mul] at rows
    rw [burst.missed _ (by omega), chunk.missed _ (by omega)]
    exact h.cell j inside r here
  · rw [burst.hit r here, same r here]
    exact congrArg (Option.map _) (chunk.hit 0 Nat.one_pos).symm
  · have rows := Nat.mul_le_mul_right k after
    rw [Nat.succ_mul] at rows
    rw [burst.missed _ (by omega), chunk.missed _ (by omega)]
    exact h.cell j inside r here

theorem row {j : Nat} (inside : j < m) : j * k + k ≤ m * k := by
  have rows := Nat.mul_le_mul_right k inside
  rwa [Nat.succ_mul] at rows

theorem next_row (j : Nat) : (j * k + k) % (m * k) = (j + 1) % m * k := by
  rw [← Nat.succ_mul, Nat.mul_mod_mul_right]

/-- A chunk pushed there is its samples pushed here. -/
theorem pushes (h : Scaled k m sample S s) (n : Nat) :
    Scaled k m sample (S.after ((List.range 1).map fun _ => .pushBack n))
      (s.after ((List.range k).map fun r => .pushBack (sample n r))) := by
  by_cases full : S.this.count_ = m
  · obtain ⟨chunk, headS, tailS, countS⟩ :=
      burst_overwrites (n := 1) h.chunks h.quietChunks full (fun _ => n) h.chunks.head
    obtain ⟨burst, head, tail, count⟩ := burst_overwrites h.counted h.quiet
      (by rw [h.count, full]) (sample n) (by rw [h.head]; exact row h.chunks.head)
    rw [h.head] at burst head
    exact {
      chunks := chunk.counted
      quietChunks := chunk.quiet
      counted := burst.counted
      quiet := burst.quiet
      head := by rw [head, headS, next_row]
      tail := by rw [tail, tailS, h.tail]
      count := by rw [count, countS]
      cell := fun j inside r here =>
        h.rewritten chunk.rewritten burst.rewritten (fun _ _ => rfl) inside here }
  · have room : S.this.count_ < m := lt_of_le_of_ne h.chunks.count full
    obtain ⟨chunk, headS, tailS, countS⟩ :=
      burst_appends (n := 1) h.chunks h.quietChunks (fun _ => n) room h.chunks.tail
    obtain ⟨burst, head, tail, count⟩ := burst_appends h.counted h.quiet (sample n)
      (by rw [h.count]; exact row room) (by rw [h.tail]; exact row h.chunks.tail)
    rw [h.tail] at burst tail
    exact {
      chunks := chunk.counted
      quietChunks := chunk.quiet
      counted := burst.counted
      quiet := burst.quiet
      head := by rw [head, headS, h.head]
      tail := by rw [tail, tailS, next_row]
      count := by rw [count, countS, h.count, Nat.succ_mul]
      cell := fun j inside r here =>
        h.rewritten chunk.rewritten burst.rewritten (fun _ _ => rfl) inside here }

/-- A pop there is `k` pops here, and returns the samples of what it returns there. -/
theorem pops (h : Scaled k m sample S s) (nonempty : S.this.count_ ≠ 0) :
    Scaled k m sample (S.after (List.replicate 1 .popFront)) (s.after (List.replicate k .popFront)) ∧
      S.replies (List.replicate 1 .popFront) = [.ok (.content (S.cell S.this.head_).content)] ∧
      s.replies (List.replicate k .popFront) = (List.range k).map fun r =>
        .ok (.content ((S.cell S.this.head_).content.map fun n => sample n r)) := by
  have some : 1 ≤ S.this.count_ := Nat.one_le_iff_ne_zero.mpr nonempty
  have enough : k ≤ s.this.count_ := by
    rw [h.count]
    exact Nat.le_mul_of_pos_left k some
  have inside : s.this.head_ + k ≤ m * k := by
    rw [h.head]
    exact row h.chunks.head
  obtain ⟨chunk, headS, tailS, countS⟩ :=
    burst_pops h.chunks h.quietChunks some h.chunks.head
  obtain ⟨burst, head, tail, count⟩ := burst_pops h.counted h.quiet enough inside
  rw [h.head] at burst head
  refine ⟨?_, burst_replies h.chunks h.quietChunks some h.chunks.head, ?_⟩
  · exact {
      chunks := chunk.counted
      quietChunks := chunk.quiet
      counted := burst.counted
      quiet := burst.quiet
      head := by rw [head, headS, next_row]
      tail := by rw [tail, tailS, h.tail]
      count := by rw [count, countS, h.count, Nat.sub_mul, Nat.one_mul]
      cell := fun j inside r here =>
        h.rewritten chunk.rewritten burst.rewritten (fun _ _ => rfl) inside here }
  · rw [burst_replies h.counted h.quiet enough inside, h.head]
    apply List.map_congr_left
    intro r member
    rw [h.cell _ h.chunks.head r (List.mem_range.mp member)]

end Scaled

end Dkyb
