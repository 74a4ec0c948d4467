import RingBuffer.Copying

/-! # What a move hands on

Both moving members hand over the block and the cursors. The overwrite flag is
not handed over: the constructor turns it off, the assignment leaves the target
its own. So only `back()` can change, and it does unless it happens to reach the
same slot or the same value as before.
-/

namespace Dkyb

open Stateful

variable {T A : Type}

/-- The query threw the same exception or returned the same element on both. -/
def SameAnswer (source target : State T A) (query : Query) : Prop :=
  reply query.locate source = reply query.locate target ∨
    SameReading (reply query.ask source) (reply query.ask target)

structure Preserves (source target : State T A) : Prop where
  capacity : target.this.capacity = source.this.capacity
  size : target.this.size = source.this.size
  full : target.this.full = source.this.full
  available : target.this.available = source.this.available
  answers : ∀ query : Query, SameAnswer source target query

/-- `member`, run on the target `t`, hands on every observation of the object
    `other` and leaves that object empty. -/
def HandsOn (member : Op T A (RingBuffer A)) (other : RingBuffer A) (t : State T A) : Prop :=
  ∃ left target, member.run t = .ok left target ∧ left.size = 0 ∧ Preserves ⟨other, t.mem⟩ target

/-- `back()` may go to the slot `k` instead of where it went. -/
def BackKept (s : State T A) (k : Nat) : Prop :=
  s.this.count_ = 0 ∨ k = s.this.backIndex ∨
    SameReading (.ok (s.cell s.this.backIndex).content) (.ok (s.cell k).content)

instance [DecidableEq T] : ∀ x y : Except Exn (Option T), Decidable (SameReading x y)
  | .ok (some v), .ok (some w) => inferInstanceAs (Decidable (v = w))
  | .error e, .error e' => inferInstanceAs (Decidable (e = e'))
  | .ok none, _ | .ok (some _), .ok none | .ok (some _), .error _ | .error _, .ok _ => .isFalse id

instance [DecidableEq T] (s : State T A) (k : Nat) : Decidable (BackKept s k) :=
  inferInstanceAs (Decidable (_ ∨ _ ∨ _))

/-! ## What the target becomes -/

/-- The target has the source's block and cursors, and some overwrite flag and
    position of its own. -/
structure TookOver (source target : State T A) : Prop where
  this : target.this = { source.this with
    justOverwrote_ := target.this.justOverwrote_
    overwritePosition_ := target.this.overwritePosition_ }
  cell : ∀ k, target.cell k = source.cell k

namespace TookOver

variable {source target : State T A}

theorem place (h : TookOver source target) {query : Query}
    (other : query ≠ .back ∨ source.this.count_ = 0) :
    query.place target.this = query.place source.this := by
  rw [h.this]
  rcases other with notBack | empty
  · cases query with
    | front | index i => rfl
    | back => exact absurd rfl notBack
  · cases query with
    | front | index i => rfl
    | back => simp only [Query.place, empty, if_true]

theorem sameAnswer_outside_back (h : TookOver source target) {query : Query}
    (other : query ≠ .back ∨ source.this.count_ = 0) : SameAnswer source target query :=
  .inl (by rw [reply_locate, reply_locate, h.place other])

theorem sameAnswer_back_iff (h : TookOver source target) :
    SameAnswer source target .back ↔ BackKept source target.this.backIndex := by
  by_cases empty : source.this.count_ = 0
  · exact iff_of_true (h.sameAnswer_outside_back (.inr empty)) (.inl empty)
  · have count : target.this.count_ ≠ 0 := by rwa [h.this]
    have buffer : target.this.buffer_ = source.this.buffer_ := by rw [h.this]
    have sameSlot : reply Query.back.locate source = reply Query.back.locate target ↔
        target.this.backIndex = source.this.backIndex := by
      rw [reply_locate, reply_locate, Query.place, Query.place, if_neg empty, if_neg count, buffer]
      simp [eq_comm]
    rw [SameAnswer, sameSlot, reply_ask_back empty, reply_ask_back count, h.cell, BackKept]
    simp only [empty, false_or]

theorem preserves_iff (h : TookOver source target) :
    Preserves source target ↔ BackKept source target.this.backIndex := by
  constructor
  · intro preserves
    exact h.sameAnswer_back_iff.mp (preserves.answers .back)
  · intro kept
    exact {
      capacity := by rw [h.this]; rfl
      size := by rw [h.this]; rfl
      full := by rw [h.this]; rfl
      available := by rw [h.this]; rfl
      answers := fun query => by
        by_cases back : query = .back
        · rw [back]
          exact h.sameAnswer_back_iff.mpr kept
        · exact h.sameAnswer_outside_back (.inl back) }

end TookOver

/-- A member that takes over and leaves the other object empty. -/
theorem handsOn_iff {member : Op T A (RingBuffer A)} {other left : RingBuffer A} {t target : State T A}
    (run : member.run t = .ok left target) (empty : left.count_ = 0)
    (took : TookOver ⟨other, t.mem⟩ target) :
    HandsOn member other t ↔ BackKept ⟨other, t.mem⟩ target.this.backIndex := by
  rw [← took.preserves_iff]
  constructor
  · rintro ⟨left', target', run', -, preserves⟩
    rw [run] at run'
    cases run'
    exact preserves
  · intro preserves
    exact ⟨left, target, run, empty, preserves⟩

/-- `back()` reads the same slots when the memory is shared. -/
theorem backKept_congr {s t : State T A} (beside : Beside s t) (k : Nat) :
    BackKept (⟨s.this, t.mem⟩ : State T A) k ↔ BackKept s k := by
  have cells : ∀ j, (⟨s.this, t.mem⟩ : State T A).cell j = s.cell j := fun j => beside.slots _ rfl
  simp only [BackKept, cells]

namespace State

/-- The slot `back()` goes to after moving the object `source` into a new one. -/
def backConstructed (source : RingBuffer A) : Nat := source.decrementIndex source.tail_

/-- The same after move assignment to the object `target`. -/
def backAssigned (source target : RingBuffer A) : Nat :=
  if target.justOverwrote_ then target.overwritePosition_ else source.decrementIndex source.tail_

variable {s t : State T A}

theorem moveConstructed_tookOver (other : RingBuffer A) :
    TookOver ⟨other, t.mem⟩ (t.moveConstructed other) := ⟨rfl, fun _ => rfl⟩

theorem moveAssigned_tookOver (beside : Beside s t) :
    TookOver ⟨s.this, t.mem⟩ (t.moveAssigned s.this) where
  this := rfl
  cell k := by
    have frame := Frame.cleared t
    have kept := frame.elsewhere ⟨s.this.buffer_, k⟩ beside.apart.symm
    simpa only [cell, moveAssigned, mapThis_mem, mapThis_this, deallocated_slots] using kept

theorem moveAssigned_backIndex (other : RingBuffer A) :
    (t.moveAssigned other).this.backIndex = backAssigned other t.this := by
  have kept : t.cleared.deallocated.this.justOverwrote_ = t.this.justOverwrote_ ∧
      t.cleared.deallocated.this.overwritePosition_ = t.this.overwritePosition_ := by
    simp only [deallocated_this, cleared, mapThis_this, vacated_this, RingBuffer.reset, and_self]
  simp only [moveAssigned, mapThis_this, RingBuffer.backIndex, kept.1, kept.2, backAssigned]
  rfl

end State

/-- A move of any buffer, into a new object or onto any target beside it, hands
    on everything exactly when the slot `back()` goes to then is the one it went
    to or holds the same element. -/
theorem hands_on_iff (s t : State T A) (traits : AllocatorTraits A) (beside : Beside s t) :
    (HandsOn (RingBuffer.moveConstruct traits s.this) s.this
        ⟨RingBuffer.blank s.this.allocator_, t.mem⟩ ↔ BackKept s (State.backConstructed s.this)) ∧
      (HandsOn (RingBuffer.moveAssign traits false s.this) s.this t ↔
        BackKept s (State.backAssigned s.this t.this)) := by
  constructor
  · rw [handsOn_iff (run_moveConstruct traits s.this _) rfl (State.moveConstructed_tookOver s.this)]
    exact backKept_congr beside _
  · rw [handsOn_iff (run_moveAssign traits s.this t) rfl (State.moveAssigned_tookOver beside),
      State.moveAssigned_backIndex]
    exact backKept_congr beside _

/-- A partly filled source after an overwrite-free history, and a target that
    popped after it overwrote. -/
theorem hands_on_two :
    let s := (State.created 3 () : State Nat Unit).after [.pushBack 7, .emplaceBack 8, .popFront]
    let t := (final (RingBuffer.create 1 ()) ⟨RingBuffer.blank (), s.mem⟩).after
      [.pushBack 1, .pushBack 2, .popFront]
    HandsOn (RingBuffer.moveConstruct .standard s.this) s.this ⟨RingBuffer.blank (), t.mem⟩ ∧
      HandsOn (RingBuffer.moveAssign .standard false s.this) s.this t := by
  intro s t
  have beside : Beside s t :=
    (Beside.created (by decide) (by decide : 0 < 1) () () _).after _
  have both := hands_on_iff s t .standard beside
  exact ⟨both.1.mpr (by decide), both.2.mpr (by decide)⟩

/-- The constructor drops the flag of a source that just overwrote: `back()` was
    3 and is 2. The assignment keeps the flag of a target that just overwrote:
    `back()` was 6 and is 5. -/
theorem hands_on_fails :
    let s := (State.created 2 () : State Nat Unit).after [.pushBack 1, .pushBack 2, .pushBack 3]
    let moved := final (RingBuffer.moveConstruct .standard s.this) ⟨RingBuffer.blank (), s.mem⟩
    let s' := (State.created 3 () : State Nat Unit).after [.pushBack 5, .pushBack 6]
    let t := (final (RingBuffer.create 1 ()) ⟨RingBuffer.blank (), s'.mem⟩).after
      [.pushBack 7, .pushBack 8]
    let assigned := final (RingBuffer.moveAssign .standard false s'.this) t
    (reply Query.back.ask s = .ok (some 3) ∧ reply Query.back.ask moved = .ok (some 2)) ∧
      (reply Query.back.ask s' = .ok (some 6) ∧ reply Query.back.ask assigned = .ok (some 5)) ∧
      ¬ HandsOn (RingBuffer.moveConstruct .standard s.this) s.this ⟨RingBuffer.blank (), s.mem⟩ ∧
      ¬ HandsOn (RingBuffer.moveAssign .standard false s'.this) s'.this t := by
  refine ⟨⟨rfl, rfl⟩, ⟨rfl, rfl⟩, ?_, ?_⟩
  · rintro ⟨left, target, run, -, preserves⟩
    cases run
    rcases preserves.answers .back with same | same
    · cases same
    · cases same
  · rintro ⟨left, target, run, -, preserves⟩
    cases run
    rcases preserves.answers .back with same | same
    · cases same
    · cases same

end Dkyb
