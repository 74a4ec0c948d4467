import RingBuffer.Frame
import RingBuffer.Lib.Potential
import RingBuffer.Representation

/-! # What a run costs

A call handles at most two elements, but `clear()` handles all there are. Each of them
was put in by a call that handled one, so over a whole run a call handles two on
average, whatever the capacity, and nothing is allocated.
-/

namespace Dkyb

open Stateful Potential

variable {T A : Type}

/-- A construction, a destruction, an assignment or a read of an element. -/
def Event.handles : Event A → Bool
  | .construct .. | .destroy .. | .assign .. | .read .. => true
  | _ => false

def Event.allocates : Event A → Bool
  | .allocate .. | .deallocate .. => true
  | _ => false

namespace State

/-- How many elements were handled so far. -/
def handled (s : State T A) : Nat := s.mem.trace.countP Event.handles

def blocksTraded (s : State T A) : Nat := s.mem.trace.countP Event.allocates

end State

section Calls

variable {s : State T A}

/-- What a call can do, whatever the buffer holds. -/
theorem final_cases (quiet : s.mem.fuse = none) (call : Update T) :
    (∃ v, s.this.full_ = false ∧ final call.perform s = s.appended v) ∨
      (∃ v, final call.perform s = s.overwritten v ∨ final call.perform s = s.replaced v) ∨
      (s.this.count_ ≠ 0 ∧ final call.perform s = s.popped) ∨ final call.perform s = s ∨
      (call = .clear ∧ final call.perform s = s.cleared) := by
  have insertion : ∀ v, call.inserted = some v →
      (s.this.full_ = false ∧ final call.perform s = s.appended v) ∨
        final call.perform s = s.overwritten v ∨ final call.perform s = s.replaced v := by
    intro v inserted
    cases full : s.this.full_ with
    | false => exact .inl ⟨rfl, final_of_run (run_insert_room quiet v inserted full)⟩
    | true =>
        rcases run_insert_full quiet v inserted full with run | run
        · exact .inr (.inl (final_of_run run))
        · exact .inr (.inr (final_of_run run))
  cases call with
  | pushBack v | pushBackMove v | emplaceBack v =>
      rcases insertion v rfl with room | full
      · exact .inl ⟨v, room⟩
      · exact .inr (.inl ⟨v, full⟩)
  | popFront =>
      by_cases empty : s.this.count_ = 0
      · exact .inr (.inr (.inr (.inl (final_of_error (run_perform_popFront_empty empty)))))
      · exact .inr (.inr (.inl ⟨empty, final_of_run (run_perform_popFront quiet empty)⟩))
  | clear => exact .inr (.inr (.inr (.inr ⟨rfl, final_of_run (run_perform_clear s)⟩)))

theorem vacated_costs (s : State T A) (n : Nat) :
    (s.vacated n).handled = s.handled + n ∧ (s.vacated n).blocksTraded = s.blocksTraded ∧
      (s.vacated n).mem.trace.length = s.mem.trace.length + 3 * n := by
  induction n with
  | zero => exact ⟨rfl, rfl, rfl⟩
  | succ n ih =>
      simp only [State.handled, State.blocksTraded] at ih ⊢
      simp only [State.vacated, List.countP_cons, Event.handles, Event.allocates, List.length_cons, ih,
        Bool.false_eq_true, if_false, if_true]
      omega

/-- What one call costs, and what it leaves to be paid for. -/
structure Costs (s s' : State T A) : Prop where
  handled : s'.handled + s'.this.count_ ≤ s.handled + s.this.count_ + 2
  acts : s'.mem.trace.length + 3 * s'.this.count_ ≤
    s.mem.trace.length + 3 * s.this.count_ + 6
  blocks : s'.blocksTraded = s.blocksTraded

/-- A call that lets these events happen and leaves these elements. -/
theorem costs_of_events {s' : State T A} (call : Update T) (events : List (Event A)) {n : Nat}
    (trace : s'.mem.trace = events ++ s.mem.trace) (handled : events.countP Event.handles = n)
    (blocks : events.countP Event.allocates = 0) (few : n ≤ 2)
    (saved : n + s'.this.count_ ≤ s.this.count_ + 2)
    (paid : events.length + 3 * s'.this.count_ ≤ 3 * s.this.count_ + 6) :
    Costs s s' ∧ (call ≠ .clear → s'.handled ≤ s.handled + 2) := by
  have total : s'.handled = n + s.handled := by
    rw [State.handled, trace, List.countP_append, handled, State.handled]
  refine ⟨⟨by omega, ?_, ?_⟩, fun _ => by omega⟩
  · rw [trace, List.length_append]
    omega
  · rw [State.blocksTraded, trace, List.countP_append, blocks, Nat.zero_add, State.blocksTraded]

/-- Step lemma. -/
theorem costs (quiet : s.mem.fuse = none) (call : Update T) :
    Costs s (final call.perform s) ∧
      (call ≠ .clear → (final call.perform s).handled ≤ s.handled + 2) := by
  rcases final_cases quiet call with
    ⟨v, room, same⟩ | ⟨v, same | same⟩ | ⟨nonempty, same⟩ | same | ⟨rfl, same⟩
  · have more : (s.appended v).this.count_ = s.this.count_ + 1 := by
      simp only [State.appended, RingBuffer.incrementTail_eq s.this room]
    rw [same]
    apply costs_of_events (n := 1) call [.modulo _, .construct _ _, .subscript _ _ _] rfl rfl rfl
    · omega
    · omega
    · simp only [List.length_cons, List.length_nil]
      omega
  · have full : (s.overwritten v).this.count_ = s.this.count_ := rfl
    rw [same]
    apply costs_of_events (n := 1) call [.modulo _, .assign _ _, .subscript _ _ _] rfl rfl rfl
    · omega
    · omega
    · simp only [List.length_cons, List.length_nil]
      omega
  · have full : (s.replaced v).this.count_ = s.this.count_ := rfl
    rw [same]
    apply costs_of_events (n := 2) call [.modulo _, .construct _ _, .subscript _ _ _, .destroy _ _,
      .subscript _ _ _] rfl rfl rfl
    · omega
    · omega
    · simp only [List.length_cons, List.length_nil]
      omega
  · have fewer : s.popped.this.count_ = s.this.count_ - 1 := by
      simp only [State.popped, RingBuffer.incrementHead_eq]
    rw [same]
    apply costs_of_events (n := 2) call [.modulo _, .destroy _ _, .subscript _ _ _, .read _ _,
      .subscript _ _ _] rfl rfl rfl
    · omega
    · omega
    · simp only [List.length_cons, List.length_nil]
      omega
  · rw [same]
    exact ⟨⟨by omega, by omega, rfl⟩, fun _ => by omega⟩
  · obtain ⟨handled, blocks, acts⟩ := vacated_costs s s.this.count_
    have none : s.cleared.this.count_ = 0 := rfl
    have handled : s.cleared.handled = s.handled + s.this.count_ := handled
    have acts : s.cleared.mem.trace.length = s.mem.trace.length + 3 * s.this.count_ := acts
    rw [same]
    exact ⟨⟨by omega, by omega, blocks⟩, fun other => absurd rfl other⟩

end Calls

theorem pays_handled : Pays (fun (s : State T A) (call : Update T) => final call.perform s)
    (fun s => s.mem.fuse = none) State.handled (fun s => s.this.count_) 2 where
  keep _ call quiet := (Frame.update quiet call).fuse.trans quiet
  pays _ call quiet := (costs quiet call).1.handled

theorem pays_acts : Pays (fun (s : State T A) (call : Update T) => final call.perform s)
    (fun s => s.mem.fuse = none) (fun s => s.mem.trace.length) (fun s => 3 * s.this.count_) 6 where
  keep _ call quiet := (Frame.update quiet call).fuse.trans quiet
  pays _ call quiet := (costs quiet call).1.acts

theorem blocksTraded_after {s : State T A} (quiet : s.mem.fuse = none) (updates : List (Update T)) :
    (s.after updates).blocksTraded = s.blocksTraded := by
  induction updates generalizing s with
  | nil => rfl
  | cons call updates ih =>
      exact (ih ((Frame.update quiet call).fuse.trans quiet)).trans (costs quiet call).1.blocks

/-- A run of `n` calls on a new buffer of any capacity, `clear()` included, handles at
    most `2 * n` elements and does at most `6 * n` things in all; the calls allocate and
    release nothing; and only `clear()` may handle more than two elements at once. -/
theorem calls_cost_constant {c : Nat} (pos : 0 < c) (a : A) (updates : List (Update T)) :
    let s := (State.created c a : State T A).after updates
    s.handled + s.this.size ≤ 2 * updates.length ∧
      s.mem.trace.length + 3 * s.this.size ≤ 6 * updates.length + 1 ∧ s.blocksTraded = 1 ∧
      ∀ call : Update T, call ≠ .clear → (final call.perform s).handled ≤ s.handled + 2 := by
  intro s
  have start : Holds c (State.created c a : State T A) [] := Holds.created pos a
  have empty : (State.created c a : State T A).this.count_ = 0 := start.count
  have trace : (State.created c a : State T A).mem.trace = [.allocate 0 c a] := by
    rw [created_eq pos]
    rfl
  have handled := pays_handled.run start.quiet updates
  have acts := pays_acts.run start.quiet updates
  have blocks := blocksTraded_after start.quiet updates
  have nothing : (State.created c a : State T A).handled = 0 := by
    rw [State.handled, trace]
    rfl
  have one : (State.created c a : State T A).blocksTraded = 1 := by
    rw [State.blocksTraded, trace]
    rfl
  rw [nothing, empty] at handled
  rw [trace, empty] at acts
  rw [one] at blocks
  refine ⟨?_, ?_, blocks, fun call => (costs ?_ call).2⟩
  · calc s.handled + s.this.size ≤ 0 + 0 + 2 * updates.length := handled
      _ = 2 * updates.length := by omega
  · calc s.mem.trace.length + 3 * s.this.size ≤ 1 + 3 * 0 + 6 * updates.length := acts
      _ = 6 * updates.length + 1 := by omega
  · exact (Frame.after start.quiet updates).fuse.trans start.quiet

/-- Three calls that fill and empty the buffer in one go. -/
theorem calls_cost_constant_two :
    ((State.created 2 () : State Nat Unit).after [.pushBack 1, .pushBack 2, .clear]).handled = 4 ∧
      ((State.created 2 () : State Nat Unit).after [.pushBack 1, .pushBack 2, .clear]).handled +
        ((State.created 2 () : State Nat Unit).after [.pushBack 1, .pushBack 2, .clear]).this.size ≤
          2 * 3 :=
  ⟨by decide, (calls_cost_constant (by decide) () [.pushBack 1, .pushBack 2, .clear]).1⟩

end Dkyb
