import Mathlib.Data.List.Basic

/-! # The bounded queue that drops its oldest entry

The purpose of a ring buffer as a client sees it: a first-in first-out queue of
at most `c` entries, in which a push onto a full queue drops the oldest entry.
-/

namespace DropOldest

inductive Command (α : Type) where
  | push (v : α)
  | pop
  | clear

inductive Answer (α : Type) where
  | done
  | item (v : α)
  /-- A pop of an empty queue. -/
  | empty

variable {α : Type}

/-- Append, first dropping the head of a queue that already has `c` entries. -/
def push (c : Nat) (q : List α) (v : α) : List α := (if q.length = c then q.tail else q) ++ [v]

def step (c : Nat) (q : List α) : Command α → List α
  | .push v => push c q v
  | .pop => q.tail
  | .clear => []

def answer (q : List α) : Command α → Answer α
  | .push _ | .clear => .done
  | .pop => match q with
    | [] => .empty
    | v :: _ => .item v

theorem push_room {c : Nat} {q : List α} (room : q.length < c) (v : α) :
    push c q v = q ++ [v] := by
  simp only [push, Nat.ne_of_lt room, if_false]

theorem push_full {c : Nat} {q : List α} (full : q.length = c) (v : α) :
    push c q v = q.tail ++ [v] := by
  simp only [push, full, if_true]

/-- The last `c` entries of a list, or all of them when there are fewer. -/
def window (c : Nat) (xs : List α) : List α := xs.drop (xs.length - c)

theorem window_length (c : Nat) (xs : List α) : (window c xs).length = min xs.length c := by
  simp only [window, List.length_drop]
  omega

theorem window_nil (c : Nat) : window c ([] : List α) = [] := List.drop_nil

/-- Pushing keeps the queue at the window of everything pushed so far. -/
theorem push_window {c : Nat} (pos : 0 < c) (xs : List α) (v : α) :
    push c (window c xs) v = window c (xs ++ [v]) := by
  have size := window_length c xs
  rcases Nat.lt_or_ge xs.length c with fewer | enough
  · rw [push_room (by omega)]
    simp only [window, List.length_append, List.length_singleton,
      show xs.length - c = 0 by omega, show xs.length + 1 - c = 0 by omega, List.drop_zero]
  · rw [push_full (by omega)]
    simp only [window, List.length_append, List.length_singleton, List.tail_drop]
    rw [show xs.length + 1 - c = xs.length - c + 1 by omega, List.drop_append_of_le_length (by omega)]

/-! ## Counting -/

/-- What the commands of a run tell about a queue without its entries: how many
    it holds, how many were dropped since the run began or the queue was last
    cleared, and whether the last push or successful pop since then dropped one. -/
structure Drops where
  held : Nat
  dropped : Nat
  justDropped : Bool
  deriving DecidableEq, Repr

namespace Drops

def initial : Drops := ⟨0, 0, false⟩

def step (c : Nat) (d : Drops) : Command α → Drops
  | .push _ =>
      if d.held = c then ⟨d.held, d.dropped + 1, true⟩ else ⟨d.held + 1, d.dropped, false⟩
  | .pop => if d.held = 0 then d else ⟨d.held - 1, d.dropped, false⟩
  | .clear => initial

/-- A push that finds room comes after a multiple of `c` drops. -/
def Straight (c : Nat) (d : Drops) : Command α → Prop
  | .push _ => d.held ≠ c → c ∣ d.dropped
  | .pop | .clear => True

instance (c : Nat) (d : Drops) : ∀ command : Command α, Decidable (d.Straight c command)
  | .push _ => inferInstanceAs (Decidable (_ → _))
  | .pop | .clear => inferInstanceAs (Decidable True)

end Drops

end DropOldest
