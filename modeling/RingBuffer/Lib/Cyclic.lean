import Mathlib.Data.Finset.Card
import Mathlib.Logic.Function.Basic
import Mathlib.Data.List.Basic
import Mathlib.Data.Nat.ModEq

/-! # Lists laid out cyclically

A finite list can be kept in the cells `0 .. c - 1` of a store by putting its
`i`-th entry at position `(h + i) % c`, for some head position `h`. The rules
below say what appending, dropping the first entry and replacing the first entry
by a new last one do to such a layout, and what goes wrong when an entry is put
anywhere but right behind the last one.
-/

namespace Cyclic

/-- Fewer than `c` steps from the same head never come back to the same cell. -/
theorem position_injective {c h i j : Nat} (hi : i < c) (hj : j < c)
    (same : (h + i) % c = (h + j) % c) : i = j := by
  have cancelled : i ≡ j [MOD c] := Nat.ModEq.add_left_cancel' h same
  rwa [Nat.ModEq, Nat.mod_eq_of_lt hi, Nat.mod_eq_of_lt hj] at cancelled

/-- So they do not fit into fewer cells. -/
theorem count_le_of_positions_lt {c h n k : Nat} (bound : n ≤ c)
    (below : ∀ i < n, (h + i) % c < k) : n ≤ k := by
  have fits := Finset.card_le_card_of_injOn (s := Finset.range n) (t := Finset.range k)
    (fun i => (h + i) % c) (fun i inside => by
      simp only [Finset.coe_range, Set.mem_Iio] at inside ⊢
      exact below i inside) (fun i hi j hj same => by
      simp only [Finset.coe_range, Set.mem_Iio] at hi hj
      exact position_injective (Nat.lt_of_lt_of_le hi bound) (Nat.lt_of_lt_of_le hj bound) same)
  simpa only [Finset.card_range] using fits

theorem position_zero {c h : Nat} (inside : h < c) : (h + 0) % c = h := Nat.mod_eq_of_lt inside

/-- Steps counted from the next head are the later steps of the old one. -/
theorem position_next (c h i : Nat) : ((h + 1) % c + i) % c = (h + (i + 1)) % c := by
  rw [Nat.mod_add_mod]
  congr 1
  omega

/-- Every cell is some number of steps below `c` away from the head. -/
theorem position_surjective {c h k : Nat} (hk : k < c) (hh : h < c) :
    ∃ i, i < c ∧ k = (h + i) % c := by
  refine ⟨(k + (c - h)) % c, Nat.mod_lt _ (by omega), ?_⟩
  rw [Nat.add_mod_mod, show h + (k + (c - h)) = k + c by omega, Nat.add_mod_right,
    Nat.mod_eq_of_lt hk]

/-- `Laid cell blank c h q`: the store `cell` holds exactly the list `q`, starting
    at `h` and going round modulo `c`; every other cell is `blank`. -/
structure Laid {β : Type*} (cell : Nat → β) (blank : β) (c h : Nat) (q : List β) : Prop where
  fits : q.length ≤ c
  head_lt : h < c
  entry : ∀ i (hi : i < q.length), cell ((h + i) % c) = q[i]
  rest : ∀ k, (∀ i < q.length, k ≠ (h + i) % c) → cell k = blank

namespace Laid

variable {β : Type*} {cell : Nat → β} {blank v : β} {c h k : Nat} {q : List β}

theorem pos (laid : Laid cell blank c h q) : 0 < c := Nat.zero_lt_of_lt laid.head_lt

theorem empty (hh : h < c) (all : ∀ k, cell k = blank) : Laid cell blank c h [] where
  fits := Nat.zero_le _
  head_lt := hh
  entry i hi := absurd hi (Nat.not_lt_zero i)
  rest k _ := all k

/-- The cell right behind the last entry is blank while there is room. -/
theorem next_blank (laid : Laid cell blank c h q) (room : q.length < c) :
    cell ((h + q.length) % c) = blank := by
  apply laid.rest
  intro i hi same
  have := position_injective (by omega) (by omega) same
  omega

theorem first (laid : Laid cell blank c h (v :: q)) : cell h = v := by
  have entry := laid.entry 0 (by simp)
  rwa [position_zero laid.head_lt] at entry

theorem append (laid : Laid cell blank c h q) (room : q.length < c) (v : β) :
    Laid (Function.update cell ((h + q.length) % c) v) blank c h (q ++ [v]) where
  fits := by simp; omega
  head_lt := laid.head_lt
  entry i hi := by
    rcases Nat.lt_or_ge i q.length with inside | beyond
    · have apart : (h + i) % c ≠ (h + q.length) % c := by
        intro same
        have := position_injective (by omega) room same
        omega
      rw [Function.update_of_ne apart, List.getElem_append_left inside]
      exact laid.entry i inside
    · have last : i = q.length := by
        simp only [List.length_append, List.length_singleton] at hi
        omega
      subst last
      simp
  rest k outside := by
    have apart : k ≠ (h + q.length) % c := outside q.length (by simp)
    rw [Function.update_of_ne apart]
    exact laid.rest k fun i hi => outside i (by simp; omega)

theorem drop_first (laid : Laid cell blank c h (v :: q)) :
    Laid (Function.update cell h blank) blank c ((h + 1) % c) q where
  fits := by
    have := laid.fits
    simp only [List.length_cons] at this
    omega
  head_lt := Nat.mod_lt _ laid.pos
  entry i hi := by
    have bound := laid.fits
    simp only [List.length_cons] at bound
    have apart : (h + (i + 1)) % c ≠ h := by
      intro same
      have := position_injective (i := i + 1) (j := 0) (by omega) laid.pos
        (same.trans (position_zero laid.head_lt).symm)
      omega
    rw [position_next, Function.update_of_ne apart]
    exact laid.entry (i + 1) (by simpa using hi)
  rest k outside := by
    by_cases atHead : k = h
    · subst atHead
      exact Function.update_self ..
    · rw [Function.update_of_ne atHead]
      apply laid.rest
      intro i hi
      cases i with
      | zero => rwa [position_zero laid.head_lt]
      | succ i =>
          rw [← position_next]
          exact outside i (by simpa using hi)

/-- When the list fills the store, the cell of its first entry is also the one
    right behind its last entry: a new last entry can take it over. -/
theorem replace_first {x : β} (laid : Laid cell blank c h (x :: q)) (filled : q.length + 1 = c)
    (v : β) : Laid (Function.update cell h v) blank c ((h + 1) % c) (q ++ [v]) := by
  have shorter := laid.drop_first
  have target : ((h + 1) % c + q.length) % c = h := by
    rw [position_next, filled, Nat.add_mod_right, Nat.mod_eq_of_lt laid.head_lt]
  have extended := shorter.append (by omega) v
  rw [target, Function.update_idem] at extended
  exact extended

/-- An entry put elsewhere leaves the cell behind the last entry blank. -/
theorem misplaced (laid : Laid cell blank c h q) (room : q.length < c)
    (elsewhere : k ≠ (h + q.length) % c) (v : β) :
    Function.update cell k v ((h + q.length) % c) = blank := by
  rw [Function.update_of_ne elsewhere.symm]
  exact laid.next_blank room

end Laid

end Cyclic
