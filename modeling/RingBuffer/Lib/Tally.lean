import Mathlib.Algebra.BigOperators.Group.Finset.Piecewise
import Mathlib.Algebra.Order.BigOperators.Group.Finset
import Mathlib.Data.Fintype.Basic

/-! # How many parties are in a given condition

`tally p f` counts the indices whose entry in the table `f` satisfies `p`. A
change of one entry moves a tally by what that entry and its replacement count.
-/

namespace Tally

variable {ι β : Type*} [Fintype ι]

def tally (p : β → Bool) (f : ι → β) : Nat := (Finset.univ.filter fun i => p (f i)).card

variable {p q : β → Bool} {f g : ι → β}

theorem tally_zero_iff : tally p f = 0 ↔ ∀ i, p (f i) = false := by
  simp [tally, Finset.filter_eq_empty_iff]

/-- Tables that agree on what counts have the same tally. -/
theorem tally_congr (same : ∀ i, q (g i) = p (f i)) : tally q g = tally p f := by
  simp only [tally, same]

theorem tally_eq_sum (p : β → Bool) (f : ι → β) : tally p f = ∑ i, (p (f i)).toNat := by
  rw [tally, Finset.card_filter]
  apply Finset.sum_congr rfl
  intro i _
  cases p (f i) <;> rfl

variable [DecidableEq ι]

theorem tally_update (p : β → Bool) (f : ι → β) (i : ι) (x : β) :
    tally p (Function.update f i x) + (p (f i)).toNat = tally p f + (p x).toNat := by
  have others : ∀ j ∈ Finset.univ.erase i,
      (p (Function.update f i x j)).toNat = (p (f j)).toNat := by
    intro j member
    rw [Function.update_of_ne (Finset.ne_of_mem_erase member)]
  have total : ∀ g : ι → β, tally p g = ∑ j, (p (g j)).toNat := by
    intro g
    rw [tally, Finset.card_filter]
    apply Finset.sum_congr rfl
    intro j _
    cases p (g j) <;> rfl
  rw [total, total, ← Finset.add_sum_erase _ _ (Finset.mem_univ i),
    ← Finset.add_sum_erase _ _ (Finset.mem_univ i), Finset.sum_congr rfl others,
    Function.update_self]
  omega

/-- Sums that differ in one summand, and in others only downwards. -/
theorem sum_exchange_le (u v : ι → Nat) (i : ι) (others : ∀ j, j ≠ i → v j ≤ u j) :
    (∑ j, v j) + u i ≤ (∑ j, u j) + v i := by
  rw [← Finset.add_sum_erase _ _ (Finset.mem_univ i),
    ← Finset.add_sum_erase _ u (Finset.mem_univ i)]
  have rest : ∑ j ∈ Finset.univ.erase i, v j ≤ ∑ j ∈ Finset.univ.erase i, u j :=
    Finset.sum_le_sum fun j member => others j (Finset.ne_of_mem_erase member)
  omega

theorem sum_exchange (u v : ι → Nat) (i : ι) (others : ∀ j, j ≠ i → v j = u j) :
    (∑ j, v j) + u i = (∑ j, u j) + v i :=
  Nat.le_antisymm (sum_exchange_le u v i fun j other => (others j other).le)
    (sum_exchange_le v u i fun j other => (others j other).ge)

/-- The same for any weight of an entry. -/
theorem sum_update (w : β → Nat) (f : ι → β) (i : ι) (x : β) :
    (∑ j, w (Function.update f i x j)) + w (f i) = (∑ j, w (f j)) + w x := by
  have others : ∀ j, j ≠ i → w (Function.update f i x j) = w (f j) := by
    intro j other
    rw [Function.update_of_ne other]
  have exchanged := sum_exchange (fun j => w (f j)) _ i others
  rwa [Function.update_self] at exchanged

end Tally
