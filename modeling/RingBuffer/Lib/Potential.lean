import Mathlib.Init

/-! # Paying in advance

A machine keeps an account of what its steps cost. Each step pays the same: part of it
for its own cost and the rest into a potential, from which a dear step may take.
-/

namespace Potential

variable {σ ℓ : Type*}

/-- A step from a state in `I` pays `k`. -/
structure Pays (step : σ → ℓ → σ) (I : σ → Prop) (cost potential : σ → Nat) (k : Nat) : Prop where
  keep : ∀ s l, I s → I (step s l)
  pays : ∀ s l, I s → cost (step s l) + potential (step s l) ≤ cost s + potential s + k

variable {step : σ → ℓ → σ} {I : σ → Prop} {cost potential : σ → Nat} {k : Nat}

/-- Run lemma. -/
theorem Pays.run (h : Pays step I cost potential k) {s : σ} (start : I s) (ls : List ℓ) :
    cost (ls.foldl step s) + potential (ls.foldl step s) ≤ cost s + potential s + k * ls.length := by
  induction ls generalizing s with
  | nil => exact Nat.le_refl _
  | cons l ls ih =>
      have rest := ih (h.keep s l start)
      have first := h.pays s l start
      simp only [List.foldl_cons, List.length_cons, Nat.mul_succ]
      omega

end Potential
