import Mathlib.Algebra.Group.Nat.Defs

/-! # Cursors in machine words

A cursor runs below a modulus in words of any width. As long as twice the modulus
fits the width, the sums, differences and remainders that move it around are
those of the numbers the words stand for.
-/

namespace Words

variable {w : Nat} {a b m : BitVec w}

/-- The range holds twice the modulus. -/
structure Roomy (m : BitVec w) : Prop where
  pos : 0 < m.toNat
  twice : 2 * m.toNat < 2 ^ w

namespace Roomy

theorem toNat_one (h : Roomy m) : (1 : BitVec w).toNat = 1 := by
  have pos := h.pos
  have twice := h.twice
  have one : (1 : BitVec w).toNat = 1 % 2 ^ w := rfl
  rw [one, Nat.mod_eq_of_lt (by omega)]

theorem toNat_add (h : Roomy m) (ha : a.toNat < m.toNat) (hb : b.toNat ≤ m.toNat) :
    (a + b).toNat = a.toNat + b.toNat := by
  have twice := h.twice
  exact BitVec.toNat_add_of_lt (by omega)

theorem toNat_succ (h : Roomy m) (ha : a.toNat ≤ m.toNat) : (a + 1).toNat = a.toNat + 1 := by
  have pos := h.pos
  have twice := h.twice
  have one := h.toNat_one
  rw [BitVec.toNat_add_of_lt (by omega), one]

theorem toNat_pred (h : Roomy m) (ha : 0 < a.toNat) : (a - 1).toNat = a.toNat - 1 := by
  have one := h.toNat_one
  rw [BitVec.toNat_sub_of_le (by rw [BitVec.le_def]; omega), one]

end Roomy

end Words
