import RingBuffer.Lib.Tally

/-! # Those who wait and those who come

As long as anybody waits, every unit of what is waited for should have somebody
coming for it. One party moves at a time: what its move may cost is what the supply
loses, and waking a waiter is worth one more unit.
-/

namespace Coverage

open Tally

variable {ι β : Type*} [Fintype ι]

def Covered (waits comes : β → Bool) (supply : Nat) (f : ι → β) : Prop :=
  (∃ k, waits (f k) = true) → supply ≤ tally comes f

variable {waits comes : β → Bool} {supply supply' : Nat} {f g : ι → β}

namespace Covered

theorem zero : Covered waits comes 0 f := fun _ => Nat.zero_le _

theorem fewer (h : Covered waits comes supply f) (le : supply' ≤ supply) :
    Covered waits comes supply' f := fun waiter => le.trans (h waiter)

theorem nobody (none : ∀ k, waits (f k) = false) : Covered waits comes supply f := by
  rintro ⟨k, waiter⟩
  rw [none k] at waiter
  cases waiter

theorem congr (h : Covered waits comes supply f) (sameWait : ∀ k, waits (g k) = waits (f k))
    (sameCome : ∀ k, comes (g k) = comes (f k)) : Covered waits comes supply g := by
  rintro ⟨k, waiter⟩
  rw [tally_congr sameCome]
  exact h ⟨k, (sameWait k).symm.trans waiter⟩

variable [DecidableEq ι]

/-- One party moves and does not begin to wait. -/
theorem update (h : Covered waits comes supply f) {i : ι} {x : β} (awake : waits x = false)
    (enough : supply' + (comes (f i)).toNat ≤ supply + (comes x).toNat) :
    Covered waits comes supply' (Function.update f i x) := by
  rintro ⟨k, waiter⟩
  have before : waits (f k) = true := by
    by_cases same : k = i
    · subst same
      rw [Function.update_self, awake] at waiter
      cases waiter
    · rwa [Function.update_of_ne same] at waiter
  have covered := h ⟨k, before⟩
  have counts := tally_update comes f i x
  omega

/-- One party takes a unit, whether it was coming for it or not. -/
theorem taken (h : Covered waits comes supply f) {i : ι} {x : β} (awake : waits x = false) :
    Covered waits comes (supply - 1) (Function.update f i x) := by
  cases supply with
  | zero => exact zero
  | succ rest =>
      have atMostOne := Bool.toNat_le (comes (f i))
      apply h.update awake
      omega

/-- A party that did not come takes nothing with it. -/
theorem stays (h : Covered waits comes supply f) {i : ι} {x : β} (awake : waits x = false)
    (idle : comes (f i) = false) : Covered waits comes supply (Function.update f i x) := by
  apply h.update awake
  rw [idle]
  exact Nat.le_add_right _ _

/-- A waiter that is sent on its way comes for one more unit. -/
theorem sent (h : Covered waits comes supply f) {i : ι} {x : β} (awake : waits x = false)
    (idle : comes (f i) = false) (coming : comes x = true) :
    Covered waits comes (supply + 1) (Function.update f i x) := by
  apply h.update awake
  rw [idle, coming]
  exact Nat.le_refl _

end Covered

end Coverage
