import RingBuffer.Lib.Stateful

/-! # Programs that cannot be told apart

Two programs over related states are bisimilar when they return the same value
or throw the same exception and leave related states. Bisimilar programs compose,
and a client that calls one bisimilar program after the other sees the same
replies on both sides.
-/

namespace Stateful

variable {ε σ τ ℓ α β : Type}

/-- Both runs ended the same way, in related states. -/
def EndAlike (R : σ → τ → Prop) : EStateM.Result ε σ α → EStateM.Result ε τ α → Prop
  | .ok a s, .ok b t => a = b ∧ R s t
  | .error e s, .error f t => e = f ∧ R s t
  | .ok _ _, .error _ _ | .error _ _, .ok _ _ => False

def Bisimilar (R : σ → τ → Prop) (x : EStateM ε σ α) (y : EStateM ε τ α) : Prop :=
  ∀ s t, R s t → EndAlike R (x.run s) (y.run t)

namespace Bisimilar

variable {R : σ → τ → Prop}

theorem pure (a : α) : Bisimilar R (pure a : EStateM ε σ α) (pure a) :=
  fun _ _ related => ⟨rfl, related⟩

/-- Both read something of the state that related states have in common. -/
theorem observe {f : σ → α} {g : τ → α} (same : ∀ s t, R s t → f s = g t) :
    Bisimilar R (f <$> get : EStateM ε σ α) (g <$> get) :=
  fun s t related => ⟨same s t related, related⟩

theorem bind {x : EStateM ε σ α} {y : EStateM ε τ α} {f : α → EStateM ε σ β}
    {g : α → EStateM ε τ β} (first : Bisimilar R x y) (rest : ∀ a, Bisimilar R (f a) (g a)) :
    Bisimilar R (x >>= f) (y >>= g) := by
  intro s t related
  have ended := first s t related
  simp only [EStateM.run_bind]
  cases left : x.run s with
  | ok a s' =>
      cases right : y.run t with
      | ok b t' =>
          rw [left, right] at ended
          obtain ⟨rfl, related'⟩ := ended
          exact rest a s' t' related'
      | error f t' =>
          rw [left, right] at ended
          exact ended.elim
  | error e s' =>
      cases right : y.run t with
      | ok b t' =>
          rw [left, right] at ended
          exact ended.elim
      | error f t' =>
          rw [left, right] at ended
          exact ended

theorem map {x : EStateM ε σ α} {y : EStateM ε τ α} (f : α → β) (h : Bisimilar R x y) :
    Bisimilar R (f <$> x) (f <$> y) := by
  rw [map_eq_pure_bind, map_eq_pure_bind]
  exact h.bind fun a => pure (f a)

theorem reply_eq {x : EStateM ε σ α} {y : EStateM ε τ α} (h : Bisimilar R x y) {s : σ} {t : τ}
    (related : R s t) : reply x s = reply y t := by
  have ended := h s t related
  unfold reply
  cases left : x.run s <;> cases right : y.run t <;> rw [left, right] at ended
  · exact congrArg Except.ok ended.1
  · exact ended.elim
  · exact ended.elim
  · exact congrArg Except.error ended.1

theorem final_related {x : EStateM ε σ α} {y : EStateM ε τ α} (h : Bisimilar R x y) {s : σ} {t : τ}
    (related : R s t) : R (final x s) (final y t) := by
  have ended := h s t related
  unfold final
  cases left : x.run s <;> cases right : y.run t <;> rw [left, right] at ended
  · exact ended.2
  · exact ended.elim
  · exact ended.elim
  · exact ended.2

end Bisimilar

/-- What a client gets from calling one program after the other. -/
def replies (perform : ℓ → EStateM ε σ α) : σ → List ℓ → List (Except ε α)
  | _, [] => []
  | s, l :: ls => reply (perform l) s :: replies perform (final (perform l) s) ls

/-- Run lemma. -/
theorem Bisimilar.replies_eq {R : σ → τ → Prop} {perform : ℓ → EStateM ε σ α}
    {perform' : ℓ → EStateM ε τ α} (each : ∀ l, Bisimilar R (perform l) (perform' l)) {s : σ} {t : τ}
    (related : R s t) (ls : List ℓ) : replies perform s ls = replies perform' t ls := by
  induction ls generalizing s t with
  | nil => rfl
  | cons l ls ih =>
      rw [replies, replies, (each l).reply_eq related]
      exact congrArg _ (ih ((each l).final_related related))

end Stateful
