import Mathlib.Init

/-! # Programs with a state that survives an exception

`EStateM ε σ` is the meaning of imperative code whose side effects stay when it
throws. A run has a reply (a value or an exception) and a final state.
-/

namespace Stateful

variable {ε σ α β : Type}

/-- What a run hands back to its caller. -/
def reply (x : EStateM ε σ α) (s : σ) : Except ε α :=
  match x.run s with
  | .ok a _ => .ok a
  | .error e _ => .error e

/-- The state a run leaves behind, also when it throws. -/
def final (x : EStateM ε σ α) (s : σ) : σ :=
  match x.run s with
  | .ok _ s' => s'
  | .error _ s' => s'

/-- The run ends with an exception. -/
def threw (x : EStateM ε σ α) (s : σ) : Bool :=
  match x.run s with
  | .ok _ _ => false
  | .error _ _ => true

/-- `for (i = 0; i < n; ++i) body(i)`. -/
def forRange : Nat → (Nat → EStateM ε σ Unit) → EStateM ε σ Unit
  | 0, _ => pure ()
  | n + 1, body => do
      forRange n body
      body n

theorem reply_of_run {x : EStateM ε σ α} {s s' : σ} {a : α} (h : x.run s = .ok a s') :
    reply x s = .ok a := by
  simp only [reply, h]

theorem final_of_run {x : EStateM ε σ α} {s s' : σ} {a : α} (h : x.run s = .ok a s') :
    final x s = s' := by
  simp only [final, h]

theorem reply_of_error {x : EStateM ε σ α} {s s' : σ} {e : ε} (h : x.run s = .error e s') :
    reply x s = .error e := by
  simp only [reply, h]

theorem final_of_error {x : EStateM ε σ α} {s s' : σ} {e : ε} (h : x.run s = .error e s') :
    final x s = s' := by
  simp only [final, h]

/-- A program that fails after a first part that returned fails in the rest. -/
theorem error_of_bind {x : EStateM ε σ α} {f : α → EStateM ε σ β} {s s₁ s' : σ} {a : α} {e : ε}
    (first : x.run s = .ok a s₁) (run : (x >>= f).run s = .error e s') :
    (f a).run s₁ = .error e s' := by
  rwa [EStateM.run_bind, first] at run

@[simp] theorem run_map (f : α → β) (x : EStateM ε σ α) (s : σ) :
    (f <$> x).run s =
      match x.run s with
      | .ok a s' => .ok (f a) s'
      | .error e s' => .error e s' := rfl

@[simp] theorem run_throw (e : ε) (s : σ) : (throw e : EStateM ε σ α).run s = .error e s := rfl

end Stateful
