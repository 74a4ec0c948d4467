import Mathlib.Init

/-! # Two machines run side by side

`Agrees` compares a machine with its specification after every step of a run;
`Guarded` says that every step of a run is taken from a state where a guard lets
it through. When a relation between the states makes a guarded step match and
survive, and makes an unguarded step fail to match, the runs that agree are
exactly the guarded ones.
-/

namespace Lockstep

variable {σ τ ℓ : Type}

/-- Every step of the run `ls` from `s` and `q` matches. -/
def Agrees (step : σ → ℓ → σ) (spec : τ → ℓ → τ) (Match : σ → τ → ℓ → Prop) :
    σ → τ → List ℓ → Prop
  | _, _, [] => True
  | s, q, l :: ls => Match s q l ∧ Agrees step spec Match (step s l) (spec q l) ls

/-- Every step of the run `ls` from `s` passes the guard. -/
def Guarded (step : σ → ℓ → σ) (ok : σ → ℓ → Prop) : σ → List ℓ → Prop
  | _, [] => True
  | s, l :: ls => ok s l ∧ Guarded step ok (step s l) ls

instance decidableGuarded (step : σ → ℓ → σ) (ok : σ → ℓ → Prop) [∀ s l, Decidable (ok s l)] :
    ∀ (s : σ) (ls : List ℓ), Decidable (Guarded step ok s ls)
  | _, [] => isTrue trivial
  | s, l :: ls =>
      have := decidableGuarded step ok (step s l) ls
      inferInstanceAs (Decidable (ok s l ∧ Guarded step ok (step s l) ls))

variable {step : σ → ℓ → σ} {spec : τ → ℓ → τ} {Match : σ → τ → ℓ → Prop} {ok : σ → ℓ → Prop}
  {R : σ → τ → Prop}

/-- An invariant of guarded steps holds at the end of a guarded run. -/
theorem invariant_after {I : σ → Prop} (keep : ∀ s l, I s → ok s l → I (step s l)) {s : σ}
    (start : I s) {ls : List ℓ} (guarded : Guarded step ok s ls) : I (ls.foldl step s) := by
  induction ls generalizing s with
  | nil => exact start
  | cons l ls ih => exact ih (keep s l start guarded.1) guarded.2

/-- The relation holds at the end of a guarded run. -/
theorem related_after (keep : ∀ s q l, R s q → ok s l → R (step s l) (spec q l)) {s : σ} {q : τ}
    (related : R s q) {ls : List ℓ} (guarded : Guarded step ok s ls) :
    R (ls.foldl step s) (ls.foldl spec q) := by
  induction ls generalizing s q with
  | nil => exact related
  | cons l ls ih => exact ih (keep s q l related guarded.1) guarded.2

theorem agrees_of_guarded (keep : ∀ s q l, R s q → ok s l → R (step s l) (spec q l))
    (good : ∀ s q l, R s q → ok s l → Match s q l) {s : σ} {q : τ} (related : R s q) {ls : List ℓ}
    (guarded : Guarded step ok s ls) : Agrees step spec Match s q ls := by
  induction ls generalizing s q with
  | nil => trivial
  | cons l ls ih =>
      exact ⟨good s q l related guarded.1, ih (keep s q l related guarded.1) guarded.2⟩

/-- Without a guard every run agrees. -/
theorem agrees_of_simulation (keep : ∀ s q l, R s q → R (step s l) (spec q l))
    (good : ∀ s q l, R s q → Match s q l) {s : σ} {q : τ} (related : R s q) (ls : List ℓ) :
    Agrees step spec Match s q ls := by
  induction ls generalizing s q with
  | nil => trivial
  | cons l ls ih => exact ⟨good s q l related, ih (keep s q l related)⟩

theorem agrees_iff_guarded (keep : ∀ s q l, R s q → ok s l → R (step s l) (spec q l))
    (good : ∀ s q l, R s q → ok s l → Match s q l)
    (bad : ∀ s q l, R s q → Match s q l → ok s l) {s : σ} {q : τ} (related : R s q)
    (ls : List ℓ) : Agrees step spec Match s q ls ↔ Guarded step ok s ls := by
  constructor
  · intro agrees
    induction ls generalizing s q with
    | nil => trivial
    | cons l ls ih =>
        have passes := bad s q l related agrees.1
        exact ⟨passes, ih (keep s q l related passes) agrees.2⟩
  · exact agrees_of_guarded keep good related

/-- Machines whose related states stay related and have equivalent guards let the
    same runs through. -/
theorem guarded_iff {ok' : τ → ℓ → Prop} (keep : ∀ s q l, R s q → R (step s l) (spec q l))
    (same : ∀ s q l, R s q → (ok s l ↔ ok' q l)) {s : σ} {q : τ} (related : R s q) (ls : List ℓ) :
    Guarded step ok s ls ↔ Guarded spec ok' q ls := by
  induction ls generalizing s q with
  | nil => exact Iff.rfl
  | cons l ls ih => exact and_congr (same s q l related) (ih (keep s q l related))

end Lockstep
