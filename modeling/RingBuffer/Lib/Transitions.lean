import Mathlib.Init

/-! # Runs of a partial machine

A step takes a state and a label and may be disabled. `Reaches` is reachability
by steps that all pass a guard; a property that holds at the start and that
guarded steps keep holds of every state reached. `observed` lets a run write its
own history next to the state.
-/

namespace Transitions

variable {σ ℓ ω γ : Type*}

/-- `t` is reached from `s` by steps that all pass `ok`. -/
inductive Reaches (step : σ → ℓ → Option (σ × ω)) (ok : σ → ℓ → Prop) (s : σ) : σ → Prop where
  | start : Reaches step ok s s
  | next {t u : σ} {l : ℓ} {r : ω} : Reaches step ok s t → ok t l → step t l = some (u, r) →
      Reaches step ok s u

variable {step : σ → ℓ → Option (σ × ω)} {ok : σ → ℓ → Prop} {s t u : σ}

namespace Reaches

theorem invariant {I : σ → Prop} (start : I s)
    (keep : ∀ t l u r, I t → ok t l → step t l = some (u, r) → I u)
    (reached : Reaches step ok s t) : I t := by
  induction reached with
  | start => exact start
  | next _ passes stepped ih => exact keep _ _ _ _ ih passes stepped

theorem trans (first : Reaches step ok s t) (second : Reaches step ok t u) :
    Reaches step ok s u := by
  induction second with
  | start => exact first
  | next _ passes stepped ih => exact .next ih passes stepped

/-- What an invariant and the guard make of each step may be the guard as well. -/
theorem strengthen {I : σ → Prop} {ok' : σ → ℓ → Prop} (start : I s)
    (keep : ∀ t l u r, I t → ok t l → step t l = some (u, r) → I u)
    (passes : ∀ t l, I t → ok t l → ok' t l) (reached : Reaches step ok s t) :
    Reaches step ok' s t := by
  have both : I t ∧ Reaches step ok' s t := by
    induction reached with
    | start => exact ⟨start, .start⟩
    | next _ guard stepped ih =>
        exact ⟨keep _ _ _ _ ih.1 guard stepped, .next ih.2 (passes _ _ ih.1 guard) stepped⟩
  exact both.2

/-- A machine each of whose steps is a step of another one, or none of its steps,
    only visits what the other one reaches. -/
theorem project {σ' ℓ' ω' : Type*} {step' : σ' → ℓ' → Option (σ' × ω')} {ok' : σ' → ℓ' → Prop}
    (f : σ → σ') (each : ∀ t l u r, ok t l → step t l = some (u, r) →
      f u = f t ∨ ∃ l' r', ok' (f t) l' ∧ step' (f t) l' = some (f u, r'))
    (reached : Reaches step ok s t) : Reaches step' ok' (f s) (f t) := by
  induction reached with
  | start => exact .start
  | next _ guard stepped ih =>
      rcases each _ _ _ _ guard stepped with same | ⟨l', r', guard', stepped'⟩
      · rwa [same]
      · exact .next ih guard' stepped'

end Reaches

/-- At most `n` guarded steps, rightly chosen, lead to `goal`. -/
inductive Within (step : σ → ℓ → Option (σ × ω)) (ok : σ → ℓ → Prop) (goal : σ → Prop) :
    σ → Nat → Prop where
  | here {s : σ} {n : Nat} : goal s → Within step ok goal s n
  | next {s t : σ} {l : ℓ} {r : ω} {n : Nat} : ok s l → step s l = some (t, r) →
      Within step ok goal t n → Within step ok goal s (n + 1)

namespace Within

variable {goal : σ → Prop} {n m : Nat}

theorem mono (within : Within step ok goal s n) (le : n ≤ m) : Within step ok goal s m := by
  induction within generalizing m with
  | here there => exact .here there
  | next passes stepped _ ih =>
      obtain ⟨m, rfl⟩ := Nat.exists_eq_add_of_lt le
      exact .next passes stepped (ih (by omega))

theorem reaches (within : Within step ok goal s n) : ∃ t, Reaches step ok s t ∧ goal t := by
  induction within with
  | here there => exact ⟨_, .start, there⟩
  | next passes stepped _ ih =>
      obtain ⟨t, reached, there⟩ := ih
      exact ⟨t, .trans (.next .start passes stepped) reached, there⟩

/-- Rule for reaching a goal: short of it, some guarded step keeps the invariant and
    lowers the measure. -/
theorem of_measure {I : σ → Prop} {s : σ} (measure : σ → Nat)
    (progress : ∀ s, I s → goal s ∨
      ∃ l t r, ok s l ∧ step s l = some (t, r) ∧ I t ∧ measure t < measure s)
    (start : I s) : Within step ok goal s (measure s) := by
  rcases progress s start with there | ⟨l, t, r, passes, stepped, kept, lower⟩
  · exact .here there
  · obtain ⟨n, bound⟩ := Nat.exists_eq_add_of_lt lower
    rw [bound]
    exact .next passes stepped ((of_measure measure progress kept).mono (Nat.le_add_right _ n))
termination_by measure s

end Within

/-- The state after a schedule, when every step of it is enabled and passes the
    guard. -/
def exec (step : σ → ℓ → Option (σ × ω)) (ok : σ → ℓ → Prop) [∀ s l, Decidable (ok s l)] (s : σ) :
    List ℓ → Option σ
  | [] => some s
  | l :: ls => if ok s l then (step s l).bind fun next => exec step ok next.1 ls else none

theorem Reaches.of_exec [∀ s l, Decidable (ok s l)] {ls : List ℓ}
    (ran : exec step ok s ls = some t) : Reaches step ok s t := by
  induction ls generalizing s with
  | nil =>
      cases ran
      exact .start
  | cons l ls ih =>
      unfold exec at ran
      split at ran
      · obtain ⟨next, stepped, rest⟩ := Option.bind_eq_some_iff.mp ran
        exact Reaches.trans (.next .start ‹_› stepped) (ih rest)
      · cases ran

/-! ## Histories -/

/-- The machine that also records every step it takes. -/
def observed (step : σ → ℓ → Option (σ × ω)) (record : γ → σ → ℓ → ω → γ) (s : σ × γ) (l : ℓ) :
    Option ((σ × γ) × ω) :=
  (step s.1 l).map fun next => ((next.1, record s.2 s.1 l next.2), next.2)

theorem observed_some {record : γ → σ → ℓ → ω → γ} {s t : σ × γ} {l : ℓ} {r : ω} :
    observed step record s l = some (t, r) ↔
      step s.1 l = some (t.1, r) ∧ t.2 = record s.2 s.1 l r := by
  obtain ⟨u, h⟩ := t
  simp only [observed, Option.map_eq_some_iff, Prod.mk.injEq]
  constructor
  · rintro ⟨next, stepped, ⟨rfl, rfl⟩, rfl⟩
    exact ⟨stepped, rfl⟩
  · rintro ⟨stepped, rfl⟩
    exact ⟨(u, r), stepped, ⟨rfl, rfl⟩, rfl⟩

/-- A recorded run is a run. -/
theorem Reaches.of_observed {record : γ → σ → ℓ → ω → γ} {ok : σ × γ → ℓ → Prop} {s t : σ × γ}
    (reached : Reaches (observed step record) ok s t) :
    Reaches step (fun _ _ => True) s.1 t.1 :=
  reached.project Prod.fst fun _ l _ r _ stepped =>
    .inr ⟨l, r, trivial, (observed_some.mp stepped).1⟩

end Transitions
