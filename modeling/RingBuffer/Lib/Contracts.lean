import Mathlib
import RingBuffer.Lib.Stateful

/-! # Contracts of programs that may throw

Triples over `EStateM` say what a run guarantees when it returns and what when it
throws. They are read off runs here, and a counting loop gets its rule.
-/

namespace Stateful

open Std.Do

set_option mvcgen.warning false

variable {ε σ α : Type}

/-- A weakest precondition speaks about the end of the run. -/
theorem wp_run (x : EStateM ε σ α) (Q : PostCond α (.except ε (.arg σ .pure))) (s : σ) :
    (wp⟦x⟧ Q s).down ↔ match x.run s with
      | .ok a s' => (Q.1 a s').down
      | .error e s' => (Q.2.1 e s').down := by
  cases run : x.run s <;> simp only [WP.wp, PredTrans.apply, run]

section Ends

variable {x : EStateM ε σ α} {pre : σ → Prop} {post : α → σ → Prop} {failed : ε → σ → Prop}
  (contract : ⦃fun s => ⌜pre s⌝⦄ x ⦃post⟨fun a s => ⌜post a s⌝, fun e s => ⌜failed e s⌝⟩⦄)
  {s s' : σ} (start : pre s)

include contract start

theorem post_of_run {a : α} (run : x.run s = .ok a s') : post a s' := by
  have ended := (wp_run x _ s).mp (contract s start)
  rw [run] at ended
  exact ended

theorem failed_of_run {e : ε} (run : x.run s = .error e s') : failed e s' := by
  have ended := (wp_run x _ s).mp (contract s start)
  rw [run] at ended
  exact ended

/-- Which way out was taken, and what holds there. -/
theorem ends_of_contract :
    threw x s = false ∧ (∃ a, post a (final x s)) ∨ threw x s = true ∧ ∃ e, failed e (final x s) := by
  unfold threw final
  cases run : x.run s with
  | ok a s' => exact .inl ⟨rfl, a, post_of_run contract start run⟩
  | error e s' => exact .inr ⟨rfl, e, failed_of_run contract start run⟩

/-- What holds on both ways out. -/
theorem final_of_contract {holds : σ → Prop} (returned : ∀ a s', post a s' → holds s')
    (threw : ∀ e s', failed e s' → holds s') : holds (final x s) := by
  unfold final
  cases run : x.run s with
  | ok a s' => exact returned a s' (post_of_run contract start run)
  | error e s' => exact threw e s' (failed_of_run contract start run)

end Ends

/-- A program that always returns need not promise anything for a throw. -/
theorem noThrow_of_ok {x : EStateM ε σ α} {pre : σ → Prop} {post : α → σ → Prop}
    {failed : ε → σ → Prop} (returns : ∀ s, ∃ a s', x.run s = .ok a s')
    (contract : ⦃fun s => ⌜pre s⌝⦄ x ⦃post⟨fun a s => ⌜post a s⌝, fun e s => ⌜failed e s⌝⟩⦄) :
    ⦃fun s => ⌜pre s⌝⦄ x ⦃⇓ a s => ⌜post a s⌝⦄ := by
  intro s start
  obtain ⟨a, s', run⟩ := returns s
  apply (wp_run x _ s).mpr
  rw [run]
  exact post_of_run contract start run

/-- An invariant of the rounds of a loop. A round that throws ends the loop. -/
theorem forRange_spec {I : Nat → σ → Prop} {failed : ε → σ → Prop} {n : Nat}
    {body : Nat → EStateM ε σ Unit}
    (round : ∀ i < n, ⦃fun s => ⌜I i s⌝⦄ body i
      ⦃post⟨fun _ s => ⌜I (i + 1) s⌝, fun e s => ⌜failed e s⌝⟩⦄) :
    ⦃fun s => ⌜I 0 s⌝⦄ forRange n body
      ⦃post⟨fun _ s => ⌜I n s⌝, fun e s => ⌜failed e s⌝⟩⦄ := by
  induction n with
  | zero =>
      simp only [forRange]
      mvcgen
  | succ n ih =>
      have earlier := ih fun i inside => round i (Nat.lt_succ_of_lt inside)
      have last := round n (Nat.lt_succ_self n)
      simp only [forRange]
      mvcgen [earlier, last]

end Stateful
