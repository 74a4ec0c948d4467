import Mathlib.Data.List.Nodup
import Mathlib.Logic.Function.Basic

/-! # Resources that are handed out once and given back once

Holders hold at most one ticket each. A ledger records every ticket handed out
and every ticket given back; it is sound when every ticket is either held by one
holder or was given back once. The rules say how handing out, giving back and
handing over keep it sound.
-/

namespace Ledger

variable {ι τ κ : Type*}

/-- `key` names the resource a ticket is for. -/
structure Sound (key : τ → κ) (holding : ι → Option τ) (issued returned : List τ) : Prop where
  distinct : (issued.map key).Nodup
  once : (returned.map key).Nodup
  known : ∀ t ∈ returned, t ∈ issued
  held : ∀ i t, holding i = some t → t ∈ issued ∧ t ∉ returned
  exclusive : ∀ i j t u, holding i = some t → holding j = some u → key t = key u → i = j
  settled : ∀ t ∈ issued, t ∈ returned ∨ ∃ i, holding i = some t

namespace Sound

variable {key : τ → κ} {holding : ι → Option τ} {issued returned : List τ}

theorem empty : Sound key (fun _ : ι => none) [] [] where
  distinct := List.nodup_nil
  once := List.nodup_nil
  known _ member := absurd member List.not_mem_nil
  held _ _ holds := by cases holds
  exclusive _ _ _ _ holds := by cases holds
  settled _ member := absurd member List.not_mem_nil

/-- Tickets for one resource are one ticket. -/
theorem ticket_eq (h : Sound key holding issued returned) {t u : τ} (ht : t ∈ issued)
    (hu : u ∈ issued) (same : key t = key u) : t = u :=
  List.inj_on_of_nodup_map h.distinct ht hu same

variable [DecidableEq ι] {i j : ι}

/-- A fresh ticket goes to a holder that has none. -/
theorem acquire (h : Sound key holding issued returned) {t : τ} (free : holding i = none)
    (fresh : key t ∉ issued.map key) :
    Sound key (Function.update holding i (some t)) (t :: issued) returned where
  distinct := List.nodup_cons.mpr ⟨fresh, h.distinct⟩
  once := h.once
  known u member := List.mem_cons_of_mem _ (h.known u member)
  held k u holds := by
    by_cases here : k = i
    · subst here
      rw [Function.update_self] at holds
      cases holds
      exact ⟨List.mem_cons_self, fun member => fresh (List.mem_map_of_mem (h.known _ member))⟩
    · rw [Function.update_of_ne here] at holds
      obtain ⟨inside, outside⟩ := h.held k u holds
      exact ⟨List.mem_cons_of_mem _ inside, outside⟩
  exclusive k l u v holdsU holdsV same := by
    have apart : ∀ m w, m ≠ i → Function.update holding i (some t) m = some w →
        key w ≠ key t := by
      intro m w other holds clash
      rw [Function.update_of_ne other] at holds
      exact fresh (clash ▸ List.mem_map_of_mem (h.held m w holds).1)
    by_cases hk : k = i <;> by_cases hl : l = i
    · exact hk.trans hl.symm
    · rw [hk, Function.update_self] at holdsU
      cases holdsU
      exact absurd same.symm (apart l v hl holdsV)
    · rw [hl, Function.update_self] at holdsV
      cases holdsV
      exact absurd same (apart k u hk holdsU)
    · rw [Function.update_of_ne hk] at holdsU
      rw [Function.update_of_ne hl] at holdsV
      exact h.exclusive k l u v holdsU holdsV same
  settled u member := by
    cases List.mem_cons.mp member with
    | inl same => exact .inr ⟨i, by rw [Function.update_self, same]⟩
    | inr older =>
        cases h.settled u older with
        | inl back => exact .inl back
        | inr holder =>
            obtain ⟨k, holds⟩ := holder
            refine .inr ⟨k, ?_⟩
            rw [Function.update_of_ne, holds]
            rintro rfl
            rw [free] at holds
            cases holds

/-- A holder gives its ticket back, if it has one. -/
theorem give_back (h : Sound key holding issued returned) (i : ι) :
    Sound key (Function.update holding i none) issued ((holding i).toList ++ returned) := by
  have others : ∀ k u, Function.update holding i none k = some u → k ≠ i ∧ holding k = some u := by
    intro k u holds
    by_cases here : k = i
    · subst here
      rw [Function.update_self] at holds
      cases holds
    · rw [Function.update_of_ne here] at holds
      exact ⟨here, holds⟩
  cases mine : holding i with
  | none =>
      have unchanged : Function.update holding i none = holding := by
        rw [← mine]
        exact Function.update_eq_self i holding
      rw [unchanged]
      exact h
  | some t =>
      obtain ⟨inside, outside⟩ := h.held i t mine
      exact {
        distinct := h.distinct
        once := by
          refine List.nodup_cons.mpr ⟨fun member => ?_, h.once⟩
          obtain ⟨u, back, same⟩ := List.mem_map.mp member
          rw [h.ticket_eq (h.known u back) inside same] at back
          exact outside back
        known := by
          intro u member
          cases List.mem_cons.mp member with
          | inl same => rwa [same]
          | inr older => exact h.known u older
        held := by
          intro k u holds
          obtain ⟨apart, holds⟩ := others k u holds
          obtain ⟨known, kept⟩ := h.held k u holds
          refine ⟨known, fun member => ?_⟩
          cases List.mem_cons.mp member with
          | inl same => exact apart (h.exclusive k i u t holds mine (by rw [same]))
          | inr older => exact kept older
        exclusive := by
          intro k l u v holdsU holdsV same
          exact h.exclusive k l u v (others k u holdsU).2 (others l v holdsV).2 same
        settled := by
          intro u member
          cases h.settled u member with
          | inl back => exact .inl (List.mem_cons_of_mem _ back)
          | inr holder =>
              obtain ⟨k, holds⟩ := holder
              by_cases here : k = i
              · subst here
                rw [mine] at holds
                cases holds
                exact .inl List.mem_cons_self
              · exact .inr ⟨k, by rw [Function.update_of_ne here, holds]⟩ }

/-- One holder hands its ticket over to another that has none. -/
theorem hand_over (h : Sound key holding issued returned) (apart : i ≠ j)
    (free : holding i = none) :
    Sound key (Function.update (Function.update holding i (holding j)) j none) issued returned := by
  have moved : ∀ k, Function.update (Function.update holding i (holding j)) j none k =
      if k = j then none else if k = i then holding j else holding k := by
    intro k
    simp only [Function.update_apply]
  have origin : ∀ k u, Function.update (Function.update holding i (holding j)) j none k = some u →
      ∃ l, holding l = some u ∧ (k = i ∧ l = j ∨ k = l ∧ k ≠ i ∧ k ≠ j) := by
    intro k u holds
    rw [moved] at holds
    by_cases hj : k = j
    · rw [if_pos hj] at holds
      cases holds
    · rw [if_neg hj] at holds
      by_cases hi : k = i
      · rw [if_pos hi] at holds
        exact ⟨j, holds, .inl ⟨hi, rfl⟩⟩
      · rw [if_neg hi] at holds
        exact ⟨k, holds, .inr ⟨rfl, hi, hj⟩⟩
  exact {
    distinct := h.distinct
    once := h.once
    known := h.known
    held := by
      intro k u holds
      obtain ⟨l, holds, -⟩ := origin k u holds
      exact h.held l u holds
    exclusive := by
      intro k l u v holdsU holdsV same
      obtain ⟨k', holdsU, hk⟩ := origin k u holdsU
      obtain ⟨l', holdsV, hl⟩ := origin l v holdsV
      have := h.exclusive k' l' u v holdsU holdsV same
      grind
    settled := by
      intro u member
      cases h.settled u member with
      | inl back => exact .inl back
      | inr holder =>
          obtain ⟨k, holds⟩ := holder
          by_cases hj : k = j
          · exact .inr ⟨i, by rw [moved, if_neg apart, if_pos rfl, ← hj, holds]⟩
          · refine .inr ⟨k, ?_⟩
            rw [moved, if_neg hj, if_neg, holds]
            rintro rfl
            rw [free] at holds
            cases holds }

omit [DecidableEq ι] in
/-- When nobody holds a ticket any more, everything was given back exactly once. -/
theorem perm_of_idle (h : Sound key holding issued returned) (idle : ∀ i, holding i = none) :
    issued.Perm returned := by
  refine (List.perm_ext_iff_of_nodup (List.Nodup.of_map key h.distinct)
    (List.Nodup.of_map key h.once)).mpr fun t => ⟨fun member => ?_, h.known t⟩
  cases h.settled t member with
  | inl back => exact back
  | inr holder =>
      obtain ⟨i, holds⟩ := holder
      rw [idle i] at holds
      cases holds

end Sound

end Ledger
