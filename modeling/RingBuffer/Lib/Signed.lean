import Mathlib.Algebra.BigOperators.Group.Finset.Piecewise
import Mathlib.Algebra.Order.BigOperators.Group.Finset
import Mathlib.Data.Fintype.Basic
import Mathlib.Data.List.Perm.Subperm
import Mathlib.Data.List.Nodup

/-! # Logs with one author for each entry

Several parties write into one log. `entries i log` is what party `i` wrote, in
the order it wrote it. Two logs that agree for every party are permutations of
each other.
-/

namespace Signed

variable {ι α β : Type*} [DecidableEq ι]

/-- The entries of one party. -/
def entries (i : ι) (log : List (ι × α)) : List α :=
  log.filterMap fun entry => if entry.1 = i then some entry.2 else none

variable {i j : ι} {log log' : List (ι × α)}

@[simp] theorem entries_nil : entries i ([] : List (ι × α)) = [] := rfl

@[simp] theorem entries_append : entries i (log ++ log') = entries i log ++ entries i log' :=
  List.filterMap_append

@[simp] theorem entries_own (i : ι) (written : List α) :
    entries i (written.map fun v => (i, v)) = written := by
  simp [entries, List.filterMap_map]

theorem entries_other (apart : j ≠ i) (written : List α) :
    entries i (written.map fun v => (j, v)) = [] := by
  simp [entries, List.filterMap_map, apart]

/-- The entries that `f` makes something of, still signed. -/
def select (f : α → Option β) (log : List (ι × α)) : List (ι × β) :=
  log.filterMap fun entry => (f entry.2).map fun v => (entry.1, v)

omit [DecidableEq ι] in
@[simp] theorem select_append (f : α → Option β) (log log' : List (ι × α)) :
    select f (log ++ log') = select f log ++ select f log' :=
  List.filterMap_append

theorem entries_select (i : ι) (f : α → Option β) (log : List (ι × α)) :
    entries i (select f log) = (entries i log).filterMap f := by
  induction log with
  | nil => rfl
  | cons entry log ih =>
      obtain ⟨j, v⟩ := entry
      by_cases own : j = i
      · subst own
        cases picked : f v with
        | none => simpa [entries, select, picked] using ih
        | some w => simpa [entries, select, picked] using ih
      · cases picked : f v with
        | none => simpa [entries, select, picked, own] using ih
        | some w => simpa [entries, select, picked, own] using ih

omit [DecidableEq ι] in
theorem map_select (f : α → Option β) (log : List (ι × α)) :
    (select f log).map Prod.snd = log.filterMap fun entry => f entry.2 := by
  simp only [select, List.map_filterMap, Option.map_map, Function.comp_def, Option.map_id_fun', id]

/-- One more entry. -/
theorem entries_select_snoc (i j : ι) (f : α → Option β) (log : List (ι × α)) (v : α) :
    entries i (select f (log ++ [(j, v)])) =
      entries i (select f log) ++ if j = i then (f v).toList else [] := by
  rw [select_append, entries_append, entries_select i f [(j, v)]]
  by_cases own : j = i
  · cases picked : f v <;> simp [entries, own, picked]
  · simp [entries, own]

/-- What only one party's entries can give is given by its entries. -/
theorem filterMap_entries {f : α → Option β}
    (only : ∀ x ∈ log, (f x.2).isSome = true → x.1 = i) :
    log.filterMap (fun entry => f entry.2) = (entries i log).filterMap f := by
  induction log with
  | nil => rfl
  | cons entry log ih =>
      obtain ⟨j, v⟩ := entry
      have rest := ih fun x member => only x (List.mem_cons_of_mem _ member)
      by_cases own : j = i
      · subst own
        cases picked : f v <;> simpa [entries, picked] using rest
      · have nothing : f v = none := by
          rw [← Option.not_isSome_iff_eq_none]
          exact fun some => own (only (j, v) List.mem_cons_self some)
        simpa [entries, own, nothing] using rest

theorem mem_entries {v : α} : v ∈ entries i log ↔ (i, v) ∈ log := by
  simp [entries]

theorem count_entries [DecidableEq α] (i : ι) (v : α) (log : List (ι × α)) :
    (entries i log).count v = log.count (i, v) := by
  induction log with
  | nil => rfl
  | cons entry log ih =>
      obtain ⟨j, w⟩ := entry
      by_cases own : j = i
      · subst own
        by_cases same : w = v
        · subst same
          simp [entries] at ih ⊢
          exact ih
        · simp [entries, same] at ih ⊢
          exact ih
      · simp [entries, own] at ih ⊢
        exact ih

/-- Every entry has its author. -/
theorem sum_length_entries [Fintype ι] (log : List (ι × α)) :
    ∑ i, (entries i log).length = log.length := by
  induction log with
  | nil => simp
  | cons entry log ih =>
      obtain ⟨j, v⟩ := entry
      have each : ∀ i, (entries i ((j, v) :: log)).length =
          (if j = i then 1 else 0) + (entries i log).length := by
        intro i
        by_cases own : j = i
        · simp [entries, own, Nat.add_comm]
        · simp [entries, own]
      simp only [each, Finset.sum_add_distrib, ih, Finset.sum_ite_eq, Finset.mem_univ, if_true,
        List.length_cons, Nat.add_comm]

/-- A log in which every party wrote on has at least as much to select. -/
theorem length_select_le [Fintype ι] (f : α → Option β)
    (more : ∀ i, entries i log <+: entries i log') :
    (select f log).length ≤ (select f log').length := by
  rw [← sum_length_entries, ← sum_length_entries (select f log')]
  apply Finset.sum_le_sum
  intro i _
  rw [entries_select, entries_select]
  exact ((more i).filterMap f).length_le

/-- Who wrote what determines the log up to the order of different parties. -/
theorem perm_of_entries (same : ∀ i, entries i log = entries i log') : log.Perm log' := by
  classical
  apply List.perm_iff_count.mpr
  rintro ⟨i, v⟩
  rw [← count_entries, ← count_entries, same]

/-- A label that no party uses twice and that tells its author occurs once. -/
theorem nodup_map {f : α → β} (each : ∀ i, ((entries i log).map f).Nodup)
    (author : ∀ x ∈ log, ∀ y ∈ log, f x.2 = f y.2 → x.1 = y.1) :
    (log.map fun entry => f entry.2).Nodup := by
  induction log with
  | nil => exact List.nodup_nil
  | cons entry log ih =>
      obtain ⟨j, v⟩ := entry
      have own : entries j ((j, v) :: log) = v :: entries j log := by simp [entries]
      have first := each j
      rw [own, List.map_cons, List.nodup_cons] at first
      rw [List.map_cons, List.nodup_cons]
      refine ⟨?_, ih ?_ ?_⟩
      · intro again
        obtain ⟨⟨k, w⟩, member, same⟩ := List.mem_map.mp again
        obtain rfl : k = j :=
          author (k, w) (List.mem_cons_of_mem _ member) (j, v) List.mem_cons_self same
        exact first.1 (List.mem_map.mpr ⟨w, mem_entries.mpr member, same⟩)
      · intro k
        have all := each k
        by_cases same : j = k
        · subst same
          exact first.2
        · simpa [entries, same] using all
      · intro x hx y hy
        exact author x (List.mem_cons_of_mem _ hx) y (List.mem_cons_of_mem _ hy)

end Signed
