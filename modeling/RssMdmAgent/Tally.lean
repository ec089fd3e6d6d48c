import Mathlib.Algebra.BigOperators.Group.Finset.Piecewise
import Mathlib.Algebra.BigOperators.Group.List.Lemmas
import Mathlib.Tactic.Linarith

set_option autoImplicit false

/-! # Amounts under keys, and counters that stop at a limit -/

namespace RssMdmAgent.Tally
open scoped BigOperators

variable {κ α β : Type} [DecidableEq κ]

def total (entries : List (κ × Nat)) (k : κ) : Nat := ((entries.filter (·.1 = k)).map (·.2)).sum

section Totals
variable {entries later : List (κ × Nat)} {k : κ}

@[simp] theorem total_nil : total [] k = 0 := rfl

@[simp] theorem total_cons (entry : κ × Nat) :
    total (entry :: entries) k = (if entry.1 = k then entry.2 else 0) + total entries k := by
  unfold total
  rw [List.filter_cons]
  split <;> simp_all

@[simp] theorem total_append : total (entries ++ later) k = total entries k + total later k := by
  simp [total]

theorem total_perm (same : entries.Perm later) : total entries k = total later k :=
  ((same.filter _).map _).sum_eq

theorem total_of_ne (other : ∀ entry ∈ entries, entry.1 ≠ k) : total entries k = 0 := by
  induction entries with
  | nil => rfl
  | cons entry rest ih =>
    obtain ⟨here, later⟩ := List.forall_mem_cons.mp other
    rw [total_cons, if_neg here, ih later]

theorem total_filter (condition : κ → Bool) :
    total (entries.filter fun entry => condition entry.1) k =
      if condition k then total entries k else 0 := by
  induction entries with
  | nil => simp
  | cons entry rest ih =>
    rw [List.filter_cons]
    by_cases same : entry.1 = k
    · subst same
      by_cases chosen : condition entry.1 = true <;> simp [chosen, ih]
    · by_cases chosen : condition entry.1 = true <;> simp [chosen, same, ih]

theorem total_coarse {γ : Type} [DecidableEq γ] (f : κ → γ) (g : γ) (keys : Finset κ)
    (cover : ∀ entry ∈ entries, entry.1 ∈ keys) :
    total (entries.map fun entry => (f entry.1, entry.2)) g =
      ∑ k ∈ keys with f k = g, total entries k := by
  induction entries with
  | nil => simp
  | cons entry rest ih =>
    obtain ⟨here, cover⟩ := List.forall_mem_cons.mp cover
    simp only [List.map_cons, total_cons, ih cover, Finset.sum_add_distrib, Finset.sum_ite_eq,
      Finset.mem_filter, here, true_and]

theorem total_map_congr {γ : Type} [DecidableEq γ] (f : κ → γ) (g : γ)
    (same : ∀ k, total entries k = total later k) :
    total (entries.map fun entry => (f entry.1, entry.2)) g =
      total (later.map fun entry => (f entry.1, entry.2)) g := by
  let keys := ((entries ++ later).map (·.1)).toFinset
  have cover : ∀ list ⊆ entries ++ later, ∀ entry ∈ list, entry.1 ∈ keys := by
    intro list sub entry mem
    exact List.mem_toFinset.mpr (List.mem_map_of_mem (sub mem))
  rw [total_coarse f g keys (cover entries (List.subset_append_left _ _)),
    total_coarse f g keys (cover later (List.subset_append_right _ _))]
  exact Finset.sum_congr rfl fun k _ => same k

theorem total_distinct {ι : Type} [DecidableEq ι] {list : List ι} (distinct : list.Nodup) {f : ι → κ}
    (injective : Function.Injective f) (amount : ι → Nat) (i : ι) :
    total (list.map fun i => (f i, amount i)) (f i) = if i ∈ list then amount i else 0 := by
  induction list with
  | nil => rfl
  | cons first rest ih =>
    obtain ⟨absent, distinct⟩ := List.nodup_cons.mp distinct
    rw [List.map_cons, total_cons, ih distinct]
    by_cases same : first = i
    · subst same
      simp [absent]
    · have other : ¬ f first = f i := fun eq => same (injective eq)
      simp [other, Ne.symm same]

end Totals

section Lists
variable {parts : List α}

theorem flatMap_partition (parts : List α) (condition : α → Bool) (yield : α → List β) :
    (parts.flatMap yield).Perm
      ((parts.filter condition).flatMap yield ++ (parts.filter fun part => !condition part).flatMap yield) := by
  rw [← List.flatMap_append]
  exact (List.filter_append_perm condition parts).symm.flatMap_right yield

end Lists

section Counters

def raise (limit old amount : Nat) : Nat := min (limit - old) amount + old

variable {limit old amount : Nat}

theorem raise_min : raise limit (min limit old) amount = min limit (old + amount) := by
  unfold raise
  omega

theorem raise_exact (fits : old + amount ≤ limit) : raise limit old amount = old + amount := by
  unfold raise
  omega

end Counters

end RssMdmAgent.Tally
