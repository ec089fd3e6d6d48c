import Mathlib.Data.List.AList
import Mathlib.Tactic.Linarith

set_option autoImplicit false

/-! # Tables with a primary key -/

namespace RssMdmAgent.KeyedTable

abbrev Table (κ ρ : Type) := AList fun _ : κ => ρ

variable {κ ρ : Type}

def Table.total (amount : ρ → Nat) (t : Table κ ρ) : Nat :=
  (t.entries.map fun e => amount e.2).sum

def Table.exists (t : Table κ ρ) (condition : κ → ρ → Bool) : Bool :=
  t.entries.any fun e => condition e.1 e.2

section Rows
variable [DecidableEq κ] {amount : ρ → Nat} {t : Table κ ρ} {key : κ} {row row' : ρ}

theorem mem_entries_of_lookup (found : t.lookup key = some row) : ⟨key, row⟩ ∈ t.entries :=
  AList.mem_lookup_iff.mp found

theorem lookup_of_mem_entries (mem : ⟨key, row⟩ ∈ t.entries) : t.lookup key = some row :=
  AList.mem_lookup_iff.mpr mem

theorem Table.exists_iff {condition : κ → ρ → Bool} :
    Table.exists t condition = true ↔ ∃ key row, t.lookup key = some row ∧ condition key row = true := by
  unfold Table.exists
  rw [List.any_eq_true]
  constructor
  · rintro ⟨⟨key, row⟩, mem, h⟩
    exact ⟨key, row, lookup_of_mem_entries mem, h⟩
  · rintro ⟨key, row, found, h⟩
    exact ⟨⟨key, row⟩, mem_entries_of_lookup found, h⟩

theorem lookup_insert_cases {other : κ} {found : ρ} (h : (t.insert key row).lookup other = some found) :
    (other = key ∧ found = row) ∨ (other ≠ key ∧ t.lookup other = some found) := by
  by_cases same : other = key
  · subst same
    rw [AList.lookup_insert] at h
    exact .inl ⟨rfl, (Option.some.inj h).symm⟩
  · rw [AList.lookup_insert_ne same] at h
    exact .inr ⟨same, h⟩

theorem total_replace (found : t.lookup key = some row) :
    Table.total amount (t.insert key row') + amount row = amount row' + Table.total amount t := by
  have mem : key ∈ t.entries.keys := List.mem_keys_of_mem (mem_entries_of_lookup found)
  obtain ⟨old, before, after, -, split, erased⟩ := List.exists_of_kerase mem
  have same : old = row := by
    have here : t.lookup key = some old := lookup_of_mem_entries (by rw [split]; simp)
    rw [here] at found
    exact Option.some.inj found
  subst same
  unfold Table.total
  rw [AList.entries_insert, erased, split]
  simp only [List.map_cons, List.map_append, List.sum_cons, List.sum_append]
  omega

end Rows

end RssMdmAgent.KeyedTable
