import Mathlib.Data.List.Nodup
import Mathlib.Tactic.Linarith

set_option autoImplicit false

/-! # Rows under pairwise different keys, in the order of their first insertion -/

namespace RssMdmAgent.OrderedRows

variable {κ ρ : Type}

structure Rows (key : ρ → κ) where
  entries : List ρ
  distinct : (entries.map key).Nodup

instance {key : ρ → κ} [DecidableEq ρ] : DecidableEq (Rows key) := fun a b =>
  decidable_of_iff (a.entries = b.entries) ⟨fun h => by cases a; cases b; cases h; rfl, congrArg _⟩

section Operations
variable [DecidableEq κ] {key : ρ → κ}

def place (key : ρ → κ) (row : ρ) : List ρ → List ρ
  | [] => [row]
  | old :: rest => if key old = key row then row :: rest else old :: place key row rest

theorem mem_place {row other : ρ} {entries : List ρ} (distinct : (entries.map key).Nodup) :
    other ∈ place key row entries ↔ other = row ∨ (other ∈ entries ∧ key other ≠ key row) := by
  induction entries with
  | nil => simp [place]
  | cons old rest ih =>
    obtain ⟨absent, distinct⟩ := List.nodup_cons.mp distinct
    have elsewhere : other ∈ rest → key other ≠ key old := by
      intro mem same
      exact absent (same ▸ List.mem_map_of_mem mem)
    unfold place
    split
    · rename_i same
      rw [List.mem_cons, List.mem_cons, ← same]
      constructor
      · rintro (rfl | mem)
        · exact .inl rfl
        · exact .inr ⟨.inr mem, elsewhere mem⟩
      · rintro (rfl | ⟨rfl | mem, other⟩)
        · exact .inl rfl
        · exact absurd rfl other
        · exact .inr mem
    · rename_i differ
      rw [List.mem_cons, List.mem_cons, ih distinct]
      constructor
      · rintro (rfl | rfl | ⟨mem, other⟩)
        · exact .inr ⟨.inl rfl, differ⟩
        · exact .inl rfl
        · exact .inr ⟨.inr mem, other⟩
      · rintro (rfl | ⟨rfl | mem, other⟩)
        · exact .inr (.inl rfl)
        · exact .inl rfl
        · exact .inr (.inr ⟨mem, other⟩)

theorem place_distinct {row : ρ} {entries : List ρ} (distinct : (entries.map key).Nodup) :
    ((place key row entries).map key).Nodup := by
  induction entries with
  | nil => simp [place]
  | cons old rest ih =>
    obtain ⟨absent, tail⟩ := List.nodup_cons.mp distinct
    unfold place
    split
    · rename_i same
      rw [List.map_cons, List.nodup_cons, ← same]
      exact ⟨absent, tail⟩
    · rename_i differ
      rw [List.map_cons, List.nodup_cons]
      refine ⟨fun mem => ?_, ih tail⟩
      obtain ⟨other, placed, same⟩ := List.mem_map.mp mem
      rcases (mem_place tail).mp placed with rfl | ⟨kept, _⟩
      · exact differ same.symm
      · exact absent (same ▸ List.mem_map_of_mem kept)

def Rows.empty : Rows key := ⟨[], .nil⟩

def Rows.get (rows : Rows key) (k : κ) : Option ρ := rows.entries.find? (key · = k)

def Rows.has (rows : Rows key) (k : κ) : Bool := (rows.get k).isSome

def Rows.set (rows : Rows key) (row : ρ) : Rows key :=
  ⟨place key row rows.entries, place_distinct rows.distinct⟩

def Rows.select (rows : Rows key) (condition : ρ → Bool) : List ρ := rows.entries.filter condition

def Rows.retain (rows : Rows key) (condition : ρ → Bool) : Rows key :=
  ⟨rows.entries.filter condition, rows.distinct.sublist (List.filter_sublist.map key)⟩

def Rows.revise (rows : Rows key) (change : ρ → ρ) (keeps : ∀ row, key (change row) = key row) :
    Rows key :=
  ⟨rows.entries.map change, by
    have same : key ∘ change = key := funext keeps
    rw [List.map_map, same]
    exact rows.distinct⟩

variable {rows : Rows key} {k : κ} {row other : ρ}

theorem Rows.get_iff : rows.get k = some row ↔ row ∈ rows.entries ∧ key row = k := by
  unfold Rows.get
  constructor
  · intro found
    exact ⟨List.mem_of_find?_eq_some found, by simpa using List.find?_some found⟩
  · rintro ⟨mem, rfl⟩
    cases found : rows.entries.find? (key · = key row) with
    | none => simpa using List.find?_eq_none.mp found row mem
    | some first =>
      have same : key first = key row := by simpa using List.find?_some found
      rw [List.inj_on_of_nodup_map rows.distinct (List.mem_of_find?_eq_some found) mem same]

theorem Rows.get_mem (found : rows.get k = some row) : row ∈ rows.entries := (Rows.get_iff.mp found).1

theorem Rows.get_key (found : rows.get k = some row) : key row = k := (Rows.get_iff.mp found).2

theorem Rows.get_of_mem (mem : row ∈ rows.entries) : rows.get (key row) = some row :=
  Rows.get_iff.mpr ⟨mem, rfl⟩

theorem Rows.mem_set : other ∈ (rows.set row).entries ↔
    other = row ∨ (other ∈ rows.entries ∧ key other ≠ key row) := mem_place rows.distinct

theorem Rows.get_set_self : (rows.set row).get (key row) = some row :=
  Rows.get_iff.mpr ⟨Rows.mem_set.mpr (.inl rfl), rfl⟩

theorem Rows.get_set_ne (differ : k ≠ key row) : (rows.set row).get k = rows.get k := by
  apply Option.ext
  intro found
  rw [Rows.get_iff, Rows.get_iff, Rows.mem_set]
  constructor
  · rintro ⟨rfl | ⟨mem, _⟩, rfl⟩
    · exact absurd rfl differ
    · exact ⟨mem, rfl⟩
  · rintro ⟨mem, rfl⟩
    exact ⟨.inr ⟨mem, differ⟩, rfl⟩

theorem Rows.get_set : (rows.set row).get k = if k = key row then some row else rows.get k := by
  split
  · rename_i same
    rw [same, Rows.get_set_self]
  · rename_i differ
    exact Rows.get_set_ne differ

theorem Rows.entries_set_absent (absent : rows.has (key row) = false) :
    (rows.set row).entries = rows.entries ++ [row] := by
  have appended : ∀ entries : List ρ, entries.find? (key · = key row) = none → place key row entries = entries ++ [row] := by
    intro entries
    induction entries with
    | nil => exact fun _ => rfl
    | cons old rest ih =>
      intro missing
      rw [List.find?_cons] at missing
      split at missing
      · cases missing
      · rename_i differ
        unfold place
        rw [if_neg (of_decide_eq_false differ), ih missing]
        rfl
  exact appended rows.entries (Option.not_isSome_iff_eq_none.mp (Bool.not_eq_true _ ▸ absent))

theorem Rows.filterMap_get {list : List ρ} (known : ∀ row ∈ list, rows.get (key row) = some row) :
    (list.map key).filterMap rows.get = list := by
  induction list with
  | nil => rfl
  | cons row rest ih =>
    obtain ⟨here, later⟩ := List.forall_mem_cons.mp known
    rw [List.map_cons, List.filterMap_cons, here, ih later]

theorem Rows.map_filterMap_get {keys : List κ} (known : ∀ k ∈ keys, ∃ row, rows.get k = some row) :
    (keys.filterMap rows.get).map key = keys := by
  induction keys with
  | nil => rfl
  | cons k rest ih =>
    obtain ⟨⟨row, here⟩, later⟩ := List.forall_mem_cons.mp known
    rw [List.filterMap_cons, here, List.map_cons, ih later, Rows.get_key here]

theorem Rows.get_retain {condition : ρ → Bool} :
    (rows.retain condition).get k = (rows.get k).filter condition := by
  apply Option.ext
  intro found
  rw [Rows.get_iff, Option.filter_eq_some_iff, Rows.get_iff]
  show found ∈ rows.entries.filter condition ∧ _ ↔ _
  rw [List.mem_filter]
  tauto

theorem Rows.length_set : rows.entries.length ≤ (rows.set row).entries.length := by
  have grows : ∀ entries : List ρ, entries.length ≤ (place key row entries).length := by
    intro entries
    induction entries with
    | nil => simp [place]
    | cons old rest ih =>
      unfold place
      split
      · exact Nat.le_refl _
      · exact Nat.succ_le_succ ih
  exact grows rows.entries

theorem Rows.get_empty : (Rows.empty : Rows key).get k = none := rfl

omit [DecidableEq κ] in
theorem Rows.mem_select {condition : ρ → Bool} :
    row ∈ rows.select condition ↔ row ∈ rows.entries ∧ condition row = true := List.mem_filter

theorem Rows.select_key (mem : row ∈ rows.entries) :
    rows.select (fun other => decide (key other = key row)) = [row] := by
  obtain ⟨entries, distinct⟩ := rows
  change row ∈ entries at mem
  show entries.filter _ = _
  induction entries with
  | nil => cases mem
  | cons first rest ih =>
    obtain ⟨absent, distinct⟩ := List.nodup_cons.mp distinct
    rw [List.filter_cons]
    rcases List.mem_cons.mp mem with rfl | mem
    · have none : rest.filter (fun other => decide (key other = key row)) = [] := by
        rw [List.filter_eq_nil_iff]
        intro other placed
        simpa using fun same => absent (List.mem_map.mpr ⟨other, placed, same⟩)
      simp [none]
    · have differ : ¬ key first = key row := fun same => absent (same ▸ List.mem_map_of_mem mem)
      simp [differ, ih distinct mem]

theorem Rows.select_without {condition : ρ → Bool} (mem : row ∈ rows.entries) (hit : condition row = true) :
    (rows.select condition).Perm
      (row :: (rows.retain fun other => decide (key other ≠ key row)).select condition) := by
  have parts := (List.filter_append_perm (fun other => decide (key other = key row)) rows.entries).filter condition
  have own : (rows.entries.filter fun other => decide (key other = key row)) = [row] := Rows.select_key mem
  rw [own, List.singleton_append, List.filter_cons_of_pos hit] at parts
  have others : (rows.retain fun other => decide (key other ≠ key row)).entries =
      rows.entries.filter fun other => !decide (key other = key row) :=
    List.filter_congr fun other _ => by simp
  show (rows.entries.filter condition).Perm (row :: (rows.retain _).entries.filter condition)
  rw [others]
  exact parts.symm

theorem Rows.has_iff : rows.has k = true ↔ ∃ row, rows.get k = some row := Option.isSome_iff_exists

theorem Rows.has_set : (rows.set row).has k = (decide (k = key row) || rows.has k) := by
  unfold Rows.has
  rw [Rows.get_set]
  split <;> simp [*]

def Rows.setAll (rows : Rows key) (list : List ρ) : Rows key := list.foldl Rows.set rows

theorem Rows.has_setAll : ∀ (rows : Rows key) (list : List ρ), (∀ row ∈ list, rows.has (key row) = true) →
    (rows.setAll list).has k = rows.has k
  | _, [], _ => rfl
  | rows, first :: rest, known => by
    have same : ∀ k, (rows.set first).has k = rows.has k := by
      intro k
      rw [Rows.has_set]
      by_cases eq : k = key first
      · simp [eq, known first List.mem_cons_self]
      · simp [eq]
    rw [Rows.setAll, List.foldl_cons, ← Rows.setAll,
      Rows.has_setAll (rows.set first) rest fun row mem => by
        rw [same, known row (List.mem_cons_of_mem _ mem)], same]

theorem find_of_mem {list : List ρ} (distinct : (list.map key).Nodup) (mem : row ∈ list) :
    list.find? (key · = key row) = some row := by
  have found : (⟨list, distinct⟩ : Rows key).get (key row) = some row := Rows.get_of_mem mem
  exact found

theorem Rows.get_setAll : ∀ (rows : Rows key) (list : List ρ), (list.map key).Nodup →
    (rows.setAll list).get k = (list.find? (key · = k)).or (rows.get k)
  | _, [], _ => rfl
  | rows, first :: rest, distinct => by
    obtain ⟨absent, tail⟩ := List.nodup_cons.mp distinct
    have later := Rows.get_setAll (rows.set first) rest tail
    unfold Rows.setAll at later ⊢
    rw [List.foldl_cons, later, List.find?_cons]
    by_cases same : key first = k
    · subst same
      have missing : rest.find? (key · = key first) = none := by
        rw [List.find?_eq_none]
        intro other mem
        simpa using fun same => absent (List.mem_map.mpr ⟨other, mem, same⟩)
      simp [missing, Rows.get_set_self]
    · rw [Rows.get_set_ne (Ne.symm same)]
      simp [same]

theorem Rows.get_setAll_mem {list : List ρ} (distinct : (list.map key).Nodup) (mem : row ∈ list) :
    (rows.setAll list).get (key row) = some row := by
  rw [Rows.get_setAll rows list distinct, find_of_mem distinct mem, Option.some_or]

theorem Rows.get_setAll_absent {list : List ρ} (distinct : (list.map key).Nodup)
    (absent : k ∉ list.map key) : (rows.setAll list).get k = rows.get k := by
  have missing : list.find? (key · = k) = none := by
    rw [List.find?_eq_none]
    intro other mem
    simpa using fun same => absent (List.mem_map.mpr ⟨other, mem, same⟩)
  rw [Rows.get_setAll rows list distinct, missing, Option.none_or]

theorem Rows.get_setAll_cases {list : List ρ} (distinct : (list.map key).Nodup)
    (found : (rows.setAll list).get k = some row) :
    (row ∈ list ∧ key row = k) ∨ (k ∉ list.map key ∧ rows.get k = some row) := by
  by_cases mem : k ∈ list.map key
  · obtain ⟨first, placed, rfl⟩ := List.mem_map.mp mem
    rw [Rows.get_setAll_mem distinct placed] at found
    cases found
    exact .inl ⟨placed, rfl⟩
  · rw [Rows.get_setAll_absent distinct mem] at found
    exact .inr ⟨mem, found⟩

/-- Only the rows of one kind are replaced, each under its own key. -/
theorem Rows.get_setAll_select {condition : ρ → Bool} {change : ρ → ρ}
    (keeps : ∀ row, key (change row) = key row) :
    (rows.setAll ((rows.select condition).map change)).get k =
      (rows.get k).map fun row => if condition row then change row else row := by
  have keys : ((rows.select condition).map change).map key = (rows.select condition).map key := by
    simp [keeps]
  have distinct : (((rows.select condition).map change).map key).Nodup := by
    rw [keys]
    exact rows.distinct.sublist (List.filter_sublist.map key)
  apply Option.ext
  intro found
  constructor
  · intro later
    rcases Rows.get_setAll_cases distinct later with ⟨mem, same⟩ | ⟨absent, early⟩
    · obtain ⟨row, placed, rfl⟩ := List.mem_map.mp mem
      obtain ⟨stored, selected⟩ := Rows.mem_select.mp placed
      rw [keeps] at same
      rw [← same, Rows.get_of_mem stored]
      simp [selected]
    · rw [early]
      have kept : condition found = false := by
        by_contra selected
        apply absent
        rw [keys, ← Rows.get_key early]
        exact List.mem_map_of_mem (Rows.mem_select.mpr
          ⟨Rows.get_mem early, by simpa using selected⟩)
      simp [kept]
  · intro early
    obtain ⟨row, stored, rfl⟩ := Option.map_eq_some_iff.mp early
    have same := Rows.get_key stored
    subst same
    split
    · rename_i selected
      have mem : change row ∈ (rows.select condition).map change :=
        List.mem_map_of_mem (Rows.mem_select.mpr ⟨Rows.get_mem stored, selected⟩)
      rw [← keeps row]
      exact Rows.get_setAll_mem distinct mem
    · rename_i kept
      rw [Rows.get_setAll_absent distinct, stored]
      rw [keys]
      intro placed
      obtain ⟨other, placed, same⟩ := List.mem_map.mp placed
      obtain ⟨mem, selected⟩ := Rows.mem_select.mp placed
      have found := Rows.get_of_mem mem
      rw [same, stored] at found
      cases found
      exact kept selected

omit [DecidableEq κ] in
theorem mem_related {R : ρ → ρ → Prop} {olds news : List ρ}
    (related : List.Forall₂ (fun old new => key new = key old ∧ R old new) olds news) (mem : row ∈ olds) :
    ∃ new ∈ news, key new = key row ∧ R row new := by
  induction related with
  | nil => cases mem
  | @cons old new olds news here _ ih =>
    rcases List.mem_cons.mp mem with rfl | mem
    · exact ⟨new, List.mem_cons_self, here⟩
    · obtain ⟨new, placed, rest⟩ := ih mem
      exact ⟨new, List.mem_cons_of_mem _ placed, rest⟩

omit [DecidableEq κ] in
theorem related_keys {R : ρ → ρ → Prop} {olds news : List ρ}
    (related : List.Forall₂ (fun old new => key new = key old ∧ R old new) olds news) :
    news.map key = olds.map key := by
  induction related with
  | nil => rfl
  | cons here _ ih => rw [List.map_cons, List.map_cons, here.1, ih]

theorem Rows.get_setAll_related {R : ρ → ρ → Prop} {olds news : List ρ}
    (known : ∀ row ∈ olds, rows.get (key row) = some row) (distinct : (olds.map key).Nodup)
    (related : List.Forall₂ (fun old new => key new = key old ∧ R old new) olds news) (k : κ) :
    (∃ old ∈ olds, ∃ new ∈ news, rows.get k = some old ∧ (rows.setAll news).get k = some new ∧ R old new) ∨
      (k ∉ olds.map key ∧ (rows.setAll news).get k = rows.get k) := by
  have keys := related_keys related
  by_cases mem : k ∈ olds.map key
  · obtain ⟨old, placed, rfl⟩ := List.mem_map.mp mem
    obtain ⟨new, later, same, rest⟩ := mem_related related placed
    refine .inl ⟨old, placed, new, later, known old placed, ?_, rest⟩
    rw [← same]
    exact Rows.get_setAll_mem (keys ▸ distinct) later
  · exact .inr ⟨mem, Rows.get_setAll_absent (keys ▸ distinct) (keys ▸ mem)⟩

end Operations

end RssMdmAgent.OrderedRows
