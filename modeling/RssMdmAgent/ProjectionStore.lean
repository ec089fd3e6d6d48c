import Mathlib.Data.List.Sort
import RssMdmAgent.CollectedValues
import RssMdmAgent.OrderedRows

set_option autoImplicit false

/-! # The bounded local namespace of the communication database -/

namespace RssMdmAgent.ProjectionStore
open OrderedRows CollectedValues

abbrev Table (β : Type) := Rows (Prod.fst : String × β → String)

structure CollectedStore (β : Type) where
  space : String
  bytes : Nat
  records : Nat
  table : Table β

def hasPrefix (part key : String) : Bool := part.toList.isPrefixOf key.toList

def keyCharacter (c : Char) : Bool := c.isAlphanum || "_-/:.".toList.contains c

section Operations
variable {β : Type} (size : β → Nat) (s : CollectedStore β)

def CollectedStore.key (key : String) : Except Error String :=
  if key.isEmpty || decide (256 < key.utf8ByteSize) || !key.toList.all keyCharacter then throw .protocol
  else pure (s.space ++ key)

def CollectedStore.read (key : String) : Except Error (Option β) := do
  let key ← s.key key
  pure (((s.table.get key).map Prod.snd).filter fun body => decide (size body ≤ s.bytes))

def delete (t : Table β) (key : String) : Table β := t.retain fun row => decide (row.1 ≠ key)

def CollectedStore.within (key : String) : Bool := hasPrefix s.space key

def CollectedStore.own (t : Table β) : List (String × β) := t.select fun row => s.within row.1

def bodies (rows : List (String × β)) : Nat := (rows.map fun row => size row.2).sum

def CollectedStore.evictable (key : String) : Bool :=
  hasPrefix (s.space ++ "latest/") key || hasPrefix (s.space ++ "result/") key

def CollectedStore.batch (values : List (String × β)) : Except Error (List (String × β)) :=
  values.foldlM (fun writes value => do
    if s.bytes < size value.2 then throw .capacity
    let key ← s.key value.1
    if writes.any fun other => decide (other.1 = key) then throw .capacity
    pure (writes ++ [(key, value.2)])) []

structure Usage (β : Type) where
  table : Table β
  count : Nat
  bytes : Nat

def CollectedStore.fits (u : Usage β) : Bool := decide (u.count ≤ s.records) && decide (u.bytes ≤ s.bytes)

def CollectedStore.evict (writes : List String) : List (String × β) → Usage β → Usage β
  | [], u => u
  | (key, body) :: rest, u =>
    if s.fits u then u
    else if writes.contains key then CollectedStore.evict writes rest u
    else CollectedStore.evict writes rest ⟨delete u.table key, u.count - 1, u.bytes - size body⟩

def CollectedStore.commit (values : List (String × β)) (remove : List String) : Except Error (CollectedStore β) := do
  let writes ← s.batch size values
  let writes := writes.insertionSort fun a b => a.1 ≤ b.1
  let remove ← remove.mapM s.key
  let t := (remove.foldl delete s.table).setAll writes
  let u : Usage β := ⟨t, (s.own t).length, bodies size (s.own t)⟩
  let u := if s.fits u then u else s.evict size (writes.map Prod.fst) (t.select fun row => s.evictable row.1) u
  if s.fits u then pure { s with table := u.table } else throw .capacity

def CollectedStore.remove (key : String) : Except Error (CollectedStore β) := do
  let key ← s.key key
  pure { s with table := delete s.table key }

end Operations

section Facts
variable {β : Type} {size : β → Nat} {s s' : CollectedStore β} {t : Table β} {key k : String} {row : String × β}

theorem key_eq (h : s.key key = .ok k) : k = s.space ++ key := by
  unfold CollectedStore.key at h
  split at h
  · cases h
  · cases h
    rfl

theorem mem_delete : row ∈ (delete t k).entries ↔ row ∈ t.entries ∧ row.1 ≠ k := by
  show row ∈ t.entries.filter _ ↔ _
  simp

theorem get_delete : (delete t k).get key = if key = k then none else t.get key := by
  apply Option.ext
  intro found
  rw [Rows.get_iff, mem_delete]
  split
  · rename_i same
    subst same
    simp
  · rename_i differ
    rw [Rows.get_iff]
    constructor
    · exact fun h => ⟨h.1.1, h.2⟩
    · rintro ⟨mem, rfl⟩
      exact ⟨⟨mem, differ⟩, rfl⟩

theorem get_deleteAll {keys : List String} : (keys.foldl delete t).get key = if key ∈ keys then none else t.get key := by
  induction keys generalizing t with
  | nil => simp
  | cons first rest ih =>
    rw [List.foldl_cons, ih, get_delete]
    by_cases here : key = first <;> by_cases later : key ∈ rest <;> simp [here, later]

theorem removed_eq {remove keys : List String} (h : remove.mapM s.key = .ok keys) : keys = remove.map (s.space ++ ·) := by
  induction remove generalizing keys with
  | nil =>
    cases h
    rfl
  | cons first rest ih =>
    rw [List.mapM_cons] at h
    cases here : s.key first with
    | error e =>
      rw [here] at h
      cases h
    | ok k =>
      cases there : rest.mapM s.key with
      | error e =>
        rw [here, there] at h
        cases h
      | ok ks =>
        rw [here, there] at h
        cases h
        rw [key_eq here, ih there]
        rfl

def CollectedStore.rowsOf (s : CollectedStore β) (values : List (String × β)) : List (String × β) :=
  values.map fun value => (s.space ++ value.1, value.2)

theorem batch_rows {values writes : List (String × β)} (h : s.batch size values = .ok writes) :
    writes = s.rowsOf values ∧ (writes.map Prod.fst).Nodup ∧ ∀ row ∈ writes, size row.2 ≤ s.bytes := by
  have general : ∀ (values before writes : List (String × β)),
      values.foldlM (fun writes value => do
        if s.bytes < size value.2 then throw .capacity
        let key ← s.key value.1
        if writes.any fun other => decide (other.1 = key) then throw .capacity
        pure (writes ++ [(key, value.2)])) before = Except.ok (ε := Error) writes →
      (before.map Prod.fst).Nodup → (∀ row ∈ before, size row.2 ≤ s.bytes) →
      writes = before ++ s.rowsOf values ∧ (writes.map Prod.fst).Nodup ∧ ∀ row ∈ writes, size row.2 ≤ s.bytes := by
    intro values
    induction values with
    | nil =>
      intro before writes h distinct small
      cases h
      exact ⟨(List.append_nil _).symm, distinct, small⟩
    | cons value rest ih =>
      intro before writes h distinct small
      rw [List.foldlM_cons] at h
      by_cases big : s.bytes < size value.2
      · simp only [if_pos big] at h
        cases h
      simp only [if_neg big] at h
      cases named : s.key value.1 with
      | error e =>
        rw [named] at h
        cases h
      | ok k =>
        rw [named] at h
        by_cases known : (before.any fun other => decide (other.1 = k)) = true
        · simp only [bind, Except.bind, pure, Except.pure, if_pos known] at h
          cases h
        · simp only [bind, Except.bind, pure, Except.pure, if_neg known] at h
          have fresh : k ∉ before.map Prod.fst := by simpa using known
          obtain ⟨eq, after, bounds⟩ := ih (before ++ [(k, value.2)]) writes h
            (by rw [List.map_append]; exact (List.nodup_append_comm.mp (List.nodup_cons.mpr ⟨fresh, distinct⟩)))
            (by
              intro row mem
              rcases List.mem_append.mp mem with mem | mem
              · exact small row mem
              · rw [List.mem_singleton.mp mem]
                exact Nat.le_of_not_lt big)
          refine ⟨?_, after, bounds⟩
          rw [eq, List.append_assoc, key_eq named]
          rfl
  have := general values [] writes h (by simp) (by simp)
  simpa using this

structure CollectedStore.Measured (s : CollectedStore β) (size : β → Nat) (u : Usage β) : Prop where
  count : u.count = (s.own u.table).length
  bytes : u.bytes = bodies size (s.own u.table)

theorem Measured.delete {u : Usage β} (m : s.Measured size u) (mem : row ∈ u.table.entries) (own : s.within row.1 = true) :
    s.Measured size ⟨delete u.table row.1, u.count - 1, u.bytes - size row.2⟩ := by
  have parts : (s.own u.table).Perm (row :: s.own (ProjectionStore.delete u.table row.1)) :=
    Rows.select_without mem own
  constructor
  · show u.count - 1 = (s.own (ProjectionStore.delete u.table row.1)).length
    rw [m.count, parts.length_eq]
    rfl
  · show u.bytes - size row.2 = bodies size (s.own (ProjectionStore.delete u.table row.1))
    have sums := (parts.map fun row => size row.2).sum_eq
    rw [List.map_cons, List.sum_cons] at sums
    rw [m.bytes]
    unfold bodies
    omega

theorem evictable_within (h : s.evictable k = true) : s.within k = true := by
  have extend : ∀ part : String, hasPrefix (s.space ++ part) k = true → hasPrefix s.space k = true := by
    intro part h
    unfold hasPrefix at h ⊢
    rw [List.isPrefixOf_iff_prefix] at h ⊢
    rw [String.toList_append] at h
    exact (List.prefix_append _ _).trans h
  unfold CollectedStore.evictable at h
  rcases (Bool.or_eq_true _ _).mp h with h | h
  · exact extend _ h
  · exact extend _ h

structure Evicted (s : CollectedStore β) (size : β → Nat) (writes : List String) (candidates : List (String × β))
    (u after : Usage β) : Prop where
  measured : s.Measured size after
  known : ∀ row ∈ after.table.entries, row ∈ u.table.entries
  gone : ∀ row ∈ u.table.entries, row ∉ after.table.entries → row ∈ candidates ∧ row.1 ∉ writes

theorem evict_evicted (writes : List String) : ∀ (candidates : List (String × β)) (u : Usage β), s.Measured size u →
    (candidates.map Prod.fst).Nodup → (∀ row ∈ candidates, row ∈ u.table.entries ∧ s.within row.1 = true) →
    Evicted s size writes candidates u (s.evict size writes candidates u)
  | [], u, m, _, _ => ⟨m, fun _ mem => mem, fun _ mem gone => absurd mem gone⟩
  | first :: rest, u, m, distinct, known => by
    obtain ⟨absent, distinct⟩ := List.nodup_cons.mp distinct
    obtain ⟨⟨mem, own⟩, later⟩ := List.forall_mem_cons.mp known
    unfold CollectedStore.evict
    split
    · exact ⟨m, fun _ mem => mem, fun _ mem gone => absurd mem gone⟩
    split
    · have step := evict_evicted writes rest u m distinct later
      exact ⟨step.measured, step.known, fun row mem gone =>
        ⟨List.mem_cons_of_mem _ (step.gone row mem gone).1, (step.gone row mem gone).2⟩⟩
    · rename_i fresh
      have others : ∀ row ∈ rest, row ∈ (delete u.table first.1).entries ∧ s.within row.1 = true := by
        intro row placed
        refine ⟨mem_delete.mpr ⟨(later row placed).1, fun same => absent ?_⟩, (later row placed).2⟩
        exact same ▸ List.mem_map_of_mem placed
      have step := evict_evicted writes rest _ (Measured.delete m mem own) distinct others
      refine ⟨step.measured, fun row mem => (mem_delete.mp (step.known row mem)).1, fun row placed gone => ?_⟩
      by_cases same : row.1 = first.1
      · have eq : row = first := List.inj_on_of_nodup_map u.table.distinct placed mem same
        subst eq
        exact ⟨List.mem_cons_self, by simpa using fresh⟩
      · obtain ⟨candidate, outside⟩ := step.gone row (mem_delete.mpr ⟨placed, same⟩) gone
        exact ⟨List.mem_cons_of_mem _ candidate, outside⟩

/-- What a successful commit makes of the table. -/
structure Committed (s : CollectedStore β) (size : β → Nat) (values : List (String × β)) (remove : List String)
    (s' : CollectedStore β) : Prop where
  space : s'.space = s.space
  limits : s'.bytes = s.bytes ∧ s'.records = s.records
  records : (s'.own s'.table).length ≤ s'.records
  bytes : bodies size (s'.own s'.table) ≤ s'.bytes
  distinct : (values.map Prod.fst).Nodup
  written : ∀ value ∈ values, s'.table.get (s.space ++ value.1) = some (s.space ++ value.1, value.2)
  kept : ∀ key row, s'.table.get key = some row → key ∉ values.map (fun value => s.space ++ value.1) →
    s.table.get key = some row ∧ key ∉ remove.map (s.space ++ ·)
  lost : ∀ key row, s.table.get key = some row → s'.table.get key = none →
    key ∈ remove.map (s.space ++ ·) ∨ (s.evictable key = true ∧ key ∉ values.map fun value => s.space ++ value.1)

def CollectedStore.replaced (s : CollectedStore β) (writes : List (String × β)) (remove : List String) : Table β :=
  ((remove.map (s.space ++ ·)).foldl delete s.table).setAll writes

/-- The batch is written, then the eviction, if any, brings the namespace within its quotas. -/
theorem commit_steps {values : List (String × β)} {remove : List String} (h : s.commit size values remove = .ok s') :
    ∃ (writes : List (String × β)) (u : Usage β), writes.Perm (s.rowsOf values) ∧ (writes.map Prod.fst).Nodup ∧
      (∀ row ∈ u.table.entries, row ∈ (s.replaced writes remove).entries) ∧
      (∀ row ∈ (s.replaced writes remove).entries, row ∉ u.table.entries →
        s.evictable row.1 = true ∧ row.1 ∉ writes.map Prod.fst) ∧
      s.Measured size u ∧ s.fits u = true ∧ s' = { s with table := u.table } := by
  unfold CollectedStore.commit at h
  cases batched : s.batch size values with
  | error e =>
    rw [batched] at h
    cases h
  | ok written =>
  cases listed : remove.mapM s.key with
  | error e =>
    rw [batched, listed] at h
    cases h
  | ok removed =>
  rw [batched, listed, removed_eq listed] at h
  simp only [bind, Except.bind, pure, Except.pure] at h
  obtain ⟨rfl, distinct, _⟩ := batch_rows batched
  have sorted := List.perm_insertionSort (fun a b => a.1 ≤ b.1) (s.rowsOf values)
  generalize (s.rowsOf values).insertionSort (fun a b => a.1 ≤ b.1) = writes at h sorted
  generalize placed : ((remove.map (s.space ++ ·)).foldl delete s.table).setAll writes = t at h
  have start : s.Measured size ⟨t, (s.own t).length, bodies size (s.own t)⟩ := ⟨rfl, rfl⟩
  refine ⟨writes, ?_⟩
  unfold CollectedStore.replaced
  rw [placed]
  by_cases roomy : s.fits ⟨t, (s.own t).length, bodies size (s.own t)⟩ = true
  · rw [if_pos roomy, if_pos roomy] at h
    exact ⟨_, sorted, (sorted.map Prod.fst).nodup_iff.mpr distinct, fun _ mem => mem,
      fun _ mem gone => absurd mem gone, start, roomy, (Except.ok.inj h).symm⟩
  · rw [if_neg roomy] at h
    have own : ∀ row ∈ t.select (fun row => s.evictable row.1), row ∈ t.entries ∧ s.within row.1 = true := by
      intro row mem
      obtain ⟨mem, evictable⟩ := Rows.mem_select.mp mem
      exact ⟨mem, evictable_within evictable⟩
    have step := evict_evicted (writes.map Prod.fst) _ _ start (t.distinct.sublist (List.filter_sublist.map _)) own
    split at h
    · rename_i fits
      refine ⟨_, sorted, (sorted.map Prod.fst).nodup_iff.mpr distinct, step.known, fun row mem gone => ?_,
        step.measured, fits, (Except.ok.inj h).symm⟩
      obtain ⟨candidate, outside⟩ := step.gone row mem gone
      exact ⟨(Rows.mem_select.mp candidate).2, outside⟩
    · cases h

theorem commit_committed {values : List (String × β)} {remove : List String} (h : s.commit size values remove = .ok s') :
    Committed s size values remove s' := by
  obtain ⟨writes, u, sorted, unique, known, lost, measured, fits, rfl⟩ := commit_steps h
  obtain ⟨records, bytes⟩ := (Bool.and_eq_true _ _).mp fits
  have keys : (writes.map Prod.fst).Perm (values.map fun value => s.space ++ value.1) := by
    have := sorted.map Prod.fst
    rwa [CollectedStore.rowsOf, List.map_map] at this
  have absent : ∀ key, key ∉ values.map (fun value => s.space ++ value.1) →
      (s.replaced writes remove).get key = if key ∈ remove.map (s.space ++ ·) then none else s.table.get key := by
    intro key outside
    unfold CollectedStore.replaced
    rw [Rows.get_setAll_absent unique fun mem => outside (keys.mem_iff.mp mem), get_deleteAll]
  have written : ∀ value ∈ values, u.table.get (s.space ++ value.1) = some (s.space ++ value.1, value.2) := by
    intro value mem
    have row : (s.space ++ value.1, value.2) ∈ writes := sorted.mem_iff.mpr (List.mem_map_of_mem mem)
    have there : (s.replaced writes remove).get (s.space ++ value.1) = some (s.space ++ value.1, value.2) :=
      Rows.get_setAll_mem unique row
    refine Rows.get_iff.mpr ⟨?_, rfl⟩
    by_contra gone
    exact (lost _ (Rows.get_mem there) gone).2 (List.mem_map_of_mem row)
  refine ⟨rfl, ⟨rfl, rfl⟩, ?_, ?_, ?_, written, ?_, ?_⟩
  · show (s.own u.table).length ≤ s.records
    exact measured.count ▸ of_decide_eq_true records
  · show bodies size (s.own u.table) ≤ s.bytes
    exact measured.bytes ▸ of_decide_eq_true bytes
  · have distinct := keys.nodup_iff.mp unique
    rw [show values.map (fun value => s.space ++ value.1) = (values.map Prod.fst).map (s.space ++ ·) by
      rw [List.map_map]; rfl] at distinct
    exact List.Nodup.of_map _ distinct
  · intro key row found outside
    have before : (s.replaced writes remove).get key = some row := by
      obtain ⟨mem, rfl⟩ := Rows.get_iff.mp found
      exact Rows.get_of_mem (known row mem)
    rw [absent key outside] at before
    split at before
    · cases before
    · rename_i stays
      exact ⟨before, stays⟩
  · intro key row found gone
    have outside : key ∉ values.map fun value => s.space ++ value.1 := by
      intro listed
      obtain ⟨value, mem, rfl⟩ := List.mem_map.mp listed
      rw [written value mem] at gone
      cases gone
    by_cases removed : key ∈ remove.map (s.space ++ ·)
    · exact .inl removed
    · have before := absent key outside
      rw [if_neg removed, found] at before
      have missing : row ∉ u.table.entries := by
        intro mem
        have there := Rows.get_of_mem mem
        rw [Rows.get_key before] at there
        rw [there] at gone
        cases gone
      have evictable := (lost row (Rows.get_mem before) missing).1
      rw [Rows.get_key before] at evictable
      exact .inr ⟨evictable, outside⟩

end Facts

end RssMdmAgent.ProjectionStore
