import RssMdmAgent.ConnectionStore

set_option autoImplicit false

/-! # What successful calls keep of connections and preferences -/

namespace RssMdmAgent.ConnectionStore
open OrderedRows TransitionRuns
open ContractPlan (bind_ok)
open SessionRecords (ErrorCode)
open SessionValidity (isId)

structure Store.Latest (s : Store) (caller : Caller) (id : String) (row : ConnectionRow) : Prop where
  mem : row ∈ s.connections.entries
  owner : row.caller = caller
  name : row.id = id
  greatest : ∀ other ∈ s.connections.entries, other.caller = caller → other.id = id → other.revision ≤ row.revision

/-- Revisions are consecutive from 1 and a deleted connection is at its end. -/
structure Store.Numbered (s : Store) : Prop where
  named : ∀ row ∈ s.connections.entries, row.body.connectionId = row.id ∧ row.body.configRevision = row.revision
  positive : ∀ row ∈ s.connections.entries, 1 ≤ row.revision
  consecutive : ∀ row ∈ s.connections.entries, ∀ k, 1 ≤ k → k ≤ row.revision →
    s.connections.has (row.caller, row.id, k) = true
  last : ∀ row ∈ s.connections.entries, row.body.status = .deleted → ∀ other ∈ s.connections.entries,
    other.caller = row.caller → other.id = row.id → other.revision ≤ row.revision

def Store.Bare (s : Store) : Prop :=
  ∀ row ∈ s.connections.entries, row.body.status = .deleted → ∀ other ∈ s.connections.entries,
    other.caller = row.caller → other.id = row.id → other.encryptedSecret = none

def Store.Ready (s : Store) (prefs : PreferencesRow) : Prop :=
  ∀ id, prefs.body.defaultConnectionId = some id → ∃ row, s.Latest prefs.caller id row ∧ row.body.status = .ready

structure Store.Sound (s : Store) : Prop where
  numbered : s.Numbered
  bare : s.Bare
  ready : ∀ prefs ∈ s.preferences.entries, s.Ready prefs

section Rows
variable {s t : Store} {caller : Caller} {id : String} {row other : ConnectionRow}

theorem same_row (first : row ∈ s.connections.entries) (second : other ∈ s.connections.entries)
    (owner : row.caller = other.caller) (name : row.id = other.id) (revision : row.revision = other.revision) : row = other := by
  apply List.inj_on_of_nodup_map s.connections.distinct first second
  simp [ConnectionRow.key, owner, name, revision]

theorem mem_revisions : row ∈ s.revisions caller id ↔ row ∈ s.connections.entries ∧ row.caller = caller ∧ row.id = id := by
  unfold Store.revisions
  rw [Rows.mem_select, decide_eq_true_eq]

theorem latest_iff : s.latest caller id = some row ↔ s.Latest caller id row := by
  unfold Store.latest
  rw [← Option.mem_def, List.mem_argmax_iff]
  constructor
  · rintro ⟨mem, greatest, -⟩
    obtain ⟨mem, owner, name⟩ := mem_revisions.mp mem
    exact ⟨mem, owner, name, fun other present owns names => greatest other (mem_revisions.mpr ⟨present, owns, names⟩)⟩
  · rintro ⟨mem, owner, name, greatest⟩
    refine ⟨mem_revisions.mpr ⟨mem, owner, name⟩, ?_, ?_⟩
    · intro other present
      obtain ⟨present, owns, names⟩ := mem_revisions.mp present
      exact greatest other present owns names
    · intro other present exceeds
      obtain ⟨present, owns, names⟩ := mem_revisions.mp present
      have equal : row.revision = other.revision := Nat.le_antisymm exceeds (greatest other present owns names)
      rw [same_row mem present (owner.trans owns.symm) (name.trans names.symm) equal]

theorem latest_none : s.latest caller id = none ↔ ∀ row ∈ s.connections.entries, row.caller = caller → row.id ≠ id := by
  unfold Store.latest
  rw [List.argmax_eq_none, List.eq_nil_iff_forall_not_mem]
  constructor
  · exact fun empty row mem owns names => empty row (mem_revisions.mpr ⟨mem, owns, names⟩)
  · intro absent row mem
    obtain ⟨mem, owns, names⟩ := mem_revisions.mp mem
    exact absent row mem owns names

structure Alike (row other : ConnectionRow) : Prop where
  key : other.key = row.key
  named : other.body.connectionId = row.body.connectionId ∧ other.body.configRevision = row.body.configRevision
  status : other.body.status = row.body.status
  secret : row.encryptedSecret = none → other.encryptedSecret = none

theorem Alike.fields (alike : Alike row other) :
    other.caller = row.caller ∧ other.id = row.id ∧ other.revision = row.revision := by
  have key := alike.key
  unfold ConnectionRow.key at key
  rw [Prod.mk.injEq, Prod.mk.injEq] at key
  exact key

structure Recorded (s t : Store) : Prop where
  back : ∀ row ∈ t.connections.entries, ∃ old ∈ s.connections.entries, Alike old row
  on : ∀ row ∈ s.connections.entries, ∃ new ∈ t.connections.entries, Alike row new

theorem Recorded.has {key : Caller × String × Nat} (recorded : Recorded s t) (has : s.connections.has key = true) :
    t.connections.has key = true := by
  obtain ⟨row, found⟩ := Rows.has_iff.mp has
  obtain ⟨new, mem, alike⟩ := recorded.on row (Rows.get_mem found)
  refine Rows.has_iff.mpr ⟨new, ?_⟩
  rw [← Rows.get_key found, ← alike.key]
  exact Rows.get_of_mem mem

theorem Recorded.latest (recorded : Recorded s t) (latest : s.Latest caller id row) :
    ∃ new, t.Latest caller id new ∧ new.body.status = row.body.status := by
  obtain ⟨new, mem, alike⟩ := recorded.on row latest.mem
  obtain ⟨owner, name, revision⟩ := alike.fields
  refine ⟨new, ⟨mem, owner.trans latest.owner, name.trans latest.name, ?_⟩, alike.status⟩
  intro other present owns names
  obtain ⟨old, early, resembles⟩ := recorded.back other present
  obtain ⟨owned, named, same⟩ := resembles.fields
  rw [same, revision]
  exact latest.greatest old early (owned.symm.trans owns) (named.symm.trans names)

theorem Recorded.numbered (recorded : Recorded s t) (numbered : s.Numbered) : t.Numbered := by
  constructor
  · intro row mem
    obtain ⟨old, early, alike⟩ := recorded.back row mem
    rw [alike.named.1, alike.named.2, alike.fields.2.1, alike.fields.2.2]
    exact numbered.named old early
  · intro row mem
    obtain ⟨old, early, alike⟩ := recorded.back row mem
    rw [alike.fields.2.2]
    exact numbered.positive old early
  · intro row mem k first last
    obtain ⟨old, early, alike⟩ := recorded.back row mem
    obtain ⟨owner, name, revision⟩ := alike.fields
    rw [owner, name]
    exact recorded.has (numbered.consecutive old early k first (revision ▸ last))
  · intro row mem deleted other present owns names
    obtain ⟨old, early, alike⟩ := recorded.back row mem
    obtain ⟨past, before, resembles⟩ := recorded.back other present
    rw [alike.status] at deleted
    rw [alike.fields.2.2, resembles.fields.2.2]
    apply numbered.last old early deleted past before
    · rw [← resembles.fields.1, owns, alike.fields.1]
    · rw [← resembles.fields.2.1, names, alike.fields.2.1]

theorem Recorded.bare (recorded : Recorded s t) (bare : s.Bare) : t.Bare := by
  intro row mem deleted other present owns names
  obtain ⟨old, early, alike⟩ := recorded.back row mem
  obtain ⟨past, before, resembles⟩ := recorded.back other present
  rw [alike.status] at deleted
  apply resembles.secret
  apply bare old early deleted past before
  · rw [← resembles.fields.1, owns, alike.fields.1]
  · rw [← resembles.fields.2.1, names, alike.fields.2.1]

theorem Recorded.ready {prefs : PreferencesRow} (recorded : Recorded s t) (ready : s.Ready prefs) : t.Ready prefs := by
  intro id chosen
  obtain ⟨old, latest, status⟩ := ready id chosen
  obtain ⟨new, latest, same⟩ := recorded.latest latest
  exact ⟨new, latest, same.trans status⟩

theorem Recorded.sound (recorded : Recorded s t) (sound : s.Sound) (prefs : t.preferences = s.preferences) : t.Sound :=
  ⟨recorded.numbered sound.numbered, recorded.bare sound.bare,
    fun row mem => recorded.ready (sound.ready row (prefs ▸ mem))⟩

theorem Alike.refl (row : ConnectionRow) : Alike row row := ⟨rfl, ⟨rfl, rfl⟩, rfl, id⟩

theorem Recorded.replace {new : ConnectionRow} (mem : row ∈ s.connections.entries) (alike : Alike row new) :
    Recorded s { s with connections := s.connections.set new } := by
  constructor
  · intro other present
    rcases Rows.mem_set.mp present with rfl | ⟨early, -⟩
    · exact ⟨row, mem, alike⟩
    · exact ⟨other, early, .refl other⟩
  · intro other early
    by_cases same : other.key = new.key
    · have found := Rows.get_of_mem early
      rw [same, alike.key, Rows.get_of_mem mem] at found
      cases found
      exact ⟨new, Rows.mem_set.mpr (.inl rfl), alike⟩
    · exact ⟨other, Rows.mem_set.mpr (.inr ⟨early, same⟩), .refl other⟩

theorem mem_forgetSecrets : other ∈ (s.forgetSecrets caller id).connections.entries ↔
    ∃ row ∈ s.connections.entries, other = if row.caller = caller ∧ row.id = id then row.forget else row := by
  have lookup (key : Caller × String × Nat) : (s.forgetSecrets caller id).connections.get key =
      (s.connections.get key).map fun row => if row.caller = caller ∧ row.id = id then row.forget else row := by
    have keeps : ∀ row : ConnectionRow, row.forget.key = row.key := fun _ => rfl
    unfold Store.forgetSecrets Store.revisions
    rw [Rows.get_setAll_select keeps]
    simp only [decide_eq_true_eq]
  constructor
  · intro mem
    have found := Rows.get_of_mem mem
    rw [lookup] at found
    obtain ⟨row, early, rfl⟩ := Option.map_eq_some_iff.mp found
    exact ⟨row, Rows.get_mem early, rfl⟩
  · rintro ⟨row, mem, rfl⟩
    apply Rows.get_mem (k := row.key)
    rw [lookup, Rows.get_of_mem mem]
    rfl

theorem alike_forget (row : ConnectionRow) :
    Alike row (if row.caller = caller ∧ row.id = id then row.forget else row) := by
  split
  · exact ⟨rfl, ⟨rfl, rfl⟩, rfl, fun _ => rfl⟩
  · exact .refl row

theorem recorded_forgetSecrets : Recorded s (s.forgetSecrets caller id) := by
  constructor
  · intro other mem
    obtain ⟨row, early, rfl⟩ := mem_forgetSecrets.mp mem
    exact ⟨row, early, alike_forget row⟩
  · exact fun row mem => ⟨_, mem_forgetSecrets.mpr ⟨row, mem, rfl⟩, alike_forget row⟩

end Rows

structure Store.Next (s : Store) (row : ConnectionRow) : Prop where
  named : row.body.connectionId = row.id ∧ row.body.configRevision = row.revision
  kept : ∀ latest, s.Latest row.caller row.id latest → latest.body.status ≠ .deleted ∧ row.revision = latest.revision + 1
  first : s.latest row.caller row.id = none → row.revision = 1

def Store.insert (s : Store) (row : ConnectionRow) : Store := { s with connections := s.connections.set row }

def Store.revised (s : Store) (row : ConnectionRow) : Store :=
  if row.body.status = .deleted then (s.insert row).forgetSecrets row.caller row.id else s.insert row

section Saves
variable {s : Store} {caller : Caller} {id : String} {row other : ConnectionRow}

theorem mem_insert : other ∈ (s.insert row).connections.entries ↔
    other = row ∨ (other ∈ s.connections.entries ∧ other.key ≠ row.key) := Rows.mem_set

theorem Store.Next.later (next : s.Next row) (mem : other ∈ s.connections.entries) (owns : other.caller = row.caller)
    (names : other.id = row.id) : other.revision < row.revision := by
  cases latest : s.latest row.caller row.id with
  | none => exact absurd names (latest_none.mp latest other mem owns)
  | some old =>
    have greatest := latest_iff.mp latest
    rw [(next.kept old greatest).2]
    exact Nat.lt_succ_of_le (greatest.greatest other mem owns names)

theorem Store.Next.mem_insert (next : s.Next row) :
    other ∈ (s.insert row).connections.entries ↔ other = row ∨ other ∈ s.connections.entries := by
  rw [ConnectionStore.mem_insert]
  constructor
  · exact Or.imp id And.left
  · rintro (same | mem)
    · exact .inl same
    · refine .inr ⟨mem, fun same => ?_⟩
      unfold ConnectionRow.key at same
      rw [Prod.mk.injEq, Prod.mk.injEq] at same
      exact absurd same.2.2 (next.later mem same.1 same.2.1).ne

theorem Store.Next.latest (next : s.Next row) : (s.insert row).Latest row.caller row.id row := by
  refine ⟨next.mem_insert.mpr (.inl rfl), rfl, rfl, ?_⟩
  intro other present owns names
  rcases next.mem_insert.mp present with rfl | mem
  · exact Nat.le_refl _
  · exact (next.later mem owns names).le

theorem Store.Next.elsewhere (next : s.Next row) (away : ¬ (caller = row.caller ∧ id = row.id))
    (latest : s.Latest caller id other) : (s.insert row).Latest caller id other := by
  refine ⟨next.mem_insert.mpr (.inr latest.mem), latest.owner, latest.name, ?_⟩
  intro another present owns names
  rcases next.mem_insert.mp present with rfl | mem
  · exact absurd ⟨owns.symm, names.symm⟩ away
  · exact latest.greatest another mem owns names

theorem Store.Next.positive (next : s.Next row) : 1 ≤ row.revision := by
  cases latest : s.latest row.caller row.id with
  | none => exact (next.first latest).ge
  | some old =>
    rw [(next.kept old (latest_iff.mp latest)).2]
    exact Nat.le_add_left 1 _

theorem has_iff {key : Caller × String × Nat} : s.connections.has key = true ↔
    ∃ row ∈ s.connections.entries, row.key = key := by
  rw [Rows.has_iff]
  exact exists_congr fun row => Rows.get_iff

theorem Store.Next.deleted (next : s.Next row) (numbered : s.Numbered) (mem : other ∈ s.connections.entries)
    (gone : other.body.status = .deleted) : ¬ (other.caller = row.caller ∧ other.id = row.id) := by
  rintro ⟨owns, names⟩
  have greatest : s.Latest row.caller row.id other := by
    refine ⟨mem, owns, names, fun another present owned named => ?_⟩
    exact numbered.last other mem gone another present (owned.trans owns.symm) (named.trans names.symm)
  exact (next.kept other greatest).1 gone

theorem Store.Next.numbered (next : s.Next row) (numbered : s.Numbered) : (s.insert row).Numbered := by
  constructor
  · intro other mem
    rcases next.mem_insert.mp mem with rfl | mem
    · exact next.named
    · exact numbered.named other mem
  · intro other mem
    rcases next.mem_insert.mp mem with rfl | mem
    · exact next.positive
    · exact numbered.positive other mem
  · intro other mem k first last
    have kept {other : ConnectionRow} (mem : other ∈ s.connections.entries) (last : k ≤ other.revision) :
        (s.insert row).connections.has (other.caller, other.id, k) = true := by
      obtain ⟨found, early, same⟩ := has_iff.mp (numbered.consecutive other mem k first last)
      exact has_iff.mpr ⟨found, next.mem_insert.mpr (.inr early), same⟩
    rcases next.mem_insert.mp mem with rfl | mem
    · rcases last.eq_or_lt with rfl | before
      · exact has_iff.mpr ⟨other, mem, rfl⟩
      cases latest : s.latest other.caller other.id with
      | none =>
        have only := next.first latest
        omega
      | some old =>
        have greatest := latest_iff.mp latest
        have step := (next.kept old greatest).2
        rw [← greatest.owner, ← greatest.name]
        exact kept greatest.mem (by omega)
    · exact kept mem last
  · intro other mem gone another present owns names
    rcases next.mem_insert.mp mem with rfl | early
    · exact next.latest.greatest another present owns names
    rcases next.mem_insert.mp present with rfl | before
    · exact absurd ⟨owns.symm, names.symm⟩ (next.deleted numbered early gone)
    · exact numbered.last other early gone another before owns names

theorem recorded_revised : Recorded (s.insert row) (s.revised row) := by
  unfold Store.revised
  split
  · exact recorded_forgetSecrets
  · exact ⟨fun other mem => ⟨other, mem, .refl other⟩, fun other mem => ⟨other, mem, .refl other⟩⟩

theorem Store.Next.mem_revised (next : s.Next row) (away : ¬ (other.caller = row.caller ∧ other.id = row.id)) :
    other ∈ (s.revised row).connections.entries ↔ other ∈ s.connections.entries := by
  have inserted : other ∈ (s.insert row).connections.entries ↔ other ∈ s.connections.entries := by
    rw [next.mem_insert]
    exact or_iff_right fun same => away (same ▸ ⟨rfl, rfl⟩)
  unfold Store.revised
  split
  · rw [mem_forgetSecrets, ← inserted]
    constructor
    · rintro ⟨old, mem, same⟩
      split at same
      · rename_i here
        exact absurd (same ▸ here) away
      · exact same ▸ mem
    · exact fun mem => ⟨other, mem, (if_neg away).symm⟩
  · exact inserted

theorem Store.Next.bare (next : s.Next row) (numbered : s.Numbered) (bare : s.Bare) : (s.revised row).Bare := by
  intro other mem gone another present owns names
  by_cases here : other.caller = row.caller ∧ other.id = row.id
  · unfold Store.revised at mem present
    split at mem
    · rename_i deleted
      rw [if_pos deleted] at present
      obtain ⟨old, -, rfl⟩ := mem_forgetSecrets.mp present
      split
      · rfl
      · rename_i away
        rw [if_neg away] at owns names
        exact absurd ⟨owns.trans here.1, names.trans here.2⟩ away
    · rename_i kept
      rcases next.mem_insert.mp mem with rfl | early
      · exact absurd gone kept
      · exact absurd here (next.deleted numbered early gone)
  · rw [next.mem_revised here] at mem
    rw [next.mem_revised (owns ▸ names ▸ here)] at present
    exact bare other mem gone another present owns names

/-- The default that a save leaves is ready. -/
theorem Store.Next.ready (next : s.Next row) (ready : ∀ prefs ∈ s.preferences.entries, s.Ready prefs) :
    ∀ prefs ∈ (s.preferences.set ⟨row.caller, s.adjustDefault row.caller row.body⟩).entries, (s.revised row).Ready prefs := by
  have kept {prefs : PreferencesRow} (mem : prefs ∈ s.preferences.entries) (id : String)
      (chosen : prefs.body.defaultConnectionId = some id) (away : ¬ (prefs.caller = row.caller ∧ id = row.id)) :
      ∃ found, (s.insert row).Latest prefs.caller id found ∧ found.body.status = .ready := by
    obtain ⟨found, latest, status⟩ := ready prefs mem id chosen
    exact ⟨found, next.elsewhere away latest, status⟩
  have former (id : String) (chosen : (s.userPreferences row.caller).defaultConnectionId = some id) (away : id ≠ row.id) :
      ∃ found, (s.insert row).Latest row.caller id found ∧ found.body.status = .ready := by
    unfold Store.userPreferences at chosen
    cases stored : s.preferences.get row.caller with
    | none =>
      rw [stored] at chosen
      cases chosen
    | some prefs =>
      rw [stored] at chosen
      rw [← Rows.get_key stored]
      exact kept (Rows.get_mem stored) id chosen fun same => away same.2
  intro prefs mem
  apply recorded_revised.ready
  intro id chosen
  rcases Rows.mem_set.mp mem with rfl | ⟨early, owner⟩
  · dsimp only at chosen ⊢
    unfold Store.adjustDefault at chosen
    dsimp only at chosen
    by_cases here : id = row.id
    · subst here
      refine ⟨row, next.latest, ?_⟩
      by_contra unready
      rw [if_neg unready] at chosen
      split at chosen
      · cases chosen
      · rename_i differ
        exact differ (next.named.1 ▸ chosen)
    · split at chosen
      · split at chosen
        · cases chosen
          exact absurd next.named.1 here
        · exact former id chosen here
      · split at chosen
        · cases chosen
        · exact former id chosen here
  · exact kept early id chosen fun same => owner same.1

end Saves

section Calls
variable {s t : Store} {caller : Caller} {id : String} {row other : ConnectionRow}

theorem connection_ok {found : Option Connection} :
    s.connection caller id = .ok found ↔
      isId id = true ∧ caller.accepts = true ∧ found = (s.latest caller id).map (·.body) := by
  unfold Store.connection
  split
  · rename_i accepted
    obtain ⟨named, owner⟩ := Bool.and_eq_true_iff.mp accepted
    constructor
    · rintro ⟨⟩
      exact ⟨named, owner, rfl⟩
    · rintro ⟨-, -, rfl⟩
      rfl
  · rename_i refused
    rw [Bool.and_eq_true] at refused
    constructor
    · rintro ⟨⟩
    · exact fun h => absurd ⟨h.1, h.2.1⟩ refused

variable [ConnectionWire]

theorem recordConnectionTest_recorded {expected : Nat} {result : ConnectionTest} {c : Connection}
    (numbered : s.Numbered) (h : s.recordConnectionTest caller id expected result = .ok (c, t)) :
    t.preferences = s.preferences ∧ ∃ row, s.Latest caller id row ∧ row.body.status ≠ .deleted ∧
      t.connections = s.connections.set { row with body := { row.body with lastTest := some result } } := by
  unfold Store.recordConnectionTest at h
  obtain ⟨current, found, h⟩ := bind_ok.mp h
  obtain ⟨-, -, rfl⟩ := connection_ok.mp found
  cases latest : s.latest caller id with
  | none =>
    rw [latest] at h
    cases h
  | some row =>
    rw [latest] at h
    dsimp only [Option.map_some] at h
    split at h
    · cases h
    rename_i kept
    obtain ⟨revision, open'⟩ := not_or.mp kept
    obtain ⟨-, -, h⟩ := bind_ok.mp h
    split at h
    · cases h
    have greatest := latest_iff.mp latest
    have key : (caller, id, expected) = row.key := by
      unfold ConnectionRow.key
      rw [greatest.owner, greatest.name, ← (numbered.named row greatest.mem).2, not_not.mp revision]
    rw [key, Rows.get_of_mem greatest.mem] at h
    cases h
    exact ⟨rfl, row, greatest, open', rfl⟩

theorem connectionRevision_ok {next checked : Connection} {previous : Option Connection} {expected : Option Nat}
    (h : connectionRevision next previous expected = .ok checked) :
    checked = next ∧ previous.map (·.status) ≠ some .deleted ∧
      next.configRevision = (previous.map (·.configRevision)).getD 0 + 1 := by
  unfold connectionRevision at h
  split at h
  · cases h
  split at h
  · cases h
  split at h
  · cases h
  rename_i allowed
  obtain ⟨kept, revision⟩ := not_or.mp allowed
  split at h
  · cases h
  split at h
  · cases h
  cases h
  exact ⟨rfl, kept, not_not.mp revision⟩

theorem saveConnection_next {next c : Connection} {expected : Option Nat} {secret : Option (List UInt8)}
    (numbered : s.Numbered) (h : s.saveConnection caller next expected secret = .ok (c, t)) :
    ∃ row : ConnectionRow, row.caller = caller ∧ row.id = next.connectionId ∧ row.body = next ∧ s.Next row ∧
      t.connections = (s.revised row).connections ∧
      t.preferences = s.preferences.set ⟨caller, s.adjustDefault caller next⟩ := by
  unfold Store.saveConnection at h
  split at h
  · cases h
  obtain ⟨previous, found, h⟩ := bind_ok.mp h
  obtain ⟨-, -, rfl⟩ := connection_ok.mp found
  obtain ⟨_, accepted, h⟩ := bind_ok.mp h
  obtain ⟨-, kept, revision⟩ := connectionRevision_ok accepted
  split at h
  · cases h
  obtain ⟨inserted, insert, h⟩ := bind_ok.mp h
  unfold Store.insertConnection at insert
  split at insert
  · cases insert
  cases insert
  obtain ⟨stored, put, h⟩ := bind_ok.mp h
  unfold Store.putPreferences at put
  obtain ⟨-, -, put⟩ := bind_ok.mp put
  cases h
  cases put
  refine ⟨⟨caller, next.connectionId, next.configRevision, next, secret⟩, rfl, rfl, rfl, ⟨⟨rfl, rfl⟩, ?_, ?_⟩, ?_, ?_⟩
  · intro latest greatest
    rw [latest_iff.mpr greatest] at kept revision
    refine ⟨fun deleted => kept (by simp [deleted]), ?_⟩
    rw [← (numbered.named latest greatest.mem).2]
    exact revision
  · intro absent
    rw [absent] at revision
    exact revision
  · rfl
  · dsimp only
    split <;> rfl

end Calls

end RssMdmAgent.ConnectionStore
