import RssMdmAgent.ConnectionRevisions

set_option autoImplicit false

/-! # Connections and preferences along every run -/

namespace RssMdmAgent.ConnectionStore
open OrderedRows TransitionRuns
open ContractPlan (bind_ok)

def Store.empty : Store := ⟨.empty, .empty⟩

section Steps
variable [ConnectionWire] {s t : Store} {caller : Caller} {id : String} {row other : ConnectionRow}

omit [ConnectionWire] in
theorem recorded_of_eq (same : t.connections = s.connections) : Recorded s t :=
  ⟨fun row mem => ⟨row, same ▸ mem, .refl row⟩, fun row mem => ⟨row, same ▸ mem, .refl row⟩⟩

theorem mergePreferences_ok {current prefs : UserPreferences} {patch : PreferencesPatch}
    (h : mergePreferences current patch = .ok prefs) :
    prefs.defaultConnectionId = PreferenceChange.apply patch.defaultConnectionId current.defaultConnectionId ∧
      prefs.selectedSessionId = PreferenceChange.apply patch.selectedSessionId current.selectedSessionId ∧
      prefs.presentation = (match patch.presentation with
        | none => current.presentation
        | some members => some ((current.presentation.getD .empty).setAll members.entries)) := by
  unfold mergePreferences at h
  split at h
  · cases h
  · cases h
    exact ⟨rfl, rfl, rfl⟩

theorem savePreferences_ok {hasSession : String → Bool} {patch : PreferencesPatch} {prefs : UserPreferences}
    (h : s.savePreferences caller hasSession patch = .ok (prefs, t)) :
    mergePreferences (s.userPreferences caller) patch = .ok prefs ∧ s.checkDefault caller prefs = .ok () ∧
      t = { s with preferences := s.preferences.set ⟨caller, prefs⟩ } := by
  unfold Store.savePreferences at h
  split at h
  · cases h
  obtain ⟨merged, merge, h⟩ := bind_ok.mp h
  obtain ⟨⟨⟩, check, h⟩ := bind_ok.mp h
  obtain ⟨⟨⟩, -, h⟩ := bind_ok.mp h
  obtain ⟨stored, put, h⟩ := bind_ok.mp h
  obtain ⟨-, -, put⟩ := bind_ok.mp put
  cases h
  cases put
  exact ⟨merge, check, rfl⟩

omit [ConnectionWire] in
theorem checkDefault_ok {prefs : UserPreferences} (h : s.checkDefault caller prefs = .ok ()) : s.Ready ⟨caller, prefs⟩ := by
  intro id chosen
  unfold Store.checkDefault at h
  dsimp only at chosen
  rw [chosen] at h
  obtain ⟨current, found, h⟩ := bind_ok.mp h
  obtain ⟨-, -, rfl⟩ := connection_ok.mp found
  split at h
  · rename_i ready
    obtain ⟨body, latest, status⟩ := Option.map_eq_some_iff.mp ready
    obtain ⟨row, greatest, rfl⟩ := Option.map_eq_some_iff.mp latest
    exact ⟨row, latest_iff.mp greatest, status⟩
  · cases h

theorem savePreferences_sound {hasSession : String → Bool} {patch : PreferencesPatch} {prefs : UserPreferences}
    (sound : s.Sound) (h : s.savePreferences caller hasSession patch = .ok (prefs, t)) : t.Sound := by
  obtain ⟨-, check, rfl⟩ := savePreferences_ok h
  have recorded : Recorded s { s with preferences := s.preferences.set ⟨caller, prefs⟩ } := recorded_of_eq rfl
  refine ⟨recorded.numbered sound.numbered, recorded.bare sound.bare, ?_⟩
  intro row mem
  apply recorded.ready
  rcases Rows.mem_set.mp mem with rfl | ⟨early, -⟩
  · exact checkDefault_ok check
  · exact sound.ready row early

theorem recordConnectionTest_sound {expected : Nat} {result : ConnectionTest} {c : Connection} (sound : s.Sound)
    (h : s.recordConnectionTest caller id expected result = .ok (c, t)) : t.Sound := by
  obtain ⟨prefs, row, latest, -, rows⟩ := recordConnectionTest_recorded sound.numbered h
  have alike : Alike row { row with body := { row.body with lastTest := some result } } :=
    ⟨rfl, ⟨rfl, rfl⟩, rfl, fun bare => bare⟩
  have replaced := Recorded.replace latest.mem alike
  have recorded : Recorded s t := ⟨rows ▸ replaced.back, rows ▸ replaced.on⟩
  exact recorded.sound sound prefs

theorem saveConnection_sound {next c : Connection} {expected : Option Nat} {secret : Option (List UInt8)} (sound : s.Sound)
    (h : s.saveConnection caller next expected secret = .ok (c, t)) : t.Sound := by
  obtain ⟨row, rfl, -, rfl, follows, rows, prefs⟩ := saveConnection_next sound.numbered h
  have recorded : Recorded (s.revised row) t := recorded_of_eq rows
  refine ⟨?_, recorded.bare (follows.bare sound.numbered sound.bare), ?_⟩
  · exact recorded.numbered (recorded_revised.numbered (follows.numbered sound.numbered))
  · rw [prefs]
    exact fun kept mem => recorded.ready (follows.ready sound.ready kept mem)

theorem perform_cases {call : Call} (h : s.perform caller call = .ok t) :
    (∃ next expected secret c, call = .saveConnection next expected secret ∧
        s.saveConnection caller next expected secret = .ok (c, t)) ∨
      (∃ id expected result c, call = .recordConnectionTest id expected result ∧
        s.recordConnectionTest caller id expected result = .ok (c, t)) ∨
      ∃ hasSession patch prefs, call = .savePreferences hasSession patch ∧
        s.savePreferences caller hasSession patch = .ok (prefs, t) := by
  have split {α : Type} {result : Except SessionRecords.ErrorCode (α × Store)} (h : result.map Prod.snd = .ok t) :
      ∃ a, result = .ok (a, t) := by
    cases result with
    | error _ => cases h
    | ok pair =>
      cases h
      exact ⟨pair.1, rfl⟩
  cases call with
  | saveConnection next expected secret =>
    obtain ⟨c, saved⟩ := split h
    exact .inl ⟨next, expected, secret, c, rfl, saved⟩
  | recordConnectionTest id expected result =>
    obtain ⟨c, recorded⟩ := split h
    exact .inr (.inl ⟨id, expected, result, c, rfl, recorded⟩)
  | savePreferences hasSession patch =>
    obtain ⟨prefs, saved⟩ := split h
    exact .inr (.inr ⟨hasSession, patch, prefs, rfl, saved⟩)

theorem step_sound {label : Caller × Call} (sound : s.Sound) (h : Step s label t) : t.Sound := by
  rcases perform_cases h with ⟨_, _, _, _, -, saved⟩ | ⟨_, _, _, _, -, recorded⟩ | ⟨_, _, _, -, saved⟩
  · exact saveConnection_sound sound saved
  · exact recordConnectionTest_sound sound recorded
  · exact savePreferences_sound sound saved

theorem step_deleted {label : Caller × Call} (sound : s.Sound) (h : Step s label t)
    (mem : row ∈ s.connections.entries) (gone : row.body.status = .deleted) (owns : other.caller = row.caller)
    (names : other.id = row.id) : other ∈ t.connections.entries ↔ other ∈ s.connections.entries := by
  rcases perform_cases h with ⟨_, _, _, _, -, saved⟩ | ⟨_, _, _, _, -, recorded⟩ | ⟨_, _, _, -, saved⟩
  · obtain ⟨new, -, -, -, follows, rows, -⟩ := saveConnection_next sound.numbered saved
    rw [rows]
    apply follows.mem_revised
    rw [owns, names]
    exact follows.deleted sound.numbered mem gone
  · obtain ⟨-, latest, greatest, kept, rows⟩ := recordConnectionTest_recorded sound.numbered recorded
    have away : other.key ≠ latest.key := by
      intro same
      unfold ConnectionRow.key at same
      rw [Prod.mk.injEq, Prod.mk.injEq] at same
      have owner : row.caller = latest.caller := owns.symm.trans same.1
      have name : row.id = latest.id := names.symm.trans same.2.1
      have least := greatest.greatest row mem (owner.trans greatest.owner) (name.trans greatest.name)
      have most := sound.numbered.last row mem gone latest greatest.mem owner.symm name.symm
      exact kept (same_row mem greatest.mem owner name (Nat.le_antisymm least most) ▸ gone)
    rw [rows, Rows.mem_set]
    constructor
    · rintro (rfl | ⟨early, -⟩)
      · exact absurd rfl away
      · exact early
    · exact fun early => .inr ⟨early, away⟩
  · obtain ⟨-, -, rfl⟩ := savePreferences_ok saved
    exact Iff.rfl

end Steps

def UserPreferences.member (prefs : UserPreferences) (name : String) : Option String :=
  (prefs.presentation.bind (·.get name)).map Prod.snd

def PreferencesPatch.member (patch : PreferencesPatch) (name : String) : Option String :=
  (patch.presentation.bind (·.get name)).map Prod.snd

/-- Only the fields of a patch change, each to the value that the patch gives it. -/
structure Patched (s : Store) (caller : Caller) (patch : PreferencesPatch) (t : Store) : Prop where
  connections : t.connections = s.connections
  others : ∀ other, other ≠ caller → t.userPreferences other = s.userPreferences other
  chosen : (t.userPreferences caller).defaultConnectionId =
    PreferenceChange.apply patch.defaultConnectionId (s.userPreferences caller).defaultConnectionId
  selected : (t.userPreferences caller).selectedSessionId =
    PreferenceChange.apply patch.selectedSessionId (s.userPreferences caller).selectedSessionId
  members : ∀ name, (t.userPreferences caller).member name =
    (patch.member name).or ((s.userPreferences caller).member name)
  unnamed : patch.presentation = none →
    (t.userPreferences caller).presentation = (s.userPreferences caller).presentation

section Runs
variable [ConnectionWire] {s t : Store} {caller : Caller} {id : String} {row other : ConnectionRow}

theorem savePreferences_patched {hasSession : String → Bool} {patch : PreferencesPatch} {prefs : UserPreferences}
    (h : s.savePreferences caller hasSession patch = .ok (prefs, t)) : Patched s caller patch t := by
  obtain ⟨merge, -, rfl⟩ := savePreferences_ok h
  obtain ⟨chosen, selected, presentation⟩ := mergePreferences_ok merge
  have self : Store.userPreferences { s with preferences := s.preferences.set ⟨caller, prefs⟩ } caller = prefs := by
    unfold Store.userPreferences
    dsimp only
    rw [Rows.get_set, if_pos rfl]
    rfl
  constructor
  · rfl
  · intro other differ
    unfold Store.userPreferences
    dsimp only
    rw [Rows.get_set_ne differ]
  · rw [self, chosen]
  · rw [self, selected]
  · intro name
    rw [self]
    unfold UserPreferences.member PreferencesPatch.member
    rw [presentation]
    cases patch.presentation with
    | none => rfl
    | some members =>
      dsimp only [Option.bind_some]
      rw [Rows.get_setAll _ _ members.distinct, Option.map_or]
      cases (s.userPreferences caller).presentation <;> rfl
  · intro unnamed
    rw [self, presentation, unnamed]

omit [ConnectionWire] in
theorem Store.Numbered.interval (numbered : s.Numbered) (caller : Caller) (id : String) :
    ∃ n, ∀ k, s.connections.has (caller, id, k) = true ↔ 1 ≤ k ∧ k ≤ n := by
  have bounds {k n : Nat} (most : ∀ row ∈ s.connections.entries, row.caller = caller → row.id = id → row.revision ≤ n)
      (has : s.connections.has (caller, id, k) = true) : 1 ≤ k ∧ k ≤ n := by
    obtain ⟨row, mem, key⟩ := has_iff.mp has
    unfold ConnectionRow.key at key
    rw [Prod.mk.injEq, Prod.mk.injEq] at key
    obtain ⟨owns, names, rfl⟩ := key
    exact ⟨numbered.positive row mem, most row mem owns names⟩
  cases latest : s.latest caller id with
  | none =>
    refine ⟨0, fun k => ⟨bounds ?_, fun h => by omega⟩⟩
    exact fun row mem owns names => absurd names (latest_none.mp latest row mem owns)
  | some row =>
    have greatest := latest_iff.mp latest
    refine ⟨row.revision, fun k => ⟨bounds greatest.greatest, fun h => ?_⟩⟩
    rw [← greatest.owner, ← greatest.name]
    exact numbered.consecutive row greatest.mem k h.1 h.2

omit [ConnectionWire] in
theorem empty_sound : Store.empty.Sound := by
  have rows (row : ConnectionRow) : row ∉ Store.empty.connections.entries := List.not_mem_nil
  have prefs (row : PreferencesRow) : row ∉ Store.empty.preferences.entries := List.not_mem_nil
  constructor
  · constructor <;> exact fun row mem => absurd mem (rows row)
  · exact fun row mem => absurd mem (rows row)
  · exact fun row mem => absurd mem (prefs row)

theorem run_sound {labels : List (Caller × Call)} (run : Runs Step Store.empty labels s) : s.Sound :=
  run.invariant Store.Sound empty_sound fun _ _ _ sound h => step_sound sound h

theorem run_deleted {labels : List (Caller × Call)} (sound : s.Sound) (run : Runs Step s labels t)
    (mem : row ∈ s.connections.entries) (gone : row.body.status = .deleted) : t.Sound ∧
      ∀ other : ConnectionRow, other.caller = row.caller → other.id = row.id →
        (other ∈ t.connections.entries ↔ other ∈ s.connections.entries) := by
  apply run.invariant fun t => t.Sound ∧ ∀ other : ConnectionRow, other.caller = row.caller → other.id = row.id →
    (other ∈ t.connections.entries ↔ other ∈ s.connections.entries)
  · exact ⟨sound, fun _ _ _ => Iff.rfl⟩
  · rintro t label u ⟨sound, same⟩ h
    have here : row ∈ t.connections.entries := (same row rfl rfl).mpr mem
    refine ⟨step_sound sound h, fun other owns names => ?_⟩
    rw [step_deleted sound h here gone owns names]
    exact same other owns names

/-- Revisions are exactly 1 to n, a deleted connection stays as it is without secrets, and a default is ready. -/
theorem connections_kept {labels : List (Caller × Call)} (run : Runs Step Store.empty labels s) :
    (∀ caller id, ∃ n, ∀ k, s.connections.has (caller, id, k) = true ↔ 1 ≤ k ∧ k ≤ n) ∧
    (∀ row ∈ s.connections.entries, row.body.connectionId = row.id ∧ row.body.configRevision = row.revision) ∧
    (∀ row ∈ s.connections.entries, row.body.status = .deleted → ∀ later t, Runs Step s later t →
      ∀ other : ConnectionRow, other.caller = row.caller → other.id = row.id →
        (other ∈ t.connections.entries ↔ other ∈ s.connections.entries) ∧
        (other ∈ t.connections.entries → other.encryptedSecret = none)) ∧
    (∀ caller id, (s.userPreferences caller).defaultConnectionId = some id →
      ∃ row, s.latest caller id = some row ∧ row.body.status = .ready) ∧
    ∀ caller hasSession patch prefs t, s.savePreferences caller hasSession patch = .ok (prefs, t) →
      Patched s caller patch t ∧ t.userPreferences caller = prefs := by
  have sound := run_sound run
  refine ⟨sound.numbered.interval, sound.numbered.named, ?_, ?_, ?_⟩
  · intro row mem gone later t rest other owns names
    obtain ⟨after, same⟩ := run_deleted sound rest mem gone
    have here : row ∈ t.connections.entries := (same row rfl rfl).mpr mem
    exact ⟨same other owns names, fun present => after.bare row here gone other present owns names⟩
  · intro caller id chosen
    unfold Store.userPreferences at chosen
    cases stored : s.preferences.get caller with
    | none =>
      rw [stored] at chosen
      cases chosen
    | some prefs =>
      rw [stored] at chosen
      obtain ⟨row, latest, status⟩ := sound.ready prefs (Rows.get_mem stored) id chosen
      rw [Rows.get_key stored] at latest
      exact ⟨row, latest_iff.mpr latest, status⟩
  · intro caller hasSession patch prefs t saved
    refine ⟨savePreferences_patched saved, ?_⟩
    obtain ⟨-, -, rfl⟩ := savePreferences_ok saved
    unfold Store.userPreferences
    dsimp only
    rw [Rows.get_set, if_pos rfl]
    rfl

end Runs

section Sample

@[reducible] def sampleWire : ConnectionWire where
  connection _ := .ok ()
  patch _ := true
  preferences _ := .ok ()
  url text := if text = "https://api.example" then some ⟨"https:", "api.example", "", "", "", ""⟩ else none

attribute [local instance] sampleWire

def sampleCaller : Caller := ⟨"tenant", "principal", "authority"⟩

def sampleConnection (revision : Nat) (status : Status) : Connection where
  connectionId := "connection"
  provider := .claude
  configRevision := revision
  profile := .conversation
  status := status
  source := .customApi "https://api.example" "model" none
  lastTest := none
  name := "Name"
  details := ""

def sampleCalls : List (Caller × Call) :=
  [.saveConnection (sampleConnection 1 .unverified) none (some (List.replicate 29 0)),
    .recordConnectionTest "connection" 1 ⟨1, none⟩,
    .saveConnection (sampleConnection 2 .ready) (some 1) (some (List.replicate 29 1)),
    .savePreferences (fun _ => true) ⟨some (.set "connection"), none, none⟩,
    .saveConnection (sampleConnection 3 .deleted) (some 2) none].map fun call => (sampleCaller, call)

def advanceSample (s : Store) (label : Caller × Call) : Option Store := (s.perform label.1 label.2).toOption

theorem advanceSample_step {s t : Store} {label : Caller × Call} (h : advanceSample s label = some t) : Step s label t := by
  unfold advanceSample at h
  unfold Step
  cases performed : s.perform label.1 label.2 with
  | error _ =>
    rw [performed] at h
    cases h
  | ok _ =>
    rw [performed] at h
    cases h
    rfl

/-- The three revisions of the sample are kept, all without a secret. -/
theorem sample_connections : ∃ s, Runs Step Store.empty sampleCalls s ∧ s.connections.entries.length = 3 ∧
    (∃ row ∈ s.connections.entries, row.body.status = .deleted) ∧
    ∃ n, ∀ k, s.connections.has (sampleCaller, "connection", k) = true ↔ 1 ≤ k ∧ k ≤ n := by
  obtain ⟨s, advanced, three, deleted⟩ : ∃ s, sampleCalls.foldlM advanceSample Store.empty = some s ∧
      s.connections.entries.length = 3 ∧ ∃ row ∈ s.connections.entries, row.body.status = .deleted := by
    refine ⟨_, rfl, ?_, ?_⟩
    · decide +kernel
    · decide +kernel
  have run := Runs.of_foldlM advanceSample id (fun s label t => advanceSample_step) sampleCalls advanced
  rw [List.map_id] at run
  exact ⟨s, run, three, deleted, (connections_kept run).1 sampleCaller "connection"⟩

end Sample

end RssMdmAgent.ConnectionStore
