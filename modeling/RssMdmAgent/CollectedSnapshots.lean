import RssMdmAgent.ProjectionStore

set_option autoImplicit false

/-! # The batch one capture writes -/

namespace RssMdmAgent.CollectedSnapshots
open OrderedRows CollectedValues ProjectionStore

/-- What the namespace holds under one key; a document no modelled function reads keeps its size only. -/
inductive Record (V R : Type) where
  | collected (value : CollectedData V)
  | association (query : QueryRef) (bytes : Nat)
  | published (subject session context : String) (seenAt bytes : Nat)
  | definition (reference : QueryRef) (read : R) (seenAt bytes : Nat)
  | observed (reference : QueryRef) (bytes : Nat)
  | policyRead (seenAt bytes : Nat)
  | other (bytes : Nat)

section Snapshots
variable {V R : Type} (e : Encoding V)

def Record.size : Record V R → Nat
  | .collected value => value.size e
  | .association _ bytes | .published _ _ _ _ bytes | .definition _ _ _ bytes | .observed _ bytes
  | .policyRead _ bytes | .other bytes => bytes

def Record.decode : Record V R → Except Error (CollectedData V)
  | .collected value => pure value
  | _ => throw .protocol

def notLater : Option Nat → Option Nat → Bool
  | none, _ => true
  | some _, none => false
  | some a, some b => decide (a ≤ b)

def stripPrefix (part key : String) : Option String :=
  if hasPrefix part key then some (String.ofList (key.toList.drop part.toList.length)) else none

def latestKey (id : String) : String := "latest/" ++ id

def resultKey (request : String) : String := "result/" ++ request

def inputKey (request : String) : String := "input/" ++ request

def projectedKey (id : String) : String := "latest/projected:" ++ id

def latest (s : CollectedStore (Record V R)) (key : String) : Except Error (Option (CollectedData V)) := do
  match ← s.read (Record.size e) key with
  | none => pure none
  | some body => pure (some (← body.decode))

structure Batch (V R : Type) where
  writes : Table (Record V R)
  remove : List String

def Batch.start : Batch V R := ⟨Rows.empty, []⟩

/-- One value enters the batch. -/
def Batch.add (r : Redactor V) (s : CollectedStore (Record V R)) (b : Batch V R) (value : CollectedData V) :
    Except Error (Batch V R) := do
  let value ← bounded e r value
  let previous ← latest e s (latestKey value.query.id)
  let writes := if previous.all fun p => notLater p.collectedAt value.collectedAt
    then b.writes.set (latestKey value.query.id, .collected value) else b.writes
  match value.request with
  | none => pure ⟨writes, b.remove⟩
  | some request => pure ⟨writes.set (resultKey request, .collected value), b.remove ++ [inputKey request]⟩

def Batch.addMaterial (values : List (CollectedData V)) (writes : Table (Record V R)) (material : String × Record V R) :
    Table (Record V R) :=
  match stripPrefix "latest/projected:" material.1 with
  | some id =>
    if (values.any fun v => decide (v.query.id = id)) && !writes.has (latestKey id) then writes else writes.set material
  | none => writes.set material

def collect (r : Redactor V) (s : CollectedStore (Record V R)) (values : List (CollectedData V))
    (extra : List (String × Record V R)) : Except Error (Batch V R) := do
  let b ← values.foldlM (Batch.add e r s) Batch.start
  pure { b with writes := extra.foldl (Batch.addMaterial values) b.writes }

def snapshots (r : Redactor V) (s : CollectedStore (Record V R)) (values : List (CollectedData V))
    (extra : List (String × Record V R)) : Except Error (CollectedStore (Record V R)) := do
  let b ← collect e r s values extra
  s.commit (Record.size e) (b.writes.entries.insertionSort fun a b => a.1 ≤ b.1) b.remove

end Snapshots

section Facts
variable {V R : Type} {e : Encoding V} {r : Redactor V} {s s' : CollectedStore (Record V R)}
  {value v : CollectedData V} {values : List (CollectedData V)} {extra : List (String × Record V R)} {b b' : Batch V R}

theorem stripPrefix_iff {part key id : String} : stripPrefix part key = some id ↔ key = part ++ id := by
  unfold stripPrefix hasPrefix
  constructor
  · intro h
    split at h
    · rename_i found
      obtain ⟨rest, parts⟩ := List.isPrefixOf_iff_prefix.mp found
      cases h
      apply String.toList_injective
      rw [String.toList_append, String.toList_ofList, ← parts, List.drop_left]
    · cases h
  · rintro rfl
    rw [if_pos, String.toList_append, List.drop_left, String.ofList_toList]
    rw [List.isPrefixOf_iff_prefix, String.toList_append]
    exact List.prefix_append _ _

/-- A row of the batch that one value of the capture wrote. -/
inductive FromValue (e : Encoding V) (r : Redactor V) (s : CollectedStore (Record V R)) (value : CollectedData V) :
    String × Record V R → Prop where
  | latest {v : CollectedData V} {previous : Option (CollectedData V)} (kept : bounded e r value = .ok v)
      (read : latest e s (latestKey v.query.id) = .ok previous)
      (newer : ∀ p, previous = some p → notLater p.collectedAt v.collectedAt = true) :
      FromValue e r s value (latestKey v.query.id, .collected v)
  | result {v : CollectedData V} {request : String} (kept : bounded e r value = .ok v) (asked : v.request = some request) :
      FromValue e r s value (resultKey request, .collected v)

/-- How one value changes the batch. -/
structure Added (e : Encoding V) (r : Redactor V) (s : CollectedStore (Record V R)) (b : Batch V R)
    (value : CollectedData V) (b' : Batch V R) : Prop where
  source : ∀ row ∈ b'.writes.entries, row ∈ b.writes.entries ∨ FromValue e r s value row
  grows : ∀ key, b.writes.has key = true → b'.writes.has key = true
  removes : ∀ key ∈ b.remove, key ∈ b'.remove
  asks : ∀ key ∈ b'.remove, key ∈ b.remove ∨ ∃ request, value.request = some request ∧ key = inputKey request
  result : ∀ request, value.request = some request →
    b'.writes.has (resultKey request) = true ∧ inputKey request ∈ b'.remove

theorem has_set_grows {t : Table (Record V R)} {key : String} (row : String × Record V R) (h : t.has key = true) :
    (t.set row).has key = true := by
  rw [Rows.has_set, h, Bool.or_true]

theorem add_added (h : Batch.add e r s b value = .ok b') : Added e r s b value b' := by
  unfold Batch.add at h
  simp only [bind, Except.bind] at h
  split at h
  · cases h
  rename_i v kept
  split at h
  · cases h
  rename_i previous read
  have same := (bounded_kept kept).request
  -- the latest record is written or stays
  have first : ∀ writes : Table (Record V R), writes = (if previous.all (fun p => notLater p.collectedAt v.collectedAt)
      then b.writes.set (latestKey v.query.id, .collected v) else b.writes) →
      (∀ row ∈ writes.entries, row ∈ b.writes.entries ∨ FromValue e r s value row) ∧
      ∀ key, b.writes.has key = true → writes.has key = true := by
    rintro writes rfl
    split
    · rename_i newer
      refine ⟨fun row mem => ?_, fun key known => has_set_grows _ known⟩
      rcases Rows.mem_set.mp mem with rfl | ⟨mem, _⟩
      · refine .inr (.latest kept read ?_)
        rintro p rfl
        exact newer
      · exact .inl mem
    · exact ⟨fun row mem => .inl mem, fun key known => known⟩
  obtain ⟨source, grows⟩ := first _ rfl
  split at h <;> rename_i asked <;> cases h
  · refine ⟨source, grows, fun key mem => mem, fun key mem => .inl mem, fun request requested => ?_⟩
    rw [same, requested] at asked
    cases asked
  · rename_i request
    refine ⟨fun row mem => ?_, fun key known => has_set_grows _ (grows key known),
      fun key mem => List.mem_append_left _ mem, fun key mem => ?_, fun other requested => ?_⟩
    · rcases Rows.mem_set.mp mem with rfl | ⟨mem, _⟩
      · exact .inr (.result kept asked)
      · exact source row mem
    · rcases List.mem_append.mp mem with mem | mem
      · exact .inl mem
      · exact .inr ⟨request, same ▸ asked, List.mem_singleton.mp mem⟩
    · rw [same, requested] at asked
      cases asked
      exact ⟨by rw [Rows.has_set]; simp, List.mem_append_right _ (List.mem_singleton.mpr rfl)⟩

/-- The batch after every value. -/
structure Gathered (e : Encoding V) (r : Redactor V) (s : CollectedStore (Record V R)) (values : List (CollectedData V))
    (b : Batch V R) : Prop where
  source : ∀ row ∈ b.writes.entries, ∃ value ∈ values, FromValue e r s value row
  asks : ∀ key ∈ b.remove, ∃ value ∈ values, ∃ request, value.request = some request ∧ key = inputKey request
  result : ∀ value ∈ values, ∀ request, value.request = some request →
    b.writes.has (resultKey request) = true ∧ inputKey request ∈ b.remove

theorem gather (h : values.foldlM (Batch.add e r s) Batch.start = .ok b) : Gathered e r s values b := by
  have general : ∀ (rest before : List (CollectedData V)) (b b' : Batch V R), Gathered e r s before b →
      rest.foldlM (Batch.add e r s) b = .ok b' → Gathered e r s (before ++ rest) b' := by
    intro rest
    induction rest with
    | nil =>
      intro before b b' g h
      cases h
      rwa [List.append_nil]
    | cons value rest ih =>
      intro before b b' g h
      rw [List.foldlM_cons] at h
      cases added : Batch.add e r s b value with
      | error f =>
        rw [added] at h
        cases h
      | ok next =>
        rw [added] at h
        have step := add_added added
        have here : Gathered e r s (before ++ [value]) next := by
          constructor
          · intro row mem
            rcases step.source row mem with mem | mem
            · obtain ⟨other, placed, wrote⟩ := g.source row mem
              exact ⟨other, List.mem_append_left _ placed, wrote⟩
            · exact ⟨value, by simp, mem⟩
          · intro key mem
            rcases step.asks key mem with mem | mem
            · obtain ⟨other, placed, asked⟩ := g.asks key mem
              exact ⟨other, List.mem_append_left _ placed, asked⟩
            · exact ⟨value, by simp, mem⟩
          · intro other mem request asked
            rcases List.mem_append.mp mem with mem | mem
            · obtain ⟨known, listed⟩ := g.result other mem request asked
              exact ⟨step.grows _ known, step.removes _ listed⟩
            · cases List.mem_singleton.mp mem
              exact step.result request asked
        have := ih (before ++ [value]) next b' here h
        rwa [List.append_assoc] at this
  exact general values [] Batch.start b ⟨by simp [Batch.start, Rows.empty], by simp [Batch.start], by simp⟩ h

theorem addMaterial_projected {writes : Table (Record V R)} {material : String × Record V R} {id : String}
    (named : material.1 = projectedKey id) (member : ∃ value ∈ values, value.query.id = id) :
    Batch.addMaterial values writes material = if writes.has (latestKey id) then writes.set material else writes := by
  have known : (values.any fun v => decide (v.query.id = id)) = true := by simpa using member
  unfold Batch.addMaterial
  rw [stripPrefix_iff.mpr named]
  simp only [known, Bool.true_and]
  cases writes.has (latestKey id) <;> rfl

structure Proper (values : List (CollectedData V)) (extra : List (String × Record V R)) : Prop where
  queries : ∀ value ∈ values, hasPrefix "projected:" value.query.id = false
  materials : ∀ material ∈ extra, (∃ value ∈ values, material.1 = projectedKey value.query.id) ∨
    (hasPrefix "latest/" material.1 = false ∧ hasPrefix "result/" material.1 = false ∧ hasPrefix "input/" material.1 = false)

theorem hasPrefix_append (part rest : String) : hasPrefix part (part ++ rest) = true := by
  unfold hasPrefix
  rw [List.isPrefixOf_iff_prefix, String.toList_append]
  exact List.prefix_append _ _

theorem projectedKey_eq (id : String) : projectedKey id = latestKey ("projected:" ++ id) := by
  unfold projectedKey latestKey
  rw [← String.append_assoc]
  rfl

theorem append_right_injective {part a b : String} (h : part ++ a = part ++ b) : a = b := by
  apply String.toList_injective
  have := congrArg String.toList h
  rw [String.toList_append, String.toList_append] at this
  exact List.append_cancel_left this

theorem first_differ {a b x y : String} (h : a.toList.head? ≠ b.toList.head?) (some : a.toList ≠ [] ∧ b.toList ≠ []) :
    a ++ x ≠ b ++ y := by
  intro same
  have := congrArg (fun s : String => s.toList.head?) same
  simp only [String.toList_append, List.head?_append_of_ne_nil _ some.1, List.head?_append_of_ne_nil _ some.2] at this
  exact h this

theorem latest_ne_result (id request : String) : latestKey id ≠ resultKey request :=
  first_differ (by decide) (by decide)

theorem latest_ne_input (id request : String) : latestKey id ≠ inputKey request :=
  first_differ (by decide) (by decide)

theorem result_ne_input (id request : String) : resultKey id ≠ inputKey request :=
  first_differ (by decide) (by decide)

theorem fromValue_query {row : String × Record V R} (h : FromValue e r s value row) :
    row.1 = latestKey value.query.id ∨ ∃ request, value.request = some request ∧ row.1 = resultKey request := by
  cases h with
  | latest kept _ _ => exact .inl (congrArg (fun q => latestKey q.id) (bounded_kept kept).query)
  | result kept asked => exact .inr ⟨_, (bounded_kept kept).request ▸ asked, rfl⟩

theorem Proper.latest_ne (proper : Proper values extra) (mem : value ∈ values) (id : String) :
    latestKey value.query.id ≠ projectedKey id := by
  intro same
  rw [projectedKey_eq] at same
  have plain := proper.queries value mem
  rw [append_right_injective same, hasPrefix_append] at plain
  cases plain

/-- The batch after some of the materials. -/
structure Paired (values : List (CollectedData V)) (base : Table (Record V R)) (done : List (String × Record V R))
    (writes : Table (Record V R)) : Prop where
  source : ∀ row ∈ writes.entries, row ∈ base.entries ∨ row ∈ done
  grows : ∀ key, base.has key = true → writes.has key = true
  beside : ∀ id, writes.has (projectedKey id) = true →
    (∃ value ∈ values, value.query.id = id) ∧ writes.has (latestKey id) = true
  along : ∀ value ∈ values, writes.has (latestKey value.query.id) = true →
    (∃ material ∈ done, material.1 = projectedKey value.query.id) → writes.has (projectedKey value.query.id) = true

/-- A projection enters beside the latest record of its value, or not at all. -/
theorem Paired.projection (proper : Proper values extra) {base writes : Table (Record V R)} {done : List (String × Record V R)}
    {material : String × Record V R} (p : Paired values base done writes) (mem : value ∈ values)
    (named : material.1 = projectedKey value.query.id) :
    Paired values base (done ++ [material]) (Batch.addMaterial values writes material) := by
  rw [addMaterial_projected named ⟨value, mem, rfl⟩]
  have listed : ∀ row ∈ writes.entries, row ∈ base.entries ∨ row ∈ done ++ [material] := by
    intro row mem
    exact (p.source row mem).imp_right (List.mem_append_left _)
  by_cases wrote : writes.has (latestKey value.query.id) = true
  · rw [if_pos wrote]
    refine ⟨fun row placed => ?_, fun key h => has_set_grows _ (p.grows key h), fun id h => ?_, fun other placed h asked => ?_⟩
    · rcases Rows.mem_set.mp placed with rfl | ⟨placed, _⟩
      · exact .inr (by simp)
      · exact listed row placed
    · rw [Rows.has_set, named] at h
      rcases (Bool.or_eq_true _ _).mp h with same | h
      · have eq := append_right_injective (of_decide_eq_true same)
        exact ⟨⟨value, mem, eq.symm⟩, has_set_grows _ (eq ▸ wrote)⟩
      · exact ⟨(p.beside id h).1, has_set_grows _ (p.beside id h).2⟩
    · rw [Rows.has_set]
      by_cases same : projectedKey other.query.id = material.1
      · rw [decide_eq_true same, Bool.true_or]
      · obtain ⟨m, asked, named'⟩ := asked
        have earlier : m ∈ done := by
          rcases List.mem_append.mp asked with asked | asked
          · exact asked
          · exact absurd (List.mem_singleton.mp asked ▸ named'.symm) same
        have before : writes.has (latestKey other.query.id) = true := by
          rw [Rows.has_set, named] at h
          rcases (Bool.or_eq_true _ _).mp h with clash | h
          · exact absurd (of_decide_eq_true clash) (proper.latest_ne placed _)
          · exact h
        rw [p.along other placed before ⟨m, earlier, named'⟩, Bool.or_true]
  · rw [if_neg wrote]
    refine ⟨listed, p.grows, p.beside, fun other placed h asked => ?_⟩
    obtain ⟨m, asked, named'⟩ := asked
    rcases List.mem_append.mp asked with asked | asked
    · exact p.along other placed h ⟨m, asked, named'⟩
    · cases List.mem_singleton.mp asked
      rw [named] at named'
      rw [← append_right_injective named'] at h
      exact absurd h wrote

theorem Paired.other {base writes : Table (Record V R)} {done : List (String × Record V R)} {material : String × Record V R}
    (p : Paired values base done writes) (plain : hasPrefix "latest/" material.1 = false) :
    Paired values base (done ++ [material]) (Batch.addMaterial values writes material) := by
  have differ : ∀ id, latestKey id ≠ material.1 := by
    intro id same
    rw [← same, show latestKey id = "latest/" ++ id from rfl, hasPrefix_append] at plain
    cases plain
  have none : stripPrefix "latest/projected:" material.1 = none := by
    rw [Option.eq_none_iff_forall_not_mem]
    intro id found
    exact differ _ ((stripPrefix_iff.mp found).trans (projectedKey_eq id)).symm
  have shape : Batch.addMaterial values writes material = writes.set material := by
    unfold Batch.addMaterial
    rw [none]
  have same : ∀ id, (writes.set material).has (latestKey id) = writes.has (latestKey id) := by
    intro id
    rw [Rows.has_set, decide_eq_false (differ id), Bool.false_or]
  rw [shape]
  refine ⟨fun row placed => ?_, fun key h => has_set_grows _ (p.grows key h), fun id h => ?_, fun other placed h asked => ?_⟩
  · rcases Rows.mem_set.mp placed with rfl | ⟨placed, _⟩
    · exact .inr (by simp)
    · exact (p.source row placed).imp_right (List.mem_append_left _)
  · rw [projectedKey_eq, same, ← projectedKey_eq] at h
    rw [same]
    exact p.beside id h
  · rw [same] at h
    rw [projectedKey_eq, same, ← projectedKey_eq]
    obtain ⟨m, asked, named⟩ := asked
    rcases List.mem_append.mp asked with asked | asked
    · exact p.along other placed h ⟨m, asked, named⟩
    · cases List.mem_singleton.mp asked
      rw [projectedKey_eq] at named
      exact absurd named.symm (differ _)

theorem paired_materials (proper : Proper values extra) {base : Table (Record V R)}
    (start : ∀ id, base.has (projectedKey id) = false) :
    Paired values base extra (extra.foldl (Batch.addMaterial values) base) := by
  have general : ∀ (rest done : List (String × Record V R)) (writes : Table (Record V R)),
      (∀ material ∈ rest, material ∈ extra) → Paired values base done writes →
      Paired values base (done ++ rest) (rest.foldl (Batch.addMaterial values) writes) := by
    intro rest
    induction rest with
    | nil =>
      intro done writes _ p
      rwa [List.append_nil]
    | cons material rest ih =>
      intro done writes known p
      obtain ⟨here, later⟩ := List.forall_mem_cons.mp known
      have next : Paired values base (done ++ [material]) (Batch.addMaterial values writes material) := by
        rcases proper.materials material here with ⟨owner, mem, named⟩ | ⟨plain, _, _⟩
        · exact p.projection proper mem named
        · exact p.other plain
      have := ih (done ++ [material]) _ later next
      rwa [List.append_assoc] at this
  have first : Paired values base [] base :=
    ⟨fun row mem => .inl mem, fun key h => h, fun id h => absurd h (by rw [start id]; decide),
      fun value _ _ listed => by obtain ⟨_, mem, _⟩ := listed; cases mem⟩
  exact general extra [] base (fun _ mem => mem) first

/-- The batch of a proper capture. -/
structure Captured (e : Encoding V) (r : Redactor V) (s : CollectedStore (Record V R)) (values : List (CollectedData V))
    (extra : List (String × Record V R)) (b : Batch V R) : Prop where
  source : ∀ row ∈ b.writes.entries, (∃ value ∈ values, FromValue e r s value row) ∨ row ∈ extra
  asks : ∀ key ∈ b.remove, ∃ value ∈ values, ∃ request, value.request = some request ∧ key = inputKey request
  result : ∀ value ∈ values, ∀ request, value.request = some request →
    b.writes.has (resultKey request) = true ∧ inputKey request ∈ b.remove
  beside : ∀ id, b.writes.has (projectedKey id) = true →
    (∃ value ∈ values, value.query.id = id) ∧ b.writes.has (latestKey id) = true
  along : ∀ value ∈ values, b.writes.has (latestKey value.query.id) = true →
    (∃ material ∈ extra, material.1 = projectedKey value.query.id) → b.writes.has (projectedKey value.query.id) = true

theorem collect_captured (proper : Proper values extra) (h : collect e r s values extra = .ok b) :
    Captured e r s values extra b := by
  unfold collect at h
  simp only [bind, Except.bind] at h
  split at h
  · cases h
  rename_i base gathered
  cases h
  have g := gather gathered
  have start : ∀ id, base.writes.has (projectedKey id) = false := by
    intro id
    rw [Bool.eq_false_iff]
    intro known
    obtain ⟨row, found⟩ := Rows.has_iff.mp known
    obtain ⟨value, mem, wrote⟩ := g.source row (Rows.get_mem found)
    have named : row.1 = projectedKey id := Rows.get_key found
    rcases fromValue_query wrote with same | ⟨request, _, same⟩
    · exact proper.latest_ne mem id (same.symm.trans named)
    · rw [projectedKey_eq] at named
      exact latest_ne_result _ _ (named.symm.trans same)
  have p := paired_materials proper start
  refine ⟨fun row mem => (p.source row mem).imp_left (g.source row), g.asks, fun value mem request asked => ?_, p.beside, p.along⟩
  exact ⟨p.grows _ (g.result value mem request asked).1, (g.result value mem request asked).2⟩

theorem snapshots_committed (h : snapshots e r s values extra = .ok s') : ∃ b, collect e r s values extra = .ok b ∧
    Committed s (Record.size e) (b.writes.entries.insertionSort fun a b => a.1 ≤ b.1) b.remove s' := by
  unfold snapshots at h
  simp only [bind, Except.bind] at h
  split at h
  · cases h
  rename_i b collected
  exact ⟨b, collected, commit_committed h⟩

end Facts

end RssMdmAgent.CollectedSnapshots
