import RssMdmAgent.JsonEncoding
import RssMdmAgent.PlanNormalization

set_option autoImplicit false

/-! # Stored plans reload to themselves -/

namespace RssMdmAgent.PlanReload
open ContractIdentity JsonValue JsonCodec JsonText NetworkHosts PlanModel PlanCodec PlanValidation PlanFreezing DocumentBounds PlanNormalization
open ProgramInstructions (Platform RunAs SoftwareOperation SoftwarePhase ResourceNaming)
open ContractPlan (ExecutionLimits maxSafeInteger bind_ok)
open PlanShape (forM_ok)

section Documents
variable [HostParser] {text : Serialization} {spec : ExecutionInput} {l : ExecutionLimits}

def document (spec : ExecutionInput) : Value := executionInput.write (canonicalInput spec)

theorem document_normal (valid : validatePlan spec l = .ok ()) : executionInput.write (normalized spec) = (document spec).normal := by
  rw [← tidy_canonicalInput valid]
  exact executionInput.write_tidy _

theorem limits_of_valid (valid : validatePlan spec l = .ok ()) : validateLimits l = .ok () := by
  unfold validatePlan at valid
  obtain ⟨_, context, -⟩ := bind_ok.mp valid
  unfold validateContext at context
  obtain ⟨_, limits, -⟩ := bind_ok.mp context
  exact limits

theorem readInput_canonical (valid : validatePlan spec l = .ok ()) (bounded : checkJson (document spec) l = .ok ()) :
    readInput text (text.canonical (document spec)) = .ok (normalized spec) := by
  obtain ⟨members, parsed, unique⟩ := text.fromSlice_canonical (document spec) (executionInput.wellFormed _)
    (depth_of_checked (limits_of_valid valid) bounded) (exact_of_checked bounded)
  unfold readInput
  rw [parsed, Option.bind_some, unique, Option.bind_some, ← document_normal valid, executionInput.read_write]

omit [HostParser] in
theorem decodeValue_ok {bytes : String} {v : Value} : decodeValue text bytes l = .ok v ↔
    validateLimits l = .ok () ∧ bytes.utf8ByteSize ≤ l.maxInputBytes ∧ (text.fromSlice bytes).bind Value.unique = some v ∧
      checkJson v l = .ok () := by
  unfold decodeValue
  constructor
  · intro accepted
    obtain ⟨_, limits, accepted⟩ := bind_ok.mp accepted
    obtain ⟨_, size, accepted⟩ := bind_ok.mp accepted
    cases parsed : (text.fromSlice bytes).bind Value.unique with
    | none =>
      rw [parsed] at accepted
      cases accepted
    | some w =>
      rw [parsed] at accepted
      obtain ⟨_, bounded, accepted⟩ := bind_ok.mp accepted
      cases accepted
      exact ⟨limits, of_decide_eq_true (check_ok.mp size), rfl, bounded⟩
  · rintro ⟨limits, size, parsed, bounded⟩
    refine bind_ok.mpr ⟨_, limits, bind_ok.mpr ⟨_, check_ok.mpr (decide_eq_true size), ?_⟩⟩
    rw [parsed]
    exact bind_ok.mpr ⟨_, bounded, rfl⟩

theorem decodeExecution_ok {bytes : String} : decodeExecution text bytes l = .ok spec ↔
    ∃ v, decodeValue text bytes l = .ok v ∧ executionInput.read v = some spec ∧ validatePlan spec l = .ok () := by
  unfold decodeExecution
  constructor
  · intro accepted
    obtain ⟨v, decoded, accepted⟩ := bind_ok.mp accepted
    cases read : executionInput.read v with
    | none =>
      rw [read] at accepted
      cases accepted
    | some found =>
      rw [read] at accepted
      obtain ⟨_, valid, accepted⟩ := bind_ok.mp accepted
      cases accepted
      exact ⟨v, decoded, read, valid⟩
  · rintro ⟨v, decoded, read, valid⟩
    refine bind_ok.mpr ⟨v, decoded, ?_⟩
    rw [read]
    exact bind_ok.mpr ⟨_, valid, rfl⟩

end Documents

section Freezing
variable [HostParser] [ResourceNaming] {text : Serialization} {digestOf : String → Digest} {spec : ExecutionInput} {l : ExecutionLimits}
  {plan : FrozenExecution}

structure Freezable (text : Serialization) (spec : ExecutionInput) (l : ExecutionLimits) : Prop where
  valid : validatePlan spec l = .ok ()
  bounded : checkJson (document spec) l = .ok ()
  size : (text.canonical (document spec)).utf8ByteSize ≤ l.maxInputBytes
  resources : ∃ keys, exclusiveResourceKeys (normalized spec) = .ok keys

theorem freeze_iff : freeze text digestOf spec l = .ok plan ↔
    Freezable text spec l ∧ plan = ⟨normalized spec, digestOf (text.canonical (document spec))⟩ := by
  unfold freeze
  constructor
  · intro accepted
    obtain ⟨_, valid, accepted⟩ := bind_ok.mp accepted
    obtain ⟨_, -, accepted⟩ := bind_ok.mp accepted
    obtain ⟨_, bounded, accepted⟩ := bind_ok.mp accepted
    obtain ⟨_, size, accepted⟩ := bind_ok.mp accepted
    obtain ⟨read, found, accepted⟩ := bind_ok.mp accepted
    obtain ⟨keys, resources, accepted⟩ := bind_ok.mp accepted
    have same : normalized spec = read := Except.ok.inj ((readInput_canonical valid bounded).symm.trans found)
    subst same
    exact ⟨⟨valid, bounded, of_decide_eq_true (check_ok.mp size), keys, resources⟩, (Except.ok.inj accepted).symm⟩
  · rintro ⟨⟨valid, bounded, size, keys, resources⟩, rfl⟩
    refine bind_ok.mpr ⟨_, valid, bind_ok.mpr ⟨_, forM_ok_iff.mpr (literals_checked bounded), bind_ok.mpr ⟨_, bounded, ?_⟩⟩⟩
    exact bind_ok.mpr ⟨_, check_ok.mpr (decide_eq_true size), bind_ok.mpr ⟨_, readInput_canonical valid bounded,
      bind_ok.mpr ⟨_, resources, rfl⟩⟩⟩

theorem whole_document (frozen : freeze text digestOf spec l = .ok plan)
    (whole : ∀ n ∈ (executionInput.write plan.spec).numbers, n.isFraction = false) :
    ∀ n ∈ (executionInput.write plan.spec).numbers, n.isInt = true := by
  obtain ⟨accepted, rfl⟩ := freeze_iff.mp frozen
  have stable : (executionInput.write (normalized spec)).normal = executionInput.write (normalized spec) := by
    rw [document_normal accepted.valid, normal_normal]
  intro n mem
  exact normal_isInt whole n (stable.symm ▸ mem)

theorem stored_document (frozen : freeze text digestOf spec l = .ok plan)
    (whole : ∀ n ∈ (executionInput.write plan.spec).numbers, n.isFraction = false) :
    (text.fromSlice (text.toVec (executionInput.write plan.spec))).bind Value.unique = some (executionInput.write plan.spec) := by
  have ints := whole_document frozen whole
  obtain ⟨accepted, rfl⟩ := freeze_iff.mp frozen
  have bounded : checkJson (executionInput.write (normalized spec)) l = .ok () := by
    rw [document_normal accepted.valid, checkJson_normal]
    exact accepted.bounded
  obtain ⟨r, walked⟩ := checkJson_ok.mp bounded
  rw [text.fromSlice_toVec, Option.bind_some, unique_of_wellFormed _ (executionInput.wellFormed _)]
  · exact depth_of_checked (limits_of_valid accepted.valid) bounded
  · intro n mem
    have safe := walk_safe _ walked n mem
    cases n with
    | float x => cases ints _ mem
    | int i =>
      have small : i.natAbs ≤ 9007199254740991 := of_decide_eq_true safe
      exact ⟨i, rfl, by omega, by omega⟩

theorem canonical_frozen (frozen : freeze text digestOf spec l = .ok plan)
    (whole : ∀ n ∈ (executionInput.write plan.spec).numbers, n.isFraction = false) :
    text.canonical (document plan.spec) = text.canonical (document spec) ∧
      (text.canonical (document plan.spec)).utf8ByteSize = (text.toVec (executionInput.write plan.spec)).utf8ByteSize := by
  have ints := whole_document frozen whole
  obtain ⟨accepted, rfl⟩ := freeze_iff.mp frozen
  have same : document (normalized spec) = (document spec).normal := by
    rw [document, canonicalInput_normalized, document_normal accepted.valid]
  have exact_ := exact_of_checked accepted.bounded
  have formed : (document spec).WellFormed := executionInput.wellFormed _
  dsimp only at ints ⊢
  rw [document_normal accepted.valid] at ints ⊢
  rw [same, text.canonical_normal _ formed exact_]
  refine ⟨rfl, ?_⟩
  rw [← text.canonical_size _ (normal_wellFormed _ formed) ?_ ints, text.canonical_normal _ formed exact_]
  intro n mem
  rw [normal_normal] at mem
  exact exact_ n mem

theorem refreezes (frozen : freeze text digestOf spec l = .ok plan)
    (whole : ∀ n ∈ (executionInput.write plan.spec).numbers, n.isFraction = false) {l' : ExecutionLimits} {read : ExecutionInput}
    (decoded : decodeExecution text (text.toVec (executionInput.write plan.spec)) l' = .ok read) :
    read = plan.spec ∧ freeze text digestOf plan.spec l' = .ok plan := by
  obtain ⟨v, found, again, valid⟩ := decodeExecution_ok.mp decoded
  obtain ⟨-, size, parsed, bounded⟩ := decodeValue_ok.mp found
  have value : executionInput.write plan.spec = v := Option.some.inj ((stored_document frozen whole).symm.trans parsed)
  subst value
  have same : plan.spec = read := Option.some.inj ((executionInput.read_write plan.spec).symm.trans again)
  subst same
  obtain ⟨bytes, length⟩ := canonical_frozen frozen whole
  obtain ⟨accepted, rfl⟩ := freeze_iff.mp frozen
  refine ⟨rfl, freeze_iff.mpr ⟨⟨valid, ?_, ?_, ?_⟩, ?_⟩⟩
  · rw [document, canonicalInput_normalized]
    exact bounded
  · rw [length]
    exact size
  · rw [normalized_normalized]
    exact accepted.resources
  · rw [normalized_normalized, bytes]

theorem decodes (frozen : freeze text digestOf spec l = .ok plan)
    (whole : ∀ n ∈ (executionInput.write plan.spec).numbers, n.isFraction = false) :
    decodeExecution text (text.toVec (executionInput.write plan.spec)) l = .ok plan.spec := by
  have parsed := stored_document frozen whole
  obtain ⟨bytes, length⟩ := canonical_frozen frozen whole
  obtain ⟨accepted, rfl⟩ := freeze_iff.mp frozen
  refine decodeExecution_ok.mpr ⟨_, decodeValue_ok.mpr ⟨limits_of_valid accepted.valid, ?_, parsed, ?_⟩, executionInput.read_write _,
    normalized_valid accepted.valid⟩
  · rw [← length, bytes]
    exact accepted.size
  · rw [document_normal accepted.valid, checkJson_normal]
    exact accepted.bounded

/-- The serialization of the plan is decoded to it, it freezes to itself, and every store that accepts it loads it. -/
structure Reloads (text : Serialization) (digestOf : String → Digest) (plan : FrozenExecution) (l : ExecutionLimits) : Prop where
  decoded : decodeExecution text (text.toVec (executionInput.write plan.spec)) l = .ok plan.spec
  frozen : freeze text digestOf plan.spec l = .ok plan
  loaded (bounds : ExecutionLimits) (fingerprint : Digest → String) (row : ExecutionRow) (executions : Scope → Option ExecutionRow) :
    storedRow text fingerprint plan bounds = .ok row → executions (Scope.fromInput plan) = some row →
      loadPlan text digestOf fingerprint executions (Scope.fromInput plan) bounds = .ok plan

theorem stored_plans_reload (frozen : freeze text digestOf spec l = .ok plan)
    (whole : ∀ n ∈ (executionInput.write plan.spec).numbers, n.isFraction = false) : Reloads text digestOf plan l := by
  have decoded := decodes frozen whole
  refine ⟨decoded, (refreezes frozen whole decoded).2, fun bounds fingerprint row executions stored kept => ?_⟩
  unfold storedRow at stored
  dsimp only at stored
  split at stored
  · cases stored
  next fits =>
  split at stored
  · cases stored
  next read found =>
  cases stored
  obtain ⟨rfl, again⟩ := refreezes frozen whole found
  unfold loadPlan
  rw [kept]
  dsimp only
  rw [if_neg fits, found]
  dsimp only
  rw [again]
  exact if_neg (by simp)

end Freezing

section Samples

@[reducible] def noHosts : HostParser where
  parse _ := none
  address_plain parsed := by cases parsed
  address_stable parsed := by cases parsed
  domain_stable parsed := by cases parsed

@[reducible] def plainResources : ResourceNaming := ⟨id, fun name => name.2⟩

attribute [local instance] noHosts plainResources

def sampleId : Identifier := ⟨"a", .refl true⟩
def sampleRef : VersionedRef := ⟨sampleId, sampleId⟩
def zeroDigest : Digest := ⟨"0000000000000000000000000000000000000000000000000000000000000000", .refl true⟩
def sampleArtifact : ExactArtifactRef := ⟨sampleRef, zeroDigest⟩
def sampleLimits : ExecutionLimits := ⟨8192, 16, 512, 256, 64, 1000, 1000, 1000, 1⟩

def sampleEnvironment (name : EnvironmentKey) : Environment := ⟨[(name, .literal ⟨.text "x", trivial⟩)], List.pairwise_singleton _ _⟩

def sampleLaunch (profile : Identifier) (name : EnvironmentKey) : LaunchSpec where
  artifact := sampleArtifact
  interpreter := ⟨sampleArtifact, ⟨profile, sampleId⟩⟩
  argv := [.artifactPath]
  artifactEncoding := .utf8
  stdin := .closed
  output := ⟨.text, .utf8, .utf8⟩
  cwd := "C:\\"
  env := sampleEnvironment name

def pathName : EnvironmentKey := ⟨"Path", .refl true⟩

/-- A process on Windows with a variable in mixed case. -/
def samplePlan : ExecutionInput where
  execution := .process
  request :=
    { requestId := sampleId
      authority := .localAuthority sampleId
      actor := sampleId
      initiator := .policy sampleRef
      delegation := none
      target := ⟨sampleId, .windows, .device⟩
      operation := ⟨sampleId, sampleRef⟩
      parameters := ⟨[("count", .literal ⟨.number (.int 3), trivial⟩)], List.pairwise_singleton _ _⟩ }
  launch := sampleLaunch sampleId pathName
  runAs := .system .windows
  sessionRequirement := .notRequired
  constraints := .osIdentity
  budget := ⟨1, 1, 1⟩
  validity := ⟨0, 1⟩
  policy := sampleRef

def samplePlanDigest : Digest := ⟨"f5513aeec7f7b8f5363105122e2d78842e0fdd4de77fc5c2a4495fd5c8037884", .refl true⟩

theorem samplePlan_freezes : Freezable plainText samplePlan sampleLimits where
  valid := by decide +kernel
  bounded := by decide +kernel
  size := JsonEncoding.canonical_size_le (by decide +kernel)
  resources := ⟨_, rfl⟩

theorem stored_plans_reload_sample :
    Reloads plainText (fun _ => samplePlanDigest) ⟨normalized samplePlan, samplePlanDigest⟩ sampleLimits :=
  stored_plans_reload (freeze_iff.mpr ⟨samplePlan_freezes, rfl⟩) (by decide +kernel)

end Samples

end RssMdmAgent.PlanReload
