import RssMdmAgent.DocumentBounds

set_option autoImplicit false

/-! # The normal form of a plan -/

namespace RssMdmAgent.PlanNormalization
open ContractIdentity JsonValue JsonCodec JsonText NetworkHosts PlanModel PlanCodec PlanValidation PlanFreezing DocumentBounds
open ProgramInstructions (Platform RunAs SoftwareOperation SoftwarePhase ResourceNaming)
open ContractPlan (ExecutionLimits maxSafeInteger bind_ok)
open PlanShape (forM_ok)

section Environments

theorem key_ext {a b : EnvironmentKey} (same : a.value = b.value) : a = b := by
  cases a
  cases b
  cases same
  rfl

theorem canonicalFor_canonicalFor (platform : Platform) (key : EnvironmentKey) :
    canonicalFor platform (canonicalFor platform key) = canonicalFor platform key := by
  have upper : upperName (upperName key.value) = upperName key.value := by
    rw [upperName, upperName, String.toList_ofList, List.map_map]
    exact congrArg String.ofList (List.map_congr_left fun c _ => toUpper_toUpper c)
  unfold canonicalFor
  split
  · exact key_ext upper
  · rfl

theorem environmentFrom_ok {platform : Platform} {entries : List (EnvironmentKey × InputValue)} : ∀ {names : List EnvironmentKey},
    environmentFrom platform names entries = .ok () ↔ (∀ e ∈ entries, environmentValue e.2 = true) ∧
      (entries.map fun e => canonicalFor platform e.1).Nodup ∧ ∀ e ∈ entries, canonicalFor platform e.1 ∉ names := by
  induction entries with
  | nil => simp [environmentFrom]
  | cons e rest ih =>
    intro names
    obtain ⟨name, value⟩ := e
    rw [environmentFrom]
    constructor
    · intro accepted
      obtain ⟨_, new, accepted⟩ := bind_ok.mp accepted
      obtain ⟨_, valid, accepted⟩ := bind_ok.mp accepted
      obtain ⟨values, distinct, fresh⟩ := ih.mp accepted
      have absent : canonicalFor platform name ∉ names := by simpa using check_ok.mp new
      refine ⟨List.forall_mem_cons.mpr ⟨check_ok.mp valid, values⟩, List.nodup_cons.mpr ⟨fun mem => ?_, distinct⟩,
        List.forall_mem_cons.mpr ⟨absent, fun e mem => List.not_mem_of_not_mem_cons (fresh e mem)⟩⟩
      obtain ⟨e, mem, same⟩ := List.mem_map.mp mem
      exact fresh e mem (same ▸ List.mem_cons_self)
    · rintro ⟨values, distinct, fresh⟩
      obtain ⟨valid, values⟩ := List.forall_mem_cons.mp values
      obtain ⟨once, distinct⟩ := List.nodup_cons.mp distinct
      obtain ⟨absent, fresh⟩ := List.forall_mem_cons.mp fresh
      refine bind_ok.mpr ⟨(), check_ok.mpr (by simpa using absent), bind_ok.mpr ⟨(), check_ok.mpr valid, ih.mpr ⟨values, distinct, ?_⟩⟩⟩
      intro e mem
      exact List.not_mem_cons_of_ne_of_not_mem (fun same => once (List.mem_map.mpr ⟨e, mem, same⟩)) (fresh e mem)

theorem insertEntry_last {name : EnvironmentKey} {value : InputValue} {entries : List (EnvironmentKey × InputValue)}
    (last : ∀ e ∈ entries, e.1.value < name.value) : insertEntry name value entries = entries ++ [(name, value)] := by
  induction entries with
  | nil => rfl
  | cons e rest ih =>
    have before := last e List.mem_cons_self
    rw [insertEntry, if_neg (lt_asymm before), if_neg (ne_of_gt before), ih fun other mem => last other (List.mem_cons_of_mem e mem)]
    rfl

theorem collect_ascending {entries : List (EnvironmentKey × InputValue)} : ∀ {map : Environment}, Ascending (map.entries ++ entries) →
    (collect entries map).entries = map.entries ++ entries := by
  induction entries with
  | nil => exact fun _ => (List.append_nil _).symm
  | cons e rest ih =>
    intro map ascending
    obtain ⟨name, value⟩ := e
    have last : ∀ e ∈ map.entries, e.1.value < name.value := by
      intro e mem
      unfold Ascending at ascending
      rw [List.map_append, List.pairwise_append] at ascending
      exact ascending.2.2 _ (List.mem_map_of_mem mem) _ List.mem_cons_self
    have placed := @insertEntry_last name value map.entries last
    rw [collect, ih]
    · change insertEntry name value map.entries ++ rest = _
      rw [placed, List.append_assoc]
      rfl
    · change Ascending (insertEntry name value map.entries ++ rest)
      rw [placed, List.append_assoc]
      exact ascending

theorem mem_collect {entries : List (EnvironmentKey × InputValue)} : ∀ {map : Environment} {e : EnvironmentKey × InputValue},
    e ∈ (collect entries map).entries → e ∈ entries ∨ e ∈ map.entries := by
  induction entries with
  | nil => exact fun mem => .inr mem
  | cons first rest ih =>
    intro map e mem
    rcases ih mem with mem | mem
    · exact .inl (List.mem_cons_of_mem first mem)
    · rcases mem_insertEntry mem with rfl | mem
      · exact .inl List.mem_cons_self
      · exact .inr mem

theorem canonicalEnvironment_fixed {platform : Platform} {env : Environment}
    (canonical : ∀ e ∈ env.entries, canonicalFor platform e.1 = e.1) : canonicalEnvironment platform env = env := by
  have same : (env.entries.map fun e => (canonicalFor platform e.1, e.2)) = env.entries :=
    (List.map_congr_left fun e mem => by rw [canonical e mem]).trans (List.map_id' _)
  have entries : (canonicalEnvironment platform env).entries = env.entries := by
    rw [canonicalEnvironment, same, collect_ascending]
    · rfl
    · exact env.ascending
  cases whole : canonicalEnvironment platform env
  rw [whole] at entries
  cases env
  cases entries
  rfl

theorem mem_canonicalEnvironment {platform : Platform} {env : Environment} {e : EnvironmentKey × InputValue}
    (mem : e ∈ (canonicalEnvironment platform env).entries) : ∃ source ∈ env.entries, e = (canonicalFor platform source.1, source.2) := by
  rcases mem_collect mem with mem | mem
  · obtain ⟨source, found, rfl⟩ := List.mem_map.mp mem
    exact ⟨source, found, rfl⟩
  · cases mem

theorem canonicalEnvironment_names {platform : Platform} {env : Environment} :
    ∀ e ∈ (canonicalEnvironment platform env).entries, canonicalFor platform e.1 = e.1 := by
  intro e mem
  obtain ⟨source, -, rfl⟩ := mem_canonicalEnvironment mem
  exact canonicalFor_canonicalFor platform source.1

theorem canonicalEnvironment_canonical (platform : Platform) (env : Environment) :
    canonicalEnvironment platform (canonicalEnvironment platform env) = canonicalEnvironment platform env :=
  canonicalEnvironment_fixed canonicalEnvironment_names

theorem canonicalLaunch_canonical (platform : Platform) (launch : LaunchSpec) :
    canonicalLaunch platform (canonicalLaunch platform launch) = canonicalLaunch platform launch := by
  unfold canonicalLaunch
  dsimp only
  rw [canonicalEnvironment_canonical]

theorem canonicalEnvironment_ok {platform : Platform} {env : Environment} (accepted : environmentFrom platform [] env.entries = .ok ()) :
    environmentFrom platform [] (canonicalEnvironment platform env).entries = .ok () := by
  obtain ⟨values, -, -⟩ := environmentFrom_ok.mp accepted
  refine environmentFrom_ok.mpr ⟨fun e mem => ?_, ?_, fun _ _ mem => by cases mem⟩
  · obtain ⟨source, found, rfl⟩ := mem_canonicalEnvironment mem
    exact values source found
  · rw [List.map_congr_left canonicalEnvironment_names]
    have distinct := ascending_nodup (canonicalEnvironment platform env).ascending
    exact List.Nodup.of_map EnvironmentKey.value (by rw [List.map_map]; exact distinct)

end Environments

section Tidy

theorem inputValue_tidy {v : InputValue} (valid : environmentValue v = true) : inputValue.tidy v = v := by
  rcases v with ⟨⟨v, formed⟩⟩ | reference
  · cases v with
    | text s => rfl
    | null | bool | number | array | object => cases valid
  · rfl

theorem environment_tidy {env : Environment} (values : ∀ e ∈ env.entries, environmentValue e.2 = true) : environment.tidy env = env := by
  obtain ⟨entries, ascending⟩ := env
  have kept : (entries.map fun e => (e.1, inputValue.tidy e.2)) = entries :=
    (List.map_congr_left fun e mem => by rw [inputValue_tidy (values e mem)]).trans (List.map_id' entries)
  change (⟨entries.map fun e => (e.1, inputValue.tidy e.2), _⟩ : Environment) = _
  simp only [kept]

theorem launch_tidy (launch : LaunchSpec) : launchSpec.tidy launch = { launch with env := PlanCodec.environment.tidy launch.env } := by
  change (⟨exactArtifactRef.tidy launch.artifact, interpreterRef.tidy launch.interpreter, launchArg.list.tidy launch.argv,
    artifactEncoding.tidy launch.artifactEncoding, standardInput.tidy launch.stdin, outputSpec.tidy launch.output,
    Codec.text.tidy launch.cwd, PlanCodec.environment.tidy launch.env⟩ : LaunchSpec) = _
  rw [exactArtifactRef.tidy_static rfl, interpreterRef.tidy_static rfl, launchArg.list.tidy_static rfl, artifactEncoding.tidy_static rfl,
    standardInput.tidy_static rfl, outputSpec.tidy_static rfl, Codec.text.tidy_static rfl]

theorem launch_kept {platform : Platform} {launch : LaunchSpec} (accepted : environmentFrom platform [] launch.env.entries = .ok ()) :
    launchSpec.tidy launch = launch := by
  rw [launch_tidy, environment_tidy (environmentFrom_ok.mp accepted).1]

theorem invocation_tidy (command : SoftwareInvocation) :
    softwareInvocation.tidy command = { command with launch := launchSpec.tidy command.launch } := by
  change (⟨launchSpec.tidy command.launch, runAs.tidy command.runAs, sessionRequirement.tidy command.sessionRequirement,
    (Codec.unsigned 64).tidy command.timeoutMs, (Codec.unsigned 64).tidy command.outputBytes,
    softwareExitCodes.tidy command.exitCodes⟩ : SoftwareInvocation) = _
  rw [runAs.tidy_static rfl, sessionRequirement.tidy_static rfl, (Codec.unsigned 64).tidy_static rfl, (Codec.unsigned 64).tidy_static rfl,
    softwareExitCodes.tidy_static rfl]

variable [HostParser] {p : ExecutionInput} {l : ExecutionLimits}

theorem context_environment (accepted : validateContext p l = .ok ()) : environment p = .ok () ∧
    ∀ env : Environment, environmentFrom p.request.target.platform [] env.entries = .ok () →
      validateContext { p with launch := { p.launch with env := env } } l = .ok () := by
  unfold validateContext at accepted ⊢
  obtain ⟨_, limits, accepted⟩ := bind_ok.mp accepted
  obtain ⟨_, timeout, accepted⟩ := bind_ok.mp accepted
  obtain ⟨_, output, accepted⟩ := bind_ok.mp accepted
  obtain ⟨_, attempts, accepted⟩ := bind_ok.mp accepted
  obtain ⟨_, window, accepted⟩ := bind_ok.mp accepted
  obtain ⟨_, session, accepted⟩ := bind_ok.mp accepted
  obtain ⟨_, identity, accepted⟩ := bind_ok.mp accepted
  obtain ⟨_, scope, accepted⟩ := bind_ok.mp accepted
  obtain ⟨_, directory, accepted⟩ := bind_ok.mp accepted
  obtain ⟨_, paths, accepted⟩ := bind_ok.mp accepted
  obtain ⟨_, arguments, accepted⟩ := bind_ok.mp accepted
  obtain ⟨_, slot, accepted⟩ := bind_ok.mp accepted
  obtain ⟨_, stdin, accepted⟩ := bind_ok.mp accepted
  obtain ⟨_, rows, accepted⟩ := bind_ok.mp accepted
  refine ⟨accepted, fun env valid => ?_⟩
  refine bind_ok.mpr ⟨_, limits, bind_ok.mpr ⟨_, timeout, bind_ok.mpr ⟨_, output, bind_ok.mpr ⟨_, attempts, ?_⟩⟩⟩⟩
  refine bind_ok.mpr ⟨_, window, bind_ok.mpr ⟨_, session, bind_ok.mpr ⟨_, identity, bind_ok.mpr ⟨_, scope, ?_⟩⟩⟩⟩
  refine bind_ok.mpr ⟨_, directory, bind_ok.mpr ⟨_, paths, ?_⟩⟩
  exact bind_ok.mpr ⟨_, arguments, bind_ok.mpr ⟨_, slot, bind_ok.mpr ⟨_, stdin, bind_ok.mpr ⟨_, rows, valid⟩⟩⟩⟩

theorem invocation_kept {command : SoftwareInvocation} (accepted : invocation p l command = .ok ()) :
    softwareInvocation.tidy command = command := by
  unfold invocation at accepted
  obtain ⟨_, -, accepted⟩ := bind_ok.mp accepted
  obtain ⟨_, context, -⟩ := bind_ok.mp accepted
  have environment : environmentFrom p.request.target.platform [] command.launch.env.entries = .ok () := (context_environment context).1
  rw [invocation_tidy, launch_kept environment]

theorem detector_kept {step : SoftwareProgramStep} (accepted : detectorAccepted p l step = .ok ()) :
    softwareDetector.tidy step.detection = step.detection := by
  unfold detectorAccepted at accepted
  cases detection : step.detection with
  | msiProduct code version runAs session =>
    change SoftwareDetector.msiProduct (Codec.text.tidy code) (packageValue.tidy version) (PlanCodec.runAs.tidy runAs)
      (sessionRequirement.tidy session) = _
    rw [Codec.text.tidy_static rfl, packageValue.tidy_static rfl, PlanCodec.runAs.tidy_static rfl, sessionRequirement.tidy_static rfl]
  | pkgReceipt receipt version runAs session =>
    change SoftwareDetector.pkgReceipt (Codec.text.tidy receipt) (packageValue.tidy version) (PlanCodec.runAs.tidy runAs)
      (sessionRequirement.tidy session) = _
    rw [Codec.text.tidy_static rfl, packageValue.tidy_static rfl, PlanCodec.runAs.tidy_static rfl, sessionRequirement.tidy_static rfl]
  | script command =>
    rw [detection] at accepted
    exact congrArg SoftwareDetector.script (invocation_kept accepted)

theorem invocations_kept {f : SoftwarePhase → Option SoftwareInvocation}
    (accepted : ∀ phase command, f phase = some command → invocation p l command = .ok ()) : invocations.tidy f = f := by
  funext phase
  change (f phase).map softwareInvocation.tidy = f phase
  cases declared : f phase with
  | none => rfl
  | some command => exact congrArg some (invocation_kept (accepted phase command declared))

theorem step_kept {intent : SoftwareOperation} {step : SoftwareProgramStep} (accepted : stepAccepted p l intent step = .ok ()) :
    softwareProgramStep.tidy step = step := by
  unfold stepAccepted at accepted
  obtain ⟨_, -, accepted⟩ := bind_ok.mp accepted
  obtain ⟨_, -, accepted⟩ := bind_ok.mp accepted
  obtain ⟨_, -, accepted⟩ := bind_ok.mp accepted
  obtain ⟨_, phases, accepted⟩ := bind_ok.mp accepted
  obtain ⟨_, -, accepted⟩ := bind_ok.mp accepted
  obtain ⟨_, detection, -⟩ := bind_ok.mp accepted
  have declared : ∀ phase command, step.invocations phase = some command → invocation p l command = .ok () := by
    intro phase command found
    refine forM_ok phases command (List.mem_filterMap.mpr ⟨phase, ?_, found⟩)
    cases phase <;> decide
  change (⟨softwareFormat.tidy step.format, packageValue.tidy step.package, packageValue.tidy step.version, packageValue.tidy step.architecture,
    exactArtifactRef.tidy step.payload, softwareMaterial.list.tidy step.materials, softwareSignature.list.tidy step.signatures,
    softwareUpgrade.tidy step.upgrade, invocations.tidy step.invocations, softwareDetector.tidy step.detection,
    Codec.bool.tidy step.allowDowngrade, Codec.bool.tidy step.allowReboot⟩ : SoftwareProgramStep) = step
  rw [softwareFormat.tidy_static rfl, packageValue.tidy_static rfl, packageValue.tidy_static rfl, packageValue.tidy_static rfl,
    exactArtifactRef.tidy_static rfl, softwareMaterial.list.tidy_static rfl, softwareSignature.list.tidy_static rfl,
    softwareUpgrade.tidy_static rfl, invocations_kept declared, detector_kept detection, Codec.bool.tidy_static rfl,
    Codec.bool.tidy_static rfl]

theorem execution_kept (accepted : software p l = .ok ()) : executionSpec.tidy p.execution = p.execution := by
  unfold software at accepted
  cases execution : p.execution with
  | process => rfl
  | softwareProgram program =>
    rw [execution] at accepted
    obtain ⟨_, -, steps⟩ := bind_ok.mp accepted
    have kept : program.steps.map softwareProgramStep.tidy = program.steps :=
      (List.map_congr_left fun step mem => step_kept (forM_ok steps step mem)).trans (List.map_id' program.steps)
    change ExecutionSpec.softwareProgram ⟨digest.tidy program.definitionDigest, softwareOperation.tidy program.intent,
      program.steps.map softwareProgramStep.tidy⟩ = _
    rw [digest.tidy_static rfl, softwareOperation.tidy_static rfl, kept]

end Tidy

theorem parameter_law (name : String) : some name = some name := rfl

section Plans
variable [HostParser] {p : ExecutionInput} {l : ExecutionLimits}

def tidyParameters (request : ExecutionRequest) : ExecutionRequest :=
  { request with parameters := (Codec.map some parameter_law inputValue).tidy request.parameters }

omit [HostParser] in
theorem request_tidy (request : ExecutionRequest) : executionRequest.tidy request = tidyParameters request := by
  change (⟨identifier.tidy request.requestId, authority.tidy request.authority, identifier.tidy request.actor,
    initiator.tidy request.initiator, request.delegation.map versionedRef.tidy, target.tidy request.target,
    operation.tidy request.operation, _⟩ : ExecutionRequest) = _
  have delegation : request.delegation.map versionedRef.tidy = request.delegation := by
    cases request.delegation with
    | none => rfl
    | some reference => rw [Option.map_some, versionedRef.tidy_static rfl]
  rw [identifier.tidy_static rfl, authority.tidy_static rfl, identifier.tidy_static rfl, initiator.tidy_static rfl, delegation,
    target.tidy_static rfl, operation.tidy_static rfl]
  rfl

theorem input_tidy (p : ExecutionInput) : executionInput.tidy p =
    { p with execution := executionSpec.tidy p.execution, request := tidyParameters p.request, launch := launchSpec.tidy p.launch } := by
  change (⟨executionSpec.tidy p.execution, executionRequest.tidy p.request, launchSpec.tidy p.launch, runAs.tidy p.runAs,
    sessionRequirement.tidy p.sessionRequirement, isolationPolicy.tidy p.constraints, executionBudget.tidy p.budget,
    validityWindow.tidy p.validity, versionedRef.tidy p.policy⟩ : ExecutionInput) = _
  rw [request_tidy, runAs.tidy_static rfl, sessionRequirement.tidy_static rfl, isolationPolicy.tidy_static rfl,
    executionBudget.tidy_static rfl, validityWindow.tidy_static rfl, versionedRef.tidy_static rfl]

def normalized (p : ExecutionInput) : ExecutionInput :=
  { p with request := tidyParameters p.request, launch := canonicalLaunch p.request.target.platform p.launch }

theorem tidy_canonicalInput (accepted : validatePlan p l = .ok ()) : executionInput.tidy (canonicalInput p) = normalized p := by
  unfold validatePlan at accepted
  obtain ⟨_, context, accepted⟩ := bind_ok.mp accepted
  obtain ⟨_, program, -⟩ := bind_ok.mp accepted
  have launch : launchSpec.tidy (canonicalInput p).launch = (canonicalInput p).launch :=
    launch_kept (canonicalEnvironment_ok (context_environment context).1)
  rw [input_tidy, launch, show executionSpec.tidy (canonicalInput p).execution = p.execution from execution_kept program]
  rfl

theorem normalized_valid (accepted : validatePlan p l = .ok ()) : validatePlan (normalized p) l = .ok () := by
  unfold validatePlan at accepted ⊢
  obtain ⟨_, context, accepted⟩ := bind_ok.mp accepted
  obtain ⟨_, program, destinations⟩ := bind_ok.mp accepted
  obtain ⟨env, replaced⟩ := context_environment context
  have unread : validateContext (normalized p) l = validateContext (canonicalInput p) l := rfl
  have later := replaced _ (canonicalEnvironment_ok env)
  have same : software (normalized p) l = software p l := by
    unfold software normalized
    dsimp only
    cases p.execution with
    | process => rfl
    | softwareProgram program =>
      have count : (tidyParameters p.request).parameters.entries.isEmpty = p.request.parameters.entries.isEmpty := by
        change (p.request.parameters.entries.map _).isEmpty = _
        exact List.isEmpty_map
      dsimp only
      rw [count]
      rfl
  have constraints : network (normalized p) = network p := rfl
  rw [unread, same, constraints]
  exact bind_ok.mpr ⟨_, later, bind_ok.mpr ⟨_, program, destinations⟩⟩

theorem canonicalInput_normalized (p : ExecutionInput) : canonicalInput (normalized p) = normalized p := by
  unfold canonicalInput normalized
  dsimp only
  rw [show (tidyParameters p.request).target = p.request.target from rfl, canonicalLaunch_canonical]

theorem normalized_normalized (p : ExecutionInput) : normalized (normalized p) = normalized p := by
  have parameters : tidyParameters (tidyParameters p.request) = tidyParameters p.request := by
    rw [← request_tidy, ← request_tidy]
    exact executionRequest.tidy_tidy p.request
  change { canonicalInput (normalized p) with request := tidyParameters (tidyParameters p.request) } = normalized p
  rw [canonicalInput_normalized, parameters]
  rfl

end Plans

end RssMdmAgent.PlanNormalization
