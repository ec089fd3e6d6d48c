import RssMdmAgent.PlanReload

set_option autoImplicit false

/-! # The case of environment names in a frozen plan -/

namespace RssMdmAgent.PlanNames
open ContractIdentity JsonValue JsonCodec JsonText NetworkHosts PlanModel PlanCodec PlanValidation PlanFreezing DocumentBounds PlanNormalization
  PlanReload
open ProgramInstructions (Platform RunAs SoftwareOperation SoftwarePhase ResourceNaming)
open ContractPlan (ExecutionLimits maxSafeInteger bind_ok)
open PlanShape (forM_ok)

section Launches

def detectorLaunch : SoftwareDetector → Option LaunchSpec
  | .script command => some command.launch
  | .msiProduct .. | .pkgReceipt .. => none

def stepLaunches (step : SoftwareProgramStep) : List LaunchSpec :=
  (commands step).map (·.launch) ++ (detectorLaunch step.detection).toList

def nestedLaunches : ExecutionSpec → List LaunchSpec
  | .softwareProgram program => program.steps.flatMap stepLaunches
  | .process => []

def launches [HostParser] (p : ExecutionInput) : List LaunchSpec := p.launch :: nestedLaunches p.execution

variable (f : LaunchSpec → LaunchSpec)

def eachInvocation (command : SoftwareInvocation) : SoftwareInvocation := { command with launch := f command.launch }

def eachDetector : SoftwareDetector → SoftwareDetector
  | .script command => .script (eachInvocation f command)
  | detector => detector

def eachStep (step : SoftwareProgramStep) : SoftwareProgramStep :=
  { step with
    invocations := fun phase => (step.invocations phase).map (eachInvocation f)
    detection := eachDetector f step.detection }

def eachExecution : ExecutionSpec → ExecutionSpec
  | .softwareProgram program => .softwareProgram { program with steps := program.steps.map (eachStep f) }
  | .process => .process

def eachLaunch [HostParser] (p : ExecutionInput) : ExecutionInput :=
  { p with execution := eachExecution f p.execution, launch := f p.launch }

variable {f}

theorem eachStep_fixed {step : SoftwareProgramStep} (fixed : ∀ launch ∈ stepLaunches step, f launch = launch) : eachStep f step = step := by
  have declared : (fun phase => (step.invocations phase).map (eachInvocation f)) = step.invocations := by
    funext phase
    cases found : step.invocations phase with
    | none => rfl
    | some command =>
      have mem : command ∈ commands step := List.mem_filterMap.mpr ⟨phase, by cases phase <;> decide, found⟩
      have same := fixed command.launch (List.mem_append_left _ (List.mem_map_of_mem mem))
      rw [Option.map_some, eachInvocation, same]
  have detection : eachDetector f step.detection = step.detection := by
    cases found : step.detection with
    | msiProduct | pkgReceipt => rfl
    | script command =>
      have same := fixed command.launch (List.mem_append_right _ (by rw [found]; exact List.mem_singleton_self _))
      rw [eachDetector, eachInvocation, same]
  rw [eachStep, declared, detection]

theorem eachExecution_fixed {execution : ExecutionSpec} (fixed : ∀ launch ∈ nestedLaunches execution, f launch = launch) :
    eachExecution f execution = execution := by
  cases execution with
  | process => rfl
  | softwareProgram program =>
    have steps : program.steps.map (eachStep f) = program.steps :=
      (List.map_congr_left fun step mem => eachStep_fixed fun launch inside => fixed launch (List.mem_flatMap.mpr ⟨step, mem, inside⟩)).trans
        (List.map_id' _)
    rw [eachExecution, steps]

end Launches

section Names

def UpperNames (launch : LaunchSpec) : Prop := ∀ e ∈ launch.env.entries, upperName e.1.value = e.1.value

def DistinctNames (launch : LaunchSpec) : Prop := (launch.env.entries.map fun e => upperName e.1.value).Nodup

theorem upperNames_iff {launch : LaunchSpec} :
    UpperNames launch ↔ ∀ e ∈ launch.env.entries, canonicalFor .windows e.1 = e.1 :=
  forall₂_congr fun e _ => ⟨fun same => key_ext (show (canonicalFor .windows e.1).value = e.1.value from same), congrArg EnvironmentKey.value⟩

theorem canonicalLaunch_fixed {launch : LaunchSpec} (upper : UpperNames launch) : canonicalLaunch .windows launch = launch := by
  rw [canonicalLaunch, canonicalEnvironment_fixed (upperNames_iff.mp upper)]

theorem canonicalLaunch_upper (launch : LaunchSpec) : UpperNames (canonicalLaunch .windows launch) :=
  upperNames_iff.mpr canonicalEnvironment_names

theorem distinct_of_accepted {launch : LaunchSpec} (accepted : environmentFrom .windows [] launch.env.entries = .ok ()) :
    DistinctNames launch := by
  have distinct := (environmentFrom_ok.mp accepted).2.1.map (f := EnvironmentKey.value) fun _ _ => key_ext
  rw [List.map_map] at distinct
  exact distinct

theorem insertEntry_perm {name : EnvironmentKey} {value : InputValue} {entries : List (EnvironmentKey × InputValue)}
    (new : name ∉ entries.map Prod.fst) : (insertEntry name value entries).Perm ((name, value) :: entries) := by
  induction entries with
  | nil => exact .refl _
  | cons e rest ih =>
    have apart : name.value ≠ e.1.value := fun same => new (List.mem_map.mpr ⟨e, List.mem_cons_self, (key_ext same).symm⟩)
    rw [insertEntry, if_neg apart]
    split
    · exact .refl _
    · exact ((ih fun mem => new (List.mem_cons_of_mem _ mem)).cons e).trans (.swap _ _ _)

theorem collect_perm {entries : List (EnvironmentKey × InputValue)} : ∀ {map : Environment},
    ((entries ++ map.entries).map Prod.fst).Nodup → (collect entries map).entries.Perm (entries ++ map.entries) := by
  induction entries with
  | nil => exact fun _ => .refl _
  | cons e rest ih =>
    intro map distinct
    obtain ⟨name, value⟩ := e
    obtain ⟨once, later⟩ := List.nodup_cons.mp distinct
    have placed : (insertEntry name value map.entries).Perm ((name, value) :: map.entries) :=
      insertEntry_perm fun mem => once (List.map_append ▸ List.mem_append_right (rest.map Prod.fst) mem)
    have moved : (rest ++ insertEntry name value map.entries).Perm ((name, value) :: rest ++ map.entries) :=
      (placed.append_left rest).trans List.perm_middle
    exact (ih ((moved.map Prod.fst).symm.nodup distinct)).trans moved

theorem canonicalEnvironment_eq_iff {platform : Platform} {a b : Environment} (left : environmentFrom platform [] a.entries = .ok ())
    (right : environmentFrom platform [] b.entries = .ok ()) : canonicalEnvironment platform a = canonicalEnvironment platform b ↔
      (a.entries.map fun e => (canonicalFor platform e.1, e.2)).Perm (b.entries.map fun e => (canonicalFor platform e.1, e.2)) := by
  have kept {env : Environment} (accepted : environmentFrom platform [] env.entries = .ok ()) :
      (canonicalEnvironment platform env).entries.Perm (env.entries.map fun e => (canonicalFor platform e.1, e.2)) := by
    have perm := @collect_perm (env.entries.map fun e => (canonicalFor platform e.1, e.2)) ⟨[], .nil⟩ (by
      rw [List.append_nil, List.map_map]
      exact (environmentFrom_ok.mp accepted).2.1)
    rwa [List.append_nil] at perm
  constructor
  · intro same
    exact (kept left).symm.trans (same ▸ kept right)
  · intro perm
    have both := (kept left).trans (perm.trans (kept right).symm)
    cases first : canonicalEnvironment platform a with | mk entries ascending
    cases second : canonicalEnvironment platform b with | mk others ascending'
    rw [first, second] at both
    have sorted : entries = others := by
      exact both.eq_of_pairwise (fun _ _ _ _ before after => absurd after (lt_asymm before)) (List.pairwise_map.mp ascending)
        (List.pairwise_map.mp ascending')
    cases sorted
    rfl

variable [HostParser] {p : ExecutionInput} {l : ExecutionLimits}

theorem invocation_environment {command : SoftwareInvocation} (accepted : invocation p l command = .ok ()) :
    environmentFrom p.request.target.platform [] command.launch.env.entries = .ok () := by
  unfold invocation at accepted
  obtain ⟨_, -, accepted⟩ := bind_ok.mp accepted
  obtain ⟨_, context, -⟩ := bind_ok.mp accepted
  exact (context_environment context).1

theorem detector_environment {step : SoftwareProgramStep} (accepted : detectorAccepted p l step = .ok ()) {launch : LaunchSpec}
    (mem : launch ∈ (detectorLaunch step.detection).toList) : environmentFrom p.request.target.platform [] launch.env.entries = .ok () := by
  unfold detectorAccepted at accepted
  cases detection : step.detection with
  | msiProduct | pkgReceipt =>
    rw [detection] at mem
    cases mem
  | script command =>
    rw [detection] at accepted mem
    rw [List.mem_singleton.mp mem]
    exact invocation_environment accepted

theorem step_environments {intent : SoftwareOperation} {step : SoftwareProgramStep} (accepted : stepAccepted p l intent step = .ok ()) :
    ∀ launch ∈ stepLaunches step, environmentFrom p.request.target.platform [] launch.env.entries = .ok () := by
  unfold stepAccepted at accepted
  obtain ⟨_, -, accepted⟩ := bind_ok.mp accepted
  obtain ⟨_, -, accepted⟩ := bind_ok.mp accepted
  obtain ⟨_, -, accepted⟩ := bind_ok.mp accepted
  obtain ⟨_, phases, accepted⟩ := bind_ok.mp accepted
  obtain ⟨_, -, accepted⟩ := bind_ok.mp accepted
  obtain ⟨_, detection, -⟩ := bind_ok.mp accepted
  intro launch mem
  rcases List.mem_append.mp mem with phase | detector
  · obtain ⟨command, found, rfl⟩ := List.mem_map.mp phase
    exact invocation_environment (forM_ok phases command found)
  · exact detector_environment detection detector

theorem launches_accepted (accepted : validatePlan p l = .ok ()) : ∀ launch ∈ launches p,
    environmentFrom p.request.target.platform [] launch.env.entries = .ok () := by
  unfold validatePlan at accepted
  obtain ⟨_, context, accepted⟩ := bind_ok.mp accepted
  obtain ⟨_, nested, -⟩ := bind_ok.mp accepted
  intro launch mem
  rcases List.mem_cons.mp mem with rfl | mem
  · exact (context_environment context).1
  unfold software at nested
  cases execution : p.execution with
  | process =>
    rw [execution] at mem
    cases mem
  | softwareProgram program =>
    rw [execution] at nested mem
    obtain ⟨_, -, steps⟩ := bind_ok.mp nested
    obtain ⟨step, found, inside⟩ := List.mem_flatMap.mp mem
    exact step_environments (forM_ok steps step found) launch inside

def SameButCase (a b : ExecutionInput) : Prop := eachLaunch (canonicalLaunch .windows) a = eachLaunch (canonicalLaunch .windows) b

theorem canonicalInput_eq (windows : p.request.target.platform = .windows) (upper : ∀ launch ∈ nestedLaunches p.execution, UpperNames launch) :
    canonicalInput p = eachLaunch (canonicalLaunch .windows) p := by
  rw [canonicalInput, eachLaunch, windows, eachExecution_fixed fun launch mem => canonicalLaunch_fixed (upper launch mem)]

theorem SameButCase.request {a b : ExecutionInput} (same : SameButCase a b) : a.request = b.request := by
  have equal : (eachLaunch (canonicalLaunch .windows) a).request = (eachLaunch (canonicalLaunch .windows) b).request := by rw [same]
  exact equal

def ExposesUpperNames (plan : FrozenExecution) : Prop := ∀ launch ∈ launches plan.spec, UpperNames launch ∧ DistinctNames launch

theorem normalized_eq {a b : ExecutionInput} (same : canonicalInput a = canonicalInput b) : normalized a = normalized b := by
  change { canonicalInput a with request := tidyParameters (canonicalInput a).request } = _
  rw [same]
  rfl

end Names

section Freezing
variable [HostParser] [ResourceNaming] {text : Serialization} {digestOf : String → Digest} {a b : ExecutionInput} {l : ExecutionLimits}
  {plan : FrozenExecution}

/-- Freezing forgets the case of the names of a valid plan exactly where no nested launch has a name that is not in upper case. -/
theorem freeze_case_insensitive_iff (windows : a.request.target.platform = .windows) (frozen : freeze text digestOf a l = .ok plan)
    (valid : validatePlan b l = .ok ()) (same : SameButCase a b) :
    freeze text digestOf b l = .ok plan ∧ ExposesUpperNames plan ↔
      ∀ launch ∈ nestedLaunches a.execution ++ nestedLaunches b.execution, UpperNames launch := by
  obtain ⟨accepted, rfl⟩ := freeze_iff.mp frozen
  constructor
  · rintro ⟨again, exposed⟩
    obtain ⟨-, equal⟩ := freeze_iff.mp again
    have execution : a.execution = b.execution := congrArg (fun plan => plan.spec.execution) equal
    intro launch mem
    rw [← execution] at mem
    refine (exposed launch (List.mem_cons_of_mem _ ?_)).1
    exact (List.mem_append.mp mem).elim id id
  · intro upper
    have left := canonicalInput_eq windows fun launch mem => upper launch (List.mem_append_left _ mem)
    have right := canonicalInput_eq (same.request ▸ windows) fun launch mem => upper launch (List.mem_append_right _ mem)
    have canonical : canonicalInput a = canonicalInput b := left.trans (same.trans right.symm)
    have document_eq : document a = document b := congrArg executionInput.write canonical
    have normal := normalized_eq canonical
    refine ⟨freeze_iff.mpr ⟨⟨valid, ?_, ?_, ?_⟩, ?_⟩, fun launch mem => ⟨?_, ?_⟩⟩
    · exact document_eq ▸ accepted.bounded
    · exact document_eq ▸ accepted.size
    · exact normal ▸ accepted.resources
    · rw [normal, document_eq]
    · rcases List.mem_cons.mp mem with rfl | nested
      · change UpperNames (canonicalLaunch a.request.target.platform a.launch)
        rw [windows]
        exact canonicalLaunch_upper a.launch
      · exact upper launch (List.mem_append_left _ nested)
    · have environments := launches_accepted (normalized_valid accepted.valid) launch mem
      have platform : (normalized a).request.target.platform = .windows := windows
      rw [platform] at environments
      exact distinct_of_accepted environments

end Freezing

section Samples
attribute [local instance] noHosts plainResources

def upperPath : EnvironmentKey := ⟨"PATH", .refl true⟩

theorem samplePlan_same : SameButCase samplePlan { samplePlan with launch := canonicalLaunch .windows samplePlan.launch } :=
  congrArg (fun launch : LaunchSpec => ({ samplePlan with launch := launch } : ExecutionInput))
    (canonicalLaunch_canonical .windows samplePlan.launch).symm

def sampleText : PackageValue := ⟨"a", .refl true⟩
def sequenceProfile : Identifier := ⟨"native-software-sequence", .refl true⟩
def detectAction : Identifier := ⟨"software.detect", .refl true⟩

def sampleDetector (name : EnvironmentKey) : SoftwareInvocation where
  launch := sampleLaunch sampleId name
  runAs := .system .windows
  sessionRequirement := .notRequired
  timeoutMs := 1
  outputBytes := 1
  exitCodes := ⟨⟨[⟨0, by decide⟩], List.pairwise_singleton _ _⟩, ⟨[], .nil⟩⟩

def sampleStep (name : EnvironmentKey) : SoftwareProgramStep where
  format := .msi
  package := sampleText
  version := sampleText
  architecture := ⟨"x86_64", .refl true⟩
  payload := sampleArtifact
  materials := []
  signatures := []
  upgrade := .deny
  invocations _ := none
  detection := .script (sampleDetector name)
  allowDowngrade := false
  allowReboot := false

theorem none_ascending : ([] : List String).Pairwise (· < ·) := .nil

def detectPlan (name : EnvironmentKey) : ExecutionInput :=
  { samplePlan with
    execution := .softwareProgram ⟨zeroDigest, .detect, [sampleStep name]⟩
    request := { samplePlan.request with operation := ⟨detectAction, sampleRef⟩, parameters := ⟨[], none_ascending⟩ }
    launch := sampleLaunch sequenceProfile name }

theorem detectPlan_upper (name : EnvironmentKey) :
    eachLaunch (canonicalLaunch .windows) (detectPlan name) = detectPlan (canonicalFor .windows name) := rfl

theorem detectPlan_checks : ((canonicalFor .windows pathName).value = upperPath.value ∧
      (canonicalFor .windows upperPath).value = upperPath.value ∧ upperName pathName.value ≠ pathName.value) ∧
    (validatePlan (detectPlan pathName) sampleLimits = .ok () ∧ validatePlan (detectPlan upperPath) sampleLimits = .ok () ∧
      validatePlan { samplePlan with launch := sampleLaunch sampleId upperPath } sampleLimits = .ok ()) ∧
    (checkJson (document (detectPlan pathName)) sampleLimits = .ok () ∧ checkJson (document (detectPlan upperPath)) sampleLimits = .ok ()) ∧
    (JsonEncoding.cost (document (detectPlan pathName)).normal ≤ 8192 ∧ JsonEncoding.cost (document (detectPlan upperPath)).normal ≤ 8192) ∧
    ((launches (normalized (detectPlan pathName))).map fun launch => launch.env.entries.map fun e => e.1.value) ≠
      ((launches (normalized (detectPlan upperPath))).map fun launch => launch.env.entries.map fun e => e.1.value) := by
  decide +kernel

theorem pathName_upper : canonicalFor .windows pathName = upperPath := key_ext detectPlan_checks.1.1

/-- On Windows both spellings of a name are one variable. -/
theorem canonicalEnvironment_eq_iff_sample : canonicalEnvironment .windows (sampleLaunch sampleId pathName).env =
    canonicalEnvironment .windows (sampleLaunch sampleId upperPath).env := by
  refine (canonicalEnvironment_eq_iff (by decide +kernel) (by decide +kernel)).mpr ?_
  have names : canonicalFor .windows pathName = canonicalFor .windows upperPath :=
    pathName_upper.trans (key_ext detectPlan_checks.1.2.1).symm
  show List.Perm [(canonicalFor .windows pathName, _)] [(canonicalFor .windows upperPath, _)]
  rw [names]

theorem samplePlan_upper_valid :
    validatePlan { samplePlan with launch := canonicalLaunch .windows samplePlan.launch } sampleLimits = .ok () := by
  have launch : canonicalLaunch .windows samplePlan.launch = sampleLaunch sampleId (canonicalFor .windows pathName) := rfl
  rw [launch, pathName_upper]
  exact detectPlan_checks.2.1.2.2

theorem freeze_case_insensitive_iff_sample :
    let frozen : FrozenExecution := ⟨normalized samplePlan, samplePlanDigest⟩
    let other := { samplePlan with launch := canonicalLaunch .windows samplePlan.launch }
    freeze plainText (fun _ => samplePlanDigest) other sampleLimits = .ok frozen ∧ ExposesUpperNames frozen ↔
      ∀ launch ∈ nestedLaunches samplePlan.execution ++ nestedLaunches other.execution, UpperNames launch :=
  freeze_case_insensitive_iff rfl (freeze_iff.mpr ⟨samplePlan_freezes, rfl⟩) samplePlan_upper_valid samplePlan_same

theorem detectPlan_same : SameButCase (detectPlan pathName) (detectPlan upperPath) := by
  have upper : canonicalFor .windows upperPath = upperPath := key_ext detectPlan_checks.1.2.1
  rw [SameButCase, detectPlan_upper, detectPlan_upper, pathName_upper, upper]

/-- Both spellings are accepted, with different plans and different bytes under the digest. -/
theorem freeze_case_insensitive_fails : (detectPlan pathName).request.target.platform = .windows ∧
    SameButCase (detectPlan pathName) (detectPlan upperPath) ∧ ∀ digestOf : String → Digest, ∃ left right : FrozenExecution,
      freeze plainText digestOf (detectPlan pathName) sampleLimits = .ok left ∧
      freeze plainText digestOf (detectPlan upperPath) sampleLimits = .ok right ∧
      left.digest = digestOf (plainText.canonical (document (detectPlan pathName))) ∧
      right.digest = digestOf (plainText.canonical (document (detectPlan upperPath))) ∧
      plainText.canonical (document (detectPlan pathName)) ≠ plainText.canonical (document (detectPlan upperPath)) ∧
      left.spec ≠ right.spec ∧ ¬ExposesUpperNames left := by
  have apart : normalized (detectPlan pathName) ≠ normalized (detectPlan upperPath) := by
    intro same
    have names := congrArg (fun p => (launches p).map fun launch => launch.env.entries.map fun e => e.1.value) same
    exact detectPlan_checks.2.2.2.2 names
  have mixed : Freezable plainText (detectPlan pathName) sampleLimits :=
    ⟨detectPlan_checks.2.1.1, detectPlan_checks.2.2.1.1, JsonEncoding.canonical_size_le detectPlan_checks.2.2.2.1.1, _, rfl⟩
  have upper : Freezable plainText (detectPlan upperPath) sampleLimits :=
    ⟨detectPlan_checks.2.1.2.1, detectPlan_checks.2.2.1.2, JsonEncoding.canonical_size_le detectPlan_checks.2.2.2.1.2, _, rfl⟩
  refine ⟨rfl, detectPlan_same, fun digestOf => ⟨_, _, freeze_iff.mpr ⟨mixed, rfl⟩, freeze_iff.mpr ⟨upper, rfl⟩, rfl, rfl,
    fun same => apart ?_, apart, ?_⟩⟩
  · have left := @readInput_canonical _ plainText _ _ detectPlan_checks.2.1.1 detectPlan_checks.2.2.1.1
    rw [same, readInput_canonical detectPlan_checks.2.1.2.1 detectPlan_checks.2.2.1.2] at left
    exact (Except.ok.inj left).symm
  · intro exposed
    have upper := (exposed (sampleLaunch sampleId pathName) (List.mem_cons_of_mem _ List.mem_cons_self)).1 _ List.mem_cons_self
    exact detectPlan_checks.1.2.2 upper

end Samples

end RssMdmAgent.PlanNames
