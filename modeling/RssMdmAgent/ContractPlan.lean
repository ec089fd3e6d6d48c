import RssMdmAgent.ProgramInstructions

set_option autoImplicit false

/-! # Validated and frozen execution plans -/

namespace RssMdmAgent.ContractPlan
open ContractIdentity ContractProcess ProgramInstructions

def maxSafeInteger : Nat := 9007199254740991

inductive ErrorKind where
  | invalidConfiguration
  | invalidValue
  | inconsistentContext
  | invalidBudget
  | limitExceeded
  deriving DecidableEq, Repr

inductive Field where
  | inputBytes
  | depth
  | nodes
  | stringBytes
  | collectionItems
  | timeout
  | outputBytes
  | standardInput
  | attempts
  | validity
  | session
  | runAs
  | target
  | plan
  | document
  deriving DecidableEq, Repr

inductive Rule where
  | nonZero
  | numericRange
  | budgetLimit
  | timeOrder
  | mismatch
  | syntaxRule
  | byteLimit
  deriving DecidableEq, Repr

structure ContractError where
  kind : ErrorKind
  field : Field
  rule : Rule
  deriving DecidableEq, Repr

/-- Host bounds, independent of the untrusted plan. -/
structure ExecutionLimits where
  maxInputBytes : Nat
  maxDepth : Nat
  maxNodes : Nat
  maxStringBytes : Nat
  maxCollectionItems : Nat
  maxTimeoutMs : Nat
  maxOutputBytes : Nat
  maxStdinBytes : Nat
  maxAttempts : Nat
  deriving DecidableEq, Repr

def ExecutionLimits.validate (l : ExecutionLimits) : Except ContractError Unit := do
  let bounds :=
    [(l.maxInputBytes, Field.inputBytes), (l.maxDepth, .depth), (l.maxNodes, .nodes),
      (l.maxStringBytes, .stringBytes), (l.maxCollectionItems, .collectionItems),
      (l.maxTimeoutMs, .timeout), (l.maxOutputBytes, .outputBytes),
      (l.maxStdinBytes, .standardInput), (l.maxAttempts, .attempts)]
  match bounds.find? fun bound => bound.1 == 0 with
  | some bound => .error ⟨.invalidConfiguration, bound.2, .nonZero⟩
  | none => if l.maxDepth > 64 then .error ⟨.invalidConfiguration, .depth, .numericRange⟩ else .ok ()

inductive Authority where
  | localAuthority (id : Identifier)
  | enterprise (id tenant : Identifier)
  | test (id : Identifier)
  deriving DecidableEq, Repr

inductive ResourceParameter where
  | secret
  | notArray
  | items (values : List (Option String))
  deriving DecidableEq, Repr

structure ExecutionRequest where
  requestId : RequestId
  authority : Authority
  actor : ActorId
  device : DeviceId
  platform : Platform
  targetUser : Option OsAccountRef
  action : Identifier
  exclusiveResources : Option ResourceParameter
  deriving DecidableEq, Repr

structure ExecutionBudget where
  totalTimeoutMs : Nat
  totalOutputBytes : Nat
  maxAttempts : Nat
  deriving DecidableEq, Repr

structure ValidityWindow where
  notBeforeUnixMs : Nat
  expiresAtUnixMs : Nat
  deriving DecidableEq, Repr

inductive ExecutionSpec where
  | software (program : SoftwareProgram)
  | process

def ExecutionSpec.softwareProgram : ExecutionSpec → Option SoftwareProgram
  | .software program => some program
  | .process => none

structure ExecutionInput where
  execution : ExecutionSpec
  request : ExecutionRequest
  launch : LaunchSpec
  runAs : RunAs
  sessionRequirement : SessionRequirement
  budget : ExecutionBudget
  validity : ValidityWindow

def RunAs.platform : RunAs → Platform
  | .user account => account.platform
  | .system platform => platform

def budgetBound (field : Field) (value max : Nat) : Except ContractError Unit :=
  if value = 0 then .error ⟨.invalidBudget, field, .nonZero⟩
  else if max < value then .error ⟨.invalidBudget, field, .budgetLimit⟩
  else .ok ()

def check (ok : Bool) (error : ContractError) : Except ContractError Unit :=
  if ok then .ok () else .error error

def standardInputBound (stdin : StandardInput) (limits : ExecutionLimits) :
    Except ContractError Unit :=
  match stdin with
  | .empty => .ok ()
  | .controlled maxBytes => budgetBound .standardInput maxBytes limits.maxStdinBytes

/-- The context and budget part of plan validation, shared by plans and invocations. -/
def validateContext (p : ExecutionInput) (l : ExecutionLimits) : Except ContractError Unit := do
  l.validate
  budgetBound .timeout p.budget.totalTimeoutMs l.maxTimeoutMs
  budgetBound .outputBytes p.budget.totalOutputBytes l.maxOutputBytes
  budgetBound .attempts p.budget.maxAttempts l.maxAttempts
  check (p.validity.notBeforeUnixMs < p.validity.expiresAtUnixMs)
    ⟨.invalidBudget, .validity, .timeOrder⟩
  check (match p.sessionRequirement with
    | .notRequired => true
    | .activeUser account _ => account.platform == p.request.platform)
    ⟨.inconsistentContext, .session, .mismatch⟩
  check (RunAs.platform p.runAs == p.request.platform) ⟨.inconsistentContext, .runAs, .mismatch⟩
  check (match p.request.targetUser with
    | none => true
    | some account => account.platform == p.request.platform)
    ⟨.inconsistentContext, .target, .mismatch⟩
  standardInputBound p.launch.stdin l

def invalidPlan : ContractError := ⟨.inconsistentContext, .plan, .mismatch⟩

/-- The phases that acquire and close the resources of a format. -/
def acquisitionPhases (intent : SoftwareOperation) : SoftwareFormat → List SoftwarePhase
  | .winget _ | .homebrew _ => if intent = .detect then [] else [.prepare, .cleanup]
  | .dmgApp _ =>
    match intent with
    | .uninstall => [.cleanup]
    | .install => [.attach, .stage, .cleanup]
    | .detect => []
  | .dmgPkg => if intent = .install then [.attach, .cleanup] else []
  | _ => []

def effectPhases (intent : SoftwareOperation) (upgrade : SoftwareUpgrade) : List SoftwarePhase :=
  match intent with
  | .install =>
    .mutation ::
      match upgrade with
      | .inPlace => [.upgrade]
      | .uninstallThenInstall => [.removal]
      | .deny => []
  | .uninstall => [.mutation]
  | .detect => []

def expectedPhases (intent : SoftwareOperation) (step : SoftwareProgramStep) :
    List SoftwarePhase :=
  acquisitionPhases intent step.format ++ effectPhases intent step.upgrade

def SoftwareProgramStep.declaredPhases (step : SoftwareProgramStep) : List SoftwarePhase :=
  SoftwarePhase.all.filter step.hasInvocation

def invocationAccepted (p : ExecutionInput) (limits : ExecutionLimits)
    (command : SoftwareInvocation) : Except ContractError Unit := do
  check (command.exitCodes.success.card ≠ 0 &&
      Disjoint command.exitCodes.success command.exitCodes.reboot &&
      command.exitCodes.success.card + command.exitCodes.reboot.card ≤ 32 &&
      command.timeoutMs ≠ 0 && command.timeoutMs ≤ 86400000 &&
      command.outputBytes ≠ 0 && command.outputBytes ≤ 1048576) invalidPlan
  validateContext
    { p with
      execution := .process
      launch := command.launch
      runAs := command.runAs
      sessionRequirement := command.sessionRequirement
      budget :=
        { p.budget with
          totalTimeoutMs := min command.timeoutMs p.budget.totalTimeoutMs
          totalOutputBytes := min command.outputBytes p.budget.totalOutputBytes } } limits

def detectionContextAccepted (platform : Platform) : RunAs × SessionRequirement → Bool
  | (.system p, .notRequired) => p == platform
  | (.user account, .notRequired) => account.platform == platform
  | (.user account, .activeUser bound _) => account == bound && account.platform == platform
  | (.system _, .activeUser _ _) => false

def detectorAccepted (p : ExecutionInput) (limits : ExecutionLimits) (step : SoftwareProgramStep) :
    Except ContractError Unit :=
  match step.detection with
  | .msiProduct productCode version _ _ =>
    check (step.format.adapter.platform == .windows && productCode.utf8ByteSize == 38 &&
      version == step.version) invalidPlan
  | .pkgReceipt receipt version _ _ =>
    check (step.format.adapter.platform == .macos && receipt.utf8ByteSize ≠ 0 &&
      receipt.utf8ByteSize ≤ 1024 && version == step.version) invalidPlan
  | .script invocation => invocationAccepted p limits invocation

def stepAccepted (p : ExecutionInput) (limits : ExecutionLimits) (intent : SoftwareOperation)
    (step : SoftwareProgramStep) : Except ContractError Unit := do
  check (step.format.adapter.platform == p.request.platform &&
    ["aarch64", "x86_64"].contains step.architecture.value) invalidPlan
  let expected := expectedPhases intent step
  check ((intent == .install || step.upgrade == .deny) &&
    (SoftwareProgramStep.declaredPhases step).length == expected.length &&
    expected.all step.hasInvocation) invalidPlan
  (SoftwareProgramStep.declaredPhases step).forM fun phase =>
    match step.invocations phase with
    | none => .ok ()
    | some command => invocationAccepted p limits command
  check (detectionContextAccepted p.request.platform step.detection.context) invalidPlan
  detectorAccepted p limits step

def softwareAction : SoftwareOperation → String
  | .install => "software.install"
  | .uninstall => "software.uninstall"
  | .detect => "software.detect"

def software (p : ExecutionInput) (limits : ExecutionLimits) : Except ContractError Unit :=
  match p.execution.softwareProgram with
  | some program => do
    check (program.steps.length ≠ 0 && program.steps.length ≤ 32 &&
      p.launch.profile.value == "native-software-sequence" &&
      p.request.action.value == softwareAction program.intent &&
      p.request.exclusiveResources == none) invalidPlan
    program.steps.forM (stepAccepted p limits program.intent)
  | none =>
    check (!"software.".toList.isPrefixOf p.request.action.value.toList) invalidPlan

def validatePlan (p : ExecutionInput) (l : ExecutionLimits) : Except ContractError Unit := do
  validateContext p l
  software p l

def ExecutionInput.integers (p : ExecutionInput) : List Nat :=
  [p.budget.totalTimeoutMs, p.budget.totalOutputBytes, p.budget.maxAttempts,
    p.validity.notBeforeUnixMs, p.validity.expiresAtUnixMs]

def checkIntegers (p : ExecutionInput) : Except ContractError Unit :=
  check ((ExecutionInput.integers p).all (· ≤ maxSafeInteger))
    ⟨.invalidValue, .document, .numericRange⟩

def invalidResource : ContractError := ⟨.invalidValue, .document, .syntaxRule⟩

def validResource (key : String) : Bool :=
  key.utf8ByteSize ≠ 0 && key.utf8ByteSize ≤ 128 &&
    key.toList.all fun b => b.isLower || b.isDigit || ['-', ':', '.'].contains b

def insertResource (keys : List String) : Option String → Except ContractError (List String)
  | none => .error invalidResource
  | some key =>
    if !validResource key then .error invalidResource
    else if keys.contains key then .ok keys
    else .ok (keys ++ [key])

def resourceKeysFrom (keys : List String) (parameter : Option ResourceParameter) :
    Except ContractError (List String) :=
  match parameter with
  | none => .ok (keys.insertionSort (· ≤ ·))
  | some .secret | some .notArray => .error invalidResource
  | some (.items values) =>
    if values.length ≤ 8 then do
      let keys ← values.foldlM insertResource keys
      return keys.insertionSort (· ≤ ·)
    else .error invalidResource

def ExecutionInput.exclusiveResourceKeys [ResourceNaming] (p : ExecutionInput) :
    Except ContractError (List String) :=
  resourceKeysFrom ((p.execution.softwareProgram.map SoftwareProgram.lockKeys).getD [])
    p.request.exclusiveResources

def freezable (spec : ExecutionInput) (limits : ExecutionLimits) : Except ContractError Unit := do
  validatePlan spec limits
  checkIntegers spec
  let _ ← resourceKeysFrom [] spec.request.exclusiveResources

structure FrozenExecution where
  spec : ExecutionInput
  digest : Digest
  frozen : ∃ limits, freezable spec limits = .ok ()

def FrozenExecution.program (plan : FrozenExecution) : Option SoftwareProgram :=
  plan.spec.execution.softwareProgram

section Freezing
variable {spec : ExecutionInput} {limits : ExecutionLimits}

theorem check_ok {ok : Bool} {error : ContractError} : check ok error = .ok () ↔ ok = true := by
  cases ok <;> simp [check]

theorem budgetBound_ok {field : Field} {value max : Nat} :
    budgetBound field value max = .ok () ↔ 0 < value ∧ value ≤ max := by
  unfold budgetBound
  by_cases zero : value = 0
  · simp [zero]
  · by_cases high : max < value
    · simp only [zero, high, if_true, if_false, reduceCtorEq, false_iff]
      omega
    · simp only [zero, high, if_false, true_iff]
      omega

theorem bind_ok {α β ε : Type} {first : Except ε α} {next : α → Except ε β} {value : β} :
    (first >>= next) = .ok value ↔ ∃ a, first = .ok a ∧ next a = .ok value := by
  cases first with
  | error e => simp [bind, Except.bind]
  | ok a => simp [bind, Except.bind]

theorem bind_error {α β ε : Type} {first : Except ε α} {next : α → Except ε β} {error : ε} :
    (first >>= next) = .error error ↔
      first = .error error ∨ ∃ a, first = .ok a ∧ next a = .error error := by
  cases first with
  | error e => simp [bind, Except.bind]
  | ok a => simp [bind, Except.bind]

theorem freezable_validated (h : freezable spec limits = .ok ()) :
    validatePlan spec limits = .ok () ∧ checkIntegers spec = .ok () ∧
      ∃ keys, resourceKeysFrom [] spec.request.exclusiveResources = .ok keys := by
  unfold freezable at h
  obtain ⟨_, validated, h⟩ := bind_ok.mp h
  obtain ⟨_, integers, h⟩ := bind_ok.mp h
  obtain ⟨keys, resources, _⟩ := bind_ok.mp h
  exact ⟨validated, integers, keys, resources⟩

theorem validatePlan_parts (h : validatePlan spec limits = .ok ()) :
    validateContext spec limits = .ok () ∧ software spec limits = .ok () := by
  obtain ⟨_, context, program⟩ := bind_ok.mp h
  exact ⟨context, program⟩

end Freezing

end RssMdmAgent.ContractPlan
