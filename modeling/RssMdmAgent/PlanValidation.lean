import RssMdmAgent.PlanCodec

set_option autoImplicit false

/-! # Bounds of documents and validity of plans -/

namespace RssMdmAgent.PlanValidation
open ContractIdentity JsonValue JsonCodec NetworkHosts PlanModel
open ProgramInstructions (Platform OsAccountRef RunAs SessionRequirement SoftwareOperation SoftwareUpgrade SoftwarePhase SoftwareKind)
open ContractPlan (ExecutionLimits maxSafeInteger)

inductive ErrorKind where
  | encoding
  | invalidValue
  | limitExceeded
  | invalidConfiguration
  | inconsistentContext
  | invalidBudget
  deriving DecidableEq, Repr

inductive Field where
  | document
  | plan
  | inputBytes
  | depth
  | nodes
  | stringBytes
  | collectionItems
  | timeout
  | outputBytes
  | attempts
  | validity
  | target
  | runAs
  | session
  | workingDirectory
  | arguments
  | standardInput
  | environment
  | network
  | readPaths
  | writePaths
  deriving DecidableEq, Repr

inductive Rule where
  | syntaxRule
  | nonZero
  | byteLimit
  | depthLimit
  | nodeLimit
  | collectionLimit
  | numericRange
  | duplicateKey
  | empty
  | mismatch
  | absolutePath
  | nul
  | artifactSlot
  | environmentValue
  | caseCollision
  | timeOrder
  | budgetLimit
  deriving DecidableEq, Repr

structure ContractError where
  kind : ErrorKind
  field : Field
  rule : Rule
  deriving DecidableEq, Repr

abbrev Checked := Except ContractError Unit

def check (ok : Bool) (error : ContractError) : Checked := if ok then .ok () else .error error

def validateLimits (l : ExecutionLimits) : Checked := do
  let bounds :=
    [(l.maxInputBytes, Field.inputBytes), (l.maxDepth, .depth), (l.maxNodes, .nodes), (l.maxStringBytes, .stringBytes),
      (l.maxCollectionItems, .collectionItems), (l.maxTimeoutMs, .timeout), (l.maxOutputBytes, .outputBytes),
      (l.maxStdinBytes, .standardInput), (l.maxAttempts, .attempts)]
  match bounds.find? fun bound => bound.1 == 0 with
  | some bound => .error ⟨.invalidConfiguration, bound.2, .nonZero⟩
  | none => check (l.maxDepth ≤ 64) ⟨.invalidConfiguration, .depth, .numericRange⟩

/-! ## Documents -/

def safeNumber : Number → Bool
  | .int n => n.natAbs ≤ maxSafeInteger
  | .float x => x.value.den ≠ 1 || x.value.num.natAbs ≤ maxSafeInteger

def collection (count : Nat) (l : ExecutionLimits) : Checked :=
  check (count ≤ l.maxCollectionItems) ⟨.limitExceeded, .collectionItems, .collectionLimit⟩

def checkName (l : ExecutionLimits) (name : String) : Checked := do
  check (name.utf8ByteSize ≤ l.maxStringBytes) ⟨.limitExceeded, .stringBytes, .byteLimit⟩
  check (!name.toList.isEmpty) ⟨.invalidValue, .document, .empty⟩
  check (!name.toList.contains '\x00') ⟨.invalidValue, .document, .nul⟩

def node (l : ExecutionLimits) (depth left : Nat) : Except ContractError Nat := do
  check (depth ≤ l.maxDepth) ⟨.limitExceeded, .depth, .depthLimit⟩
  check (left ≠ 0) ⟨.limitExceeded, .nodes, .nodeLimit⟩
  return left - 1

mutual

def walk (l : ExecutionLimits) (depth left : Nat) : Value → Except ContractError Nat
  | .null | .bool _ => node l depth left
  | .number n => do
    let left ← node l depth left
    check (safeNumber n) ⟨.invalidValue, .document, .numericRange⟩
    return left
  | .text s => do
    let left ← node l depth left
    check (s.utf8ByteSize ≤ l.maxStringBytes) ⟨.limitExceeded, .stringBytes, .byteLimit⟩
    return left
  | .array items => do
    let left ← node l depth left
    collection items.length l
    walkItems l (depth + 1) left items
  | .object members => do
    let left ← node l depth left
    collection members.length l
    walkMembers l (depth + 1) left members

def walkItems (l : ExecutionLimits) (depth left : Nat) : List Value → Except ContractError Nat
  | [] => .ok left
  | item :: rest => do
    let left ← walk l depth left item
    walkItems l depth left rest

def walkMembers (l : ExecutionLimits) (depth left : Nat) : List (String × Value) → Except ContractError Nat
  | [] => .ok left
  | (name, item) :: rest => do
    checkName l name
    let left ← walk l depth left item
    walkMembers l depth left rest

end

def checkJson (v : Value) (l : ExecutionLimits) : Checked := do
  let _ ← walk l 1 l.maxNodes v

/-! ## Plans -/

def budgetBound (value max : Nat) (field : Field) : Checked := do
  check (value ≠ 0) ⟨.invalidBudget, field, .nonZero⟩
  check (value ≤ max) ⟨.invalidBudget, field, .budgetLimit⟩

/-- An absolute path without dot components. -/
def absolutePath (value : String) (platform : Platform) : Bool :=
  let chars := value.toList
  let absolute :=
    match platform with
    | .windows =>
      (match chars with
        | drive :: ':' :: separator :: _ => drive.isAlpha && ['/', '\\'].contains separator
        | _ => false) ||
      (match chars with
        | '\\' :: '\\' :: rest =>
          match splitOn (· == '\\') rest with
          | server :: share :: _ => !server.isEmpty && !share.isEmpty && server ≠ ['?'] && server ≠ ['.']
          | _ => false
        | _ => false)
    | .macos | .linux => chars.head? == some '/'
  absolute && !chars.contains '\x00' && !(splitOn (fun c => c == '/' || c == '\\') chars).any fun part => part == ['.'] || part == ['.', '.']

def path (value : String) (platform : Platform) (field : Field) : Checked :=
  check (absolutePath value platform) ⟨.invalidValue, field, .absolutePath⟩

def runPlatform : RunAs → Platform
  | .user account => account.platform
  | .system platform => platform

def upperName (value : String) : String := String.ofList (value.toList.map Char.toUpper)

theorem toUpper_toNat (c : Char) : c.toUpper.toNat = if 97 ≤ c.toNat ∧ c.toNat ≤ 122 then c.toNat - 32 else c.toNat := by
  unfold Char.toUpper
  simp only [UInt32.le_iff_toNat_le]
  change (if h : 97 ≤ c.toNat ∧ c.toNat ≤ 122 then _ else _ : Char).toNat = _
  split
  · next lower =>
    have sum : (c.val + ('A'.val - 'a'.val)).toNat = c.toNat - 32 := by
      rw [UInt32.toNat_add]
      change (c.toNat + 4294967264) % 2 ^ 32 = _
      omega
    exact sum
  · rfl

theorem toUpper_toUpper (c : Char) : c.toUpper.toUpper = c.toUpper := by
  apply char_ext
  rw [toUpper_toNat c.toUpper, toUpper_toNat c]
  split
  · exact if_neg (by omega)
  · rfl

def nameChar (c : Char) : Bool := c.isAlphanum || c == '_'

theorem nameChar_iff (c : Char) : nameChar c = true ↔
    (48 ≤ c.toNat ∧ c.toNat ≤ 57) ∨ (65 ≤ c.toNat ∧ c.toNat ≤ 90) ∨ (97 ≤ c.toNat ∧ c.toNat ≤ 122) ∨ c.toNat = 95 := by
  unfold nameChar
  rw [Bool.or_eq_true, isAlphanum_iff, beq_iff_eq]
  have underscore : c = '_' ↔ c.toNat = 95 := ⟨fun h => h ▸ rfl, fun h => char_ext h⟩
  rw [underscore]
  tauto

theorem nameChar_toUpper (c : Char) (name : nameChar c = true) : nameChar c.toUpper = true := by
  rw [nameChar_iff, toUpper_toNat] at *
  split <;> omega

theorem isDigit_iff (c : Char) : c.isDigit = true ↔ 48 ≤ c.toNat ∧ c.toNat ≤ 57 := by
  simp only [Char.isDigit, Bool.and_eq_true, decide_eq_true_eq, UInt32.le_iff_toNat_le, ge_iff_le]
  rfl

theorem isDigit_toUpper (c : Char) : c.toUpper.isDigit = c.isDigit := by
  rw [Bool.eq_iff_iff, isDigit_iff, isDigit_iff, toUpper_toNat]
  split <;> omega

theorem upperName_size {value : String} (names : ∀ c ∈ value.toList, nameChar c = true) :
    (upperName value).utf8ByteSize = value.utf8ByteSize := by
  conv_rhs => rw [← String.ofList_toList (s := value)]
  rw [upperName, ← JsonDocument.utf8Bytes_sum, ← JsonDocument.utf8Bytes_sum, List.map_map]
  refine congrArg List.sum (List.map_congr_left fun c mem => ?_)
  have ascii := (nameChar_iff c).mp (names c mem)
  rw [Function.comp_apply, utf8Size_ascii (by rw [toUpper_toNat]; split <;> omega), utf8Size_ascii (by omega)]

theorem key_chars {value : String} (valid : validEnvironmentKey value = true) : ∀ c ∈ value.toList, nameChar c = true := by
  unfold validEnvironmentKey at valid
  split at valid
  · cases valid
  · next first rest chars =>
    rw [chars]
    simp only [Bool.and_eq_true, List.all_eq_true] at valid
    exact valid.2

theorem upperName_valid {value : String} (valid : validEnvironmentKey value = true) : validEnvironmentKey (upperName value) = true := by
  have names := key_chars valid
  have size := upperName_size names
  unfold validEnvironmentKey at valid ⊢
  rw [upperName, String.toList_ofList] at *
  split at valid
  · cases valid
  next first rest chars =>
  rw [chars, List.map_cons]
  rw [chars] at names
  simp only [Bool.and_eq_true, decide_eq_true_eq, Bool.not_eq_true'] at valid
  rw [chars, List.map_cons] at size
  simp only [Bool.and_eq_true, decide_eq_true_eq, Bool.not_eq_true', List.all_eq_true, size, isDigit_toUpper]
  refine ⟨valid.1, fun c mem => ?_⟩
  rw [← List.map_cons] at mem
  obtain ⟨d, inside, rfl⟩ := List.mem_map.mp mem
  exact nameChar_toUpper d (names d inside)

def canonicalFor (platform : Platform) (key : EnvironmentKey) : EnvironmentKey :=
  if platform = .windows then ⟨upperName key.value, upperName_valid key.valid⟩ else key

def LaunchArg.hasNul : LaunchArg → Bool
  | .literal value => value.toList.contains '\x00'
  | .artifactPath => false

def LaunchArg.isSlot : LaunchArg → Bool
  | .literal _ => false
  | .artifactPath => true

def environmentValue : InputValue → Bool
  | .literal ⟨.text s, _⟩ => !s.toList.contains '\x00'
  | .literal _ => false
  | .secret _ => true

def environmentFrom (platform : Platform) : List EnvironmentKey → List (EnvironmentKey × InputValue) → Checked
  | _, [] => .ok ()
  | names, (name, value) :: rest => do
    check (!names.contains (canonicalFor platform name)) ⟨.inconsistentContext, .environment, .caseCollision⟩
    check (environmentValue value) ⟨.invalidValue, .environment, .environmentValue⟩
    environmentFrom platform (canonicalFor platform name :: names) rest

def stdinBudget (stdin : StandardInput) (l : ExecutionLimits) : Checked :=
  match stdin with
  | .closed => .ok ()
  | .controlled _ _ maxBytes => budgetBound maxBytes.toNat l.maxStdinBytes .standardInput

section Plans
variable [HostParser]

def environment (p : ExecutionInput) : Checked := environmentFrom p.request.target.platform [] p.launch.env.entries

def restrictedPaths (p : ExecutionInput) : Checked :=
  match p.constraints with
  | .osIdentity => .ok ()
  | .restricted _ reads writes _ _ => do
    reads.forM fun value => path value p.request.target.platform .readPaths
    writes.forM fun value => path value p.request.target.platform .writePaths

def network (p : ExecutionInput) : Checked :=
  match p.constraints with
  | .restricted (.allowlist destinations) _ _ _ _ => do
    check (!destinations.isEmpty) ⟨.invalidValue, .network, .empty⟩
    check (decide destinations.Nodup) ⟨.invalidValue, .network, .duplicateKey⟩
  | _ => .ok ()

/-- All but the program and the network destinations. -/
def validateContext (p : ExecutionInput) (l : ExecutionLimits) : Checked := do
  validateLimits l
  budgetBound p.budget.totalTimeoutMs.toNat l.maxTimeoutMs .timeout
  budgetBound p.budget.totalOutputBytes.toNat l.maxOutputBytes .outputBytes
  budgetBound p.budget.maxAttempts.toNat l.maxAttempts .attempts
  check (p.validity.notBeforeUnixMs.toNat < p.validity.expiresAtUnixMs.toNat) ⟨.invalidBudget, .validity, .timeOrder⟩
  let platform := p.request.target.platform
  check (match p.sessionRequirement with
    | .activeUser account _ => account.platform == platform
    | .notRequired => true) ⟨.inconsistentContext, .session, .mismatch⟩
  check (runPlatform p.runAs == platform) ⟨.inconsistentContext, .runAs, .mismatch⟩
  check (match p.request.target.scope with
    | .user account => account.platform == platform
    | .device => true) ⟨.inconsistentContext, .target, .mismatch⟩
  path p.launch.cwd platform .workingDirectory
  restrictedPaths p
  check (!p.launch.argv.any LaunchArg.hasNul) ⟨.invalidValue, .arguments, .nul⟩
  check (p.launch.argv.countP LaunchArg.isSlot == if p.launch.interpreter.profile.id.value ≠ "native-osquery-template" then 1 else 0)
    ⟨.invalidValue, .arguments, .artifactSlot⟩
  stdinBudget p.launch.stdin l
  check (match p.launch.output.format with
    | .json maxRows => maxRows ≠ 0
    | .text => true) ⟨.invalidBudget, .outputBytes, .budgetLimit⟩
  environment p

def invalid : ContractError := ⟨.inconsistentContext, .plan, .mismatch⟩

def processAction (p : ExecutionInput) : Checked :=
  check (!"software.".toList.isPrefixOf p.request.operation.action.value.toList) invalid

def validateProcess (p : ExecutionInput) (l : ExecutionLimits) : Checked := do
  validateContext p l
  processAction p
  network p

def nativeStep : Identifier := ⟨"native.step", .refl true⟩

def minWord (a b : BitVec 64) : BitVec 64 := if a.toNat ≤ b.toNat then a else b

/-- An invocation is validated like a process of its own under the budget of the plan. -/
def invocationInput (p : ExecutionInput) (command : SoftwareInvocation) : ExecutionInput :=
  { p with
    execution := .process
    request := { p.request with operation := { p.request.operation with action := nativeStep } }
    launch := command.launch
    runAs := command.runAs
    sessionRequirement := command.sessionRequirement
    budget :=
      { p.budget with
        totalTimeoutMs := minWord command.timeoutMs p.budget.totalTimeoutMs
        totalOutputBytes := minWord command.outputBytes p.budget.totalOutputBytes } }

def invocation (p : ExecutionInput) (l : ExecutionLimits) (command : SoftwareInvocation) : Checked := do
  let success := command.exitCodes.success.items
  let reboot := command.exitCodes.reboot.items
  check (!success.isEmpty && !success.any (reboot.contains ·) && success.length + reboot.length ≤ 32 &&
    command.timeoutMs.toNat ≠ 0 && command.timeoutMs.toNat ≤ 86400000 &&
    command.outputBytes.toNat ≠ 0 && command.outputBytes.toNat ≤ 1048576) invalid
  validateProcess (invocationInput p command) l

end Plans

/-! ### Materials of a step -/

def adapter : SoftwareFormat → SoftwareKind
  | .msi => .msi
  | .pkg => .pkg
  | .winget _ => .winget
  | .homebrew _ => .homebrew
  | .bundle manifest _ =>
    match manifest.platform with
    | .windows => .windowsBundle
    | .macos | .linux => .macosBundle
  | .exe _ => .exe
  | .msix .. => .msix
  | .dmgApp .. => .dmgApp
  | .dmgPkg .. => .dmgPkg

def relativeMaterialPath (value : String) : Bool :=
  let chars := value.toList
  !chars.isEmpty && value.utf8ByteSize ≤ 1024 && chars.head? ≠ some '/' && !chars.contains '\\' && !chars.any isControl &&
    (splitOn (· == '/') chars).all fun part =>
      !part.isEmpty && part ≠ ['.'] && part ≠ ['.', '.'] && !part.contains ':' && !part.getLast?.any (['.', ' '].contains ·)

def lowerName (value : String) : String := String.ofList (value.toList.map Char.toLower)

def endsWith (value ending : String) : Bool := ending.toList.isSuffixOf value.toList

def detectionContext : SoftwareDetector → RunAs × SessionRequirement
  | .msiProduct _ _ runAs session | .pkgReceipt _ _ runAs session => (runAs, session)
  | .script invocation => (invocation.runAs, invocation.sessionRequirement)

def msixArchitecture (step : SoftwareProgramStep) (v : MsixIdentity) : Bool :=
  ["neutral", "aarch64", "x86_64"].contains v.architecture.value &&
    (v.architecture.value == "neutral" || v.architecture == step.architecture) &&
    v.resourceId.utf8ByteSize ≤ 1024 && !v.resourceId.toList.any isControl

def runsAsUser : RunAs → Bool
  | .user _ => true
  | .system _ => false

/-- The material of a format agrees with its step. -/
def validFor (step : SoftwareProgramStep) : SoftwareFormat → Bool
  | .msi | .pkg | .winget _ | .homebrew _ => true
  | .bundle manifest limits =>
    [Platform.windows, .macos].contains manifest.platform && manifest.architecture == step.architecture &&
      !manifest.entries.entries.isEmpty && manifest.entries.entries.length ≤ 4096 &&
      manifest.entries.entries.all (fun e => relativeMaterialPath e.1) &&
      limits.archiveBytes.toNat ≠ 0 && limits.files.toNat ≠ 0 && limits.files.toNat ≤ 4096 && limits.fileBytes.toNat ≠ 0 &&
      limits.expandedBytes.toNat ≠ 0 && limits.depth.toNat ≠ 0 && limits.depth.toNat ≤ 32
  | .exe layout =>
    !layout.entries.isEmpty && layout.entries.length ≤ 64 && decide (layout.entries.map fun e => lowerName e.1).Nodup &&
      layout.entries.all (fun e => relativeMaterialPath e.1) && layout.entries.any (fun e => e.2 == step.payload)
  | .msix container identity dependencies deployment _ _ allowUnsigned =>
    msixArchitecture step identity && identity.resourceId.toList.isEmpty && dependencies.length ≤ 64 &&
      dependencies.all (msixArchitecture step) &&
      (match container with
        | .package => true
        | .bundle members =>
          !members.isEmpty && members.length ≤ 64 &&
            members.all (fun m => relativeMaterialPath m.path && m.length.toNat ≠ 0 && msixArchitecture step m.identity) &&
            members.countP (fun m => m.identity.resourceId.toList.isEmpty) == 1 && members.any (fun m => m.identity == identity) &&
            decide (members.map fun m => lowerName m.path).Nodup) &&
      (match deployment with
        | .deviceProvisioning => !allowUnsigned && !runsAsUser (detectionContext step.detection).1
        | .targetUserRegistration => runsAsUser (detectionContext step.detection).1)
  | .dmgApp _ path _ version targetName =>
    relativeMaterialPath path && endsWith path ".app" && relativeMaterialPath targetName && !targetName.toList.contains '/' &&
      endsWith targetName ".app" && version == step.version
  | .dmgPkg _ path length _ _ =>
    relativeMaterialPath path && endsWith path ".pkg" && length.toNat ≠ 0 && !runsAsUser (detectionContext step.detection).1

def acquisitionPhases (intent : SoftwareOperation) : SoftwareFormat → List SoftwarePhase
  | .winget _ | .homebrew _ => if intent = .detect then [] else [.prepare, .cleanup]
  | .dmgApp .. =>
    match intent with
    | .uninstall => [.cleanup]
    | .install => [.attach, .stage, .cleanup]
    | .detect => []
  | .dmgPkg .. => if intent = .install then [.attach, .cleanup] else []
  | _ => []

def expectedPhases (intent : SoftwareOperation) (step : SoftwareProgramStep) : List SoftwarePhase :=
  acquisitionPhases intent step.format ++
    match intent with
    | .install =>
      .mutation ::
        match step.upgrade with
        | .inPlace => [.upgrade]
        | .uninstallThenInstall => [.removal]
        | .deny => []
    | .uninstall => [.mutation]
    | .detect => []

def commands (step : SoftwareProgramStep) : List SoftwareInvocation := SoftwarePhase.all.filterMap step.invocations

def contextAccepted (platform : Platform) : RunAs × SessionRequirement → Bool
  | (.system p, .notRequired) => p == platform
  | (.user account, .notRequired) => account.platform == platform
  | (.user account, .activeUser bound _) => account == bound && account.platform == platform
  | (.system _, .activeUser _ _) => false

def isHexDigit (c : Char) : Bool := c.isDigit || ('a' ≤ c && c ≤ 'f') || ('A' ≤ c && c ≤ 'F')

def validProductCode (code : String) : Bool :=
  let chars := code.toList
  code.utf8ByteSize == 38 && chars.length == 38 && chars.head? == some '{' && chars.getLast? == some '}' &&
    ((chars.drop 1).take 36).zipIdx.all fun b => if [8, 13, 18, 23].contains b.2 then b.1 == '-' else isHexDigit b.1

def validReceipt (receipt : String) : Bool :=
  !receipt.toList.isEmpty && receipt.utf8ByteSize ≤ 1024 && receipt.toList.head? ≠ some '-' && !receipt.toList.any isControl

section Programs
variable [HostParser]

def detectorAccepted (p : ExecutionInput) (l : ExecutionLimits) (step : SoftwareProgramStep) : Checked :=
  match step.detection with
  | .msiProduct code version _ _ =>
    check ((adapter step.format).platform == .windows && validProductCode code && version == step.version) invalid
  | .pkgReceipt receipt version _ _ =>
    check ((adapter step.format).platform == .macos && validReceipt receipt && version == step.version) invalid
  | .script command => invocation p l command

def stepAccepted (p : ExecutionInput) (l : ExecutionLimits) (intent : SoftwareOperation) (step : SoftwareProgramStep) : Checked := do
  let platform := p.request.target.platform
  check (validFor step step.format && (adapter step.format).platform == platform &&
    ["aarch64", "x86_64"].contains step.architecture.value) invalid
  check (step.materials.length ≤ 4096 && step.materials.all fun m => absolutePath m.path platform) invalid
  let expected := expectedPhases intent step
  check ((intent == .install || step.upgrade == .deny) && (commands step).length == expected.length &&
    expected.all fun phase => (step.invocations phase).isSome) invalid
  (commands step).forM (invocation p l)
  check (contextAccepted platform (detectionContext step.detection)) invalid
  detectorAccepted p l step
  check (match step.format with
    | .bundle manifest _ =>
      manifest.platform == platform && manifest.architecture == step.architecture && !manifest.entries.entries.isEmpty &&
        manifest.entries.entries.length ≤ 4096
    | _ => true) invalid

def softwareAction : SoftwareOperation → String
  | .install => "software.install"
  | .uninstall => "software.uninstall"
  | .detect => "software.detect"

def software (p : ExecutionInput) (l : ExecutionLimits) : Checked :=
  match p.execution with
  | .softwareProgram program => do
    check (!program.steps.isEmpty && program.steps.length ≤ 32 &&
      p.launch.interpreter.profile.id.value == "native-software-sequence" &&
      p.request.operation.action.value == softwareAction program.intent && p.request.parameters.entries.isEmpty) invalid
    program.steps.forM (stepAccepted p l program.intent)
  | .process => processAction p

def validatePlan (p : ExecutionInput) (l : ExecutionLimits) : Checked := do
  validateContext p l
  software p l
  network p

theorem validatePlan_process {p : ExecutionInput} (process : p.execution = .process) (l : ExecutionLimits) :
    validatePlan p l = validateProcess p l := by
  unfold validatePlan validateProcess software
  rw [process]

end Programs

end RssMdmAgent.PlanValidation
