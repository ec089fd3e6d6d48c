import RssMdmAgent.PlanValidation
import RssMdmAgent.JsonText

set_option autoImplicit false

/-! # Freezing, decoding and storing plans -/

namespace RssMdmAgent.PlanFreezing
open ContractIdentity JsonValue JsonCodec JsonText NetworkHosts PlanModel PlanCodec PlanValidation
open ProgramInstructions (Platform RunAs SoftwareOperation SoftwarePhase ResourceNaming macosApplicationResource managerKey)
open ContractPlan (ExecutionLimits maxSafeInteger)

/-! ## Canonical environments -/

def insertEntry (name : EnvironmentKey) (value : InputValue) : List (EnvironmentKey × InputValue) → List (EnvironmentKey × InputValue)
  | [] => [(name, value)]
  | entry :: rest =>
    if name.value < entry.1.value then (name, value) :: entry :: rest
    else if name.value = entry.1.value then (name, value) :: rest
    else entry :: insertEntry name value rest

theorem mem_insertEntry {name : EnvironmentKey} {value : InputValue} {entries : List (EnvironmentKey × InputValue)}
    {e : EnvironmentKey × InputValue} (mem : e ∈ insertEntry name value entries) : e = (name, value) ∨ e ∈ entries := by
  induction entries with
  | nil => exact .inl (List.mem_singleton.mp mem)
  | cons entry rest ih =>
    unfold insertEntry at mem
    split at mem
    · exact List.mem_cons.mp mem
    · split at mem
      · exact (List.mem_cons.mp mem).imp_right (List.mem_cons_of_mem entry)
      · rcases List.mem_cons.mp mem with rfl | mem
        · exact .inr List.mem_cons_self
        · exact (ih mem).imp_right (List.mem_cons_of_mem entry)

def Ascending (entries : List (EnvironmentKey × InputValue)) : Prop := (entries.map fun e => e.1.value).Pairwise (· < ·)

theorem insertEntry_ascending (name : EnvironmentKey) (value : InputValue) {entries : List (EnvironmentKey × InputValue)}
    (ascending : Ascending entries) : Ascending (insertEntry name value entries) := by
  induction entries with
  | nil => exact List.pairwise_singleton _ _
  | cons entry rest ih =>
    obtain ⟨first, later⟩ := List.pairwise_cons.mp ascending
    unfold insertEntry
    split
    · next before =>
      refine List.pairwise_cons.mpr ⟨fun other mem => ?_, ascending⟩
      rcases List.mem_cons.mp mem with rfl | mem
      · exact before
      · exact lt_trans before (first other mem)
    next after =>
    split
    · next same =>
      refine List.pairwise_cons.mpr ⟨fun other mem => ?_, later⟩
      change name.value < other
      rw [same]
      exact first other mem
    · next other =>
      refine List.pairwise_cons.mpr ⟨fun key mem => ?_, ih later⟩
      obtain ⟨e, found, rfl⟩ := List.mem_map.mp mem
      rcases mem_insertEntry found with rfl | kept
      · exact lt_of_le_of_ne (not_lt.mp after) (Ne.symm other)
      · exact first _ (List.mem_map_of_mem kept)

def collect : List (EnvironmentKey × InputValue) → Environment → Environment
  | [], map => map
  | (name, value) :: rest, map => collect rest ⟨insertEntry name value map.entries, insertEntry_ascending name value map.ascending⟩

def canonicalEnvironment (platform : Platform) (env : Environment) : Environment :=
  collect (env.entries.map fun e => (canonicalFor platform e.1, e.2)) ⟨[], .nil⟩

def canonicalLaunch (platform : Platform) (launch : LaunchSpec) : LaunchSpec :=
  { launch with env := canonicalEnvironment platform launch.env }

/-! ## Exclusive resources -/

def lockKey [ResourceNaming] (step : SoftwareProgramStep) : String :=
  match step.format with
  | .dmgApp _ _ _ _ targetName =>
    macosApplicationResource
      (match (detectionContext step.detection).1 with
        | .user account => some account.subject.value
        | .system _ => none)
      targetName
  | format => managerKey (adapter format)

def lockKeys [ResourceNaming] (program : SoftwareProgram) : List String :=
  if program.intent = .detect then [] else ((program.steps.map lockKey).dedup).insertionSort (· ≤ ·)

def invalidResource : ContractError := ⟨.invalidValue, .document, .syntaxRule⟩

def validResource (key : String) : Bool :=
  !key.toList.isEmpty && key.utf8ByteSize ≤ 128 && key.toList.all fun b => b.isLower || b.isDigit || ['-', ':', '.'].contains b

def insertResource (keys : List String) : Value → Except ContractError (List String)
  | .text key =>
    if !validResource key then .error invalidResource else if keys.contains key then .ok keys else .ok (keys ++ [key])
  | _ => .error invalidResource

def declaredResources (keys : List String) : Option InputValue → Except ContractError (List String)
  | none => .ok keys
  | some (.literal ⟨.array values, _⟩) => if values.length ≤ 8 then values.foldlM insertResource keys else .error invalidResource
  | some _ => .error invalidResource

section Freezing
variable [HostParser] [ResourceNaming]

def exclusiveResourceKeys (spec : ExecutionInput) : Except ContractError (List String) := do
  let keys :=
    match spec.execution with
    | .softwareProgram program => lockKeys program
    | .process => []
  let keys ← declaredResources keys (spec.request.parameters.entries.lookup "exclusive-resources")
  return keys.insertionSort (· ≤ ·)

structure FrozenExecution where
  spec : ExecutionInput
  digest : Digest

def canonicalInput (spec : ExecutionInput) : ExecutionInput :=
  { spec with launch := canonicalLaunch spec.request.target.platform spec.launch }

def dynamicValues (spec : ExecutionInput) : List InputValue :=
  spec.request.parameters.entries.map Prod.snd ++ spec.launch.env.entries.map Prod.snd

def checkLiteral (l : ExecutionLimits) : InputValue → Checked
  | .literal value => checkJson value.1 l
  | .secret _ => .ok ()

def malformed : ContractError := ⟨.encoding, .document, .syntaxRule⟩

def readInput (text : Serialization) (bytes : String) : Except ContractError ExecutionInput :=
  match ((text.fromSlice bytes).bind Value.unique).bind executionInput.read with
  | none => .error malformed
  | some spec => .ok spec

/-- Validate and normalise the whole plan, then bind its canonical bytes to a digest. `digestOf` is the SHA-256 of the digest domain
and the bytes. -/
def freeze (text : Serialization) (digestOf : String → Digest) (spec : ExecutionInput) (l : ExecutionLimits) :
    Except ContractError FrozenExecution := do
  validatePlan spec l
  let spec := canonicalInput spec
  (dynamicValues spec).forM (checkLiteral l)
  let value := executionInput.write spec
  checkJson value l
  let bytes := text.canonical value
  check (bytes.utf8ByteSize ≤ l.maxInputBytes) ⟨.limitExceeded, .inputBytes, .byteLimit⟩
  let digest := digestOf bytes
  let spec ← readInput text bytes
  let _ ← exclusiveResourceKeys spec
  return ⟨spec, digest⟩

/-- Bounded strict decoding, then validation. One diagnostic stands for those of the reader. -/
def decodeValue (text : Serialization) (bytes : String) (l : ExecutionLimits) : Except ContractError Value := do
  validateLimits l
  check (bytes.utf8ByteSize ≤ l.maxInputBytes) ⟨.limitExceeded, .inputBytes, .byteLimit⟩
  match (text.fromSlice bytes).bind Value.unique with
  | none => .error malformed
  | some value => do
    checkJson value l
    return value

def decodeExecution (text : Serialization) (bytes : String) (l : ExecutionLimits) : Except ContractError ExecutionInput := do
  let value ← decodeValue text bytes l
  match executionInput.read value with
  | none => .error malformed
  | some spec => do
    validatePlan spec l
    return spec

/-! ## The store -/

structure Scope where
  authority : ContractPlan.Authority
  actor : ActorId
  requestId : RequestId
  deriving DecidableEq

def Scope.fromInput (plan : FrozenExecution) : Scope :=
  ⟨plan.spec.request.authority, plan.spec.request.actor, plan.spec.request.requestId⟩

inductive StoreError where
  | corrupt
  | capacity
  | notFound
  deriving DecidableEq

structure ExecutionRow where
  plan : String
  digest : String
  deriving DecidableEq

/-- The row that is inserted for a plan: it is validated once more under the bounds of the store. -/
def storedRow (text : Serialization) (fingerprint : Digest → String) (plan : FrozenExecution) (l : ExecutionLimits) :
    Except StoreError ExecutionRow :=
  let bytes := text.toVec (executionInput.write plan.spec)
  if l.maxInputBytes < bytes.utf8ByteSize then .error .capacity
  else
    match decodeExecution text bytes l with
    | .error _ => .error .capacity
    | .ok _ => .ok ⟨bytes, fingerprint plan.digest⟩

/-- The plan of the row under a scope. -/
def loadPlan (text : Serialization) (digestOf : String → Digest) (fingerprint : Digest → String) (executions : Scope → Option ExecutionRow)
    (scope : Scope) (l : ExecutionLimits) : Except StoreError FrozenExecution :=
  match executions scope with
  | none => .error .notFound
  | some row =>
    if l.maxInputBytes < row.plan.utf8ByteSize then .error .corrupt
    else
      match decodeExecution text row.plan l with
      | .error _ => .error .corrupt
      | .ok spec =>
        match freeze text digestOf spec l with
        | .error _ => .error .corrupt
        | .ok plan => if fingerprint plan.digest ≠ row.digest ∨ Scope.fromInput plan ≠ scope then .error .corrupt else .ok plan

end Freezing

end RssMdmAgent.PlanFreezing
