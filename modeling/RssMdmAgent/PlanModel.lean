import RssMdmAgent.ContractPlan
import RssMdmAgent.JsonCodec
import RssMdmAgent.NetworkHosts

set_option autoImplicit false

/-! # Execution inputs with all their data -/

namespace RssMdmAgent.PlanModel
open ContractIdentity ProgramInstructions JsonValue JsonCodec NetworkHosts

def validEnvironmentKey (value : String) : Bool :=
  match value.toList with
  | [] => false
  | first :: rest =>
    value.utf8ByteSize ≤ 128 && !first.isDigit && (first :: rest).all fun b => b.isAlphanum || b == '_'

structure EnvironmentKey where
  value : String
  valid : validEnvironmentKey value = true
  deriving DecidableEq

structure VersionedRef where
  id : Identifier
  revision : Identifier
  deriving DecidableEq

structure OsSessionRef where
  device : DeviceId
  account : OsAccountRef
  session : Identifier

structure NativeContextRef where
  id : Identifier
  generation : Identifier

inductive BackendTrigger where
  | automatic
  | human (osSession : OsSessionRef)
  | ai (context : NativeContextRef) (osSession : OsSessionRef) (config : VersionedRef) (conversation toolCall : Identifier)

inductive Initiator where
  | backend (task attempt : Identifier) (trigger : BackendTrigger)
  | human (osSession : OsSessionRef)
  | ai (provider : Identifier) (osSession : OsSessionRef) (config : VersionedRef) (conversation toolCall : Identifier)
  | policy (policy : VersionedRef)

inductive TargetScope where
  | device
  | user (account : OsAccountRef)

structure Target where
  device : DeviceId
  platform : Platform
  scope : TargetScope

structure Operation where
  action : Identifier
  resource : VersionedRef

inductive InputValue where
  | literal (value : { v : Value // v.WellFormed })
  | secret (reference : VersionedRef)

structure ExecutionRequest where
  requestId : RequestId
  authority : ContractPlan.Authority
  actor : ActorId
  initiator : Initiator
  delegation : Option VersionedRef
  target : Target
  operation : Operation
  parameters : NameMap (id : String → String) InputValue

structure ExactArtifactRef where
  resource : VersionedRef
  sha256 : Digest
  deriving DecidableEq

structure InterpreterRef where
  artifact : ExactArtifactRef
  profile : VersionedRef

inductive LaunchArg where
  | literal (value : String)
  | artifactPath

inductive ArtifactEncoding where
  | utf8
  | utf8Bom
  | utf16LeBom
  deriving DecidableEq

inductive TextEncoding where
  | utf8
  | utf16Le
  deriving DecidableEq

inductive StandardInput where
  | closed
  | controlled (reference : VersionedRef) (encoding : TextEncoding) (maxBytes : BitVec 64)

inductive OutputFormat where
  | text
  | json (maxRows : BitVec 16)

structure OutputSpec where
  format : OutputFormat
  stdout : TextEncoding
  stderr : TextEncoding

abbrev Environment := NameMap EnvironmentKey.value InputValue

structure LaunchSpec where
  artifact : ExactArtifactRef
  interpreter : InterpreterRef
  argv : List LaunchArg
  artifactEncoding : ArtifactEncoding
  stdin : StandardInput
  output : OutputSpec
  cwd : String
  env : Environment

/-! ## Network destinations -/

inductive NetworkScheme where
  | http
  | https
  | tcp
  | udp
  deriving DecidableEq

structure NetworkDestination [HostParser] where
  scheme : NetworkScheme
  host : NetworkHost
  port : { n : BitVec 16 // n ≠ 0 }
  deriving DecidableEq

inductive NetworkAccess [HostParser] where
  | denied
  | allowlist (destinations : List NetworkDestination)

inductive IsolationPolicy [HostParser] where
  | osIdentity
  | restricted (network : NetworkAccess) (readPaths writePaths : List String) (allowChildProcesses requireSandbox : Bool)

structure ExecutionBudget where
  totalTimeoutMs : BitVec 64
  totalOutputBytes : BitVec 64
  maxAttempts : BitVec 32

structure ValidityWindow where
  notBeforeUnixMs : BitVec 64
  expiresAtUnixMs : BitVec 64

/-! ## Software programs -/

structure BundleLimits where
  archiveBytes : BitVec 64
  files : BitVec 32
  fileBytes : BitVec 64
  expandedBytes : BitVec 64
  depth : BitVec 32

structure BundleFile where
  length : BitVec 64
  sha256 : { bytes : List (BitVec 8) // bytes.length = 32 }

structure BundleManifest where
  platform : Platform
  architecture : PackageValue
  entries : NameMap (id : String → String) BundleFile

abbrev NativeVersion := { parts : List (BitVec 16) // parts.length = 4 }

structure MsixIdentity where
  name : PackageValue
  publisher : PackageValue
  version : NativeVersion
  architecture : PackageValue
  resourceId : String
  deriving DecidableEq

structure MsixMember where
  path : String
  identity : MsixIdentity
  length : BitVec 64
  sha256 : Digest

inductive MsixContainer where
  | package
  | bundle (members : List MsixMember)

inductive MsixDeployment where
  | targetUserRegistration
  | deviceProvisioning

inductive SoftwareSignature where
  | authenticode (artifact : ExactArtifactRef) (publisher : PackageValue)
  | appleDeveloperId (artifact : ExactArtifactRef) (publisher : PackageValue)
  | msix (artifact : ExactArtifactRef) (publisher : PackageValue)

inductive SoftwareFormat where
  | msi
  | pkg
  | winget (exportIdentity : Identifier)
  | homebrew (exportIdentity : Identifier)
  | bundle (manifest : BundleManifest) (limits : BundleLimits)
  | exe (layout : NameMap (id : String → String) ExactArtifactRef)
  | msix (container : MsixContainer) (identity : MsixIdentity) (dependencies : List MsixIdentity) (deployment : MsixDeployment)
      (minimumOs : NativeVersion) (requireSideload allowUnsigned : Bool)
  | dmgApp (volume : PackageValue) (path : String) (bundleId version : PackageValue) (targetName : String)
  | dmgPkg (volume : PackageValue) (path : String) (length : BitVec 64) (sha256 : Digest) (receipt : PackageValue)

abbrev ExitCode := { n : Int // -2 ^ 31 ≤ n ∧ n < 2 ^ 31 }

structure SoftwareExitCodes where
  success : AscendingSet ExitCode
  reboot : AscendingSet ExitCode

structure SoftwareInvocation where
  launch : LaunchSpec
  runAs : RunAs
  sessionRequirement : SessionRequirement
  timeoutMs : BitVec 64
  outputBytes : BitVec 64
  exitCodes : SoftwareExitCodes

inductive SoftwareDetector where
  | msiProduct (productCode : String) (version : PackageValue) (runAs : RunAs) (sessionRequirement : SessionRequirement)
  | pkgReceipt (receipt : String) (version : PackageValue) (runAs : RunAs) (sessionRequirement : SessionRequirement)
  | script (invocation : SoftwareInvocation)

structure SoftwareMaterial where
  path : String
  artifact : ExactArtifactRef

structure SoftwareProgramStep where
  format : SoftwareFormat
  package : PackageValue
  version : PackageValue
  architecture : PackageValue
  payload : ExactArtifactRef
  materials : List SoftwareMaterial
  signatures : List SoftwareSignature
  upgrade : SoftwareUpgrade
  invocations : SoftwarePhase → Option SoftwareInvocation
  detection : SoftwareDetector
  allowDowngrade : Bool
  allowReboot : Bool

structure SoftwareProgram where
  definitionDigest : Digest
  intent : SoftwareOperation
  steps : List SoftwareProgramStep

inductive ExecutionSpec where
  | softwareProgram (program : SoftwareProgram)
  | process

/-- The sole canonical description of an execution. -/
structure ExecutionInput [HostParser] where
  execution : ExecutionSpec
  request : ExecutionRequest
  launch : LaunchSpec
  runAs : RunAs
  sessionRequirement : SessionRequirement
  constraints : IsolationPolicy
  budget : ExecutionBudget
  validity : ValidityWindow
  policy : VersionedRef

end RssMdmAgent.PlanModel
