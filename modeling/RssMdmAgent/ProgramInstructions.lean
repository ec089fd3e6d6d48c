import Mathlib.Data.Finset.Card
import Mathlib.Data.List.Sort
import Mathlib.Data.List.Dedup
import Mathlib.Data.String.Basic
import RssMdmAgent.ContractProcess

set_option autoImplicit false

/-! # Ordered software instructions -/

namespace RssMdmAgent.ProgramInstructions
open ContractIdentity ContractProcess

inductive Platform where
  | windows
  | macos
  | linux
  deriving DecidableEq, Repr

structure OsAccountRef where
  platform : Platform
  subject : Identifier
  deriving DecidableEq, Repr

inductive RunAs where
  | user (account : OsAccountRef)
  | system (platform : Platform)
  deriving DecidableEq, Repr

inductive SessionRequirement where
  | notRequired
  | activeUser (account : OsAccountRef) (session : Identifier)
  deriving DecidableEq, Repr

inductive StandardInput where
  | empty
  | controlled (maxBytes : Nat)
  deriving DecidableEq, Repr

structure LaunchSpec where
  profile : Identifier
  stdin : StandardInput
  deriving DecidableEq, Repr

inductive SoftwareOperation where
  | install
  | detect
  | uninstall
  deriving DecidableEq, Repr

structure SoftwareExitCodes where
  success : Finset Int
  reboot : Finset Int
  deriving DecidableEq

structure SoftwareInvocation where
  launch : LaunchSpec
  runAs : RunAs
  sessionRequirement : SessionRequirement
  timeoutMs : Nat
  outputBytes : Nat
  exitCodes : SoftwareExitCodes
  deriving DecidableEq

inductive SoftwareDetectionFailure where
  | unavailable
  | unrecognizedVersion
  | budgetExceeded
  deriving DecidableEq, Repr

inductive SoftwareState where
  | absent
  | present (version : PackageValue)
  | unknown (reason : SoftwareDetectionFailure)
  deriving DecidableEq, Repr

def SoftwareState.isPresent : SoftwareState → Bool
  | .present _ => true
  | _ => false

def SoftwareState.isUnknown : SoftwareState → Bool
  | .unknown _ => true
  | _ => false

inductive SoftwareDetector where
  | msiProduct (productCode : String) (version : PackageValue) (runAs : RunAs)
      (sessionRequirement : SessionRequirement)
  | pkgReceipt (receipt : String) (version : PackageValue) (runAs : RunAs)
      (sessionRequirement : SessionRequirement)
  | script (invocation : SoftwareInvocation)
  deriving DecidableEq

def SoftwareDetector.context : SoftwareDetector → RunAs × SessionRequirement
  | .msiProduct _ _ runAs session | .pkgReceipt _ _ runAs session => (runAs, session)
  | .script invocation => (invocation.runAs, invocation.sessionRequirement)

inductive SoftwareKind where
  | msi
  | exe
  | msix
  | dmgApp
  | dmgPkg
  | winget
  | pkg
  | homebrew
  | windowsBundle
  | macosBundle
  deriving DecidableEq, Repr

def SoftwareKind.platform : SoftwareKind → Platform
  | .msi | .exe | .msix | .winget | .windowsBundle => .windows
  | .pkg | .dmgApp | .dmgPkg | .homebrew | .macosBundle => .macos

inductive SoftwareFormat where
  | msi
  | pkg
  | winget (exportIdentity : Identifier)
  | homebrew (exportIdentity : Identifier)
  | bundle (platform : Platform)
  | exe
  | msix
  | dmgApp (targetName : String)
  | dmgPkg
  deriving DecidableEq, Repr

def SoftwareFormat.adapter : SoftwareFormat → SoftwareKind
  | .msi => .msi
  | .pkg => .pkg
  | .winget _ => .winget
  | .homebrew _ => .homebrew
  | .bundle .windows => .windowsBundle
  | .bundle .macos | .bundle .linux => .macosBundle
  | .exe => .exe
  | .msix => .msix
  | .dmgApp _ => .dmgApp
  | .dmgPkg => .dmgPkg

inductive SoftwareUpgrade where
  | inPlace
  | uninstallThenInstall
  | deny
  deriving DecidableEq, Repr

/-- One physical invocation inside the original intent. -/
inductive SoftwarePhase where
  | before
  | mutation
  | removal
  | removalAfter
  | upgrade
  | prepare
  | attach
  | stage
  | cleanup
  | after
  deriving DecidableEq, Repr

def SoftwarePhase.all : List SoftwarePhase :=
  [.before, .mutation, .removal, .removalAfter, .upgrade, .prepare, .attach, .stage, .cleanup,
    .after]

def SoftwarePhase.isObservation : SoftwarePhase → Bool
  | .before | .removalAfter | .after => true
  | _ => false

/-- One executable step; the invocation map is keyed by the ten phases. -/
structure SoftwareProgramStep where
  format : SoftwareFormat
  package : PackageValue
  version : PackageValue
  architecture : PackageValue
  upgrade : SoftwareUpgrade
  invocations : SoftwarePhase → Option SoftwareInvocation
  detection : SoftwareDetector
  allowDowngrade : Bool
  allowReboot : Bool

def SoftwareProgramStep.hasInvocation (step : SoftwareProgramStep) (phase : SoftwarePhase) : Bool :=
  (step.invocations phase).isSome

structure SoftwareProgram where
  definitionDigest : Digest
  intent : SoftwareOperation
  steps : List SoftwareProgramStep

/-- Exact immutable invocation inputs of one phase. -/
def SoftwareProgram.invocation (program : SoftwareProgram) (step : Nat) (phase : SoftwarePhase) :
    Option SoftwareInvocation :=
  match program.steps[step]? with
  | none => none
  | some step =>
    if phase.isObservation then
      match step.detection with
      | .script invocation => some invocation
      | _ => none
    else step.invocations phase

def SoftwareProgram.satisfied (program : SoftwareProgram) (step : SoftwareProgramStep)
    (state : SoftwareState) : Bool :=
  match program.intent with
  | .install => state == .present step.version
  | .uninstall => state == .absent
  | .detect => !state.isUnknown

/-- Physical operations derived from the frozen format, the intent and the state before. -/
def SoftwareProgram.mutationPhases (program : SoftwareProgram) (step : SoftwareProgramStep)
    (before : SoftwareState) : List SoftwarePhase :=
  if program.intent == .detect || before.isUnknown then []
  else
    let updating := program.intent == .install && before.isPresent
    if updating && step.upgrade == .deny then []
    else
      (if step.hasInvocation .prepare then [.prepare] else []) ++
      (if step.hasInvocation .attach && program.intent == .install then
        .attach :: (if step.hasInvocation .stage then [.stage] else []) else []) ++
      (if updating && step.upgrade == .uninstallThenInstall then [.removal, .removalAfter]
        else []) ++
      [if updating && step.upgrade == .inPlace then .upgrade else .mutation] ++
      (if step.hasInvocation .cleanup then [.cleanup] else [])

/-- The phase may acquire resources that only the frozen cleanup can close. -/
def SoftwareProgram.acquiresResources (program : SoftwareProgram) (step : Nat)
    (phase : SoftwarePhase) : Bool :=
  phase == .attach || phase == .prepare ||
    (phase == .mutation && program.intent == .uninstall &&
      match program.steps[step]? with
      | none => false
      | some s =>
        match s.format with
        | .dmgApp _ => s.hasInvocation .cleanup
        | _ => false)

/-- Approved exits, without inferring installation, quiescence or reboot authority. -/
def SoftwareInvocation.succeeded (command : SoftwareInvocation) (facts : ProcessEvidence)
    (allowReboot : Bool) : Bool :=
  facts.processEnd == .exited && facts.failureKind == .none &&
    match facts.exitCode with
    | none => false
    | some code =>
      decide (code ∈ command.exitCodes.success) ||
        (allowReboot && decide (code ∈ command.exitCodes.reboot))

/-- Unicode case folding and the hexadecimal digest of a (subject, name) pair. -/
class ResourceNaming where
  toLowercase : String → String
  digestHex : Option String × String → String

def macosApplicationResource [ResourceNaming] (subject : Option String) (name : String) : String :=
  "macos-app:" ++ ResourceNaming.digestHex (subject, ResourceNaming.toLowercase name)

def managerKey : SoftwareKind → String
  | .msi | .exe | .winget => "manager-windows-installers"
  | .pkg | .dmgPkg => "manager-macos-installer"
  | .homebrew => "manager-homebrew"
  | .msix => "manager-windows-package-deployment"
  | .dmgApp => "manager-macos-applications"
  | .windowsBundle | .macosBundle => "manager-rss-bundle"

def SoftwareProgramStep.lockKey [ResourceNaming] (step : SoftwareProgramStep) : String :=
  match step.format with
  | .dmgApp targetName =>
    macosApplicationResource
      (match step.detection.context.1 with
        | .user account => some account.subject.value
        | .system _ => none)
      targetName
  | format => managerKey format.adapter

def SoftwareProgram.lockKeys [ResourceNaming] (program : SoftwareProgram) : List String :=
  if program.intent == .detect then []
  else ((program.steps.map SoftwareProgramStep.lockKey).dedup).insertionSort (· ≤ ·)

end RssMdmAgent.ProgramInstructions
