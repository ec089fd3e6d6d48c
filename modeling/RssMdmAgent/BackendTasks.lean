import RssMdmAgent.BoundedArithmetic
import RssMdmAgent.ProgramInstructions
import RssMdmAgent.LifecycleModel

set_option autoImplicit false

/-! # Preparation records of backend tasks

Content that is only stored and compared is represented by its canonical JSON text. -/

namespace RssMdmAgent.BackendTasks
open BoundedArithmetic ContractIdentity ProgramInstructions LifecycleModel

abbrev Content := String

/-- Exact displayed backend offer. -/
structure BackendTask where
  task : Identifier
  attempt : Identifier
  revision : Digest
  request : RequestId
  presentation : Content
  /-- Seconds, possibly before the epoch. -/
  expiresAt : Int
  userInitiated : Bool
  deriving DecidableEq, Repr

inductive RiskLevel where
  | zero
  | one
  | two
  | three
  deriving DecidableEq, Repr

inductive RiskSource where
  | policy (policy : VersionedRef)
  | software (definition : Digest)
  deriving DecidableEq, Repr

structure ExecutionRisk where
  level : RiskLevel
  source : RiskSource
  expiresAtUnixMs : Nat
  deriving DecidableEq, Repr

structure OsSessionRef where
  device : DeviceId
  account : OsAccountRef
  session : Identifier
  deriving DecidableEq, Repr

structure NativeContextRef where
  id : Identifier
  generation : Identifier
  deriving DecidableEq, Repr

inductive BackendTrigger where
  | automatic
  | human (osSession : OsSessionRef)
  | ai (context : NativeContextRef) (osSession : OsSessionRef) (config : VersionedRef)
      (conversation toolCall : Identifier)
  deriving DecidableEq, Repr

inductive PolicyAccess where
  | device
  | user (sessionBinding : NativeContextRef)
  deriving DecidableEq, Repr

structure PolicyChoice where
  request : RequestId
  policyId : Identifier
  parameters : Content
  deriving DecidableEq, Repr

structure SoftwareReadChoice where
  request : RequestId
  input : Content
  deriving DecidableEq, Repr

/-- One preparation, before or after a signed offer has arrived. -/
inductive PreparedAction where
  | event (request : RequestId) (input entryNamespace : Content) (receipt : Option Content)
      (batch : Option Identifier) (expiresAtUnixMs : Nat)
  | softwareRead (choice : SoftwareReadChoice) (definition : Digest) (expiresAtUnixMs : Nat)
      (observation : Option Content)
  | offered (offer : BackendTask)
  | policy (address : Option Content) (definition : VersionedRef) (policyRevision : Nat)
      (choice : PolicyChoice) (task presentation : Content) (runId : Option Identifier)
      (offer : Option BackendTask) (access : PolicyAccess) (expiresAtUnixMs : Nat)
  deriving DecidableEq, Repr

def PreparedAction.request : PreparedAction → RequestId
  | .event request _ _ _ _ _ => request
  | .softwareRead choice _ _ _ => choice.request
  | .offered offer => offer.request
  | .policy _ _ _ choice _ _ _ _ _ _ => choice.request

def PreparedAction.offer : PreparedAction → Option BackendTask
  | .event _ _ _ _ _ _ | .softwareRead _ _ _ _ => none
  | .offered offer => some offer
  | .policy _ _ _ _ _ _ _ offer _ _ => offer

/-- The action without what may still be appended to it. -/
def PreparedAction.choice : PreparedAction → PreparedAction
  | .event request input entryNamespace _ _ expires =>
    .event request input entryNamespace none none expires
  | .softwareRead choice definition expires _ => .softwareRead choice definition expires none
  | .offered offer => .offered offer
  | .policy address definition revision choice task presentation _ _ access expires =>
    .policy address definition revision choice task presentation none none access expires

def preserved {α : Type} [DecidableEq α] (old new : Option α) : Bool :=
  old.all fun value => new = some value

/-- The same immutable choice; only acceptance and an eventual offer may be appended. -/
def PreparedAction.sameChoice (self other : PreparedAction) : Bool :=
  self.choice = other.choice &&
    match self, other with
    | .event _ _ _ old oldBatch _, .event _ _ _ new batch _ =>
      preserved oldBatch batch && preserved old new
    | .softwareRead _ _ _ old, .softwareRead _ _ _ new => preserved old new
    | .policy _ _ _ _ _ _ oldRun oldOffer _ _, .policy _ _ _ _ _ _ run offer _ _ =>
      preserved oldRun run && preserved oldOffer offer &&
        offer.all fun offer => run = some offer.task
    | _, _ => true

def PreparedAction.expiresAtUnixMs : PreparedAction → Nat
  | .event _ _ _ _ _ expires => expires
  | .softwareRead _ _ expires _ => expires
  | .offered offer => min (offer.expiresAt.toNat * 1000) maxWord
  | .policy _ _ _ _ _ _ _ _ _ expires => expires

def PreparedAction.observed : PreparedAction → Bool
  | .softwareRead _ _ _ observation => observation.isSome
  | .event _ _ _ receipt batch _ => receipt.isSome || batch.isSome
  | _ => false

structure BackendConfirmation where
  osSession : OsSessionRef
  confirmedAtUnixMs : Nat
  expiresAtUnixMs : Nat
  deriving DecidableEq, Repr

inductive BackendRequestState where
  | draft
  | observed
  | awaitingConfirmation
  | ready
  | submitting
  | failed
  | cancelled
  deriving DecidableEq, Repr

inductive BackendRequestFailure where
  | riskUnknown
  | riskBlocked
  | preparationFailed
  | interrupted
  | expired
  | revoked
  deriving DecidableEq, Repr

structure TaskRevision where
  owner : Nat
  transfers : List (String × Nat)
  deriving DecidableEq, Repr

/-- User intent kept in the journal before a frozen execution exists. -/
structure BackendRequest where
  retryOf : Option RequestId
  retryExpectedRevision : Option TaskRevision
  recordedAtUnixMs : Nat
  cancellationControl : Option Identifier
  cancellationExpectedRevision : Option TaskRevision
  action : PreparedAction
  trigger : BackendTrigger
  risk : Option ExecutionRisk
  confirmation : Option BackendConfirmation
  revision : Nat
  state : BackendRequestState
  failure : Option BackendRequestFailure
  deriving DecidableEq, Repr

/-- The only transition that changes parameters: an unsubmitted call is frozen. -/
def BackendRequest.preparesCall (self next : BackendRequest) : Bool :=
  (self.state == .draft || self.state == .awaitingConfirmation) && next.state == .ready &&
    match self.action, next.action with
    | .policy address definition revision choice _ _ none none access expires,
      .policy address' definition' revision' final task' presentation' none none access' expires' =>
      (self.state == .draft || choice.parameters == final.parameters) &&
        (PreparedAction.policy address definition revision
          { choice with parameters := final.parameters } task' presentation' none none access
          expires).sameChoice
          (.policy address' definition' revision' final task' presentation' none none access' expires')
    | _, _ => false

def BackendConfirmation.answers (answer : BackendConfirmation) (osSession : OsSessionRef)
    (risk : ExecutionRisk) (action : PreparedAction) : Bool :=
  answer.osSession == osSession && answer.confirmedAtUnixMs < answer.expiresAtUnixMs &&
    answer.expiresAtUnixMs ≤ saturatingAdd answer.confirmedAtUnixMs 60000 &&
    answer.expiresAtUnixMs ≤ risk.expiresAtUnixMs &&
    answer.expiresAtUnixMs ≤ PreparedAction.expiresAtUnixMs action

/-- The shape of the stored product gate. -/
def BackendRequest.validProductGate (r : BackendRequest) : Bool :=
  let terminal := r.state == .cancelled || r.state == .failed
  if r.state = .draft then
    (match r.action with
      | .policy _ _ _ _ _ _ none none _ _ => true
      | _ => false) &&
      (match r.trigger with
        | .ai _ _ _ _ _ => true
        | _ => false) &&
      r.confirmation.isNone &&
      r.risk.any fun risk => (risk.level == .one || risk.level == .two) && 0 < risk.expiresAtUnixMs
  else
    match r.trigger with
    | .human _ => r.risk.isNone && r.confirmation.isNone && r.state != .awaitingConfirmation
    | .automatic => false
    | .ai _ osSession _ _ _ =>
      match r.risk with
      | none => terminal && r.confirmation.isNone
      | some risk =>
        if risk.expiresAtUnixMs = 0 then false
        else
          match risk.level with
          | .one => r.confirmation.isNone && r.state != .awaitingConfirmation
          | .two =>
            match r.confirmation with
            | none => terminal || r.state == .awaitingConfirmation
            | some answer =>
              answer.answers osSession risk r.action && r.state != .awaitingConfirmation
          | .zero | .three => terminal && r.confirmation.isNone

section Transitions

/-- The states that one write may follow. -/
def nextStates : Option BackendRequestState → List BackendRequestState
  | none => [.draft, .awaitingConfirmation, .ready, .failed]
  | some .draft => [.ready, .cancelled, .failed]
  | some .awaitingConfirmation => [.ready, .cancelled, .failed]
  | some .ready => [.submitting, .cancelled, .failed]
  | some .submitting => [.submitting, .observed, .cancelled, .failed]
  | some .observed | some .cancelled | some .failed => []

def BackendRequest.diagnosed (r : BackendRequest) : Bool :=
  (r.state == .failed) == r.failure.isSome || r.state == .cancelled

end Transitions

end RssMdmAgent.BackendTasks
