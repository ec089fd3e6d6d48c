import RssMdmAgent.BoundedJson

set_option autoImplicit false

/-! # Records of an AI session -/

namespace RssMdmAgent.SessionRecords
open BoundedJson

abbrev Id := String

structure Namespace where
  tenantId : Id
  principalId : Id
  authorityId : Id
  sessionId : Id
  deriving DecidableEq, Repr

inductive ErrorCode where
  | invalidInput
  | unsupportedVersion
  | unsupportedCapability
  | permissionDenied
  | contentConflict
  | revisionConflict
  | staleBinding
  | expired
  | unavailable
  | reconciliationRequired
  | limitExceeded
  | cursorExpired
  | sessionGone
  | alreadyAnswered
  | storageCorrupt
  | connectionSwitchPending
  | connectionRequired
  | authenticationRequired
  | contextUnavailable
  | verificationCancelled
  | verificationRefused
  deriving DecidableEq, Repr

inductive Retry where
  | sameCommand
  | reconcileFirst
  | never
  deriving DecidableEq, Repr

structure Failure where
  code : ErrorCode
  retry : Retry
  deriving DecidableEq, Repr

/-! ## Sessions -/

structure ConfigRef where
  id : Id
  revision : Id
  deriving DecidableEq, Repr

/-- One live provider incarnation; the run and request coordinates follow its latest turn. -/
structure Binding where
  provider : Id
  providerVersion : Id
  adapterVersion : Id
  generation : Id
  nativeSessionId : Id
  config : ConfigRef
  nativeRunId : Option Id
  nativeRequestId : Option Id
  workspaceId : Id
  nativeThreadId : Option Id
  deriving DecidableEq, Repr

inductive Continuation where
  | sameProcess
  | acrossProcesses
  | unsupported
  | unknown
  deriving DecidableEq, Repr

inductive Cancellation where
  | requestOnly
  | terminalAcknowledged
  | unsupported
  | unknown
  deriving DecidableEq, Repr

inductive ToolSupport where
  | hostMediated
  | providerManaged
  | disabled
  | unknown
  deriving DecidableEq, Repr

inductive CapabilityState where
  | supported
  | unsupported
  | unknown
  deriving DecidableEq, Repr

structure Capabilities where
  continuation : Continuation
  cancellation : Cancellation
  tools : ToolSupport
  steer : CapabilityState
  fork : CapabilityState
  subagent : CapabilityState
  terminal : CapabilityState
  structuredQuestion : CapabilityState
  multimodal : CapabilityState
  deriving DecidableEq, Repr

structure ContextStage where
  stageId : Id
  connectionId : Id
  configRevision : Nat
  binding : Binding
  capabilities : Capabilities
  deriving DecidableEq, Repr

inductive SessionStatus where
  | active
  | recoveryRequired
  | retired
  deriving DecidableEq, Repr

structure Session where
  scope : Namespace
  revision : Nat
  lastSequence : Nat
  status : SessionStatus
  selectedConnectionId : Option Id
  currentStageId : Option Id
  stages : List ContextStage
  freshContext : Bool
  presentation : Option JsonMembers
  deriving DecidableEq, Repr

/-! ## Commands -/

structure HistoryPreview where
  sessionId : Id
  connectionId : Id
  configRevision : Nat
  throughSequence : Nat
  commandIds : List Id
  text : String
  contentHash : Id
  messageIds : List Id
  deriving DecidableEq, Repr

structure SurfaceReference where
  instanceId : Id
  revision : Nat
  deriving DecidableEq, Repr

inductive Policy where
  | queueNext
  | steer
  deriving DecidableEq, Repr

inductive Input where
  | prompt (text : String) (policy : Policy) (targetRunId : Option Id) (history : Option HistoryPreview)
  | cancel (targetCommandId generation : Id) (nativeRunId : Option Id)
  | respond (interactionId generation : Id) (nativeRunId : Option Id) (answer : JsonMembers)
      (surface : Option SurfaceReference)
  deriving DecidableEq, Repr

def Input.isPrompt : Input → Bool
  | .prompt .. => true
  | _ => false

def Input.isQueueNext : Input → Bool
  | .prompt _ .queueNext _ _ => true
  | _ => false

structure Command where
  sessionId : Id
  commandId : Id
  expiresAtMs : Nat
  input : Input
  deriving DecidableEq, Repr

structure Receipt where
  scope : Namespace
  commandId : Id
  contentHash : String
  acceptedAtMs : Nat
  retryUntilMs : Nat
  receiptUntilMs : Nat
  acceptedRevision : Nat
  stageId : Id
  deriving DecidableEq, Repr

inductive Certainty where
  | intent
  | submitted
  | unknown
  deriving DecidableEq, Repr

structure DispatchAttempt where
  nativeSessionId : Id
  nativeRunId : Option Id
  nativeRequestId : Option Id
  certainty : Certainty
  attemptId : Id
  originGeneration : Id
  observerGeneration : Id
  correlationId : Option Id
  nativeThreadId : Option Id
  deriving DecidableEq, Repr

inductive Outcome where
  | completed
  | cancelled
  | refused
  | maxTokens
  | maxTurnRequests
  | failed
  deriving DecidableEq, Repr

inductive CancelConfirmation where
  | requestOnly
  | alreadyTerminal
  deriving DecidableEq, Repr

inductive Acknowledgement where
  | cancel (confirmation : CancelConfirmation)
  | respond
  | steer
  deriving DecidableEq, Repr

inductive StateName where
  | accepted
  | dispatching
  | running
  | terminal
  | reconciliationRequired
  | invalidated
  | cancelled
  | acknowledged
  deriving DecidableEq, Repr

/-- The state of a command with the fields that its variant carries. -/
inductive CommandState where
  | accepted
  | dispatching (dispatch : DispatchAttempt)
  | running (dispatch : DispatchAttempt)
  | terminal (dispatch : DispatchAttempt) (outcome : Outcome)
  | reconciliationRequired (dispatch : DispatchAttempt)
  | invalidated (failure : Failure)
  | cancelled (cancelledBy : Id)
  | acknowledged (dispatch : DispatchAttempt) (acknowledgement : Acknowledgement)
  | queuedCancelled (targetCommandId : Id)
  deriving DecidableEq, Repr

def CommandState.name : CommandState → StateName
  | .accepted => .accepted
  | .dispatching _ => .dispatching
  | .running _ => .running
  | .terminal _ _ => .terminal
  | .reconciliationRequired _ => .reconciliationRequired
  | .invalidated _ => .invalidated
  | .cancelled _ => .cancelled
  | .acknowledged _ _ | .queuedCancelled _ => .acknowledged

def CommandState.dispatch : CommandState → Option DispatchAttempt
  | .dispatching dispatch | .running dispatch | .terminal dispatch _ | .reconciliationRequired dispatch
  | .acknowledged dispatch _ => some dispatch
  | .accepted | .invalidated _ | .cancelled _ | .queuedCancelled _ => none

structure CommandRecord where
  command : Command
  receipt : Receipt
  state : CommandState
  deriving DecidableEq, Repr

def CommandRecord.commandId (c : CommandRecord) : Id := c.command.commandId

def CommandRecord.dispatch (c : CommandRecord) : Option DispatchAttempt := c.state.dispatch

def isSettled (c : CommandRecord) : Bool :=
  [.terminal, .invalidated, .acknowledged, .cancelled].contains c.state.name

/-! ## Interactions, surfaces and deliveries -/

inductive InteractionStatus where
  | pending
  | answered (responseCommandId : Id)
  | expired
  | unavailable
  deriving DecidableEq, Repr

/-- A live-generation callback that asks one ordinary question. -/
structure Interaction where
  scope : Namespace
  interactionId : Id
  commandId : Id
  generation : Id
  nativeRunId : Option Id
  expiresAtMs : Nat
  status : InteractionStatus
  nativeCallbackId : Id
  request : JsonMembers
  deriving DecidableEq, Repr

inductive SurfaceStatus where
  | active
  | deleted
  | invalidated
  deriving DecidableEq, Repr

structure SurfaceState where
  scope : Namespace
  generation : Id
  nativeRunId : Id
  surfaceId : Id
  surfaceInstanceId : Id
  revision : Nat
  interactionId : Id
  sourceComponentId : Id
  eventName : Id
  catalogId : Id
  catalogVersion : Id
  status : SurfaceStatus
  messages : List JsonMembers
  deriving DecidableEq, Repr

inductive DeliveryRetry where
  | receiverIdempotent
  | reconcileFirst
  | never
  deriving DecidableEq, Repr

inductive DeliveryStatus where
  | pending
  | delivered
  | receiptRecorded
  | reconciliationRequired
  deriving DecidableEq, Repr

structure Delivery where
  scope : Namespace
  operationId : Id
  eventId : Id
  target : Id
  contentHash : String
  retry : DeliveryRetry
  status : DeliveryStatus
  attempts : Nat
  nextAttemptAtMs : Nat
  deriving DecidableEq, Repr

/-! ## Events -/

inductive DispatchConfirmation where
  | requestOnly
  | alreadyTerminal
  | unsupported
  deriving DecidableEq, Repr

inductive Disposition where
  | returned
  | rejected
  | unavailable
  deriving DecidableEq, Repr

inductive ActiveState where
  | dispatching
  | running
  | reconciliationRequired
  deriving DecidableEq, Repr

def ActiveState.name : ActiveState → StateName
  | .dispatching => .dispatching
  | .running => .running
  | .reconciliationRequired => .reconciliationRequired

inductive Resolution where
  | running
  | terminal
  | notSubmitted
  | unknown
  | submitted
  | acknowledged
  deriving DecidableEq, Repr

inductive EventBody where
  | text (messageId : Id) (text : String)
  | commandAccepted (command : Command)
  | status (state : ActiveState)
  | terminal (outcome : Outcome)
  | cancelDispatched (confirmation : DispatchConfirmation)
  | toolProposal (proposalId name : Id) (arguments : JsonMembers)
  | toolResult (proposalId : Id) (disposition : Disposition) (text : String)
  | interactionPending (interactionId : Id) (request : JsonMembers) (expiresAtMs : Nat)
  | interactionAnswered (interactionId responseCommandId : Id)
  | interactionExpired (interactionId : Id)
  | interactionUnavailable (interactionId : Id)
  | error (failure : Failure)
  | invalidated (failure : Failure)
  | dispatch (attempt : DispatchAttempt)
  | reconciled (attempt : DispatchAttempt) (resolution : Resolution)
  | surface (surface : SurfaceState)
  | sessionRebound (previousGeneration : Id)
  | sessionRetired
  | acknowledged (acknowledgement : Acknowledgement)
  | cancelled (cancelledBy : Id)
  | sessionRecoveryUnavailable
  | queuedCancelled (targetCommandId : Id)
  | deliveryRequested (operationId target name : Id) (arguments : JsonMembers)
  | deliveryRecorded (operationId target : Id) (contentHash : String) (receiptRef : Id)
  deriving DecidableEq, Repr

structure Event where
  scope : Namespace
  eventId : Id
  sequence : Nat
  generation : Id
  commandId : Option Id
  attemptId : Option Id
  body : EventBody
  deriving DecidableEq, Repr

/-! ## Provider replies -/

/-- What a live provider reports about a question it asks. -/
structure ProviderInteraction where
  interactionId : Id
  nativeCallbackId : Id
  expiresAtMs : Nat
  request : JsonMembers
  deriving DecidableEq, Repr

/-- Observations that are no resolution of the attempt. -/
inductive Observation where
  | delta (messageId : Id) (text : String)
  | event (body : EventBody)
  | interaction (interaction : ProviderInteraction)
  | interactionUnavailable (interactionId : Id)
  deriving DecidableEq, Repr

inductive ReconciliationStatus where
  | running
  | submitted
  | unknown (correlationId : Option Id)
  | terminal (outcome : Outcome)
  | notSubmitted (error : Option Failure)
  | acknowledged (acknowledgement : Acknowledgement)
  | observed (observation : Observation)
  deriving DecidableEq, Repr

/-- The resolution that a fact other than an observation reports. -/
def ReconciliationStatus.resolution : ReconciliationStatus → Option Resolution
  | .running => some .running
  | .submitted => some .submitted
  | .unknown _ => some .unknown
  | .terminal _ => some .terminal
  | .notSubmitted _ => some .notSubmitted
  | .acknowledged _ => some .acknowledged
  | .observed _ => none

/-- Bound to the original attempt and the current observer. -/
structure Reconciliation where
  commandId : Id
  attemptId : Id
  binding : Binding
  status : ReconciliationStatus
  deriving DecidableEq, Repr

/-- The private evidence behind a fact that an admitted provider call minted. -/
structure ProviderEvidence where
  scope : Namespace
  binding : Binding
  record : CommandRecord
  observation : Reconciliation
  deriving DecidableEq, Repr

structure VerifiedProviderFact where
  commandId : Id
  evidence : Option ProviderEvidence
  deriving DecidableEq, Repr

end RssMdmAgent.SessionRecords
