import RssMdmAgent.BoundedArithmetic
import RssMdmAgent.JsonDocument
import RssMdmAgent.ContractPlan

set_option autoImplicit false

/-! # Lifecycle facts, commands and their stored form -/

namespace RssMdmAgent.LifecycleModel
open JsonDocument ContractIdentity ContractPlan

structure VersionedRef where
  id : Identifier
  revision : Identifier
  deriving DecidableEq, Repr

inductive EvidenceKind where
  | testResult
  | processExited
  | stateObserved
  deriving DecidableEq, Repr

structure EvidenceRef where
  reference : VersionedRef
  kind : EvidenceKind
  runner : Identifier
  deriving DecidableEq, Repr

inductive ExecutionMode where
  | test
  | real
  deriving DecidableEq, Repr

inductive Preparation where
  | received
  | prepared
  | waiting
  deriving DecidableEq, Repr

inductive DispatchState where
  | starting
  | dispatched
  | unknown (dispatched : Bool)
  deriving DecidableEq, Repr

def DispatchState.wasDispatched : DispatchState → Bool
  | .dispatched | .unknown true => true
  | _ => false

def DispatchState.isUnknown : DispatchState → Bool
  | .unknown _ => true
  | _ => false

def DispatchState.uncertain (d : DispatchState) : DispatchState := .unknown d.wasDispatched

inductive EffectAssessment where
  | noEffect
  | satisfied
  | notSatisfied
  | unknown
  deriving DecidableEq, Repr

inductive Observation where
  | exited (exitCode : Int) (totalOutputBytes : Nat)
  | neverDispatched (totalOutputBytes : Nat)
  | quiescent
  | effect (assessment : EffectAssessment)
  | uncertain
  deriving DecidableEq, Repr

/-- Verified facts, as the observation port returns them. -/
structure ObservationFacts where
  requestId : RequestId
  contentDigest : Digest
  attemptId : AttemptId
  evidence : EvidenceRef
  observedAtUnixMs : Nat
  observation : Observation
  deriving DecidableEq, Repr

inductive ObservationError where
  | untrusted
  | unavailable
  deriving DecidableEq, Repr

abbrev ObservationVerifier :=
  FrozenExecution → AttemptId → EvidenceRef → Nat → Except ObservationError ObservationFacts

structure RecordedObservation where
  evidence : EvidenceRef
  observedAtUnixMs : Nat
  observation : Observation
  deriving DecidableEq, Repr

inductive LimitReason where
  | notYetValid
  | expired
  | timeout
  | output
  | attempts
  deriving DecidableEq, Repr

inductive DispatchCause where
  | clockUnavailable
  | cancelled
  | limit (reason : LimitReason)
  | staleRevision
  | runnerMismatch
  | authorityUnavailable
  | lifecycleChanged
  | runnerRejected
  | deliveryUnknown
  | runnerError
  deriving DecidableEq, Repr

inductive StopOutcome where
  | acknowledged
  | failed
  deriving DecidableEq, Repr

structure AttemptSnapshot where
  id : AttemptId
  number : Nat
  acceptedAtUnixMs : Nat
  runner : Identifier
  mode : ExecutionMode
  dispatch : DispatchState
  dispatchCause : Option DispatchCause
  stopOutcome : Option StopOutcome
  termination : Option RecordedObservation
  assessment : Option RecordedObservation
  outputBytes : Nat
  deriving DecidableEq, Repr

/-- Host commands; none of them performs I/O or grants dispatch. -/
inductive Command where
  | prepare
  | wait
  | beginAttempt (attemptId : AttemptId) (runner : Identifier) (mode : ExecutionMode)
  | dispatched (attemptId : AttemptId)
  | dispatchUnconfirmed (attemptId : AttemptId) (cause : DispatchCause)
  | stopReported (attemptId : AttemptId) (outcome : StopOutcome)
  | cancel
  | recover
  | output (attemptId : AttemptId) (totalBytes : Nat)
  deriving DecidableEq, Repr

structure CommandEvent where
  id : EventId
  expectedRevision : Nat
  command : Command
  deriving DecidableEq, Repr

structure ObservationEvent where
  id : EventId
  expectedRevision : Nat
  attemptId : AttemptId
  evidence : EvidenceRef
  deriving DecidableEq, Repr

inductive EventRecord where
  | command (event : CommandEvent)
  | observation (event : ObservationEvent)
  deriving DecidableEq, Repr

def EventRecord.id : EventRecord → EventId
  | .command e => e.id
  | .observation e => e.id

def EventRecord.expectedRevision : EventRecord → Nat
  | .command e => e.expectedRevision
  | .observation e => e.expectedRevision

def snapshotVersion : Nat := 3

/-- The sole journal format of one execution. -/
structure Snapshot where
  version : Nat
  requestId : RequestId
  contentDigest : Digest
  openedAtUnixMs : Nat
  updatedAtUnixMs : Nat
  revision : Nat
  preparation : Preparation
  cancelRequested : Bool
  firstAttemptAtUnixMs : Option Nat
  attempts : Nat
  priorOutputBytes : Nat
  attempt : Option AttemptSnapshot
  lastEvent : Option EventRecord
  deriving DecidableEq, Repr

structure Limits where
  maxSnapshotBytes : Nat
  deriving DecidableEq, Repr

def minSnapshotBytes : Nat := 16384

inductive Phase where
  | received
  | prepared
  | waiting
  | starting
  | running
  | outcomeUnknown
  | executionEnded
  | verified
  | failedBeforeDispatch
  | cancelled
  deriving DecidableEq, Repr

inductive StopReason where
  | cancelled
  | limit (reason : LimitReason)
  deriving DecidableEq, Repr

/-- The derived next action, never a permit. -/
inductive Directive where
  | prepare
  | wait
  | ready
  | retryEligible
  | reconcile
  | stopRunner (reason : StopReason)
  | verifyTarget
  | manualReview
  | budgetExhausted (reason : LimitReason)
  | done
  deriving DecidableEq, Repr

inductive EventOutcome where
  | applied
  | duplicate
  | stale
  deriving DecidableEq, Repr

inductive LifecycleError where
  | configuration
  | snapshot
  | limit
  | clock
  | revision
  | idempotencyConflict
  | attempt
  | transition
  | observation
  | observationVerification (error : ObservationError)
  | accounting
  deriving DecidableEq, Repr

structure DispatchAllowance where
  deadlineUnixMs : Nat
  remainingTimeoutMs : Nat
  remainingOutputBytes : Nat
  deriving DecidableEq, Repr

section Encoding

def VersionedRef.toJson (r : VersionedRef) : Json :=
  .object [("id", .text r.id.value), ("revision", .text r.revision.value)]

def EvidenceKind.toJson : EvidenceKind → Json
  | .testResult => .text "testResult"
  | .processExited => .text "processExited"
  | .stateObserved => .text "stateObserved"

def EvidenceRef.toJson (e : EvidenceRef) : Json :=
  .object [("reference", e.reference.toJson), ("kind", e.kind.toJson),
    ("runner", .text e.runner.value)]

def ExecutionMode.toJson : ExecutionMode → Json
  | .test => .text "test"
  | .real => .text "real"

def Preparation.toJson : Preparation → Json
  | .received => .text "received"
  | .prepared => .text "prepared"
  | .waiting => .text "waiting"

def DispatchState.toJson : DispatchState → Json
  | .starting => .text "starting"
  | .dispatched => .text "dispatched"
  | .unknown was => .object [("unknown", .object [("dispatched", .bool was)])]

def EffectAssessment.toJson : EffectAssessment → Json
  | .noEffect => .text "noEffect"
  | .satisfied => .text "satisfied"
  | .notSatisfied => .text "notSatisfied"
  | .unknown => .text "unknown"

def Observation.toJson : Observation → Json
  | .exited exitCode bytes =>
    .object [("kind", .text "exited"), ("exitCode", .int exitCode), ("totalOutputBytes", .nat bytes)]
  | .neverDispatched bytes =>
    .object [("kind", .text "neverDispatched"), ("totalOutputBytes", .nat bytes)]
  | .quiescent => .object [("kind", .text "quiescent")]
  | .effect assessment =>
    .object [("kind", .text "effect"), ("assessment", assessment.toJson)]
  | .uncertain => .object [("kind", .text "uncertain")]

def RecordedObservation.toJson (o : RecordedObservation) : Json :=
  .object [("evidence", o.evidence.toJson), ("observedAtUnixMs", .nat o.observedAtUnixMs),
    ("observation", o.observation.toJson)]

def LimitReason.toJson : LimitReason → Json
  | .notYetValid => .text "notYetValid"
  | .expired => .text "expired"
  | .timeout => .text "timeout"
  | .output => .text "output"
  | .attempts => .text "attempts"

def DispatchCause.toJson : DispatchCause → Json
  | .clockUnavailable => .text "clockUnavailable"
  | .cancelled => .text "cancelled"
  | .limit reason => .object [("limit", reason.toJson)]
  | .staleRevision => .text "staleRevision"
  | .runnerMismatch => .text "runnerMismatch"
  | .authorityUnavailable => .text "authorityUnavailable"
  | .lifecycleChanged => .text "lifecycleChanged"
  | .runnerRejected => .text "runnerRejected"
  | .deliveryUnknown => .text "deliveryUnknown"
  | .runnerError => .text "runnerError"

def StopOutcome.toJson : StopOutcome → Json
  | .acknowledged => .text "acknowledged"
  | .failed => .text "failed"

def AttemptSnapshot.toJson (a : AttemptSnapshot) : Json :=
  .object [("id", .text a.id.value), ("number", .nat a.number),
    ("acceptedAtUnixMs", .nat a.acceptedAtUnixMs), ("runner", .text a.runner.value),
    ("mode", a.mode.toJson), ("dispatch", a.dispatch.toJson),
    ("dispatchCause", .option DispatchCause.toJson a.dispatchCause),
    ("stopOutcome", .option StopOutcome.toJson a.stopOutcome),
    ("termination", .option RecordedObservation.toJson a.termination),
    ("assessment", .option RecordedObservation.toJson a.assessment),
    ("outputBytes", .nat a.outputBytes)]

def Command.toJson : Command → Json
  | .prepare => .object [("kind", .text "prepare")]
  | .wait => .object [("kind", .text "wait")]
  | .beginAttempt attemptId runner mode =>
    .object [("kind", .text "beginAttempt"), ("attemptId", .text attemptId.value),
      ("runner", .text runner.value), ("mode", mode.toJson)]
  | .dispatched attemptId =>
    .object [("kind", .text "dispatched"), ("attemptId", .text attemptId.value)]
  | .dispatchUnconfirmed attemptId cause =>
    .object [("kind", .text "dispatchUnconfirmed"), ("attemptId", .text attemptId.value),
      ("cause", cause.toJson)]
  | .stopReported attemptId outcome =>
    .object [("kind", .text "stopReported"), ("attemptId", .text attemptId.value),
      ("outcome", outcome.toJson)]
  | .cancel => .object [("kind", .text "cancel")]
  | .recover => .object [("kind", .text "recover")]
  | .output attemptId totalBytes =>
    .object [("kind", .text "output"), ("attemptId", .text attemptId.value),
      ("totalBytes", .nat totalBytes)]

def EventRecord.toJson : EventRecord → Json
  | .command e =>
    .object [("kind", .text "command"),
      ("event", .object [("id", .text e.id.value), ("expectedRevision", .nat e.expectedRevision),
        ("command", e.command.toJson)])]
  | .observation e =>
    .object [("kind", .text "observation"),
      ("event", .object [("id", .text e.id.value), ("expectedRevision", .nat e.expectedRevision),
        ("attemptId", .text e.attemptId.value), ("evidence", e.evidence.toJson)])]

def Snapshot.toJson (s : Snapshot) : Json :=
  .object [("version", .nat s.version), ("requestId", .text s.requestId.value),
    ("contentDigest", .text s.contentDigest.value), ("openedAtUnixMs", .nat s.openedAtUnixMs),
    ("updatedAtUnixMs", .nat s.updatedAtUnixMs), ("revision", .nat s.revision),
    ("preparation", s.preparation.toJson), ("cancelRequested", .bool s.cancelRequested),
    ("firstAttemptAtUnixMs", .option Json.nat s.firstAttemptAtUnixMs),
    ("attempts", .nat s.attempts), ("priorOutputBytes", .nat s.priorOutputBytes),
    ("attempt", .option AttemptSnapshot.toJson s.attempt),
    ("lastEvent", .option EventRecord.toJson s.lastEvent)]

end Encoding

end RssMdmAgent.LifecycleModel
