import Mathlib.Data.Fintype.Pi
import RssMdmAgent.PlanShape
import RssMdmAgent.ProgressHistory
import RssMdmAgent.BackendTasks
import RssMdmAgent.ApplicationModel
import RssMdmAgent.InteractionState
import RssMdmAgent.LifecycleState

set_option autoImplicit false

/-! # Scopes, receipts and audits of the execution journal

A canonical digest is represented by the content that it digests; `JournalNaming` supplies its
textual form where the code compares texts. -/

namespace RssMdmAgent.JournalModel
open ContractIdentity ContractProcess ProgramInstructions ContractPlan PlanShape ProgressHistory
open ApplicationModel LifecycleModel
open InteractionModel (Reference Spec)

instance : Fintype SoftwarePhase := ⟨⟨SoftwarePhase.all, all_nodup⟩, mem_all⟩

deriving instance DecidableEq for SoftwareProgramStep
deriving instance DecidableEq for SoftwareProgram
deriving instance DecidableEq for ExecutionSpec
deriving instance DecidableEq for ExecutionInput

abbrev OperationRequestId := Identifier

structure Scope where
  authority : Authority
  actor : ActorId
  requestId : RequestId
  deriving DecidableEq, Repr

def Scope.ofInput (plan : FrozenExecution) : Scope :=
  ⟨plan.spec.request.authority, plan.spec.request.actor, plan.spec.request.requestId⟩

/-- The hexadecimal digest of a scope. -/
class JournalNaming where
  interactionSubject : Scope → Reference

inductive Access where
  | create
  | execute
  | runnerFact
  | interact
  | readResult
  | readAudit
  | deliver
  deriving DecidableEq, Repr

structure AccessRequest where
  access : Access
  scope : Scope
  consumer : Option Identifier
  interaction : Option (Spec × InteractionModel.Command)
  deriving DecidableEq

inductive AdmissionStatus where
  | admitted
  | denied
  deriving DecidableEq, Repr

inductive ExecutionGate where
  | direct
  | confirmation
  | blocked
  deriving DecidableEq, Repr

structure AdmissionGate where
  executionGate : ExecutionGate
  validUntilUnixMs : Nat
  deriving DecidableEq, Repr

structure JournalHost where
  authorize : AccessRequest → Except JournalError Unit
  reliableNow : Except JournalError Nat
  refreshedNow : Except JournalError Nat
  admits : FrozenExecution → AttemptId → Nat → Except JournalError AdmissionGate

inductive OperationKind where
  | openExecution
  | execution
  | openInteraction
  | interaction
  deriving DecidableEq, Repr

inductive Outcome where
  | changed
  | duplicate
  | stale
  | late
  | notDue
  | answered
  | cancelled
  | expired
  | rejected
  deriving DecidableEq, Repr

inductive IntentContent where
  | openExecution (spec : ExecutionInput)
  | execution (event : EventRecord)
  | openInteraction (spec : Spec)
  | interaction (id : Reference) (command : InteractionModel.Command)
  deriving DecidableEq

structure Intent where
  scope : Scope
  kind : OperationKind
  content : IntentContent
  deriving DecidableEq

structure ReceiptEvent where
  operationId : OperationRequestId
  intent : Intent
  deriving DecidableEq

structure Receipt where
  sequence : Nat
  eventId : ReceiptEvent
  operationId : OperationRequestId
  scope : Scope
  kind : OperationKind
  outcome : Outcome
  admission : Option AdmissionStatus
  revision : Nat
  attemptId : Option AttemptId
  occurredAtUnixMs : Nat
  deriving DecidableEq

inductive AuditReason where
  | executionOpened
  | executionEvent
  | admissionEvaluated
  | commitGateRejected
  | lifecycleError (error : LifecycleError)
  | lifecycle (directive : Directive)
  | interactionOpened
  | interactionError (error : InteractionModel.InteractionError)
  | interaction (outcome : InteractionModel.Outcome)
  deriving DecidableEq, Repr

inductive Decision where
  | proposed
  | denied
  | admitted
  | observed (attemptId : AttemptId) (evidence : List EvidenceRef)
  deriving DecidableEq, Repr

structure AuditEvent where
  eventId : Option ReceiptEvent
  authority : Authority
  requestId : RequestId
  contentDigest : Digest
  actor : ActorId
  decision : Decision
  occurredAtUnixMs : Nat
  deriving DecidableEq

structure AuditRecord where
  stopOutcome : Option StopOutcome
  event : AuditEvent
  attemptId : Option AttemptId
  dispatchCause : Option DispatchCause
  reason : AuditReason
  admission : Option Bool
  deriving DecidableEq

def planAudit (plan : FrozenExecution) (decision : Decision) (reason : AuditReason) (now : Nat) :
    AuditRecord where
  stopOutcome := none
  event :=
    { eventId := none
      authority := plan.spec.request.authority
      requestId := plan.spec.request.requestId
      contentDigest := plan.digest
      actor := plan.spec.request.actor
      decision := decision
      occurredAtUnixMs := now }
  attemptId := none
  dispatchCause := none
  reason := reason
  admission := none

def AuditRecord.occurredAt (audit : AuditRecord) (now : Nat) : AuditRecord :=
  { audit with event := { audit.event with occurredAtUnixMs := now } }

def AuditRecord.decide (audit : AuditRecord) (decision : Decision) : AuditRecord :=
  { audit with event := { audit.event with decision := decision } }

/-- First-delivery action, released only by the commit of a begin command. -/
structure DispatchAction where
  requestId : RequestId
  contentDigest : Digest
  attemptId : AttemptId
  runner : Identifier
  mode : ExecutionMode
  committedRevision : Nat
  deriving DecidableEq, Repr

inductive CommitOutcome where
  | applied (receipt : Receipt) (firstDispatch : Option DispatchAction)
  | alreadyCommitted (receipt : Receipt)
  deriving DecidableEq

def CommitOutcome.receipt : CommitOutcome → Receipt
  | .applied receipt _ | .alreadyCommitted receipt => receipt

def CommitOutcome.firstDispatch : CommitOutcome → Option DispatchAction
  | .applied _ action => action
  | .alreadyCommitted _ => none

/-- The records whose encoded size is bounded by the store. -/
inductive JournalRecord where
  | input (spec : ExecutionInput)
  | receipt (receipt : Receipt)
  | audit (audit : AuditRecord)
  | progress (progress : SoftwareProgress)
  | process (evidence : ProcessEvidence)
  | backendRequest (request : BackendTasks.BackendRequest)

/-- The serializer of records and the structural limits of documents. -/
class RecordEncoding where
  size : JournalRecord → Nat
  documentAccepted : ExecutionLimits → ExecutionInput → Bool
  eventAccepted : ExecutionLimits → AuditEvent → Bool

/-- Explicit resource bounds of a store. -/
structure StoreLimits where
  input : ExecutionLimits
  lifecycle : LifecycleModel.Limits
  interaction : InteractionModel.Limits
  maxRecordBytes : Nat
  maxReceipts : Nat
  maxConsumers : Nat
  deriving DecidableEq

def maxSigned : Nat := 2 ^ 63 - 1

def StoreLimits.validate (l : StoreLimits) : Except JournalError Unit :=
  if l.maxReceipts < 8 ∨ maxSigned < l.maxReceipts ∨ l.maxConsumers = 0 ∨ 128 < l.maxConsumers ∨
      l.maxRecordBytes < 65536 ∨ 16 * 1024 * 1024 < l.maxRecordBytes ∨
      l.lifecycle.maxSnapshotBytes < minSnapshotBytes ∨
      l.maxRecordBytes < l.lifecycle.maxSnapshotBytes ∨ l.interaction.maxSnapshotBytes = 0 ∨
      l.maxRecordBytes < l.interaction.maxSnapshotBytes ∨ l.interaction.maxLifetimeMs = 0 ∨
      l.maxRecordBytes < l.input.maxInputBytes then .error .configuration
  else .ok ()

theorem alphanum_of_hex {b : Char} (h : (b.isDigit || ('a' ≤ b && b ≤ 'f')) = true) :
    b.isAlphanum = true := by
  simp only [Bool.or_eq_true, Bool.and_eq_true, decide_eq_true_eq] at h
  rcases h with digit | ⟨low, high⟩
  · simp [Char.isAlphanum, digit]
  · have low : (97 : Nat) ≤ b.toNat := low
    have high : b.toNat ≤ 102 := high
    apply (isAlphanum_iff b).mpr
    omega

theorem validReference_digest {start : String} (digest : Digest)
    (chars : start.toList.all fun b => b.isAlphanum || ['-', '_', '.', ':'].contains b)
    (short : start.utf8ByteSize ≤ 64) :
    InteractionModel.validReference (start ++ digest.value) = true := by
  have valid := digest.valid
  unfold validDigest at valid
  simp only [Bool.and_eq_true, beq_iff_eq, List.all_eq_true] at valid
  unfold InteractionModel.validReference
  rw [String.utf8ByteSize_append, String.toList_append, List.all_append, chars]
  simp only [valid.1, Bool.true_and, Bool.and_eq_true, decide_eq_true_eq, List.all_eq_true]
  refine ⟨⟨by omega, by omega⟩, fun b mem => ?_⟩
  rw [alphanum_of_hex (valid.2 b mem), Bool.true_or]

def digestReference (digest : Digest) : Reference :=
  ⟨"" ++ digest.value, validReference_digest digest (by decide) (by decide)⟩

def executionConfirmation [JournalNaming] (plan : FrozenExecution) : Spec where
  id := ⟨"execute-" ++ plan.digest.value, validReference_digest plan.digest (by decide) (by decide)⟩
  subject := JournalNaming.interactionSubject (.ofInput plan)
  kind := .executionAction (digestReference plan.digest)
  expiresAtUnixMs := min plan.spec.validity.expiresAtUnixMs
    (BoundedArithmetic.saturatingAdd plan.spec.validity.notBeforeUnixMs 60000)

end RssMdmAgent.JournalModel
