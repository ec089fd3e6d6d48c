import RssMdmAgent.JournalOperations

set_option autoImplicit false

/-! # Projections of the journal: delivery evidence, task phases and reclaimable material -/

namespace RssMdmAgent.JournalDelivery
open ContractIdentity ContractProcess ContractPlan ProgressHistory ApplicationModel
open LifecycleModel LifecycleState JournalModel KeyedTable JournalStore JournalOperations

inductive DeliveryTerminal where
  | cancelled
  | neverDispatched
  deriving DecidableEq, Repr

/-- One unconfirmed receipt with the current facts of its execution. -/
structure DeliveryEvidence where
  receipt : Receipt
  input : FrozenExecution
  process : Option ProcessEvidence
  softwareProgress : Option SoftwareProgress
  currentAttempt : Option AttemptId
  terminal : Option DeliveryTerminal
  observedAtUnixMs : Nat

inductive TaskPhase where
  | waiting
  | admissionDenied
  | confirmationRequired
  | accepted
  | running
  | outcomeUnknown
  | executionEnded
  | verified
  | failedBeforeDispatch
  | cancelled
  deriving DecidableEq, Repr

structure ServiceMaterialFact where
  input : FrozenExecution
  reclaimable : Bool

def latestAdmission (t : Tables) (scope : Scope) : Option AdmissionStatus :=
  (t.receipts.filter (·.receipt.scope == scope)).reverse.findSome? (·.receipt.admission)

section Projections

def Snapshot.noEffect (s : Snapshot) : Bool :=
  s.attempt.any fun a => AttemptSnapshot.effectAssessment a == some .noEffect

def Snapshot.neverDispatched (s : Snapshot) : Bool :=
  s.attempt.any fun a => a.termination.any fun t => isNeverDispatched t.observation

def deliveryTerminal (s : Snapshot) (admission : Option AdmissionStatus) : Option DeliveryTerminal :=
  let denied := admission == some .denied
  if s.cancelRequested && (s.attempt.isNone || Snapshot.noEffect s) then some .cancelled
  else if Snapshot.neverDispatched s || (s.attempt.isNone && denied) then some .neverDispatched
  else none

def materialSettled (e : Execution) (admission : Option AdmissionStatus) : Bool :=
  let s := e.snapshot
  let assessment := s.attempt.bind AttemptSnapshot.effectAssessment
  (s.cancelRequested && (s.attempt.isNone || assessment == some .noEffect)) ||
    (e.phase == .cancelled || e.phase == .failedBeforeDispatch) ||
    (e.phase == .verified && (assessment == some .satisfied || assessment == some .noEffect)) ||
    (s.attempt.isNone && admission == some .denied)

/-- The phase of a task; a pending confirmation shows only before any admission decision. -/
def taskPhase (e : Execution) (admission : Option AdmissionStatus) (confirmationPending : Bool) :
    TaskPhase :=
  let s := e.snapshot
  let assessment := s.attempt.bind AttemptSnapshot.effectAssessment
  let phase :=
    if s.cancelRequested && (s.attempt.isNone || assessment == some .noEffect) then .cancelled
    else
      match e.phase with
      | .received | .prepared | .waiting =>
        if admission = some .denied then .admissionDenied else .waiting
      | .starting => .accepted
      | .running => .running
      | .outcomeUnknown => .outcomeUnknown
      | .executionEnded => .executionEnded
      | .verified => if assessment = some .unknown then .outcomeUnknown else .verified
      | .failedBeforeDispatch => .failedBeforeDispatch
      | .cancelled => .cancelled
  if s.attempt.isNone && !s.cancelRequested && admission.isNone && confirmationPending then
    .confirmationRequired
  else phase

end Projections

section Reads

/-- The stored software and process facts of the current attempt belong to its plan. -/
def currentEvidence (limits : StoreLimits) (t : Tables) (plan : FrozenExecution) (s : Snapshot) :
    Except JournalError (Option SoftwareProgress × Option ProcessEvidence) :=
  match s.attempt with
  | none => .ok (none, none)
  | some a => do
    let progress ← readProgress t a.id
    guarded (progress.all fun p => p.validFor plan) .corrupt
    let process ← readCapture limits t a.id
    guarded (process.all fun p => p.contentDigest == plan.digest) .corrupt
    return (progress, process)

def unconfirmed (t : Tables) (scope : Scope) (consumer : Identifier) : List Receipt :=
  (t.receipts.map (·.receipt)).filter fun r =>
    r.scope == scope && !t.confirmations.contains ⟨scope, consumer, r.sequence⟩

variable [RecordEncoding]

/-- Unconfirmed receipts with their evidence, in one read transaction. -/
def deliveryEvidence (s : Store) (host : JournalHost) (maxBatch : Nat) (scope : Scope)
    (consumer : Identifier) (limit : Nat) : Except JournalError (List DeliveryEvidence) := do
  guarded (limit != 0 && decide (limit ≤ maxBatch)) .invalidInput
  JournalHost.allows host .runnerFact scope none
  s.checkScope scope
  JournalHost.allows host .deliver scope (some consumer)
  s.ensureCurrent
  let (row, execution) ← loadExecution s.limits s.tables scope
  let (progress, process) ← currentEvidence s.limits s.tables row.plan execution.snapshot
  let terminal := deliveryTerminal execution.snapshot (latestAdmission s.tables scope)
  return ((unconfirmed s.tables scope consumer).take limit).map fun receipt =>
    { receipt := receipt
      input := row.plan
      process := process
      softwareProgress := progress
      currentAttempt := execution.snapshot.attempt.map (·.id)
      terminal := terminal
      observedAtUnixMs := execution.snapshot.updatedAtUnixMs }

/-- The material of one stored execution and whether it may be reclaimed. -/
def materialFactRow (s : Store) (host : JournalHost) (consumer : Identifier) (scope : Scope) :
    Except JournalError ServiceMaterialFact := do
  let row ← loadPlan s.limits s.tables scope
  s.checkScope scope
  JournalHost.allows host .runnerFact scope none
  JournalHost.allows host .deliver scope (some consumer)
  let execution ← loadState s.limits row
  let admission := latestAdmission s.tables scope
  let _ ← currentEvidence s.limits s.tables row.plan execution.snapshot
  let pending := !(unconfirmed s.tables scope consumer).isEmpty
  return ⟨row.plan, materialSettled execution admission && !pending⟩

def materialFact (s : Store) (host : JournalHost) (request : RequestId) (consumer : Identifier) :
    Except JournalError ServiceMaterialFact := do
  s.ensureCurrent
  match s.tables.executions.entries.find? fun e => e.2.plan.spec.request.requestId == request with
  | none => .error .notFound
  | some e => materialFactRow s host consumer e.1

end Reads

end RssMdmAgent.JournalDelivery
