import RssMdmAgent.KeyedTable
import RssMdmAgent.JournalModel

set_option autoImplicit false

/-! # Tables of the execution journal and the parts that every write shares -/

namespace RssMdmAgent.JournalStore
open ContractIdentity ContractProcess ContractPlan ProgressHistory ApplicationModel
open LifecycleModel LifecycleState JournalModel KeyedTable
open InteractionModel (Reference)

/-- The bounded obligations that an execution can still record: bits 1, 2, 4, 8 and 16. -/
structure TerminalReserve where
  cancel : Bool
  uncertainty : Bool
  termination : Bool
  initialAssessment : Bool
  finalAssessment : Bool
  deriving DecidableEq, Repr

def TerminalReserve.full : TerminalReserve := ⟨true, true, true, true, true⟩

def TerminalReserve.released : TerminalReserve := ⟨false, false, false, false, false⟩

def TerminalReserve.count (r : TerminalReserve) : Nat :=
  r.cancel.toNat + r.uncertainty.toNat + r.termination.toNat + r.initialAssessment.toNat +
    r.finalAssessment.toNat

structure ExecutionRow where
  plan : FrozenExecution
  snapshot : Snapshot
  revision : Nat
  reserve : TerminalReserve

structure InteractionRow where
  scope : Scope
  snapshot : InteractionModel.Snapshot
  revision : Nat
  reserve : Nat

structure ReceiptRow where
  receipt : Receipt
  intent : Intent
  audit : AuditRecord
  deriving DecidableEq

structure Consumption where
  scope : Scope
  operation : OperationRequestId
  deriving DecidableEq, Repr

structure Confirmation where
  scope : Scope
  consumer : Identifier
  sequence : Nat
  deriving DecidableEq, Repr

structure BackendRow where
  scope : Scope
  record : BackendTasks.BackendRequest
  deriving DecidableEq

structure Tables where
  authority : Authority
  watermark : Nat
  executions : Table Scope ExecutionRow
  receipts : List ReceiptRow
  eventKeys : EventId → Option Consumption
  attempts : AttemptId → Option Consumption
  interactions : Table Reference InteractionRow
  interactionKeys : Reference → Option Consumption
  confirmations : List Confirmation
  processEvidence : AttemptId → Option ProcessEvidence
  claims : String → Option AttemptId
  progress : AttemptId → Option SoftwareProgress
  backendRequests : List BackendRow

def Tables.empty (authority : Authority) : Tables where
  authority := authority
  watermark := 0
  executions := ∅
  receipts := []
  eventKeys _ := none
  attempts _ := none
  interactions := ∅
  interactionKeys _ := none
  confirmations := []
  processEvidence _ := none
  claims _ := none
  progress _ := none
  backendRequests := []

/-- One open handle on the tables. -/
structure Store where
  authority : Authority
  installationOwner : Bool
  limits : StoreLimits
  materialSafety : Nat
  tables : Tables

inductive CommitResult where
  | committed
  | unknownDurable
  | unknownLost
  deriving DecidableEq, Repr

structure Environment where
  host : JournalHost
  startFault : Option JournalError
  fault : Option JournalError
  commit : CommitResult

def guarded (ok : Bool) (error : JournalError) : Except JournalError Unit :=
  if ok then .ok () else .error error

def raised (fault : Option JournalError) : Except JournalError Unit :=
  match fault with
  | none => .ok ()
  | some error => .error error

def integer (value : Nat) : Except JournalError Unit := guarded (value ≤ maxSigned) .capacity

def JournalHost.allows (host : JournalHost) (access : Access) (scope : Scope)
    (consumer : Option Identifier) : Except JournalError Unit :=
  host.authorize ⟨access, scope, consumer, none⟩

def JournalHost.allowsReplay (host : JournalHost) (access : Access) (scope : Scope) :
    Except JournalError Unit :=
  match JournalHost.allows host access scope none with
  | .error .denied => JournalHost.allows host .readResult scope none
  | result => result

section Start

def Store.checkScope (s : Store) (scope : Scope) : Except JournalError Unit :=
  guarded (scope.authority == s.authority ||
    (s.installationOwner && !Authority.isTest scope.authority)) .denied

def Store.ensureCurrent (s : Store) : Except JournalError Unit :=
  guarded (s.tables.authority == s.authority) .denied

def Tables.receiptOf (t : Tables) (op : OperationRequestId) : Option ReceiptRow :=
  t.receipts.find? fun row => row.receipt.operationId == op

structure Write where
  op : OperationRequestId
  intent : Intent
  now : Nat

inductive Start where
  | replay (receipt : Receipt)
  | new (w : Write)

/-- The checks before a new write: a known operation is answered by its receipt. -/
def Store.knownReceipt (s : Store) (host : JournalHost) (op : OperationRequestId) (intent : Intent)
    (access : Access) : Except JournalError (Option Receipt) := do
  s.checkScope intent.scope
  s.ensureCurrent
  match s.tables.receiptOf op with
  | some row => do
    JournalHost.allowsReplay host access intent.scope
    guarded (row.intent == intent) .conflict
    return some row.receipt
  | none => do
    JournalHost.allows host access intent.scope none
    return none

def unsafeChange (t : Tables) (scope : Scope) : Bool :=
  match t.executions.lookup scope with
  | none => true
  | some row => row.snapshot.attempt.all fun a => a.termination.isSome || a.assessment.isSome

def Store.raisedSafety (s : Store) (scope : Scope) : Except JournalError Nat :=
  if unsafeChange s.tables scope then
    match BoundedArithmetic.checkedAdd s.materialSafety 1 with
    | none => .error .capacity
    | some safety => .ok safety
  else .ok s.materialSafety

def Store.startTime (s : Store) (host : JournalHost) : Except JournalError Nat := do
  let now ← host.reliableNow
  guarded (s.tables.watermark ≤ now) .clock
  integer now
  return now

/-- The start of a write, with the safety counter of the handle, which no error takes back. -/
def Store.start (s : Store) (env : Environment) (op : OperationRequestId) (intent : Intent)
    (access : Access) : Nat × Except JournalError Start :=
  match (do raised env.startFault; s.knownReceipt env.host op intent access) with
  | .error error => (s.materialSafety, .error error)
  | .ok (some receipt) => (s.materialSafety, .ok (.replay receipt))
  | .ok none =>
    match s.raisedSafety intent.scope with
    | .error error => (s.materialSafety, .error error)
    | .ok safety => (safety, (s.startTime env.host).map fun now => .new ⟨op, intent, now⟩)

/-- The end of a transaction: an error rolls it back, a commit may lose its report. -/
def Store.commit {α : Type} (s : Store) (env : Environment) (unknown : JournalError)
    (result : Except JournalError (Tables × α)) : Store × Except JournalError α :=
  match (do raised env.fault; result) with
  | .error error => (s, .error error)
  | .ok (tables, reply) =>
    match env.commit with
    | .committed => ({ s with tables := tables }, .ok reply)
    | .unknownDurable => ({ s with tables := tables }, .error unknown)
    | .unknownLost => (s, .error unknown)

/-- One recorded operation: replayed, refused, or performed and committed. -/
def Store.perform (s : Store) (env : Environment) (op : OperationRequestId) (intent : Intent)
    (access : Access) (body : Write → Except JournalError (Tables × CommitOutcome)) :
    Store × Except JournalError CommitOutcome :=
  match s.start env op intent access with
  | (safety, .error error) => ({ s with materialSafety := safety }, .error error)
  | (safety, .ok (.replay receipt)) =>
    ({ s with materialSafety := safety }, .ok (.alreadyCommitted receipt))
  | (safety, .ok (.new w)) =>
    Store.commit { s with materialSafety := safety } env .operationCommitUnknown (body w)

end Start

section Recording

def Write.refreshTime (w : Write) (host : JournalHost) : Except JournalError Write := do
  let now ← host.refreshedNow
  guarded (w.now ≤ now) .clock
  integer now
  return { w with now := now }

def Tables.reserved (t : Tables) : Nat :=
  Table.total (fun row => TerminalReserve.count row.reserve) t.executions +
    Table.total InteractionRow.reserve t.interactions

def Tables.recorded (t : Tables) (row : ReceiptRow) (now : Nat) : Tables :=
  { t with receipts := t.receipts ++ [row], watermark := now }

def ensureCapacity (limits : StoreLimits) (t : Tables) : Except JournalError Unit :=
  guarded (t.receipts.length + t.reserved + 1 ≤ limits.maxReceipts) .capacity

def admissionStatus (outcome : Outcome) (allowed : Bool) : AdmissionStatus :=
  if allowed && outcome == .changed then .admitted else .denied

def Write.receipt (w : Write) (t : Tables) (outcome : Outcome) (revision : Nat)
    (audit : AuditRecord) : Receipt where
  sequence := t.receipts.length + 1
  eventId := ⟨w.op, w.intent⟩
  operationId := w.op
  scope := w.intent.scope
  kind := w.intent.kind
  outcome := outcome
  admission := audit.admission.map (admissionStatus outcome)
  revision := revision
  attemptId := audit.attemptId
  occurredAtUnixMs := w.now

def boundedSnapshot (limits : StoreLimits) (snapshot : Snapshot) : Except JournalError Unit :=
  guarded (snapshot.toJson.size ≤ limits.maxRecordBytes) .capacity

def loadState (limits : StoreLimits) (row : ExecutionRow) : Except JournalError Execution :=
  match restore row.plan row.snapshot limits.lifecycle with
  | .error _ => .error .corrupt
  | .ok state => do
    guarded (state.snapshot.revision == row.revision) .corrupt
    return state

def readProgress (t : Tables) (attempt : AttemptId) :
    Except JournalError (Option SoftwareProgress) :=
  match t.progress attempt with
  | none => .ok none
  | some p => if p.attemptId = attempt then .ok (some p) else .error .corrupt

variable [RecordEncoding]

def bounded (limits : StoreLimits) (record : JournalRecord) : Except JournalError Unit :=
  guarded (RecordEncoding.size record ≤ limits.maxRecordBytes) .capacity

/-- The receipt, its audit and the clock watermark are written. -/
def Write.prepare (w : Write) (limits : StoreLimits) (t : Tables) (outcome : Outcome)
    (revision : Nat) (audit : AuditRecord) : Except JournalError (Tables × Receipt) := do
  ensureCapacity limits t
  let receipt := w.receipt t outcome revision audit
  let audit := { audit with event := { audit.event with eventId := some receipt.eventId } }
  guarded (!t.receipts.any fun row => row.receipt.operationId == w.op ||
    row.receipt.eventId == receipt.eventId) .conflict
  guarded (RecordEncoding.eventAccepted limits.input audit.event) .capacity
  bounded limits (.receipt receipt)
  bounded limits (.audit audit)
  return (t.recorded ⟨receipt, w.intent, audit⟩ w.now, receipt)

def Write.finish (w : Write) (limits : StoreLimits) (t : Tables) (outcome : Outcome)
    (revision : Nat) (audit : AuditRecord) : Except JournalError (Tables × CommitOutcome) := do
  let (t, receipt) ← w.prepare limits t outcome revision audit
  return (t, .applied receipt none)

def inputAccepted (limits : StoreLimits) (spec : ExecutionInput) : Bool :=
  decide (RecordEncoding.size (.input spec) ≤ limits.input.maxInputBytes) &&
    RecordEncoding.documentAccepted limits.input spec &&
    (freezable spec limits.input).toOption.isSome

def loadPlan (limits : StoreLimits) (t : Tables) (scope : Scope) :
    Except JournalError ExecutionRow :=
  match t.executions.lookup scope with
  | none => .error .notFound
  | some row => do
    guarded (inputAccepted limits row.plan.spec && Scope.ofInput row.plan == scope) .corrupt
    return row

def loadExecution (limits : StoreLimits) (t : Tables) (scope : Scope) :
    Except JournalError (ExecutionRow × Execution) := do
  let row ← loadPlan limits t scope
  let state ← loadState limits row
  return (row, state)

end Recording

end RssMdmAgent.JournalStore
