import RssMdmAgent.JournalStore

set_option autoImplicit false

/-! # Write operations of the execution journal -/

namespace RssMdmAgent.JournalOperations
open ContractIdentity ContractProcess ContractPlan ProgressHistory ApplicationModel
open LifecycleModel LifecycleState JournalModel KeyedTable JournalStore BackendTasks
open BoundedArithmetic (saturatingAdd)
open ProgramInstructions (ResourceNaming)
open InteractionModel (Reference Spec)
open InteractionState (Interaction)

section Resources

def insertClaim (attempt : AttemptId) (claims : String → Option AttemptId) (key : String) :
    Except JournalError (String → Option AttemptId) :=
  match claims key with
  | some holder => if holder = attempt then .ok claims else .error .busy
  | none => .ok (Function.update claims key (some attempt))

def claim [ResourceNaming] (claims : String → Option AttemptId) (plan : FrozenExecution) (attempt : AttemptId) :
    Except JournalError (String → Option AttemptId) :=
  match plan.spec.exclusiveResourceKeys with
  | .error _ => .error .invalidInput
  | .ok keys => keys.foldlM (insertClaim attempt) claims

def releaseClaims (claims : String → Option AttemptId) (attempt : AttemptId) :
    String → Option AttemptId :=
  fun key => if claims key = some attempt then none else claims key

def processClosed (plan : FrozenExecution) (termination : RecordedObservation) : Bool :=
  plan.program.isNone &&
    match termination.observation with
    | .exited _ _ | .quiescent => true
    | _ => false

def attemptClosed (t : Tables) (plan : FrozenExecution) (attempt : AttemptSnapshot)
    (termination : RecordedObservation) : Except JournalError Bool :=
  if isNeverDispatched termination.observation || processClosed plan termination then .ok true
  else (readProgress t attempt.id).map fun progress => progress.any fun p => p.closed plan

def settle [ResourceNaming] (t : Tables) (plan : FrozenExecution) (next : Snapshot) : Except JournalError Tables :=
  match plan.spec.exclusiveResourceKeys with
  | .error _ => .error .invalidInput
  | .ok [] => .ok t
  | .ok (_ :: _) =>
    match next.attempt with
    | none => .ok t
    | some attempt =>
      match attempt.termination with
      | none => .ok t
      | some termination => do
        let closed ← attemptClosed t plan attempt termination
        return if closed then { t with claims := releaseClaims t.claims attempt.id } else t

end Resources

def reserveRequest (t : Tables) (scope : Scope) : Except JournalError Unit :=
  guarded (!(t.backendRequests.any fun row =>
      row.scope.requestId == scope.requestId && row.scope != scope) &&
    !Table.exists t.executions fun key row =>
      row.plan.spec.request.requestId == scope.requestId && key != scope) .conflict

section Executions

def Tables.byRequest (t : Tables) (request : RequestId) : Option ExecutionRow :=
  (t.executions.entries.find? fun e => e.2.plan.spec.request.requestId == request).map (·.2)

variable [RecordEncoding]

def openBody (limits : StoreLimits) (t : Tables) (plan : FrozenExecution) (w : Write) :
    Except JournalError (Tables × CommitOutcome) := do
  let audit := planAudit plan .proposed .executionOpened w.now
  reserveRequest t w.intent.scope
  match Tables.byRequest t plan.spec.request.requestId with
  | some row => do
    guarded (row.plan.spec == plan.spec) .conflict
    w.finish limits t .duplicate row.revision audit
  | none =>
    match Execution.create plan w.now limits.lifecycle with
    | .error _ => .error .invalidInput
    | .ok state => do
      boundedSnapshot limits state.snapshot
      guarded (t.executions.lookup w.intent.scope).isNone .conflict
      let row : ExecutionRow := ⟨plan, state.snapshot, 0, .full⟩
      w.finish limits { t with executions := t.executions.insert w.intent.scope row } .changed 0 audit

/-- Register one immutable bounded plan. -/
def openExecution (s : Store) (env : Environment) (op : OperationRequestId)
    (plan : FrozenExecution) : Store × Except JournalError CommitOutcome :=
  let scope := Scope.ofInput plan
  if inputAccepted s.limits plan.spec then
    s.perform env op ⟨scope, .openExecution, .openExecution plan.spec⟩ .create
      (openBody s.limits s.tables plan)
  else (s, .error .capacity)

end Executions

section Inputs

def inputAccess : EventRecord → Access
  | .observation _ => .runnerFact
  | .command event =>
    match event.command with
    | .dispatched _ | .dispatchUnconfirmed _ _ | .stopReported _ _ | .output _ _ | .recover =>
      .runnerFact
    | .prepare | .wait | .beginAttempt _ _ _ | .cancel => .execute

/-- The attempt that an event names. -/
def eventAttempt : EventRecord → Option AttemptId
  | .observation event => some event.attemptId
  | .command event =>
    match event.command with
    | .beginAttempt attemptId _ _ | .dispatched attemptId | .dispatchUnconfirmed attemptId _
    | .stopReported attemptId _ | .output attemptId _ => some attemptId
    | .prepare | .wait | .cancel | .recover => none

def isBegin : EventRecord → Bool
  | .command ⟨_, _, .beginAttempt _ _ _⟩ => true
  | _ => false

def inputAudit (plan : FrozenExecution) (event : EventRecord) (now : Nat) : AuditRecord :=
  { planAudit plan .proposed .executionEvent now with
    attemptId := eventAttempt event
    dispatchCause :=
      match event with
      | .command ⟨_, _, .dispatchUnconfirmed _ cause⟩ => some cause
      | _ => none
    stopOutcome :=
      match event with
      | .command ⟨_, _, .stopReported _ outcome⟩ => some outcome
      | _ => none }

/-- A stored interaction of the scope and its restored state. -/
def loadInteraction [JournalNaming] (limits : StoreLimits) (t : Tables) (scope : Scope) (id : Reference) :
    Except JournalError (InteractionRow × Interaction) :=
  match t.interactions.lookup id with
  | none => .error .notFound
  | some row =>
    if row.scope ≠ scope then .error .notFound
    else
      match InteractionState.restore row.snapshot limits.interaction with
      | .error _ => .error .corrupt
      | .ok state => do
        guarded (state.snapshot.revision == row.revision && state.snapshot.spec.id == id &&
          state.snapshot.spec.subject == JournalNaming.interactionSubject scope) .corrupt
        return (row, state)

/-- The exact confirmation of the plan was answered with consent and has not expired. -/
def confirmed [JournalNaming] (limits : StoreLimits) (t : Tables) (plan : FrozenExecution)
    (now : Nat) : Except JournalError Bool :=
  let expected := executionConfirmation plan
  match loadInteraction limits t (.ofInput plan) expected.id with
  | .error .notFound => .ok false
  | .error error => .error error
  | .ok (_, state) => .ok <|
    state.snapshot.spec == expected && decide (now < expected.expiresAtUnixMs) &&
      match state.snapshot.status with
      | .answered _ (.confirmation accepted) _ => accepted
      | _ => false

inductive Gated where
  | rejected (w : Write) (audit : AuditRecord)
  | passed (w : Write) (audit : AuditRecord) (admitting : Bool)

def gateConfirmed [JournalNaming] (limits : StoreLimits) (t : Tables) (plan : FrozenExecution)
    (now : Nat) : ExecutionGate → Except JournalError Bool
  | .direct => .ok true
  | .blocked => .ok false
  | .confirmation => confirmed limits t plan now

def passGate [JournalNaming] (limits : StoreLimits) (t : Tables) (host : JournalHost)
    (plan : FrozenExecution) (event : EventRecord) (w : Write) (audit : AuditRecord) :
    Except JournalError Gated :=
  match event with
  | .command ⟨_, _, .beginAttempt attemptId _ _⟩ => do
    let gate := host.admits plan attemptId w.now
    let w ← w.refreshTime host
    let audit := { audit.occurredAt w.now with reason := .admissionEvaluated }
    let refused := { audit.decide .denied with admission := some false, reason := .commitGateRejected }
    match gate with
    | .error .denied => return .rejected w refused
    | .error error => .error error
    | .ok gate => do
      let confirmationOk ← gateConfirmed limits t plan w.now gate.executionGate
      if confirmationOk ∧ w.now < gate.validUntilUnixMs ∧
          plan.spec.validity.notBeforeUnixMs ≤ w.now ∧ w.now < plan.spec.validity.expiresAtUnixMs then
        return .passed w { audit with admission := some true } true
      else return .rejected w refused
  | _ => .ok (.passed w audit false)

/-- The slots that remain kept after an accepted event. -/
def terminalReserve (old next : Snapshot) (reserve : TerminalReserve) (event : EventRecord) :
    TerminalReserve :=
  if isBegin event then .full
  else
    let reserve := if !old.cancelRequested && next.cancelRequested then
      { reserve with cancel := false } else reserve
    let reserve := if next.attempt.any (·.dispatch.isUnknown) &&
        old.attempt.any (!·.dispatch.isUnknown) then
      { reserve with uncertainty := false } else reserve
    match next.attempt with
    | none => if next.cancelRequested then .released else reserve
    | some a =>
      let reserve := if a.assessment.isSome && old.attempt.any (·.assessment.isNone) then
        { reserve with initialAssessment := false } else reserve
      let reserve := if a.termination.isSome && old.attempt.any (·.termination.isNone) then
        { reserve with termination := false } else reserve
      if a.assessment.any fun o => settledAssessment o.observation then .released else reserve

def firstDispatch (s : Snapshot) : Option DispatchAction :=
  match s.lastEvent with
  | some (.command ⟨_, _, .beginAttempt attemptId runner mode⟩) =>
    some ⟨s.requestId, s.contentDigest, attemptId, runner, mode, s.revision⟩
  | _ => none

def transitionAudit (audit : AuditRecord) (event : EventRecord) (admitting : Bool)
    (directive : Directive) : AuditRecord :=
  let audit := if admitting then audit.decide .admitted else audit
  let audit := match event with
    | .observation e => audit.decide (.observed e.attemptId [e.evidence])
    | .command _ => audit
  if isBegin event then audit else { audit with reason := .lifecycle directive }

/-- The admitted attempt uses up its identity and claims the resources of the plan. -/
def admitAttempt [ResourceNaming] (t : Tables) (plan : FrozenExecution) (next : Snapshot) (w : Write) :
    Except JournalError Tables :=
  match next.attempt with
  | none => .error .corrupt
  | some attempt => do
    guarded (t.attempts attempt.id).isNone .conflict
    let claims ← claim t.claims plan attempt.id
    return { t with
      attempts := Function.update t.attempts attempt.id (some ⟨w.intent.scope, w.op⟩)
      claims := claims }

variable [ResourceNaming] [RecordEncoding]

/-- The accepted transition is written together with its keys, claims, reserve and receipt. -/
def applyTransition (limits : StoreLimits) (t : Tables) (row : ExecutionRow) (current : Execution)
    (event : EventRecord) (w : Write) (audit : AuditRecord) (admitting : Bool)
    (transition : Transition) : Except JournalError (Tables × CommitOutcome) := do
  let next := transition.next.snapshot
  let t ← (if admitting then admitAttempt t row.plan next w else .ok t)
  let t ← settle t row.plan next
  boundedSnapshot limits next
  integer next.revision
  guarded (row.revision == transition.expectedRevision) .conflict
  let row := { row with
    snapshot := next
    revision := next.revision
    reserve := terminalReserve current.snapshot next row.reserve event }
  let t := { t with executions := t.executions.insert w.intent.scope row }
  let (t, receipt) ← w.prepare limits t .changed next.revision audit
  return (t, .applied receipt (firstDispatch next))

def evaluateBody (limits : StoreLimits) (t : Tables) (row : ExecutionRow) (current : Execution)
    (input : Input) (w : Write) (audit : AuditRecord) (admitting : Bool) :
    Except JournalError (Tables × CommitOutcome) :=
  match current.evaluateInput input w.now with
  | .error error =>
    w.finish limits t .rejected current.snapshot.revision
      { audit.decide .denied with reason := .lifecycleError error }
  | .ok evaluation =>
    match evaluation.transition with
    | none =>
      w.finish limits t (if evaluation.outcome = .duplicate then .duplicate else .stale)
        current.snapshot.revision { audit with reason := .lifecycle evaluation.directive }
    | some transition =>
      applyTransition limits t row current input.record w
        (transitionAudit audit input.record admitting evaluation.directive) admitting transition

variable [JournalNaming]

def inputBody (limits : StoreLimits) (t : Tables) (host : JournalHost) (input : Input) (w : Write) :
    Except JournalError (Tables × CommitOutcome) := do
  let scope := w.intent.scope
  let event := input.record
  let (row, current) ← loadExecution limits t scope
  guarded (t.eventKeys event.id).isNone .conflict
  let t := { t with eventKeys := Function.update t.eventKeys event.id (some ⟨scope, w.op⟩) }
  match ← passGate limits t host row.plan event w (inputAudit row.plan event w.now) with
  | .rejected w audit => w.finish limits t .rejected current.snapshot.revision audit
  | .passed w audit admitting => evaluateBody limits t row current input w audit admitting

def applyInput (s : Store) (env : Environment) (op : OperationRequestId) (scope : Scope)
    (input : Input) : Store × Except JournalError CommitOutcome :=
  s.perform env op ⟨scope, .execution, .execution input.record⟩ (inputAccess input.record)
    (inputBody s.limits s.tables env.host input)

end Inputs

section Interactions

def interactionOutcome : InteractionModel.Outcome → Outcome
  | .answered => .answered
  | .cancelled => .cancelled
  | .expired => .expired
  | .duplicate => .duplicate
  | .late => .late
  | .notDue => .notDue

/-- The responder's rights on this command; an execution action must name the stored plan. -/
def authorizeInteraction (host : JournalHost) (scope : Scope) (plan : FrozenExecution)
    (state : Interaction) (command : InteractionModel.Command) : Except JournalError Unit := do
  let spec := state.snapshot.spec
  match spec.kind with
  | .executionAction digest => do
    guarded (digest.value == plan.digest.value) .denied
    host.authorize ⟨.execute, scope, none, some (spec, command)⟩
  | _ => .ok ()
  host.authorize ⟨.interact, scope, none, some (spec, command)⟩

def insertInteractionKey (t : Tables) (command : InteractionModel.Command) (w : Write) :
    Except JournalError Tables :=
  match command.id with
  | none => .ok t
  | some id => do
    guarded (t.interactionKeys id).isNone .conflict
    return { t with
      interactionKeys := Function.update t.interactionKeys id (some ⟨w.intent.scope, w.op⟩) }

/-- The terminal record replaces the pending row and gives its slot back. -/
def applyInteractionTransition (limits : StoreLimits) (t : Tables) (id : Reference)
    (row : InteractionRow) (transition : Option InteractionState.Transition) (revision : Nat) :
    Except JournalError (Tables × Nat) :=
  match transition with
  | none => .ok (t, revision)
  | some transition => do
    let next := transition.next.snapshot
    guarded (next.toJson.size ≤ limits.maxRecordBytes) .capacity
    guarded (row.revision == transition.expectedRevision) .conflict
    let row := { row with snapshot := next, revision := next.revision, reserve := 0 }
    return ({ t with interactions := t.interactions.insert id row }, next.revision)

variable [RecordEncoding]

def openInteractionBody (limits : StoreLimits) (t : Tables) (spec : Spec) (w : Write) :
    Except JournalError (Tables × CommitOutcome) := do
  let row ← loadPlan limits t w.intent.scope
  match Interaction.create spec w.now limits.interaction with
  | .error _ => .error .invalidInput
  | .ok state => do
    guarded (state.snapshot.toJson.size ≤ limits.maxRecordBytes) .capacity
    guarded (t.interactions.lookup spec.id).isNone .conflict
    let interaction : InteractionRow := ⟨w.intent.scope, state.snapshot, 0, 1⟩
    w.finish limits { t with interactions := t.interactions.insert spec.id interaction } .changed 0
      (planAudit row.plan .proposed .interactionOpened w.now)

variable [JournalNaming]

def openInteraction (s : Store) (env : Environment) (op : OperationRequestId) (scope : Scope)
    (spec : Spec) : Store × Except JournalError CommitOutcome :=
  if spec.subject = JournalNaming.interactionSubject scope then
    s.perform env op ⟨scope, .openInteraction, .openInteraction spec⟩ .interact
      (openInteractionBody s.limits s.tables spec)
  else (s, .error .denied)

def interactionBody (limits : StoreLimits) (t : Tables) (host : JournalHost) (id : Reference)
    (command : InteractionModel.Command) (w : Write) :
    Except JournalError (Tables × CommitOutcome) := do
  let plan ← (loadPlan limits t w.intent.scope).map (·.plan)
  let (row, state) ← loadInteraction limits t w.intent.scope id
  authorizeInteraction host w.intent.scope plan state command
  let w ← w.refreshTime host
  let t ← insertInteractionKey t command w
  let audit := planAudit plan .proposed .interactionOpened w.now
  match state.evaluate command w.now with
  | .error error =>
    w.finish limits t .rejected state.snapshot.revision { audit with reason := .interactionError error }
  | .ok evaluation => do
    let (t, revision) ←
      applyInteractionTransition limits t id row evaluation.transition state.snapshot.revision
    w.finish limits t (interactionOutcome evaluation.outcome) revision
      { audit with reason := .interaction evaluation.outcome }

def applyInteraction (s : Store) (env : Environment) (op : OperationRequestId) (scope : Scope)
    (id : Reference) (command : InteractionModel.Command) :
    Store × Except JournalError CommitOutcome :=
  s.perform env op ⟨scope, .interaction, .interaction id command⟩ .interact
    (interactionBody s.limits s.tables env.host id command)

end Interactions

section Facts

def confirmBody (limits : StoreLimits) (t : Tables) (scope : Scope) (consumer : Identifier)
    (event : ReceiptEvent) : Except JournalError (Tables × Unit) :=
  match t.receipts.find? fun row => row.receipt.scope == scope && row.receipt.eventId == event with
  | none => .error .notFound
  | some row => do
    let consumers := ((t.confirmations.filter (·.scope == scope)).map (·.consumer)).dedup
    guarded (consumers.contains consumer || decide (consumers.length < limits.maxConsumers)) .capacity
    let confirmation := ⟨scope, consumer, row.receipt.sequence⟩
    return ({ t with
      confirmations :=
        if t.confirmations.contains confirmation then t.confirmations
        else t.confirmations ++ [confirmation] }, ())

/-- Confirm exactly one delivered event; confirmation creates no receipt. -/
def confirm (s : Store) (env : Environment) (scope : Scope) (consumer : Identifier)
    (event : ReceiptEvent) : Store × Except JournalError Unit :=
  s.commit env .confirmationCommitUnknown do
    s.checkScope scope
    JournalHost.allows env.host .deliver scope (some consumer)
    s.ensureCurrent
    confirmBody s.limits s.tables scope consumer event

def Tables.backendRequest (t : Tables) (scope : Scope) : Option BackendRequest :=
  (t.backendRequests.find? fun row => row.scope == scope).map (·.record)

def upsertRequest (rows : List BackendRow) (scope : Scope) (next : BackendRequest) :
    List BackendRow :=
  if rows.any fun row => row.scope == scope then
    rows.map fun row => if row.scope = scope then ⟨scope, next⟩ else row
  else rows ++ [⟨scope, next⟩]

def continuesRequest (p next : BackendRequest) : Bool :=
  (p.action.sameChoice next.action || p.preparesCall next) && p.trigger == next.trigger &&
    (p.risk == next.risk || p.preparesCall next) &&
    (p.confirmation == next.confirmation ||
      ((p.state == .draft || p.state == .awaitingConfirmation) && next.state == .ready &&
        p.confirmation.isNone && next.confirmation.isSome))

/-- The checks of a preparation write against the expected and the stored record. -/
def acceptsRequest (scope : Scope) (previous expected : Option BackendRequest)
    (next : BackendRequest) : Except JournalError Unit := do
  guarded ((next.state == .observed) == next.action.observed) .invalidInput
  guarded ((nextStates (expected.map (·.state))).contains next.state && next.validProductGate &&
    next.action.offer.all (·.userInitiated) && next.trigger != .automatic && next.diagnosed)
    .invalidInput
  guarded (next.action.request == scope.requestId &&
    next.revision == (expected.map fun p => saturatingAdd p.revision 1).getD 1) .invalidInput
  guarded (previous == expected) .conflict
  guarded (expected.all fun p => p.recordedAtUnixMs == next.recordedAtUnixMs &&
    p.retryOf == next.retryOf && p.retryExpectedRevision == next.retryExpectedRevision) .conflict
  guarded (next.retryOf.isSome == next.retryExpectedRevision.isSome &&
    next.cancellationControl.isSome == next.cancellationExpectedRevision.isSome) .invalidInput
  guarded (next.cancellationControl.isNone || (next.state == .cancelled && expected.isSome))
    .invalidInput
  guarded (expected.all fun p => p.cancellationControl.isNone ||
    (p.cancellationControl == next.cancellationControl &&
      p.cancellationExpectedRevision == next.cancellationExpectedRevision)) .conflict
  guarded (expected.all fun p => continuesRequest p next) .conflict

/-- Compare and append a preparation transition; it creates no execution. -/
def recordBackendRequest [RecordEncoding] (s : Store) (env : Environment) (scope : Scope)
    (expected : Option BackendRequest) (next : BackendRequest) : Store × Except JournalError Unit :=
  s.commit env .operationCommitUnknown do
    s.checkScope scope
    s.ensureCurrent
    JournalHost.allows env.host .execute scope none
    reserveRequest s.tables scope
    acceptsRequest scope (Tables.backendRequest s.tables scope) expected next
    bounded s.limits (.backendRequest next)
    return ({ s.tables with
      backendRequests := upsertRequest s.tables.backendRequests scope next }, ())

def incompleteCapture (previous : ProcessEvidence) : Bool :=
  previous.finished && !previous.quiescent && previous.processEnd == .unknown &&
    previous.quality == .partialCapture

def replaceableScope : ProcessScope → Bool
  | .preparing | .delegated _ _ => true
  | _ => false

/-- The new capture rewrites something that was already durable. -/
def captureConflict (previous facts : ProcessEvidence) : Bool :=
  (previous.failureKind ≠ .none &&
      !(incompleteCapture previous && previous.failureKind == .unavailable) &&
      previous.failureKind ≠ facts.failureKind) ||
    (previous.finished && !incompleteCapture previous) ||
    previous.exitCode.any (fun exit => facts.exitCode ≠ some exit) ||
    previous.contentDigest ≠ facts.contentDigest ||
    (previous.scope ≠ facts.scope && !replaceableScope previous.scope) ||
    previous.runner ≠ facts.runner || facts.totalOutputBytes < previous.totalOutputBytes ||
    !previous.stdout.isPrefixOf facts.stdout || !previous.stderr.isPrefixOf facts.stderr

/-- The stored capture of an attempt, within its output bounds. -/
def readCapture (limits : StoreLimits) (t : Tables) (attempt : AttemptId) :
    Except JournalError (Option ProcessEvidence) :=
  match t.processEvidence attempt with
  | none => .ok none
  | some facts =>
    if facts.attemptId ≠ attempt ∨ limits.input.maxOutputBytes < facts.stdout.length + facts.stderr.length ∨
        facts.totalOutputBytes < facts.stdout.length + facts.stderr.length then .error .corrupt
    else .ok (some facts)

variable [RecordEncoding]

def currentAttempt (limits : StoreLimits) (t : Tables) (scope : Scope) :
    Except JournalError (ExecutionRow × Execution × AttemptSnapshot) := do
  let (row, execution) ← loadExecution limits t scope
  match execution.snapshot.attempt with
  | none => .error .conflict
  | some attempt => return (row, execution, attempt)

/-- The tables with the new capture; none if the same facts are already durable. -/
def processBody (limits : StoreLimits) (t : Tables) (scope : Scope) (facts : ProcessEvidence) :
    Except JournalError (Option Tables) := do
  let (_, execution, attempt) ← currentAttempt limits t scope
  let retained := facts.stdout.length + facts.stderr.length
  guarded (facts.attemptId == attempt.id && facts.contentDigest == execution.plan.digest &&
    facts.runner == attempt.runner && decide (retained ≤ facts.totalOutputBytes) &&
    decide (retained ≤ execution.plan.spec.budget.totalOutputBytes) &&
    (!facts.quiescent || facts.finished)) .invalidInput
  let previous ← readCapture limits t facts.attemptId
  if previous = some facts then return none
  else do
    guarded (!previous.any (captureConflict · facts)) .conflict
    bounded limits (.process { facts with stdout := [], stderr := [] })
    return some { t with
      processEvidence := Function.update t.processEvidence facts.attemptId (some facts) }

/-- Save process facts and raw bytes in the namespace of the current attempt. -/
def recordProcess (s : Store) (env : Environment) (scope : Scope) (facts : ProcessEvidence) :
    Store × Except JournalError Unit :=
  let result : Except JournalError (Option Tables) := do
    raised env.fault
    s.checkScope scope
    s.ensureCurrent
    JournalHost.allows env.host .runnerFact scope none
    processBody s.limits s.tables scope facts
  match result with
  | .error error => (s, .error error)
  | .ok none => (s, .ok ())
  | .ok (some t) => s.commit env .operationCommitUnknown (.ok (t, ()))

variable [ResourceNaming]

def progressBody (limits : StoreLimits) (t : Tables) (scope : Scope) (facts : SoftwareProgress) :
    Except JournalError (Tables × SoftwareProgress) := do
  let (row, execution, attempt) ← currentAttempt limits t scope
  guarded (facts.attemptId == attempt.id && facts.runner == attempt.runner &&
    facts.validFor row.plan) .invalidInput
  let previous ← readProgress t attempt.id
  guarded (previous.all facts.extends) .conflict
  bounded limits (.progress facts)
  let t ← settle { t with progress := Function.update t.progress attempt.id (some facts) } row.plan
    execution.snapshot
  return (t, facts)

/-- Append software phase facts to the original attempt, before physical dispatch. -/
def recordSoftwareProgress (s : Store) (env : Environment) (scope : Scope)
    (facts : SoftwareProgress) : Store × Except JournalError SoftwareProgress :=
  s.commit env .operationCommitUnknown do
    s.checkScope scope
    s.ensureCurrent
    JournalHost.allows env.host .runnerFact scope none
    progressBody s.limits s.tables scope facts

end Facts

end RssMdmAgent.JournalOperations
