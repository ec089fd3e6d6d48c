import RssMdmAgent.LifecycleModel

set_option autoImplicit false

/-! # Evaluation of lifecycle commands and observations -/

namespace RssMdmAgent.LifecycleState
open BoundedArithmetic JsonDocument ContractIdentity ContractPlan LifecycleModel

def require {ε : Type} (ok : Bool) (error : ε) : Except ε Unit := if ok then .ok () else .error error

def validateLimits (limits : Limits) : Except LifecycleError Unit :=
  require (minSnapshotBytes ≤ limits.maxSnapshotBytes) .configuration

def validEvidence (mode : ExecutionMode) (kind : EvidenceKind) (observation : Observation) : Bool :=
  if mode = .test then kind == .testResult
  else
    match observation with
    | .exited _ _ => kind == .processExited
    | _ => kind == .stateObserved

def Authority.isTest : Authority → Bool
  | .test _ => true
  | _ => false

def validRecorded (s : Snapshot) (a : AttemptSnapshot) (o : RecordedObservation) : Bool :=
  o.evidence.runner == a.runner && validEvidence a.mode o.evidence.kind o.observation &&
    a.acceptedAtUnixMs ≤ o.observedAtUnixMs && o.observedAtUnixMs ≤ s.updatedAtUnixMs

def finalOutput (a : AttemptSnapshot) : Observation → Option Nat
  | .exited _ bytes | .neverDispatched bytes => some bytes
  | .quiescent => some a.outputBytes
  | _ => none

def isEffect : Observation → Bool
  | .effect _ => true
  | _ => false

def validAttempt (p : FrozenExecution) (s : Snapshot) (a : AttemptSnapshot) (first : Nat) : Bool :=
  s.preparation == .prepared && a.number == s.attempts && a.number ≠ 0 &&
    s.openedAtUnixMs ≤ first && p.spec.validity.notBeforeUnixMs ≤ first &&
    first ≤ a.acceptedAtUnixMs && a.acceptedAtUnixMs < p.spec.validity.expiresAtUnixMs &&
    a.acceptedAtUnixMs ≤ s.updatedAtUnixMs &&
    a.acceptedAtUnixMs - first < p.spec.budget.totalTimeoutMs &&
    (a.number ≠ 1 || (first == a.acceptedAtUnixMs && s.priorOutputBytes == 0)) &&
    s.priorOutputBytes < p.spec.budget.totalOutputBytes &&
    (!Authority.isTest p.spec.request.authority || a.mode == .test) &&
    (a.termination.toList ++ a.assessment.toList).all (validRecorded s a) &&
    (match a.termination with
      | none => true
      | some t => finalOutput a t.observation == some a.outputBytes) &&
    match a.assessment with
    | none => true
    | some o => isEffect o.observation &&
      match a.termination with
      | none => false
      | some t => t.observedAtUnixMs ≤ o.observedAtUnixMs

/-- The structural and plan invariants of a stored snapshot. -/
def validate (p : FrozenExecution) (s : Snapshot) (limits : Limits) : Except LifecycleError Unit := do
  require (s.version == snapshotVersion && s.requestId == p.spec.request.requestId &&
    s.contentDigest == p.digest && s.openedAtUnixMs ≤ s.updatedAtUnixMs &&
    s.attempts ≤ p.spec.budget.maxAttempts &&
    match s.lastEvent with
    | none => s.revision == 0
    | some e => checkedAdd e.expectedRevision 1 == some s.revision) .snapshot
  require (s.revision ≠ 0 || (s.preparation == .received && !s.cancelRequested &&
    s.attempt.isNone && s.openedAtUnixMs == s.updatedAtUnixMs)) .snapshot
  require (match s.attempt, s.firstAttemptAtUnixMs with
    | none, none => s.attempts == 0 && s.priorOutputBytes == 0
    | some a, some first => validAttempt p s a first
    | _, _ => false) .snapshot
  require (s.toJson.size ≤ limits.maxSnapshotBytes) .limit

def restorable (p : FrozenExecution) (s : Snapshot) (limits : Limits) :
    Except LifecycleError Unit := do
  validateLimits limits
  validate p s limits

structure Execution where
  plan : FrozenExecution
  snapshot : Snapshot
  limits : Limits
  valid : restorable plan snapshot limits = .ok ()

def restore (plan : FrozenExecution) (snapshot : Snapshot) (limits : Limits) :
    Except LifecycleError Execution :=
  match h : restorable plan snapshot limits with
  | .ok () => .ok ⟨plan, snapshot, limits, h⟩
  | .error e => .error e

def openedSnapshot (plan : FrozenExecution) (now : Nat) : Snapshot where
  version := snapshotVersion
  requestId := plan.spec.request.requestId
  contentDigest := plan.digest
  openedAtUnixMs := now
  updatedAtUnixMs := now
  revision := 0
  preparation := .received
  cancelRequested := false
  firstAttemptAtUnixMs := none
  attempts := 0
  priorOutputBytes := 0
  attempt := none
  lastEvent := none

def Execution.create (plan : FrozenExecution) (now : Nat) (limits : Limits) :
    Except LifecycleError Execution :=
  restore plan (openedSnapshot plan now) limits

def Snapshot.totalOutputBytes (s : Snapshot) : Nat :=
  saturatingAdd s.priorOutputBytes ((s.attempt.map (·.outputBytes)).getD 0)

def Execution.totalOutputBytes (e : Execution) : Nat := Snapshot.totalOutputBytes e.snapshot

def Execution.limitReason (e : Execution) (now : Nat) : Option LimitReason :=
  let p := e.plan.spec
  let s := e.snapshot
  if now < p.validity.notBeforeUnixMs then some .notYetValid
  else if p.validity.expiresAtUnixMs ≤ now ∧ s.attempt.all (·.termination.isSome) then some .expired
  else if p.budget.totalOutputBytes ≤ e.totalOutputBytes then some .output
  else if s.firstAttemptAtUnixMs.any (fun start => p.budget.totalTimeoutMs ≤ now - start) then
    some .timeout
  else none

def Execution.phase (e : Execution) : Phase :=
  match e.snapshot.attempt with
  | none =>
    if e.snapshot.cancelRequested then .cancelled
    else
      match e.snapshot.preparation with
      | .received => .received
      | .prepared => .prepared
      | .waiting => .waiting
  | some a =>
    if a.assessment.isSome then .verified
    else
      match a.termination with
      | some t =>
        match t.observation with
        | .neverDispatched _ => .failedBeforeDispatch
        | _ => .executionEnded
      | none =>
        match a.dispatch with
        | .starting => .starting
        | .dispatched => .running
        | .unknown _ => .outcomeUnknown

def AttemptSnapshot.effectAssessment (a : AttemptSnapshot) : Option EffectAssessment :=
  match a.assessment with
  | none => none
  | some o =>
    match o.observation with
    | .effect assessment => some assessment
    | _ => none

def isNeverDispatched : Observation → Bool
  | .neverDispatched _ => true
  | _ => false

def AttemptSnapshot.noEffect (a : AttemptSnapshot) : Bool :=
  AttemptSnapshot.effectAssessment a == some .noEffect ||
    (AttemptSnapshot.effectAssessment a == none &&
      a.termination.any fun t => isNeverDispatched t.observation)

/-- Bounded continuation advice at reliable host time. -/
def Execution.directive (e : Execution) (now : Nat) : Except LifecycleError Directive :=
  let s := e.snapshot
  if now < s.updatedAtUnixMs then .error .clock
  else .ok <|
    match s.attempt with
    | none =>
      if s.cancelRequested then .done
      else
        match e.limitReason now with
        | some reason => .budgetExhausted reason
        | none =>
          match s.preparation with
          | .received => .prepare
          | .prepared => .ready
          | .waiting => .wait
    | some a =>
      match a.termination with
      | none =>
        if s.cancelRequested then .stopRunner .cancelled
        else
          match e.limitReason now with
          | some reason => .stopRunner (.limit reason)
          | none => if a.dispatch = .dispatched then .wait else .reconcile
      | some t =>
        let assessment := AttemptSnapshot.effectAssessment a
        let noEffect := AttemptSnapshot.noEffect a
        if assessment = some .satisfied ∨ (s.cancelRequested = true ∧ noEffect = true) then .done
        else if noEffect = true ∧ t.observation = .quiescent then .manualReview
        else if noEffect then
          match e.limitReason now with
          | some reason => .budgetExhausted reason
          | none =>
            if e.plan.spec.budget.maxAttempts ≤ s.attempts then .budgetExhausted .attempts
            else .retryEligible
        else if assessment.isSome then .manualReview
        else .verifyTarget

/-- The remaining allowance, derived from the first attempt's time and all output. -/
def Execution.allowance (e : Execution) (now : Nat) : Except LifecycleError DispatchAllowance := do
  let _ ← e.directive now
  let start := e.snapshot.firstAttemptAtUnixMs.getD now
  let deadline := saturatingAdd start e.plan.spec.budget.totalTimeoutMs
  return {
    deadlineUnixMs := deadline
    remainingTimeoutMs := deadline - now
    remainingOutputBytes := e.plan.spec.budget.totalOutputBytes - e.totalOutputBytes }

/-- A change of the current attempt, refused when the event names another one. -/
def withCurrentAttempt (s : Snapshot) (id : AttemptId)
    (update : AttemptSnapshot → Except LifecycleError AttemptSnapshot) :
    Except LifecycleError Snapshot :=
  match s.attempt with
  | none => .error .attempt
  | some a =>
    if a.id = id then do
      let a ← update a
      return { s with attempt := some a }
    else .error .attempt

def maxAttemptCount : Nat := 2 ^ 32 - 1

def applyCommand (e : Execution) (command : Command) (directive : Directive) (now : Nat) :
    Except LifecycleError Snapshot :=
  let s := e.snapshot
  match command with
  | .prepare | .wait =>
    if s.attempt.isSome ∨ s.cancelRequested = true then .error .transition
    else .ok { s with preparation := if command = .prepare then .prepared else .waiting }
  | .beginAttempt attemptId runner mode =>
    if directive ≠ .ready ∧ directive ≠ .retryEligible then .error .transition
    else if (Authority.isTest e.plan.spec.request.authority = true ∧ mode ≠ .test) ∨
        s.attempt.any (fun a => a.id = attemptId || a.runner ≠ runner || a.mode ≠ mode) then
      .error .attempt
    else if maxAttemptCount < s.attempts + 1 then .error .attempt
    else .ok
      { s with
        attempts := s.attempts + 1
        firstAttemptAtUnixMs := some (s.firstAttemptAtUnixMs.getD now)
        priorOutputBytes := e.totalOutputBytes
        attempt := some
          { id := attemptId
            number := s.attempts + 1
            acceptedAtUnixMs := now
            runner := runner
            mode := mode
            dispatch := .starting
            dispatchCause := none
            stopOutcome := none
            termination := none
            assessment := none
            outputBytes := 0 } }
  | .dispatched attemptId => withCurrentAttempt s attemptId fun a =>
    if a.dispatch ≠ .starting ∨ a.termination.isSome then .error .transition
    else .ok { a with dispatch := .dispatched }
  | .cancel => .ok { s with cancelRequested := true }
  | .dispatchUnconfirmed attemptId cause => withCurrentAttempt s attemptId fun a =>
    .ok { a with
      dispatchCause := some cause
      dispatch := if a.termination.isNone then a.dispatch.uncertain else a.dispatch }
  | .stopReported attemptId outcome => withCurrentAttempt s attemptId fun a =>
    .ok { a with stopOutcome := some outcome }
  | .recover => .ok
    { s with attempt := s.attempt.map fun a =>
        if a.termination.isNone then { a with dispatch := a.dispatch.uncertain } else a }
  | .output attemptId totalBytes => withCurrentAttempt s attemptId fun a =>
    if (a.termination.isNone ∧ totalBytes < a.outputBytes) ∨
        (a.termination.isSome ∧ a.outputBytes < totalBytes) then .error .accounting
    else .ok { a with outputBytes := if a.termination.isNone then totalBytes else a.outputBytes }

def settledAssessment : Observation → Bool
  | .effect .satisfied | .effect .noEffect => true
  | _ => false

def recordObservation (a : AttemptSnapshot) (recorded : RecordedObservation) :
    Except LifecycleError AttemptSnapshot :=
  match recorded.observation with
  | .exited _ bytes | .neverDispatched bytes =>
    if a.termination.isSome then .error .transition
    else if bytes < a.outputBytes then .error .accounting
    else .ok { a with outputBytes := bytes, termination := some recorded }
  | .quiescent =>
    if a.termination.isSome then .error .transition
    else .ok { a with termination := some recorded }
  | .effect _ =>
    match a.termination with
    | none => .error .transition
    | some t =>
      if recorded.observedAtUnixMs < t.observedAtUnixMs ∨ a.assessment.any (fun o =>
          recorded.observedAtUnixMs < o.observedAtUnixMs || settledAssessment o.observation) then
        .error .transition
      else .ok { a with assessment := some recorded }
  | .uncertain =>
    if a.termination.isSome then .error .transition
    else .ok { a with dispatch := a.dispatch.uncertain }

def applyObservation (e : Execution) (event : ObservationEvent) (now : Nat)
    (verify : ObservationVerifier) : Except LifecycleError Snapshot :=
  let s := e.snapshot
  withCurrentAttempt s event.attemptId fun a =>
    match verify e.plan event.attemptId event.evidence now with
    | .error error => .error (.observationVerification error)
    | .ok facts =>
      if facts.requestId ≠ s.requestId ∨ facts.contentDigest ≠ s.contentDigest ∨
          facts.attemptId ≠ event.attemptId ∨ facts.evidence ≠ event.evidence ∨
          event.evidence.runner ≠ a.runner ∨ facts.observedAtUnixMs < a.acceptedAtUnixMs ∨
          now < facts.observedAtUnixMs ∨
          validEvidence a.mode event.evidence.kind facts.observation = false then
        .error .observation
      else recordObservation a ⟨event.evidence, facts.observedAtUnixMs, facts.observation⟩

structure Transition where
  expectedRevision : Nat
  next : Execution

structure Evaluation where
  outcome : EventOutcome
  directive : Directive
  transition : Option Transition

inductive Input where
  | command (event : CommandEvent)
  | observation (event : ObservationEvent) (verify : ObservationVerifier)

def Input.record : Input → EventRecord
  | .command event => .command event
  | .observation event _ => .observation event

def Execution.apply (e : Execution) (input : Input) (directive : Directive) (now : Nat) :
    Except LifecycleError Snapshot :=
  match input with
  | .command event => applyCommand e event.command directive now
  | .observation event verify => applyObservation e event now verify

def committed (s next : Snapshot) (event : EventRecord) (now : Nat) : Snapshot :=
  { next with
    updatedAtUnixMs := now
    revision := s.revision + 1
    lastEvent := some event }

def Execution.evaluateInput (e : Execution) (input : Input) (now : Nat) :
    Except LifecycleError Evaluation := do
  let event := input.record
  let s := e.snapshot
  let directive ← e.directive now
  if s.lastEvent.any (fun last => last.id = event.id) then
    if s.lastEvent = some event then return ⟨.duplicate, directive, none⟩
    else .error .idempotencyConflict
  else if event.expectedRevision < s.revision then return ⟨.stale, directive, none⟩
  else if event.expectedRevision ≠ s.revision ∨ s.revision = maxWord then .error .revision
  else
    let next ← e.apply input directive now
    let next ← restore e.plan (committed s next event now) e.limits
    let directive ← next.directive now
    return ⟨.applied, directive, some ⟨s.revision, next⟩⟩

end RssMdmAgent.LifecycleState
