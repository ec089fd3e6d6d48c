import RssMdmAgent.SessionState
import RssMdmAgent.ContractPlan

set_option autoImplicit false

/-! # The review of a batch: its head, its facts and its commands -/

namespace RssMdmAgent.BatchReview
open BoundedJson OrderedRows SessionRecords SessionValidity SessionState

/-- A complete A2UI batch within its catalog, as the interaction surface accepts it. -/
class SurfaceCatalog where
  acceptsMessages : SurfaceState → Bool

/-- One atomic batch, checked against both revision and generation. -/
structure SessionCommit where
  scope : Namespace
  expectedRevision : Nat
  expectedGeneration : Id
  session : Session
  commands : List CommandRecord
  events : List Event
  interactions : List Interaction
  deliveries : List Delivery
  surfaces : List SurfaceState
  providerFacts : List VerifiedProviderFact
  nowMs : Option Nat
  deriving DecidableEq

def SessionCommit.now (batch : SessionCommit) : Option Nat := batch.nowMs.filter isCounter

def SessionCommit.rows (batch : SessionCommit) : List WireRecord :=
  .session batch.session :: (batch.commands.map .commandRecord ++ batch.events.map .event
    ++ batch.interactions.map .interaction ++ batch.deliveries.map .delivery
    ++ batch.surfaces.map .surface)

/-! ## Event bodies -/

inductive InteractionName where
  | pending
  | answered
  | expired
  | unavailable
  deriving DecidableEq, Repr

def interactionName : InteractionStatus → InteractionName
  | .pending => .pending
  | .answered _ => .answered
  | .expired => .expired
  | .unavailable => .unavailable

def interactionOf : EventBody → Option (Id × InteractionName)
  | .interactionPending id _ _ => some (id, .pending)
  | .interactionAnswered id _ => some (id, .answered)
  | .interactionExpired id => some (id, .expired)
  | .interactionUnavailable id => some (id, .unavailable)
  | _ => none

def surfaceOf : EventBody → Option SurfaceState
  | .surface surface => some surface
  | _ => none

def isDispatch : EventBody → Bool
  | .dispatch _ => true
  | _ => false

def isReconciled : EventBody → Bool
  | .reconciled .. => true
  | _ => false

def isCommandAccepted : EventBody → Bool
  | .commandAccepted _ => true
  | _ => false

def isDeliveryRecorded : EventBody → Bool
  | .deliveryRecorded .. => true
  | _ => false

def outcomeOf : CommandState → Option Outcome
  | .terminal _ outcome => some outcome
  | _ => none

def SessionCommit.announces (batch : SessionCommit) (command : Id) (body : EventBody) : Bool :=
  batch.events.any fun e => e.commandId = some command && e.body = body

/-! ## The head of a batch -/

def checkState (state : SessionWorkspace) (revision : Nat) (generation : Id) : Except Failure Unit := do
  refuse (state.session.status ≠ .active) (fail .sessionGone)
  let stage ← activeStage state.session
  refuse (stage.binding.generation ≠ generation) (fail .staleBinding)
  refuse (state.session.revision ≠ revision) ⟨.revisionConflict, .sameCommand⟩

def awake (state : SessionWorkspace) : SessionWorkspace :=
  { state with session := { state.session with status := .active } }

/-- Durable delivery is independent of a runnable provider incarnation: such a batch only changes
existing deliveries and appends their receipt references. -/
def isDeliveryCommit (state : SessionWorkspace) (batch : SessionCommit) : Bool :=
  !batch.deliveries.isEmpty && batch.commands.isEmpty && batch.interactions.isEmpty &&
  batch.surfaces.isEmpty && batch.providerFacts.isEmpty &&
  batch.events.all (fun e => isDeliveryRecorded e.body) &&
  batch.deliveries.all (fun d => state.deliveries.has d.operationId) &&
  { batch.session with
    revision := state.session.revision, lastSequence := state.session.lastSequence } = state.session

/-- The session of a batch is the next one of the same stage; only the run and request coordinates of
the active binding may differ. Both sides of a namespace comparison are validated here or equal. -/
def checkHead (state : SessionWorkspace) (batch : SessionCommit) (deliveryOnly suspending : Bool) :
    Except Failure ContextStage := do
  refuse (state.session.scope ≠ batch.scope ∨ batch.session.scope ≠ batch.scope ∨
      batch.session.revision ≠ state.session.revision + 1 ∨
      batch.session.lastSequence ≠ state.session.lastSequence + batch.events.length ∨
      (deliveryOnly = false ∧ suspending = false ∧ batch.session.status ≠ .active) ∨
      (suspending = true ∧ batch.session.status ≠ state.session.status)) (fail .invalidInput)
  refuse (batch.session.freshContext ≠ state.session.freshContext ∨
      batch.session.currentStageId ≠ state.session.currentStageId ∨
      batch.session.selectedConnectionId ≠ state.session.selectedConnectionId ∨
      batch.session.stages.dropLast ≠ state.session.stages.dropLast) (fail .staleBinding)
  let next ← activeStage batch.session
  let stage ← activeStage state.session
  refuse ({ next with binding := stage.binding } ≠ stage ∨
      providerIdentity next.binding ≠ providerIdentity stage.binding ∨
      next.capabilities ≠ stage.capabilities) (fail .staleBinding)
  return stage

/-- Every fact is verified against its command, one for each command. -/
def collectFacts (state : SessionWorkspace) : List VerifiedProviderFact → List (Id × Reconciliation) →
    Except Failure (List (Id × Reconciliation))
  | [], facts => .ok facts
  | proof :: rest, facts =>
    match (state.commands.get proof.commandId).bind (providerFactFor proof state.session) with
    | none => .error (fail .permissionDenied)
    | some observation => do
      refuse (facts.any fun fact => fact.1 = proof.commandId) (fail .invalidInput)
      collectFacts state rest (facts ++ [(proof.commandId, observation)])

/-! ## Commands -/

/-- What the checks of one batch refer to. -/
structure Review where
  state : SessionWorkspace
  batch : SessionCommit
  stage : ContextStage
  facts : List (Id × Reconciliation)
  accepting : Bool

def Review.resolution (r : Review) (command : Id) : Option Reconciliation := r.facts.lookup command

section Commands
variable (r : Review) (c : CommandRecord) (old : Option CommandRecord)

/-- Command, receipt and a settled record never change; only an acceptance adds a record. -/
def checkHistory : Except Failure Unit :=
  match old with
  | some o => do
    refuse (o.receipt ≠ c.receipt ∨ o.command ≠ c.command) (fail .contentConflict)
    refuse (isSettled o = true ∧ o ≠ c) (fail .contentConflict)
  | none => refuse (r.accepting = false ∨ c.state.name ≠ .accepted ∨
      c.receipt.acceptedRevision ≠ r.batch.session.revision) (fail .invalidInput)

def checkObserver : Except Failure Unit :=
  match c.dispatch with
  | some d => refuse (d.observerGeneration ≠ r.batch.expectedGeneration ∨
      d.nativeThreadId ≠ r.stage.binding.nativeThreadId) (fail .staleBinding)
  | none => .ok ()

/-- The record that a resolution other than a rejected submission leads to. -/
def resolvedName : Resolution → StateName
  | .unknown => .reconciliationRequired
  | .submitted => .dispatching
  | .running => .running
  | .terminal => .terminal
  | .acknowledged => .acknowledged
  | .notSubmitted => .accepted

def retryEligible (now : Nat) (error : Option Failure) : Bool :=
  (error.all fun e => e.retry ≠ .never) && c.command.input.isQueueNext &&
  now ≤ min c.command.expiresAtMs c.receipt.retryUntilMs

def checkResolution (fact : Reconciliation) (resolution : Resolution) : Except Failure Unit := do
  refuse (resolution = .submitted ∧ old.map (·.state.name) = some .running) (fail .contentConflict)
  match old, old.bind (·.dispatch) with
  | some o, some d => do
    refuse (isSettled o = true ∨ fact.attemptId ≠ d.attemptId ∨
        providerIdentity fact.binding ≠ providerIdentity r.stage.binding ∨
        fact.binding.nativeSessionId ≠ d.nativeSessionId ∨
        fact.binding.nativeThreadId ≠ d.nativeThreadId ∨
        matchesCoordinates d fact.binding = false) (fail .staleBinding)
    refuse ((r.batch.events.filter fun e => e.commandId = some c.commandId && isReconciled e.body).map
        (·.body) ≠ [.reconciled d resolution]) (fail .invalidInput)
    match fact.status with
    | .notSubmitted error =>
      match r.batch.now with
      | none => .error (fail .invalidInput)
      | some now => do
        refuse (d.certainty = .submitted) (fail .contentConflict)
        refuse (c.state.name ≠ (if retryEligible c now error then .accepted else .invalidated) ∨
          c.dispatch ≠ none) (fail .invalidInput)
    | .terminal outcome =>
      refuse (c.state.name ≠ .terminal ∨ outcomeOf c.state ≠ some outcome) (fail .invalidInput)
    | _ => refuse (c.state.name ≠ resolvedName resolution) (fail .invalidInput)
  | _, _ => .error (fail .staleBinding)

def allowedChanges : StateName → List StateName
  | .accepted => [.dispatching, .invalidated, .cancelled, .acknowledged]
  | .dispatching => [.running, .terminal, .reconciliationRequired, .acknowledged]
  | .running => [.terminal, .reconciliationRequired]
  | _ => []

def checkChange : Except Failure Unit :=
  match (r.resolution c.commandId).bind (fun fact => fact.status.resolution.map (fact, ·)) with
  | some (fact, resolution) => checkResolution r c old fact resolution
  | none =>
    match old with
    | some o => refuse (o.state.name ≠ c.state.name ∧ c.state.name ∉ allowedChanges o.state.name)
        (fail .contentConflict)
    | none => .ok ()

def otherDispatched : Bool :=
  (r.state.commandsInStates openStates).any fun record =>
    record.commandId ≠ c.commandId && record.command.input.isPrompt && record.dispatch.isSome &&
    !isSettled record

def steerTarget (target : Option Id) : Bool :=
  (r.state.commandsInStates openStates).any fun record =>
    record.command.input.isQueueNext && !isSettled record &&
    record.dispatch.any fun d => d.certainty = .submitted && d.nativeRunId = target

/-- A first dispatch starts one new attempt of an accepted command before its deadline. -/
def checkFirstDispatch (attempts : List Id) (d : DispatchAttempt) : Except Failure Unit := do
  refuse (old.map (·.state.name) ≠ some .accepted ∨ c.state.name ≠ .dispatching ∨
      d.certainty ≠ .intent ∨ d.originGeneration ≠ r.batch.expectedGeneration ∨
      d.nativeSessionId ≠ r.stage.binding.nativeSessionId ∨ d.attemptId ∈ attempts ∨
      r.state.hasAttempt d.attemptId = true) (fail .invalidInput)
  match r.batch.now with
  | none => .error (fail .invalidInput)
  | some now => do
    refuse (now < c.receipt.acceptedAtMs) (fail .invalidInput)
    refuse (dispatchDeadline r.state c < now) (fail .expired)
    match c.command.input with
    | .prompt _ .queueNext _ _ => refuse (otherDispatched r c = true) (fail .contentConflict)
    | .prompt _ .steer target _ =>
      refuse (r.stage.capabilities.steer ≠ .supported ∨ target ≠ r.stage.binding.nativeRunId ∨
        d.nativeRunId ≠ target ∨ steerTarget r target = false) (fail .staleBinding)
    | _ => .ok ()

/-- A dispatch only gains coordinates, and only a rejected submission removes it. -/
def checkAttempt (attempts : List Id) : Except Failure (List Id) :=
  match old.bind (·.dispatch), c.dispatch with
  | some before, some after => do
    refuse (before.nativeThreadId ≠ after.nativeThreadId) (fail .staleBinding)
    refuse (DispatchAttempt.retains before after = false) (fail .staleBinding)
    refuse (before.certainty = .submitted ∧ after.certainty ≠ .submitted) (fail .contentConflict)
    refuse (before.certainty ≠ .intent ∧ after.certainty = .intent) (fail .contentConflict)
    return attempts
  | none, some d => do
    checkFirstDispatch r c old attempts d
    return attempts ++ [d.attemptId]
  | some _, none => do
    refuse ((r.resolution c.commandId).bind (·.status.resolution) ≠ some .notSubmitted)
      (fail .invalidInput)
    return attempts
  | none, none => .ok attempts

/-- Every new or changed dispatch is published by exactly one event. -/
def checkDispatchEvent : Except Failure Unit :=
  match c.dispatch with
  | none => .ok ()
  | some d => do
    refuse (old.bind (·.dispatch) ≠ some d ∧
      (r.batch.events.filter fun e => e.commandId = some c.commandId && isDispatch e.body).map (·.body)
        ≠ [.dispatch d]) (fail .invalidInput)
    refuse (d.certainty = .unknown ∧ d.correlationId = none) (fail .invalidInput)

def isSubmitted (state : CommandState) : Bool := state.dispatch.any (·.certainty = .submitted)

/-- Native progress is believed only on the evidence of the provider. -/
def checkAuthority : Except Failure Unit := do
  refuse (((c.state.name = .terminal ∧ old.map (·.state.name) ≠ some .terminal) ∨
      (c.state.name = .running ∧ old.map (·.state.name) ≠ some .running) ∨
      (isSubmitted c.state = true ∧ (old.any fun o => isSubmitted o.state) = false)) ∧
    (r.resolution c.commandId).bind (·.status.resolution) ∉
      [some .submitted, some .running, some .terminal, some .acknowledged]) (fail .permissionDenied)
  refuse (c.state.name = .running ∧ isSubmitted c.state = false) (fail .invalidInput)

def staleRecords : List CommandRecord :=
  r.state.commandsInStates [.running] ++
    match c.command.input with
    | .cancel target _ _ => (r.state.commands.get target).toList
    | _ => []

def checkInvalidated (failure : Failure) : Except Failure Unit :=
  refuse (failure.retry ≠ .never ∨ failure.code ∉ [.expired, .staleBinding, .unavailable] ∨
    ((r.resolution c.commandId).bind (·.status.resolution) ≠ some .notSubmitted ∧
      ¬(old.map (·.state.name) = some .accepted ∧
        ((failure.code = .expired ∧ r.batch.now.any (dispatchDeadline r.state c < ·) = true) ∨
          (failure.code = .staleBinding ∧
            controlIsStale r.stage (staleRecords r c) c.command = true)))) ∨
    r.batch.announces c.commandId (.invalidated failure) = false) (fail .invalidInput)

def checkCancelled (cancelledBy : Id) : Except Failure Unit :=
  refuse (old.map (·.state.name) ≠ some .accepted ∨ c.command.input.isQueueNext = false ∨
    (r.batch.commands.find? (·.commandId = cancelledBy)).map (·.state) ≠
      some (.queuedCancelled c.commandId) ∨
    r.batch.announces c.commandId (.cancelled cancelledBy) = false) (fail .invalidInput)

def checkQueuedCancelled (target : Id) : Except Failure Unit :=
  match c.command.input with
  | .cancel targetCommandId generation _ =>
    refuse (old.map (·.state.name) ≠ some .accepted ∨ targetCommandId ≠ target ∨
      (r.batch.commands.find? (·.commandId = target)).map (·.state) ≠ some (.cancelled c.commandId) ∨
      generation ≠ r.batch.expectedGeneration ∨
      r.batch.announces c.commandId (.queuedCancelled target) = false) (fail .invalidInput)
  | _ => .error (fail .invalidInput)

def acknowledges : Input → Acknowledgement → Bool
  | .prompt _ .steer _ _, .steer => true
  | .cancel .., .cancel _ => true
  | .respond .., .respond => true
  | _, _ => false

def checkAcknowledged (d : DispatchAttempt) (acknowledgement : Acknowledgement) : Except Failure Unit :=
  refuse (old.bind (·.dispatch) = none ∨ d.certainty ≠ .submitted ∨
    (r.resolution c.commandId).map (·.status) ≠ some (.acknowledged acknowledgement) ∨
    acknowledges c.command.input acknowledgement = false ∨
    r.batch.announces c.commandId (.acknowledged acknowledgement) = false) (fail .invalidInput)

def checkTerminal (d : DispatchAttempt) (outcome : Outcome) : Except Failure Unit :=
  refuse (c.command.input.isQueueNext = false ∨ old.bind (·.dispatch) = none ∨
    d.certainty ≠ .submitted ∨
    (r.batch.events.any fun e => e.commandId = some c.commandId && e.attemptId = some d.attemptId &&
      e.generation = d.observerGeneration && e.body = .terminal outcome) = false) (fail .invalidInput)

/-- Each way to settle a command has its own evidence in the same batch. -/
def checkSettlement : Except Failure Unit :=
  if old.map (·.state.name) = some c.state.name then .ok () else
  match c.state with
  | .invalidated failure => checkInvalidated r c old failure
  | .cancelled cancelledBy => checkCancelled r c old cancelledBy
  | .queuedCancelled target => checkQueuedCancelled r c old target
  | .acknowledged d acknowledgement => checkAcknowledged r c old d acknowledgement
  | .terminal d outcome => checkTerminal r c old d outcome
  | _ => .ok ()

def publishesState (e : Event) : Bool :=
  e.commandId = some c.commandId &&
    match e.body with
    | .commandAccepted command => old.isNone && c.state.name = .accepted && command = c.command
    | .status state => state.name = c.state.name
    | _ => false

def checkStateEvent : Except Failure Unit :=
  refuse (old.map (·.state.name) ≠ some c.state.name ∧ isSettled c = false ∧
    ¬(c.state.name = .accepted ∧
      (r.resolution c.commandId).bind (·.status.resolution) = some .notSubmitted) ∧
    (r.batch.events.any (publishesState c old)) = false) (fail .invalidInput)

/-- All checks of one record against the stored one. -/
def checkCommand (attempts : List Id) : Except Failure (List Id) := do
  checkHistory r c old
  checkObserver r c
  checkChange r c old
  let attempts ← checkAttempt r c old attempts
  checkDispatchEvent r c old
  checkAuthority r c old
  checkSettlement r c old
  checkStateEvent r c old
  return attempts

end Commands

structure CommandPass where
  commands : Rows CommandRecord.commandId
  commandIds : List Id
  attemptIds : List Id

def reviewCommand (r : Review) (pass : CommandPass) (c : CommandRecord) : Except Failure CommandPass := do
  refuse (some c.receipt.stageId ≠ r.state.session.currentStageId) (fail .staleBinding)
  refuse (c.commandId ∈ pass.commandIds) (fail .invalidInput)
  refuse (c.receipt.scope ≠ r.batch.scope ∨ c.command.sessionId ≠ r.batch.scope.sessionId)
    (fail .permissionDenied)
  let attemptIds ← checkCommand r c (r.state.commands.get c.commandId) pass.attemptIds
  return ⟨pass.commands.set c, pass.commandIds ++ [c.commandId], attemptIds⟩

def reviewCommands (r : Review) : List CommandRecord → CommandPass → Except Failure CommandPass
  | [], pass => .ok pass
  | c :: rest, pass => do reviewCommands r rest (← reviewCommand r pass c)

/-! ## The owner of the turn and the native coordinates -/

def ownsTurn (c : CommandRecord) : Bool :=
  c.command.input.isQueueNext && c.dispatch.isSome && !isSettled c

def coordinatesMatch (c : CommandRecord) (binding : Binding) : Bool :=
  c.dispatch.any fun d => d.nativeRunId = binding.nativeRunId && d.nativeRequestId = binding.nativeRequestId

def turnOf (copy : SessionWorkspace) (binding : Binding) : List CommandRecord :=
  copy.commandsForNativeTurn binding.nativeSessionId binding.nativeThreadId binding.nativeRunId
    binding.nativeRequestId

/-- The coordinates of the session follow a submitted turn, or are cleared after it. -/
def checkCoordinates (r : Review) (copy : SessionWorkspace) (old next : Binding) : Except Failure Unit :=
  if old.nativeRunId = next.nativeRunId ∧ old.nativeRequestId = next.nativeRequestId then .ok ()
  else
    let records := turnOf copy old ++ turnOf copy next
    if next.nativeRunId ≠ none ∨ next.nativeRequestId ≠ none then
      refuse ((records.any fun c =>
        (c.state.name = .dispatching || c.state.name = .running ||
          (c.state.name = .terminal &&
            (r.resolution c.commandId).bind (·.status.resolution) = some .terminal)) &&
        isSubmitted c.state && coordinatesMatch c next) = false) (fail .staleBinding)
    else
      let original := records.filter fun c => c.dispatch.any fun d =>
        d.nativeSessionId = old.nativeSessionId && d.nativeThreadId = old.nativeThreadId &&
        (if old.nativeRunId ≠ none then decide (d.nativeRunId = old.nativeRunId)
          else coordinatesMatch c old)
      refuse (original = [] ∨ (original.any fun c => !isSettled c && c.state.name ≠ .accepted) = true)
        (fail .staleBinding)

end RssMdmAgent.BatchReview
