import RssMdmAgent.BatchCommit
import RssMdmAgent.TransitionRuns

set_option autoImplicit false

/-! # The operations on a session -/

namespace RssMdmAgent.SessionOperations
open BoundedJson OrderedRows SessionRecords SessionValidity SessionState BatchReview BatchCommit

structure Retention where
  retryWindowMs : Nat
  receiptWindowMs : Nat
  deriving DecidableEq, Repr

structure AcceptCommand where
  scope : Namespace
  command : Command
  expectedRevision : Nat
  expectedGeneration : Id
  nowMs : Nat
  retention : Retention
  eventId : Id
  deriving DecidableEq, Repr

structure RecoveryUnavailable where
  scope : Namespace
  expectedRevision : Nat
  expectedGeneration : Id
  eventId : Id
  deriving DecidableEq, Repr

structure SessionSuspension extends RecoveryUnavailable where
  nowMs : Nat
  retention : Retention
  deriving DecidableEq, Repr

/-- Process-local admission evidence; the link to a previous incarnation is set by the resume path. -/
structure VerifiedProviderSession where
  scope : Namespace
  binding : Binding
  capabilities : Capabilities
  previous : Option (Namespace × Binding)
  deriving DecidableEq, Repr

def VerifiedProviderSession.opens (v : VerifiedProviderSession) (scope : Namespace) : Bool :=
  v.previous.isNone && v.scope = scope

def VerifiedProviderSession.restores (v : VerifiedProviderSession) (session : Session) : Bool :=
  match activeStage? session with
  | some stage => v.previous = some (session.scope, stage.binding)
  | none => false

structure StageActivation where
  scope : Namespace
  expectedRevision : Nat
  configRevision : Nat
  opened : VerifiedProviderSession
  deriving DecidableEq, Repr

/-! ## Acceptance -/

/-- A response to a surface names its current active revision. -/
def checkReference (state : SessionWorkspace) (interactionId : Id)
    (reference : Option SurfaceReference) : Except Failure Unit :=
  if (state.surfacesForInteraction interactionId).isEmpty = true ∧ reference.isNone = true then .ok ()
  else
    match reference.bind fun ref => (state.surfaces.get ref.instanceId).map (ref, ·) with
    | none => .error (fail .staleBinding)
    | some (ref, surface) => do
      refuse (surface.interactionId ≠ interactionId ∨ surface.revision ≠ ref.revision)
        (fail .staleBinding)
      refuse (surface.status ≠ .active) (fail .unavailable)

/-- The question of a response, once it is answered by this command. -/
def answerInteraction (state : SessionWorkspace) (input : AcceptCommand) (interactionId generation : Id)
    (nativeRunId : Option Id) (reference : Option SurfaceReference) : Except Failure Interaction := do
  checkReference state interactionId reference
  match state.interactions.get interactionId with
  | none => .error (fail .unavailable)
  | some interaction => do
    refuse (interaction.status = .unavailable) (fail .unavailable)
    refuse (interaction.generation ≠ generation ∨ generation ≠ input.expectedGeneration ∨
      interaction.nativeRunId ≠ nativeRunId) (fail .staleBinding)
    refuse (interactionName interaction.status = .answered) (fail .alreadyAnswered)
    refuse (interaction.status = .expired ∨ interaction.expiresAtMs < input.nowMs) (fail .expired)
    return { interaction with status := .answered input.command.commandId }

def acceptedInteractions (state : SessionWorkspace) (input : AcceptCommand) :
    Except Failure (List Interaction) :=
  match input.command.input with
  | .respond interactionId generation nativeRunId _ reference => do
    return [← answerInteraction state input interactionId generation nativeRunId reference]
  | _ => .ok []

section Operations
variable [RecordHashing] [SurfaceCatalog]

/-- The events of answered interactions name the attempt that asked. -/
def answerEvents (state : SessionWorkspace) (input : AcceptCommand) :
    Nat → List Interaction → Except Failure (List Event)
  | _, [] => .ok []
  | index, row :: rest =>
    match (state.commands.get row.commandId).bind (·.dispatch) with
    | none => .error (fail .invalidInput)
    | some dispatch => do
      let event : Event := {
        scope := input.scope
        eventId := RecordHashing.eventId input.eventId s!"answer-{index}"
        sequence := state.session.lastSequence + 2 + index
        generation := row.generation
        commandId := some row.commandId
        attemptId := some dispatch.attemptId
        body := .interactionAnswered row.interactionId input.command.commandId }
      return event :: (← answerEvents state input (index + 1) rest)

def receiptOf (state : SessionWorkspace) (stage : ContextStage) (input : AcceptCommand) : Receipt where
  scope := input.scope
  commandId := input.command.commandId
  contentHash := RecordHashing.fingerprint input.command
  acceptedAtMs := input.nowMs
  retryUntilMs := min input.command.expiresAtMs (input.nowMs + input.retention.retryWindowMs)
  receiptUntilMs := input.nowMs + input.retention.receiptWindowMs
  acceptedRevision := state.session.revision + 1
  stageId := stage.stageId

def acceptanceBatch (state : SessionWorkspace) (stage : ContextStage) (input : AcceptCommand)
    (interactions : List Interaction) (answered : List Event) : SessionCommit where
  scope := input.scope
  expectedRevision := input.expectedRevision
  expectedGeneration := input.expectedGeneration
  session := { state.session with
    revision := state.session.revision + 1
    lastSequence := state.session.lastSequence + 1 + interactions.length }
  commands := [⟨input.command, receiptOf state stage input, .accepted⟩]
  events := {
    scope := input.scope
    eventId := input.eventId
    sequence := state.session.lastSequence + 1
    generation := stage.binding.generation
    commandId := some input.command.commandId
    attemptId := none
    body := .commandAccepted input.command } :: answered
  interactions := interactions
  deliveries := []
  surfaces := []
  providerFacts := []
  nowMs := none

def checkRetention (nowMs : Nat) (retention : Retention) : Except Failure Unit :=
  refuse (isCounter retention.retryWindowMs = false ∨ retention.retryWindowMs < 1 ∨
    isCounter retention.receiptWindowMs = false ∨ retention.receiptWindowMs < retention.retryWindowMs ∨
    isCounter (nowMs + retention.receiptWindowMs) = false) (fail .invalidInput)

def isCancel : Input → Bool
  | .cancel .. => true
  | _ => false

/-- A command that is not known yet. -/
def acceptFresh (limits : Limits) (state : SessionWorkspace) (input : AcceptCommand) (suspending : Bool) :
    Except Failure (SessionWorkspace × Receipt) := do
  refuse (state.session.status ≠ .active ∧ ¬(suspending = true ∧
    state.session.status = .recoveryRequired ∧ isCancel input.command.input = true)) (fail .sessionGone)
  refuse (state.session.currentStageId = none) (fail .connectionRequired)
  refuse (input.command.expiresAtMs < input.nowMs) (fail .expired)
  checkRetention input.nowMs input.retention
  checkState (if suspending then awake state else state) input.expectedRevision input.expectedGeneration
  let stage ← activeStage state.session
  let interactions ← acceptedInteractions state input
  let answered ← answerEvents state input 0 interactions
  let next ← reduceCommit limits state (acceptanceBatch state stage input interactions answered) true
    suspending
  return (next, receiptOf state stage input)

def reduceAcceptance (limits : Limits) (state : SessionWorkspace) (input : AcceptCommand)
    (suspending : Bool) : Except Failure (SessionWorkspace × Receipt) := do
  refuse (valid limits (.command input.command) = false ∨ isId input.eventId = false)
    (fail .invalidInput)
  refuse (input.command.sessionId ≠ input.scope.sessionId) (fail .permissionDenied)
  refuse (isCounter input.nowMs = false) (fail .invalidInput)
  refuse ((← sameNamespace input.scope state.session.scope) = false) (fail .permissionDenied)
  match state.commands.get input.command.commandId with
  | some prior => do
    refuse (prior.receipt.contentHash ≠ RecordHashing.fingerprint input.command) (fail .contentConflict)
    refuse (prior.receipt.receiptUntilMs < input.nowMs) (fail .expired)
    return (state, prior.receipt)
  | none => acceptFresh limits state input suspending

def acceptCommand (limits : Limits) (state : SessionWorkspace) (input : AcceptCommand) :
    Except Failure (SessionWorkspace × Receipt) := reduceAcceptance limits state input false

/-! ## Handoff -/

structure HandoffPass where
  copy : SessionWorkspace
  events : List Event

section Handoff
variable (limits : Limits) (state : SessionWorkspace) (input : RecoveryUnavailable) (generation : Id)

def derivedEvent (events : List Event) (commandId attemptId : Option Id) (body : EventBody)
    (label : String) : Event where
  scope := input.scope
  eventId := RecordHashing.eventId input.eventId label
  sequence := state.session.lastSequence + events.length + 1
  generation := generation
  commandId := commandId
  attemptId := attemptId
  body := body

def append (events : List Event) (commandId attemptId : Option Id) (body : EventBody) (label : String) :
    Except Failure (List Event) := do
  let event := derivedEvent state input generation events commandId attemptId body label
  guarded (validate limits (.event event))
  refuse (state.hasEvent event.eventId = true) (thrown .context)
  return events ++ [event]

def staleFailure : Failure := ⟨.staleBinding, .never⟩

def handoffCommand (pass : HandoffPass) (c : CommandRecord) : Except Failure HandoffPass :=
  if isSettled c then .ok pass
  else
    match c.dispatch with
    | some d => do
      let dispatch := { d with observerGeneration := generation }
      let events ← append limits state input generation pass.events (some c.commandId)
        (some dispatch.attemptId) (.status .reconciliationRequired) s!"command-{c.commandId}"
      let commands := pass.copy.commands.set { c with state := .reconciliationRequired dispatch }
      return ⟨{ pass.copy with commands }, events⟩
    | none =>
      if c.command.input.isQueueNext then .ok pass
      else do
        let events ← append limits state input generation pass.events (some c.commandId) none
          (.invalidated staleFailure) s!"command-{c.commandId}"
        let commands := pass.copy.commands.set { c with state := .invalidated staleFailure }
        return ⟨{ pass.copy with commands }, events⟩

def attemptOf (copy : SessionWorkspace) (command : Id) : Except Failure Id :=
  match (copy.commands.get command).bind (·.dispatch) with
  | some dispatch => .ok dispatch.attemptId
  | none => .error (fail .invalidInput)

def handoffInteraction (pass : HandoffPass) (row : Interaction) : Except Failure HandoffPass :=
  if row.status ≠ .pending then .ok pass
  else do
    let events ← append limits state input generation pass.events (some row.commandId)
      (some (← attemptOf pass.copy row.commandId)) (.interactionUnavailable row.interactionId)
      s!"interaction-{row.interactionId}"
    let interactions := pass.copy.interactions.set { row with status := .unavailable }
    return ⟨{ pass.copy with interactions }, events⟩

def withdrawn (row : SurfaceState) : SurfaceState :=
  { row with status := .invalidated, revision := row.revision + 1 }

def handoffSurface (pass : HandoffPass) (row : SurfaceState) : Except Failure HandoffPass :=
  if row.status ≠ .active then .ok pass
  else do
    guarded (validate limits (.surface (withdrawn row)))
    match pass.copy.interactions.get row.interactionId with
    | none => .error (fail .invalidInput)
    | some interaction => do
      let events ← append limits state input generation pass.events (some interaction.commandId)
        (some (← attemptOf pass.copy interaction.commandId)) (.surface (withdrawn row))
        s!"surface-{row.surfaceInstanceId}"
      let surfaces := pass.copy.surfaces.set (withdrawn row)
      return ⟨{ pass.copy with surfaces }, events⟩

end Handoff

def addGeneration (generations : List Id) (generation : Id) : List Id :=
  if generation ∈ generations then generations else generations ++ [generation]

/-- The rows and the events of a handoff, in the order of the derived events. -/
def handoffRows (limits : Limits) (state : SessionWorkspace) (input : RecoveryUnavailable)
    (generation : Id) (first : EventBody) : Except Failure HandoffPass := do
  let events ← append limits state input generation [] none none first "rebind"
  let pass ← (state.commandsInStates openStates).foldlM
    (handoffCommand limits state input generation) ⟨state, events⟩
  let pass ← pass.copy.interactions.entries.foldlM (handoffInteraction limits state input generation) pass
  pass.copy.surfaces.entries.foldlM (handoffSurface limits state input generation) pass

/-- Both unavailable recovery and verified rebind atomically invalidate live callbacks. -/
def reduceHandoff (limits : Limits) (state : SessionWorkspace) (input : RecoveryUnavailable)
    (restored : Option VerifiedProviderSession) : Except Failure SessionWorkspace := do
  refuse (isId input.eventId = false) (fail .invalidInput)
  refuse (state.session.status = .retired) (fail .sessionGone)
  checkState (awake state) input.expectedRevision input.expectedGeneration
  refuse ((← sameNamespace input.scope state.session.scope) = false) (fail .permissionDenied)
  refuse (restored.any (fun v => !v.restores state.session) = true) (fail .permissionDenied)
  let stage ← activeStage state.session
  refuse (restored.any (fun v => v.binding.generation ∈ state.generations ||
    stage.capabilities.continuation ≠ .acrossProcesses) = true) (fail .staleBinding)
  let binding := (restored.map (·.binding)).getD stage.binding
  let capabilities := (restored.map (·.capabilities)).getD stage.capabilities
  let pass ← handoffRows limits state input binding.generation
    (match restored with
      | some _ => .sessionRebound stage.binding.generation
      | none => .sessionRecoveryUnavailable)
  let session := replaceStage { state.session with
    status := if restored.isSome then .active else .recoveryRequired
    revision := state.session.revision + 1
    lastSequence := state.session.lastSequence + pass.events.length } binding capabilities
  guarded (validate limits (.session session))
  return { pass.copy with
    session := session
    generations := addGeneration state.generations binding.generation
    events := state.events ++ pass.events }

def rebindSession (limits : Limits) (state : SessionWorkspace) (input : RecoveryUnavailable)
    (restored : VerifiedProviderSession) : Except Failure SessionWorkspace :=
  reduceHandoff limits state input (some restored)

def recoverUnavailable (limits : Limits) (state : SessionWorkspace) (input : RecoveryUnavailable) :
    Except Failure SessionWorkspace := reduceHandoff limits state input none

/-! ## Suspension -/

/-- The acknowledged cancel and the cancelled prompt. -/
def cancellationBatch (input : SessionSuspension) (generation : Id) (next : SessionWorkspace)
    (cancel target : CommandRecord) : SessionCommit :=
  let event (index : Nat) (id : Id) (body : EventBody) : Event :=
    ⟨input.scope, RecordHashing.eventId cancel.commandId (toString index),
      next.session.lastSequence + index + 1, generation, some id, none, body⟩
  { scope := input.scope
    expectedRevision := next.session.revision
    expectedGeneration := generation
    session := { next.session with
      revision := next.session.revision + 1
      lastSequence := next.session.lastSequence + 2 }
    commands := [{ cancel with state := .queuedCancelled target.commandId },
      { target with state := .cancelled cancel.commandId }]
    events := [event 0 cancel.commandId (.queuedCancelled target.commandId),
      event 1 target.commandId (.cancelled cancel.commandId)]
    interactions := []
    deliveries := []
    surfaces := []
    providerFacts := []
    nowMs := some input.nowMs }

/-- Cancels one queued prompt: an accepted local cancel, then its acknowledgement. -/
def cancelQueued (limits : Limits) (input : SessionSuspension) (generation : Id)
    (next : SessionWorkspace) (target : CommandRecord) : Except Failure SessionWorkspace :=
  if target.state.name ≠ .accepted ∨ target.dispatch.isSome = true ∨
      target.command.input.isQueueNext = false then .ok next
  else do
    let commandId := RecordHashing.eventId input.eventId s!"cancel-{target.commandId}"
    let (next, _) ← reduceAcceptance limits next {
      scope := input.scope
      expectedRevision := next.session.revision
      expectedGeneration := generation
      nowMs := input.nowMs
      retention := input.retention
      eventId := RecordHashing.eventId commandId "accepted"
      command := {
        sessionId := input.scope.sessionId
        commandId := commandId
        expiresAtMs := input.nowMs + input.retention.retryWindowMs
        input := .cancel target.commandId generation none } } true
    match next.commands.get commandId with
    | none => .error (fail .invalidInput)
    | some cancel => reduceCommit limits next (cancellationBatch input generation next cancel target) false true

/-- A caller fence cancels unsent work even without a provider; dispatched work remains uncertain. -/
def suspendSession (limits : Limits) (state : SessionWorkspace) (input : SessionSuspension) :
    Except Failure SessionWorkspace := do
  refuse ((← sameNamespace state.session.scope input.scope) = false) (fail .permissionDenied)
  refuse (state.session.revision ≠ input.expectedRevision) ⟨.revisionConflict, .sameCommand⟩
  if state.session.status = .retired ∨ state.session.currentStageId = none then .ok state
  else do
    let stage ← activeStage state.session
    refuse (stage.binding.generation ≠ input.expectedGeneration ∨ isId input.eventId = false)
      (fail .staleBinding)
    let next ← (state.commandsInStates [.accepted]).foldlM
      (cancelQueued limits input stage.binding.generation) state
    if next.session.status = .active then
      reduceHandoff limits next
        { input.toRecoveryUnavailable with expectedRevision := next.session.revision } none
    else .ok next

/-! ## Retirement, selection and activation -/

def retireSession (limits : Limits) (state : SessionWorkspace) (revision : Nat) (generation : Id) :
    Except Failure SessionWorkspace := do
  checkState state revision generation
  refuse (hasUnsettled state = true ∨
    (state.interactions.entries.any fun i => i.status = .pending) = true ∨
    ((state.deliveriesInStates [.pending, .receiptRecorded, .reconciliationRequired]).any
      fun d => d.status ≠ .delivered) = true) ⟨.reconciliationRequired, .reconcileFirst⟩
  let scope := state.session.scope
  let session := { state.session with
    status := .retired
    revision := revision + 1
    lastSequence := state.session.lastSequence + 1 }
  let key ← namespaceKey scope
  let event : Event := ⟨scope, RecordHashing.eventId
    ("[" ++ ",".intercalate (key.map fun part => "\"" ++ part ++ "\"") ++ "]") s!"retire-{revision}",
    session.lastSequence, generation, none, none, .sessionRetired⟩
  guarded (validate limits (.session session))
  guarded (validate limits (.event event))
  return { state with session := session, events := state.events ++ [event] }

end Operations

/-- Selection changes the next prompt's intent, never an already accepted receipt. -/
def selectConnection (state : SessionWorkspace) (connectionId : Id) (revision : Nat)
    (freshContext : Bool) : Except Failure SessionWorkspace := do
  refuse (isId connectionId = false) (fail .invalidInput)
  refuse (state.session.status = .retired) (fail .sessionGone)
  refuse (state.session.revision ≠ revision) ⟨.revisionConflict, .sameCommand⟩
  refuse (freshContext = true ∧ hasUnsettled state = true) (fail .connectionSwitchPending)
  if freshContext = false ∧ state.session.selectedConnectionId = some connectionId then .ok state
  else
    let session := { state.session with selectedConnectionId := some connectionId, revision := revision + 1 }
    .ok { state with session :=
      if freshContext then { session with freshContext := true, status := .active } else session }

def closedInteraction (row : Interaction) : Interaction :=
  if row.status = .pending then { row with status := .unavailable } else row

def closedSurface (row : SurfaceState) : SurfaceState :=
  if row.status = .active then { row with status := .invalidated } else row

def mapRows {ρ : Type} {key : ρ → Id} (rows : Rows key) (change : ρ → ρ) : Rows key :=
  rows.entries.foldl (fun rows row => rows.set (change row)) rows

def activateStage [RecordHashing] (state : SessionWorkspace) (input : StageActivation) :
    Except Failure SessionWorkspace := do
  refuse ((← sameNamespace state.session.scope input.scope) = false) (fail .permissionDenied)
  refuse (state.session.status = .retired) (fail .sessionGone)
  refuse (state.session.revision ≠ input.expectedRevision) ⟨.revisionConflict, .sameCommand⟩
  refuse (input.opened.opens input.scope = false) (fail .permissionDenied)
  refuse (hasUnsettled state = true) (fail .connectionSwitchPending)
  let binding := input.opened.binding
  refuse (some binding.config.id ≠ state.session.selectedConnectionId ∨
    binding.generation ∈ state.generations) (fail .staleBinding)
  let session ← startStage
    { state.session with status := .active, revision := state.session.revision + 1 }
    (providerStage binding input.opened.capabilities input.configRevision)
  guarded (validate defaultLimits (.session session))
  return { state with
    session := session
    generations := addGeneration state.generations binding.generation
    interactions := mapRows state.interactions closedInteraction
    surfaces := mapRows state.surfaces closedSurface }

/-! ## Runs -/

inductive Operation where
  | accept (input : AcceptCommand)
  | commit (batch : SessionCommit)
  | rebind (input : RecoveryUnavailable) (restored : VerifiedProviderSession)
  | recoverUnavailable (input : RecoveryUnavailable)
  | suspend (input : SessionSuspension)
  | select (connectionId : Id) (revision : Nat) (freshContext : Bool)
  | activate (input : StageActivation)
  | retire (revision : Nat) (generation : Id)

structure Request where
  limits : Limits
  operation : Operation

section Requests
variable [RecordHashing] [SurfaceCatalog]

def Request.apply (q : Request) (state : SessionWorkspace) : Except Failure SessionWorkspace :=
  match q.operation with
  | .accept input => (acceptCommand q.limits state input).map (·.1)
  | .commit batch => commitSession q.limits state batch
  | .rebind input restored => rebindSession q.limits state input restored
  | .recoverUnavailable input => SessionOperations.recoverUnavailable q.limits state input
  | .suspend input => suspendSession q.limits state input
  | .select connectionId revision freshContext => selectConnection state connectionId revision freshContext
  | .activate input => activateStage state input
  | .retire revision generation => retireSession q.limits state revision generation

structure Transition where
  before : SessionWorkspace
  request : Request
  after : SessionWorkspace

def Step (s : SessionWorkspace) (label : Transition) (t : SessionWorkspace) : Prop :=
  label.before = s ∧ label.after = t ∧ label.request.apply s = .ok t

end Requests

end RssMdmAgent.SessionOperations
