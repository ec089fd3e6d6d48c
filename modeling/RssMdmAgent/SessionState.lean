import RssMdmAgent.OrderedRows
import RssMdmAgent.SessionValidity

set_option autoImplicit false

/-! # The transaction workspace of a session and its queries -/

namespace RssMdmAgent.SessionState
open BoundedJson OrderedRows SessionRecords SessionValidity

/-- The reducer's view of one session: its head and all its rows. -/
structure SessionWorkspace where
  session : Session
  generations : List Id
  commands : Rows CommandRecord.commandId
  events : List Event
  interactions : Rows Interaction.interactionId
  deliveries : Rows Delivery.operationId
  surfaces : Rows SurfaceState.surfaceInstanceId
  deriving DecidableEq

/-! ## Failures -/

def fail (code : ErrorCode) : Failure := ⟨code, .never⟩

def thrown : Diagnostic → Failure
  | .limit => fail .limitExceeded
  | _ => fail .invalidInput

def refuse (bad : Prop) [Decidable bad] (error : Failure) : Except Failure Unit :=
  if bad then .error error else .ok ()

@[simp] theorem refuse_ok {bad : Prop} [Decidable bad] {error : Failure} {u : Unit} :
    refuse bad error = .ok u ↔ ¬bad := by
  unfold refuse
  split <;> simp_all

def guarded {α : Type} (action : Except Diagnostic α) : Except Failure α := action.mapError thrown

@[simp] theorem guarded_ok {α : Type} {action : Except Diagnostic α} {value : α} :
    guarded action = .ok value ↔ action = .ok value := by
  cases action <;> simp [guarded, Except.mapError]

/-! ## Stages -/

def activeStage? (session : Session) : Option ContextStage :=
  session.stages.find? fun row => some row.stageId = session.currentStageId

def activeStage (session : Session) : Except Failure ContextStage :=
  match activeStage? session with
  | some stage => .ok stage
  | none => .error (thrown .context)

theorem activeStage_ok {session : Session} {stage : ContextStage} :
    activeStage session = .ok stage ↔ activeStage? session = some stage := by
  unfold activeStage
  split <;> simp_all

def providerStage (binding : Binding) (capabilities : Capabilities) (configRevision : Nat) : ContextStage :=
  ⟨binding.generation, binding.config.id, configRevision, binding, capabilities⟩

def startStage (session : Session) (stage : ContextStage) : Except Failure Session :=
  if session.stages.any (fun row => row.stageId = stage.stageId) then .error (thrown .context)
  else .ok { session with
    freshContext := false
    currentStageId := some stage.stageId
    selectedConnectionId := some stage.connectionId
    stages := session.stages ++ [stage] }

def replaceStage (session : Session) (binding : Binding) (capabilities : Capabilities) : Session :=
  { session with stages := session.stages.map fun row =>
      if session.currentStageId = some row.stageId then { row with binding, capabilities } else row }

def providerIdentity (binding : Binding) : Binding :=
  { binding with nativeRunId := none, nativeRequestId := none }

def namespaceKey (n : Namespace) : Except Failure (List Id) :=
  if Namespace.accepts n then .ok [n.tenantId, n.principalId, n.authorityId, n.sessionId]
  else .error (thrown .context)

def sameNamespace (a b : Namespace) : Except Failure Bool := do
  return decide ((← namespaceKey a) = (← namespaceKey b))

/-! ## Queries -/

def openStates : List StateName := [.accepted, .dispatching, .running, .reconciliationRequired]

namespace SessionWorkspace
variable (state : SessionWorkspace)

def hasEvent (id : Id) : Bool := state.events.any fun e => e.eventId = id

def event (id : Id) : Option Event := state.events.find? fun e => e.eventId = id

def hasAttempt (id : Id) : Bool := state.events.any fun e => e.attemptId = some id

def commandsInStates (states : List StateName) : List CommandRecord :=
  state.commands.select fun c => states.contains c.state.name

def commandsForNativeTurn (session : Id) (thread run request : Option Id) : List CommandRecord :=
  state.commands.select fun c => c.dispatch.any fun d =>
    d.nativeSessionId = session && d.nativeThreadId = thread && d.nativeRunId = run &&
    (run.isSome || d.nativeRequestId = request)

def interactionForCallback (generation callback : Id) : Option Interaction :=
  state.interactions.entries.find? fun i => i.generation = generation && i.nativeCallbackId = callback

def interactionsForCommand (command : Id) : List Interaction :=
  state.interactions.select fun i => i.commandId = command

def surfacesForInteraction (interaction : Id) : List SurfaceState :=
  state.surfaces.select fun s => s.interactionId = interaction

def deliveriesInStates (states : List DeliveryStatus) : List Delivery :=
  state.deliveries.select fun d => states.contains d.status

def hasNotSubmittedReconciliation (command : Id) : Bool :=
  state.events.any fun e => e.commandId = some command &&
    match e.body with
    | .reconciled _ .notSubmitted => true
    | _ => false

end SessionWorkspace

def hasUnsettled (state : SessionWorkspace) : Bool :=
  (state.commandsInStates openStates).any fun c => !isSettled c

theorem unsettled_open {c : CommandRecord} : isSettled c = false ↔ c.state.name ∈ openStates := by
  unfold isSettled openStates
  cases c.state <;> simp [CommandState.name]

theorem hasUnsettled_iff {state : SessionWorkspace} :
    hasUnsettled state = true ↔ ∃ c ∈ state.commands.entries, isSettled c = false := by
  simp only [hasUnsettled, SessionWorkspace.commandsInStates, List.any_eq_true, Rows.mem_select,
    List.contains_iff_mem, Bool.not_eq_true', ← unsettled_open]
  constructor
  · rintro ⟨c, ⟨mem, _⟩, unsettled⟩
    exact ⟨c, mem, unsettled⟩
  · rintro ⟨c, mem, unsettled⟩
    exact ⟨c, ⟨mem, unsettled⟩, unsettled⟩

def createState [RecordHashing] (session : Session) (limits : Limits) :
    Except Failure SessionWorkspace := do
  refuse (valid limits (.session session) = false) (fail .invalidInput)
  refuse (session.revision ≠ 0 ∨ session.lastSequence ≠ 0 ∨ session.status ≠ .active)
    (fail .invalidInput)
  return ⟨session, session.stages.map (·.binding.generation), .empty, [], .empty, .empty, .empty⟩

/-! ## Provider facts -/

def DispatchAttempt.retains (before after : DispatchAttempt) : Bool :=
  before.attemptId = after.attemptId && before.originGeneration = after.originGeneration &&
  before.observerGeneration = after.observerGeneration && before.nativeSessionId = after.nativeSessionId &&
  (before.nativeRunId.isNone || before.nativeRunId = after.nativeRunId) &&
  (before.nativeRequestId.isNone || before.nativeRequestId = after.nativeRequestId) &&
  (before.correlationId.isNone || before.correlationId = after.correlationId)

def matchesCoordinates (d : DispatchAttempt) (b : Binding) : Bool :=
  (d.nativeRunId.isNone || b.nativeRunId = d.nativeRunId) &&
  (d.nativeRequestId.isNone || b.nativeRequestId = d.nativeRequestId)

/-- Structural copies of a fact cannot recover the private evidence. -/
def providerFactFor (proof : VerifiedProviderFact) (session : Session) (record : CommandRecord) :
    Option Reconciliation :=
  match proof.evidence, activeStage? session with
  | some evidence, some stage =>
    match evidence.record.dispatch, record.dispatch with
    | some seen, some dispatch =>
      if evidence.scope = session.scope ∧ evidence.binding = providerIdentity stage.binding ∧
          evidence.record.command = record.command ∧ evidence.record.receipt = record.receipt ∧
          DispatchAttempt.retains seen dispatch ∧ matchesCoordinates dispatch evidence.observation.binding then
        some evidence.observation
      else none
    | _, _ => none
  | _, _ => none

/-! ## Deadlines and controls -/

def dispatchDeadline (state : SessionWorkspace) (c : CommandRecord) : Nat :=
  if state.hasNotSubmittedReconciliation c.commandId then
    min c.command.expiresAtMs c.receipt.retryUntilMs
  else c.command.expiresAtMs

/-- Controls are scoped to their current native run, never the most recent unrelated turn. -/
def controlIsStale (stage : ContextStage) (records : List CommandRecord) (command : Command) : Bool :=
  match command.input with
  | .prompt _ policy targetRunId _ =>
    policy = .steer && (targetRunId ≠ stage.binding.nativeRunId ||
      !records.any fun row => row.state.name = .running && row.dispatch.any (·.nativeRunId = targetRunId))
  | .cancel targetCommandId generation nativeRunId =>
    if generation ≠ stage.binding.generation then true
    else if ((records.find? (·.commandId = targetCommandId)).bind (·.dispatch)).isNone then false
    else nativeRunId ≠ stage.binding.nativeRunId
  | .respond _ generation nativeRunId _ _ =>
    generation ≠ stage.binding.generation || nativeRunId ≠ stage.binding.nativeRunId

end RssMdmAgent.SessionState
