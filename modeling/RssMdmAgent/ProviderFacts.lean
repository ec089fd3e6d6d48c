import RssMdmAgent.SessionSchedule

set_option autoImplicit false

/-! # Provider observations, the facts they mint and the events the host appends -/

namespace RssMdmAgent.ProviderFacts
open BoundedJson SessionRecords SessionValidity SessionState SessionSchedule

/-! ## Observations -/

inductive ObservationKind where
  | submitted
  | running
  | acknowledged (acknowledgement : Acknowledgement)
  | report (observation : Observation)
  deriving DecidableEq, Repr

structure ProviderObservation where
  attemptId : Id
  commandId : Id
  binding : Binding
  kind : ObservationKind
  deriving DecidableEq, Repr

def isProviderBody : EventBody → Bool
  | .text .. | .terminal _ | .toolProposal .. | .toolResult .. | .error _ | .cancelDispatched _ | .surface _ => true
  | _ => false

def ObservationKind.status : ObservationKind → ReconciliationStatus
  | .submitted => .submitted
  | .running => .running
  | .acknowledged acknowledgement => .acknowledged acknowledgement
  | .report (.event (.terminal outcome)) => .terminal outcome
  | .report observation => .observed observation

def ProviderObservation.resolution (o : ProviderObservation) : Reconciliation :=
  ⟨o.commandId, o.attemptId, o.binding, o.kind.status⟩

def ProviderInteraction.json (i : ProviderInteraction) : JsonValue :=
  .record [("category", .text "question"), ("interactionId", .text i.interactionId),
    ("nativeCallbackId", .text i.nativeCallbackId), ("expiresAtMs", .ofNat i.expiresAtMs),
    ("callbackLifetime", .text "generation_bound"), ("request", .object i.request)]

def observationJson (r : Reconciliation) : Observation → JsonValue
  | .delta messageId text =>
    .record [("type", .text "delta"), ("binding", Binding.json r.binding), ("commandId", .text r.commandId),
      ("attemptId", .text r.attemptId), ("messageId", .text messageId), ("text", .text text)]
  | .event body =>
    .record [("type", .text "event"), ("binding", Binding.json r.binding), ("commandId", .text r.commandId),
      ("attemptId", .text r.attemptId), ("body", EventBody.json body)]
  | .interaction interaction =>
    .record [("type", .text "interaction"), ("binding", Binding.json r.binding), ("commandId", .text r.commandId),
      ("attemptId", .text r.attemptId), ("interaction", ProviderInteraction.json interaction)]
  | .interactionUnavailable interactionId =>
    .record [("type", .text "interaction_unavailable"), ("binding", Binding.json r.binding),
      ("commandId", .text r.commandId), ("attemptId", .text r.attemptId), ("interactionId", .text interactionId)]

def statusName : ReconciliationStatus → String
  | .running => "running"
  | .submitted => "submitted"
  | .unknown _ => "unknown"
  | .terminal _ => "terminal"
  | .notSubmitted _ => "not_submitted"
  | .acknowledged _ => "acknowledged"
  | .observed _ => "observed"

def statusFields (r : Reconciliation) : List (String × JsonValue) :=
  match r.status with
  | .running | .submitted => []
  | .unknown correlationId => optional "correlationId" .text correlationId
  | .terminal outcome => [("outcome", .text (Outcome.wire outcome))]
  | .notSubmitted error => optional "error" Failure.json error
  | .acknowledged acknowledgement => [("acknowledgement", Acknowledgement.json acknowledgement)]
  | .observed observation => [("observation", observationJson r observation)]

def Reconciliation.json (r : Reconciliation) : JsonValue :=
  .record ([("binding", Binding.json r.binding), ("commandId", .text r.commandId), ("attemptId", .text r.attemptId),
    ("status", .text (statusName r.status))] ++ statusFields r)

/-! ## Verification -/

structure AdmittedSession where
  scope : Namespace
  binding : Binding
  deriving DecidableEq, Repr

def adapterLimits : Limits := ⟨1048576, 524288, 32, 32768⟩

/-- An adapter validates the event that a product consumer would see. -/
def adapterEnvelope (scope : Namespace) (o : ProviderObservation) (body : EventBody) : Event where
  scope := scope
  eventId := "validation"
  sequence := 1
  generation := o.binding.generation
  commandId := some o.commandId
  attemptId := match body with
    | .error _ => none
    | _ => some o.attemptId
  body := body

def rebound (session : Session) (binding : Binding) : Session :=
  { session with stages := session.stages.map fun row =>
      if session.currentStageId = some row.stageId then { row with binding } else row }

/-- The observation is one of the recorded attempt, by the provider of the admitted session. -/
def admits (agent : AdmittedSession) (head : Session) (original : CommandRecord) (observed : Reconciliation) : Bool :=
  match activeStage? head, original.dispatch with
  | some stage, some dispatch =>
    head.status = .active && !isSettled original && head.scope = agent.scope && original.receipt.scope = agent.scope &&
    providerIdentity stage.binding = providerIdentity agent.binding &&
    dispatch.observerGeneration = agent.binding.generation && dispatch.nativeSessionId = agent.binding.nativeSessionId &&
    dispatch.nativeThreadId = agent.binding.nativeThreadId && observed.commandId = original.command.commandId &&
    observed.attemptId = dispatch.attemptId && providerIdentity observed.binding = providerIdentity agent.binding &&
    matchesCoordinates dispatch observed.binding
  | _, _ => false

/-- The event that is verified in place of the one that the host will append. -/
def verificationEvent (head : Session) (stage : ContextStage) (original : CommandRecord) (dispatch : DispatchAttempt)
    (body : EventBody) : Event where
  scope := head.scope
  eventId := "verify-observation"
  sequence := 1
  generation := stage.binding.generation
  commandId := some original.command.commandId
  attemptId := some dispatch.attemptId
  body := body

/-- The record that has to be valid for a resolution. -/
def verification (head : Session) (stage : ContextStage) (original : CommandRecord) (dispatch : DispatchAttempt) :
    ReconciliationStatus → Option WireRecord
  | .observed (.delta messageId text) => some (.event (verificationEvent head stage original dispatch (.text messageId text)))
  | .observed (.event body) => some (.event (verificationEvent head stage original dispatch body))
  | .terminal outcome =>
    some (.commandRecord { original with state := .terminal { dispatch with certainty := .submitted } outcome })
  | .acknowledged acknowledgement =>
    some (.commandRecord { original with state := .acknowledged { dispatch with certainty := .submitted } acknowledgement })
  | _ => none

section Mint
variable [RecordHashing]

def emits (scope : Namespace) (o : ProviderObservation) (body : EventBody) : Bool :=
  valid adapterLimits (.event (adapterEnvelope scope o body))

/-- Evidence is minted only for an admitted observation whose records are all valid. -/
def mint (agent : AdmittedSession) (head : Session) (original : CommandRecord) (observed : Reconciliation) :
    Option VerifiedProviderFact :=
  match activeStage? head, original.dispatch with
  | some stage, some dispatch =>
    if valid defaultLimits (.session head) && valid defaultLimits (.commandRecord original) &&
        admits agent head original observed && valid defaultLimits (.session (rebound head observed.binding)) &&
        (verification head stage original dispatch observed.status).all (valid defaultLimits) &&
        fits defaultLimits (Reconciliation.json observed) then
      some ⟨observed.commandId, some ⟨head.scope, providerIdentity stage.binding, original, observed⟩⟩
    else none
  | _, _ => none

def observe (agent : AdmittedSession) (head : Session) (original : CommandRecord) (o : ProviderObservation) :
    Option VerifiedProviderFact :=
  if original.dispatch.isNone then none else mint agent head original o.resolution

end Mint

/-! ## The events of the host -/

/-- What the host reads when it applies a fact. -/
structure SessionSnapshot where
  session : Session
  commands : List CommandRecord
  interactions : List Interaction
  surfaces : List SurfaceState
  deriving DecidableEq, Repr

def attemptOf (body : EventBody) (attempt : Option Id) : Option Id :=
  match body with
  | .invalidated _ | .cancelled _ | .commandAccepted _ => none
  | _ => attempt

/-- The attempt with the coordinates and the certainty that a resolution tells. -/
def advanced (d : DispatchAttempt) (fact : Reconciliation) : DispatchAttempt :=
  let coordinates := { d with
    nativeRunId := fact.binding.nativeRunId <|> d.nativeRunId
    nativeRequestId := fact.binding.nativeRequestId <|> d.nativeRequestId }
  match fact.status with
  | .unknown correlationId =>
    if d.certainty = .submitted then { coordinates with certainty := .submitted }
    else { coordinates with
      certainty := .unknown
      correlationId := some (d.correlationId.getD (correlationId.getD d.attemptId)) }
  | _ => { coordinates with certainty := .submitted }

/-- The state that a resolution leads to. -/
def resolved (record : CommandRecord) (d : DispatchAttempt) (now expiry : Nat) : ReconciliationStatus → CommandState
  | .notSubmitted error =>
    if isOrdinary record && now ≤ min record.command.expiresAtMs record.receipt.retryUntilMs &&
        error.all (·.retry ≠ .never) then .accepted
    else .invalidated ⟨if record.command.expiresAtMs < expiry then .expired else .unavailable, .never⟩
  | .unknown _ => .reconciliationRequired d
  | .submitted => .dispatching d
  | .terminal outcome => .terminal d outcome
  | .acknowledged acknowledgement => .acknowledged d acknowledgement
  | .running | .observed _ => .running d

/-- The event of the state that a resolution leads to. -/
def stateBodies (record : CommandRecord) : CommandState → List EventBody
  | .terminal _ outcome => [.terminal outcome]
  | .acknowledged _ acknowledgement => [.acknowledged acknowledgement]
  | .invalidated failure => [.invalidated failure]
  | .dispatching _ => if record.state.name = .dispatching then [] else [.status .dispatching]
  | .running _ => if record.state.name = .running then [] else [.status .running]
  | .reconciliationRequired _ => if record.state.name = .reconciliationRequired then [] else [.status .reconciliationRequired]
  | _ => []

def settledBodies (snapshot : SessionSnapshot) (command : Id) : List EventBody :=
  ((snapshot.interactions.filter fun row => row.commandId = command && row.status = .pending).map
      fun row => .interactionUnavailable row.interactionId) ++
  ((snapshot.surfaces.filter fun row => row.status = .active &&
      snapshot.interactions.any fun i => i.commandId = command && i.interactionId = row.interactionId).map
      fun row => .surface { row with status := .invalidated, revision := row.revision + 1 })

/-- The bodies of the events that an unresolved observation appends. -/
def observedBodies (snapshot : SessionSnapshot) : Observation → List EventBody
  | .delta .. => []
  | .event body => [body]
  | .interaction i => [.interactionPending i.interactionId i.request i.expiresAtMs]
  | .interactionUnavailable interactionId =>
    if snapshot.interactions.any (fun row => row.interactionId = interactionId && row.status = .pending) then
      [.interactionUnavailable interactionId]
    else []

def resolvedBodies (snapshot : SessionSnapshot) (record : CommandRecord) (d : DispatchAttempt) (fact : Reconciliation)
    (resolution : Resolution) (now expiry : Nat) : List EventBody :=
  let next := resolved record (advanced d fact) now expiry fact.status
  let dispatched := match fact.status with
    | .notSubmitted _ => []
    | _ => if advanced d fact = d then [] else [.dispatch (advanced d fact)]
  .reconciled d resolution :: dispatched ++ stateBodies record next ++
    if isSettled { record with state := next } then settledBodies snapshot record.commandId else []

def repeats (record : CommandRecord) (d : DispatchAttempt) : ReconciliationStatus → Bool
  | .submitted => record.state.name = .running || (record.state.name = .dispatching && d.certainty = .submitted)
  | .running => record.state.name = .running
  | _ => false

/-- The bodies that a fact appends, none if it is no longer about the current session or an open command. -/
def factBodies (snapshot : SessionSnapshot) (proof : VerifiedProviderFact) (now expiry : Nat) : List EventBody :=
  match snapshot.commands.find? (·.commandId = proof.commandId) with
  | none => []
  | some record =>
    if snapshot.session.status ≠ .active ∨ isSettled record then []
    else
      match providerFactFor proof snapshot.session record, record.dispatch with
      | some fact, some d =>
        if repeats record d fact.status then []
        else
          match fact.status, fact.status.resolution with
          | .observed observation, _ => observedBodies snapshot observation
          | _, some resolution => resolvedBodies snapshot record d fact resolution now expiry
          | _, none => []
      | _, _ => []

def eventsOf (session : Session) (stage : ContextStage) (command : Id) (attempt : Option Id) (names : Nat → Id)
    (bodies : List EventBody) : List Event :=
  bodies.mapIdx fun offset body => passEvent session stage (names offset) command (attemptOf body attempt) offset body

def applyFact (snapshot : SessionSnapshot) (proof : VerifiedProviderFact) (names : Nat → Id) (now expiry : Nat) : List Event :=
  match activeStage? snapshot.session, snapshot.commands.find? (·.commandId = proof.commandId) with
  | some stage, some record =>
    eventsOf snapshot.session stage record.commandId (record.dispatch.map (·.attemptId)) names
      (factBodies snapshot proof now expiry)
  | _, _ => []

end RssMdmAgent.ProviderFacts
