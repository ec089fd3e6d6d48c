import RssMdmAgent.BatchReview

set_option autoImplicit false

/-! # The commit of a batch: events, interactions, deliveries and surfaces -/

namespace RssMdmAgent.BatchCommit
open BoundedJson OrderedRows SessionRecords SessionValidity SessionState BatchReview

/-! ## Events -/

def needsCommand : EventBody → Bool
  | .commandAccepted _ | .dispatch _ | .reconciled .. | .invalidated _ | .status _ | .acknowledged _
  | .queuedCancelled _ | .cancelled _ => true
  | _ => false

def isLiveOutput : EventBody → Bool
  | .text .. | .toolProposal .. | .toolResult .. => true
  | .surface surface => surface.status ≠ .invalidated
  | _ => false

section Events
variable (r : Review) (copy : SessionWorkspace) (commandIds : List Id)

def checkDeliveryRequested (source : CommandRecord) (e : Event) (operationId target : Id) :
    Except Failure Unit :=
  match r.batch.deliveries.find? (·.operationId = operationId) with
  | none => .error (fail .invalidInput)
  | some row => refuse (r.state.deliveries.has row.operationId = true ∨ row.eventId ≠ e.eventId ∨
      row.target ≠ target ∨ row.status ≠ .pending ∨ row.attempts ≠ 0 ∨
      source.command.input.isPrompt = false ∨ isSettled source = true ∨
      source.dispatch.map (·.observerGeneration) ≠ some r.batch.expectedGeneration)
      (fail .invalidInput)

def requestedFor (request : Option Event) (command : Option Id) : Bool :=
  request.any fun e => e.commandId = command &&
    match e.body with
    | .deliveryRequested .. => true
    | _ => false

def checkDeliveryRecorded (e : Event) (operationId target : Id) (contentHash : String) :
    Except Failure Unit :=
  match r.state.deliveries.get operationId with
  | none => .error (fail .invalidInput)
  | some old => refuse (old.status = .delivered ∨ old.status = .receiptRecorded ∨
      (r.batch.deliveries.find? (·.operationId = operationId)).map (·.status) ≠ some .receiptRecorded ∨
      target ≠ old.target ∨ contentHash ≠ old.contentHash ∨
      requestedFor (r.state.event old.eventId) e.commandId = false) (fail .invalidInput)

/-- The body of an event agrees with the command after the batch. -/
def checkBody (source : CommandRecord) (prior : Option CommandRecord) (e : Event) :
    Except Failure Unit :=
  match e.body with
  | .commandAccepted command =>
    refuse (r.accepting = false ∨ prior ≠ none ∨ source.state.name ≠ .accepted ∨
      command ≠ source.command ∨
      (r.batch.events.filter fun other => other.commandId = e.commandId &&
        isCommandAccepted other.body).length ≠ 1) (fail .invalidInput)
  | .status state => refuse (state.name ≠ source.state.name) (fail .invalidInput)
  | .dispatch attempt => refuse (source.dispatch ≠ some attempt) (fail .invalidInput)
  | .reconciled .. => refuse (r.resolution source.commandId = none) (fail .invalidInput)
  | .invalidated failure => refuse (source.state ≠ .invalidated failure) (fail .invalidInput)
  | .surface surface =>
    refuse (surface.status = .invalidated ∧ (isSettled source = false ∨
      source.commandId ∉ commandIds ∨ prior.any isSettled = true)) (fail .invalidInput)
  | .terminal outcome =>
    refuse (outcomeOf source.state ≠ some outcome ∨
      (r.batch.commands.any fun c => c.commandId = source.commandId) = false ∨
      prior.map (·.state.name) = some .terminal) (fail .invalidInput)
  | _ => .ok ()

/-- An attempt event names the attempt of its command. -/
def checkAttemptId (source : CommandRecord) (prior : Option CommandRecord) (e : Event) :
    Except Failure Unit :=
  match e.attemptId with
  | none => .ok ()
  | some attemptId =>
    match source.dispatch.or (prior.bind (·.dispatch)) with
    | none => .error (fail .staleBinding)
    | some d => refuse (attemptId ≠ d.attemptId ∨ d.observerGeneration ≠ r.batch.expectedGeneration)
        (fail .staleBinding)

def checkDeliveryBody (source : CommandRecord) (e : Event) : Except Failure Unit :=
  match e.body with
  | .deliveryRequested operationId target _ _ => checkDeliveryRequested r source e operationId target
  | .deliveryRecorded operationId target contentHash _ =>
    checkDeliveryRecorded r e operationId target contentHash
  | _ => .ok ()

def checkEvent (index : Nat) (ids : List Id) (e : Event) : Except Failure Unit := do
  refuse (e.scope ≠ r.batch.scope ∨ e.generation ≠ r.batch.expectedGeneration ∨
      e.sequence ≠ r.state.session.lastSequence + index + 1 ∨ e.eventId ∈ ids ∨
      r.state.hasEvent e.eventId = true) (fail .invalidInput)
  match e.commandId.bind copy.commands.get with
  | none => .error (fail .invalidInput)
  | some source => do
    checkDeliveryBody r source e
    checkAttemptId r source (r.state.commands.get source.commandId) e
    refuse (isLiveOutput e.body = true ∧ isSettled source = true) (fail .contentConflict)
    refuse (needsCommand e.body = true ∧ source.commandId ∉ commandIds) (fail .invalidInput)
    checkBody r commandIds source (r.state.commands.get source.commandId) e

def reviewEvents : Nat → List Id → List Event → Except Failure Unit
  | _, _, [] => .ok ()
  | index, ids, e :: rest => do
    checkEvent r copy commandIds index ids e
    reviewEvents (index + 1) (ids ++ [e.eventId]) rest

end Events

/-! ## Interactions -/

section Interactions
variable (r : Review)

def checkInteractionAdded (source : CommandRecord) (d : DispatchAttempt) (row : Interaction) :
    Except Failure Unit := do
  refuse (row.status ≠ .pending ∨ d.certainty ≠ .submitted ∨
    source.state.name ∉ [.dispatching, .running]) (fail .invalidInput)
  match r.batch.events.filter fun e => (interactionOf e.body).any (·.1 = row.interactionId) with
  | [e] =>
    match e.body with
    | .interactionPending _ request _ =>
      refuse (e.commandId ≠ some row.commandId ∨ e.generation ≠ row.generation ∨ request ≠ row.request)
        (fail .invalidInput)
    | _ => .error (fail .invalidInput)
  | _ => .error (fail .invalidInput)

def checkInteractionKept (old row : Interaction) : Except Failure Unit := do
  refuse ({ old with status := .pending } ≠ { row with status := .pending }) (fail .staleBinding)
  refuse (old.status ≠ .pending ∧ old ≠ row) (fail .alreadyAnswered)

def answers (response : CommandRecord) (row : Interaction) : Bool :=
  match response.command.input with
  | .respond interactionId generation nativeRunId _ _ =>
    interactionId = row.interactionId && generation = row.generation && nativeRunId = row.nativeRunId &&
    response.receipt.acceptedAtMs ≤ row.expiresAtMs
  | _ => false

def checkAnswer (copy : SessionWorkspace) (row : Interaction) : Except Failure Unit :=
  match row.status with
  | .answered response =>
    refuse ((copy.commands.get response).any (answers · row) = false) (fail .invalidInput)
  | _ => .ok ()

def checkInteractionChange (source : CommandRecord) (d : DispatchAttempt) (old : Option Interaction)
    (row : Interaction) : Except Failure Unit :=
  match old with
  | some old => checkInteractionKept old row
  | none => checkInteractionAdded r source d row

def checkInteraction (copy : SessionWorkspace) (ids : List Id) (row : Interaction) :
    Except Failure Unit := do
  refuse (row.interactionId ∈ ids) (fail .invalidInput)
  match (copy.commands.get row.commandId).bind fun source => source.dispatch.map (source, ·) with
  | none => .error (fail .staleBinding)
  | some (source, d) => do
    refuse (row.scope ≠ r.batch.scope ∨ row.generation ≠ r.batch.expectedGeneration ∨
      d.observerGeneration ≠ row.generation ∨ d.nativeRunId ≠ row.nativeRunId) (fail .staleBinding)
    let old := copy.interactions.get row.interactionId
    checkInteractionChange r source d old row
    refuse ((copy.interactionForCallback row.generation row.nativeCallbackId).any
      (·.interactionId ≠ row.interactionId) = true) (fail .contentConflict)
    refuse (old.map (·.status) = some .pending ∧ row.status = .expired ∧
      r.batch.now.any (row.expiresAtMs < ·) = false) (fail .invalidInput)
    checkAnswer copy row
    refuse ((old.any fun old => interactionName old.status ≠ interactionName row.status) = true ∧
      (r.batch.events.any fun e => e.commandId = some row.commandId &&
        interactionOf e.body = some (row.interactionId, interactionName row.status)) = false)
      (fail .invalidInput)

def reviewInteractions : List Id → List Interaction → SessionWorkspace →
    Except Failure SessionWorkspace
  | _, [], copy => .ok copy
  | ids, row :: rest, copy => do
    checkInteraction r copy ids row
    reviewInteractions (ids ++ [row.interactionId]) rest
      { copy with interactions := copy.interactions.set row }

/-- An interaction event describes the row after the batch. -/
def checkInteractionEvent (copy : SessionWorkspace) (e : Event) : Except Failure Unit :=
  match interactionOf e.body with
  | none => .ok ()
  | some (id, name) =>
    match copy.interactions.get id with
    | none => .error (fail .invalidInput)
    | some row => do
      refuse (e.commandId ≠ some row.commandId ∨ row.generation ≠ e.generation ∨
        interactionName row.status ≠ name) (fail .invalidInput)
      match e.body with
      | .interactionPending _ request expiresAtMs =>
        refuse (r.state.interactions.has row.interactionId = true ∨
          row.interactionId ∉ r.batch.interactions.map (·.interactionId) ∨
          request ≠ row.request ∨ expiresAtMs ≠ row.expiresAtMs) (fail .invalidInput)
      | .interactionAnswered _ response =>
        refuse (row.status ≠ .answered response) (fail .invalidInput)
      | _ => .ok ()

end Interactions

/-! ## Deliveries -/

section Deliveries
variable [RecordHashing] (limits : Limits) (r : Review)

def deliveryFingerprint (e : Event) (target : Id) : Except Failure String := do
  guarded (validate limits (.event e))
  refuse (isId target = false) (thrown .schema)
  let _ ← guarded (boundedJson limits (.record [("event", Event.json e), ("target", .text target)]))
  return RecordHashing.deliveryFingerprint e target

/-- A request is delivered only after its receipt was recorded. -/
def checkRequested (request : Event) (old : Option Delivery) (row : Delivery) : Except Failure Unit :=
  match request.body with
  | .deliveryRequested operationId target _ _ =>
    refuse (operationId ≠ row.operationId ∨ target ≠ row.target ∨
      (old.map (·.status) ≠ some .receiptRecorded ∧ row.status = .receiptRecorded ∧
        (r.batch.events.any fun e =>
          match e.body with
          | .deliveryRecorded recorded _ _ _ => recorded = row.operationId
          | _ => false) = false)) (fail .invalidInput)
  | _ => .ok ()

def isDeliveryRequested : EventBody → Bool
  | .deliveryRequested .. => true
  | _ => false

def checkDeliveryKept (request : Event) (old row : Delivery) : Except Failure Unit :=
  refuse (old.contentHash ≠ row.contentHash ∨ old.target ≠ row.target ∨ old.eventId ≠ row.eventId ∨
    old.retry ≠ row.retry ∨
    (isDeliveryRequested request.body = true ∧ row.status = .delivered ∧
      old.status ∉ [.receiptRecorded, .delivered]) ∨
    (old.status = .receiptRecorded ∧ row.status ∉ [.receiptRecorded, .delivered]) ∨
    row.attempts < old.attempts ∨ (old.status = .delivered ∧ row.status ≠ .delivered))
    (fail .contentConflict)

def checkDelivery (copy : SessionWorkspace) (ids : List Id) (row : Delivery) : Except Failure Unit := do
  refuse (row.operationId ∈ ids ∨ row.scope ≠ r.batch.scope) (fail .invalidInput)
  match copy.event row.eventId with
  | none => .error (fail .invalidInput)
  | some request => do
    refuse (row.contentHash ≠ (← deliveryFingerprint limits request row.target)) (fail .invalidInput)
    let old := copy.deliveries.get row.operationId
    checkRequested r request old row
    match old with
    | some old => checkDeliveryKept request old row
    | none => .ok ()

def reviewDeliveries : List Id → List Delivery → SessionWorkspace → Except Failure SessionWorkspace
  | _, [], copy => .ok copy
  | ids, row :: rest, copy => do
    checkDelivery limits r copy ids row
    reviewDeliveries (ids ++ [row.operationId]) rest { copy with deliveries := copy.deliveries.set row }

end Deliveries

/-! ## Surfaces -/

section Surfaces
variable [RecordHashing] [SurfaceCatalog] (limits : Limits) (r : Review)

def surfaceIdentity (s : SurfaceState) : SurfaceState :=
  { s with revision := 0, status := .active, messages := [] }

def checkSurfaceRow (old : Option SurfaceState) (interaction : Interaction) (row : SurfaceState) :
    Except Failure Unit :=
  match old with
  | some old => do
    refuse (surfaceIdentity old ≠ surfaceIdentity row) (fail .staleBinding)
    refuse (old.status ≠ .active ∨ row.revision ≠ old.revision + 1) ⟨.revisionConflict, .sameCommand⟩
  | none => refuse (row.status ≠ .active ∨ row.revision ≠ 0 ∨ interaction.status ≠ .pending)
      (fail .invalidInput)

def checkSurface (copy : SessionWorkspace) (ids : List Id) (row : SurfaceState) :
    Except Failure Unit := do
  refuse (valid limits (.surface row) = false ∨ SurfaceCatalog.acceptsMessages row = false)
    (fail .invalidInput)
  match copy.interactions.get row.interactionId with
  | none => .error (fail .invalidInput)
  | some interaction => do
    refuse (row.surfaceInstanceId ∈ ids ∨ row.scope ≠ r.batch.scope ∨
      row.generation ≠ r.batch.expectedGeneration ∨ row.generation ≠ interaction.generation ∨
      some row.nativeRunId ≠ interaction.nativeRunId) (fail .invalidInput)
    let old := copy.surfaces.get row.surfaceInstanceId
    checkSurfaceRow old interaction row
    refuse ((r.batch.events.filter fun e => (surfaceOf e.body).any
        (·.surfaceInstanceId = row.surfaceInstanceId)).map (fun e => (e.commandId, e.body)) ≠
      [(some interaction.commandId, .surface row)]) (fail .invalidInput)
    refuse (row.status = .invalidated ∧ (old.map (·.messages) ≠ some row.messages ∨
      (copy.commands.get interaction.commandId).any isSettled = false)) (fail .invalidInput)
    refuse (row.status = .deleted ∧ interaction.status = .pending) (fail .invalidInput)

def reviewSurfaces : List Id → List SurfaceState → SessionWorkspace → Except Failure SessionWorkspace
  | _, [], copy => .ok copy
  | ids, row :: rest, copy => do
    checkSurface limits r copy ids row
    reviewSurfaces (ids ++ [row.surfaceInstanceId]) rest { copy with surfaces := copy.surfaces.set row }

end Surfaces

/-! ## The closing checks and the whole commit -/

def hasOpenWork (copy : SessionWorkspace) (command : Id) : Bool :=
  (copy.interactionsForCommand command).any (fun i => i.status = .pending) ||
  ((copy.interactionsForCommand command).flatMap fun i =>
    copy.surfacesForInteraction i.interactionId).any fun surface => surface.status = .active &&
      (copy.interactions.get surface.interactionId).any (·.commandId = command)

/-- A direct commit satisfies the same surface fence as an acceptance, including a deletion or a
revision change of this very batch. -/
def checkFence (copy : SessionWorkspace) (interaction : Interaction) : Except Failure Unit :=
  match interaction.status with
  | .answered response =>
    match ((copy.commands.get response).map fun c => c.command.input : Option Input) with
    | some (.respond _ _ _ _ reference) =>
      refuse (((copy.surfacesForInteraction interaction.interactionId).isEmpty = false ∨
          reference.isSome = true) ∧
        (reference.any fun ref => (copy.surfaces.get ref.instanceId).any fun surface =>
          surface.status = .active && surface.interactionId = interaction.interactionId &&
          surface.revision = ref.revision) = false) (fail .staleBinding)
    | _ => .error (fail .invalidInput)
  | _ => .ok ()

section Commit
variable [RecordHashing] [SurfaceCatalog]

def reduceCommit (limits : Limits) (state : SessionWorkspace) (batch : SessionCommit)
    (accepting suspending : Bool) : Except Failure SessionWorkspace := do
  let deliveryOnly := isDeliveryCommit state batch
  checkState (if deliveryOnly || suspending then awake state else state) batch.expectedRevision
    batch.expectedGeneration
  refuse (batch.rows.all (valid limits) = false) (fail .invalidInput)
  let stage ← checkHead state batch deliveryOnly suspending
  let facts ← collectFacts state batch.providerFacts []
  let r : Review := ⟨state, batch, stage, facts, accepting⟩
  let pass ← reviewCommands r batch.commands ⟨state.commands, [], []⟩
  refuse ((facts.any fun fact => fact.1 ∉ pass.commandIds) = true) (fail .invalidInput)
  let copy := { state with commands := pass.commands }
  refuse (1 < ((copy.commandsInStates openStates).filter ownsTurn).length) (fail .contentConflict)
  let next ← activeStage batch.session
  checkCoordinates r copy stage.binding next.binding
  reviewEvents r copy pass.commandIds 0 [] batch.events
  let copy := { copy with events := state.events ++ batch.events }
  let copy ← reviewInteractions r [] batch.interactions copy
  batch.events.forM (checkInteractionEvent r copy)
  let copy ← reviewDeliveries limits r [] batch.deliveries copy
  let copy ← reviewSurfaces limits r [] batch.surfaces copy
  refuse ((batch.events.any fun e => (surfaceOf e.body).any fun s =>
    s.surfaceInstanceId ∉ batch.surfaces.map (·.surfaceInstanceId)) = true) (fail .invalidInput)
  refuse ((batch.commands.any fun c => isSettled c && hasOpenWork copy c.commandId) = true)
    (fail .invalidInput)
  batch.interactions.forM (checkFence copy)
  return { copy with session := batch.session }

def commitSession (limits : Limits) (state : SessionWorkspace) (batch : SessionCommit) :
    Except Failure SessionWorkspace := reduceCommit limits state batch false false

end Commit

end RssMdmAgent.BatchCommit
