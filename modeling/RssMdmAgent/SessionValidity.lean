import RssMdmAgent.SessionRecords

set_option autoImplicit false

/-! # The validation of session records -/

namespace RssMdmAgent.SessionValidity
open BoundedJson SessionRecords

/-- Identities that are SHA-256 digests over canonical JSON. -/
class RecordHashing where
  fingerprint : Command → String
  eventId : String → String → Id
  deliveryFingerprint : Event → Id → String

/-! ## The JSON form -/

def optional {α : Type} (name : String) (write : α → JsonValue) : Option α → List (String × JsonValue)
  | none => []
  | some value => [(name, write value)]

def texts (values : List String) : JsonValue := .list (values.map .text)

def Namespace.json (n : Namespace) : JsonValue :=
  .record [("tenantId", .text n.tenantId), ("principalId", .text n.principalId),
    ("authorityId", .text n.authorityId), ("sessionId", .text n.sessionId)]

def ErrorCode.wire : ErrorCode → String
  | .invalidInput => "invalid_input"
  | .unsupportedVersion => "unsupported_version"
  | .unsupportedCapability => "unsupported_capability"
  | .permissionDenied => "permission_denied"
  | .contentConflict => "content_conflict"
  | .revisionConflict => "revision_conflict"
  | .staleBinding => "stale_binding"
  | .expired => "expired"
  | .unavailable => "unavailable"
  | .reconciliationRequired => "reconciliation_required"
  | .limitExceeded => "limit_exceeded"
  | .cursorExpired => "cursor_expired"
  | .sessionGone => "session_gone"
  | .alreadyAnswered => "already_answered"
  | .storageCorrupt => "storage_corrupt"
  | .connectionSwitchPending => "connection_switch_pending"
  | .connectionRequired => "connection_required"
  | .authenticationRequired => "authentication_required"
  | .contextUnavailable => "context_unavailable"
  | .verificationCancelled => "verification_cancelled"
  | .verificationRefused => "verification_refused"

def Retry.wire : Retry → String
  | .sameCommand => "same_command"
  | .reconcileFirst => "reconcile_first"
  | .never => "never"

def Failure.json (f : Failure) : JsonValue :=
  .record [("code", .text (ErrorCode.wire f.code)), ("retry", .text (Retry.wire f.retry))]

def ConfigRef.json (c : ConfigRef) : JsonValue :=
  .record [("id", .text c.id), ("revision", .text c.revision)]

def Binding.json (b : Binding) : JsonValue :=
  .record ([("provider", .text b.provider), ("providerVersion", .text b.providerVersion),
      ("adapterVersion", .text b.adapterVersion), ("generation", .text b.generation),
      ("nativeSessionId", .text b.nativeSessionId), ("config", ConfigRef.json b.config)]
    ++ optional "nativeRunId" .text b.nativeRunId ++ optional "nativeRequestId" .text b.nativeRequestId
    ++ [("workspaceId", .text b.workspaceId)] ++ optional "nativeThreadId" .text b.nativeThreadId)

def Continuation.wire : Continuation → String
  | .sameProcess => "same_process"
  | .acrossProcesses => "across_processes"
  | .unsupported => "unsupported"
  | .unknown => "unknown"

def Cancellation.wire : Cancellation → String
  | .requestOnly => "request_only"
  | .terminalAcknowledged => "terminal_acknowledged"
  | .unsupported => "unsupported"
  | .unknown => "unknown"

def ToolSupport.wire : ToolSupport → String
  | .hostMediated => "host_mediated"
  | .providerManaged => "provider_managed"
  | .disabled => "disabled"
  | .unknown => "unknown"

def CapabilityState.wire : CapabilityState → String
  | .supported => "supported"
  | .unsupported => "unsupported"
  | .unknown => "unknown"

def Capabilities.json (c : Capabilities) : JsonValue :=
  .record [("continuation", .text (Continuation.wire c.continuation)),
    ("cancellation", .text (Cancellation.wire c.cancellation)),
    ("tools", .text (ToolSupport.wire c.tools)), ("steer", .text (CapabilityState.wire c.steer)),
    ("fork", .text (CapabilityState.wire c.fork)),
    ("subagent", .text (CapabilityState.wire c.subagent)),
    ("terminal", .text (CapabilityState.wire c.terminal)),
    ("structuredQuestion", .text (CapabilityState.wire c.structuredQuestion)),
    ("multimodal", .text (CapabilityState.wire c.multimodal))]

def ContextStage.json (s : ContextStage) : JsonValue :=
  .record [("stageId", .text s.stageId), ("connectionId", .text s.connectionId),
    ("configRevision", .ofNat s.configRevision), ("binding", Binding.json s.binding),
    ("capabilities", Capabilities.json s.capabilities)]

def SessionStatus.wire : SessionStatus → String
  | .active => "active"
  | .recoveryRequired => "recovery_required"
  | .retired => "retired"

def Session.json (s : Session) : JsonValue :=
  .record ([("schemaVersion", .ofNat 1), ("kind", .text "session"),
      ("namespace", Namespace.json s.scope), ("revision", .ofNat s.revision),
      ("lastSequence", .ofNat s.lastSequence), ("status", .text (SessionStatus.wire s.status))]
    ++ optional "selectedConnectionId" .text s.selectedConnectionId
    ++ optional "currentStageId" .text s.currentStageId
    ++ [("stages", .list (s.stages.map ContextStage.json))]
    ++ (if s.freshContext then [("freshContext", .bool true)] else [])
    ++ optional "presentation" .object s.presentation)

def HistoryPreview.json (h : HistoryPreview) : JsonValue :=
  .record [("schemaVersion", .ofNat 1), ("kind", .text "historyPreview"),
    ("sessionId", .text h.sessionId), ("connectionId", .text h.connectionId),
    ("configRevision", .ofNat h.configRevision), ("throughSequence", .ofNat h.throughSequence),
    ("commandIds", texts h.commandIds), ("text", .text h.text), ("contentHash", .text h.contentHash),
    ("messageIds", texts h.messageIds)]

def SurfaceReference.json (r : SurfaceReference) : JsonValue :=
  .record [("instanceId", .text r.instanceId), ("revision", .ofNat r.revision)]

def Policy.wire : Policy → String
  | .queueNext => "queue_next"
  | .steer => "steer"

def Input.json : Input → JsonValue
  | .prompt text policy targetRunId history =>
    .record ([("type", .text "prompt"), ("text", .text text), ("policy", .text (Policy.wire policy))]
      ++ optional "targetRunId" .text targetRunId ++ optional "history" HistoryPreview.json history)
  | .cancel targetCommandId generation nativeRunId =>
    .record ([("type", .text "cancel"), ("targetCommandId", .text targetCommandId),
      ("generation", .text generation)] ++ optional "nativeRunId" .text nativeRunId)
  | .respond interactionId generation nativeRunId answer surface =>
    .record ([("type", .text "respond"), ("interactionId", .text interactionId),
      ("generation", .text generation)] ++ optional "nativeRunId" .text nativeRunId
      ++ [("answer", .object answer)] ++ optional "surface" SurfaceReference.json surface)

def Command.json (c : Command) : JsonValue :=
  .record [("schemaVersion", .ofNat 1), ("kind", .text "command"), ("sessionId", .text c.sessionId),
    ("commandId", .text c.commandId), ("expiresAtMs", .ofNat c.expiresAtMs),
    ("input", Input.json c.input)]

def Receipt.json (r : Receipt) : JsonValue :=
  .record [("schemaVersion", .ofNat 1), ("kind", .text "receipt"),
    ("namespace", Namespace.json r.scope), ("commandId", .text r.commandId),
    ("contentHash", .text r.contentHash), ("stageId", .text r.stageId),
    ("acceptedAtMs", .ofNat r.acceptedAtMs), ("retryUntilMs", .ofNat r.retryUntilMs),
    ("receiptUntilMs", .ofNat r.receiptUntilMs), ("acceptedRevision", .ofNat r.acceptedRevision)]

def Certainty.wire : Certainty → String
  | .intent => "intent"
  | .submitted => "submitted"
  | .unknown => "unknown"

def DispatchAttempt.json (d : DispatchAttempt) : JsonValue :=
  .record ([("attemptId", .text d.attemptId), ("originGeneration", .text d.originGeneration),
      ("observerGeneration", .text d.observerGeneration), ("nativeSessionId", .text d.nativeSessionId)]
    ++ optional "nativeThreadId" .text d.nativeThreadId
    ++ [("certainty", .text (Certainty.wire d.certainty))]
    ++ optional "nativeRunId" .text d.nativeRunId ++ optional "nativeRequestId" .text d.nativeRequestId
    ++ optional "correlationId" .text d.correlationId)

def Outcome.wire : Outcome → String
  | .completed => "completed"
  | .cancelled => "cancelled"
  | .refused => "refused"
  | .maxTokens => "max_tokens"
  | .maxTurnRequests => "max_turn_requests"
  | .failed => "failed"

def Acknowledgement.json : Acknowledgement → JsonValue
  | .cancel .requestOnly => .record [("type", .text "cancel"), ("confirmation", .text "request_only")]
  | .cancel .alreadyTerminal =>
    .record [("type", .text "cancel"), ("confirmation", .text "already_terminal")]
  | .respond => .record [("type", .text "respond")]
  | .steer => .record [("type", .text "steer")]

def queuedCancelledJson (targetCommandId : Id) : JsonValue :=
  .record [("type", .text "queued_cancelled"), ("targetCommandId", .text targetCommandId)]

def StateName.wire : StateName → String
  | .accepted => "accepted"
  | .dispatching => "dispatching"
  | .running => "running"
  | .terminal => "terminal"
  | .reconciliationRequired => "reconciliation_required"
  | .invalidated => "invalidated"
  | .cancelled => "cancelled"
  | .acknowledged => "acknowledged"

/-- What a state adds to the discriminator, besides its dispatch. -/
def CommandState.extra : CommandState → List (String × JsonValue)
  | .terminal _ outcome => [("outcome", .text (Outcome.wire outcome))]
  | .invalidated failure => [("failure", Failure.json failure)]
  | .cancelled cancelledBy => [("cancelledBy", .text cancelledBy)]
  | .acknowledged _ acknowledgement => [("acknowledgement", Acknowledgement.json acknowledgement)]
  | .queuedCancelled targetCommandId => [("acknowledgement", queuedCancelledJson targetCommandId)]
  | .accepted | .dispatching _ | .running _ | .reconciliationRequired _ => []

def CommandRecord.json (c : CommandRecord) : JsonValue :=
  .record ([("schemaVersion", .ofNat 1), ("kind", .text "commandRecord"),
      ("command", Command.json c.command), ("receipt", Receipt.json c.receipt),
      ("state", .text (StateName.wire c.state.name))]
    ++ optional "dispatch" DispatchAttempt.json c.dispatch ++ CommandState.extra c.state)

def InteractionStatus.wire : InteractionStatus → String
  | .pending => "pending"
  | .answered _ => "answered"
  | .expired => "expired"
  | .unavailable => "unavailable"

def InteractionStatus.responseCommandId : InteractionStatus → Option Id
  | .answered responseCommandId => some responseCommandId
  | _ => none

def Interaction.json (i : Interaction) : JsonValue :=
  .record ([("schemaVersion", .ofNat 1), ("kind", .text "interaction"),
      ("namespace", Namespace.json i.scope), ("interactionId", .text i.interactionId),
      ("commandId", .text i.commandId), ("generation", .text i.generation)]
    ++ optional "nativeRunId" .text i.nativeRunId
    ++ [("category", .text "question"), ("nativeCallbackId", .text i.nativeCallbackId),
      ("expiresAtMs", .ofNat i.expiresAtMs), ("callbackLifetime", .text "generation_bound"),
      ("request", .object i.request), ("status", .text (InteractionStatus.wire i.status))]
    ++ optional "responseCommandId" .text (InteractionStatus.responseCommandId i.status))

def SurfaceStatus.wire : SurfaceStatus → String
  | .active => "active"
  | .deleted => "deleted"
  | .invalidated => "invalidated"

def SurfaceState.json (s : SurfaceState) : JsonValue :=
  .record [("schemaVersion", .ofNat 1), ("kind", .text "surface"),
    ("namespace", Namespace.json s.scope), ("generation", .text s.generation),
    ("nativeRunId", .text s.nativeRunId), ("surfaceId", .text s.surfaceId),
    ("surfaceInstanceId", .text s.surfaceInstanceId), ("revision", .ofNat s.revision),
    ("interactionId", .text s.interactionId), ("sourceComponentId", .text s.sourceComponentId),
    ("eventName", .text s.eventName), ("catalogId", .text s.catalogId),
    ("catalogVersion", .text s.catalogVersion), ("a2uiVersion", .text "v0.9.1"),
    ("status", .text (SurfaceStatus.wire s.status)), ("messages", .list (s.messages.map .object))]

def DeliveryRetry.wire : DeliveryRetry → String
  | .receiverIdempotent => "receiver_idempotent"
  | .reconcileFirst => "reconcile_first"
  | .never => "never"

def DeliveryStatus.wire : DeliveryStatus → String
  | .pending => "pending"
  | .delivered => "delivered"
  | .receiptRecorded => "receipt_recorded"
  | .reconciliationRequired => "reconciliation_required"

def Delivery.json (d : Delivery) : JsonValue :=
  .record [("schemaVersion", .ofNat 1), ("kind", .text "delivery"),
    ("namespace", Namespace.json d.scope), ("operationId", .text d.operationId),
    ("eventId", .text d.eventId), ("target", .text d.target), ("contentHash", .text d.contentHash),
    ("retry", .text (DeliveryRetry.wire d.retry)), ("status", .text (DeliveryStatus.wire d.status)),
    ("attempts", .ofNat d.attempts), ("nextAttemptAtMs", .ofNat d.nextAttemptAtMs)]

def DispatchConfirmation.wire : DispatchConfirmation → String
  | .requestOnly => "request_only"
  | .alreadyTerminal => "already_terminal"
  | .unsupported => "unsupported"

def Disposition.wire : Disposition → String
  | .returned => "returned"
  | .rejected => "rejected"
  | .unavailable => "unavailable"

def Resolution.wire : Resolution → String
  | .running => "running"
  | .terminal => "terminal"
  | .notSubmitted => "not_submitted"
  | .unknown => "unknown"
  | .submitted => "submitted"
  | .acknowledged => "acknowledged"

def EventBody.json : EventBody → JsonValue
  | .text messageId text =>
    .record [("type", .text "text"), ("messageId", .text messageId), ("text", .text text)]
  | .commandAccepted command =>
    .record [("type", .text "command_accepted"), ("command", Command.json command)]
  | .status state => .record [("type", .text "status"), ("state", .text (StateName.wire state.name))]
  | .terminal outcome => .record [("type", .text "terminal"), ("outcome", .text (Outcome.wire outcome))]
  | .cancelDispatched confirmation =>
    .record [("type", .text "cancel_dispatched"),
      ("confirmation", .text (DispatchConfirmation.wire confirmation))]
  | .toolProposal proposalId name arguments =>
    .record [("type", .text "tool_proposal"), ("proposalId", .text proposalId), ("name", .text name),
      ("arguments", .object arguments)]
  | .toolResult proposalId disposition text =>
    .record [("type", .text "tool_result"), ("proposalId", .text proposalId),
      ("disposition", .text (Disposition.wire disposition)), ("text", .text text)]
  | .interactionPending interactionId request expiresAtMs =>
    .record [("type", .text "interaction"), ("interactionId", .text interactionId),
      ("status", .text "pending"), ("request", .object request), ("expiresAtMs", .ofNat expiresAtMs),
      ("callbackLifetime", .text "generation_bound")]
  | .interactionAnswered interactionId responseCommandId =>
    .record [("type", .text "interaction"), ("interactionId", .text interactionId),
      ("status", .text "answered"), ("responseCommandId", .text responseCommandId)]
  | .interactionExpired interactionId =>
    .record [("type", .text "interaction"), ("interactionId", .text interactionId),
      ("status", .text "expired")]
  | .interactionUnavailable interactionId =>
    .record [("type", .text "interaction"), ("interactionId", .text interactionId),
      ("status", .text "unavailable")]
  | .error failure => .record [("type", .text "error"), ("failure", Failure.json failure)]
  | .invalidated failure => .record [("type", .text "invalidated"), ("failure", Failure.json failure)]
  | .dispatch attempt => .record [("type", .text "dispatch"), ("attempt", DispatchAttempt.json attempt)]
  | .reconciled attempt resolution =>
    .record [("type", .text "reconciled"), ("attempt", DispatchAttempt.json attempt),
      ("resolution", .text (Resolution.wire resolution))]
  | .surface surface => .record [("type", .text "surface"), ("surface", SurfaceState.json surface)]
  | .sessionRebound previousGeneration =>
    .record [("type", .text "session_rebound"), ("previousGeneration", .text previousGeneration)]
  | .sessionRetired => .record [("type", .text "session_retired")]
  | .acknowledged acknowledgement =>
    .record [("type", .text "acknowledged"),
      ("acknowledgement", Acknowledgement.json acknowledgement)]
  | .cancelled cancelledBy => .record [("type", .text "cancelled"), ("cancelledBy", .text cancelledBy)]
  | .sessionRecoveryUnavailable => .record [("type", .text "session_recovery_unavailable")]
  | .queuedCancelled targetCommandId =>
    .record [("type", .text "acknowledged"),
      ("acknowledgement", queuedCancelledJson targetCommandId)]
  | .deliveryRequested operationId target name arguments =>
    .record [("type", .text "delivery_requested"), ("operationId", .text operationId),
      ("target", .text target),
      ("proposal", .record [("name", .text name), ("arguments", .object arguments)])]
  | .deliveryRecorded operationId target contentHash receiptRef =>
    .record [("type", .text "delivery_recorded"), ("operationId", .text operationId),
      ("target", .text target), ("contentHash", .text contentHash), ("receiptRef", .text receiptRef)]

def Event.json (e : Event) : JsonValue :=
  .record ([("schemaVersion", .ofNat 1), ("kind", .text "event"), ("namespace", Namespace.json e.scope),
      ("eventId", .text e.eventId), ("sequence", .ofNat e.sequence), ("generation", .text e.generation)]
    ++ optional "commandId" .text e.commandId ++ optional "attemptId" .text e.attemptId
    ++ [("body", EventBody.json e.body)])

/-! ## The schema -/

def idHead (b : UInt8) : Bool := (48 ≤ b && b ≤ 57) || (65 ≤ b && b ≤ 90) || (97 ≤ b && b ≤ 122)

def idTail (b : UInt8) : Bool := idHead b || [46, 95, 58, 47, 43, 45].contains b

def isId (value : String) : Bool :=
  match utf8 value with
  | [] => false
  | b :: rest => idHead b && rest.all idTail && rest.length + 1 ≤ 128

def isHash (value : String) : Bool :=
  (utf8 value).length = 64 && (utf8 value).all fun b => (48 ≤ b && b ≤ 57) || (97 ≤ b && b ≤ 102)

def isCounter (value : Nat) : Bool := value ≤ maxSafeInteger

def shortText (bound : Nat) (value : String) : Bool := value.toList.length ≤ bound

def Namespace.accepts (n : Namespace) : Bool :=
  [n.tenantId, n.principalId, n.authorityId, n.sessionId].all isId

def Binding.accepts (b : Binding) : Bool :=
  [b.provider, b.providerVersion, b.adapterVersion, b.generation, b.nativeSessionId, b.config.id,
    b.config.revision, b.workspaceId].all isId &&
  b.nativeRunId.all isId && b.nativeRequestId.all isId && b.nativeThreadId.all isId

def ContextStage.accepts (s : ContextStage) : Bool :=
  isId s.stageId && isId s.connectionId && isCounter s.configRevision && Binding.accepts s.binding

def Session.accepts (s : Session) : Bool :=
  Namespace.accepts s.scope && isCounter s.revision && isCounter s.lastSequence &&
  s.selectedConnectionId.all isId && s.currentStageId.all isId &&
  s.stages.all ContextStage.accepts && s.stages.length ≤ 128

def HistoryPreview.accepts (h : HistoryPreview) : Bool :=
  isId h.sessionId && isId h.connectionId && isCounter h.configRevision &&
  isCounter h.throughSequence && h.commandIds.all isId && h.commandIds.length ≤ 10000 &&
  shortText 131072 h.text && isId h.contentHash && h.messageIds.all isId &&
  h.messageIds.length ≤ 10000

def SurfaceReference.accepts (r : SurfaceReference) : Bool := isId r.instanceId && isCounter r.revision

def Input.accepts : Input → Bool
  | .prompt text _ targetRunId history =>
    shortText 65536 text && targetRunId.all isId && history.all HistoryPreview.accepts
  | .cancel targetCommandId generation nativeRunId =>
    isId targetCommandId && isId generation && nativeRunId.all isId
  | .respond interactionId generation nativeRunId _ surface =>
    isId interactionId && isId generation && nativeRunId.all isId && surface.all SurfaceReference.accepts

def Command.accepts (c : Command) : Bool :=
  isId c.sessionId && isId c.commandId && isCounter c.expiresAtMs && Input.accepts c.input

def Receipt.accepts (r : Receipt) : Bool :=
  Namespace.accepts r.scope && isId r.commandId && isHash r.contentHash && isCounter r.acceptedAtMs &&
  isCounter r.retryUntilMs && isCounter r.receiptUntilMs && isCounter r.acceptedRevision &&
  isId r.stageId

def DispatchAttempt.accepts (d : DispatchAttempt) : Bool :=
  [d.nativeSessionId, d.attemptId, d.originGeneration, d.observerGeneration].all isId &&
  d.nativeRunId.all isId && d.nativeRequestId.all isId && d.correlationId.all isId &&
  d.nativeThreadId.all isId

def CommandState.accepts : CommandState → Bool
  | .cancelled id | .queuedCancelled id => isId id
  | state => state.dispatch.all DispatchAttempt.accepts

def CommandRecord.accepts (c : CommandRecord) : Bool :=
  Command.accepts c.command && Receipt.accepts c.receipt && CommandState.accepts c.state

def Interaction.accepts (i : Interaction) : Bool :=
  Namespace.accepts i.scope && isId i.interactionId && isId i.commandId && isId i.generation &&
  i.nativeRunId.all isId && isCounter i.expiresAtMs && isId i.nativeCallbackId &&
  (InteractionStatus.responseCommandId i.status).all isId

def SurfaceState.accepts (s : SurfaceState) : Bool :=
  Namespace.accepts s.scope &&
  [s.generation, s.nativeRunId, s.surfaceId, s.surfaceInstanceId, s.interactionId, s.sourceComponentId,
    s.eventName, s.catalogId, s.catalogVersion].all isId &&
  isCounter s.revision && s.messages.length ≤ 128

def Delivery.accepts (d : Delivery) : Bool :=
  Namespace.accepts d.scope && isId d.operationId && isId d.eventId && isId d.target &&
  isHash d.contentHash && isCounter d.attempts && isCounter d.nextAttemptAtMs

def EventBody.accepts : EventBody → Bool
  | .text messageId text => isId messageId && shortText 65536 text
  | .commandAccepted command => Command.accepts command
  | .toolProposal proposalId name _ => isId proposalId && isId name
  | .toolResult proposalId _ text => isId proposalId && shortText 65536 text
  | .interactionPending interactionId _ expiresAtMs => isId interactionId && isCounter expiresAtMs
  | .interactionAnswered interactionId responseCommandId => isId interactionId && isId responseCommandId
  | .interactionExpired interactionId | .interactionUnavailable interactionId => isId interactionId
  | .dispatch attempt | .reconciled attempt _ => DispatchAttempt.accepts attempt
  | .surface surface => SurfaceState.accepts surface
  | .sessionRebound id | .cancelled id | .queuedCancelled id => isId id
  | .deliveryRequested operationId target name _ => isId operationId && isId target && isId name
  | .deliveryRecorded operationId target contentHash receiptRef =>
    isId operationId && isId target && isHash contentHash && isId receiptRef
  | .status _ | .terminal _ | .cancelDispatched _ | .error _ | .invalidated _ | .sessionRetired
  | .acknowledged _ | .sessionRecoveryUnavailable => true

inductive Subject where
  | session
  | command
  | attempt
  deriving DecidableEq, Repr

def EventBody.subject : EventBody → Subject
  | .sessionRebound _ | .sessionRetired | .sessionRecoveryUnavailable => .session
  | .commandAccepted _ | .error _ | .invalidated _ | .cancelled _ | .queuedCancelled _
  | .deliveryRequested .. | .deliveryRecorded .. => .command
  | .text .. | .status _ | .terminal _ | .cancelDispatched _ | .toolProposal .. | .toolResult ..
  | .interactionPending .. | .interactionAnswered .. | .interactionExpired _ | .interactionUnavailable _
  | .dispatch _ | .reconciled .. | .surface _ | .acknowledged _ => .attempt

def Event.names (e : Event) : Bool :=
  match EventBody.subject e.body with
  | .session => e.commandId.isNone && e.attemptId.isNone
  | .command => e.commandId.isSome && e.attemptId.isNone
  | .attempt => e.commandId.isSome && e.attemptId.isSome

def Event.accepts (e : Event) : Bool :=
  Namespace.accepts e.scope && isId e.eventId && isCounter e.sequence && isId e.generation &&
  e.commandId.all isId && e.attemptId.all isId && Event.names e && EventBody.accepts e.body

/-! ## The context -/

def Session.context (s : Session) : Bool :=
  s.currentStageId = s.stages.getLast?.map (·.stageId) && decide (s.stages.map (·.stageId)).Nodup &&
  s.stages.all fun stage => stage.connectionId = stage.binding.config.id && 1 ≤ stage.configRevision

def Command.context (c : Command) : Bool :=
  match c.input with
  | .prompt _ policy targetRunId _ => (policy = .steer) = targetRunId.isSome
  | _ => true

def Receipt.context (r : Receipt) : Bool :=
  r.acceptedAtMs ≤ r.retryUntilMs && r.retryUntilMs ≤ r.receiptUntilMs

def Event.context (e : Event) : Bool :=
  match e.body with
  | .commandAccepted command =>
    Command.context command && e.commandId = some command.commandId && e.scope.sessionId = command.sessionId
  | .surface surface =>
    e.scope = surface.scope && (surface.status = .invalidated || e.generation = surface.generation)
  | _ => true

section Validation
variable [RecordHashing]

def CommandRecord.context (c : CommandRecord) : Bool :=
  c.command.commandId = c.receipt.commandId && c.command.sessionId = c.receipt.scope.sessionId &&
  RecordHashing.fingerprint c.command = c.receipt.contentHash &&
  Command.context c.command && Receipt.context c.receipt

/-- The records that a session transition validates. -/
inductive WireRecord where
  | command (row : Command)
  | commandRecord (row : CommandRecord)
  | event (row : Event)
  | session (row : Session)
  | interaction (row : Interaction)
  | delivery (row : Delivery)
  | surface (row : SurfaceState)
  deriving DecidableEq, Repr

def WireRecord.json : WireRecord → JsonValue
  | .command row => Command.json row
  | .commandRecord row => CommandRecord.json row
  | .event row => Event.json row
  | .session row => Session.json row
  | .interaction row => Interaction.json row
  | .delivery row => Delivery.json row
  | .surface row => SurfaceState.json row

def WireRecord.accepts : WireRecord → Bool
  | .command row => Command.accepts row
  | .commandRecord row => CommandRecord.accepts row
  | .event row => Event.accepts row
  | .session row => Session.accepts row
  | .interaction row => Interaction.accepts row
  | .delivery row => Delivery.accepts row
  | .surface row => SurfaceState.accepts row

def checkContext : WireRecord → Bool
  | .command row => Command.context row
  | .commandRecord row => CommandRecord.context row
  | .event row => Event.context row
  | .session row => Session.context row
  | .interaction _ | .delivery _ | .surface _ => true

def validate (limits : Limits) (row : WireRecord) : Except Diagnostic Unit := do
  let _ ← boundedJson limits row.json
  if row.accepts = false then .error .schema
  else if checkContext row = false then .error .context
  else .ok ()

def valid (limits : Limits) (row : WireRecord) : Bool := (validate limits row).isOk

theorem validate_ok {limits : Limits} {row : WireRecord} {u : Unit} : validate limits row = .ok u ↔
    fits limits row.json = true ∧ row.accepts = true ∧ checkContext row = true := by
  unfold validate fits
  cases boundedJson limits row.json with
  | error _ => simp [bind, Except.bind, Except.isOk, Except.toBool]
  | ok _ =>
    simp only [bind, Except.bind, Except.isOk, Except.toBool, true_and]
    split <;> [simp_all; skip]
    split <;> simp_all

theorem valid_iff {limits : Limits} {row : WireRecord} : valid limits row = true ↔
    fits limits row.json = true ∧ row.accepts = true ∧ checkContext row = true := by
  rw [← validate_ok (u := ())]
  unfold valid
  cases validate limits row <;> simp [Except.isOk, Except.toBool]

theorem valid_accepts {limits : Limits} {row : WireRecord} (ok : valid limits row = true) :
    row.accepts = true ∧ checkContext row = true := (valid_iff.mp ok).2

end Validation

end RssMdmAgent.SessionValidity
