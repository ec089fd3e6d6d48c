import RssMdmAgent.BoundedArithmetic
import RssMdmAgent.JsonDocument

set_option autoImplicit false

/-! # One-shot interactions: requests, responses and their stored form -/

namespace RssMdmAgent.InteractionModel
open BoundedArithmetic JsonDocument

def validReference (value : String) : Bool :=
  value.utf8ByteSize ≠ 0 && value.utf8ByteSize ≤ 128 &&
    value.toList.all fun b => b.isAlphanum || ['-', '_', '.', ':'].contains b

structure Reference where
  value : String
  valid : validReference value = true
  deriving DecidableEq, Repr

inductive ConfirmationPurpose where
  | continue
  | closeApplication
  deriving DecidableEq, Repr

/-- The exact waiting reason. -/
inductive Kind where
  | executionAction (digest : Reference)
  | userConfirmation (purpose : ConfirmationPurpose)
  | privacyConsent (scope : Reference)
  | administratorAuthorization (request : Reference)
  | parameterInput (schema : Reference)
  | maintenanceWindow (options : Reference)
  | restartPrompt (options : Reference)
  deriving DecidableEq, Repr

/-- Submitted data; no response is an authorization. -/
inductive Response where
  | confirmation (accepted : Bool)
  | privacyConsent (accepted : Bool)
  | administratorDecision (record : Reference)
  | parameterSubmission (submission : Reference)
  | maintenanceSelection (selection : Reference)
  | restartSelection (selection : Reference)
  deriving DecidableEq, Repr

def Kind.accepts : Kind → Response → Bool
  | .userConfirmation _, .confirmation _ | .executionAction _, .confirmation _ => true
  | .privacyConsent _, .privacyConsent _ => true
  | .administratorAuthorization _, .administratorDecision _ => true
  | .parameterInput _, .parameterSubmission _ => true
  | .maintenanceWindow _, .maintenanceSelection _ => true
  | .restartPrompt _, .restartSelection _ => true
  | _, _ => false

structure Spec where
  id : Reference
  subject : Reference
  kind : Kind
  expiresAtUnixMs : Nat
  deriving DecidableEq, Repr

inductive Command where
  | answer (id : Reference) (response : Response)
  | cancel (id : Reference)
  | checkExpiry
  deriving DecidableEq, Repr

def Command.id : Command → Option Reference
  | .answer id _ | .cancel id => some id
  | .checkExpiry => none

inductive Status where
  | pending
  | answered (id : Reference) (response : Response) (atUnixMs : Nat)
  | cancelled (id : Reference) (atUnixMs : Nat)
  | expired (command : Command) (atUnixMs : Nat)
  deriving DecidableEq, Repr

def snapshotVersion : Nat := 1

structure Snapshot where
  version : Nat
  spec : Spec
  openedAtUnixMs : Nat
  revision : Nat
  status : Status
  deriving DecidableEq, Repr

structure Limits where
  maxSnapshotBytes : Nat
  maxLifetimeMs : Nat
  deriving DecidableEq, Repr

inductive InteractionError where
  | configuration
  | limit
  | reference
  | snapshot
  | clock
  | responseKind
  | idempotencyConflict
  deriving DecidableEq, Repr

inductive Outcome where
  | answered
  | cancelled
  | expired
  | duplicate
  | late
  | notDue
  deriving DecidableEq, Repr

section Encoding

def ConfirmationPurpose.toJson : ConfirmationPurpose → Json
  | .continue => .text "continue"
  | .closeApplication => .text "closeApplication"

def Kind.toJson : Kind → Json
  | .executionAction digest =>
    .object [("kind", .text "executionAction"), ("digest", .text digest.value)]
  | .userConfirmation purpose =>
    .object [("kind", .text "userConfirmation"), ("purpose", purpose.toJson)]
  | .privacyConsent scope =>
    .object [("kind", .text "privacyConsent"), ("scope", .text scope.value)]
  | .administratorAuthorization request =>
    .object [("kind", .text "administratorAuthorization"), ("request", .text request.value)]
  | .parameterInput schema =>
    .object [("kind", .text "parameterInput"), ("schema", .text schema.value)]
  | .maintenanceWindow options =>
    .object [("kind", .text "maintenanceWindow"), ("options", .text options.value)]
  | .restartPrompt options =>
    .object [("kind", .text "restartPrompt"), ("options", .text options.value)]

def Response.toJson : Response → Json
  | .confirmation accepted =>
    .object [("kind", .text "confirmation"), ("accepted", .bool accepted)]
  | .privacyConsent accepted =>
    .object [("kind", .text "privacyConsent"), ("accepted", .bool accepted)]
  | .administratorDecision record =>
    .object [("kind", .text "administratorDecision"), ("record", .text record.value)]
  | .parameterSubmission submission =>
    .object [("kind", .text "parameterSubmission"), ("submission", .text submission.value)]
  | .maintenanceSelection selection =>
    .object [("kind", .text "maintenanceSelection"), ("selection", .text selection.value)]
  | .restartSelection selection =>
    .object [("kind", .text "restartSelection"), ("selection", .text selection.value)]

def Command.toJson : Command → Json
  | .answer id response =>
    .object [("kind", .text "answer"), ("id", .text id.value), ("response", response.toJson)]
  | .cancel id => .object [("kind", .text "cancel"), ("id", .text id.value)]
  | .checkExpiry => .object [("kind", .text "checkExpiry")]

def Status.toJson : Status → Json
  | .pending => .object [("status", .text "pending")]
  | .answered id response atUnixMs =>
    .object [("status", .text "answered"), ("id", .text id.value), ("response", response.toJson),
      ("atUnixMs", .nat atUnixMs)]
  | .cancelled id atUnixMs =>
    .object [("status", .text "cancelled"), ("id", .text id.value), ("atUnixMs", .nat atUnixMs)]
  | .expired command atUnixMs =>
    .object [("status", .text "expired"), ("command", command.toJson), ("atUnixMs", .nat atUnixMs)]

def Spec.toJson (s : Spec) : Json :=
  .object [("id", .text s.id.value), ("subject", .text s.subject.value), ("kind", s.kind.toJson),
    ("expiresAtUnixMs", .nat s.expiresAtUnixMs)]

def Snapshot.toJson (s : Snapshot) : Json :=
  .object [("version", .nat s.version), ("spec", s.spec.toJson),
    ("openedAtUnixMs", .nat s.openedAtUnixMs), ("revision", .nat s.revision),
    ("status", s.status.toJson)]

end Encoding

def longestReference : Reference := ⟨String.ofList (List.replicate 128 'x'), by decide +kernel⟩

def longestResponses : List Response :=
  [.confirmation false, .privacyConsent false, .administratorDecision longestReference,
    .parameterSubmission longestReference, .maintenanceSelection longestReference,
    .restartSelection longestReference]

def longestStatuses (kind : Kind) : List Status :=
  [.cancelled longestReference maxWord, .expired (.cancel longestReference) maxWord,
    .expired .checkExpiry maxWord] ++
  longestResponses.flatMap fun response =>
    (if kind.accepts response then [.answered longestReference response maxWord] else []) ++
      [.expired (.answer longestReference response) maxWord]

end RssMdmAgent.InteractionModel
