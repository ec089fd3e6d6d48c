import RssMdmAgent.InteractionModel

set_option autoImplicit false

/-! # Evaluation of interaction commands -/

namespace RssMdmAgent.InteractionState
open BoundedArithmetic JsonDocument InteractionModel

def require (ok : Bool) (error : InteractionError) : Except InteractionError Unit :=
  if ok then .ok () else .error error

def validateLimits (limits : Limits) : Except InteractionError Unit :=
  require (limits.maxSnapshotBytes ≠ 0 && limits.maxLifetimeMs ≠ 0) .configuration

/-- The status fits the revision, the times and the waiting reason. -/
def validStatus (s : Snapshot) : Bool :=
  let opened := s.openedAtUnixMs
  let deadline := s.spec.expiresAtUnixMs
  match s.status with
  | .pending => s.revision == 0
  | .answered _ response time =>
    s.revision == 1 && opened ≤ time && time < deadline && s.spec.kind.accepts response
  | .cancelled _ time => s.revision == 1 && opened ≤ time && time < deadline
  | .expired _ time => s.revision == 1 && deadline ≤ time

def terminalFits (s : Snapshot) (limits : Limits) : Bool :=
  s.status ≠ .pending ||
    (longestStatuses s.spec.kind).all fun status =>
      { s with revision := 1, status := status }.toJson.size ≤ limits.maxSnapshotBytes

/-- All checks of a restoration. -/
def restorable (s : Snapshot) (limits : Limits) : Except InteractionError Unit := do
  validateLimits limits
  require (s.version == snapshotVersion && s.openedAtUnixMs < s.spec.expiresAtUnixMs) .snapshot
  require (s.spec.expiresAtUnixMs - s.openedAtUnixMs ≤ limits.maxLifetimeMs) .limit
  require (validStatus s) .snapshot
  require (s.toJson.size ≤ limits.maxSnapshotBytes) .limit
  require (terminalFits s limits) .limit

structure Interaction where
  snapshot : Snapshot
  limits : Limits
  valid : restorable snapshot limits = .ok ()

def restore (snapshot : Snapshot) (limits : Limits) : Except InteractionError Interaction :=
  match h : restorable snapshot limits with
  | .ok () => .ok ⟨snapshot, limits, h⟩
  | .error e => .error e

def openedSnapshot (spec : Spec) (now : Nat) : Snapshot :=
  ⟨snapshotVersion, spec, now, 0, .pending⟩

def Interaction.create (spec : Spec) (now : Nat) (limits : Limits) :
    Except InteractionError Interaction :=
  restore (openedSnapshot spec now) limits

def Snapshot.committedAt (s : Snapshot) : Nat :=
  match s.status with
  | .pending => s.openedAtUnixMs
  | .answered _ _ time | .cancelled _ time | .expired _ time => time

def Status.command : Status → Option Command
  | .pending => none
  | .answered id response _ => some (.answer id response)
  | .cancelled id _ => some (.cancel id)
  | .expired command _ => some command

structure Transition where
  expectedRevision : Nat
  next : Interaction

structure Evaluation where
  outcome : Outcome
  transition : Option Transition

/-- The terminal status of a command on a pending interaction; none while it is not due. -/
def proposed (s : Snapshot) (command : Command) (now : Nat) :
    Except InteractionError (Option (Status × Outcome)) :=
  if s.spec.expiresAtUnixMs ≤ now then .ok (some (.expired command now, .expired))
  else
    match command with
    | .checkExpiry => .ok none
    | .cancel id => .ok (some (.cancelled id now, .cancelled))
    | .answer id response =>
      if s.spec.kind.accepts response then .ok (some (.answered id response now, .answered))
      else .error .responseKind

def Interaction.evaluate (i : Interaction) (command : Command) (now : Nat) :
    Except InteractionError Evaluation :=
  let s := i.snapshot
  if now < Snapshot.committedAt s then .error .clock
  else
    match Status.command s.status with
    | some committed =>
      if command = committed then .ok ⟨.duplicate, none⟩
      else if committed.id.isSome ∧ committed.id = command.id then .error .idempotencyConflict
      else .ok ⟨.late, none⟩
    | none => do
      match ← proposed s command now with
      | none => return ⟨.notDue, none⟩
      | some (status, outcome) =>
        let next ← restore { s with revision := 1, status := status } i.limits
        return ⟨outcome, some ⟨s.revision, next⟩⟩

end RssMdmAgent.InteractionState
