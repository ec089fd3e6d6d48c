import RssMdmAgent.OrderedRows
import RssMdmAgent.Tally
import Mathlib.Data.List.Sort

set_option autoImplicit false

/-! # Loss totals and immutable loss reports of the telemetry spool -/

namespace RssMdmAgent.TelemetryGaps
open OrderedRows Tally

abbrev Uuid := Nat

abbrev Bytes := List UInt8

def maxI64 : Nat := 9223372036854775807

inductive Error where
  | protocol
  | clock
  | storage
  | capacity
  | expired
  | untrusted
  deriving DecidableEq, Repr

structure Owner where
  registration : Uuid
  generation : Nat
  deriving DecidableEq, Repr

structure TelemetryGap (Reason : Type) where
  reason : Reason
  count : Nat
  first : Int
  last : Int
  deriving DecidableEq

structure TelemetryGapReport (Reason : Type) where
  reportId : Uuid
  owner : Owner
  createdAt : Int
  gaps : List (TelemetryGap Reason)
  deriving DecidableEq

/-- What the spool uses of the wire crate: the loss vocabulary with its serialised text, and the
encoding, validation and limits of a loss report. -/
class GapWire where
  Reason : Type
  registration : Reason
  expired : Reason
  capacity : Reason
  key : Reason → String
  fromKey : String → Option Reason
  fromKey_key : ∀ reason, fromKey (key reason) = some reason
  validate : TelemetryGapReport Reason → Bool
  encode : TelemetryGapReport Reason → Bytes
  decode : Bytes → Option (TelemetryGapReport Reason)
  decode_encode : ∀ report, validate report = true → decode (encode report) = some report
  window : Int
  maxBytes : Nat
  hash : Bytes → String

open GapWire

structure Span where
  count : Nat
  first : Int
  last : Int
  deriving DecidableEq, Repr

def Span.merge (old new : Span) : Span :=
  ⟨raise maxI64 old.count new.count, min old.first new.first, max old.last new.last⟩

structure GapRow where
  reason : String
  span : Span
  deriving DecidableEq, Repr

structure GapKey where
  owner : Owner
  reason : String
  deriving DecidableEq, Repr

structure PendingRow where
  key : GapKey
  span : Span
  deriving DecidableEq, Repr

structure ReportRow where
  id : Uuid
  owner : Owner
  body : Bytes
  digest : String
  expires : Int
  attempts : Nat
  due : Int
  deriving DecidableEq, Repr

structure GapStore where
  gaps : Rows GapRow.reason
  pending : Rows PendingRow.key
  reports : Rows ReportRow.id
  deriving DecidableEq

def GapStore.empty : GapStore := ⟨.empty, .empty, .empty⟩

def maxPendingReasons : Nat := 640

def maxReports : Nat := 64

section Calls
variable [GapWire]

def GapStore.gap (s : GapStore) (reason : Reason) (span : Span) : Except Error GapStore :=
  if span.count = 0 then .ok s
  else if span.first < 0 ∨ span.last < span.first ∨ maxI64 < span.count then .error .clock
  else
    let total := (s.gaps.get (key reason)).elim span fun row => row.span.merge span
    .ok { s with gaps := s.gaps.set ⟨key reason, total⟩ }

def GapStore.refuses (s : GapStore) (key : GapKey) : Bool :=
  !s.pending.has key && decide (maxPendingReasons ≤ s.pending.entries.length)

def GapStore.accumulate (s : GapStore) (key : GapKey) (span : Span) : GapStore :=
  let total := (s.pending.get key).elim span fun row => row.span.merge span
  { s with pending := s.pending.set ⟨key, total⟩ }

def GapStore.record (s : GapStore) (owner : Owner) (reason : Reason) (span : Span) :
    Except Error GapStore :=
  if owner.registration = 0 ∨ owner.generation = 0 ∨ maxI64 < owner.generation ∨ span.last = maxI64 then
    .error .protocol
  else do
    let s ← s.gap reason span
    if span.count = 0 then return s
    -- Without room for another reason only the lifetime evidence remains.
    if s.refuses ⟨owner, key reason⟩ then return s
    return s.accumulate ⟨owner, key reason⟩ span

def GapStore.fence (s : GapStore) (owner : Owner) (createdAt : Int) : GapStore :=
  { s with
    reports := s.reports.retain fun row => decide (createdAt < row.expires ∧ row.owner = owner)
    pending := s.pending.retain fun row => decide (row.key.owner = owner) }

def GapStore.reasons (s : GapStore) (owner : Owner) : List PendingRow :=
  (s.pending.select fun row => decide (row.key.owner = owner)).mergeSort
    fun a b => decide (a.key.reason ≤ b.key.reason)

def PendingRow.gap (row : PendingRow) : Except Error (TelemetryGap Reason) :=
  match fromKey row.key.reason with
  | some reason => .ok ⟨reason, row.span.count, row.span.first, row.span.last⟩
  | none => .error .storage

def ReportRow.of (report : TelemetryGapReport Reason) : ReportRow :=
  let body := encode report
  -- A sum past the largest time wraps around.
  ⟨report.reportId, report.owner, body, GapWire.hash body, (report.createdAt + window).bmod (2 ^ 64), 0, 0⟩

/-- The pending losses of the registration become one report with a new identity. -/
def GapStore.freezeGaps (s : GapStore) (owner : Owner) (createdAt : Int) (fresh : Uuid) :
    Except Error GapStore :=
  if maxI64 < owner.generation then .error .storage
  else
    let s := s.fence owner createdAt
    if maxReports ≤ s.reports.entries.length then .ok s
    else if (s.reasons owner).isEmpty then .ok s
    else do
      let gaps ← (s.reasons owner).mapM PendingRow.gap
      let report := ⟨fresh, owner, createdAt, gaps⟩
      if ¬ validate report then throw .protocol
      -- The identity is the primary key of the reports.
      if s.reports.has fresh then throw .storage
      return { s with
        reports := s.reports.set (.of report)
        pending := s.pending.retain fun row => decide (row.key.owner ≠ owner) }

structure PendingGap where
  report : TelemetryGapReport Reason
  body : Bytes
  attempts : Nat

def ReportRow.restore (row : ReportRow) (owner : Owner) : Except Error PendingGap :=
  if maxBytes < row.body.length ∨ GapWire.hash row.body ≠ row.digest then .error .storage
  else match decode row.body with
    | none => .error .protocol
    | some report =>
      if ¬ validate report then .error .protocol
      else if report.reportId ≠ row.id ∨ report.owner ≠ owner then .error .storage
      else .ok ⟨report, row.body, row.attempts⟩

def GapStore.pendingGap (s : GapStore) (owner : Owner) (now : Int) : Except Error (Option PendingGap) :=
  let due := s.reports.select fun row =>
    decide (row.owner = owner ∧ row.due ≤ now.tdiv 1000000 ∧ now < row.expires)
  match due.head? with
  | none => .ok none
  | some row => (row.restore owner).map some

def PendingGap.selects (p : PendingGap) (row : ReportRow) : Bool :=
  decide (row.id = p.report.reportId ∧ row.digest = GapWire.hash p.body)

def saturatingTime (t : Int) : Int := min t maxI64

def PendingGap.mark (p : PendingGap) (attempts : Nat → Nat) (due : Int) (row : ReportRow) : ReportRow :=
  if p.selects row then { row with attempts := attempts row.attempts, due := due } else row

theorem PendingGap.mark_id (p : PendingGap) (attempts : Nat → Nat) (due : Int) (row : ReportRow) :
    (p.mark attempts due row).id = row.id := by
  unfold PendingGap.mark
  split <;> rfl

def GapStore.touch (s : GapStore) (p : PendingGap) (attempts : Nat → Nat) (due : Int) : GapStore :=
  { s with reports := s.reports.revise (p.mark attempts due) (p.mark_id attempts due) }

def GapStore.attemptingGap (s : GapStore) (p : PendingGap) (now : Int) : GapStore :=
  s.touch p (fun attempts => min (attempts + 1) 31) (saturatingTime (now + 2))

def backoff (attempts : Nat) (id : Uuid) (delay : Option Nat) : Nat :=
  min (max (delay.getD 0) (min (2 ^ min attempts 10) 900 + id / 2 ^ 120 % 7)) 86400

def GapStore.retryGap (s : GapStore) (p : PendingGap) (now : Int) (delay : Option Nat) : GapStore :=
  s.touch p id (saturatingTime (now + backoff p.attempts p.report.reportId delay))

def GapStore.rejectGap (s : GapStore) (p : PendingGap) : GapStore :=
  { s with reports := s.reports.retain fun row => !p.selects row }

structure TelemetryGapReceipt where
  reportId : Uuid
  receivedAt : Int
  deriving DecidableEq, Repr

def GapStore.acknowledgeGap (s : GapStore) (p : PendingGap) (r : TelemetryGapReceipt) :
    Except Error GapStore :=
  if r.reportId ≠ p.report.reportId ∨ r.receivedAt < 0 ∨ r.receivedAt = maxI64 then .error .protocol
  else .ok (s.rejectGap p)

end Calls

end RssMdmAgent.TelemetryGaps
