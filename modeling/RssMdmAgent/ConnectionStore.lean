import Mathlib.Data.List.MinMax
import RssMdmAgent.OrderedRows
import RssMdmAgent.TransitionRuns
import RssMdmAgent.ContractPlan
import RssMdmAgent.SessionValidity

set_option autoImplicit false

/-! # Saved connections and the preferences of their user -/

namespace RssMdmAgent.ConnectionStore
open OrderedRows TransitionRuns
open ContractPlan (bind_ok)
open SessionRecords (ErrorCode)
open SessionValidity (isId)

inductive Provider where
  | codex | claude | deepseek
  deriving DecidableEq

inductive Profile where
  | conversation | controlledTools
  deriving DecidableEq

inductive Status where
  | unverified | ready | deleted
  deriving DecidableEq

inductive CredentialType where
  | apiKey | authToken
  deriving DecidableEq

inductive ConnectionSource where
  | customApi (apiUrl model : String) (credentialType : Option CredentialType)
  | existingConfig (directory model : Option String)
  deriving DecidableEq

structure ConnectionTest where
  testedRevision : Nat
  failure : Option (String × String)
  deriving DecidableEq

/-- A saved connection; `details` is the rest of its presentation. -/
structure Connection where
  connectionId : String
  provider : Provider
  configRevision : Nat
  profile : Profile
  status : Status
  source : ConnectionSource
  lastTest : Option ConnectionTest
  name : String
  details : String
  deriving DecidableEq

structure Caller where
  tenantId : String
  principalId : String
  authorityId : String
  deriving DecidableEq

abbrev Presentation := Rows (Prod.fst : String × String → String)

def Caller.accepts (caller : Caller) : Bool :=
  isId caller.tenantId && isId caller.principalId && isId caller.authorityId

structure UserPreferences where
  defaultConnectionId : Option String
  selectedSessionId : Option String
  presentation : Option Presentation
  deriving DecidableEq

def emptyPreferences : UserPreferences := ⟨none, none, none⟩

inductive PreferenceChange where
  | set (id : String)
  | clear
  deriving DecidableEq

structure PreferencesPatch where
  defaultConnectionId : Option PreferenceChange
  selectedSessionId : Option PreferenceChange
  presentation : Option Presentation

structure Url where
  protocol : String
  hostname : String
  username : String
  password : String
  search : String
  hash : String

/-- What the rest of the record schema with the default limits and the URL parser tell. -/
class ConnectionWire where
  connection : Connection → Except ErrorCode Unit
  patch : PreferencesPatch → Bool
  preferences : UserPreferences → Except ErrorCode Unit
  url : String → Option Url

structure ConnectionRow where
  caller : Caller
  id : String
  revision : Nat
  body : Connection
  encryptedSecret : Option (List UInt8)
  deriving DecidableEq

def ConnectionRow.key (row : ConnectionRow) : Caller × String × Nat := (row.caller, row.id, row.revision)

structure PreferencesRow where
  caller : Caller
  body : UserPreferences
  deriving DecidableEq

structure Store where
  connections : Rows ConnectionRow.key
  preferences : Rows PreferencesRow.caller
  deriving DecidableEq

def isSpace (c : Char) : Bool :=
  let n := c.toNat
  decide (9 ≤ n ∧ n ≤ 13) || decide (0x2000 ≤ n ∧ n ≤ 0x200a) ||
    [0x20, 0xa0, 0x1680, 0x2028, 0x2029, 0x202f, 0x205f, 0x3000, 0xfeff].contains n

def blank (s : String) : Bool := s.toList.all isSpace

def isControl (c : Char) : Bool := decide (c.toNat < 0x20) || decide (0x7f ≤ c.toNat ∧ c.toNat < 0xa0)

section Operations
variable [ConnectionWire]

/-- An endpoint is remote over https or local over http, without credentials, query or fragment. -/
def acceptsUrl (apiUrl : String) : Bool :=
  match ConnectionWire.url apiUrl with
  | none => false
  | some url =>
    (decide (url.protocol = "https:") ||
        (decide (url.protocol = "http:") && ["localhost", "127.0.0.1", "[::1]"].contains url.hostname)) &&
      decide (url.username = "") && decide (url.password = "") && decide (url.search = "") && decide (url.hash = "")

def acceptsSource (c : Connection) : Bool :=
  match c.source with
  | .customApi apiUrl model _ => acceptsUrl apiUrl && !blank model
  | .existingConfig _ _ => decide (c.provider ≠ .deepseek)

/-- A connection is revised one step after its expected revision, until it is deleted. -/
def connectionRevision (next : Connection) (previous : Option Connection) (expected : Option Nat) :
    Except ErrorCode Connection :=
  match ConnectionWire.connection next with
  | .error _ => .error .invalidInput
  | .ok () =>
    if previous.map (·.configRevision) ≠ expected then .error .revisionConflict
    else if previous.map (·.status) = some .deleted ∨
        next.configRevision ≠ (previous.map (·.configRevision)).getD 0 + 1 then .error .invalidInput
    else if blank next.name ∨ next.name.toList.any isControl then .error .invalidInput
    else if acceptsSource next = false then .error .invalidInput
    else .ok next

def PreferenceChange.apply : Option PreferenceChange → Option String → Option String
  | none, current => current
  | some (.set id), _ => some id
  | some .clear, _ => none

def PreferenceChange.accepts : Option PreferenceChange → Bool
  | some (.set id) => isId id
  | _ => true

def acceptsPatch (patch : PreferencesPatch) : Bool :=
  PreferenceChange.accepts patch.defaultConnectionId && PreferenceChange.accepts patch.selectedSessionId &&
    ConnectionWire.patch patch

/-- The fields of a patch replace those of the preferences. -/
def mergePreferences (current : UserPreferences) (patch : PreferencesPatch) : Except ErrorCode UserPreferences :=
  if acceptsPatch patch = false then .error .invalidInput
  else .ok
    { defaultConnectionId := PreferenceChange.apply patch.defaultConnectionId current.defaultConnectionId
      selectedSessionId := PreferenceChange.apply patch.selectedSessionId current.selectedSessionId
      presentation := match patch.presentation with
        | none => current.presentation
        | some members => some ((current.presentation.getD .empty).setAll members.entries) }

variable (s : Store) (caller : Caller)

def Store.revisions (id : String) : List ConnectionRow :=
  s.connections.select fun row => decide (row.caller = caller ∧ row.id = id)

def Store.latest (id : String) : Option ConnectionRow := (s.revisions caller id).argmax (·.revision)

def Store.connection (id : String) : Except ErrorCode (Option Connection) :=
  if isId id && caller.accepts then .ok ((s.latest caller id).map (·.body)) else .error .invalidInput

def Store.latestRows : List ConnectionRow :=
  s.connections.select fun row => decide (row.caller = caller ∧ s.latest caller row.id = some row)

def Store.userPreferences : UserPreferences := ((s.preferences.get caller).map (·.body)).getD emptyPreferences

def Store.putPreferences (prefs : UserPreferences) : Except ErrorCode Store := do
  ConnectionWire.preferences prefs
  .ok { s with preferences := s.preferences.set ⟨caller, prefs⟩ }

def Store.checkDefault (prefs : UserPreferences) : Except ErrorCode Unit :=
  match prefs.defaultConnectionId with
  | none => .ok ()
  | some id => do
    let current ← s.connection caller id
    if current.map (·.status) = some .ready then .ok () else .error .connectionRequired

def checkSelected (hasSession : String → Bool) (prefs : UserPreferences) : Except ErrorCode Unit :=
  match prefs.selectedSessionId with
  | none => .ok ()
  | some id => if hasSession id then .ok () else .error .sessionGone

def Store.savePreferences (hasSession : String → Bool) (patch : PreferencesPatch) :
    Except ErrorCode (UserPreferences × Store) :=
  if caller.accepts = false then .error .invalidInput
  else do
    let prefs ← mergePreferences (s.userPreferences caller) patch
    s.checkDefault caller prefs
    checkSelected hasSession prefs
    let t ← s.putPreferences caller prefs
    .ok (prefs, t)

def acceptsSecret (next : Connection) : Option (List UInt8) → Bool
  | none => true
  | some secret => decide (29 ≤ secret.length) && decide (secret.length ≤ 16412) &&
    (match next.source with
      | .customApi .. => true
      | .existingConfig .. => false) && decide (next.status ≠ .deleted)

/-- The first ready connection becomes the default, and a default that is no longer ready is none. -/
def Store.adjustDefault (next : Connection) : UserPreferences :=
  let prefs := s.userPreferences caller
  if next.status = .ready then
    if prefs.defaultConnectionId.isNone && !(s.latestRows caller).any (fun row => decide (row.body.status = .ready)) then
      { prefs with defaultConnectionId := some next.connectionId }
    else prefs
  else if prefs.defaultConnectionId = some next.connectionId then { prefs with defaultConnectionId := none }
  else prefs

def Store.insertConnection (row : ConnectionRow) : Except ErrorCode Store :=
  if s.connections.has row.key then .error .unavailable else .ok { s with connections := s.connections.set row }

def ConnectionRow.forget (row : ConnectionRow) : ConnectionRow := { row with encryptedSecret := none }

def Store.forgetSecrets (id : String) : Store :=
  { s with connections := s.connections.setAll ((s.revisions caller id).map ConnectionRow.forget) }

def Store.saveConnection (next : Connection) (expected : Option Nat) (secret : Option (List UInt8)) :
    Except ErrorCode (Connection × Store) :=
  if acceptsSecret next secret = false then .error .invalidInput
  else do
    let previous ← s.connection caller next.connectionId
    let checked ← connectionRevision next previous expected
    if previous.isNone ∧ 128 ≤ (s.latestRows caller).length then .error .limitExceeded
    else do
      let t ← s.insertConnection ⟨caller, next.connectionId, next.configRevision, next, secret⟩
      let u := if next.status = .deleted then t.forgetSecrets caller next.connectionId else t
      let v ← u.putPreferences caller (s.adjustDefault caller next)
      .ok (checked, v)

def Store.recordConnectionTest (id : String) (expected : Nat) (result : ConnectionTest) :
    Except ErrorCode (Connection × Store) := do
  let current ← s.connection caller id
  match current with
  | none => .error .revisionConflict
  | some current =>
    if current.configRevision ≠ expected ∨ current.status = .deleted then .error .revisionConflict
    else do
      let next := { current with lastTest := some result }
      ConnectionWire.connection next
      if result.testedRevision ≠ expected then .error .invalidInput
      else match s.connections.get (caller, id, expected) with
        | none => .ok (next, s)
        | some row => .ok (next, { s with connections := s.connections.set { row with body := next } })

inductive Call where
  | saveConnection (next : Connection) (expected : Option Nat) (secret : Option (List UInt8))
  | recordConnectionTest (id : String) (expected : Nat) (result : ConnectionTest)
  | savePreferences (hasSession : String → Bool) (patch : PreferencesPatch)

def Store.perform : Call → Except ErrorCode Store
  | .saveConnection next expected secret => (s.saveConnection caller next expected secret).map Prod.snd
  | .recordConnectionTest id expected result => (s.recordConnectionTest caller id expected result).map Prod.snd
  | .savePreferences hasSession patch => (s.savePreferences caller hasSession patch).map Prod.snd

def Step (s : Store) (label : Caller × Call) (t : Store) : Prop := s.perform label.1 label.2 = .ok t

end Operations

end RssMdmAgent.ConnectionStore
