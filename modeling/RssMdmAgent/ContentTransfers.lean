import RssMdmAgent.OrderedRows
import RssMdmAgent.TransitionRuns
import Mathlib.Data.List.Sort

set_option autoImplicit false

/-! # Content consumers, their controls and the partial files of the content writer -/

namespace RssMdmAgent.ContentTransfers
open OrderedRows TransitionRuns

abbrev Uuid := Nat

inductive Error where
  | transferPaused | notFound | configuration | protocol | identity | denied | conflict | unavailable | network
  | certificateExpired | credentialRevoked | credentialRetired | issuanceUnknown | activationUnknown
  | enrollmentPaused | capacity | storage | schema | clock | expired | untrusted | unsupported
  deriving DecidableEq

structure Control where
  id : String
  pause : Bool
  expected : Nat
  ownerRevision : Nat
  confirmed : Bool
  deriving DecidableEq

structure Identity where
  task : Uuid
  attempt : Uuid
  key : String
  deriving DecidableEq

def Identity.upTo (a b : Identity) : Bool :=
  decide (a.task < b.task) || (decide (a.task = b.task) &&
    (decide (a.attempt < b.attempt) || (decide (a.attempt = b.attempt) && decide (a.key ≤ b.key))))

structure Consumer where
  task : Uuid
  attempt : Uuid
  key : String
  cache : String
  revision : Nat
  paused : Bool
  cancelled : Bool
  controls : List Control
  completedBytes : Option Nat
  checkpointBytes : Option Nat
  retired : Bool
  total : Option Nat
  resumable : Bool
  deriving DecidableEq

def Consumer.identity (v : Consumer) : Identity := ⟨v.task, v.attempt, v.key⟩

def Consumer.of (v : Consumer) (task attempt : Uuid) : Bool := decide (v.task = task ∧ v.attempt = attempt)

def Consumer.active (v : Consumer) (cache : String) : Bool :=
  decide (v.cache = cache) && !v.paused && !v.cancelled

def Consumer.control (v : Consumer) (id : String) : Option Control := v.controls.find? (·.id = id)

inductive Stage where
  | downloading | verifying | failed | paused | complete | unobserved
  deriving DecidableEq

structure Latest where
  cache : String
  bytes : Nat
  stage : Stage
  deriving DecidableEq

/-- A partial file: all bytes up to `synced` survive, and the writer may hold its lease. -/
structure Partial where
  name : String
  bytes : Nat
  synced : Nat
  leased : Bool
  deriving DecidableEq

structure Disk where
  partials : Rows Partial.name
  blobs : List String
  deriving DecidableEq

def Disk.Safe (d : Disk) (cache : String) : Prop :=
  cache ∈ d.blobs ∨ ∀ file, d.partials.get cache = some file → file.synced = file.bytes

/-- The consumers in the store and in memory, and what was observed of the caches. -/
structure Transfers where
  stored : Rows Consumer.identity
  consumers : Rows Consumer.identity
  latest : Rows Latest.cache
  limit : Nat
  deriving DecidableEq

inductive Access where
  | begin | commit | delete
  | write (index : Nat)
  | sync (index : Nat)
  deriving DecidableEq

section Rows
variable (s : Transfers)

def Transfers.those (condition : Consumer → Bool) : List Consumer :=
  (s.consumers.select condition).insertionSort fun a b => a.identity.upTo b.identity = true

def Transfers.selected (task attempt : Uuid) : List Consumer := s.those (·.of task attempt)

def Transfers.put (v : Consumer) : Transfers :=
  { s with stored := s.stored.set v, consumers := s.consumers.set v }

def Transfers.save (io : Access → Bool) (index : Nat) (v : Consumer) : Transfers × Except Error Unit :=
  if io (.write index) then (s.put v, .ok ()) else (s, .error .storage)

end Rows

def Transfers.saveAll (io : Access → Bool) : List Consumer → Nat → Transfers → Transfers × Except Error Unit
  | [], _, s => (s, .ok ())
  | v :: rest, index, s =>
    if io (.write index) then saveAll io rest (index + 1) (s.put v) else (s, .error .storage)

section Calls
variable (s : Transfers) (io : Access → Bool)

def Consumer.fresh (identity : Identity) (cache : String) (total : Option Nat) (resumable : Bool) : Consumer :=
  { task := identity.task
    attempt := identity.attempt
    key := identity.key
    cache
    revision := 0
    paused := false
    cancelled := false
    controls := []
    completedBytes := none
    checkpointBytes := none
    retired := false
    total
    resumable }

def Transfers.evict (v : Consumer) : Transfers :=
  let consumers := s.consumers.retain fun other => decide (other.identity ≠ v.identity)
  { s with
    stored := s.stored.retain fun other => decide (other.identity ≠ v.identity)
    consumers
    latest := s.latest.retain fun row => consumers.entries.any fun other => decide (other.cache = row.cache) }

def Transfers.attach (identity : Identity) (cache : String) (total : Option Nat) (resumable : Bool) :
    Transfers × Except Error Unit :=
  match s.consumers.get identity with
  | some old =>
    if old.cache ≠ cache ∨ old.total ≠ total ∨ old.resumable ≠ resumable then (s, .error .untrusted)
    else (s, .ok ())
  | none =>
    if s.limit ≤ s.consumers.entries.length then
      match (s.those (·.retired)).head? with
      | none => (s, .error .capacity)
      | some retired =>
        if io .delete then (s.evict retired).save io 0 (.fresh identity cache total resumable)
        else (s, .error .storage)
    else s.save io 0 (.fresh identity cache total resumable)

/-- What an owner sees of one consumer. -/
structure TransferObservation where
  key : String
  revision : Nat
  bytes : Nat
  total : Option Nat
  stage : Stage
  paused : Bool
  resumable : Bool
  sharedActive : Bool
  deriving DecidableEq

def Transfers.shared (task : Uuid) (cache : String) : Bool :=
  s.consumers.entries.any fun other => other.active cache && decide (other.task ≠ task)

def Transfers.observations (task attempt : Uuid) : List TransferObservation :=
  (s.selected task attempt).map fun v =>
    let latest := s.latest.get v.cache
    { key := v.key
      revision := v.revision
      bytes := (((latest.map (·.bytes)).or v.completedBytes).or v.checkpointBytes).getD 0
      total := v.total
      stage := match latest with
        | some row => row.stage
        | none => if v.completedBytes.isSome then .complete else if v.paused then .paused else .unobserved
      paused := v.paused
      resumable := v.resumable
      sharedActive := s.shared task v.cache }

/-- The arguments of one control. -/
structure Command where
  task : Uuid
  attempt : Uuid
  id : String
  ownerRevision : Nat
  revisions : List (String × Nat)
  pause : Bool
  deriving DecidableEq

def Command.repeats (c : Command) (key : String) (original : Control) : Bool :=
  decide (original.ownerRevision = c.ownerRevision) && decide (original.pause = c.pause) &&
    c.revisions.contains (key, original.expected)

/-- The confirmation that the consumers recorded under the identifier of the command. -/
def Command.replay (c : Command) : List Consumer → Except Error Bool
  | [] => .ok true
  | v :: rest =>
    match v.control c.id with
    | none => .error .conflict
    | some original =>
      if c.repeats v.key original then (c.replay rest).map (original.confirmed && ·) else .error .conflict

def validName (name : String) : Bool :=
  decide (name.length = 64) && name.toList.all fun c => c.isDigit || decide ('a' ≤ c ∧ c ≤ 'f') || decide ('A' ≤ c ∧ c ≤ 'F')

/-- The bytes of a cache that its writer has left behind; none while it holds the lease. -/
def pauseReady (d : Disk) (synced : Bool) (name : String) : Disk × Except Error (Option Nat) :=
  if !validName name then (d, .error .storage)
  else match d.partials.get name with
    | none => (d, .ok (some 0))
    | some file =>
      if file.leased then (d, .ok none)
      else if synced then ({ d with partials := d.partials.set { file with synced := file.bytes } }, .ok (some file.bytes))
      else (d, .error .storage)

def Consumer.accept (v : Consumer) (c : Command) (other : Bool) (durable : Option Nat) : Consumer :=
  { v with
    revision := v.revision + 1
    paused := c.pause
    checkpointBytes := durable.or v.checkpointBytes
    controls := v.controls ++ [⟨c.id, c.pause, v.revision, c.ownerRevision, !c.pause || other || durable.isSome⟩] }

/-- One consumer of a control: its new row and whether the command is confirmed for it. -/
def Transfers.controlOne (c : Command) (index : Nat) (d : Disk) (v : Consumer) :
    Disk × Except Error (Consumer × Bool) :=
  match v.control c.id with
  | some original => (d, if c.repeats v.key original then .ok (v, original.confirmed) else .error .conflict)
  | none =>
    if !c.revisions.contains (v.key, v.revision) then (d, .error .conflict)
    else if 128 ≤ v.controls.length then (d, .error .capacity)
    else if 2 ^ 64 ≤ v.revision + 1 then (d, .error .capacity)
    else
      let other := s.shared c.task v.cache
      let accepted (durable : Option Nat) : Except Error (Consumer × Bool) :=
        .ok (v.accept c other durable, !c.pause || other || durable.isSome)
      if c.pause && !other then
        match pauseReady d (io (.sync index)) v.cache with
        | (d, .error e) => (d, .error e)
        | (d, .ok none) => (d, accepted none)
        | (d, .ok (some bytes)) =>
          (d, if v.total.any fun total => decide (total < bytes) then .error .untrusted else accepted (some bytes))
      else (d, accepted none)

/-- The rows of a control are written in one transaction. -/
def Transfers.controlEach (c : Command) : List Consumer → Nat → Disk → Disk × Except Error (List Consumer × Bool)
  | [], _, d => (d, .ok ([], true))
  | v :: rest, index, d =>
    match s.controlOne io c index d v with
    | (d, .error e) => (d, .error e)
    | (d, .ok (value, confirmed)) =>
      if io (.write index) then
        match controlEach c rest (index + 1) d with
        | (d, .error e) => (d, .error e)
        | (d, .ok (values, others)) => (d, .ok (value :: values, confirmed && others))
      else (d, .error .storage)

def Transfers.putAll (values : List Consumer) : Transfers :=
  { s with stored := s.stored.setAll values, consumers := s.consumers.setAll values }

def Transfers.recorded (c : Command) : List Consumer :=
  (s.selected c.task c.attempt).filter fun v => (v.control c.id).isSome

def Transfers.control (d : Disk) (c : Command) : Transfers × Disk × Except Error Bool :=
  let selected := s.selected c.task c.attempt
  if 0 < (s.recorded c).length then
    (s, d, if (s.recorded c).length ≠ selected.length ∨ c.revisions.length ≠ selected.length then .error .conflict
      else c.replay selected)
  else if selected = [] ∨ c.revisions.length ≠ selected.length ∨
      (selected.any fun v => !v.resumable || v.cancelled) = true then (s, d, .error .unsupported)
  else if !io .begin then (s, d, .error .storage)
  else match s.controlEach io c selected 0 d with
    | (d, .error e) => (s, d, .error e)
    | (d, .ok (values, confirmed)) =>
      if io .commit then (s.putAll values, d, .ok confirmed) else (s, d, .error .storage)

def Control.confirm (c : Control) : Control := if c.pause then { c with confirmed := true } else c

def Consumer.settle (v : Consumer) (bytes : Nat) (complete : Bool) : Consumer :=
  { v with
    completedBytes := if complete then some bytes else v.completedBytes
    checkpointBytes := if complete then v.checkpointBytes else some bytes
    controls := v.controls.map Control.confirm }

def Transfers.publish (cache : String) (bytes : Nat) (stage : Stage) : Transfers × Except Error Unit :=
  let t := { s with latest := s.latest.set ⟨cache, bytes, stage⟩ }
  if stage = .paused ∨ stage = .complete then
    t.saveAll io ((t.those fun v => decide (v.cache = cache)).map (·.settle bytes (decide (stage = .complete)))) 0
  else (t, .ok ())

def Consumer.cancel (v : Consumer) : Consumer := { v with cancelled := true }

def Consumer.retire (v : Consumer) : Consumer := { v with retired := true, cancelled := true }

def Transfers.detach (task attempt : Uuid) : Transfers × Except Error Unit :=
  s.saveAll io ((s.selected task attempt).map Consumer.cancel) 0

def Transfers.release (task : Uuid) : Transfers × Except Error Unit :=
  s.saveAll io ((s.those fun v => decide (v.task = task)).map Consumer.retire) 0

def updateAll (rows : Rows Consumer.identity) (values : List Consumer) : Rows Consumer.identity :=
  rows.setAll (values.filter fun v => rows.has v.identity)

def Transfers.retireAttempt (task attempt : Uuid) : List Consumer :=
  (s.selected task attempt).map Consumer.retire

def Transfers.committed (values : List Consumer) : Transfers :=
  { s with stored := updateAll s.stored values, consumers := s.consumers.setAll values }

def Transfers.receipt (task attempt : Uuid) (id : String) : Option Bool :=
  let values := s.selected task attempt
  if values.isEmpty || values.any fun v => (v.control id).isNone then none
  else some (values.all fun v => v.controls.any fun c => decide (c.id = id) && c.confirmed)

def Transfers.opened (limit : Nat) (current : Uuid → Option Uuid) : Transfers × Except Error Unit :=
  if limit < s.stored.entries.length then (s, .error .capacity)
  else
    let loaded : Transfers := ⟨s.stored, s.stored, .empty, limit⟩
    let orphans := (loaded.those fun v => !v.retired && decide (current v.task ≠ some v.attempt)).map Consumer.retire
    if io .commit then (loaded.committed orphans, .ok ()) else (loaded, .error .storage)

end Calls

/-- Where the one preparing client is with the file of a cache. -/
inductive Writer where
  | idle
  | holding (name : String)
  | stopped (name : String) (bytes : Nat)
  | finished (name : String) (bytes : Nat)
  deriving DecidableEq

structure System where
  transfers : Transfers
  disk : Disk
  writer : Writer
  deriving DecidableEq

inductive Call where
  | attach (identity : Identity) (cache : String) (total : Option Nat) (resumable : Bool)
  | control (c : Command)
  | detach (task attempt : Uuid)
  | release (task : Uuid)
  | retire (task attempt : Uuid)
  | reopen (limit : Nat) (current : Uuid → Option Uuid)
  | lease (name : String)
  | append (bytes : Nat)
  | truncate
  | observe (name : String) (bytes : Nat) (stage : Stage)
  | stop
  | finish
  | cached (name : String) (bytes : Nat)
  | paused
  | complete
  | abandon

section Files
variable (s : System)

def System.held : Option Partial :=
  match s.writer with
  | .holding name => s.disk.partials.get name
  | _ => none

def System.write (file : Partial) : System :=
  { s with disk := { s.disk with partials := s.disk.partials.set file } }

def Partial.unleased (file : Partial) : Partial := { file with leased := false }

def System.lease (name : String) : System × Except Error Bool :=
  if s.writer ≠ .idle then (s, .error .storage)
  else match s.disk.partials.get name with
    | none => ({ s.write ⟨name, 0, 0, true⟩ with writer := .holding name }, .ok true)
    | some file =>
      if file.leased then (s, .error .storage)
      else ({ s.write { file with leased := true } with writer := .holding name }, .ok true)

def System.edit (change : Partial → Partial) : System × Except Error Bool :=
  match s.held with
  | some file => (s.write (change file), .ok true)
  | none => (s, .error .storage)

/-- The writer synchronises the partial file and gives its lease back. -/
def System.stop (io : Access → Bool) : System × Except Error Bool :=
  match s.held with
  | some file =>
    if io .commit then
      ({ s.write { file with synced := file.bytes, leased := false } with writer := .stopped file.name file.bytes }, .ok true)
    else (s, .error .storage)
  | none => (s, .error .storage)

/-- The verified file takes its place in the cache, after a synchronisation. -/
def System.finish (io : Access → Bool) : System × Except Error Bool :=
  match s.held with
  | some file =>
    if io .commit then
      ({ s with
        disk := ⟨s.disk.partials.retain fun other => decide (other.name ≠ file.name), file.name :: s.disk.blobs⟩
        writer := .finished file.name file.bytes }, .ok true)
    else (s, .error .storage)
  | none => (s, .error .storage)

def System.abandon : System :=
  match s.held with
  | some file => { s.write file.unleased with writer := .idle }
  | none => { s with writer := .idle }

end Files

section Perform

def System.call (s : System) (r : Transfers × Except Error Unit) : System × Except Error Bool :=
  ({ s with transfers := r.1 }, r.2.map fun _ => true)

/-- What one call does to the system, and its reply. -/
def System.perform (s : System) (io : Access → Bool) : Call → System × Except Error Bool
  | .attach identity cache total resumable => s.call (s.transfers.attach io identity cache total resumable)
  | .control c =>
    let r := s.transfers.control io s.disk c
    ({ s with transfers := r.1, disk := r.2.1 }, r.2.2)
  | .detach task attempt => s.call (s.transfers.detach io task attempt)
  | .release task => s.call (s.transfers.release io task)
  | .retire task attempt =>
    if io .commit then ({ s with transfers := s.transfers.committed (s.transfers.retireAttempt task attempt) }, .ok true)
    else (s, .error .storage)
  | .reopen limit current =>
    ({ s.call (s.transfers.opened io limit current) with
      1.disk := { s.disk with partials := s.disk.partials.revise Partial.unleased fun _ => rfl }
      1.writer := .idle })
  | .lease name => s.lease name
  | .append bytes => s.edit fun file => { file with bytes := file.bytes + bytes }
  | .truncate => s.edit fun file => { file with bytes := 0, synced := 0 }
  | .observe name bytes stage =>
    if stage = .paused ∨ stage = .complete then (s, .error .storage)
    else s.call (s.transfers.publish io name bytes stage)
  | .stop => s.stop io
  | .finish => s.finish io
  | .cached name bytes =>
    if s.writer = .idle ∧ name ∈ s.disk.blobs then ({ s with writer := .finished name bytes }, .ok true)
    else (s, .error .storage)
  | .paused =>
    match s.writer with
    | .stopped name bytes => { s with writer := .idle }.call (s.transfers.publish io name bytes .paused)
    | _ => (s, .error .storage)
  | .complete =>
    match s.writer with
    | .finished name bytes => { s with writer := .idle }.call (s.transfers.publish io name bytes .complete)
    | _ => (s, .error .storage)
  | .abandon => (s.abandon, .ok true)

end Perform

structure Act where
  before : System
  call : Call
  io : Access → Bool

def Act.after (a : Act) : System := (a.before.perform a.io a.call).1

def Act.reply (a : Act) : Except Error Bool := (a.before.perform a.io a.call).2

def Step (s : System) (a : Act) (t : System) : Prop := a.before = s ∧ a.after = t

def System.start (limit : Nat) : System := ⟨⟨.empty, .empty, .empty, limit⟩, ⟨.empty, []⟩, .idle⟩

end RssMdmAgent.ContentTransfers
