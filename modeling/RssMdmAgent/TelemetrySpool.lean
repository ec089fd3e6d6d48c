import RssMdmAgent.TelemetryGaps

set_option autoImplicit false

/-! # The bounded telemetry spool: samples, immutable batches and their loss evidence -/

namespace RssMdmAgent.TelemetrySpool
open OrderedRows Tally TelemetryGaps

inductive Scalar where
  | array (items : List Scalar)
  | object (values : List (String × Scalar))
  | plain (text : String)

inductive TelemetryReading where
  | valid (value : Scalar) (intervalStart : Option Int)
  | missing (context : Option Scalar) (intervalStart : Option Int)
  | failed (context : Option Scalar)

structure TelemetryObservation where
  id : Uuid
  sequence : Nat
  observedAt : Int
  values : List (String × TelemetryReading)

structure TimeSeriesBinding where
  maxResources : Nat
  deriving DecidableEq

structure FieldDefinition where
  key : String
  itemKey : Option String
  timeSeries : Option TimeSeriesBinding
  deriving DecidableEq

/-- What the spool reads of a configuration. -/
structure TelemetryConfiguration where
  policy : Uuid
  policyVersion : Uuid
  owner : Owner
  binding : String
  issuedAt : Int
  expiresAt : Int
  backfillSeconds : Nat
  maxBytes : Nat
  maxPoints : Nat
  maxResources : Nat
  fields : List FieldDefinition
  deriving DecidableEq

structure SignedTelemetryConfiguration where
  configuration : TelemetryConfiguration
  keyId : String
  signature : String
  deriving DecidableEq

structure TelemetryUpload where
  batchId : Uuid
  configuration : SignedTelemetryConfiguration
  observations : List TelemetryObservation

structure TelemetryReceipt where
  batchId : Uuid
  receivedAt : Int
  delivery : String
  deriving DecidableEq

/-- What the spool uses of the wire crate beyond its loss reports: validation and encodings. Encoded
values that were verified or validated are read back as they were. -/
class UploadWire extends GapWire where
  verified : SignedTelemetryConfiguration → Bool
  validateUpload : TelemetryUpload → Bool
  encodeSigned : SignedTelemetryConfiguration → Bytes
  decodeSigned : Bytes → Option SignedTelemetryConfiguration
  decodeSigned_encode : ∀ signed, verified signed = true → decodeSigned (encodeSigned signed) = some signed
  encodeUpload : TelemetryUpload → Bytes
  decodeUpload : Bytes → Option TelemetryUpload
  decodeUpload_encode : ∀ upload, validateUpload upload = true → decodeUpload (encodeUpload upload) = some upload
  encodeObservation : TelemetryObservation → Bytes
  decodeObservation : Bytes → Option TelemetryObservation
  decodeObservation_encode : ∀ upload, validateUpload upload = true → ∀ o ∈ upload.observations,
    decodeObservation (encodeObservation o) = some o
  encodeScalar : Scalar → Bytes
  encodeReceipt : TelemetryReceipt → Bytes

open UploadWire

structure Limits where
  bytes : Nat
  observations : Nat
  deriving DecidableEq, Repr

structure ConfigurationRow where
  policy : Uuid
  body : Bytes
  deriving DecidableEq

structure SampleRow where
  id : Uuid
  policy : Uuid
  owner : Owner
  binding : String
  body : Bytes
  observed : Int
  expires : Int
  deriving DecidableEq

structure BatchRow where
  id : Uuid
  owner : Owner
  body : Bytes
  digest : String
  count : Nat
  first : Int
  last : Int
  expires : Int
  attempts : Nat
  due : Int
  deriving DecidableEq

/-- The tables of the spool. One counter numbers all observations. -/
structure Spool where
  limits : Limits
  configurations : Rows ConfigurationRow.policy
  next : Nat
  samples : Rows SampleRow.id
  batches : Rows BatchRow.id
  losses : GapStore
  receipt : Option Bytes
  deriving DecidableEq

def Spool.empty (limits : Limits) : Spool := ⟨limits, .empty, 0, .empty, .empty, .empty, none⟩

/-- A batch read for sending. -/
structure Pending where
  id : Uuid
  owner : Owner
  body : Bytes
  attempts : Nat
  count : Nat
  first : Int
  last : Int
  deriving DecidableEq

def Spool.usedObservations (s : Spool) : Nat :=
  s.samples.entries.length + (s.batches.entries.map BatchRow.count).sum

def Spool.usedBytes (s : Spool) : Nat :=
  (s.samples.entries.map fun row => row.body.length).sum + (s.batches.entries.map fun row => row.body.length).sum

section Budget
variable [UploadWire]

/-- The items of a reading that count as points of a field. -/
def TelemetryReading.items : Option TelemetryReading → Except Error (List (Option Scalar))
  | none => .error .protocol
  | some reading =>
    let value := match reading with
      | .valid value _ => some value
      | .missing context _ => context
      | .failed context => context
    match value with
    | some (.array items) => .ok (items.map some)
    | value => .ok [value]

/-- The identity of the resource that an item describes. -/
def FieldDefinition.identity (f : FieldDefinition) (item : Option Scalar) : Except Error Bytes :=
  match f.itemKey with
  | none => .ok ("device".toUTF8.toList)
  | some key =>
    match item with
    | some (.object values) =>
      match values.find? (·.1 = key) with
      | some entry => .ok (encodeScalar entry.2)
      | none => .error .protocol
    | _ => .error .protocol

structure Usage where
  resources : List (String × Bytes)
  points : Nat

def Usage.add (usage : Usage) (resource : String × Bytes) : Usage :=
  ⟨if usage.resources.contains resource then usage.resources else resource :: usage.resources, usage.points + 1⟩

/-- One item, unless its resource repeats within the reading; `none` is an exceeded budget. -/
def countItem (c : TelemetryConfiguration) (f : FieldDefinition) (state : Usage × List Bytes)
    (item : Option Scalar) : Except Error (Option (Usage × List Bytes)) := do
  let identity ← f.identity item
  if state.2.contains identity then throw .protocol
  let usage := state.1.add (f.key, identity)
  if c.maxResources < usage.resources.length ∨ c.maxPoints < usage.points then return none
  return some (usage, identity :: state.2)

/-- A fold that stops at the first failure or exceeded budget. -/
def stopping {α β : Type} (f : β → α → Except Error (Option β)) : List α → β → Except Error (Option β)
  | [], state => .ok (some state)
  | item :: rest, state =>
    match f state item with
    | .error e => .error e
    | .ok none => .ok none
    | .ok (some state) => stopping f rest state

def countField (c : TelemetryConfiguration) (o : TelemetryObservation) (usage : Usage)
    (f : FieldDefinition) : Except Error (Option Usage) :=
  match f.timeSeries with
  | none => .ok (some usage)
  | some binding =>
    match TelemetryReading.items ((o.values.find? (·.1 = f.key)).map (·.2)) with
    | .error e => .error e
    | .ok items =>
      if binding.maxResources < items.length then .ok none
      else (stopping (countItem c f) items (usage, [])).map fun result => result.map (·.1)

def countObservation (c : TelemetryConfiguration) (usage : Usage) (o : TelemetryObservation) :
    Except Error (Option Usage) :=
  stopping (countField c o) c.fields usage

def withinBudget (c : TelemetryConfiguration) (observations : List TelemetryObservation) :
    Except Error Bool :=
  (stopping (countObservation c) observations ⟨[], 0⟩).map Option.isSome

end Budget

section Evidence

abbrev Piece := Owner × Span

def SampleRow.piece (row : SampleRow) : Piece := (row.owner, ⟨1, row.observed, row.observed⟩)

def BatchRow.piece (row : BatchRow) : Piece := (row.owner, ⟨row.count, row.first, row.last⟩)

def Owner.before (a b : Owner) : Bool :=
  decide (a.registration < b.registration ∨ (a.registration = b.registration ∧ a.generation ≤ b.generation))

def spanOf : List Span → Span
  | [] => ⟨0, 0, 0⟩
  | [span] => span
  | span :: rest =>
    let later := spanOf rest
    ⟨span.count + later.count, min span.first later.first, max span.last later.last⟩

def grouped (pieces : List Piece) : List Piece :=
  ((pieces.map (·.1)).dedup.insertionSort fun a b => Owner.before a b = true).map fun owner =>
    (owner, spanOf ((pieces.filter (·.1 = owner)).map (·.2)))

def recordAll [GapWire] (reason : GapWire.Reason) (pieces : List Piece) (losses : GapStore) : Except Error GapStore :=
  pieces.foldlM (fun losses piece => losses.record piece.1 reason piece.2) losses

end Evidence

section Eviction
variable [UploadWire]

def Spool.loseSamples (s : Spool) (gone : SampleRow → Bool) (reason : GapWire.Reason) : Except Error Spool := do
  let losses ← recordAll reason (grouped ((s.samples.select gone).map SampleRow.piece)) s.losses
  return { s with losses, samples := s.samples.retain fun row => !gone row }

def Spool.loseBatches (s : Spool) (gone : BatchRow → Bool) (reason : GapWire.Reason) : Except Error Spool := do
  let losses ← recordAll reason (grouped ((s.batches.select gone).map BatchRow.piece)) s.losses
  return { s with losses, batches := s.batches.retain fun row => !gone row }

def Spool.prune (s : Spool) (now : Int) (owner : Owner) : Except Error Spool := do
  if maxI64 < owner.generation then throw .storage
  let s ← s.loseSamples (fun row => decide (row.owner ≠ owner)) GapWire.registration
  let s ← s.loseSamples (fun row => decide (row.expires ≤ now)) GapWire.expired
  let s ← s.loseBatches (fun row => decide (row.owner ≠ owner)) GapWire.registration
  s.loseBatches (fun row => decide (row.expires ≤ now)) GapWire.expired

def SampleRow.before (a b : SampleRow) : Bool :=
  decide (a.observed < b.observed ∨ (a.observed = b.observed ∧ a.id ≤ b.id))

def BatchRow.before (a b : BatchRow) : Bool :=
  decide (a.first < b.first ∨ (a.first = b.first ∧ a.id ≤ b.id))

def Spool.oldestSample (s : Spool) : Option SampleRow :=
  (s.samples.entries.insertionSort fun a b => SampleRow.before a b = true).head?

def Spool.oldestBatch (s : Spool) : Option BatchRow :=
  (s.batches.entries.insertionSort fun a b => BatchRow.before a b = true).head?

def Spool.evictSample (s : Spool) (row : SampleRow) : Except Error Spool := do
  let losses ← s.losses.record row.owner GapWire.capacity row.piece.2
  return { s with losses, samples := s.samples.retain fun other => decide (other.id ≠ row.id) }

def Spool.evictBatch (s : Spool) (row : BatchRow) : Except Error Spool := do
  let losses ← s.losses.record row.owner GapWire.capacity row.piece.2
  return { s with losses, batches := s.batches.retain fun other => decide (other.id ≠ row.id) }

def Spool.evictOldest (s : Spool) : Except Error Spool :=
  match s.oldestSample, s.oldestBatch with
  | some sample, none => s.evictSample sample
  | some sample, some batch => if sample.observed ≤ batch.first then s.evictSample sample else s.evictBatch batch
  | none, some batch => s.evictBatch batch
  | none, none => .error .capacity

def Spool.fits (s : Spool) (extra observations : Nat) : Bool :=
  decide (s.usedObservations + observations ≤ s.limits.observations ∧ s.usedBytes + extra ≤ s.limits.bytes)

/-- The loop of `room`; every round deletes a row, so as many rounds as rows are enough. -/
def Spool.makeRoom (extra observations : Nat) : Nat → Spool → Except Error Spool
  | 0, s => if s.fits extra observations then .ok s else .error .capacity
  | rounds + 1, s =>
    if s.fits extra observations then .ok s
    else do
      let s ← s.evictOldest
      s.makeRoom extra observations rounds

def Spool.room (s : Spool) (extra observations : Nat) : Except Error Spool :=
  if s.limits.bytes < extra ∨ s.limits.observations < observations then .error .capacity
  else s.makeRoom extra observations (s.samples.entries.length + s.batches.entries.length)

end Eviction

section Calls
variable [UploadWire]

structure Configuration where
  signed : SignedTelemetryConfiguration
  authentic : verified signed = true

def Configuration.payload (c : Configuration) : TelemetryConfiguration := c.signed.configuration

/-- The transaction of `append` after pruning, with the readings that counter normalization gives
or its failure. -/
def Spool.store (s : Spool) (c : Configuration) (at' : Int) (normalized : Except Error (List (String × TelemetryReading)))
    (id batchId : Uuid) : Except Error Spool := do
  let values ← normalized
  let observation : TelemetryObservation := ⟨id, s.next, at', values⟩
  let upload : TelemetryUpload := ⟨batchId, c.signed, [observation]⟩
  if ¬ validateUpload upload then throw .protocol
  let within ← withinBudget c.payload upload.observations
  if ¬ within ∨ c.payload.maxBytes < (encodeUpload upload).length then throw .capacity
  let body := encodeObservation observation
  let s ← s.room body.length 1
  if maxI64 < s.next + 1 then throw .capacity
  if maxI64 < c.payload.owner.generation then throw .storage
  if s.samples.has id then throw .storage
  return { s with
    next := s.next + 1
    samples := s.samples.set ⟨id, c.payload.policy, c.payload.owner, c.payload.binding, body, at',
      at'.tdiv 1000000 + c.payload.backfillSeconds⟩ }

/-- Pruning is its own transaction and stays when the rest fails. -/
def Spool.append (s : Spool) (c : Configuration) (at' : Int)
    (normalized : Except Error (List (String × TelemetryReading))) (id batchId : Uuid) :
    Spool × Except Error Uuid :=
  if at' < 0 ∨ c.payload.expiresAt ≤ at'.tdiv 1000000 ∨ at'.tdiv 1000000 < c.payload.issuedAt then
    (s, .error .expired)
  else match s.prune (at'.tdiv 1000000) c.payload.owner with
    | .error e => (s, .error e)
    | .ok s =>
      match s.store c at' normalized id batchId with
      | .error e => (s, .error e)
      | .ok t => (t, .ok id)

def Spool.queue (s : Spool) (binding : String) : List SampleRow :=
  (s.samples.select fun row => decide (row.binding = binding)).insertionSort
    fun a b => SampleRow.before a b = true

/-- The longest prefix of the rows that fits a batch, with the earliest expiry. -/
def gather (c : SignedTelemetryConfiguration) (batchId : Uuid) :
    List SampleRow → List TelemetryObservation → Int → Except Error (List TelemetryObservation × Int)
  | [], taken, expires => .ok (taken, expires)
  | row :: rest, taken, expires =>
    match decodeObservation row.body with
    | none => .error .protocol
    | some observation =>
      let batch := taken ++ [observation]
      match withinBudget c.configuration batch with
      | .error e => .error e
      | .ok within =>
        if ¬ within ∨ c.configuration.maxBytes < (encodeUpload ⟨batchId, c, batch⟩).length then
          .ok (taken, expires)
        else gather c batchId rest batch (min expires row.expires)

def BatchRow.of (upload : TelemetryUpload) (expires : Int) : BatchRow :=
  let body := encodeUpload upload
  ⟨upload.batchId, upload.configuration.configuration.owner, body, GapWire.hash body, upload.observations.length,
    (upload.observations.head?.map (·.observedAt)).getD 0, (upload.observations.getLast?.map (·.observedAt)).getD 0,
    expires, 0, 0⟩

def Spool.freeze (s : Spool) (c : SignedTelemetryConfiguration) (batchId : Uuid) : Except Error Spool := do
  let rows := (s.queue c.configuration.binding).take (min c.configuration.maxPoints 4096)
  let (observations, expires) ← gather c batchId rows [] maxI64
  if observations.isEmpty then return s
  let batch : TelemetryUpload := ⟨batchId, c, observations⟩
  if ¬ validateUpload batch then throw .protocol
  let row := BatchRow.of batch expires
  let members := observations.map (·.id)
  let s := { s with samples := s.samples.retain fun sample => !members.contains sample.id }
  let s ← s.room row.body.length observations.length
  if maxI64 < c.configuration.owner.generation then throw .storage
  if s.batches.has batchId then throw .storage
  return { s with batches := s.batches.set row }

def Spool.queued (s : Spool) (binding : String) : Nat :=
  (s.samples.select fun row => decide (row.binding = binding)).length

/-- The loop of `freeze_all`. Every round that goes on leaves fewer samples, so as many rounds as
samples are enough; the batches frozen before a failure stay. -/
def Spool.drain (c : SignedTelemetryConfiguration) (ids : Nat → Uuid) : Nat → Nat → Spool → Spool × Except Error Unit
  | rounds, used, s =>
    let count := s.queued c.configuration.binding
    if count = 0 then (s, .ok ())
    else match rounds with
      | 0 => (s, .error .capacity)
      | rounds + 1 =>
        match s.freeze c (ids used) with
        | .error e => (s, .error e)
        | .ok t =>
          if count ≤ t.queued c.configuration.binding then (t, .error .capacity)
          else Spool.drain c ids rounds (used + 1) t

def Spool.freezeAll (s : Spool) (c : SignedTelemetryConfiguration) (ids : Nat → Uuid) : Spool × Except Error Unit :=
  s.drain c ids (s.queued c.configuration.binding) 0

def Spool.configurationBytes (s : Spool) (policy : Uuid) : Nat :=
  ((s.configurations.select fun row => decide (row.policy ≠ policy)).map fun row => row.body.length).sum

def Spool.keepConfiguration (s : Spool) (c : Configuration) : Except Error Spool :=
  let body := encodeSigned c.signed
  if 256 ≤ (s.configurations.select fun row => decide (row.policy ≠ c.payload.policy)).length then .error .capacity
  else if 4 * 1024 * 1024 < s.configurationBytes c.payload.policy + body.length then .error .capacity
  else .ok { s with configurations := s.configurations.set ⟨c.payload.policy, body⟩ }

def Spool.install (s : Spool) (c : Configuration) (ids : Nat → Uuid) : Spool × Except Error Unit :=
  let keep (s : Spool) := match s.keepConfiguration c with
    | .ok t => (t, .ok ())
    | .error e => (s, .error e)
  match s.configurations.get c.payload.policy with
  | none => keep s
  | some row =>
    match decodeSigned row.body with
    | none => (s, .error .protocol)
    | some old =>
      if c.payload.issuedAt < old.configuration.issuedAt then (s, .error .untrusted)
      else if old.configuration.binding ≠ c.payload.binding then
        match s.freezeAll old ids with
        | (t, .error e) => (t, .error e)
        | (t, .ok ()) => keep t
      else keep s

structure Assignment where
  policy : Uuid
  version : Uuid
  supported : Bool
  deriving DecidableEq

/-- The configurations that the directory still assigns stay. -/
def Spool.retainConfigurations (s : Spool) (directory : List Assignment) : Except Error Spool :=
  if s.configurations.entries.any fun row => (decodeSigned row.body).isNone then .error .protocol
  else .ok { s with configurations := s.configurations.retain fun row =>
    match decodeSigned row.body with
    | none => false
    | some signed => directory.any fun a =>
      a.supported && decide (a.policy = row.policy ∧ a.version = signed.configuration.policyVersion) }

def BatchRow.pending (row : BatchRow) : Pending :=
  ⟨row.id, row.owner, row.body, row.attempts, row.count, row.first, row.last⟩

/-- The oldest or newest batch that is due. -/
def Spool.pending (s : Spool) (now : Int) (newest : Bool) : Except Error (Option Pending) :=
  let due := (s.batches.select fun row => decide (row.due ≤ now)).insertionSort
    fun a b => (if newest then BatchRow.before b a else BatchRow.before a b) = true
  match due.head? with
  | none => .ok none
  | some row =>
    if s.limits.bytes < row.body.length ∨ GapWire.hash row.body ≠ row.digest then .error .storage
    else .ok (some row.pending)

def Pending.mark (p : Pending) (attempts : Nat → Nat) (due : Int) (row : BatchRow) : BatchRow :=
  if row.id = p.id then { row with attempts := attempts row.attempts, due := due } else row

omit [UploadWire] in
theorem Pending.mark_id (p : Pending) (attempts : Nat → Nat) (due : Int) (row : BatchRow) :
    (p.mark attempts due row).id = row.id := by
  unfold Pending.mark
  split <;> rfl

def Spool.touch (s : Spool) (p : Pending) (attempts : Nat → Nat) (due : Int) : Spool :=
  { s with batches := s.batches.revise (p.mark attempts due) (p.mark_id attempts due) }

def Spool.attempting (s : Spool) (p : Pending) (now : Int) : Spool :=
  s.touch p (fun attempts => min (attempts + 1) 31) (saturatingTime (now + 2))

def Spool.retry (s : Spool) (p : Pending) (now : Int) (delay : Option Nat) : Spool :=
  s.touch p id (saturatingTime (now + backoff p.attempts p.id delay))

def Spool.delete (s : Spool) (p : Pending) : Spool :=
  { s with batches := s.batches.retain fun row => decide (row.id ≠ p.id) }

def Spool.acknowledge (s : Spool) (p : Pending) (r : TelemetryReceipt) : Except Error Spool :=
  if r.batchId ≠ p.id ∨ r.receivedAt < 0 then .error .protocol
  else .ok ({ s with receipt := some (encodeReceipt r) }.delete p)

def Spool.reject (s : Spool) (p : Pending) (reason : GapWire.Reason) : Except Error Spool := do
  let losses ← s.losses.record p.owner reason ⟨p.count, p.first, p.last⟩
  return { s with losses }.delete p

def Spool.signedConfigurations (s : Spool) : Except Error (List SignedTelemetryConfiguration) :=
  if 256 < s.configurations.entries.length then .error .capacity
  else (s.configurations.entries.insertionSort fun a b => a.policy ≤ b.policy).mapM fun row =>
    match decodeSigned row.body with
    | some signed => .ok signed
    | none => .error .protocol

def Spool.drainEach (ids : Nat → Nat → Uuid) : List SignedTelemetryConfiguration → Nat → Spool → Spool × Except Error Unit
  | [], _, s => (s, .ok ())
  | signed :: rest, turn, s =>
    match s.freezeAll signed (ids turn) with
    | (t, .error e) => (t, .error e)
    | (t, .ok ()) => Spool.drainEach ids rest (turn + 1) t

def Spool.reopen (s : Spool) (ids : Nat → Nat → Uuid) : Spool × Except Error Unit :=
  match s.signedConfigurations with
  | .error e => (s, .error e)
  | .ok list => Spool.drainEach ids list 0 s

end Calls

end RssMdmAgent.TelemetrySpool
