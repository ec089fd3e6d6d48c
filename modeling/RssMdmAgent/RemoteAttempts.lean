import RssMdmAgent.ClientStore

set_option autoImplicit false

/-! # Remote attempts: receptions, starts, associations and frozen results -/

namespace RssMdmAgent.RemoteAttempts
open OrderedRows ClientStore
open ContentTransfers (Uuid Error Transfers validName)

/-- What the wire crate tells of results, and the digest of an encoded event. -/
class ResultWire extends TaskWire where
  outputChunkBytes : Nat
  requiresInline : TaskPayload → Bool
  /-- A collection result answers the plan of its task. -/
  validateFor : (body : String) → TaskPayload → Int → Except Error Unit
  newManifest : List UInt8 → Except Error OutputManifest
  newChunk : OutputManifest → Nat → List UInt8 → Except Error OutputChunk
  /-- The encoded output of a result. -/
  output : (body : String) → List UInt8
  /-- The reference to the output of a result, its manifest and its chunks. -/
  split : (body : String) → Except Error (String × OutputManifest × List OutputChunk)
  count : OutputManifest → Nat
  /-- A report of device access fits its task. -/
  validateReport : TaskPayload → (body : String) → Except Error Unit
  reportEnds : TaskPayload → (body : String) → Bool
  hash : TaskEvent → String

structure Start where
  signed : SignedTask
  deriving DecidableEq

/-- A persisted result request with its source events. -/
structure FrozenResult where
  owner : Uuid
  association : Binding
  key : RequestKey
  request : TaskEventRequest
  events : List String
  deriving DecidableEq

/-- A result that the server acknowledged. -/
structure ResultAck where
  owner : Uuid
  association : Binding
  projection : String
  result : Option FrozenResult
  deriving DecidableEq

structure FrozenAbandonment where
  owner : Uuid
  task : Uuid
  attempt : Uuid
  request : TaskEventRequest
  deriving DecidableEq

structure AbandonmentAck where
  pending : FrozenAbandonment
  deriving DecidableEq

structure TaskEventAck where
  permit : Option SignedTask
  cancelRequested : Bool
  deriving DecidableEq

/-- Storage accesses of one call. Repeated reads are told apart by their place in the call. -/
inductive Touch where
  | offer (place : Nat) | binding (place : Nat) | source (place : Nat) | projection (place : Nat) | result (place : Nat)
  | request (key : RequestKey) | count (key : RequestKey) | insert (key : RequestKey) | accept (key : RequestKey)
  | verify (place : Nat) (access : Access)
  | chunks | begin | project | commit | putBinding | deleteChunks | deleteResult | pending | putTerminal | trim | release
  | releaseTransfers (access : ContentTransfers.Access)
  deriving DecidableEq

/-- What one call reads beside the store, and the answers that it gets. -/
structure Exchange where
  owner : Uuid
  active : Except Error Unit
  now : Except Error Int
  /-- Before and after the answer of the server. -/
  session : Nat → Session
  executionContext : Except Error String
  operation : RequestKey → Uuid
  reply : RequestKey → Except Error TaskEventAck
  io : Touch → Bool

def Exchange.touch (x : Exchange) (access : Touch) : Except Error Unit :=
  if x.io access then .ok () else .error .storage

section Reads
variable [ResultWire] (cfg : Config) (s : Store) (x : Exchange)

def verifyAt (place : Nat) (signed : SignedTask) (permit : TaskPermit) : Except Error Unit :=
  s.verify cfg (fun access => x.io (.verify place access)) (x.session place) signed permit

def storedOffer (place : Nat) (task : Uuid) : Except Error SignedTask := do
  x.touch (.offer place)
  match s.tasks.get task with
  | none => .error .storage
  | some row => if row.body.payload.taskId ≠ task then .error .storage else .ok row.body

def association (place : Nat) (task : Uuid) : Except Error (Option Binding) := do
  x.touch (.binding place)
  return s.bindings.get task

def checkAssociation (place : Nat) (b : Binding) : Except Error Unit := do
  let current ← association s x place b.task
  if current ≠ some b then .error .conflict
  else
    let offer ← storedOffer s x place b.task
    if offer.payload.attemptId ≠ b.attempt then .error .conflict else .ok ()

def sourceRow (task : Uuid) : Option RequestRow :=
  s.requests.entries.find? fun row => decide (row.task = task) && row.source.isSome

/-- Recover the frozen request after an interruption. -/
def pendingResult (place : Nat) (b : Binding) : Except Error (Option FrozenResult) := do
  checkAssociation s x place b
  x.touch (.source place)
  match sourceRow s b.task with
  | none => .ok none
  | some row =>
    let events := row.source.getD []
    if row.body.attemptId ≠ b.attempt ∨ events = [] then .error .conflict
    else .ok (some ⟨x.owner, b, row.key, row.body, events⟩)

def acknowledgedResult (place : Nat) (b : Binding) : Except Error (Option ResultAck) := do
  checkAssociation s x place b
  x.touch (.projection place)
  match s.projections.get b.task with
  | none => .ok none
  | some row => if validName row.hash then .ok (some ⟨x.owner, b, row.hash, none⟩) else .error .storage

/-- The result is the stored one; true if it is accepted. -/
def checkResult (place : Nat) (f : FrozenResult) : Except Error Bool := do
  if f.owner ≠ x.owner then throw .conflict
  checkAssociation s x place f.association
  x.touch (.result place)
  match s.requests.get f.key with
  | none => .error .storage
  | some row =>
    if row.task ≠ f.association.task then .error .storage
    else match row.source with
      | none => .error .storage
      | some events => if row.body ≠ f.request ∨ events ≠ f.events then .error .conflict else .ok row.accepted

def validateResultAck (place : Nat) (ack : ResultAck) : Except Error Unit := do
  if ack.owner ≠ x.owner then throw .conflict
  checkAssociation s x place ack.association
  x.touch (.projection place)
  if (s.projections.get ack.association.task).map (·.hash) ≠ some ack.projection then throw .conflict
  match ack.result with
  | none => .ok ()
  | some f => if ← checkResult s x (place + 1) f then .ok () else .error .conflict

end Reads

section Writes
variable [ResultWire] (cfg : Config) (s : Store) (x : Exchange)

def acceptRow (key : RequestKey) : Store :=
  match s.requests.get key with
  | none => s
  | some row => { s with requests := s.requests.set { row with accepted := true } }

/-- The frozen request under a key, recovered or inserted. -/
def eventRequest (key : RequestKey) (task attempt : Uuid) (event : TaskEvent) (source : Option (List String)) :
    Except Error (Store × TaskEventRequest) := do
  x.touch (.request key)
  match s.requests.get key with
  | some row => if row.body.attemptId ≠ attempt ∨ row.body.event ≠ event then .error .conflict else .ok (s, row.body)
  | none =>
    x.touch (.count key)
    if cfg.pendingTasks * 70 ≤ s.requests.entries.length then .error .capacity
    else do
      let context ← x.executionContext
      let request : TaskEventRequest := ⟨x.operation key, attempt, event, context⟩
      x.touch (.insert key)
      return ({ s with requests := s.requests.set ⟨key, task, source, request, false⟩ }, request)

/-- The chunks of an output are frozen one after the other, each when it is cut. -/
def freezeChunks (task attempt : Uuid) : List (Except Error OutputChunk) → Store → Store × Except Error Unit
  | [], s => (s, .ok ())
  | .error e :: _, s => (s, .error e)
  | .ok chunk :: rest, s =>
    match eventRequest cfg s x (.chunk task attempt chunk.index) task attempt (.outputChunk chunk) none with
    | .error e => (s, .error e)
    | .ok (t, _) => freezeChunks task attempt rest t

def collectionChunks (bytes : List UInt8) : Except Error (OutputManifest × List (Except Error OutputChunk)) := do
  let manifest ← ResultWire.newManifest bytes
  return (manifest, (bytes.toChunks ResultWire.outputChunkBytes).zipIdx.map fun (part, index) =>
    ResultWire.newChunk manifest index part)

/-- The event that a result is sent as, with the chunks that go before it. -/
def deliveredEvent (task : Uuid) (event : TaskEvent) : Except Error (TaskEvent × List (Except Error OutputChunk)) :=
  match event with
  | .collectionResult body => do
    let bytes := body.toUTF8.toList
    let offer ← storedOffer s x 8 task
    if offer.payload.kind ≠ .collection then throw .protocol
    ResultWire.validateFor body offer.payload (← x.now)
    if ResultWire.outputChunkBytes < bytes.length ∧ ResultWire.requiresInline offer.payload = false then
      let (manifest, chunks) ← collectionChunks bytes
      return (.chunkedCollectionResult manifest, chunks)
    else return (event, [])
  | .result body =>
    if ResultWire.outputChunkBytes < (ResultWire.output body).length then do
      let (reference, manifest, chunks) ← ResultWire.split body
      return (.chunkedResult reference manifest, chunks.map .ok)
    else .ok (event, [])
  | event => .ok (event, [])

def deliveryRequest (key : RequestKey) (task attempt : Uuid) (event : TaskEvent) (source : List String) :
    Store × Except Error TaskEventRequest :=
  match deliveredEvent s x task event with
  | .error e => (s, .error e)
  | .ok (event, chunks) =>
    match freezeChunks cfg x task attempt chunks s with
    | (t, .error e) => (t, .error e)
    | (t, .ok ()) =>
      match eventRequest cfg t x key task attempt event (some source) with
      | .error e => (t, .error e)
      | .ok (u, request) => (u, .ok request)

def RequestKey.isChunk (task attempt : Uuid) : RequestKey → Bool
  | .chunk t a _ => decide (t = task ∧ a = attempt)
  | _ => false

def RequestKey.index : RequestKey → Nat
  | .chunk _ _ index => index
  | _ => 0

def chunkRows (task attempt : Uuid) : List RequestRow :=
  ((s.requests.select fun row => decide (row.task = task) && RequestKey.isChunk task attempt row.key).insertionSort
    fun a b => RequestKey.index a.key ≤ RequestKey.index b.key).take 65

/-- Chunks that are not accepted yet are sent in order. -/
def sendChunks (attempt : Uuid) (manifest : OutputManifest) : List RequestRow → Nat → Store → Store × Except Error Unit
  | [], _, s => (s, .ok ())
  | row :: rest, index, s =>
    match row.body.event with
    | .outputChunk chunk =>
      if chunk.index ≠ index ∨ chunk.manifest ≠ manifest ∨ row.body.attemptId ≠ attempt then (s, .error .storage)
      else if row.accepted then sendChunks attempt manifest rest (index + 1) s
      else match x.reply row.key with
        | .error e => (s, .error e)
        | .ok ack =>
          if ack.permit.isSome then (s, .error .protocol)
          else if x.io (.accept row.key) then sendChunks attempt manifest rest (index + 1) (acceptRow s row.key)
          else (s, .error .storage)
    | _ => (s, .error .storage)

def sendOutputChunks (task : Uuid) (request : TaskEventRequest) : Store × Except Error Unit :=
  let send (manifest : OutputManifest) :=
    if !x.io .chunks then (s, .error .storage)
    else
      let rows := chunkRows s task request.attemptId
      if rows.length ≠ ResultWire.count manifest then (s, .error .storage)
      else sendChunks x request.attemptId manifest rows 0 s
  match request.event with
  | .chunkedResult _ manifest => send manifest
  | .chunkedCollectionResult manifest => send manifest
  | _ => (s, .ok ())

end Writes

section Calls
variable [ResultWire] (cfg : Config) (s : Store) (x : Exchange)

/-- A frozen reception goes on for the stored offer before its deadline; true if it is acknowledged already. -/
def replayReceived (offer : SignedTask) (row : RequestRow) : Except Error Bool := do
  x.active
  let passed := (taskDeadline offer.payload).any fun t => match x.now with
    | .ok now => decide (t ≤ now)
    | .error _ => false
  if passed then .error .expired
  else do
    let stored ← storedOffer s x 0 offer.payload.taskId
    if stored ≠ offer then .error .expired else .ok row.accepted

def receptionDone (offer : SignedTask) : Except Error Bool :=
  match s.requests.get (.received offer.payload.taskId offer.payload.attemptId) with
  | some row => replayReceived s x offer row
  | none => (verifyAt cfg s x 0 offer .offer).map fun _ => false

/-- What a reception does before it sends its request; none if it is acknowledged already. -/
def receivedRequest (offer : SignedTask) : Except Error (Option (Store × TaskEventRequest)) := do
  let p := offer.payload
  x.touch (.result 0)
  let acknowledged ← receptionDone cfg s x offer
  if acknowledged then return none
  else do
    let request ← eventRequest cfg s x (.received p.taskId p.attemptId) p.taskId p.attemptId .received none
    return some request

/-- Acknowledge an offer. -/
def received (offer : SignedTask) : Store × Except Error Unit :=
  let key : RequestKey := .received offer.payload.taskId offer.payload.attemptId
  match receivedRequest cfg s x offer with
  | .error e => (s, .error e)
  | .ok none => (s, .ok ())
  | .ok (some (t, _)) =>
    match x.reply key with
    | .error e => (t, .error e)
    | .ok ack =>
      if ack.permit.isSome then (t, .error .protocol)
      else if ack.cancelRequested then (t, .error .denied)
      else if x.io (.accept key) then (acceptRow t key, .ok ())
      else (t, .error .storage)

/-- A frozen start is that of the stored offer; a new one is of an offer that verifies. -/
def replayStart (offer : SignedTask) : Except Error Unit := do
  let p := offer.payload
  x.touch (.result 0)
  if s.requests.has (.start p.taskId p.attemptId) then do
    x.touch (.offer 0)
    match s.tasks.get p.taskId with
    | none => .error .storage
    | some row => if row.body ≠ offer then .error .untrusted else .ok ()
  else verifyAt cfg s x 0 offer .offer

/-- What a start checks before it sends its request; `materials` is the check of the prepared files. -/
def startRequest (offer : SignedTask) (materials : Except Error Unit) : Except Error (Store × TaskEventRequest) := do
  x.active
  let _ ← x.now
  let p := offer.payload
  replayStart cfg s x offer
  materials
  x.touch (.result 1)
  if s.receivedAccepted p.taskId p.attemptId then
    eventRequest cfg s x (.start p.taskId p.attemptId) p.taskId p.attemptId .start none
  else .error .conflict

def startInner (offer : SignedTask) (materials : Except Error Unit) : Store × Except Error Start :=
  let key : RequestKey := .start offer.payload.taskId offer.payload.attemptId
  match startRequest cfg s x offer materials with
  | .error e => (s, .error e)
  | .ok (t, _) =>
    match x.reply key with
    | .error e => (t, .error e)
    | .ok ack =>
      if ack.cancelRequested then (t, .error .denied)
      else match ack.permit with
        | none => (t, .error .protocol)
        | some signed =>
          match verifyAt cfg t x 1 signed .start with
          | .error e => (t, .error e)
          | .ok () =>
            if !sameInput offer.payload signed.payload then (t, .error .untrusted)
            else if x.io (.accept key) then (acceptRow t key, .ok ⟨signed⟩)
            else (t, .error .storage)

def requestStart (offer : SignedTask) (materials : Except Error Unit) : Store × Except Error Start :=
  let p := offer.payload
  if (p.kind = .software ∨ p.kind = .script ∨ p.kind = .enrollment) ∧ p.authorization = .selfService then (s, .error .denied)
  else startInner cfg s x offer materials

/-- The stored offer of a frozen start, with its materials checked in the cache. -/
def recoverable (task : Uuid) (materials : Except Error Unit) : Except Error SignedTask := do
  x.active
  let _ ← x.now
  let offer ← storedOffer s x 2 task
  x.touch (.result 2)
  if s.requests.has (.start task offer.payload.attemptId) then do
    materials
    return offer
  else .error .conflict

def recoverStart (task : Uuid) (materials : Except Error Unit) : Store × Except Error Start :=
  match recoverable s x task materials with
  | .error e => (s, .error e)
  | .ok offer => startInner cfg s x offer materials

/-- Revalidate the permit before local admission. -/
def validateStart (start : Start) : Except Error Unit := do
  verifyAt cfg s x 0 start.signed .start
  let p := start.signed.payload
  x.touch (.result 0)
  if (s.requests.get (.start p.taskId p.attemptId)).any (·.accepted) then do
    let offer ← storedOffer s x 0 p.taskId
    if sameInput offer.payload p then .ok () else .error .conflict
  else .error .conflict

def reserveAssociation (start : Start) (request digest actor : String) : Except Error (Store × Binding) := do
  validateStart cfg s x start
  let p := start.signed.payload
  let candidate : Binding := ⟨p.taskId, p.attemptId, request, digest, actor, none⟩
  match ← association s x 1 p.taskId with
  | some old =>
    if old.attempt ≠ candidate.attempt ∨ old.request ≠ candidate.request ∨ old.digest ≠ candidate.digest ∨
        old.actor ≠ candidate.actor then .error .conflict
    else .ok (s, old)
  | none =>
    x.touch .putBinding
    return ({ s with bindings := s.bindings.set candidate }, candidate)

/-- Complete an interrupted association handoff. -/
def bindLocalAttempt (b : Binding) (attempt : Option String) : Except Error (Store × Binding) := do
  checkAssociation s x 0 b
  if b.localAttempt.isSome ∧ b.localAttempt ≠ attempt then .error .conflict
  else do
    let binding := { b with localAttempt := attempt }
    x.touch .putBinding
    return ({ s with bindings := s.bindings.set binding }, binding)

def terminal : TaskEvent → Bool
  | .unmanageResult _ | .enrollmentResult _ | .credentialResult _ | .deviceAccessResult _ | .collectionResult _
  | .result _ | .softwareResult _ | .cancelled => true
  | _ => false

/-- A report of device access ends its task. -/
def reportable (b : Binding) (event : TaskEvent) : Except Error Unit :=
  match event with
  | .deviceAccessResult body => do
    let retained ← storedOffer s x 1 b.task
    if retained.payload.kind ≠ .deviceAccess then .error .protocol
    else do
      ResultWire.validateReport retained.payload body
      if ResultWire.reportEnds retained.payload body then .ok () else .error .protocol
  | _ => .ok ()

/-- What a result must satisfy before it is frozen. -/
def freezable (b : Binding) (candidate : String) (events : List String) (event : TaskEvent) : Except Error Unit := do
  x.active
  let _ ← x.now
  checkAssociation s x 0 b
  if events = [] ∨ candidate ∉ events ∨ 64 < events.length ∨ ¬events.Nodup ∨ terminal event = false then .error .protocol
  else do
    reportable s x b event
    let acknowledged ← acknowledgedResult s x 2 b
    if acknowledged.isSome then .error .conflict
    else do
      let pending ← pendingResult s x 3 b
      if pending.isSome then .error .conflict else .ok ()

/-- Freeze one terminal projection with its source events. -/
def freezeResult (b : Binding) (candidate : String) (events : List String) (event : TaskEvent) :
    Store × Except Error FrozenResult :=
  match freezable s x b candidate events event with
  | .error e => (s, .error e)
  | .ok () =>
    let key : RequestKey := .result b.task candidate
    match deliveryRequest cfg s x key b.task b.attempt event events with
    | (t, .error e) => (t, .error e)
    | (t, .ok request) => (t, .ok ⟨x.owner, b, key, request, events⟩)

def acknowledgement (f : FrozenResult) (result : FrozenResult) : ResultAck :=
  ⟨x.owner, f.association, ResultWire.hash f.request.event, some result⟩

/-- Recover the acknowledgement of a frozen result. -/
def frozenResultAck (f : FrozenResult) : Except Error (Option ResultAck) := do
  let accepted ← checkResult s x 0 f
  if accepted then do
    match ← pendingResult s x 1 f.association with
    | none => .error .conflict
    | some recovered => do
      validateResultAck s x 2 (acknowledgement x f recovered)
      return some (acknowledgement x f recovered)
  else return none

/-- The result row and its projection in one transaction. -/
def acknowledge (f : FrozenResult) : Except Error Store := do
  x.touch .begin
  x.touch (.accept f.key)
  match s.requests.get f.key with
  | none => .error .conflict
  | some row =>
    if row.task ≠ f.association.task then .error .conflict
    else do
      x.touch .project
      x.touch .commit
      return { acceptRow s f.key with
        projections := s.projections.set ⟨f.association.task, ResultWire.hash f.request.event⟩ }

def checkDelivery : Except Error Unit := do
  x.active
  x.now.map fun _ => ()

/-- Send a result that is not accepted yet, its chunks first. -/
def sendUnaccepted (f : FrozenResult) : Store × Except Error Unit :=
  match checkDelivery x with
  | .error e => (s, .error e)
  | .ok () =>
    match sendOutputChunks s x f.association.task f.request with
    | (t, .error e) => (t, .error e)
    | (t, .ok ()) =>
      match x.reply f.key with
      | .error e => (t, .error e)
      | .ok ack =>
        if ack.permit.isSome then (t, .error .protocol)
        else match acknowledge t x f with
          | .error e => (t, .error e)
          | .ok u => (u, .ok ())

def finishResult (f : FrozenResult) : Except Error ResultAck := do
  validateResultAck s x 1 (acknowledgement x f f)
  return acknowledgement x f f

def sendResult (f : FrozenResult) : Store × Except Error ResultAck :=
  match checkResult s x 0 f with
  | .error e => (s, .error e)
  | .ok true => (s, finishResult s x f)
  | .ok false =>
    match sendUnaccepted s x f with
    | (t, .error e) => (t, .error e)
    | (t, .ok ()) => (t, finishResult t x f)

def FrozenResult.retires (f : FrozenResult) (row : RequestRow) : Bool :=
  (decide (row.task = f.association.task) && RequestKey.isChunk f.association.task f.association.attempt row.key) ||
    decide (row.key = f.key)

/-- Drop the frozen transport of an acknowledged result. -/
def retireResult (ack : ResultAck) : Except Error Store := do
  validateResultAck s x 0 ack
  match ack.result with
  | none => .error .conflict
  | some f => do
    x.touch .begin
    x.touch .deleteChunks
    x.touch .deleteResult
    x.touch .commit
    return { s with requests := s.requests.retain fun row => !f.retires row }

/-- The rows of a settled task are deleted in one transaction. -/
def Store.released (task : Uuid) : Store :=
  { s with
    requests := s.requests.retain fun row => decide (row.task ≠ task)
    cacheRefs := s.cacheRefs.filter fun ref => decide (ref.task ≠ task)
    tasks := s.tasks.retain fun row => decide (row.id ≠ task)
    bindings := s.bindings.retain fun row => decide (row.task ≠ task)
    projections := s.projections.retain fun row => decide (row.task ≠ task) }

def release (task : Uuid) : Store × Except Error Unit :=
  if x.io .release then
    let t := Store.released s task
    let r := t.transfers.release (fun access => x.io (.releaseTransfers access)) task
    ({ t with transfers := r.1 }, r.2)
  else (s, .error .storage)

def trimTerminals (limit : Nat) (rows : Rows Terminal.key) : Rows Terminal.key :=
  rows.retain fun row => decide (row ∈ rows.entries.drop (rows.entries.length - limit))

def releasable (ack : ResultAck) : Except Error Unit := do
  validateResultAck s x 0 ack
  x.touch .pending
  if (sourceRow s ack.association.task).isSome then .error .conflict else x.touch .putTerminal

def releaseResult (ack : ResultAck) : Store × Except Error Unit :=
  let task := ack.association.task
  match releasable s x ack with
  | .error e => (s, .error e)
  | .ok () =>
    let t := { s with terminals := s.terminals.set ⟨(task, ack.association.attempt)⟩ }
    if x.io .trim then
      release { t with terminals := trimTerminals (min (cfg.pendingTasks * 64) 4096) t.terminals } x task
    else (t, .error .storage)

def freezeAbandonment (task : Uuid) : Except Error (Store × FrozenAbandonment) := do
  let offer ← storedOffer s x 0 task
  let attempt := offer.payload.attemptId
  let (t, request) ← eventRequest cfg s x (.abandon task attempt) task attempt .cancelled none
  return (t, ⟨x.owner, task, attempt, request⟩)

/-- The cancellation is the stored one; true if it is accepted. -/
def checkAbandonment (f : FrozenAbandonment) : Except Error Bool :=
  if f.owner ≠ x.owner then .error .conflict
  else do
    let offer ← storedOffer s x 0 f.task
    if offer.payload.attemptId ≠ f.attempt then .error .conflict
    else do
      x.touch (.result 0)
      match s.requests.get (.abandon f.task f.attempt) with
      | none => .error .storage
      | some row =>
        if row.task ≠ f.task then .error .storage
        else if row.body ≠ f.request then .error .conflict
        else .ok row.accepted

def sendAbandonment (f : FrozenAbandonment) : Store × Except Error AbandonmentAck :=
  match checkAbandonment s x f with
  | .error e => (s, .error e)
  | .ok true => (s, .ok ⟨f⟩)
  | .ok false =>
    match x.reply (.abandon f.task f.attempt) with
    | .error e => (s, .error e)
    | .ok ack =>
      if ack.permit.isSome then (s, .error .protocol)
      else if x.io (.accept (.abandon f.task f.attempt)) then (acceptRow s (.abandon f.task f.attempt), .ok ⟨f⟩)
      else (s, .error .storage)

def releaseAbandonment (ack : AbandonmentAck) : Store × Except Error Unit :=
  match checkAbandonment s x ack.pending with
  | .error e => (s, .error e)
  | .ok false => (s, .error .conflict)
  | .ok true => release s x ack.pending.task

end Calls

end RssMdmAgent.RemoteAttempts
