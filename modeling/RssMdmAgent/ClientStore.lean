import RssMdmAgent.ContentTransfers

set_option autoImplicit false

/-! # The communication store of the agent client: offers, frozen requests and claims -/

namespace RssMdmAgent.ClientStore
open OrderedRows
open ContentTransfers (Uuid Error Transfers)

inductive TaskKind where
  | deviceAccess | unmanage | credential | collection | script | enrollment | software
  deriving DecidableEq

inductive TaskPermit where
  | offer | start
  deriving DecidableEq

inductive TaskPlatform where
  | macos | windows
  deriving DecidableEq

inductive TaskArchitecture where
  | aarch64 | x86_64
  deriving DecidableEq

inductive TaskAuthorization where
  | policy | selfService
  deriving DecidableEq

/-- A task of one of the kinds; `input` is the rest of its signed fields. -/
structure TaskPayload where
  kind : TaskKind
  permit : TaskPermit
  tenantId : Uuid
  deviceId : String
  registrationId : Uuid
  generation : Nat
  platform : TaskPlatform
  architecture : TaskArchitecture
  taskId : Uuid
  attemptId : Uuid
  expiresAt : Int
  deadline : Int
  authorization : TaskAuthorization
  input : String
  deriving DecidableEq

structure SignedTask where
  keyId : String
  signature : String
  payload : TaskPayload
  deriving DecidableEq

def taskDeadline (p : TaskPayload) : Option Int :=
  match p.kind with
  | .software | .enrollment => none
  | _ => some p.deadline

def sameInput (a b : TaskPayload) : Bool :=
  decide (a.kind = b.kind) && decide (a = { b with permit := a.permit, expiresAt := a.expiresAt })

structure ClaimState where
  request : String
  recoverUntil : Int
  deriving DecidableEq

/-- What the wire crate and the signature check tell of a task. -/
class TaskWire where
  /-- The signature decodes and verifies over the signing bytes of the payload. -/
  signed : (publicKey : String) → SignedTask → Bool
  validateSoftwareAdmission : TaskPayload → Bool
  /-- The frozen execution of a collection is that of the current context. -/
  matchesContext : TaskPayload → (context : String) → Bool
  supportedBy : TaskPayload → (engines : List String) → Bool
  /-- The length of the encoding of a claim. -/
  claimBytes : ClaimState → Nat

structure OutputManifest where
  length : Nat
  digest : String
  deriving DecidableEq

structure OutputChunk where
  manifest : OutputManifest
  index : Nat
  bytes : List UInt8
  deriving DecidableEq

/-- The events of an attempt. Results carry their encoding. -/
inductive TaskEvent where
  | received | start | cancelled
  | outputChunk (chunk : OutputChunk)
  | chunkedResult (reference : String) (manifest : OutputManifest)
  | chunkedCollectionResult (manifest : OutputManifest)
  | unmanageResult (body : String)
  | enrollmentResult (body : String)
  | credentialResult (body : String)
  | deviceAccessResult (body : String)
  | collectionResult (body : String)
  | result (body : String)
  | softwareResult (body : String)
  | credentialEscrow (body : String)
  | deviceAccessPrepared (body : String)
  deriving DecidableEq

structure TaskEventRequest where
  operationId : Uuid
  attemptId : Uuid
  event : TaskEvent
  executionContext : String
  deriving DecidableEq

/-- The keys of the request rows, `received/{task}/{attempt}` and so on. -/
inductive RequestKey where
  | received (task attempt : Uuid)
  | start (task attempt : Uuid)
  | chunk (task attempt : Uuid) (index : Nat)
  | result (task : Uuid) (candidate : String)
  | abandon (task attempt : Uuid)
  | other (key : String)
  deriving DecidableEq

def RequestKey.isReceived : RequestKey → Bool
  | .received _ _ => true
  | _ => false

structure TaskRow where
  id : Uuid
  body : SignedTask
  deriving DecidableEq

structure RequestRow where
  key : RequestKey
  task : Uuid
  source : Option (List String)
  body : TaskEventRequest
  accepted : Bool
  deriving DecidableEq

structure CacheRef where
  task : Uuid
  name : String
  deriving DecidableEq

structure Binding where
  task : Uuid
  attempt : Uuid
  request : String
  digest : String
  actor : String
  localAttempt : Option String
  deriving DecidableEq

structure Projection where
  task : Uuid
  hash : String
  deriving DecidableEq

structure Terminal where
  key : Uuid × Uuid
  deriving DecidableEq

structure Store where
  tasks : Rows TaskRow.id
  requests : Rows RequestRow.key
  cacheRefs : List CacheRef
  claim : Option ClaimState
  bindings : Rows Binding.task
  projections : Rows Projection.task
  terminals : Rows Terminal.key
  transfers : Transfers
  deriving DecidableEq

structure Config where
  tenant : Uuid
  platform : TaskPlatform
  architecture : TaskArchitecture
  pendingTasks : Nat
  requestTimeout : Nat
  responseBytes : Nat

structure BindingProfile where
  deviceId : String
  registrationId : Uuid
  generation : Nat

/-- What one verification reads beside the requests: identity, clock, trust and context. -/
structure Session where
  active : Except Error Unit
  now : Except Error Int
  registration : Except Error BindingProfile
  taskVerificationKey : String → Except Error String
  executionContext : Except Error String
  nativeEngines : List String

section Verification
variable [TaskWire]

/-- Authenticate the exact payload against local identity and authority. -/
def verifyTaskBinding (cfg : Config) (registration : BindingProfile) (publicKey : String) (permit : TaskPermit) (now : Int)
    (signed : SignedTask) : Except Error Unit :=
  let p := signed.payload
  if now < 0 ∨ p.permit ≠ permit ∨ p.tenantId ≠ cfg.tenant ∨ p.deviceId ≠ registration.deviceId ∨
      p.platform ≠ cfg.platform ∨ p.architecture ≠ cfg.architecture ∨ p.registrationId ≠ registration.registrationId ∨
      p.generation ≠ registration.generation ∨ signed.signature.utf8ByteSize ≠ 86 then .error .protocol
  else if p.kind = .collection ∧ p.authorization = .selfService then .error .unsupported
  else if p.kind = .software ∧ TaskWire.validateSoftwareAdmission p = false then .error .protocol
  else if TaskWire.signed publicKey signed then .ok ()
  else .error .protocol

def Store.receivedAccepted (s : Store) (task attempt : Uuid) : Bool :=
  (s.requests.get (.received task attempt)).any (·.accepted)

inductive Access where
  | readReceived | readClaim | dropClaim | putClaim | countTasks | readTask | decodeTask | lockTransfers | begin
  | readUnsettled | deleteReceived | deleteCacheRefs | persistRetirement | upsertTask | clearClaim | commit
  deriving DecidableEq

def reach (io : Access → Bool) (access : Access) : Except Error Unit :=
  if io access then .ok () else .error .storage

/-- Check an offer or a start against identity, time, trust and context. -/
def Store.verify (s : Store) (cfg : Config) (io : Access → Bool) (e : Session) (signed : SignedTask) (permit : TaskPermit) :
    Except Error Unit := do
  e.active
  let now ← e.now
  let p := signed.payload
  if permit = .offer then reach io .readReceived
  let until' := if permit = .offer ∧ s.receivedAccepted p.taskId p.attemptId then taskDeadline p else some p.expiresAt
  if until'.any fun t => decide (t ≤ now) then throw .expired
  let registration ← e.registration
  let key ← e.taskVerificationKey signed.keyId
  match verifyTaskBinding cfg registration key permit now signed with
  | .error _ => throw .untrusted
  | .ok () => pure ()
  if p.kind = .collection then
    let context ← e.executionContext
    if !TaskWire.matchesContext p context then throw .untrusted
    if !TaskWire.supportedBy p e.nativeEngines then throw .unsupported

end Verification

structure TaskCancellation where
  task : Uuid
  attempt : Uuid
  deriving DecidableEq

structure TaskClaimResponse where
  task : Option SignedTask
  cancellations : List TaskCancellation
  deriving DecidableEq

structure Claim where
  offer : Option SignedTask
  cancellations : List TaskCancellation
  deriving DecidableEq

/-- What one claim reads beside the store, and the answer that it gets. -/
structure ClaimCall where
  trustReady : Except Error Unit
  retiring : Except Error Bool
  now : Except Error Int
  /-- The encoding of a new request with the current profiles, context and environment. -/
  fresh : Except Error String
  reply : Except Error TaskClaimResponse
  session : Session
  io : Access → Bool

section Claims
variable [TaskWire] (cfg : Config) (s : Store)

def maxI64 : Int := 2 ^ 63 - 1

def Store.dropExpired (c : ClaimCall) (now : Int) : Except Error Store := do
  reach c.io .readClaim
  if s.claim.any fun state => decide (state.recoverUntil ≤ now) then
    reach c.io .dropClaim
    return { s with claim := none }
  return s

/-- A new claim with its recovery time. -/
def newClaim (c : ClaimCall) (now : Int) : Except Error ClaimState := do
  if maxI64 < (cfg.requestTimeout : Int) then throw .configuration
  if maxI64 < (cfg.requestTimeout : Int) + 60 then throw .clock
  let request ← c.fresh
  if maxI64 < now + ((cfg.requestTimeout : Int) + 60) then throw .clock
  let state : ClaimState := ⟨request, now + ((cfg.requestTimeout : Int) + 60)⟩
  if cfg.responseBytes < TaskWire.claimBytes state then throw .capacity
  reach c.io .putClaim
  return state

/-- The pending claim, recovered or created, and the time of the call. -/
def Store.prepareClaim (c : ClaimCall) : Store × Except Error Int :=
  match (do c.trustReady
            if (← c.retiring) then throw .credentialRetired
            c.now : Except Error Int) with
  | .error e => (s, .error e)
  | .ok now =>
    match s.dropExpired c now with
    | .error e => (s, .error e)
    | .ok t =>
      if t.claim.isSome then (t, .ok now)
      else match newClaim cfg c now with
        | .error e => (t, .error e)
        | .ok state => ({ t with claim := some state }, .ok now)

def Store.unsettled (task : Uuid) : Bool :=
  s.requests.entries.any fun row => decide (row.task = task) && (!row.key.isReceived || row.source.isSome)

/-- The offer of an expired attempt gives way, with its received requests, cache references and consumers. -/
def Store.retire (old : TaskRow) : Store :=
  { s with
    requests := s.requests.retain fun row =>
      !(decide (row.task = old.id) && row.key.isReceived && row.source.isNone)
    cacheRefs := s.cacheRefs.filter fun ref => decide (ref.task ≠ old.id)
    transfers := s.transfers.committed
      (s.transfers.retireAttempt old.body.payload.taskId old.body.payload.attemptId) }

def Store.adopt (signed : SignedTask) : Store :=
  { s with tasks := s.tasks.set ⟨signed.payload.taskId, signed⟩, claim := none }

/-- What the old row of the task lets a new offer do. -/
def Store.giveWay (io : Access → Bool) (now : Int) (signed : SignedTask) : Option TaskRow → Except Error Store
  | none => .ok s
  | some row =>
    if row.body.payload.attemptId ≠ signed.payload.attemptId then do
      reach io .readUnsettled
      if s.unsettled row.id || decide (now < row.body.payload.expiresAt) then .error .conflict
      else do
        reach io .deleteReceived
        reach io .deleteCacheRefs
        reach io .persistRetirement
        return s.retire row
    else if row.body ≠ signed then .error .conflict
    else .ok s

def lockConsumers (io : Access → Bool) (signed : SignedTask) (old : Option TaskRow) : Except Error Unit :=
  if old.any fun row => decide (row.body.payload.attemptId ≠ signed.payload.attemptId) then reach io .lockTransfers else .ok ()

/-- The transaction that stores an offer in the place of an old one. -/
def Store.storeOffer (io : Access → Bool) (now : Int) (signed : SignedTask) (old : Option TaskRow) : Except Error Store := do
  lockConsumers io signed old
  reach io .begin
  let t ← s.giveWay io now signed old
  reach io .upsertTask
  reach io .clearClaim
  reach io .commit
  return t.adopt signed

def Store.full (task : Uuid) : Bool :=
  !s.tasks.has task && decide (cfg.pendingTasks ≤ s.tasks.entries.length)

/-- The decoded answer is taken: the store after it and what the caller gets. -/
def Store.takeResponse (c : ClaimCall) (now : Int) (response : TaskClaimResponse) : Except Error (Store × Claim) :=
  match response.task with
  | none => do
    reach c.io .clearClaim
    return ({ s with claim := none }, ⟨none, response.cancellations⟩)
  | some signed => do
    s.verify cfg c.io c.session signed .offer
    reach c.io .countTasks
    reach c.io .readTask
    -- Cancellations of existing work pass an offer that finds no room; the claim stays for replay.
    if s.full cfg signed.payload.taskId then return (s, ⟨none, response.cancellations⟩)
    reach c.io .decodeTask
    let t ← s.storeOffer c.io now signed (s.tasks.get signed.payload.taskId)
    return (t, ⟨some signed, response.cancellations⟩)

/-- Receive one offer and cancellation page. -/
def Store.claimTask (c : ClaimCall) : Store × Except Error Claim :=
  match s.prepareClaim cfg c with
  | (t, .error e) => (t, .error e)
  | (t, .ok now) =>
    match c.reply with
    | .error e => (t, .error e)
    | .ok response =>
      match t.takeResponse cfg c now response with
      | .error e => (t, .error e)
      | .ok (u, claim) => (u, .ok claim)

end Claims

end RssMdmAgent.ClientStore
