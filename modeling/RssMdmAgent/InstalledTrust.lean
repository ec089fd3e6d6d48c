import RssMdmAgent.TrustDocuments
import RssMdmAgent.TransitionRuns

set_option autoImplicit false

/-! # The stored trust, its refreshes and the gate they open -/

namespace RssMdmAgent.InstalledTrust
open KeyedTable TrustDocuments TransitionRuns

structure Acknowledgement where
  operation : Nat
  revision : Nat
  digest : String

structure Ack where
  request : Acknowledgement
  registration : Nat
  completed : Bool

inductive ObservationState where
  | received | applied | failed
  deriving DecidableEq

inductive ObservationReason where
  | storage | transport | credential | validation
  deriving DecidableEq

structure Observation where
  operation : Nat
  registration : Nat
  generation : Nat
  sequence : Nat
  targetRevision : Option Nat
  targetDigest : Option String
  actualRevision : Option Nat
  actualDigest : Option String
  state : ObservationState
  reason : Option ObservationReason
  observedAt : Int
  deriving DecidableEq

structure State where
  document : Option Trust
  watermarks : Table String Watermark
  ack : Option Ack
  refreshAt : Int
  attempts : Nat
  retryAt : Int
  blocked : Bool
  observationSequence : Nat
  observation : Option Observation
  pendingObservation : Option Observation
  installed : Option (Nat × String)

def State.default : State := ⟨none, ∅, none, 0, 0, 0, false, 0, none, none, none⟩

structure World where
  pki : State
  gate : Int

def World.expiresAt (w : World) : Option Int := if 0 < w.gate then some w.gate else none

inductive Written where
  | stored | lost | unsure
  deriving DecidableEq

def put (w : World) (pki : State) : Written → World
  | .lost => w
  | .stored | .unsure => { w with pki := pki }

def revoke (w : World) : World := { w with gate := -1 }

def close (w : World) : World := { w with gate := if w.gate = -1 then -1 else 0 }

/-- The identity of the device at some moment, and its clock. -/
structure Device where
  -- whether the identity can be read, and whether its failure is a revocation or a retirement
  failure : Except Error (Option Error)
  now : Except Error Int
  -- the end of the active identity's validity
  activeIdentity : Except Error Int
  -- the checks of the identity and its chain before and after the chain is verified
  before : Except Error Unit
  chain : List Bytes
  after : Except Error Unit
  taskTrust : Except Error Unit

section Client
variable (P : Primitives) (cfg : Config)

def State.verified (s : State) (now : Int) : Except Error VerifiedTrust :=
  if s.blocked then .error .untrusted
  else match s.document with
    | none => .error .identity
    | some document => VerifiedTrust.new P document cfg now

def checkRuntimeFailure (d : Device) : Except Error Unit := do
  match ← d.failure with
  | some error => .error error
  | none => .ok ()

def active (d : Device) (s : State) : Except Error Unit := do
  checkRuntimeFailure d
  let now ← d.now
  let _ ← d.activeIdentity
  let trust ← s.verified P cfg now
  d.before
  trust.verifyLeaf P d.chain now
  d.after

def isGone : Error → Bool
  | .credentialRevoked | .credentialRetired => true
  | _ => false

def goneBy {α : Type} : Except Error α → Bool
  | .error error => isGone error
  | .ok _ => false

def runtimeRevoked (d : Device) (s : State) : Except Error Bool := do
  let failure ← d.failure
  .ok (failure.any isGone || goneBy (active P cfg d s))

def runtimeReadiness (d : Device) (s : State) : Except Error Unit := do
  active P cfg d s
  d.taskTrust

def runtimeDeadline (d : Device) (s : State) : Except Error Int := do
  active P cfg d s
  d.taskTrust
  let notAfter ← d.activeIdentity
  let now ← d.now
  let trust ← s.verified P cfg now
  .ok (min notAfter trust.expires)

def okOr {α : Type} (value : α) : Except Error α → α
  | .ok v => v
  | .error _ => value

def publishRuntimeGate (d : Device) (w : World) : World :=
  { w with gate :=
      if okOr (decide (w.gate = -1)) (runtimeRevoked P cfg d w.pki) then -1 else okOr 0 (runtimeDeadline P cfg d w.pki) }

/-- What an observation is made of. -/
structure Observing where
  registration : Except Error (Nat × Nat)
  operation : Nat
  now : Except Error Int
  acceptable : Except Error Unit
  written : Written

def installedAfter (s : State) (target : Option Trust) (status : ObservationState) : Except Error (Option (Nat × String)) :=
  match status, target with
  | .applied, none => .error .storage
  | .applied, some target => .ok (some (target.revision, P.installationDigest target))
  | _, _ => .ok s.installed

def observed (o : Observing) (target : Option Trust) (status : ObservationState) (reason : Option ObservationReason) (s : State) :
    Except Error State := do
  let (registration, generation) ← o.registration
  let sequence := s.observationSequence + 1
  if 2 ^ 63 ≤ sequence then .error .capacity
  else do
    let installed ← installedAfter P s target status
    let now ← o.now
    let observation : Observation := ⟨o.operation, registration, generation, sequence, target.map (·.revision),
      target.map P.installationDigest, installed.map (·.1), installed.map (·.2), status, reason, now⟩
    o.acceptable
    .ok { s with
      observationSequence := sequence
      installed := installed
      pendingObservation := if s.pendingObservation.isNone then some observation else s.pendingObservation
      observation := some observation }

def observePki (o : Observing) (target : Option Trust) (status : ObservationState) (reason : Option ObservationReason) (w : World) :
    Bool × World :=
  match observed P o target status reason w.pki with
  | .error _ => (false, w)
  | .ok s => (o.written = .stored, put w s o.written)

/-! ## Refreshes -/

/-- What a refresh meets: the clock, the reply with its status, the document it holds, the clock again and the store. -/
structure Refreshing where
  now : Except Error Int
  reply : Except Error (Bool × Option Trust)
  later : Except Error Int
  written : Written
  device : Device
  failureStored : Bool
  registered : Bool
  observing : Observing

/-- How a refresh ends, as far as the trust is concerned. -/
inductive Refreshed where
  | idle
  | refused
  | unblocked
  | full
  | installed
  | uninstalled
  deriving DecidableEq

def acceptable (s : State) (now : Int) (reply : Option Trust) : Except Error VerifiedTrust :=
  match reply with
  | none => .error .protocol
  | some document => do
    let verified ← VerifiedTrust.new P document cfg now
    match s.document with
    | none => .ok verified
    | some previous => do
      verified.monotonic P previous s.watermarks
      .ok verified

def saturatingAdd (a b : Int) : Int := min (a + b) i64Max

/-- The state with the new trust, if there is room for its watermarks. -/
def install (s : State) (v : VerifiedTrust) (now : Int) : Option State :=
  if 4096 < s.watermarks.entries.length + (v.watermarks.entries.filter fun entry => (s.watermarks.lookup entry.1).isNone).length then none
  else some { s with
    watermarks := v.watermarks ∪ s.watermarks
    refreshAt := min (saturatingAdd now 300) (max (v.expires - 1) (saturatingAdd now 1))
    document := some v.document
    blocked := false }

/-- A revocation by a current list is kept, the gate is published and the trust observed. -/
def settleRefresh (r : Refreshing) (w : World) : World :=
  let revoked := decide (active P cfg r.device w.pki = .error .credentialRevoked)
  let w := if revoked then revoke w else w
  if revoked && !r.failureStored then w
  else
    let w := publishRuntimeGate P cfg r.device w
    if r.registered then (observePki P r.observing w.pki.document .received none w).2 else w

def refreshTrust (r : Refreshing) (w : World) : Refreshed × World :=
  match r.now with
  | .error _ => (.idle, w)
  | .ok now =>
    if w.pki.document.isSome && !w.pki.blocked && decide (now < w.pki.refreshAt) then (.idle, w)
    else match r.reply with
      | .error _ | .ok (false, _) => (.idle, w)
      | .ok (true, reply) => match r.later with
        | .error _ => (.idle, w)
        | .ok now => match acceptable P cfg w.pki now reply with
          | .error _ => (if r.written = .lost then .unblocked else .refused, put (close w) { w.pki with blocked := true } r.written)
          | .ok verified => match install w.pki verified now with
            | none => (.full, w)
            | some s => match r.written with
              | .lost => (.uninstalled, close w)
              | .unsure => (.installed, put (close w) s .unsure)
              | .stored => (.installed, settleRefresh P cfg r (put (close w) s .stored))

/-! ## The other writers -/

inductive Failure where
  | gone | expired | other

def identityFailure (failure : Failure) (w : World) : World :=
  match failure with
  | .gone => revoke w
  | .expired => close w
  | .other => w

inductive Answer where
  | unreachable
  | refused (failure : Failure)
  | observation (value : Observation)
  | unreadable

def flushPkiObservation (ready : Bool) (answer : Answer) (written : Written) (w : World) : World :=
  match w.pki.pendingObservation with
  | none => w
  | some pending =>
    if ready then match answer with
      | .unreachable | .unreadable => w
      | .refused failure => identityFailure failure w
      | .observation reply =>
        if reply ≠ pending then w
        else put w { w.pki with pendingObservation := w.pki.observation.filter fun v => decide (reply.sequence < v.sequence) } written
    else w

def unobserved (observedBefore : Bool) (document : Trust) (s : State) : Bool :=
  !observedBefore || decide (s.installed ≠ some (document.revision, P.installationDigest document)) ||
    !s.observation.any fun v => decide (v.state = .applied)

/-- What an acknowledgement meets. -/
structure Acknowledging where
  ready : Bool
  observedBefore : Bool
  observing : Observing
  registration : Nat
  operation : Nat
  asked : Written
  accepted : Option Failure
  reachable : Bool
  completed : Written

def ackMatches (registration : Nat) (document : Trust) (ack : Ack) : Bool :=
  decide (ack.registration = registration) && decide (ack.request.revision = document.revision) &&
    decide (ack.request.digest = P.installationDigest document)

def ask (a : Acknowledging) (document : Trust) (w : World) : Bool × World :=
  if w.pki.ack.any (ackMatches P a.registration document) then (true, w)
  else
    let request : Acknowledgement := ⟨a.operation, document.revision, P.installationDigest document⟩
    (a.asked = .stored, put w { w.pki with ack := some ⟨request, a.registration, false⟩ } a.asked)

def confirm (a : Acknowledging) (w : World) : World :=
  match w.pki.ack with
  | none => w
  | some ack =>
    if ack.completed || !a.reachable then w
    else match a.accepted with
      | some failure => identityFailure failure w
      | none => put w { w.pki with ack := some { ack with completed := true } } a.completed

def observeApplied (a : Acknowledging) (document : Trust) (w : World) : Bool × World :=
  if unobserved P a.observedBefore document w.pki then observePki P a.observing (some document) .applied none w else (true, w)

def acknowledgeTrust (a : Acknowledging) (w : World) : World :=
  match a.ready, w.pki.document with
  | true, some document => match observeApplied P a document w with
    | (false, w) => w
    | (true, w) => match ask P a document w with
      | (false, w) => w
      | (true, w) => confirm a w
  | _, _ => w

def backOff (succeeded : Bool) (now : Int) (written : Written) (w : World) : World :=
  if succeeded then put w { w.pki with attempts := 0, retryAt := saturatingAdd now 2 } written
  else
    let attempts := min (w.pki.attempts + 1) 9
    put w { w.pki with attempts := attempts, retryAt := saturatingAdd now (min (2 * 2 ^ (attempts - 1)) 300) } written

/-! ## Runs -/

inductive Operation where
  | refresh (r : Refreshing)
  | publish (device : Device)
  | observe (o : Observing) (status : ObservationState) (reason : Option ObservationReason)
  | flush (ready : Bool) (answer : Answer) (written : Written)
  | acknowledge (a : Acknowledging)
  | backOff (succeeded : Bool) (now : Int) (written : Written)
  | identityFailure (failure : Failure)
  | restart

def perform (w : World) : Operation → Refreshed × World
  | .refresh r => refreshTrust P cfg r w
  | .publish device => (.idle, publishRuntimeGate P cfg device w)
  | .observe o status reason => (.idle, (observePki P o none status reason w).2)
  | .flush ready answer written => (.idle, flushPkiObservation ready answer written w)
  | .acknowledge a => (.idle, acknowledgeTrust P a w)
  | .backOff succeeded now written => (.idle, backOff succeeded now written w)
  | .identityFailure failure => (.idle, identityFailure failure w)
  | .restart => (.idle, { w with gate := 0 })

inductive Step : World → Operation × Refreshed → World → Prop where
  | perform {w : World} (o : Operation) : Step w (o, (perform P cfg w o).1) (perform P cfg w o).2

def World.initial : World := ⟨State.default, 0⟩

end Client

end RssMdmAgent.InstalledTrust
