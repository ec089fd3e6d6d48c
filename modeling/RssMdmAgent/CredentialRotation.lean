import RssMdmAgent.CrashPrograms
import RssMdmAgent.AccessRecords
import Mathlib.Logic.Function.Basic

set_option autoImplicit false

/-! # The rotation of a credential by a worker -/

namespace RssMdmAgent.CredentialRotation
open CrashPrograms

abbrev Id := AccessRecords.Uuid

abbrev Secret := String

inductive Operation where
  | rotateBitlocker (volume : String) (protector : Id)
  | rotateLocalAdministrator (sid : String)
  | verifyBitlocker (volume : String) (protector : Id)
  | verifyLocalAdministrator (sid : String)
  | rotateRssLogin (binding : Id) (bindingGeneration : Int) (sid : String)
  | verifyRssLogin (binding : Id) (bindingGeneration : Int) (sid : String)
  | collectBitlocker
  deriving DecidableEq, Repr

inductive Subject where
  | bitlocker (volume : String) (protector : Id)
  | localAdministrator (sid : String)
  | rssLogin (binding : Id) (bindingGeneration : Int) (sid : String)
  deriving DecidableEq, Repr

inductive Failure where
  | noMaterials
  | unsupported
  | permissionDenied
  | ownerConflict
  | targetMissing
  | nativeFailure
  | recoveryState
  deriving DecidableEq, Repr

inductive Error where
  | unavailable
  | untrusted
  | conflict
  | storage
  | unsupported
  deriving DecidableEq, Repr

/-- What the files of a task are named by. -/
structure Name where
  registration : Id
  generation : Nat
  task : Id
  attempt : Id
  deriving DecidableEq, Repr

structure Task where
  tenant : Id
  device : String
  registration : Id
  generation : Nat
  taskId : Id
  attemptId : Id
  definition : String
  permit : AccessRecords.TaskPermit
  operation : Operation
  recovery : Option (Id × Id)
  deriving DecidableEq, Repr

def Task.name (task : Task) : Name := ⟨task.registration, task.generation, task.taskId, task.attemptId⟩

inductive Phase where
  | prepared
  | issued
  | finished
  deriving DecidableEq, Repr

structure Sealed where
  task : Task
  secret : Secret
  deriving DecidableEq, Repr

structure Record where
  task : Task
  phase : Phase
  box : Sealed
  subject : Option Subject
  deriving DecidableEq, Repr

structure Envelope where
  subject : Subject
  secret : Secret
  nonce : Nat
  deriving DecidableEq, Repr

structure Escrow where
  definition : String
  materials : List Envelope
  deriving DecidableEq, Repr

inductive Outcome where
  | verified
  | unknown
  deriving DecidableEq, Repr

inductive RecoveryOutcome where
  | applied
  | notAttempted
  deriving DecidableEq, Repr

structure Item where
  subject : Subject
  outcome : Outcome
  deriving DecidableEq, Repr

structure Result where
  definition : String
  recovery : Option RecoveryOutcome
  failure : Option Failure
  complete : Bool
  items : List Item
  deriving DecidableEq, Repr

def Failure.definitive : Failure → Bool
  | .permissionDenied | .ownerConflict | .targetMissing | .unsupported => true
  | _ => false

/-! ## Calls -/

abbrev AccountKey := Id × Nat × String

section Calls
variable {Digest : Type}

/-- The calls of files and of the native system; an acknowledgement is awaited. -/
inductive Call (Digest : Type) where
  | validate
  | readState (n : Name)
  | writeState (n : Name) (record : Record)
  | removeState (n : Name)
  | readEscrow (n : Name)
  | writeEscrow (n : Name) (escrow : Escrow)
  | removeEscrow (n : Name)
  | awaitAck (n : Name) (digest : Digest)
  | removeAck (n : Name)
  | readResult (n : Name)
  | writeResult (n : Name) (result : Result)
  | removeResult (n : Name)
  | readAccount (key : AccountKey)
  | writeAccount (key : AccountKey) (record : Record)
  | bitlocker (volume : String) (protector : Id)
  | password
  | protect (task : Task) (secret : Secret)
  | unprotect (box : Sealed)
  | encrypt (subject : Subject) (secret : Secret)
  | apply (operation : Operation) (secret : Secret)
  | locate (operation : Operation) (secret : Secret)
  | remove (volume : String) (protector : Id)
  | output (n : Name) (result : Result)

def Out : Call Digest → Type
  | .readState _ | .readAccount _ => Option Record
  | .readEscrow _ => Option Escrow
  | .readResult _ => Option Result
  | .bitlocker .. | .apply .. | .remove .. => Except Failure Unit
  | .password => Secret
  | .protect .. | .unprotect _ => Sealed
  | .encrypt .. => Envelope
  | .locate .. => Except Failure (Option Subject)
  | _ => Unit

abbrev Worker (Digest : Type) (α : Type) := Work Error (@Out Digest) α

abbrev call (c : Call Digest) : Worker Digest (Out c) := ask c

/-! ## The worker -/

def failed (task : Task) (failure : Failure) : Result := ⟨task.definition, none, some failure, false, []⟩

def unknownOf (task : Task) (failure : Failure) (escrow : Option Escrow) : Result :=
  { failed task failure with
    items := match escrow with
      | none => []
      | some escrow => escrow.materials.map fun m => ⟨m.subject, .unknown⟩ }

def failureWithMaterials (task : Task) (failure : Failure) : Worker Digest Result := do
  let escrow ← call (.readEscrow task.name)
  if escrow.any (·.definition ≠ task.definition) then .fail .untrusted
  else .ok (unknownOf task failure escrow)

def openRecord (record : Record) : Worker Digest Secret := do
  let box ← call (.unprotect record.box)
  if box.task ≠ record.task then .fail .untrusted else .ok box.secret

def native {α : Type} (reply : Except Failure α) : Worker Digest α :=
  match reply with
  | .ok value => .ok value
  | .error _ => .fail .unavailable

def locate (operation : Operation) (secret : Secret) : Worker Digest (Option Subject) := do
  let reply ← call (.locate operation secret)
  native reply

def candidate (operation : Operation) (secret : Secret) : Worker Digest (Option Subject) :=
  match operation with
  | .rotateLocalAdministrator sid => .ok (some (.localAdministrator sid))
  | _ => locate operation secret

def Task.bound (a b : Task) : Bool :=
  a.tenant = b.tenant && a.device = b.device && a.registration = b.registration && a.generation = b.generation

def recovers : Operation → Operation → Bool
  | .verifyBitlocker a b, .rotateBitlocker c d => a = c && b = d
  | .verifyLocalAdministrator a, .rotateLocalAdministrator b => a = b
  | _, _ => false

variable (digest : Escrow → Digest)

/-- The escrow of a task, which is written once. -/
def escrowFor (task : Task) (subject : Subject) (secret : Secret) : Worker Digest Escrow := do
  let stored ← call (.readEscrow task.name)
  match stored with
  | some value =>
    if value.definition ≠ task.definition ∨ value.materials.map (·.subject) ≠ [subject] then .fail .conflict
    else .ok value
  | none =>
    let envelope ← call (.encrypt subject secret)
    call .validate
    call (.writeEscrow task.name ⟨task.definition, [envelope]⟩)
    .ok ⟨task.definition, [envelope]⟩

/-- The old protector goes once the new one is located again. -/
def removeOld (operation : Operation) (actual : Option Subject) : Worker Digest Unit :=
  match operation with
  | .rotateBitlocker volume protector =>
    if actual = some (.bitlocker volume protector) then .fail .untrusted
    else do
      let reply ← call (.remove volume protector)
      native reply
  | _ => .ok ()

/-- The current record of an account replaces that of an earlier rotation. -/
def keepAccount (task : Task) (current : Record) : Worker Digest Unit :=
  match current.task.operation with
  | .rotateLocalAdministrator sid => do
    let previous ← call (.readAccount (task.registration, task.generation, sid))
    call (.writeAccount (task.registration, task.generation, sid) current)
    match previous with
    | some previous => if previous.task.taskId ≠ current.task.taskId then call (.removeState previous.task.name) else .ok ()
    | none => .ok ()
  | _ => .ok ()

/-- Material is escrowed, acknowledged and located again before the rotation is finished. -/
def publish (task : Task) (recovery : Option RecoveryOutcome) (current : Record) (subject : Subject) (secret : Secret) :
    Worker Digest Result := do
  let escrow ← escrowFor task subject secret
  call (.awaitAck task.name (digest escrow))
  let secret ← openRecord current
  let actual ← locate current.task.operation secret
  if actual ≠ some subject then failureWithMaterials task .nativeFailure
  else do
    removeOld current.task.operation actual
    call (.writeState current.task.name { current with phase := .finished, subject := actual })
    keepAccount task { current with phase := .finished, subject := actual }
    .ok ⟨task.definition, recovery, none, true, [⟨subject, .verified⟩]⟩

def Task.original (task : Task) (reference : Id × Id) : Name := ⟨task.registration, task.generation, reference.1, reference.2⟩

def recover (task : Task) (reference : Id × Id) : Worker Digest Result := do
  let stored ← call (.readState (task.original reference))
  match stored with
  | none => .ok (failed task .recoveryState)
  | some old =>
    if task.bound old.task = false ∨ recovers task.operation old.task.operation = false then .fail .untrusted
    else if old.phase = .prepared then .ok ⟨task.definition, some .notAttempted, none, true, []⟩
    else do
      let secret ← openRecord old
      let subject ← candidate old.task.operation secret
      match subject with
      | none => .ok (failed task .recoveryState)
      | some subject => publish digest task (some .applied) old subject secret

/-- What is applied is issued before, so that it is never applied again. -/
def issue (task : Task) (current : Record) (secret : Secret) : Worker Digest (Option Failure) :=
  if current.phase = .prepared then do
    call (.writeState task.name { current with phase := .issued })
    let reply ← call (.apply task.operation secret)
    match reply with
    | .ok () => .ok none
    | .error failure => .ok (some failure)
  else .ok none

def rotateFrom (task : Task) (current : Record) : Worker Digest Result := do
  let secret ← openRecord current
  let rejected ← issue task current secret
  match rejected.filter Failure.definitive with
  | some failure => .ok (failed task failure)
  | none =>
    let subject ← candidate task.operation secret
    match subject with
    | none => .ok (failed task .nativeFailure)
    | some subject =>
      let issued := { current with phase := if current.phase = .prepared then .issued else current.phase, subject := some subject }
      call (.writeState task.name issued)
      publish digest task none issued subject secret

def inspect (operation : Operation) : Worker Digest (Except Failure Unit) :=
  match operation with
  | .rotateBitlocker volume protector => call (.bitlocker volume protector)
  | _ => .ok (.ok ())

def rotate (task : Task) : Worker Digest Result := do
  let stored ← call (.readState task.name)
  match stored with
  | some old => if old.task ≠ task then .fail .untrusted else rotateFrom digest task old
  | none =>
    let inspected ← inspect task.operation
    match inspected with
    | .error failure => .ok (failed task failure)
    | .ok () =>
      let secret ← call .password
      let box ← call (.protect task secret)
      call (.writeState task.name ⟨task, .prepared, box, none⟩)
      rotateFrom digest task ⟨task, .prepared, box, none⟩

def Operation.login : Operation → Option Subject
  | .rotateRssLogin binding generation sid | .verifyRssLogin binding generation sid => some (.rssLogin binding generation sid)
  | _ => none

/-- A rotation, or the recovery of one; the operations that change nothing are left out. A login is rotated by a worker of
its own, which refuses to recover another rotation. -/
def executeInner (task : Task) : Worker Digest Result :=
  if task.operation.login.isSome then .fail .unsupported
  else
    match task.recovery, task.operation with
    | some reference, _ => recover digest task reference
    | none, .rotateBitlocker .. | none, .rotateLocalAdministrator _ => rotate digest task
    | none, _ => .fail .unsupported

def withPending (result : Result) (escrow : Option Escrow) : Result :=
  (escrow.elim [] (·.materials)).foldl (fun result m =>
    if result.items.any (·.subject = m.subject) then result
    else { result with items := result.items ++ [⟨m.subject, .unknown⟩], complete := false, failure := some .nativeFailure }) result

def execute (task : Task) : Worker Digest Result := do
  call .validate
  let stored ← call (.readResult task.name)
  match stored with
  | some result => if result.definition ≠ task.definition then .fail .untrusted else .ok result
  | none =>
    let result ← executeInner digest task
    let escrow ← call (.readEscrow task.name)
    call (.writeResult task.name (withPending result escrow))
    .ok (withPending result escrow)

def result (task : Task) : Worker Digest Unit :=
  (execute digest task).settle fun
    | .ok result => call (.output task.name result)
    | .error error => do
      let result ← failureWithMaterials task (if error = .unavailable then .nativeFailure else .recoveryState)
      call (.output task.name result)

/-! ## Retirement -/

inductive Assessment where
  | satisfied
  | noEffect
  | unknown
  deriving DecidableEq, Repr

def noEffectFailure : Failure → Bool
  | .noMaterials | .unsupported | .permissionDenied | .ownerConflict | .targetMissing => true
  | _ => false

def assessment (result : Result) : Assessment :=
  if result.complete ∧ result.failure = none ∧ result.recovery = some .notAttempted ∧ result.items = [] then .noEffect
  else if result.complete ∧ result.failure = none ∧ result.items ≠ [] ∧ result.items.all (·.outcome = .verified) then .satisfied
  else if result.items = [] ∧ result.failure.any noEffectFailure then .noEffect
  else .unknown

def succeeded (result : Option Result) : Bool :=
  result.any fun r => assessment r = .satisfied || (r.complete && r.recovery = some .notAttempted)

def hadNoEffect (result : Option Result) : Bool := result.any fun r => assessment r = .noEffect

def storedResult (task : Task) : Worker Digest (Option Result) := do
  let stored ← call (.readResult task.name)
  match stored with
  | none => .ok none
  | some value =>
    call .validate
    if value.definition ≠ task.definition then .fail .untrusted else .ok (some value)

def removeFiles (n : Name) : Worker Digest Unit := do
  call (.removeEscrow n)
  call (.removeAck n)
  call (.removeResult n)

/-- An uncertain rotation keeps its record for a recovery. -/
def retire (task : Task) : Worker Digest Unit := do
  let stored ← storedResult task
  if succeeded stored || hadNoEffect stored then
    call (.removeState task.name)
    match task.recovery with
    | some reference =>
      if succeeded stored then
        call (.removeState (task.original reference))
        removeFiles (task.original reference)
    | none => .ok ()
  removeFiles task.name

end Calls

/-! ## The root and the native system -/

/-- What was done, in order. -/
inductive Event where
  | applied (secret : Secret) (reply : Except Failure Unit)
  | located (secret : Secret) (subject : Option Subject)
  | removed (volume : String) (protector : Id)
  | acknowledged (n : Name) (escrow : Escrow)
  | produced (n : Name) (result : Result) (escrow : Option Escrow)

/-- The files under the root, whether the original has been retired or recovered from, and what was done. -/
structure World (Digest : Type) where
  states : Name → Option Record
  escrows : Name → Option Escrow
  acks : Name → Option Digest
  results : Name → Option Result
  accounts : AccountKey → Option Record
  retired : Bool
  begun : Bool
  log : List Event

section Worlds
variable {Digest : Type} {α : Type} (digest : Escrow → Digest)

def World.append (s : World Digest) (event : Event) : World Digest := { s with log := s.log ++ [event] }

def reads (s : World Digest) (value : α) (reply : Except Error α) (t : World Digest) : Prop :=
  t = s ∧ ∀ read, reply = .ok read → read = value

def writes (s after : World Digest) (reply : Except Error Unit) (t : World Digest) : Prop :=
  t = after ∨ (t = s ∧ reply ≠ .ok ())

def performs (s : World Digest) : (c : Call Digest) → Except Error (Out c) → World Digest → Prop
  | .validate, _, t => t = s
  | .readState n, reply, t => reads s (s.states n) reply t
  | .writeState n record, reply, t => writes s { s with states := Function.update s.states n (some record) } reply t
  | .removeState n, reply, t => writes s { s with states := Function.update s.states n none } reply t
  | .readEscrow n, reply, t => reads s (s.escrows n) reply t
  | .writeEscrow n escrow, reply, t => writes s { s with escrows := Function.update s.escrows n (some escrow) } reply t
  | .removeEscrow n, reply, t => writes s { s with escrows := Function.update s.escrows n none } reply t
  | .awaitAck n expected, reply, t => t = s ∧ (reply = .ok () → s.acks n = some expected)
  | .removeAck n, reply, t => writes s { s with acks := Function.update s.acks n none } reply t
  | .readResult n, reply, t => reads s (s.results n) reply t
  | .writeResult n result, reply, t => writes s { s with results := Function.update s.results n (some result) } reply t
  | .removeResult n, reply, t => writes s { s with results := Function.update s.results n none } reply t
  | .readAccount key, reply, t => reads s (s.accounts key) reply t
  | .writeAccount key record, reply, t => writes s { s with accounts := Function.update s.accounts key (some record) } reply t
  | .bitlocker _ _, reply, t => t = s ∧ ∃ outcome, reply = .ok outcome
  | .password, _, t => t = s
  | .protect task secret, reply, t => reads s (⟨task, secret⟩ : Sealed) reply t
  | .unprotect box, reply, t => reads s box reply t
  | .encrypt subject secret, reply, t => t = s ∧ ∀ envelope, reply = .ok envelope → ∃ nonce, envelope = ⟨subject, secret, nonce⟩
  | .apply _ secret, reply, t => ∃ outcome, reply = .ok outcome ∧ t = s.append (.applied secret outcome)
  | .locate _ secret, reply, t =>
    (∃ failure, reply = .ok (.error failure) ∧ t = s) ∨
      ∃ subject, reply = .ok (.ok subject) ∧ t = s.append (.located secret subject)
  | .remove volume protector, reply, t => ∃ outcome, reply = .ok outcome ∧ t = s.append (.removed volume protector)
  | .output n result, reply, t => t = s.append (.produced n result (s.escrows n)) ∨ (t = s ∧ reply ≠ .ok ())

def Recovers (original task : Task) : Prop :=
  ∃ reference, task.recovery = some reference ∧ task.original reference = original.name ∧ task.name ≠ original.name

def Concerns (original task : Task) : Prop := task = original ∨ Recovers original task

inductive Interferes (original : Task) (s : World Digest) : World Digest → Prop where
  | acknowledge (n : Name) (escrow : Escrow) :
      Interferes original s (World.append { s with acks := Function.update s.acks n (some (digest escrow)) } (.acknowledged n escrow))
  | turnedAway {task : Task} (concerns : Concerns original task) (failure : Failure) :
      Interferes original s (s.append (.produced task.name (unknownOf task failure (s.escrows task.name)) (s.escrows task.name)))

def machine (original : Task) : Machine (Fallible Error (@Out Digest)) (World Digest) := ⟨performs, Interferes digest original⟩

inductive Job where
  | run (task : Task)
  | retire (task : Task)

/-- The original does not start again once it was retired or recovered from. -/
inductive Starts (original : Task) (s : World Digest) : Job → World Digest → Program (Fallible Error (@Out Digest)) Unit → Prop where
  | original (kept : s.retired = false) (alone : s.begun = false) :
      Starts original s (.run original) s (Program.bind (result digest original) fun _ => .done ())
  | recovery {task : Task} (recovers : Recovers original task) :
      Starts original s (.run task) { s with begun := true } (Program.bind (result digest task) fun _ => .done ())
  | retire : Starts original s (.retire original) { s with retired := true } (Program.bind (retire original) fun _ => .done ())
  | retireRecovery {task : Task} (recovers : Recovers original task) :
      Starts original s (.retire task) s (Program.bind (retire task) fun _ => .done ())

end Worlds

end RssMdmAgent.CredentialRotation
