import RssMdmAgent.CredentialRuns
import RssMdmAgent.RecoveryMaterial

set_option autoImplicit false

/-! # The rotation of the recovery secret of a login -/

namespace RssMdmAgent.LoginRotation
open CrashPrograms CredentialRotation
open AccessRecords (Wire Digests Protector TableScan CredentialReceipt CredentialSubject CredentialOperation CredentialTaskSpec)

/-! ## What the store is asked about -/

def credentialSubject : Subject → CredentialSubject
  | .rssLogin binding generation sid => .rssLogin binding generation sid
  | .bitlocker .. => .foreign 0
  | .localAdministrator _ => .foreign 1

def credentialOperation : Operation → CredentialOperation
  | .rotateRssLogin binding generation sid => .rotateRssLogin binding generation sid
  | .verifyRssLogin binding generation sid => .verifyRssLogin binding generation sid
  | .rotateBitlocker .. => .foreign 0
  | .rotateLocalAdministrator _ => .foreign 1
  | .verifyBitlocker .. => .foreign 2
  | .verifyLocalAdministrator _ => .foreign 3
  | .collectBitlocker => .foreign 4

def spec (task : Task) : CredentialTaskSpec where
  tenantId := task.tenant
  deviceId := task.device
  registrationId := task.registration
  generation := task.generation
  permit := task.permit
  operation := credentialOperation task.operation

def rotatesLogin : Operation → Bool
  | .rotateRssLogin .. => true
  | _ => false

/-! ## Calls -/

section Calls
variable {Digest : Type}

inductive LoginCall (Digest : Type) where
  | validate
  | readState (n : Name)
  | writeState (n : Name) (record : Record)
  | removeState (n : Name)
  | readEscrow (n : Name)
  | writeEscrow (n : Name) (escrow : Escrow)
  | removeEscrow (n : Name)
  | awaitAck (n : Name) (digest : Digest)
  | removeAck (n : Name)
  | readReceipts (n : Name)
  | removeReceipts (n : Name)
  | readResult (n : Name)
  | writeResult (n : Name) (result : Result)
  | removeResult (n : Name)
  | random
  | protect (task : Task) (secret : Secret)
  | unprotect (box : Sealed)
  | encrypt (subject : Subject) (secret : Secret)
  | recoveryMaterial (task : Task) (subject : Subject)
  | rotateRecovery (task : Task) (subject : Subject) (secret : Secret) (receipt : CredentialReceipt)
  | verifyRecoveryMaterial (task : Task) (subject : Subject) (secret : Secret) (receipt : CredentialReceipt)
  | output (n : Name) (result : Result)

def Reply : LoginCall Digest → Type
  | .readState _ => Option Record
  | .readEscrow _ => Option Escrow
  | .readReceipts _ => Option (List CredentialReceipt)
  | .readResult _ => Option Result
  | .random => Secret
  | .protect .. | .unprotect _ => Sealed
  | .encrypt .. => Envelope
  | .recoveryMaterial .. => Secret × CredentialReceipt
  | .verifyRecoveryMaterial .. => Bool
  | _ => Unit

abbrev Login (Digest : Type) (α : Type) := Work Error (@Reply Digest) α

abbrev request (c : LoginCall Digest) : Login Digest (Reply c) := ask c

/-! ## The worker -/

def failureWithMaterials (task : Task) (failure : Failure) : Login Digest Result := do
  let escrow ← request (.readEscrow task.name)
  if escrow.any (·.definition ≠ task.definition) then .fail .untrusted
  else .ok (unknownOf task failure escrow)

def openRecord (record : Record) : Login Digest Secret := do
  let box ← request (.unprotect record.box)
  if box.task ≠ record.task then .fail .untrusted else .ok box.secret

def proves (task : Task) (subject : Subject) (secret : Secret) (receipt : CredentialReceipt) : Login Digest Bool :=
  request (.verifyRecoveryMaterial task subject secret receipt)

structure Material where
  record : Record
  secret : Secret
  recovery : Option RecoveryOutcome

/-- The material of the original, unless the recovery ends here. -/
def recovered (task : Task) (subject : Subject) (reference : Id × Id) : Login Digest (Except Result Material) := do
  let stored ← request (.readState (task.original reference))
  match stored with
  | none => .fail .storage
  | some record =>
    if record.task.taskId ≠ reference.1 ∨ record.task.attemptId ≠ reference.2 ∨ task.bound record.task = false ∨
        record.subject ≠ some subject ∨ rotatesLogin record.task.operation = false then .fail .untrusted
    else if record.phase = .prepared then .ok (.error ⟨task.definition, some .notAttempted, none, true, []⟩)
    else do
      let secret ← openRecord record
      let receipts ← request (.readReceipts record.task.name)
      match receipts with
      | none => .fail .storage
      | some [receipt] => do
        let proven ← proves task subject secret receipt
        if proven then .ok (.ok ⟨record, secret, some .applied⟩)
        else do
          let unknown ← failureWithMaterials task .recoveryState
          .ok (.error unknown)
      | some _ => do
        let unknown ← failureWithMaterials task .recoveryState
        .ok (.error unknown)

def verified (task : Task) (subject : Subject) : Login Digest Material := do
  let (secret, _) ← request (.recoveryMaterial task subject)
  let box ← request (.protect task secret)
  .ok ⟨⟨task, .finished, box, some subject⟩, secret, none⟩

/-- The material of a rotation is allocated once, while the association is still there. -/
def allocated (task : Task) (subject : Subject) : Login Digest Material := do
  let stored ← request (.readState task.name)
  match stored with
  | some current =>
    if current.task ≠ task ∨ current.subject ≠ some subject then .fail .untrusted
    else do
      let secret ← openRecord current
      .ok ⟨current, secret, none⟩
  | none => do
    let _ ← request (.recoveryMaterial task subject)
    let secret ← request .random
    let box ← request (.protect task secret)
    request (.writeState task.name ⟨task, .prepared, box, some subject⟩)
    let secret ← openRecord ⟨task, .prepared, box, some subject⟩
    .ok ⟨⟨task, .prepared, box, some subject⟩, secret, none⟩

variable (digest : Escrow → Digest)

def escrowFor (task : Task) (subject : Subject) (secret : Secret) : Login Digest Escrow := do
  let stored ← request (.readEscrow task.name)
  match stored with
  | some value =>
    if value.definition ≠ task.definition ∨ value.materials.map (·.subject) ≠ [subject] then .fail .untrusted
    else .ok value
  | none => do
    let envelope ← request (.encrypt subject secret)
    request (.writeEscrow task.name ⟨task.definition, [envelope]⟩)
    if [envelope.subject] ≠ [subject] then .fail .untrusted
    else .ok ⟨task.definition, [envelope]⟩

def install (task : Task) (subject : Subject) (material : Material) (receipt : CredentialReceipt) : Login Digest Unit :=
  if rotatesLogin task.operation then do
    request (.writeState task.name { material.record with phase := .issued })
    request (.rotateRecovery task subject material.secret receipt)
  else .ok ()

/-- The material is escrowed and acknowledged before it is installed, and the store is asked about it after that. -/
def commit (task : Task) (subject : Subject) (material : Material) : Login Digest Result := do
  let escrow ← escrowFor task subject material.secret
  request (.awaitAck task.name (digest escrow))
  let receipts ← request (.readReceipts task.name)
  match receipts with
  | none => .fail .storage
  | some [receipt] =>
    if receipt.subject ≠ credentialSubject subject then .fail .untrusted
    else do
      install task subject material receipt
      let proven ← proves task subject material.secret receipt
      if proven then do
        request (.writeState material.record.task.name
          { material.record with phase := .finished })
        .ok ⟨task.definition, material.recovery, none, true, [⟨subject, .verified⟩]⟩
      else failureWithMaterials task .recoveryState
  | some _ => .fail .untrusted

def executeLogin (task : Task) (subject : Subject) : Login Digest Result :=
  match task.recovery with
  | some reference => do
    let material ← recovered task subject reference
    match material with
    | .error result => .ok result
    | .ok material => commit digest task subject material
  | none => do
    let material ← if rotatesLogin task.operation then allocated task subject else verified task subject
    commit digest task subject material

/-- The operations on other credentials do not recover the rotation of a login. -/
def executeInner (task : Task) : Login Digest Result :=
  match task.operation.login, task.recovery with
  | some subject, _ => executeLogin digest task subject
  | none, some reference => do
    let stored ← request (.readState (task.original reference))
    match stored with
    | none => .ok (failed task .recoveryState)
    | some _ => .fail .untrusted
  | none, none => .fail .unsupported

def execute (task : Task) : Login Digest Result := do
  request .validate
  let stored ← request (.readResult task.name)
  match stored with
  | some result => if result.definition ≠ task.definition then .fail .untrusted else .ok result
  | none =>
    let result ← executeInner digest task
    let escrow ← request (.readEscrow task.name)
    request (.writeResult task.name (withPending result escrow))
    .ok (withPending result escrow)

def result (task : Task) : Login Digest Unit :=
  (execute digest task).settle fun
    | .ok result => request (.output task.name result)
    | .error error => do
      let result ← failureWithMaterials task (if error = .unavailable then .nativeFailure else .recoveryState)
      request (.output task.name result)

/-! ## Retirement -/

def storedResult (task : Task) : Login Digest (Option Result) := do
  let stored ← request (.readResult task.name)
  match stored with
  | none => .ok none
  | some value =>
    request .validate
    if value.definition ≠ task.definition then .fail .untrusted else .ok (some value)

def removeFiles (n : Name) (receipts : Bool) : Login Digest Unit := do
  request (.removeEscrow n)
  request (.removeAck n)
  if receipts then request (.removeReceipts n) else .ok ()
  request (.removeResult n)

/-- An uncertain rotation keeps its record and its receipts for a recovery. -/
def retire (task : Task) : Login Digest Unit := do
  let stored ← storedResult task
  if succeeded stored || hadNoEffect stored then
    request (.removeState task.name)
    match task.recovery with
    | some reference =>
      if succeeded stored then
        request (.removeState (task.original reference))
        removeFiles (task.original reference) true
    | none => .ok ()
  removeFiles task.name (succeeded stored || hadNoEffect stored || !rotatesLogin task.operation)

end Calls

/-! ## The root and the store -/

/-- What was done, in order. -/
inductive LoginEvent where
  | offered (n : Name) (escrow : Escrow)
  | acknowledged (n : Name) (escrow : Escrow) (receipts : List CredentialReceipt)
  | rotated (secret : Secret) (receipt : CredentialReceipt)
  | frozen (n : Name) (result : Result)
  | produced (n : Name) (result : Result)

structure LoginWorld (Digest : Type) where
  states : Name → Option Record
  escrows : Name → Option Escrow
  acks : Name → Option Digest
  receipts : Name → Option (List CredentialReceipt)
  results : Name → Option Result
  store : AccessStore.Store
  retired : Bool
  begun : Bool
  log : List LoginEvent

section Worlds
variable [Wire] [Digests] [Protector] {Digest : Type} (digest : Escrow → Digest)

omit [Wire] [Digests] [Protector] in
def LoginWorld.append (s : LoginWorld Digest) (event : LoginEvent) : LoginWorld Digest := { s with log := s.log ++ [event] }

omit [Wire] [Digests] [Protector] in
/-- A read can fail, and changes nothing. -/
def tells {α : Type} (s : LoginWorld Digest) (fact : α → Prop) (reply : Except Error α) (t : LoginWorld Digest) : Prop :=
  t = s ∧ ∀ value, reply = .ok value → fact value

omit [Wire] [Digests] [Protector] in
/-- A write that fails may have been done. -/
def changes (s after : LoginWorld Digest) (reply : Except Error Unit) (t : LoginWorld Digest) : Prop :=
  t = after ∨ (t = s ∧ reply ≠ .ok ())

def rotates (s : LoginWorld Digest) (task : Task) (subject : Subject) (secret : Secret) (receipt : CredentialReceipt)
    (reply : Except Error Unit) (t : LoginWorld Digest) : Prop :=
  (∃ nonce store, AccessStore.rotateRecovery s.store (spec task) (credentialSubject subject) secret receipt nonce = .ok store ∧
    t = LoginWorld.append { s with store := store } (.rotated secret receipt)) ∨ (t = s ∧ reply ≠ .ok ())

def serves (s : LoginWorld Digest) : (c : LoginCall Digest) → Except Error (Reply c) → LoginWorld Digest → Prop
  | .validate, _, t => t = s
  | .readState n, reply, t => tells s (· = s.states n) reply t
  | .writeState n record, reply, t => changes s { s with states := Function.update s.states n (some record) } reply t
  | .removeState n, reply, t => changes s { s with states := Function.update s.states n none } reply t
  | .readEscrow n, reply, t => tells s (· = s.escrows n) reply t
  | .writeEscrow n escrow, reply, t => changes s { s with escrows := Function.update s.escrows n (some escrow) } reply t
  | .removeEscrow n, reply, t => changes s { s with escrows := Function.update s.escrows n none } reply t
  | .awaitAck n expected, reply, t => t = s ∧ (reply = .ok () → s.acks n = some expected)
  | .removeAck n, reply, t => changes s { s with acks := Function.update s.acks n none } reply t
  | .readReceipts n, reply, t => tells s (· = s.receipts n) reply t
  | .removeReceipts n, reply, t => changes s { s with receipts := Function.update s.receipts n none } reply t
  | .readResult n, reply, t => tells s (· = s.results n) reply t
  | .writeResult n result, reply, t =>
    changes s (LoginWorld.append { s with results := Function.update s.results n (some result) } (.frozen n result)) reply t
  | .removeResult n, reply, t => changes s { s with results := Function.update s.results n none } reply t
  | .random, _, t => t = s
  | .protect task secret, reply, t => tells s (· = (⟨task, secret⟩ : Sealed)) reply t
  | .unprotect box, reply, t => tells s (· = box) reply t
  | .encrypt subject secret, reply, t => tells s (fun envelope : Envelope => ∃ nonce, envelope = ⟨subject, secret, nonce⟩) reply t
  | .recoveryMaterial task subject, reply, t =>
    tells s (fun value => AccessStore.recoveryMaterial s.store (spec task) (credentialSubject subject) = .ok value) reply t
  | .rotateRecovery task subject secret receipt, reply, t => rotates s task subject secret receipt reply t
  | .verifyRecoveryMaterial task subject secret receipt, reply, t =>
    tells s (fun value => RecoveryMaterial.verifyRecoveryMaterial s.store (spec task) (credentialSubject subject) secret receipt = .ok value)
      reply t
  | .output n result, reply, t => changes s (s.append (.produced n result)) reply t

def Received (log : List LoginEvent) (secret : Secret) (receipt : CredentialReceipt) : Prop :=
  ∃ n escrow receipts, .acknowledged n escrow receipts ∈ log ∧ receipt ∈ receipts ∧ ∃ m ∈ escrow.materials, m.secret = secret

def Admissible (log : List LoginEvent) (store : AccessStore.Store) : AccessSteps.Call → Prop
  | .activate _ _ _ operation facts _ _ => ∀ plain, AccessStore.candidate store operation = .ok plain → Received log plain.recovery facts.recovery
  | .rotateRecovery _ _ recovery receipt _ => Received log recovery receipt
  | _ => True

variable [TableScan]

/-- The service offers a pending escrow to the server and keeps its receipts and its acknowledgement; others call the store;
a worker that finds the root locked reports what it may have escrowed. -/
inductive Disturbs (original : Task) (s : LoginWorld Digest) : LoginWorld Digest → Prop where
  | offer {n : Name} {escrow : Escrow} (pending : s.escrows n = some escrow) : Disturbs original s (s.append (.offered n escrow))
  | acknowledge {n : Name} {escrow : Escrow} (receipts : List CredentialReceipt)
      (offered : Named original n → .offered n escrow ∈ s.log) : Disturbs original s (s.append (.acknowledged n escrow receipts))
  | receive {n : Name} {escrow : Escrow} {receipts : List CredentialReceipt} (known : .acknowledged n escrow receipts ∈ s.log) :
      Disturbs original s { s with receipts := Function.update s.receipts n (some receipts) }
  | confirm {n : Name} {escrow : Escrow} {receipts : List CredentialReceipt} (known : .acknowledged n escrow receipts ∈ s.log) :
      Disturbs original s { s with acks := Function.update s.acks n (some (digest escrow)) }
  | store {c : AccessSteps.Call} {reply : AccessSteps.Reply} {store : AccessStore.Store}
      (performed : AccessSteps.perform s.store c = (reply, store)) (admissible : Admissible s.log s.store c) :
      Disturbs original s { s with store := store }
  | turnedAway {task : Task} (concerns : Concerns original task) (failure : Failure) :
      Disturbs original s (s.append (.produced task.name (unknownOf task failure (s.escrows task.name))))

def loginMachine (original : Task) : Machine (Fallible Error (@Reply Digest)) (LoginWorld Digest) := ⟨serves, Disturbs digest original⟩

omit [Wire] [Digests] [Protector] [TableScan] in
/-- The original does not start again once it was retired or recovered from. -/
inductive LoginStarts (original : Task) (s : LoginWorld Digest) :
    Job → LoginWorld Digest → Program (Fallible Error (@Reply Digest)) Unit → Prop where
  | original (kept : s.retired = false) (alone : s.begun = false) :
      LoginStarts original s (.run original) s (Program.bind (result digest original) fun _ => .done ())
  | recovery {task : Task} (recovers : Recovers original task) :
      LoginStarts original s (.run task) { s with begun := true } (Program.bind (result digest task) fun _ => .done ())
  | retire : LoginStarts original s (.retire original) { s with retired := true } (Program.bind (retire original) fun _ => .done ())
  | retireRecovery {task : Task} (recovers : Recovers original task) :
      LoginStarts original s (.retire task) s (Program.bind (retire task) fun _ => .done ())

end Worlds

end RssMdmAgent.LoginRotation
