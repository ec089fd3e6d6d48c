import RssMdmAgent.OrderedRows
import RssMdmAgent.ContractPlan

set_option autoImplicit false

/-! # Records of offline device access -/

namespace RssMdmAgent.AccessRecords
open OrderedRows
open ContractPlan (bind_ok)

abbrev Uuid := Nat

abbrev Bytes := List UInt8

inductive AccessError where
  | storage
  | invalid
  | changed
  deriving DecidableEq, Repr

def refuse (bad : Prop) [Decidable bad] (error : AccessError) : Except AccessError Unit :=
  if bad then .error error else .ok ()

@[simp] theorem refuse_ok {bad : Prop} [Decidable bad] {error : AccessError} {u : Unit} :
    refuse bad error = .ok u ↔ ¬bad := by
  unfold refuse
  split <;> simp_all

/-! ## Clocks and authorities -/

structure Clock where
  utc : Int
  monotonic : Nat
  boot : Uuid
  deriving DecidableEq, Repr

def Clock.valid (clock : Clock) : Bool :=
  !(clock.utc ≤ 0 || 2 ^ 63 - 1 < clock.monotonic || clock.boot = 0)

inductive WindowsAuthority where
  | machine
  | activeDirectory (domainSid : String)
  | entra (tenantId objectId : Uuid)
  deriving DecidableEq, Repr

def WindowsAuthority.isEntra : WindowsAuthority → Bool
  | .entra .. => true
  | _ => false

structure Registration where
  tenant : Uuid
  device : String
  id : Uuid
  generation : Nat
  deriving DecidableEq, Repr

structure Authority where
  instanceId : Uuid
  principal : Uuid
  source : WindowsAuthority
  login : String
  join : String
  tenant : Uuid
  device : String
  registrationId : Uuid
  registrationGeneration : Nat
  binding : Uuid
  bindingGeneration : Int
  factorGeneration : Int
  sid : String
  deriving DecidableEq, Repr

def Authority.registration (authority : Authority) : Registration where
  tenant := authority.tenant
  device := authority.device
  id := authority.registrationId
  generation := authority.registrationGeneration

inductive CredentialSubject where
  | rssLogin (binding : Uuid) (bindingGeneration : Int) (sid : String)
  | foreign (kind : Nat)
  deriving DecidableEq, Repr

structure CredentialReceipt where
  subject : CredentialSubject
  material : Uuid
  version : Int
  deriving DecidableEq, Repr

structure AccessRssFacts where
  factorGeneration : Int
  recovery : CredentialReceipt
  deriving DecidableEq, Repr

/-! ## Tasks of the service -/

inductive TaskPermit where
  | start
  | foreign (kind : Nat)
  deriving DecidableEq, Repr

inductive CredentialOperation where
  | rotateRssLogin (binding : Uuid) (bindingGeneration : Int) (sid : String)
  | verifyRssLogin (binding : Uuid) (bindingGeneration : Int) (sid : String)
  | foreign (kind : Nat)
  deriving DecidableEq, Repr

structure CredentialTaskSpec where
  tenantId : Uuid
  deviceId : String
  registrationId : Uuid
  generation : Nat
  permit : TaskPermit
  operation : CredentialOperation
  deriving DecidableEq, Repr

inductive AccessAccount where
  | windows (sid : String) (authority : WindowsAuthority)
  | foreign (kind : Nat)
  deriving DecidableEq, Repr

inductive AccessAction where
  | apply (account : AccessAccount) (enabled : Bool)
  | unbind (account : AccessAccount)
  | foreign (kind : Nat)
  deriving DecidableEq, Repr

inductive AccessWindowsPlan where
  | whfb (retire : Bool) (previousKey : Option Uuid)
  | foreign (kind : Nat)
  deriving DecidableEq, Repr

structure AccessTaskSpec where
  tenantId : Uuid
  deviceId : String
  registrationId : Uuid
  generation : Nat
  permit : TaskPermit
  bindingId : Uuid
  instanceId : Uuid
  principalId : Uuid
  bindingGeneration : Int
  factorGeneration : Int
  revision : Int
  definitionDigest : Bytes
  action : AccessAction
  windows : Option AccessWindowsPlan
  deriving DecidableEq, Repr

def AccessTaskSpec.registration (task : AccessTaskSpec) : Registration where
  tenant := task.tenantId
  device := task.deviceId
  id := task.registrationId
  generation := task.generation

/-! ## Rows of the store -/

structure Candidate where
  secret : Bytes
  recovery : String
  confirmedStep : Option Int
  deriving DecidableEq, Repr

structure SealedCandidate where
  secret : Bytes
  recovery : String
  confirmedStep : Int
  deriving DecidableEq, Repr

/-- The factors of one account and its failure budget. -/
structure Record where
  authority : Authority
  revision : Int
  enabled : Bool
  revoked : Bool
  secret : Bytes
  recoveryHash : Bytes
  recoverySecret : Bytes
  facts : AccessRssFacts
  consumedStep : Int
  failures : Nat
  lockSeconds : Nat
  boot : Uuid
  monotonic : Nat
  utc : Int
  lockUntil : Nat
  deriving DecidableEq, Repr

def Record.sid (record : Record) : String := record.authority.sid

inductive Decision where
  | accepted
  | denied
  | locked
  | clockRollback
  | disabled
  deriving DecidableEq, Repr

inductive Factor where
  | totp (code : String)
  | recovery (code : String)
  deriving DecidableEq, Repr

def Factor.isRecovery : Factor → Bool
  | .recovery _ => true
  | .totp _ => false

structure AccessRecoveryUse where
  operationId : Uuid
  material : Uuid
  version : Int
  usedAt : Int
  deriving DecidableEq, Repr

inductive AccessObservation where
  | present
  | absent
  | unknown
  deriving DecidableEq, Repr

structure AccessWhfbFacts where
  factorGeneration : Int
  tenantId : Uuid
  objectId : Uuid
  policy : AccessObservation
  registration : AccessObservation
  hardwareKey : AccessObservation
  keyId : Option Uuid
  observedAt : Int
  deriving DecidableEq, Repr

inductive HelloPolicy where
  | unmanaged
  | writePending (previous : Option Bool) (enabled : Bool)
  | owned (enabled : Bool)
  deriving DecidableEq, Repr

def HelloPolicy.accepts (policy : HelloPolicy) (actual : Option Bool) : Bool :=
  match policy with
  | .unmanaged => actual.isNone
  | .writePending previous enabled => actual = previous || actual = some enabled
  | .owned enabled => actual = some enabled

structure HelloRecord where
  authority : Authority
  revision : Int
  definitionDigest : Bytes
  enabled : Bool
  retired : Bool
  previousKey : Option Uuid
  lastKey : Option Uuid
  policy : HelloPolicy
  replacementKey : Option Uuid
  observation : Option AccessWhfbFacts
  deriving DecidableEq, Repr

def HelloRecord.sid (record : HelloRecord) : String := record.authority.sid

def HelloRecord.rejectsKey (record : HelloRecord) (key : Option Uuid) : Bool :=
  key.isSome && (key = record.previousKey || key = record.replacementKey)

def HelloRecord.cleanupComplete (record : HelloRecord) : Bool :=
  record.retired && record.observation.any fun facts =>
    facts.policy = .absent && facts.registration = .absent

structure Current where
  registration : Registration
  retired : Bool
  deriving DecidableEq, Repr

structure Revocation where
  binding : Uuid
  generation : Int
  revision : Int
  deriving DecidableEq, Repr

structure StagedCandidate where
  operation : Uuid
  body : Bytes
  deriving DecidableEq, Repr

/-! ## Code outside the repository -/

/-- Validation and encoding of the records that are shared with the service. -/
class Wire where
  accountValid : String → WindowsAuthority → Bool
  receiptValid : CredentialReceipt → Bool
  credentialTaskValid : CredentialTaskSpec → Bool
  accessTaskValid : AccessTaskSpec → Bool
  whfbValid : AccessWhfbFacts → String → WindowsAuthority → Bool
  /-- The encoded length of the parts that the service defines. -/
  sourceSize : WindowsAuthority → Nat
  factsSize : AccessRssFacts → Nat
  whfbSize : AccessWhfbFacts → Nat

/-- Keyed and plain digests, and the encoding of what is digested. -/
class Digests where
  hmacSha1 : Bytes → Bytes → Bytes
  hmacSha256 : Bytes → Bytes → Bytes
  sha256 : Bytes → Bytes
  sha256_length : ∀ message, (sha256 message).length = 32
  authorityBytes : Authority → Bytes

/-- The protection of secrets by the system; every sealing draws fresh randomness. -/
class Protector where
  sealBytes : Nat → Bytes → Except AccessError Bytes
  openBytes : Bytes → Except AccessError Bytes
  candidateBytes : SealedCandidate → Bytes
  candidateOf : Bytes → Option SealedCandidate

/-- What was sealed opens again. -/
class LawfulProtector [Protector] : Prop where
  open_seal : ∀ nonce plain body, Protector.sealBytes nonce plain = .ok body → Protector.openBytes body = .ok plain

/-- The order in which a query without an ordering visits the rows of a table. -/
class TableScan where
  order : List String → List String
  perm : ∀ keys, (order keys).Perm keys

/-! ## Encoded sizes -/

def stringSize (text : String) : Nat :=
  2 + (text.toList.map fun c =>
    if c = '"' ∨ c = '\\' then 2
    else if c.toNat < 32 then (if c.toNat ∈ [8, 9, 10, 12, 13] then 2 else 6)
    else c.utf8Size).sum

def natSize (n : Nat) : Nat := (Nat.toDigits 10 n).length

def intSize (n : Int) : Nat := if n < 0 then 1 + natSize n.natAbs else natSize n.natAbs

def boolSize (b : Bool) : Nat := if b then 4 else 5

def uuidSize : Nat := 38

def optionSize {α : Type} (size : α → Nat) : Option α → Nat
  | some value => size value
  | none => 4

def arraySize (sizes : List Nat) : Nat := if sizes.isEmpty then 2 else 1 + (sizes.map (· + 1)).sum

def bytesSize (bytes : Bytes) : Nat := arraySize (bytes.map fun b => natSize b.toNat)

def objectSize (members : List (Nat × Nat)) : Nat := arraySize (members.map fun m => m.1 + 3 + m.2)

section Sizes
variable [Wire]

def Authority.size (a : Authority) : Nat :=
  objectSize [(8, uuidSize), (9, uuidSize), (6, Wire.sourceSize a.source),
    (5, stringSize a.login), (4, stringSize a.join), (6, uuidSize),
    (6, stringSize a.device), (12, uuidSize),
    (23, natSize a.registrationGeneration), (7, uuidSize),
    (18, intSize a.bindingGeneration), (17, intSize a.factorGeneration),
    (3, stringSize a.sid)]

/-- The length of the body that is stored for an account. -/
def Record.size (r : Record) : Nat :=
  objectSize [(9, r.authority.size), (8, intSize r.revision), (7, boolSize r.enabled),
    (7, boolSize r.revoked), (6, bytesSize r.secret), (13, bytesSize r.recoveryHash),
    (15, bytesSize r.recoverySecret), (5, Wire.factsSize r.facts),
    (13, intSize r.consumedStep), (8, natSize r.failures),
    (12, natSize r.lockSeconds), (4, uuidSize), (9, natSize r.monotonic),
    (3, intSize r.utc), (10, natSize r.lockUntil)]

def HelloPolicy.size : HelloPolicy → Nat
  | .unmanaged => objectSize [(5, 11)]
  | .writePending previous enabled =>
    objectSize [(5, 15), (8, optionSize boolSize previous),
      (7, boolSize enabled)]
  | .owned enabled => objectSize [(5, 7), (7, boolSize enabled)]

def HelloRecord.size (r : HelloRecord) : Nat :=
  objectSize [(9, r.authority.size), (8, intSize r.revision),
    (17, bytesSize r.definitionDigest), (7, boolSize r.enabled),
    (7, boolSize r.retired), (12, optionSize (fun _ => uuidSize) r.previousKey),
    (8, optionSize (fun _ => uuidSize) r.lastKey), (6, r.policy.size),
    (15, optionSize (fun _ => uuidSize) r.replacementKey),
    (11, optionSize Wire.whfbSize r.observation)]

end Sizes

def Current.size (c : Current) : Nat :=
  objectSize [(12, objectSize [(6, uuidSize), (6, stringSize c.registration.device),
    (2, uuidSize), (10, natSize c.registration.generation)]), (7, boolSize c.retired)]

/-! ## Validity -/

def isControl (c : Char) : Bool := c.toNat < 32 || (127 ≤ c.toNat && c.toNat < 160)

def isPlain (limit : Nat) (text : String) : Bool :=
  !(text.isEmpty || limit < text.utf8ByteSize || text.toList.any isControl)

def Registration.valid (r : Registration) : Bool :=
  !(r.tenant = 0 || r.id = 0 || r.generation = 0 || 2 ^ 63 - 1 < r.generation) && isPlain 256 r.device

section Validity
variable [Wire]

def Authority.valid (a : Authority) : Bool :=
  Wire.accountValid a.sid a.source &&
  !(a.instanceId = 0 || a.principal = 0 || a.tenant = 0 || a.registrationId = 0 || a.binding = 0 ||
    a.registrationGeneration = 0 || a.bindingGeneration < 1 || a.factorGeneration < 1) &&
  isPlain 512 a.join && isPlain 512 a.login && isPlain 256 a.device

def Authority.accepts (a : Authority) (facts : AccessRssFacts) : Bool :=
  facts.factorGeneration = a.factorGeneration && Wire.receiptValid facts.recovery &&
  facts.recovery.subject = .rssLogin a.binding a.bindingGeneration a.sid

def Record.valid (r : Record) (sid : String) : Bool :=
  r.authority.valid && r.authority.sid = sid && r.authority.accepts r.facts &&
  !(r.revision < 1 || r.secret.isEmpty || 16384 < r.secret.length || r.recoveryHash.length ≠ 32 ||
    r.recoverySecret.isEmpty || 16384 < r.recoverySecret.length || r.consumedStep < 0 ||
    300 < r.lockSeconds || r.boot = 0 || r.utc < 1)

def HelloRecord.valid (r : HelloRecord) (sid : String) : Bool :=
  r.authority.valid &&
  !(r.authority.sid ≠ sid || r.revision < 1 || r.definitionDigest = List.replicate 32 0 ||
    !r.authority.source.isEntra) &&
  r.observation.all fun facts => Wire.whfbValid facts sid r.authority.source &&
    facts.factorGeneration = r.authority.factorGeneration

end Validity

/-! ## Codes -/

section Codes
variable [Digests]

def constantEqual (a b : Bytes) : Bool :=
  Digests.hmacSha256 b "rss-mdm/factor-compare/v1".toUTF8.toList =
    Digests.hmacSha256 a "rss-mdm/factor-compare/v1".toUTF8.toList

def recoveryHash (authority : Authority) (value : String) : Bytes :=
  Digests.sha256 ("rss-mdm/offline-recovery/v2\x00".toUTF8.toList ++ Digests.authorityBytes authority ++
    value.toUTF8.toList)

def bigEndian (bytes : Bytes) : Nat := bytes.foldl (fun value b => value * 256 + b.toNat) 0

def stepBytes (step : Int) : Bytes :=
  let n := (step % 2 ^ 64).toNat
  [7, 6, 5, 4, 3, 2, 1, 0].map fun k => UInt8.ofNat (n / 256 ^ k)

def otp (secret : Bytes) (step : Int) : String :=
  let tag := Digests.hmacSha1 secret (stepBytes step)
  let offset := (tag.getD 19 0).toNat % 16
  let binary := bigEndian ((tag.drop offset).take 4) % 2 ^ 31
  let digits := Nat.toDigits 10 (binary % 1000000)
  String.ofList (List.replicate (6 - digits.length) '0' ++ digits)

/-- The last step of the window that is not consumed and has this code. -/
def matchingStep (secret : Bytes) (code : String) (utc consumed : Int) : Option Int :=
  if code.utf8ByteSize ≠ 6 ∨ ¬code.toList.all Char.isDigit then none
  else
    let step := utc.tdiv 30
    [step - 1, step, step + 1].foldl (fun found candidate =>
      if 0 ≤ candidate ∧ consumed < candidate ∧
          constantEqual (otp secret candidate).toUTF8.toList code.toUTF8.toList then some candidate
      else found) none

end Codes

/-- The position of a character in the alphabet of recovery secrets. -/
def base64Digit (c : Char) : Option Nat :=
  if 'A' ≤ c ∧ c ≤ 'Z' then some (c.toNat - 65)
  else if 'a' ≤ c ∧ c ≤ 'z' then some (c.toNat - 71)
  else if '0' ≤ c ∧ c ≤ '9' then some (c.toNat + 4)
  else if c = '-' then some 62
  else if c = '_' then some 63
  else none

def validRecovery (value : String) : Bool :=
  value.utf8ByteSize = 43 && value.toList.all (fun c => (base64Digit c).isSome) &&
  ((value.toList.getLast?.bind base64Digit).any fun digit => digit % 4 = 0)

end RssMdmAgent.AccessRecords
