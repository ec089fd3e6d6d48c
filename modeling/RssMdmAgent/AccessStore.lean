import RssMdmAgent.AccessRecords

set_option autoImplicit false

/-! # The store of offline device access -/

namespace RssMdmAgent.AccessStore
open OrderedRows AccessRecords

/-- The tables of one installation. -/
structure Store where
  registration : Option Current
  joinEpoch : Option (String × Int)
  revoked : Rows Revocation.binding
  candidates : Rows StagedCandidate.operation
  bindings : Rows Record.sid
  helloBindings : Rows HelloRecord.sid
  recoveryUses : Rows AccessRecoveryUse.operationId
  deriving DecidableEq

def create : Store := ⟨none, none, .empty, .empty, .empty, .empty, .empty⟩

/-! ## Tables -/

section Tables
variable [Wire] (s : Store)

/-- A body over the limit is not selected at all, an invalid one is an error. -/
def load (sid : String) : Except AccessError (Option Record) :=
  match s.bindings.get sid with
  | none => .ok none
  | some record =>
    if 32768 < record.size then .ok none
    else if record.valid sid then .ok (some record)
    else .error .invalid

def save (record : Record) : Store := { s with bindings := s.bindings.set record }

def loadHello (sid : String) : Except AccessError (Option HelloRecord) :=
  match s.helloBindings.get sid with
  | none => .ok none
  | some record => if 16384 < record.size ∨ record.valid sid = false then .error .invalid else .ok (some record)

def saveHello (record : HelloRecord) : Except AccessError Store := do
  refuse (16384 < record.size) .invalid
  return { s with helloBindings := s.helloBindings.set record }

omit [Wire] in
def current : Except AccessError (Option Current) :=
  match s.registration with
  | none => .ok none
  | some value => if 4096 < value.size ∨ value.registration.valid = false then .error .invalid else .ok (some value)

def present {α : Type} (row : Option α) (error : AccessError) : Except AccessError α :=
  match row with
  | some value => .ok value
  | none => .error error

/-! ## The fence of the registration -/

omit [Wire] in
def require (authority : Authority) : Except AccessError Unit := do
  let value ← present (← current s) .changed
  refuse (value.retired = true ∨ value.registration ≠ authority.registration) .changed

omit [Wire] in
/-- A revoked binding never goes back to a lower generation or revision. -/
def recordRevocation (authority : Authority) (revision : Int) : Except AccessError Store := do
  refuse ((s.revoked.get authority.binding).any fun previous =>
    authority.bindingGeneration < previous.generation ||
      (previous.generation = authority.bindingGeneration && revision < previous.revision)) .changed
  return { s with revoked := s.revoked.set ⟨authority.binding, authority.bindingGeneration, revision⟩ }

omit [Wire] in
def admitAuthority (authority : Authority) : Except AccessError Unit := do
  require s authority
  refuse ((s.revoked.get authority.binding).any fun previous =>
    authority.bindingGeneration ≤ previous.generation) .changed

def requireRss (sid : String) : Except AccessError Unit := do
  let hello ← loadHello s sid
  refuse ((hello.any fun record => !record.cleanupComplete) = true) .changed

/-- The authority of an active binding of the current registration. -/
def authority (sid : String) : Except AccessError (Option Authority) := do
  match ← load s sid with
  | none => return none
  | some record =>
    if record.enabled && !record.revoked then do
      require s record.authority
      return some record.authority
    else return none

def facts (authority : Authority) : Except AccessError AccessRssFacts := do
  let record ← present (← load s authority.sid) .changed
  refuse (record.revoked = true ∨ record.authority ≠ authority) .changed
  return record.facts

end Tables

/-! ## Candidates -/

section Candidates
variable [Digests] [Protector] (s : Store)

/-- An operation keeps its first candidate. -/
def stage (operation : Uuid) (candidate : Candidate) (nonce : Nat) : Except AccessError Store := do
  refuse (operation = 0) .invalid
  let confirmedStep ← present candidate.confirmedStep .invalid
  let body ← Protector.sealBytes nonce
    (Protector.candidateBytes ⟨candidate.secret, candidate.recovery, confirmedStep⟩)
  refuse (s.candidates.has operation = true) .storage
  return { s with candidates := s.candidates.set ⟨operation, body⟩ }

omit [Digests] in
/-- The plain candidate of an operation. -/
def openCandidate (operation : Uuid) : Except AccessError SealedCandidate := do
  let row ← present ((s.candidates.get operation).filter fun row => row.body.length ≤ 16384) .storage
  let bytes ← Protector.openBytes row.body
  let plain ← present (Protector.candidateOf bytes) .invalid
  refuse (plain.secret.length ≠ 20 ∨ validRecovery plain.recovery = false) .invalid
  return plain

/-- The step that a code confirms, and the store after it. -/
def reconfirm (operation : Uuid) (code : String) (clock : Clock) (nonce : Nat) :
    Except AccessError (Option Int × Store) := do
  refuse (clock.valid = false) .invalid
  let plain ← openCandidate s operation
  match matchingStep plain.secret code clock.utc (-1) with
  | none => return (none, s)
  | some step => do
    let body ← Protector.sealBytes nonce
      (Protector.candidateBytes { plain with confirmedStep := max plain.confirmedStep step })
    return (some step, { s with candidates := s.candidates.set ⟨operation, body⟩ })

omit [Digests] in
def candidate (operation : Uuid) : Except AccessError SealedCandidate := do
  let plain ← openCandidate s operation
  refuse (plain.confirmedStep < 0) .invalid
  return plain

end Candidates

def retireCandidate (s : Store) (operation : Uuid) : Store :=
  { s with candidates := ⟨s.candidates.entries.filter fun row => row.operation ≠ operation,
      s.candidates.distinct.sublist (List.filter_sublist.map _)⟩ }

/-! ## Recovery material -/

section Recovery
variable [Wire] [Digests] [Protector] (s : Store)

def rotates (operation : CredentialOperation) (binding : Uuid) (generation : Int)
    (sid : String) : Bool :=
  operation = .rotateRssLogin binding generation sid

def reads (operation : CredentialOperation) (binding : Uuid) (generation : Int)
    (sid : String) : Bool :=
  operation = .rotateRssLogin binding generation sid || operation = .verifyRssLogin binding generation sid

def belongs (authority : Authority) (task : CredentialTaskSpec) (binding : Uuid) (generation : Int) : Bool :=
  authority.tenant = task.tenantId && authority.device = task.deviceId &&
  authority.registrationId = task.registrationId && authority.registrationGeneration = task.generation &&
  authority.binding = binding && authority.bindingGeneration = generation

/-- Only the recovery material changes, and only to a later version. -/
def rotateRecovery (task : CredentialTaskSpec) (subject : CredentialSubject) (recovery : String)
    (receipt : CredentialReceipt) (nonce : Nat) : Except AccessError Store := do
  refuse (Wire.credentialTaskValid task = false) .invalid
  refuse (Wire.receiptValid receipt = false) .invalid
  refuse (task.permit ≠ .start ∨ receipt.subject ≠ subject ∨ validRecovery recovery = false) .invalid
  match subject with
  | .foreign _ => .error .invalid
  | .rssLogin binding generation sid => do
    let record ← present (← load s sid) .changed
    admitAuthority s record.authority
    requireRss s record.authority.sid
    refuse (record.revoked = true) .changed
    refuse (belongs record.authority task binding generation = false) .changed
    refuse (rotates task.operation binding generation sid = false) .invalid
    if record.facts.recovery = receipt then do
      refuse (constantEqual record.recoveryHash (recoveryHash record.authority recovery) = false) .changed
      return s
    else do
      refuse (receipt.material ≠ record.facts.recovery.material ∨
        receipt.version ≤ record.facts.recovery.version) .changed
      let body ← Protector.sealBytes nonce recovery.toUTF8.toList
      return save s { record with
        recoveryHash := recoveryHash record.authority recovery
        recoverySecret := body
        facts := { record.facts with recovery := receipt } }

/-- The recovery secret of a live binding, for a task that names it. -/
def recoveryMaterial (task : CredentialTaskSpec) (subject : CredentialSubject) :
    Except AccessError (String × CredentialReceipt) := do
  refuse (Wire.credentialTaskValid task = false) .invalid
  match subject with
  | .foreign _ => .error .invalid
  | .rssLogin binding generation sid => do
    refuse (task.permit ≠ .start ∨ reads task.operation binding generation sid = false) .invalid
    let record ← present (← load s sid) .changed
    admitAuthority s record.authority
    refuse (record.revoked = true) .changed
    refuse (belongs record.authority task binding generation = false) .changed
    let bytes ← Protector.openBytes record.recoverySecret
    let secret ← present (String.fromUTF8? ⟨bytes.toArray⟩) .invalid
    refuse (validRecovery secret = false ∨
      constantEqual record.recoveryHash (recoveryHash record.authority secret) = false) .invalid
    return (secret, record.facts.recovery)

end Recovery

/-! ## Activation and configuration -/

section Activation
variable [Wire] [Digests] [Protector] (s : Store)

def isReplay (old record : Record) : Bool :=
  old.authority = record.authority && old.facts = record.facts && old.revision = record.revision &&
  old.enabled = record.enabled

/-- A live record is only replaced by a later one of the same binding. -/
def mayReplace (old record : Record) : Bool :=
  old.authority.tenant = record.authority.tenant && old.authority.instanceId = record.authority.instanceId &&
  old.authority.principal = record.authority.principal && old.authority.source = record.authority.source &&
  old.authority.join = record.authority.join && old.authority.registrationId = record.authority.registrationId &&
  old.authority.registrationGeneration = record.authority.registrationGeneration &&
  old.authority.binding = record.authority.binding &&
  old.authority.bindingGeneration ≤ record.authority.bindingGeneration &&
  old.authority.factorGeneration < record.authority.factorGeneration && old.revision < record.revision

/-- A new factor cannot erase the failure budget of the account or its clock floor. -/
def inherit (old record : Record) (clock : Clock) : Record :=
  { record with
    failures := old.failures
    lockSeconds := old.lockSeconds
    lockUntil := if old.boot = clock.boot then old.lockUntil
      else min (clock.monotonic + old.lockSeconds) (2 ^ 64 - 1)
    utc := max old.utc clock.utc }

/-- The record of a candidate before the one that it replaces is looked at. -/
def freshRecord (authority : Authority) (revision : Int) (enabled : Bool) (plain : SealedCandidate)
    (secret recoverySecret : Bytes) (facts : AccessRssFacts) (clock : Clock) : Record where
  authority := authority
  revision := revision
  enabled := enabled
  revoked := false
  secret := secret
  recoveryHash := recoveryHash authority plain.recovery
  recoverySecret := recoverySecret
  facts := facts
  consumedStep := plain.confirmedStep
  failures := 0
  lockSeconds := 0
  boot := clock.boot
  monotonic := clock.monotonic
  utc := clock.utc
  lockUntil := 0

/-- What an activation writes over a stored record, unless it is a replay. -/
def replaceRecord (old : Option Record) (record : Record) (clock : Clock) : Except AccessError (Option Record) :=
  match old with
  | none => .ok (some record)
  | some old =>
    if isReplay old record then .ok none
    else do
      refuse (old.revoked = false ∧ mayReplace old record = false) .changed
      refuse (old.authority.binding = record.authority.binding ∧
        record.authority.factorGeneration ≤ old.authority.factorGeneration) .changed
      refuse (old.boot = clock.boot ∧ clock.monotonic < old.monotonic) .changed
      return some (inherit old record clock)

/-- The record that an activation writes; none for a replay. -/
def activation (authority : Authority) (revision : Int) (enabled : Bool) (operation : Uuid)
    (facts : AccessRssFacts) (clock : Clock) (nonce : Nat) : Except AccessError (Option Record) := do
  refuse (authority.valid = false) .invalid
  refuse (clock.valid = false) .invalid
  refuse (revision < 1 ∨ authority.accepts facts = false) .invalid
  let plain ← candidate s operation
  let secret ← Protector.sealBytes nonce plain.secret
  let recoverySecret ← Protector.sealBytes (nonce + 1) plain.recovery.toUTF8.toList
  admitAuthority s authority
  replaceRecord (← load s authority.sid)
    (freshRecord authority revision enabled plain secret recoverySecret facts clock) clock

/-- Revision and switch of a live record. -/
def configure (authority : Authority) (revision : Int) (enabled : Bool) (facts : AccessRssFacts) :
    Except AccessError Store := do
  let record ← present (← load s authority.sid) .changed
  admitAuthority s authority
  refuse (record.revoked = true ∨ record.authority ≠ authority ∨ record.facts ≠ facts ∨
    revision < record.revision) .changed
  return save s { record with
    revision := revision
    enabled := enabled }

def closed (record : Record) (revision : Int) : Record :=
  { record with
    revision := revision
    enabled := false
    revoked := true }

def revoke (authority : Authority) (revision : Int) : Except AccessError Store := do
  refuse (authority.valid = false) .invalid
  refuse (revision < 1) .invalid
  require s authority
  match ← load s authority.sid with
  | none => recordRevocation s authority revision
  | some record => do
    refuse (record.authority ≠ authority ∨ revision < record.revision ∨
      (record.revision = revision ∧ record.revoked = false)) .changed
    recordRevocation (save s (closed record revision)) authority revision

end Activation

/-! ## Verification -/

section Verification
variable [Wire] [Digests] [Protector] (s : Store)

def monotonicOk (record : Record) (clock : Clock) : Bool :=
  record.boot ≠ clock.boot || record.monotonic ≤ clock.monotonic

def deadline (record : Record) (clock : Clock) : Nat :=
  if record.boot = clock.boot then record.lockUntil
  else min (clock.monotonic + record.lockSeconds) (2 ^ 64 - 1)

def rollback (record : Record) (clock : Clock) : Bool :=
  clock.utc < record.utc || !monotonicOk record clock

/-- Whether a factor is accepted, and the step that is consumed then. -/
def checkFactor (record : Record) (factor : Factor) (clock : Clock) : Except AccessError (Bool × Int) :=
  match factor with
  | .totp code =>
    if rollback record clock then .ok (false, record.consumedStep)
    else do
      let secret ← Protector.openBytes record.secret
      refuse (secret.length ≠ 20) .invalid
      match matchingStep secret code clock.utc record.consumedStep with
      | some step => return (true, step)
      | none => return (false, record.consumedStep)
  | .recovery code =>
    .ok (validRecovery code && constantEqual record.recoveryHash (recoveryHash record.authority code),
      record.consumedStep)

def lockLength (failures : Nat) : Nat := min (30 * 2 ^ min (failures - 5) 4) 300

/-- One more failure, with a delay from the fifth on. -/
def punished (record : Record) (clock : Clock) : Record :=
  let failures := min (record.failures + 1) (2 ^ 32 - 1)
  if 5 ≤ failures then
    { record with
      failures := failures
      lockSeconds := lockLength failures
      lockUntil := min (clock.monotonic + lockLength failures) (2 ^ 64 - 1) }
  else { record with failures := failures }

def stamped (record : Record) (clock : Clock) : Record :=
  { record with
    utc := max record.utc clock.utc
    monotonic := if monotonicOk record clock then clock.monotonic else record.monotonic
    boot := clock.boot }

/-- The decision about a factor, and the record before its clock is stamped. -/
def judge (record : Record) (factor : Factor) (clock : Clock) : Except AccessError (Decision × Record) :=
  let record := { record with lockUntil := deadline record clock }
  if monotonicOk record clock = false ∨ clock.monotonic < record.lockUntil then .ok (.locked, record)
  else do
    let (accepted, consumedStep) ← checkFactor record factor clock
    let record := { record with
      lockSeconds := 0
      consumedStep := consumedStep }
    if accepted then
      return (.accepted, { record with
        failures := 0
        lockUntil := 0 })
    else return (if rollback record clock then .clockRollback else .denied, punished record clock)

/-- What a judged factor writes. An accepted recovery secret leaves one use. -/
def settle (record : Record) (factor : Factor) (clock : Clock) (useId : Uuid) (decision : Decision)
    (judged : Record) : Except AccessError Store := do
  if decision = .accepted && factor.isRecovery then do
    refuse (s.recoveryUses.has useId = true) .storage
    let use : AccessRecoveryUse :=
      ⟨useId, record.facts.recovery.material, record.facts.recovery.version, clock.utc⟩
    return save { s with recoveryUses := s.recoveryUses.set use } (stamped judged clock)
  else return save s (stamped judged clock)

def verify (expected : Authority) (factor : Factor) (clock : Clock) (useId : Uuid) :
    Except AccessError (Decision × Store) := do
  refuse (expected.valid = false) .invalid
  refuse (clock.valid = false) .invalid
  match ← load s expected.sid with
  | none => return (.disabled, s)
  | some record => do
    require s record.authority
    if record.revoked || !record.enabled then return (.disabled, s)
    else do
      refuse (record.authority ≠ expected) .changed
      let (decision, judged) ← judge record factor clock
      let next ← settle s record factor clock useId decision judged
      return (decision, next)

end Verification

def acknowledgeRecoveryUse (s : Store) (operation : Uuid) : Store :=
  { s with recoveryUses := ⟨s.recoveryUses.entries.filter fun use => use.operationId ≠ operation,
      s.recoveryUses.distinct.sublist (List.filter_sublist.map _)⟩ }

/-! ## Retirement -/

section Retirement
variable [Wire] (s : Store)

def retireHelloRow (s : Store) (sid : String) : Except AccessError Store := do
  let value ← present (← loadHello s sid) .invalid
  let s ← recordRevocation s value.authority value.revision
  saveHello s { value with
    retired := true
    enabled := false }

def retireRow (cloudOnly : Bool) (s : Store) (sid : String) : Except AccessError Store := do
  let record ← present (← load s sid) .changed
  if cloudOnly && !record.authority.source.isEntra then return s
  else do
    let s ← recordRevocation s record.authority record.revision
    return save s (closed record record.revision)

variable [TableScan]

def helloSids : List String := TableScan.order (s.helloBindings.entries.map HelloRecord.sid)

def sids : List String := TableScan.order (s.bindings.entries.map Record.sid)

def retireAll : Except AccessError Store := (helloSids s).foldlM retireHelloRow s

def retireRecords (cloudOnly : Bool) : Except AccessError Store := do
  let s ← retireAll s
  (sids s).foldlM (retireRow cloudOnly) s

/-- A changed join retires the cloud accounts before a new session is accepted. -/
def observeJoin (fingerprint : String) (now : Int) : Except AccessError (Int × Store) := do
  refuse (isPlain 512 fingerprint = false ∨ now ≤ 0) .invalid
  match s.joinEpoch with
  | none => return (now, { s with joinEpoch := some (fingerprint, now) })
  | some (same, observed) => do
    refuse (observed ≤ 0 ∨ now < observed) .invalid
    if same = fingerprint then return (observed, s)
    else do
      let s ← retireRecords s true
      return (now, { s with joinEpoch := some (fingerprint, now) })

/-- A registration is only followed by a later one of the same device. -/
def bindRegistration (registration : Registration) : Except AccessError Store := do
  refuse (registration.valid = false) .invalid
  match ← current s with
  | none => return { s with registration := some ⟨registration, false⟩ }
  | some old =>
    if old.registration = registration then do
      refuse (old.retired = true) .changed
      return s
    else do
      refuse (old.registration.tenant ≠ registration.tenant ∨ old.registration.device ≠ registration.device ∨
        registration.generation ≤ old.registration.generation) .changed
      let s ← retireRecords s false
      return { s with registration := some ⟨registration, false⟩ }

def retireRegistration : Except AccessError Store := do
  match ← current s with
  | none => return s
  | some value => do
    let s ← retireRecords s false
    return { s with registration := some { value with retired := true } }

end Retirement

/-! ## Tasks that close or carry native credentials -/

section Tasks
variable [Wire] (s : Store)

def unbound : AccessAction → Option (String × WindowsAuthority)
  | .unbind (.windows sid authority) => some (sid, authority)
  | _ => none

/-- A signed removal closes a binding even if it was never set up. -/
def revokeTask (task : AccessTaskSpec) : Except AccessError Store := do
  refuse (Wire.accessTaskValid task = false) .invalid
  let (sid, source) ← present (unbound task.action) .invalid
  requireRss s sid
  refuse (task.permit ≠ .start) .invalid
  let value ← present (← current s) .changed
  refuse (value.retired = true ∨ value.registration ≠ task.registration) .changed
  refuse ((s.revoked.get task.bindingId).any fun previous =>
    task.bindingGeneration < previous.generation ||
      (previous.generation = task.bindingGeneration && task.revision < previous.revision)) .changed
  let row : Revocation := ⟨task.bindingId, task.bindingGeneration, task.revision⟩
  match ← load s sid with
  | none => return { s with revoked := s.revoked.set row }
  | some record => do
    refuse (record.authority.registration ≠ value.registration ∨ record.authority.instanceId ≠ task.instanceId ∨
      record.authority.principal ≠ task.principalId ∨ record.authority.source ≠ source ∨
      record.authority.binding ≠ task.bindingId ∨ task.bindingGeneration < record.authority.bindingGeneration ∨
      task.revision < record.revision ∨ (record.revision = task.revision ∧ record.revoked = false)) .changed
    let s := save s (closed record task.revision)
    return { s with revoked := s.revoked.set row }

def helloSwitch (task : AccessTaskSpec) (authority : Authority) : Except AccessError Bool :=
  match task.action with
  | .apply account enabled => if account = .windows authority.sid authority.source then .ok enabled else .error .invalid
  | .unbind account => if account = .windows authority.sid authority.source then .ok false else .error .invalid
  | .foreign _ => .error .invalid

def helloPlan : Option AccessWindowsPlan → Option (Bool × Option Uuid)
  | some (.whfb retire previousKey) => some (retire, previousKey)
  | _ => none

def issuedFor (task : AccessTaskSpec) (authority : Authority) : Bool :=
  task.permit = .start && authority.tenant = task.tenantId && authority.device = task.deviceId &&
  authority.registrationId = task.registrationId && authority.registrationGeneration = task.generation &&
  authority.binding = task.bindingId && authority.bindingGeneration = task.bindingGeneration &&
  authority.factorGeneration = task.factorGeneration && authority.instanceId = task.instanceId &&
  authority.principal = task.principalId

/-- A Hello record is followed by a later task of its binding, or by another binding once it is cleaned up. -/
def mayFollow (old : HelloRecord) (task : AccessTaskSpec) (authority : Authority) (retire : Bool) : Bool :=
  if old.authority.registration = authority.registration ∧ old.authority.binding = authority.binding then
    old.authority.instanceId = authority.instanceId && old.authority.principal = authority.principal &&
    old.authority.source = authority.source && old.authority.join = authority.join &&
    old.authority.bindingGeneration ≤ authority.bindingGeneration &&
    old.authority.factorGeneration ≤ authority.factorGeneration && old.revision ≤ task.revision &&
    !(old.revision = task.revision && old.definitionDigest ≠ task.definitionDigest) &&
    !(old.retired && !retire && authority.bindingGeneration ≤ old.authority.bindingGeneration)
  else old.cleanupComplete

def replacementKey (old : Option HelloRecord) (authority : Authority) : Option Uuid :=
  old.bind fun old =>
    if old.authority.binding ≠ authority.binding ∨ old.authority.factorGeneration < authority.factorGeneration then
      old.lastKey.or old.replacementKey
    else old.replacementKey

def helloRecord (task : AccessTaskSpec) (authority : Authority) (enabled retire : Bool)
    (previousKey : Option Uuid) (old : Option HelloRecord) : HelloRecord where
  authority := authority
  revision := task.revision
  definitionDigest := task.definitionDigest
  enabled := enabled
  retired := retire
  previousKey := previousKey
  replacementKey := replacementKey old authority
  lastKey := old.bind (·.lastKey)
  policy := ((old.filter fun v => v.authority.source = authority.source &&
    v.authority.registration = authority.registration).map (·.policy)).getD .unmanaged
  observation := (old.filter fun v => v.revision = task.revision &&
    v.definitionDigest = task.definitionDigest).bind (·.observation)

def helloFence (authority : Authority) (retire : Bool) : Except AccessError Unit :=
  if retire then .ok () else admitAuthority s authority

def helloRevocation (value : HelloRecord) : Except AccessError Store :=
  if value.retired then recordRevocation s value.authority value.revision else .ok s

/-- Only the authenticated registration of the service lets a native task in. -/
def prepareHello (task : AccessTaskSpec) (authority : Authority) : Except AccessError (HelloRecord × Store) := do
  refuse (Wire.accessTaskValid task = false) .invalid
  refuse (authority.valid = false) .invalid
  let (retire, previousKey) ← present (helloPlan task.windows) .invalid
  refuse (issuedFor task authority = false) .changed
  let enabled ← helloSwitch task authority
  require s authority
  helloFence s authority retire
  let rss ← load s authority.sid
  refuse ((rss.any fun record => !record.revoked) = true) .changed
  let old ← loadHello s authority.sid
  refuse (old = none ∧ 128 ≤ s.helloBindings.entries.length) .invalid
  refuse ((old.any fun old => !mayFollow old task authority retire) = true) .changed
  let value := helloRecord task authority enabled retire previousKey old
  let s ← helloRevocation s value
  return (value, ← saveHello s value)

def sameHello (current expected : HelloRecord) : Bool :=
  current.authority = expected.authority && current.revision = expected.revision &&
  current.definitionDigest = expected.definitionDigest

/-- An authorized write is recorded before it takes any effect. -/
def beginHelloPolicy (expected : HelloRecord) (previous : Option Bool) :
    Except AccessError (HelloRecord × Store) := do
  require s expected.authority
  let value ← present (← loadHello s expected.authority.sid) .changed
  refuse (sameHello value expected = false ∨ value.policy.accepts previous = false) .changed
  match value.policy with
  | .writePending _ enabled =>
    if enabled = value.enabled then return (value, s)
    else
      let value := { value with policy := .writePending previous value.enabled }
      return (value, ← saveHello s value)
  | _ =>
    let value := { value with policy := .writePending previous value.enabled }
    return (value, ← saveHello s value)

def screened (value : HelloRecord) (facts : AccessWhfbFacts) : AccessWhfbFacts :=
  if value.retired = false ∧ facts.registration = .present ∧ value.rejectsKey facts.keyId = true then
    { facts with
      registration := .unknown
      hardwareKey := .unknown }
  else facts

def observationFence (value expected : HelloRecord) (retirementOnly : Bool) : Except AccessError Unit :=
  if retirementOnly then refuse (value.retired = false ∨ expected.retired = false) .changed
  else require s expected.authority

def recordHelloObservation (expected : HelloRecord) (facts : AccessWhfbFacts) (policyOwned retirementOnly : Bool) :
    Except AccessError (AccessWhfbFacts × Store) := do
  refuse (Wire.whfbValid facts expected.authority.sid expected.authority.source = false) .invalid
  refuse (facts.factorGeneration ≠ expected.authority.factorGeneration) .changed
  let value ← present (← loadHello s expected.authority.sid) .changed
  observationFence s value expected retirementOnly
  refuse (sameHello value expected = false ∨
    (value.observation.any fun old => facts.observedAt < old.observedAt) = true) .changed
  let facts := screened value facts
  refuse (policyOwned = true ∧ (value.policy = .unmanaged ∨
    facts.policy ≠ if value.enabled then .present else .absent)) .changed
  let s ← saveHello s { value with
    lastKey := if retirementOnly = false ∧ facts.registration = .present then facts.keyId else value.lastKey
    policy := if policyOwned then .owned value.enabled else value.policy
    observation := some facts }
  return (facts, s)

end Tasks

end RssMdmAgent.AccessStore
