import RssMdmAgent.AccessStore
import RssMdmAgent.TransitionRuns

set_option autoImplicit false

/-! # The calls of one store and what each does to the record of an account -/

namespace RssMdmAgent.AccessSteps
open OrderedRows AccessRecords AccessStore TransitionRuns
open ContractPlan (bind_ok)

/-! ## Calls -/

inductive Call where
  | stage (operation : Uuid) (candidate : Candidate) (nonce : Nat)
  | reconfirm (operation : Uuid) (code : String) (clock : Clock) (nonce : Nat)
  | retireCandidate (operation : Uuid)
  | rotateRecovery (task : CredentialTaskSpec) (subject : CredentialSubject) (recovery : String)
      (receipt : CredentialReceipt) (nonce : Nat)
  | activate (authority : Authority) (revision : Int) (enabled : Bool) (operation : Uuid)
      (facts : AccessRssFacts) (clock : Clock) (nonce : Nat)
  | configure (authority : Authority) (revision : Int) (enabled : Bool) (facts : AccessRssFacts)
  | revoke (authority : Authority) (revision : Int)
  | verify (expected : Authority) (factor : Factor) (clock : Clock) (useId : Uuid)
  | acknowledgeRecoveryUse (operation : Uuid)
  | observeJoin (fingerprint : String) (now : Int)
  | revokeTask (task : AccessTaskSpec)
  | bindRegistration (registration : Registration)
  | retireRegistration
  | prepareHello (task : AccessTaskSpec) (authority : Authority)
  | beginHelloPolicy (expected : HelloRecord) (previous : Option Bool)
  | observeHello (expected : HelloRecord) (facts : AccessWhfbFacts) (policyOwned retirementOnly : Bool)
  | reopen
  deriving DecidableEq

def Call.clock : Call → Option Clock
  | .reconfirm _ _ clock _ | .activate _ _ _ _ _ clock _ | .verify _ _ clock _ => some clock
  | _ => none

/-- The answer of a call. The caller cannot tell a replayed activation from an applied one, nor one that was
committed and could not be read back from a failed one. -/
inductive Reply where
  | done
  | replayed
  | mismatch
  | decided (decision : Decision)
  | failed (error : AccessError)
  | unread (error : AccessError)
  deriving DecidableEq

section Machine
variable [Wire] [Digests] [Protector]

def answer (s : Store) : Except AccessError Store → Reply × Store
  | .ok t => (.done, t)
  | .error error => (.failed error, s)

def answerWith {α : Type} (s : Store) (result : Except AccessError (α × Store)) : Reply × Store :=
  answer s (result.map Prod.snd)

/-- An activation reads its facts back after the commit. -/
def activate (s : Store) (authority : Authority) (revision : Int) (enabled : Bool) (operation : Uuid)
    (given : AccessRssFacts) (clock : Clock) (nonce : Nat) : Reply × Store :=
  match activation s authority revision enabled operation given clock nonce with
  | .error error => (.failed error, s)
  | .ok none => (.replayed, s)
  | .ok (some record) =>
    match AccessStore.facts (save s record) record.authority with
    | .error error => (.unread error, save s record)
    | .ok actual => (if actual = record.facts then .done else .unread .storage, save s record)

variable [TableScan]

def perform (s : Store) : Call → Reply × Store
  | .stage operation candidate nonce => answer s (stage s operation candidate nonce)
  | .reconfirm operation code clock nonce =>
    match reconfirm s operation code clock nonce with
    | .ok (some _, t) => (.done, t)
    | .ok (none, t) => (.mismatch, t)
    | .error error => (.failed error, s)
  | .retireCandidate operation => (.done, retireCandidate s operation)
  | .rotateRecovery task subject recovery receipt nonce =>
    answer s (rotateRecovery s task subject recovery receipt nonce)
  | .activate authority revision enabled operation facts clock nonce =>
    activate s authority revision enabled operation facts clock nonce
  | .configure authority revision enabled facts => answer s (configure s authority revision enabled facts)
  | .revoke authority revision => answer s (revoke s authority revision)
  | .verify expected factor clock useId =>
    match verify s expected factor clock useId with
    | .ok (decision, t) => (.decided decision, t)
    | .error error => (.failed error, s)
  | .acknowledgeRecoveryUse operation => (.done, acknowledgeRecoveryUse s operation)
  | .observeJoin fingerprint now => answerWith s (observeJoin s fingerprint now)
  | .revokeTask task => answer s (revokeTask s task)
  | .bindRegistration registration => answer s (bindRegistration s registration)
  | .retireRegistration => answer s (retireRegistration s)
  | .prepareHello task authority => answerWith s (prepareHello s task authority)
  | .beginHelloPolicy expected previous => answerWith s (beginHelloPolicy s expected previous)
  | .observeHello expected facts policyOwned retirementOnly =>
    answerWith s (recordHelloObservation s expected facts policyOwned retirementOnly)
  | .reopen => (.done, s)

omit [Wire] [TableScan] in
/-- The secret and the time step that a call has confirmed or consumed. -/
def usedBy (s : Store) : Call → Reply → Option (Bytes × Int)
  | .stage _ candidate _, .done => candidate.confirmedStep.map (candidate.secret, ·)
  | .reconfirm operation code clock _, .done =>
    match openCandidate s operation with
    | .ok plain => (matchingStep plain.secret code clock.utc (-1)).map (plain.secret, ·)
    | .error _ => none
  | .verify expected (.totp code) clock _, .decided .accepted =>
    match (s.bindings.get expected.sid).map fun record => (Protector.openBytes record.secret, record.consumedStep) with
    | some (.ok secret, consumed) => (matchingStep secret code clock.utc consumed).map (secret, ·)
    | _ => none
  | _, _ => none

structure Entry where
  call : Call
  reply : Reply
  used : Option (Bytes × Int)
  deriving DecidableEq

inductive Step (s : Store) (e : Entry) : Store → Prop where
  | answered {t : Store} (performed : perform s e.call = (e.reply, t)) (used : e.used = usedBy s e.call e.reply) :
      Step s e t
  | interrupted (failed : e.reply = .failed .storage) (used : e.used = none) : Step s e s

def Reachable (entries : List Entry) (s : Store) : Prop := Runs Step create entries s

def entryOf (s : Store) (call : Call) : Entry := ⟨call, (perform s call).1, usedBy s call (perform s call).1⟩

def runCalls (s : Store) : List Call → List Entry × Store
  | [] => ([], s)
  | call :: rest => (entryOf s call :: (runCalls (perform s call).2 rest).1, (runCalls (perform s call).2 rest).2)

theorem entryOf_step (s : Store) (call : Call) : Step s (entryOf s call) (perform s call).2 := .answered rfl rfl

theorem runCalls_runs : ∀ (calls : List Call) (s : Store), Runs Step s (runCalls s calls).1 (runCalls s calls).2
  | [], _ => .refl
  | call :: rest, s => (Runs.one (entryOf_step s call)).trans (runCalls_runs rest (perform s call).2)

end Machine

/-! ## What the operations do -/

section Operations
variable [Wire] [Digests] [Protector] {s t : Store} {sid : String} {record : Record}

omit [Wire] [Digests] [Protector] in
theorem present_ok {α : Type} {row : Option α} {error : AccessError} {value : α} :
    present row error = .ok value ↔ row = some value := by
  cases row <;> simp [present]

omit [Wire] [Digests] [Protector] in
theorem bind_present {α β : Type} {query : Except AccessError (Option α)} {error : AccessError}
    {next : α → Except AccessError β} {value : β} :
    (query >>= fun row => present row error >>= next) = .ok value ↔
      ∃ a, query = .ok (some a) ∧ next a = .ok value := by
  rw [bind_ok]
  constructor
  · rintro ⟨row, found, h⟩
    obtain ⟨a, there, h'⟩ := bind_ok.mp h
    rw [present_ok.mp there] at found
    exact ⟨a, found, h'⟩
  · rintro ⟨a, found, h⟩
    exact ⟨some a, found, h⟩

omit [Digests] [Protector] in
theorem load_some : load s sid = .ok (some record) ↔
    s.bindings.get sid = some record ∧ record.size ≤ 32768 ∧ record.valid sid = true := by
  unfold load
  cases found : s.bindings.get sid with
  | none => simp
  | some row =>
    dsimp only
    constructor
    · intro h
      split at h
      · cases h
      · rename_i size
        split at h
        · rename_i valid
          cases h
          exact ⟨rfl, Nat.not_lt.mp size, valid⟩
        · cases h
    · rintro ⟨same, size, valid⟩
      cases same
      rw [if_neg (Nat.not_lt.mpr size), if_pos valid]

omit [Digests] [Protector] in
theorem load_sid (loaded : load s sid = .ok (some record)) : record.sid = sid :=
  Rows.get_key (load_some.mp loaded).1

omit [Digests] [Protector] in
theorem loadHello_some {value : HelloRecord} : loadHello s sid = .ok (some value) ↔
    s.helloBindings.get sid = some value ∧ value.size ≤ 16384 ∧ value.valid sid = true := by
  unfold loadHello
  cases found : s.helloBindings.get sid with
  | none => simp
  | some row =>
    dsimp only
    constructor
    · intro h
      split at h
      · cases h
      · rename_i good
        cases h
        rw [not_or, Nat.not_lt, Bool.not_eq_false] at good
        exact ⟨rfl, good⟩
    · rintro ⟨same, size, valid⟩
      cases same
      rw [if_neg (by simp [Nat.not_lt.mpr size, valid])]

omit [Wire] [Digests] [Protector] in
theorem recordRevocation_ok {authority : Authority} {revision : Int} :
    recordRevocation s authority revision = .ok t ↔
      (∀ previous, s.revoked.get authority.binding = some previous →
        ¬(authority.bindingGeneration < previous.generation ∨
          (previous.generation = authority.bindingGeneration ∧ revision < previous.revision))) ∧
      t = { s with revoked := s.revoked.set ⟨authority.binding, authority.bindingGeneration, revision⟩ } := by
  unfold recordRevocation
  rw [bind_ok]
  simp only [refuse_ok, Option.any_eq_true, Bool.or_eq_true, Bool.and_eq_true, decide_eq_true_eq, not_exists,
    not_and, pure, Except.pure, Except.ok.injEq, exists_const, eq_comm (b := t)]

omit [Digests] [Protector] in
theorem saveHello_ok {value : HelloRecord} : saveHello s value = .ok t ↔
    value.size ≤ 16384 ∧ t = { s with helloBindings := s.helloBindings.set value } := by
  unfold saveHello
  rw [bind_ok]
  simp only [refuse_ok, Nat.not_lt, pure, Except.pure, Except.ok.injEq, exists_const, eq_comm (b := t)]

theorem rotateRecovery_ok {task : CredentialTaskSpec} {subject : CredentialSubject} {recovery : String}
    {receipt : CredentialReceipt} {nonce : Nat} (h : rotateRecovery s task subject recovery receipt nonce = .ok t) :
    ∃ binding generation sid record, subject = .rssLogin binding generation sid ∧
      load s sid = .ok (some record) ∧ admitAuthority s record.authority = .ok () ∧ record.revoked = false ∧
      belongs record.authority task binding generation = true ∧
      (t = s ∨ (record.authority.accepts { record.facts with recovery := receipt } = true ∧
        ∃ body, t = save s { record with
          recoveryHash := recoveryHash record.authority recovery
          recoverySecret := body
          facts := { record.facts with recovery := receipt } })) := by
  unfold rotateRecovery at h
  obtain ⟨_, -, h⟩ := bind_ok.mp h
  obtain ⟨_, received, h⟩ := bind_ok.mp h
  obtain ⟨_, given, h⟩ := bind_ok.mp h
  rw [refuse_ok, Bool.not_eq_false] at received
  rw [refuse_ok, not_or, not_or, not_not, not_not] at given
  cases subject with
  | foreign => cases h
  | rssLogin binding generation sid =>
    obtain ⟨record, loaded, h⟩ := bind_present.mp h
    obtain ⟨_, fence, h⟩ := bind_ok.mp h
    obtain ⟨_, -, h⟩ := bind_ok.mp h
    obtain ⟨_, live, h⟩ := bind_ok.mp h
    obtain ⟨_, named, h⟩ := bind_ok.mp h
    obtain ⟨_, -, h⟩ := bind_ok.mp h
    rw [refuse_ok, Bool.not_eq_true] at live
    rw [refuse_ok, Bool.not_eq_false] at named
    refine ⟨binding, generation, sid, record, rfl, loaded, fence, live, named, ?_⟩
    split at h
    · obtain ⟨_, -, h⟩ := bind_ok.mp h
      cases h
      exact .inl rfl
    · obtain ⟨_, -, h⟩ := bind_ok.mp h
      obtain ⟨body, -, h⟩ := bind_ok.mp h
      cases h
      refine .inr ⟨?_, body, rfl⟩
      have accepted := (load_some.mp loaded).2.2
      have owner := load_sid loaded
      unfold Record.valid Authority.accepts at accepted
      unfold belongs at named
      unfold Authority.accepts
      simp only [Bool.and_eq_true, decide_eq_true_eq] at accepted named ⊢
      refine ⟨⟨accepted.1.2.1.1, received⟩, given.2.1.trans ?_⟩
      rw [named.1.2, named.2, ← owner]
      rfl

omit [Digests] [Protector] in
theorem configure_ok {authority : Authority} {revision : Int} {enabled : Bool} {given : AccessRssFacts}
    (h : configure s authority revision enabled given = .ok t) :
    ∃ record, load s authority.sid = .ok (some record) ∧ record.revoked = false ∧
      admitAuthority s record.authority = .ok () ∧ record.revision ≤ revision ∧ t = save s { record with
        revision := revision
        enabled := enabled } := by
  unfold configure at h
  obtain ⟨record, loaded, h⟩ := bind_present.mp h
  obtain ⟨_, fence, h⟩ := bind_ok.mp h
  obtain ⟨_, live, h⟩ := bind_ok.mp h
  cases h
  rw [refuse_ok, not_or, not_or, not_or, Bool.not_eq_true, not_not, Int.not_lt] at live
  exact ⟨record, loaded, live.1, live.2.1 ▸ fence, live.2.2.2, rfl⟩

omit [Digests] [Protector] in
theorem revoke_ok {authority : Authority} {revision : Int} (h : revoke s authority revision = .ok t) :
    1 ≤ revision ∧ ∃ s', recordRevocation s' authority revision = .ok t ∧
      ((load s authority.sid = .ok none ∧ s' = s) ∨
        ∃ record, load s authority.sid = .ok (some record) ∧ record.authority = authority ∧
          s' = save s (closed record revision)) := by
  unfold revoke at h
  obtain ⟨_, -, h⟩ := bind_ok.mp h
  obtain ⟨_, positive, h⟩ := bind_ok.mp h
  obtain ⟨_, -, h⟩ := bind_ok.mp h
  obtain ⟨row, loaded, h⟩ := bind_ok.mp h
  rw [refuse_ok, Int.not_lt] at positive
  refine ⟨positive, ?_⟩
  cases row with
  | none => exact ⟨s, h, .inl ⟨loaded, rfl⟩⟩
  | some record =>
    obtain ⟨_, same, h⟩ := bind_ok.mp h
    rw [refuse_ok, not_or, not_not] at same
    exact ⟨_, h, .inr ⟨record, loaded, same.1, rfl⟩⟩

omit [Digests] [Protector] in
theorem revokeTask_ok {task : AccessTaskSpec} (h : revokeTask s task = .ok t) :
    ∃ sid source s', unbound task.action = some (sid, source) ∧
      (∀ previous, s.revoked.get task.bindingId = some previous →
        ¬(task.bindingGeneration < previous.generation ∨
          (previous.generation = task.bindingGeneration ∧ task.revision < previous.revision))) ∧
      t = { s' with revoked := s.revoked.set ⟨task.bindingId, task.bindingGeneration, task.revision⟩ } ∧
      ((load s sid = .ok none ∧ s' = s) ∨
        ∃ record, load s sid = .ok (some record) ∧ record.authority.binding = task.bindingId ∧
          record.authority.bindingGeneration ≤ task.bindingGeneration ∧ record.revision ≤ task.revision ∧
          s' = save s (closed record task.revision)) := by
  unfold revokeTask at h
  obtain ⟨_, -, h⟩ := bind_ok.mp h
  obtain ⟨⟨sid, source⟩, named, h⟩ := bind_ok.mp h
  obtain ⟨_, -, h⟩ := bind_ok.mp h
  obtain ⟨_, -, h⟩ := bind_ok.mp h
  obtain ⟨_, -, h⟩ := bind_ok.mp h
  obtain ⟨_, -, h⟩ := bind_ok.mp h
  obtain ⟨_, -, h⟩ := bind_ok.mp h
  obtain ⟨_, ahead, h⟩ := bind_ok.mp h
  obtain ⟨row, loaded, h⟩ := bind_ok.mp h
  simp only [refuse_ok, Option.any_eq_true, Bool.or_eq_true, Bool.and_eq_true, decide_eq_true_eq, not_exists,
    not_and] at ahead
  cases row with
  | none =>
    cases h
    exact ⟨sid, source, s, present_ok.mp named, ahead, rfl, .inl ⟨loaded, rfl⟩⟩
  | some record =>
    obtain ⟨_, same, h⟩ := bind_ok.mp h
    cases h
    simp only [refuse_ok, not_or, not_not, Int.not_lt] at same
    obtain ⟨-, -, -, -, binding, generation, revision, -⟩ := same
    exact ⟨sid, source, _, present_ok.mp named, ahead, rfl, .inr ⟨record, loaded, binding, generation, revision, rfl⟩⟩

theorem verify_ok {expected : Authority} {factor : Factor} {clock : Clock} {useId : Uuid} {decision : Decision}
    (h : verify s expected factor clock useId = .ok (decision, t)) :
    (decision = .disabled ∧ t = s) ∨
      ∃ record judged, clock.valid = true ∧ load s expected.sid = .ok (some record) ∧
        require s record.authority = .ok () ∧ record.revoked = false ∧ record.enabled = true ∧
        record.authority = expected ∧ judge record factor clock = .ok (decision, judged) ∧
        settle s record factor clock useId decision judged = .ok t := by
  unfold verify at h
  obtain ⟨_, -, h⟩ := bind_ok.mp h
  obtain ⟨_, timed, h⟩ := bind_ok.mp h
  obtain ⟨row, loaded, h⟩ := bind_ok.mp h
  cases row with
  | none =>
    cases h
    exact .inl ⟨rfl, rfl⟩
  | some record =>
    obtain ⟨_, fence, h⟩ := bind_ok.mp h
    split at h
    · cases h
      exact .inl ⟨rfl, rfl⟩
    · rename_i live
      obtain ⟨_, same, h⟩ := bind_ok.mp h
      obtain ⟨⟨decided, judged⟩, judgement, h⟩ := bind_ok.mp h
      obtain ⟨next, settled, h⟩ := bind_ok.mp h
      cases h
      rw [refuse_ok, not_not] at same
      rw [refuse_ok, Bool.not_eq_false] at timed
      rw [Bool.or_eq_true, not_or, Bool.not_eq_true, Bool.not_eq_true', Bool.not_eq_false] at live
      exact .inr ⟨record, judged, timed, loaded, fence, live.1, live.2, same, judgement, settled⟩

omit [Wire] in
theorem judge_kept {factor : Factor} {clock : Clock} {decision : Decision} {judged : Record}
    (h : judge record factor clock = .ok (decision, judged)) : judged.authority = record.authority ∧
      judged.enabled = record.enabled ∧ judged.revoked = record.revoked := by
  unfold judge at h
  dsimp only at h
  split at h
  · cases h
    exact ⟨rfl, rfl, rfl⟩
  · obtain ⟨⟨accepted, consumed⟩, -, h⟩ := bind_ok.mp h
    dsimp only at h
    split at h
    · cases h
      exact ⟨rfl, rfl, rfl⟩
    · cases h
      unfold punished
      dsimp only
      split <;> exact ⟨rfl, rfl, rfl⟩

omit [Wire] in
theorem judge_sid {factor : Factor} {clock : Clock} {decision : Decision} {judged : Record}
    (h : judge record factor clock = .ok (decision, judged)) : judged.sid = record.sid :=
  congrArg Authority.sid (judge_kept h).1

omit [Wire] in
theorem judge_decision {factor : Factor} {clock : Clock} {decision : Decision} {judged : Record}
    (h : judge record factor clock = .ok (decision, judged)) : decision ≠ .disabled := by
  unfold judge at h
  dsimp only at h
  split at h
  · cases h
    nofun
  · obtain ⟨⟨accepted, consumed⟩, -, h⟩ := bind_ok.mp h
    dsimp only at h
    split at h
    · cases h
      nofun
    · cases h
      split <;> nofun

omit [Digests] [Protector] [Wire] in
theorem settle_ok {factor : Factor} {clock : Clock} {useId : Uuid} {decision : Decision} {judged : Record}
    (h : settle s record factor clock useId decision judged = .ok t) :
    ∃ uses, t = save { s with recoveryUses := uses } (stamped judged clock) ∧
      (((decision = .accepted ∧ factor.isRecovery = true) ∧ s.recoveryUses.has useId = false ∧
          uses = s.recoveryUses.set ⟨useId, record.facts.recovery.material, record.facts.recovery.version, clock.utc⟩) ∨
        (¬(decision = .accepted ∧ factor.isRecovery = true) ∧ uses = s.recoveryUses)) := by
  unfold settle at h
  simp only [Bool.and_eq_true, decide_eq_true_eq] at h
  split at h
  · rename_i accepted
    obtain ⟨_, fresh, h⟩ := bind_ok.mp h
    cases h
    rw [refuse_ok, Bool.not_eq_true] at fresh
    exact ⟨_, rfl, .inl ⟨accepted, fresh, rfl⟩⟩
  · rename_i other
    cases h
    exact ⟨_, rfl, .inr ⟨other, rfl⟩⟩

theorem activation_ok {authority : Authority} {revision : Int} {enabled : Bool} {operation : Uuid}
    {given : AccessRssFacts} {clock : Clock} {nonce : Nat} {next : Option Record}
    (h : activation s authority revision enabled operation given clock nonce = .ok next) :
    ∃ plain secret recoverySecret old, authority.valid = true ∧ clock.valid = true ∧ 1 ≤ revision ∧
      authority.accepts given = true ∧ candidate s operation = .ok plain ∧
      Protector.sealBytes nonce plain.secret = .ok secret ∧
      Protector.sealBytes (nonce + 1) plain.recovery.toUTF8.toList = .ok recoverySecret ∧
      admitAuthority s authority = .ok () ∧ load s authority.sid = .ok old ∧
      replaceRecord old (freshRecord authority revision enabled plain secret recoverySecret given clock) clock =
        .ok next := by
  unfold activation at h
  obtain ⟨_, valid, h⟩ := bind_ok.mp h
  obtain ⟨_, timed, h⟩ := bind_ok.mp h
  obtain ⟨_, given', h⟩ := bind_ok.mp h
  obtain ⟨plain, opened, h⟩ := bind_ok.mp h
  obtain ⟨secret, sealed, h⟩ := bind_ok.mp h
  obtain ⟨recoverySecret, kept, h⟩ := bind_ok.mp h
  obtain ⟨_, fence, h⟩ := bind_ok.mp h
  obtain ⟨old, loaded, h⟩ := bind_ok.mp h
  rw [refuse_ok, Bool.not_eq_false] at valid timed
  rw [refuse_ok, not_or, Int.not_lt, Bool.not_eq_false] at given'
  exact ⟨plain, secret, recoverySecret, old, valid, timed, given'.1, given'.2, opened, sealed, kept, fence, loaded, h⟩

omit [Wire] [Digests] [Protector] in
theorem replaceRecord_some {old : Option Record} {clock : Clock} {next : Record}
    (h : replaceRecord old record clock = .ok (some next)) :
    (old = none ∧ next = record) ∨ ∃ before, old = some before ∧ next = inherit before record clock ∧
      (before.revoked = true ∨ mayReplace before record = true) ∧
      ¬(before.boot = clock.boot ∧ clock.monotonic < before.monotonic) := by
  unfold replaceRecord at h
  cases old with
  | none =>
    cases h
    exact .inl ⟨rfl, rfl⟩
  | some before =>
    dsimp only at h
    split at h
    · cases h
    · obtain ⟨_, later, h⟩ := bind_ok.mp h
      obtain ⟨_, -, h⟩ := bind_ok.mp h
      obtain ⟨_, timed, h⟩ := bind_ok.mp h
      cases h
      rw [refuse_ok, not_and_or, Bool.not_eq_false, Bool.not_eq_false] at later
      rw [refuse_ok] at timed
      exact .inr ⟨before, rfl, rfl, later, timed⟩

theorem activation_authority {authority : Authority} {revision : Int} {enabled : Bool} {operation : Uuid}
    {given : AccessRssFacts} {clock : Clock} {nonce : Nat} {next : Record}
    (h : activation s authority revision enabled operation given clock nonce = .ok (some next)) :
    next.authority = authority := by
  obtain ⟨plain, secret, recoverySecret, old, -, -, -, -, -, -, -, -, -, h⟩ := activation_ok h
  rcases replaceRecord_some h with ⟨-, rfl⟩ | ⟨before, -, rfl, -⟩ <;> rfl

omit [Wire] in
theorem reconfirm_candidates {operation : Uuid} {code : String} {clock : Clock} {nonce : Nat} {step : Option Int}
    (h : reconfirm s operation code clock nonce = .ok (step, t)) : ∃ rows, t = { s with candidates := rows } := by
  unfold reconfirm at h
  obtain ⟨_, -, h⟩ := bind_ok.mp h
  obtain ⟨plain, -, h⟩ := bind_ok.mp h
  split at h
  · cases h
    exact ⟨_, rfl⟩
  · obtain ⟨body, -, h⟩ := bind_ok.mp h
    cases h
    exact ⟨_, rfl⟩

end Operations

/-! ## Retirement of all records -/

def retiredHello (value : HelloRecord) : HelloRecord :=
  { value with
    retired := true
    enabled := false }

/-- Retirement closes records and raises the fence; nothing else changes. -/
structure Retires (s t : Store) : Prop where
  registration : t.registration = s.registration
  joinEpoch : t.joinEpoch = s.joinEpoch
  candidates : t.candidates = s.candidates
  recoveryUses : t.recoveryUses = s.recoveryUses
  bindings : ∀ sid, t.bindings.get sid = s.bindings.get sid ∨
    ∃ record, s.bindings.get sid = some record ∧ t.bindings.get sid = some (closed record record.revision)
  hello : ∀ sid, t.helloBindings.get sid = s.helloBindings.get sid ∨
    ∃ value, s.helloBindings.get sid = some value ∧ t.helloBindings.get sid = some (retiredHello value)
  revoked : ∀ binding row, s.revoked.get binding = some row →
    ∃ later, t.revoked.get binding = some later ∧ row.generation ≤ later.generation

theorem Retires.refl (s : Store) : Retires s s :=
  ⟨rfl, rfl, rfl, rfl, fun _ => .inl rfl, fun _ => .inl rfl, fun _ row found => ⟨row, found, Int.le_refl _⟩⟩

theorem Retires.trans {s t u : Store} (first : Retires s t) (second : Retires t u) : Retires s u where
  registration := second.registration.trans first.registration
  joinEpoch := second.joinEpoch.trans first.joinEpoch
  candidates := second.candidates.trans first.candidates
  recoveryUses := second.recoveryUses.trans first.recoveryUses
  bindings := by
    intro sid
    rcases second.bindings sid with same | ⟨record, found, row⟩
    · rw [same]
      exact first.bindings sid
    · rcases first.bindings sid with same | ⟨before, found', row'⟩
      · exact .inr ⟨record, same ▸ found, row⟩
      · rw [row'] at found
        cases found
        exact .inr ⟨before, found', row⟩
  hello := by
    intro sid
    rcases second.hello sid with same | ⟨value, found, row⟩
    · rw [same]
      exact first.hello sid
    · rcases first.hello sid with same | ⟨before, found', row'⟩
      · exact .inr ⟨value, same ▸ found, row⟩
      · rw [row'] at found
        cases found
        exact .inr ⟨before, found', row⟩
  revoked := by
    intro binding row found
    obtain ⟨middle, found', raised⟩ := first.revoked binding row found
    obtain ⟨later, found'', raised'⟩ := second.revoked binding middle found'
    exact ⟨later, found'', Int.le_trans raised raised'⟩

theorem foldlM_relates {α : Type} {R : Store → Store → Prop} {f : Store → α → Except AccessError Store}
    (refl : ∀ s, R s s) (trans : ∀ {s t u}, R s t → R t u → R s u) (step : ∀ {s a t}, f s a = .ok t → R s t) :
    ∀ (list : List α) {s t : Store}, list.foldlM f s = .ok t → R s t
  | [], s, t, h => by
    cases h
    exact refl s
  | a :: rest, s, t, h => by
    rw [List.foldlM_cons] at h
    obtain ⟨middle, first, h⟩ := bind_ok.mp h
    exact trans (step first) (foldlM_relates refl trans step rest h)

section Retirement
variable [Wire] {s t : Store} {sid : String}

omit [Wire] in
theorem raised {row : Revocation} (ahead : ∀ previous, s.revoked.get row.binding = some previous →
    ¬row.generation < previous.generation) {binding : Uuid} {old : Revocation}
    (found : s.revoked.get binding = some old) :
    ∃ later, (s.revoked.set row).get binding = some later ∧ old.generation ≤ later.generation := by
  by_cases here : binding = row.binding
  · subst here
    exact ⟨row, Rows.get_set_self, Int.not_lt.mp (ahead old found)⟩
  · exact ⟨old, (Rows.get_set_ne here).trans found, Int.le_refl _⟩

theorem retireHelloRow_retires (h : retireHelloRow s sid = .ok t) : Retires s t := by
  unfold retireHelloRow at h
  obtain ⟨value, loaded, h⟩ := bind_present.mp h
  obtain ⟨s', fenced, h⟩ := bind_ok.mp h
  obtain ⟨ahead, rfl⟩ := recordRevocation_ok.mp fenced
  obtain ⟨-, rfl⟩ := saveHello_ok.mp h
  have found := (loadHello_some.mp loaded).1
  refine ⟨rfl, rfl, rfl, rfl, fun _ => .inl rfl, fun other => ?_, fun binding row stored => ?_⟩
  · by_cases same : other = value.sid
    · subst same
      exact .inr ⟨value, by rwa [Rows.get_key found], Rows.get_set_self⟩
    · exact .inl (Rows.get_set_ne same)
  · exact raised (fun previous old below => ahead previous old (.inl below)) stored

theorem retireRow_retires {cloudOnly : Bool} (h : retireRow cloudOnly s sid = .ok t) : Retires s t := by
  unfold retireRow at h
  obtain ⟨record, loaded, h⟩ := bind_present.mp h
  split at h
  · cases h
    exact .refl s
  · obtain ⟨s', fenced, h⟩ := bind_ok.mp h
    cases h
    obtain ⟨ahead, rfl⟩ := recordRevocation_ok.mp fenced
    have found := (load_some.mp loaded).1
    refine ⟨rfl, rfl, rfl, rfl, fun other => ?_, fun _ => .inl rfl, fun binding row stored => ?_⟩
    · by_cases same : other = record.sid
      · subst same
        exact .inr ⟨record, by rwa [Rows.get_key found], Rows.get_set_self⟩
      · exact .inl (Rows.get_set_ne same)
    · exact raised (fun previous old below => ahead previous old (.inl below)) stored

theorem retireRecords_retires [TableScan] {cloudOnly : Bool} (h : retireRecords s cloudOnly = .ok t) :
    Retires s t := by
  unfold retireRecords retireAll at h
  obtain ⟨middle, hello, h⟩ := bind_ok.mp h
  exact (foldlM_relates (R := Retires) .refl .trans retireHelloRow_retires _ hello).trans
    (foldlM_relates (R := Retires) .refl .trans retireRow_retires _ h)

variable [TableScan]

theorem observeJoin_ok {fingerprint : String} {now observed : Int}
    (h : observeJoin s fingerprint now = .ok (observed, t)) :
    t = s ∨ (s.joinEpoch = none ∧ t = { s with joinEpoch := some (fingerprint, now) }) ∨
      ∃ before since s', s.joinEpoch = some (before, since) ∧ before ≠ fingerprint ∧ retireRecords s true = .ok s' ∧
        t = { s' with joinEpoch := some (fingerprint, now) } := by
  unfold observeJoin at h
  obtain ⟨_, -, h⟩ := bind_ok.mp h
  cases epoch : s.joinEpoch with
  | none =>
    rw [epoch] at h
    cases h
    exact .inr (.inl ⟨rfl, rfl⟩)
  | some pair =>
    obtain ⟨before, since⟩ := pair
    rw [epoch] at h
    obtain ⟨_, -, h⟩ := bind_ok.mp h
    split at h
    · cases h
      exact .inl rfl
    · rename_i differ
      obtain ⟨s', retired, h⟩ := bind_ok.mp h
      cases h
      exact .inr (.inr ⟨before, since, s', rfl, differ, retired, rfl⟩)

theorem bindRegistration_ok {registration : Registration} (h : bindRegistration s registration = .ok t) :
    (t = s ∧ s.registration = some ⟨registration, false⟩) ∨
      (s.registration = none ∧ t = { s with registration := some ⟨registration, false⟩ }) ∨
      ∃ old s', s.registration = some old ∧ old.registration.generation < registration.generation ∧
        retireRecords s false = .ok s' ∧ t = { s' with registration := some ⟨registration, false⟩ } := by
  unfold bindRegistration at h
  obtain ⟨_, -, h⟩ := bind_ok.mp h
  obtain ⟨row, loaded, h⟩ := bind_ok.mp h
  unfold current at loaded
  cases registered : s.registration with
  | none =>
    rw [registered] at loaded
    cases loaded
    cases h
    exact .inr (.inl ⟨rfl, rfl⟩)
  | some old =>
    rw [registered] at loaded
    dsimp only at loaded
    split at loaded
    · cases loaded
    · cases loaded
      dsimp only at h
      split at h
      · rename_i same
        obtain ⟨_, live, h⟩ := bind_ok.mp h
        cases h
        rw [refuse_ok, Bool.not_eq_true] at live
        refine .inl ⟨rfl, congrArg some ?_⟩
        cases old
        cases same
        cases live
        rfl
      · obtain ⟨_, later, h⟩ := bind_ok.mp h
        obtain ⟨s', retired, h⟩ := bind_ok.mp h
        cases h
        simp only [refuse_ok, not_or, Nat.not_le] at later
        exact .inr (.inr ⟨old, s', rfl, later.2.2, retired, rfl⟩)

theorem retireRegistration_ok (h : retireRegistration s = .ok t) :
    (t = s ∧ s.registration = none) ∨ ∃ value s', s.registration = some value ∧ retireRecords s false = .ok s' ∧
      t = { s' with registration := some { value with retired := true } } := by
  unfold retireRegistration at h
  obtain ⟨row, loaded, h⟩ := bind_ok.mp h
  unfold current at loaded
  cases registered : s.registration with
  | none =>
    rw [registered] at loaded
    cases loaded
    cases h
    exact .inl ⟨rfl, rfl⟩
  | some value =>
    rw [registered] at loaded
    dsimp only at loaded
    split at loaded
    · cases loaded
    · cases loaded
      obtain ⟨s', retired, h⟩ := bind_ok.mp h
      cases h
      exact .inr ⟨value, s', rfl, retired, rfl⟩

end Retirement

/-! ## Native credentials -/

section Hello
variable [Wire] {s t : Store}

theorem prepareHello_ok {task : AccessTaskSpec} {authority : Authority} {value : HelloRecord}
    (h : prepareHello s task authority = .ok (value, t)) :
    ∃ s', ((value.retired = false ∧ s' = s) ∨
        (value.retired = true ∧ recordRevocation s authority task.revision = .ok s')) ∧
      (∃ previous, helloPlan task.windows = some (value.retired, previous)) ∧
      value.authority = authority ∧ value.revision = task.revision ∧ authority.valid = true ∧
      (∀ record, load s authority.sid = .ok (some record) → record.revoked = true) ∧
      require s authority = .ok () ∧ value.size ≤ 16384 ∧
      t = { s' with helloBindings := s'.helloBindings.set value } := by
  unfold prepareHello at h
  obtain ⟨_, -, h⟩ := bind_ok.mp h
  obtain ⟨_, valid, h⟩ := bind_ok.mp h
  obtain ⟨⟨retire, previousKey⟩, planned, h⟩ := bind_ok.mp h
  obtain ⟨_, -, h⟩ := bind_ok.mp h
  obtain ⟨enabled, -, h⟩ := bind_ok.mp h
  obtain ⟨_, fence, h⟩ := bind_ok.mp h
  obtain ⟨_, -, h⟩ := bind_ok.mp h
  obtain ⟨rss, loaded, h⟩ := bind_ok.mp h
  obtain ⟨_, closed, h⟩ := bind_ok.mp h
  obtain ⟨old, -, h⟩ := bind_ok.mp h
  obtain ⟨_, -, h⟩ := bind_ok.mp h
  obtain ⟨_, -, h⟩ := bind_ok.mp h
  obtain ⟨s', row, h⟩ := bind_ok.mp h
  obtain ⟨t', saved, h⟩ := bind_ok.mp h
  cases h
  obtain ⟨size, rfl⟩ := saveHello_ok.mp saved
  rw [refuse_ok, Bool.not_eq_false] at valid
  rw [refuse_ok, Bool.not_eq_true] at closed
  refine ⟨s', ?_, ⟨previousKey, present_ok.mp planned⟩, rfl, rfl, valid, fun record found => ?_, fence, size, rfl⟩
  · unfold helloRevocation at row
    cases retire with
    | false =>
      cases row
      exact .inl ⟨rfl, rfl⟩
    | true => exact .inr ⟨rfl, row⟩
  · rw [loaded] at found
    cases found
    simpa using closed

structure HelloKept (old value : HelloRecord) : Prop where
  authority : value.authority = old.authority
  revision : value.revision = old.revision
  retired : value.retired = old.retired
  size : value.size ≤ 16384

def HelloUpdate (s t : Store) : Prop :=
  t = s ∨ ∃ sid old value, loadHello s sid = .ok (some old) ∧ HelloKept old value ∧
    t = { s with helloBindings := s.helloBindings.set value }

theorem beginHelloPolicy_ok {expected value : HelloRecord} {previous : Option Bool}
    (h : beginHelloPolicy s expected previous = .ok (value, t)) : HelloUpdate s t := by
  unfold beginHelloPolicy at h
  obtain ⟨_, -, h⟩ := bind_ok.mp h
  obtain ⟨old, loaded, h⟩ := bind_present.mp h
  obtain ⟨_, -, h⟩ := bind_ok.mp h
  have written : ∀ {policy : HelloPolicy} {result : HelloRecord × Store},
      (do return ({ old with policy := policy }, ← saveHello s { old with policy := policy })) =
        (.ok result : Except AccessError (HelloRecord × Store)) → HelloUpdate s result.2 := by
    intro policy result h
    obtain ⟨t', saved, h⟩ := bind_ok.mp h
    cases h
    obtain ⟨size, rfl⟩ := saveHello_ok.mp saved
    exact .inr ⟨_, old, { old with policy := policy }, loaded, ⟨rfl, rfl, rfl, size⟩, rfl⟩
  cases policy : old.policy with
  | writePending before enabled =>
    rw [policy] at h
    dsimp only at h
    split at h
    · cases h
      exact .inl rfl
    · exact written h
  | unmanaged =>
    rw [policy] at h
    exact written h
  | owned enabled =>
    rw [policy] at h
    exact written h

theorem recordHelloObservation_ok {expected : HelloRecord} {facts seen : AccessWhfbFacts}
    {policyOwned retirementOnly : Bool}
    (h : recordHelloObservation s expected facts policyOwned retirementOnly = .ok (seen, t)) : HelloUpdate s t := by
  unfold recordHelloObservation at h
  obtain ⟨_, -, h⟩ := bind_ok.mp h
  obtain ⟨_, -, h⟩ := bind_ok.mp h
  obtain ⟨old, loaded, h⟩ := bind_present.mp h
  obtain ⟨_, -, h⟩ := bind_ok.mp h
  obtain ⟨_, -, h⟩ := bind_ok.mp h
  obtain ⟨_, -, h⟩ := bind_ok.mp h
  obtain ⟨t', saved, h⟩ := bind_ok.mp h
  cases h
  obtain ⟨size, rfl⟩ := saveHello_ok.mp saved
  refine .inr ⟨_, old, _, loaded, ?_, rfl⟩
  exact ⟨rfl, rfl, rfl, size⟩

end Hello

/-! ## What one call does -/

def reaches (sid : String) (e : Entry) : Bool :=
  match e.call, e.reply with
  | .verify expected _ _ _, .decided decision => expected.sid = sid && decision ≠ .disabled
  | .activate authority .., .done => authority.sid = sid
  | .activate authority .., .unread _ => authority.sid = sid
  | _, _ => false

section Account
variable [Wire] [Digests] [Protector] {s t : Store} {sid : String} {e : Entry}

omit [Wire] [Digests] [Protector] in
theorem saved_row (record : Record) (other : String) : (save s record).bindings.get other =
    if other = record.sid then some record else s.bindings.get other := Rows.get_set

omit [Wire] [Digests] [Protector] in
theorem answer_eq {result : Except AccessError Store} {reply : Reply} (h : answer s result = (reply, t)) :
    (result = .ok t ∧ reply = .done) ∨ (t = s ∧ ∃ error, reply = .failed error) := by
  cases result with
  | ok u =>
    cases h
    exact .inl ⟨rfl, rfl⟩
  | error error =>
    cases h
    exact .inr ⟨rfl, error, rfl⟩

omit [Wire] [Digests] [Protector] in
theorem answerWith_eq {α : Type} {result : Except AccessError (α × Store)} {reply : Reply}
    (h : answerWith s result = (reply, t)) :
    (∃ value, result = .ok (value, t) ∧ reply = .done) ∨ (t = s ∧ ∃ error, reply = .failed error) := by
  cases result with
  | ok u =>
    obtain ⟨value, u⟩ := u
    cases h
    exact .inl ⟨value, rfl, rfl⟩
  | error error =>
    cases h
    exact .inr ⟨rfl, error, rfl⟩

variable [TableScan]

/-- What one step does to the store. -/
inductive Change (s t : Store) (e : Entry) : Prop where
  | same (equal : t = s) (idle : ∀ sid, reaches sid e = false)
      (kept : ∀ operation, e.call = .acknowledgeRecoveryUse operation → e.reply ≠ .done)
  | staged (rows : Rows StagedCandidate.operation) (equal : t = { s with candidates := rows })
      (idle : ∀ sid, reaches sid e = false) (kept : ∀ operation, e.call ≠ .acknowledgeRecoveryUse operation)
  | acknowledged (operation : Uuid) (call : e.call = .acknowledgeRecoveryUse operation) (reply : e.reply = .done)
      (equal : t = acknowledgeRecoveryUse s operation)
  | rotated (task : CredentialTaskSpec) (subject : CredentialSubject) (recovery : String)
      (receipt : CredentialReceipt) (nonce : Nat)
      (call : e.call = .rotateRecovery task subject recovery receipt nonce)
      (done : rotateRecovery s task subject recovery receipt nonce = .ok t)
  | activated (authority : Authority) (revision : Int) (enabled : Bool) (operation : Uuid) (facts : AccessRssFacts)
      (clock : Clock) (nonce : Nat) (record : Record)
      (call : e.call = .activate authority revision enabled operation facts clock nonce)
      (written : activation s authority revision enabled operation facts clock nonce = .ok (some record))
      (reply : e.reply = .done ∨ ∃ error, e.reply = .unread error) (equal : t = save s record)
  | configured (authority : Authority) (revision : Int) (enabled : Bool) (facts : AccessRssFacts)
      (call : e.call = .configure authority revision enabled facts)
      (done : configure s authority revision enabled facts = .ok t)
  | revoked (authority : Authority) (revision : Int) (call : e.call = .revoke authority revision) (reply : e.reply = .done)
      (done : revoke s authority revision = .ok t)
  | checked (expected : Authority) (factor : Factor) (clock : Clock) (useId : Uuid) (record judged : Record)
      (decision : Decision) (call : e.call = .verify expected factor clock useId) (timed : clock.valid = true)
      (loaded : load s expected.sid = .ok (some record)) (fence : require s record.authority = .ok ())
      (live : record.revoked = false) (judgement : judge record factor clock = .ok (decision, judged))
      (reply : e.reply = .decided decision) (settled : settle s record factor clock useId decision judged = .ok t)
  | joined (fingerprint : String) (now observed : Int) (call : e.call = .observeJoin fingerprint now) (reply : e.reply = .done)
      (done : observeJoin s fingerprint now = .ok (observed, t))
  | unbound (task : AccessTaskSpec) (call : e.call = .revokeTask task) (reply : e.reply = .done) (done : revokeTask s task = .ok t)
  | bound (registration : Registration) (call : e.call = .bindRegistration registration)
      (done : bindRegistration s registration = .ok t)
  | unregistered (call : e.call = .retireRegistration) (done : retireRegistration s = .ok t)
  | prepared (task : AccessTaskSpec) (authority : Authority) (value : HelloRecord)
      (call : e.call = .prepareHello task authority) (reply : e.reply = .done) (done : prepareHello s task authority = .ok (value, t))
  | hello (update : HelloUpdate s t) (idle : ∀ sid, reaches sid e = false)
      (kept : ∀ operation, e.call ≠ .acknowledgeRecoveryUse operation)

theorem change_answer {result : Except AccessError Store} (performed : answer s result = (e.reply, t))
    (idle : ∀ sid, reaches sid e = false) (kept : ∀ operation, e.call ≠ .acknowledgeRecoveryUse operation)
    (done : result = .ok t → e.reply = .done → Change s t e) : Change s t e := by
  rcases answer_eq performed with ⟨h, reply⟩ | ⟨rfl, -⟩
  · exact done h reply
  · exact .same rfl idle fun operation here => absurd here (kept operation)

theorem change_answerWith {α : Type} {result : Except AccessError (α × Store)}
    (performed : answerWith s result = (e.reply, t)) (idle : ∀ sid, reaches sid e = false)
    (kept : ∀ operation, e.call ≠ .acknowledgeRecoveryUse operation)
    (done : ∀ value, result = .ok (value, t) → e.reply = .done → Change s t e) : Change s t e := by
  rcases answerWith_eq performed with ⟨value, h, reply⟩ | ⟨rfl, -⟩
  · exact done value h reply
  · exact .same rfl idle fun operation here => absurd here (kept operation)

theorem step_change (step : Step s e t) : Change s t e := by
  obtain ⟨call, reply, used⟩ := e
  cases step with
  | interrupted failed =>
    cases failed
    refine .same rfl (fun sid => ?_) (fun _ _ => nofun)
    cases call <;> rfl
  | answered performed =>
    dsimp only at performed
    cases call with
    | stage operation candidate nonce =>
      refine change_answer performed (fun _ => rfl) (fun _ => nofun) fun h _ => ?_
      unfold stage at h
      obtain ⟨_, -, h⟩ := bind_ok.mp h
      obtain ⟨_, -, h⟩ := bind_ok.mp h
      obtain ⟨_, -, h⟩ := bind_ok.mp h
      obtain ⟨_, -, h⟩ := bind_ok.mp h
      cases h
      exact .staged _ rfl (fun _ => rfl) fun _ => nofun
    | reconfirm operation code clock nonce =>
      unfold perform at performed
      dsimp only at performed
      split at performed
      · rename_i h
        cases performed
        obtain ⟨rows, equal⟩ := reconfirm_candidates h
        exact .staged rows equal (fun _ => rfl) fun _ => nofun
      · rename_i h
        cases performed
        obtain ⟨rows, equal⟩ := reconfirm_candidates h
        exact .staged rows equal (fun _ => rfl) fun _ => nofun
      · cases performed
        exact .same rfl (fun _ => rfl) fun _ => nofun
    | retireCandidate operation =>
      cases performed
      exact .staged _ rfl (fun _ => rfl) fun _ => nofun
    | acknowledgeRecoveryUse operation =>
      cases performed
      exact .acknowledged operation rfl rfl rfl
    | reopen =>
      cases performed
      exact .same rfl (fun _ => rfl) fun _ => nofun
    | rotateRecovery task subject recovery receipt nonce =>
      exact change_answer performed (fun _ => rfl) (fun _ => nofun) fun h _ =>
        .rotated task subject recovery receipt nonce rfl h
    | configure authority revision enabled facts =>
      exact change_answer performed (fun _ => rfl) (fun _ => nofun) fun h _ =>
        .configured authority revision enabled facts rfl h
    | revoke authority revision =>
      exact change_answer performed (fun _ => rfl) (fun _ => nofun) fun h reply =>
        .revoked authority revision rfl reply h
    | revokeTask task =>
      exact change_answer performed (fun _ => rfl) (fun _ => nofun) fun h reply => .unbound task rfl reply h
    | observeJoin fingerprint now =>
      exact change_answerWith performed (fun _ => rfl) (fun _ => nofun) fun observed h reply =>
        .joined fingerprint now observed rfl reply h
    | bindRegistration registration =>
      exact change_answer performed (fun _ => rfl) (fun _ => nofun) fun h _ => .bound registration rfl h
    | retireRegistration => exact change_answer performed (fun _ => rfl) (fun _ => nofun) fun h _ => .unregistered rfl h
    | prepareHello task authority =>
      exact change_answerWith performed (fun _ => rfl) (fun _ => nofun) fun value h reply =>
        .prepared task authority value rfl reply h
    | beginHelloPolicy expected previous =>
      exact change_answerWith performed (fun _ => rfl) (fun _ => nofun) fun _ h _ =>
        .hello (beginHelloPolicy_ok h) (fun _ => rfl) fun _ => nofun
    | observeHello expected facts policyOwned retirementOnly =>
      exact change_answerWith performed (fun _ => rfl) (fun _ => nofun) fun _ h _ =>
        .hello (recordHelloObservation_ok h) (fun _ => rfl) fun _ => nofun
    | activate authority revision enabled operation facts clock nonce =>
      unfold perform AccessSteps.activate at performed
      dsimp only at performed
      split at performed
      · cases performed
        exact .same rfl (fun _ => rfl) fun _ => nofun
      · cases performed
        exact .same rfl (fun _ => rfl) fun _ => nofun
      · rename_i record written
        split at performed
        · cases performed
          exact .activated authority revision enabled operation facts clock nonce record rfl written (.inr ⟨_, rfl⟩) rfl
        · cases performed
          refine .activated authority revision enabled operation facts clock nonce record rfl written ?_ rfl
          dsimp only
          split
          · exact .inl rfl
          · exact .inr ⟨_, rfl⟩
    | verify expected factor clock useId =>
      unfold perform at performed
      dsimp only at performed
      split at performed
      · rename_i decision _ h
        cases performed
        rcases verify_ok h with ⟨rfl, rfl⟩ | ⟨record, judged, timed, loaded, fence, live, -, -, judgement, settled⟩
        · refine .same rfl (fun sid => ?_) fun _ => nofun
          unfold reaches
          simp
        · exact .checked expected factor clock useId record judged decision rfl timed loaded fence live judgement rfl
            settled
      · cases performed
        exact .same rfl (fun _ => rfl) fun _ => nofun

end Account

/-! ## The record of one account -/

section Records
variable [Wire] [Digests] [Protector] {s t : Store} {sid : String} {e : Entry}

/-- What one step does to the record of an account. -/
inductive Touch (s t : Store) (e : Entry) (sid : String) : Prop where
  | kept (same : t.bindings.get sid = s.bindings.get sid) (idle : reaches sid e = false)
  | checked {expected : Authority} {factor : Factor} {clock : Clock} {useId : Uuid} {record judged : Record}
      {decision : Decision} (call : e.call = .verify expected factor clock useId) (account : expected.sid = sid)
      (timed : clock.valid = true) (loaded : load s sid = .ok (some record))
      (fence : require s record.authority = .ok ()) (live : record.revoked = false)
      (judgement : judge record factor clock = .ok (decision, judged)) (reply : e.reply = .decided decision)
      (row : t.bindings.get sid = some (stamped judged clock))
  | activated {authority : Authority} {revision : Int} {enabled : Bool} {operation : Uuid} {facts : AccessRssFacts}
      {clock : Clock} {nonce : Nat} {record : Record}
      (call : e.call = .activate authority revision enabled operation facts clock nonce) (account : authority.sid = sid)
      (written : activation s authority revision enabled operation facts clock nonce = .ok (some record))
      (reply : e.reply = .done ∨ ∃ error, e.reply = .unread error) (row : t.bindings.get sid = some record)
  | configured {record : Record} {revision : Int} {enabled : Bool} (loaded : load s sid = .ok (some record))
      (live : record.revoked = false) (row : t.bindings.get sid = some { record with
        revision := revision
        enabled := enabled }) (idle : reaches sid e = false) (fence : admitAuthority s record.authority = .ok ())
      (later : record.revision ≤ revision)
  | rotated {record : Record} {hash body : Bytes} {receipt : CredentialReceipt}
      (loaded : load s sid = .ok (some record)) (live : record.revoked = false)
      (row : t.bindings.get sid = some { record with
        recoveryHash := hash
        recoverySecret := body
        facts := { record.facts with recovery := receipt } }) (idle : reaches sid e = false)
      (hashed : hash.length = 32)
      (accepted : record.authority.accepts { record.facts with recovery := receipt } = true)
  | closed {record : Record} {revision : Int} (found : s.bindings.get sid = some record)
      (row : t.bindings.get sid = some (closed record revision)) (idle : reaches sid e = false)
      (later : 1 ≤ record.revision → 1 ≤ revision)

theorem touch_closed {record : Record} {revision : Int} (loaded : load s record.sid = .ok (some record))
    (row : t.bindings = (save s (closed record revision)).bindings) (idle : reaches sid e = false)
    (later : 1 ≤ record.revision → 1 ≤ revision) : Touch s t e sid := by
  have row' : t.bindings.get sid = if sid = record.sid then some (closed record revision) else s.bindings.get sid := by
    rw [row]
    exact saved_row _ sid
  by_cases here : sid = record.sid
  · rw [if_pos here] at row'
    exact .closed (here ▸ (load_some.mp loaded).1) row' idle later
  · rw [if_neg here] at row'
    exact .kept row' idle

theorem touch_retired {s' : Store} (retired : Retires s s') (row : t.bindings = s'.bindings)
    (idle : reaches sid e = false) : Touch s t e sid := by
  rcases retired.bindings sid with same | ⟨record, found, now⟩
  · exact .kept (row ▸ same) idle
  · exact .closed found (row ▸ now) idle id

variable [TableScan]

theorem step_touch (step : Step s e t) (sid : String) : Touch s t e sid := by
  cases step_change step with
  | same equal idle => exact .kept (equal ▸ rfl) (idle sid)
  | staged rows equal idle => exact .kept (equal ▸ rfl) (idle sid)
  | acknowledged operation call reply equal => exact .kept (equal ▸ rfl) (by unfold reaches; rw [call, reply])
  | rotated task subject recovery receipt nonce call done =>
    have idle : reaches sid e = false := by
      unfold reaches
      rw [call]
    obtain ⟨_, _, account, record, -, loaded, -, live, -, rfl | ⟨accepted, body, rfl⟩⟩ := rotateRecovery_ok done
    · exact .kept rfl idle
    · have named := load_sid loaded
      by_cases here : sid = account
      · subst here
        exact .rotated loaded live ((saved_row _ _).trans (if_pos named.symm)) idle (Digests.sha256_length _) accepted
      · exact .kept ((saved_row _ _).trans (if_neg fun same => here (same.trans named))) idle
  | activated authority revision enabled operation facts clock nonce record call written reply equal =>
    subst equal
    have named : record.sid = authority.sid := congrArg Authority.sid (activation_authority written)
    by_cases here : sid = authority.sid
    · subst here
      exact .activated call rfl written reply ((saved_row _ _).trans (if_pos named.symm))
    · refine .kept ((saved_row _ _).trans (if_neg fun same => here (same.trans named))) ?_
      unfold reaches
      rw [call]
      rcases reply with reply | ⟨error, reply⟩
      · rw [reply]
        exact decide_eq_false (Ne.symm here)
      · rw [reply]
        exact decide_eq_false (Ne.symm here)
  | configured authority revision enabled facts call done =>
    have idle : reaches sid e = false := by
      unfold reaches
      rw [call]
    obtain ⟨record, loaded, live, fence, later, rfl⟩ := configure_ok done
    have named := load_sid loaded
    by_cases here : sid = authority.sid
    · subst here
      exact .configured loaded live ((saved_row _ _).trans (if_pos named.symm)) idle fence later
    · exact .kept ((saved_row _ _).trans (if_neg fun same => here (same.trans named))) idle
  | revoked authority revision call _ done =>
    have idle : reaches sid e = false := by
      unfold reaches
      rw [call]
    obtain ⟨positive, s', fenced, from'⟩ := revoke_ok done
    obtain ⟨-, rfl⟩ := recordRevocation_ok.mp fenced
    rcases from' with ⟨-, rfl⟩ | ⟨record, loaded, -, rfl⟩
    · exact .kept rfl idle
    · rw [← load_sid loaded] at loaded
      exact touch_closed loaded rfl idle fun _ => positive
  | checked expected factor clock useId record judged decision call timed loaded fence live judgement reply settled =>
    obtain ⟨uses, rfl, -⟩ := settle_ok settled
    have named : judged.sid = expected.sid := (judge_sid judgement).trans (load_sid loaded)
    by_cases here : sid = expected.sid
    · subst here
      exact .checked call rfl timed loaded fence live judgement reply ((saved_row _ _).trans (if_pos named.symm))
    · refine .kept ((saved_row _ _).trans (if_neg fun same => here (same.trans named))) ?_
      unfold reaches
      rw [call, reply]
      simp [Ne.symm here]
  | joined fingerprint now observed call _ done =>
    have idle : reaches sid e = false := by
      unfold reaches
      rw [call]
    rcases observeJoin_ok done with rfl | ⟨-, rfl⟩ | ⟨_, _, s', -, -, retired, rfl⟩
    · exact .kept rfl idle
    · exact .kept rfl idle
    · exact touch_retired (retireRecords_retires retired) rfl idle
  | unbound task call _ done =>
    have idle : reaches sid e = false := by
      unfold reaches
      rw [call]
    obtain ⟨account, source, s', -, -, rfl, ⟨-, rfl⟩ | ⟨record, loaded, -, -, above, rfl⟩⟩ := revokeTask_ok done
    · exact .kept rfl idle
    · rw [← load_sid loaded] at loaded
      exact touch_closed loaded rfl idle fun positive => Int.le_trans positive above
  | bound registration call done =>
    have idle : reaches sid e = false := by
      unfold reaches
      rw [call]
    rcases bindRegistration_ok done with ⟨rfl, -⟩ | ⟨-, rfl⟩ | ⟨old, s', -, -, retired, rfl⟩
    · exact .kept rfl idle
    · exact .kept rfl idle
    · exact touch_retired (retireRecords_retires retired) rfl idle
  | unregistered call done =>
    have idle : reaches sid e = false := by
      unfold reaches
      rw [call]
    rcases retireRegistration_ok done with ⟨rfl, -⟩ | ⟨value, s', -, retired, rfl⟩
    · exact .kept rfl idle
    · exact touch_retired (retireRecords_retires retired) rfl idle
  | prepared task authority value call _ done =>
    have idle : reaches sid e = false := by
      unfold reaches
      rw [call]
    obtain ⟨s', from', -, -, -, -, -, -, -, rfl⟩ := prepareHello_ok done
    rcases from' with ⟨-, rfl⟩ | ⟨-, fenced⟩
    · exact .kept rfl idle
    · obtain ⟨-, rfl⟩ := recordRevocation_ok.mp fenced
      exact .kept rfl idle
  | hello update idle =>
    rcases update with rfl | ⟨_, _, _, -, -, rfl⟩ <;> exact .kept rfl (idle sid)

end Records

end RssMdmAgent.AccessSteps
