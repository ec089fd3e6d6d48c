import RssMdmAgent.AccessSteps

set_option autoImplicit false

/-! # What a store keeps of the recovery material of an account -/

namespace RssMdmAgent.RecoveryMaterial
open OrderedRows AccessRecords AccessStore AccessSteps
open ContractPlan (bind_ok)

section Verification
variable [Wire] [Digests] (s : Store)

/-- The live record of the task has exactly this secret and this receipt. -/
def verifyRecoveryMaterial (task : CredentialTaskSpec) (subject : CredentialSubject) (recovery : String) (receipt : CredentialReceipt) :
    Except AccessError Bool := do
  refuse (Wire.credentialTaskValid task = false) .invalid
  match subject with
  | .foreign _ => .error .invalid
  | .rssLogin binding generation sid => do
    refuse (task.permit ≠ .start ∨ reads task.operation binding generation sid = false) .invalid
    let record ← present (← load s sid) .changed
    admitAuthority s record.authority
    refuse (record.revoked = true) .changed
    return belongs record.authority task binding generation && record.facts.recovery = receipt &&
      constantEqual record.recoveryHash (recoveryHash record.authority recovery)

end Verification

structure Carries (old record : Record) : Prop where
  authority : record.authority = old.authority
  hash : record.recoveryHash = old.recoveryHash
  secret : record.recoverySecret = old.recoverySecret
  facts : record.facts = old.facts

def Carried (s t : Store) : Prop :=
  ∀ sid record, t.bindings.get sid = some record → ∃ old, s.bindings.get sid = some old ∧ Carries old record

section Carrying
variable [Wire] [Digests] [Protector] {s t : Store} {sid : String} {record next : Record} {e : Entry}

omit [Wire] [Digests] [Protector] in
theorem carried_same (same : t.bindings = s.bindings) : Carried s t :=
  fun _ record found => ⟨record, same ▸ found, rfl, rfl, rfl, rfl⟩

omit [Digests] [Protector] in
theorem carried_saved (next : Record) (loaded : load s sid = .ok (some record)) (carries : Carries record next)
    (row : t.bindings = (save s next).bindings) : Carried s t := by
  intro other found stored
  have named : next.sid = sid := (congrArg Authority.sid carries.authority).trans (load_sid loaded)
  rw [row, saved_row] at stored
  split at stored
  · rename_i here
    cases stored
    exact ⟨record, (here.trans named) ▸ (load_some.mp loaded).1, carries⟩
  · exact ⟨found, stored, rfl, rfl, rfl, rfl⟩

omit [Wire] [Digests] [Protector] in
theorem carried_retired {s' : Store} (retired : Retires s s') (row : t.bindings = s'.bindings) : Carried s t := by
  intro other found stored
  rw [row] at stored
  rcases retired.bindings other with same | ⟨record, here, now⟩
  · exact ⟨found, same ▸ stored, rfl, rfl, rfl, rfl⟩
  · rw [now] at stored
    cases stored
    exact ⟨record, here, rfl, rfl, rfl, rfl⟩

omit [Wire] in
theorem judge_carries {factor : Factor} {clock : Clock} {decision : Decision} {judged : Record}
    (h : judge record factor clock = .ok (decision, judged)) : Carries record judged := by
  unfold judge at h
  dsimp only at h
  split at h
  · cases h
    exact ⟨rfl, rfl, rfl, rfl⟩
  · obtain ⟨⟨accepted, consumed⟩, -, h⟩ := bind_ok.mp h
    dsimp only at h
    split at h
    · cases h
      exact ⟨rfl, rfl, rfl, rfl⟩
    · cases h
      unfold punished
      dsimp only
      split <;> exact ⟨rfl, rfl, rfl, rfl⟩

theorem rotateRecovery_changed {task : CredentialTaskSpec} {subject : CredentialSubject} {recovery : String}
    {receipt : CredentialReceipt} {nonce : Nat} (h : rotateRecovery s task subject recovery receipt nonce = .ok t) :
    t = s ∨ ∃ sid record body, load s sid = .ok (some record) ∧ Protector.sealBytes nonce recovery.toUTF8.toList = .ok body ∧
      t = save s { record with
        recoveryHash := recoveryHash record.authority recovery
        recoverySecret := body
        facts := { record.facts with recovery := receipt } } := by
  unfold rotateRecovery at h
  obtain ⟨_, -, h⟩ := bind_ok.mp h
  obtain ⟨_, -, h⟩ := bind_ok.mp h
  obtain ⟨_, -, h⟩ := bind_ok.mp h
  cases subject with
  | foreign => cases h
  | rssLogin binding generation sid =>
    obtain ⟨record, loaded, h⟩ := bind_present.mp h
    obtain ⟨_, -, h⟩ := bind_ok.mp h
    obtain ⟨_, -, h⟩ := bind_ok.mp h
    obtain ⟨_, -, h⟩ := bind_ok.mp h
    obtain ⟨_, -, h⟩ := bind_ok.mp h
    obtain ⟨_, -, h⟩ := bind_ok.mp h
    split at h
    · obtain ⟨_, -, h⟩ := bind_ok.mp h
      cases h
      exact .inl rfl
    · obtain ⟨_, -, h⟩ := bind_ok.mp h
      obtain ⟨body, sealed, h⟩ := bind_ok.mp h
      cases h
      exact .inr ⟨sid, record, body, loaded, sealed, rfl⟩

theorem activation_material {authority : Authority} {revision : Int} {enabled : Bool} {operation : Uuid} {facts : AccessRssFacts}
    {clock : Clock} {nonce : Nat} (written : activation s authority revision enabled operation facts clock nonce = .ok (some record)) :
    ∃ plain, candidate s operation = .ok plain ∧ record.recoveryHash = recoveryHash record.authority plain.recovery ∧
      Protector.sealBytes (nonce + 1) plain.recovery.toUTF8.toList = .ok record.recoverySecret ∧ record.facts = facts := by
  obtain ⟨plain, secret, body, old, -, -, -, -, opened, -, sealed, -, -, replaced⟩ := activation_ok written
  rcases replaceRecord_some replaced with ⟨-, rfl⟩ | ⟨before, -, rfl, -⟩
  · exact ⟨plain, opened, rfl, sealed, rfl⟩
  · exact ⟨plain, opened, rfl, sealed, rfl⟩

variable [TableScan]

/-- Only a rotation and an activation bring new recovery material. -/
theorem step_carried (step : Step s e t) : Carried s t ∨
    (∃ task subject recovery receipt nonce, e.call = .rotateRecovery task subject recovery receipt nonce ∧
      rotateRecovery s task subject recovery receipt nonce = .ok t) ∨
    ∃ authority revision enabled operation facts clock nonce record,
      e.call = .activate authority revision enabled operation facts clock nonce ∧
      activation s authority revision enabled operation facts clock nonce = .ok (some record) ∧ t = save s record := by
  cases step_change step with
  | same equal | staged _ equal | acknowledged _ _ _ equal => exact .inl (carried_same (equal ▸ rfl))
  | rotated task subject recovery receipt nonce call done =>
    exact .inr (.inl ⟨task, subject, recovery, receipt, nonce, call, done⟩)
  | activated authority revision enabled operation facts clock nonce record call written _ equal =>
    exact .inr (.inr ⟨authority, revision, enabled, operation, facts, clock, nonce, record, call, written, equal⟩)
  | configured authority revision enabled facts call done =>
    obtain ⟨record, loaded, -, -, -, rfl⟩ := configure_ok done
    exact .inl (carried_saved { record with
      revision := revision
      enabled := enabled } loaded ⟨rfl, rfl, rfl, rfl⟩ rfl)
  | revoked authority revision call _ done =>
    obtain ⟨-, s', fenced, from'⟩ := revoke_ok done
    obtain ⟨-, rfl⟩ := recordRevocation_ok.mp fenced
    rcases from' with ⟨-, rfl⟩ | ⟨record, loaded, -, rfl⟩
    · exact .inl (carried_same rfl)
    · exact .inl (carried_saved (closed record revision) loaded ⟨rfl, rfl, rfl, rfl⟩ rfl)
  | checked expected factor clock useId record judged decision call timed loaded fence live judgement reply settled =>
    obtain ⟨uses, rfl, -⟩ := settle_ok settled
    obtain ⟨authority, hash, secret, facts⟩ := judge_carries judgement
    exact .inl (carried_saved (stamped judged clock) loaded ⟨authority, hash, secret, facts⟩ rfl)
  | joined fingerprint now observed call _ done =>
    rcases observeJoin_ok done with rfl | ⟨-, rfl⟩ | ⟨_, _, s', -, -, retired, rfl⟩
    · exact .inl (carried_same rfl)
    · exact .inl (carried_same rfl)
    · exact .inl (carried_retired (retireRecords_retires retired) rfl)
  | unbound task call _ done =>
    obtain ⟨account, source, s', -, -, rfl, ⟨-, rfl⟩ | ⟨record, loaded, -, -, -, rfl⟩⟩ := revokeTask_ok done
    · exact .inl (carried_same rfl)
    · exact .inl (carried_saved (closed record task.revision) loaded ⟨rfl, rfl, rfl, rfl⟩ rfl)
  | bound registration call done =>
    rcases bindRegistration_ok done with ⟨rfl, -⟩ | ⟨-, rfl⟩ | ⟨old, s', -, -, retired, rfl⟩
    · exact .inl (carried_same rfl)
    · exact .inl (carried_same rfl)
    · exact .inl (carried_retired (retireRecords_retires retired) rfl)
  | unregistered call done =>
    rcases retireRegistration_ok done with ⟨rfl, -⟩ | ⟨value, s', -, retired, rfl⟩
    · exact .inl (carried_same rfl)
    · exact .inl (carried_retired (retireRecords_retires retired) rfl)
  | prepared task authority value call _ done =>
    obtain ⟨s', from', -, -, -, -, -, -, -, rfl⟩ := prepareHello_ok done
    rcases from' with ⟨-, rfl⟩ | ⟨-, fenced⟩
    · exact .inl (carried_same rfl)
    · obtain ⟨-, rfl⟩ := recordRevocation_ok.mp fenced
      exact .inl (carried_same rfl)
  | hello update _ =>
    rcases update with rfl | ⟨_, _, _, -, -, rfl⟩
    · exact .inl (carried_same rfl)
    · exact .inl (carried_same rfl)

end Carrying

end RssMdmAgent.RecoveryMaterial
