import RssMdmAgent.RetirementWalk
import RssMdmAgent.FactorThrottle

set_option autoImplicit false

/-! # Revoked bindings never open the device again -/

namespace RssMdmAgent.BindingFence
open OrderedRows AccessRecords AccessStore AccessSteps RetirementWalk TransitionRuns
open ContractPlan (bind_ok)

section Fence
variable [Wire] [Digests] [Protector]

/-- The store opens the device for the record of an authority, names it as active, or gives out or takes its
recovery material. -/
inductive Opens (s : Store) (a : Authority) : Prop where
  | verified {factor : Factor} {clock : Clock} {useId : Uuid} {t : Store}
      (accepted : verify s a factor clock useId = .ok (.accepted, t))
  | named {sid : String} (found : AccessStore.authority s sid = .ok (some a))
  | rotated {task : CredentialTaskSpec} {binding : Uuid} {generation : Int} {sid recovery : String}
      {receipt : CredentialReceipt} {nonce : Nat} {t : Store} {record : Record}
      (done : rotateRecovery s task (.rssLogin binding generation sid) recovery receipt nonce = .ok t)
      (loaded : load s sid = .ok (some record)) (owner : record.authority = a)
  | recovered {task : CredentialTaskSpec} {binding : Uuid} {generation : Int} {sid : String}
      {secret : String} {receipt : CredentialReceipt} {record : Record}
      (done : recoveryMaterial s task (.rssLogin binding generation sid) = .ok (secret, receipt))
      (loaded : load s sid = .ok (some record)) (owner : record.authority = a)

omit [Wire] [Digests] [Protector] in
/-- A record whose factors are checked. -/
def Open (record : Record) : Prop := record.enabled = true ∧ record.revoked = false

omit [Digests] [Protector] in
/-- No other account has an open record of the binding up to the generation. -/
def Sole (s : Store) (sid : String) (binding : Uuid) (generation : Int) : Prop :=
  ∀ other record, load s other = .ok (some record) → Open record → record.authority.binding = binding →
    record.authority.bindingGeneration ≤ generation → other = sid

omit [Digests] [Protector] in
/-- A join change raises no row up to an open record that it leaves alone. -/
def Spared (s : Store) : Prop :=
  ∀ sid record, load s sid = .ok (some record) → Open record → record.authority.source.isEntra = false →
    (∀ other value, loadHello s other = .ok (some value) → value.authority.binding = record.authority.binding →
      value.authority.bindingGeneration < record.authority.bindingGeneration) ∧
    ∀ other entra, load s other = .ok (some entra) → entra.authority.source.isEntra = true →
      entra.authority.binding = record.authority.binding →
      entra.authority.bindingGeneration < record.authority.bindingGeneration

omit [Digests] [Protector] in
/-- A call that closes a binding names the only account that is open under it. -/
def Names (s : Store) : Call → Prop
  | .revoke authority _ => Sole s authority.sid authority.binding authority.bindingGeneration
  | .revokeTask task => ∀ sid source, unbound task.action = some (sid, source) →
      Sole s sid task.bindingId task.bindingGeneration
  | .prepareHello task authority => ∀ previous, helloPlan task.windows = some (true, previous) →
      Sole s authority.sid authority.binding authority.bindingGeneration
  | .observeJoin fingerprint _ => ∀ before observed, s.joinEpoch = some (before, observed) → before ≠ fingerprint →
      Spared s
  | _ => True

structure NamedStep [TableScan] (s : Store) (e : Entry) (t : Store) : Prop where
  names : e.reply = .done → Names s e.call
  step : Step s e t

/-! ## Fences -/

omit [Digests] [Protector] in
/-- The binding of every open record is not closed. -/
def Fenced (s : Store) : Prop :=
  ∀ sid record row, load s sid = .ok (some record) → Open record →
    s.revoked.get record.authority.binding = some row → row.generation < record.authority.bindingGeneration

omit [Wire] [Digests] [Protector] in
/-- Later stores have closed at least as much, and registrations only go forward. -/
structure Onward (s t : Store) : Prop where
  rows : ∀ binding row, s.revoked.get binding = some row →
    ∃ later, t.revoked.get binding = some later ∧ row.generation ≤ later.generation
  registration : ∀ value, s.registration = some value → ∃ later, t.registration = some later ∧
    (value.registration.generation < later.registration.generation ∨
      (later.registration = value.registration ∧ (value.retired = true → later.retired = true)))

section Relations
omit [Wire] [Digests] [Protector]

theorem Onward.refl (s : Store) : Onward s s :=
  ⟨fun _ row found => ⟨row, found, Int.le_refl _⟩, fun value found => ⟨value, found, .inr ⟨rfl, id⟩⟩⟩

theorem Onward.trans {s t u : Store} (first : Onward s t) (second : Onward t u) : Onward s u where
  rows binding row found := by
    obtain ⟨middle, found, raised⟩ := first.rows binding row found
    obtain ⟨later, found, raised'⟩ := second.rows binding middle found
    exact ⟨later, found, Int.le_trans raised raised'⟩
  registration value found := by
    obtain ⟨middle, found, forward⟩ := first.registration value found
    obtain ⟨later, found, forward'⟩ := second.registration middle found
    refine ⟨later, found, ?_⟩
    rcases forward with up | ⟨same, kept⟩
    · rcases forward' with up' | ⟨same', -⟩
      · exact .inl (Nat.lt_trans up up')
      · exact .inl (same' ▸ up)
    · rcases forward' with up' | ⟨same', kept'⟩
      · exact .inl (same ▸ up')
      · exact .inr ⟨same'.trans same, fun retired => kept' (kept retired)⟩

theorem onward_kept {s t : Store} (revoked : t.revoked = s.revoked) (registration : t.registration = s.registration) :
    Onward s t := by
  refine ⟨fun _ row found => ⟨row, revoked ▸ found, Int.le_refl _⟩, fun value found => ?_⟩
  exact ⟨value, registration ▸ found, .inr ⟨rfl, id⟩⟩

theorem onward_raised {s t : Store} (row : Revocation)
    (ahead : ∀ previous, s.revoked.get row.binding = some previous → ¬row.generation < previous.generation)
    (revoked : t.revoked = s.revoked.set row) (registration : t.registration = s.registration) : Onward s t := by
  refine ⟨fun binding old found => ?_, fun value found => ⟨value, registration ▸ found, .inr ⟨rfl, id⟩⟩⟩
  rw [revoked]
  exact raised ahead found

end Relations

/-! ## What one step does to the fences -/

section Steps
variable {s t : Store} {e : Entry} {sid : String} {record : Record} {a : Authority}

omit [Wire] [Digests] [Protector] in
theorem require_ok : require s a = .ok () → s.registration = some ⟨a.registration, false⟩ := by
  intro h
  unfold require at h
  obtain ⟨value, found, h⟩ := bind_present.mp h
  rw [refuse_ok, not_or, Bool.not_eq_true, not_not] at h
  unfold current at found
  split at found
  · cases found
  · split at found
    · cases found
    · rename_i stored _
      cases found
      obtain ⟨registration, retired⟩ := value
      obtain ⟨rfl, rfl⟩ := h
      exact stored

omit [Wire] [Digests] [Protector] in
theorem admitAuthority_ok (h : admitAuthority s a = .ok ()) : require s a = .ok () ∧
    ∀ row, s.revoked.get a.binding = some row → row.generation < a.bindingGeneration := by
  unfold admitAuthority at h
  obtain ⟨_, current, h⟩ := bind_ok.mp h
  refine ⟨current, fun row found => ?_⟩
  rw [refuse_ok, found] at h
  simpa using h

theorem touch_open (touch : Touch s t e sid) (after : load t sid = .ok (some record)) (opened : Open record) :
    (∃ old, load s sid = .ok (some old) ∧ Open old ∧ old.authority = record.authority) ∨
      admitAuthority s record.authority = .ok () := by
  obtain ⟨found, readable⟩ := load_some.mp after
  cases touch with
  | kept same => exact .inl ⟨record, load_some.mpr ⟨same ▸ found, readable⟩, opened, rfl⟩
  | checked _ _ _ loaded _ _ judgement _ row =>
    cases found.symm.trans row
    obtain ⟨authority, enabled, revoked⟩ := judge_kept judgement
    exact .inl ⟨_, loaded, ⟨enabled.symm.trans opened.1, revoked.symm.trans opened.2⟩, authority.symm⟩
  | activated call account written _ row =>
    cases found.symm.trans row
    obtain ⟨_, _, _, _, -, -, -, -, -, -, -, admitted, -⟩ := activation_ok written
    exact .inr (activation_authority written ▸ admitted)
  | configured loaded before row _ fence =>
    cases found.symm.trans row
    exact .inr fence
  | rotated loaded before row =>
    cases found.symm.trans row
    exact .inl ⟨_, loaded, opened, rfl⟩
  | closed _ row =>
    cases found.symm.trans row
    cases opened.2

variable [TableScan]

omit [Digests] [Protector] in
theorem onward_retired {cloudOnly : Bool} {s' : Store} (retired : retireRecords s cloudOnly = .ok s')
    (revoked : t.revoked = s'.revoked) : ∀ binding row, s.revoked.get binding = some row →
      ∃ later, t.revoked.get binding = some later ∧ row.generation ≤ later.generation := by
  rw [revoked]
  exact (retireRecords_retires retired).revoked

/-- Every step goes onward. -/
theorem step_onward (step : Step s e t) : Onward s t := by
  cases step_change step with
  | same equal => exact onward_kept (equal ▸ rfl) (equal ▸ rfl)
  | staged _ equal => exact onward_kept (equal ▸ rfl) (equal ▸ rfl)
  | acknowledged _ _ _ equal => exact onward_kept (equal ▸ rfl) (equal ▸ rfl)
  | rotated _ _ _ _ _ _ done =>
    obtain ⟨_, _, _, _, -, -, -, -, -, rfl | ⟨-, _, rfl⟩⟩ := rotateRecovery_ok done <;> exact onward_kept rfl rfl
  | activated _ _ _ _ _ _ _ _ _ _ _ equal => exact onward_kept (equal ▸ rfl) (equal ▸ rfl)
  | configured _ _ _ _ _ done =>
    obtain ⟨_, -, -, -, -, rfl⟩ := configure_ok done
    exact onward_kept rfl rfl
  | checked _ _ _ _ _ _ _ _ _ _ _ _ _ _ settled =>
    obtain ⟨_, rfl, -⟩ := settle_ok settled
    exact onward_kept rfl rfl
  | hello update => rcases update with rfl | ⟨_, _, _, -, -, rfl⟩ <;> exact onward_kept rfl rfl
  | revoked authority revision _ _ done =>
    obtain ⟨-, s', fenced, from'⟩ := revoke_ok done
    obtain ⟨follows, rfl⟩ := recordRevocation_follows.mp fenced
    have above : ∀ previous, s'.revoked.get authority.binding = some previous →
        ¬authority.bindingGeneration < previous.generation :=
      fun previous found => Int.not_lt.mpr (follows previous found).generation
    rcases from' with ⟨-, rfl⟩ | ⟨_, -, -, rfl⟩
    · exact onward_raised (rowOf authority revision) above rfl rfl
    · exact onward_raised (rowOf authority revision) above rfl rfl
  | unbound task _ _ done =>
    obtain ⟨_, _, s', -, ahead, rfl, from'⟩ := revokeTask_ok done
    have above : ∀ previous, s.revoked.get task.bindingId = some previous →
        ¬task.bindingGeneration < previous.generation := fun previous found below => ahead previous found (.inl below)
    rcases from' with ⟨-, rfl⟩ | ⟨_, -, -, -, -, rfl⟩
    · exact onward_raised ⟨task.bindingId, task.bindingGeneration, task.revision⟩ above rfl rfl
    · exact onward_raised ⟨task.bindingId, task.bindingGeneration, task.revision⟩ above rfl rfl
  | prepared task authority value _ _ done =>
    obtain ⟨s', from', -, -, -, -, -, -, -, rfl⟩ := prepareHello_ok done
    rcases from' with ⟨-, rfl⟩ | ⟨-, fenced⟩
    · exact onward_kept rfl rfl
    · obtain ⟨follows, rfl⟩ := recordRevocation_follows.mp fenced
      exact onward_raised (rowOf authority task.revision) (fun previous found => Int.not_lt.mpr (follows previous found).generation) rfl rfl
  | joined _ _ _ _ _ done =>
    rcases observeJoin_ok done with rfl | ⟨-, rfl⟩ | ⟨_, _, s', -, -, retired, rfl⟩
    · exact .refl _
    · exact onward_kept rfl rfl
    · refine ⟨onward_retired retired rfl, fun value found => ⟨value, ?_, .inr ⟨rfl, id⟩⟩⟩
      exact (retireRecords_retires retired).registration.trans found
  | bound registration _ done =>
    rcases bindRegistration_ok done with ⟨rfl, -⟩ | ⟨none, rfl⟩ | ⟨old, s', stored, up, retired, rfl⟩
    · exact .refl _
    · refine ⟨fun _ row found => ⟨row, found, Int.le_refl _⟩, fun value found => ?_⟩
      rw [none] at found
      cases found
    · refine ⟨onward_retired retired rfl, fun value found => ⟨_, rfl, .inl ?_⟩⟩
      cases stored.symm.trans found
      exact up
  | unregistered _ done =>
    rcases retireRegistration_ok done with ⟨rfl, -⟩ | ⟨old, s', stored, retired, rfl⟩
    · exact .refl _
    · refine ⟨onward_retired retired rfl, fun value found => ⟨_, rfl, .inr ⟨?_, fun _ => rfl⟩⟩⟩
      cases stored.symm.trans found
      rfl

theorem Fenced.kept (fenced : Fenced s) (step : Step s e t) (revoked : t.revoked = s.revoked) : Fenced t := by
  intro sid record row loaded opened found
  rw [revoked] at found
  rcases touch_open (step_touch step sid) loaded opened with ⟨old, before, opened', same⟩ | admitted
  · rw [← same] at found ⊢
    exact fenced sid old row before opened' found
  · exact (admitAuthority_ok admitted).2 row found

omit [Digests] [Protector] [TableScan] in
theorem Fenced.raised (fenced : Fenced s) (records : ∀ sid, t.bindings.get sid = s.bindings.get sid ∨
      ∃ old revision, t.bindings.get sid = some (closed old revision))
    (rows : ∀ sid record row, load s sid = .ok (some record) → Open record →
      t.bindings.get sid = s.bindings.get sid → t.revoked.get record.authority.binding = some row →
      s.revoked.get record.authority.binding = some row ∨ row.generation < record.authority.bindingGeneration) :
    Fenced t := by
  intro sid record row loaded opened found
  obtain ⟨stored, readable⟩ := load_some.mp loaded
  rcases records sid with same | ⟨old, revision, row'⟩
  · have before : load s sid = .ok (some record) := load_some.mpr ⟨same ▸ stored, readable⟩
    rcases rows sid record row before opened same found with kept | above
    · exact fenced sid record row before opened kept
    · exact above
  · cases stored.symm.trans row'
    cases opened.2

omit [Digests] [Protector] [TableScan] in
theorem Sole.raised {account : String} (row : Revocation) (sole : Sole s account row.binding row.generation)
    (fenced : Fenced s) (records : ∀ sid, t.bindings.get sid = s.bindings.get sid ∨
      ∃ old revision, t.bindings.get sid = some (closed old revision))
    (gone : ∀ record, load s account = .ok (some record) → Open record →
      t.bindings.get account ≠ s.bindings.get account) (revoked : t.revoked = s.revoked.set row) : Fenced t := by
  refine fenced.raised records fun sid record found loaded opened same stored => ?_
  rw [revoked, Rows.get_set] at stored
  split at stored
  · rename_i here
    cases stored
    right
    by_contra reached
    rw [Int.not_lt] at reached
    cases sole sid record loaded opened here reached
    exact gone record loaded opened same
  · exact .inl stored

omit [Digests] [Protector] [TableScan] in
theorem saved_closed {record : Record} {revision : Int} {account : String}
    (loaded : load s account = .ok (some record)) (bindings : t.bindings = (save s (closed record revision)).bindings) :
    (∀ sid, t.bindings.get sid = s.bindings.get sid ∨ ∃ old revision, t.bindings.get sid = some (closed old revision)) ∧
      ∀ other, load s account = .ok (some other) → Open other → t.bindings.get account ≠ s.bindings.get account := by
  have row : ∀ sid, t.bindings.get sid = if sid = record.sid then some (closed record revision) else s.bindings.get sid := by
    intro sid
    rw [bindings]
    exact saved_row _ sid
  refine ⟨fun sid => ?_, fun other found opened same => ?_⟩
  · rw [row]
    split
    · exact .inr ⟨record, revision, rfl⟩
    · exact .inl rfl
  · cases loaded.symm.trans found
    rw [row, if_pos (load_sid loaded).symm, (load_some.mp loaded).1] at same
    have revoked := congrArg Record.revoked (Option.some.inj same)
    rw [opened.2] at revoked
    cases revoked

omit [Digests] [Protector] in
theorem Fenced.retired {s' : Store} (retired : retireRecords s false = .ok s') (bindings : t.bindings = s'.bindings) :
    Fenced t := by
  intro sid record row loaded opened
  obtain ⟨stored, -⟩ := load_some.mp loaded
  obtain ⟨hellos, records, found, -, rfl⟩ := retireRecords_ok.mp retired
  rw [bindings, retired_record found, Option.map_eq_some_iff] at stored
  obtain ⟨old, -, rfl⟩ := stored
  cases opened.2

omit [Digests] [Protector] in
/-- A join change closes the records that it affects and spares the others. -/
theorem Spared.retired {s' : Store} (spared : Spared s) (fenced : Fenced s) (retired : retireRecords s true = .ok s')
    (bindings : t.bindings = s'.bindings) (revoked : t.revoked = s'.revoked) : Fenced t := by
  obtain ⟨hellos, records, found, -, rfl⟩ := retireRecords_ok.mp retired
  have after : ∀ sid, t.bindings.get sid = (s.bindings.get sid).map fun record =>
      if affected true record then retiredRecord record else record := by
    intro sid
    rw [bindings]
    exact retired_record found
  apply fenced.raised
  · intro sid
    rw [after]
    cases s.bindings.get sid with
    | none => exact .inl rfl
    | some old =>
      rw [Option.map_some]
      split
      · exact .inr ⟨old, old.revision, rfl⟩
      · exact .inl rfl
  · intro sid record row loaded opened same stored
    have stays : record.authority.source.isEntra = false := by
      rw [after, (load_some.mp loaded).1, Option.map_some] at same
      by_contra entra
      rw [Bool.not_eq_false] at entra
      rw [if_pos (by unfold affected; simp [entra])] at same
      have revoked := congrArg Record.revoked (Option.some.inj same)
      rw [opened.2] at revoked
      cases revoked
    obtain ⟨hello, others⟩ := spared sid record loaded opened stays
    rw [revoked] at stored
    rcases setAll_from stored with mem | before
    · have named : row.binding = record.authority.binding := Rows.get_key stored
      right
      rcases List.mem_append.mp mem with placed | placed
      · obtain ⟨value, member, rfl⟩ := List.mem_map.mp placed
        exact hello _ value (found.hello value member).1 named
      · obtain ⟨entra, selected, rfl⟩ := List.mem_map.mp placed
        obtain ⟨member, hit⟩ := List.mem_filter.mp selected
        exact others _ entra (found.record entra member) hit named
    · exact .inl before

/-- A step that names the only open account keeps the fence. -/
theorem Fenced.step (fenced : Fenced s) (step : NamedStep s e t) : Fenced t := by
  obtain ⟨names, step⟩ := step
  cases step_change step with
  | same equal => exact fenced.kept step (equal ▸ rfl)
  | staged _ equal => exact fenced.kept step (equal ▸ rfl)
  | acknowledged _ _ _ equal => exact fenced.kept step (equal ▸ rfl)
  | rotated _ _ _ _ _ _ done =>
    apply fenced.kept step
    obtain ⟨_, _, _, _, -, -, -, -, -, rfl | ⟨-, _, rfl⟩⟩ := rotateRecovery_ok done <;> rfl
  | activated _ _ _ _ _ _ _ _ _ _ _ equal => exact fenced.kept step (equal ▸ rfl)
  | configured _ _ _ _ _ done =>
    obtain ⟨_, -, -, -, -, rfl⟩ := configure_ok done
    exact fenced.kept step rfl
  | checked _ _ _ _ _ _ _ _ _ _ _ _ _ _ settled =>
    obtain ⟨_, rfl, -⟩ := settle_ok settled
    exact fenced.kept step rfl
  | hello update =>
    apply fenced.kept step
    rcases update with rfl | ⟨_, _, _, -, -, rfl⟩ <;> rfl
  | revoked authority revision call reply done =>
    have sole := names reply
    rw [call] at sole
    obtain ⟨-, s', fenced', from'⟩ := revoke_ok done
    obtain ⟨-, rfl⟩ := recordRevocation_follows.mp fenced'
    rcases from' with ⟨absent, rfl⟩ | ⟨record, loaded, -, rfl⟩
    · refine Sole.raised (rowOf authority revision) sole fenced (fun _ => .inl rfl) (fun record loaded => ?_) rfl
      rw [absent] at loaded
      cases loaded
    · obtain ⟨records, gone⟩ := saved_closed loaded rfl
      exact Sole.raised (rowOf authority revision) sole fenced records gone rfl
  | unbound task call reply done =>
    have sole := names reply
    rw [call] at sole
    obtain ⟨account, source, s', named, -, rfl, from'⟩ := revokeTask_ok done
    rcases from' with ⟨absent, rfl⟩ | ⟨record, loaded, -, -, -, rfl⟩
    · refine Sole.raised ⟨task.bindingId, task.bindingGeneration, task.revision⟩ (sole account source named) fenced (fun _ => .inl rfl) (fun record loaded => ?_) rfl
      rw [absent] at loaded
      cases loaded
    · obtain ⟨records, gone⟩ := saved_closed loaded rfl
      exact Sole.raised ⟨task.bindingId, task.bindingGeneration, task.revision⟩ (sole account source named) fenced records gone rfl
  | prepared task authority value call reply done =>
    have sole := names reply
    rw [call] at sole
    obtain ⟨s', from', ⟨previous, planned⟩, -, -, -, closed, -, -, rfl⟩ := prepareHello_ok done
    rcases from' with ⟨-, rfl⟩ | ⟨retired, fenced'⟩
    · exact fenced.kept step rfl
    · obtain ⟨-, rfl⟩ := recordRevocation_follows.mp fenced'
      rw [retired] at planned
      refine Sole.raised (rowOf authority task.revision) (sole previous planned) fenced (fun _ => .inl rfl) (fun record loaded opened => ?_) rfl
      have revoked := closed record loaded
      rw [opened.2] at revoked
      cases revoked
  | joined fingerprint now observed call reply done =>
    have spared := names reply
    rw [call] at spared
    rcases observeJoin_ok done with rfl | ⟨-, rfl⟩ | ⟨before, since, s', epoch, differ, retired, rfl⟩
    · exact fenced
    · exact fenced.kept step rfl
    · exact (spared before since epoch differ).retired fenced retired rfl rfl
  | bound registration _ done =>
    rcases bindRegistration_ok done with ⟨rfl, -⟩ | ⟨-, rfl⟩ | ⟨_, s', -, -, retired, rfl⟩
    · exact fenced
    · exact fenced.kept step rfl
    · exact Fenced.retired retired rfl
  | unregistered _ done =>
    rcases retireRegistration_ok done with ⟨rfl, -⟩ | ⟨_, s', -, retired, rfl⟩
    · exact fenced
    · exact Fenced.retired retired rfl

/-! ## Whole runs -/

omit [TableScan] in
theorem Opens.current (opens : Opens s a) : s.registration = some ⟨a.registration, false⟩ ∧
    ((∃ sid record, load s sid = .ok (some record) ∧ Open record ∧ record.authority = a) ∨
      admitAuthority s a = .ok ()) := by
  cases opens with
  | verified accepted =>
    rcases verify_ok accepted with ⟨denied, -⟩ | ⟨record, judged, -, loaded, current, live, enabled, rfl, -, -⟩
    · cases denied
    · exact ⟨require_ok current, .inl ⟨_, record, loaded, ⟨enabled, live⟩, rfl⟩⟩
  | named found =>
    unfold AccessStore.authority at found
    obtain ⟨row, loaded, found⟩ := bind_ok.mp found
    cases row with
    | none => cases found
    | some record =>
      dsimp only at found
      split at found
      · rename_i live
        obtain ⟨_, current, found⟩ := bind_ok.mp found
        cases found
        rw [Bool.and_eq_true, Bool.not_eq_true'] at live
        exact ⟨require_ok current, .inl ⟨_, record, loaded, live, rfl⟩⟩
      · cases found
  | rotated done loaded owner =>
    obtain ⟨_, _, _, record, same, loaded', admitted, -⟩ := rotateRecovery_ok done
    cases same
    cases loaded.symm.trans loaded'
    subst owner
    exact ⟨require_ok (admitAuthority_ok admitted).1, .inr admitted⟩
  | recovered done loaded owner =>
    unfold recoveryMaterial at done
    obtain ⟨_, -, done⟩ := bind_ok.mp done
    obtain ⟨_, -, done⟩ := bind_ok.mp done
    obtain ⟨record, loaded', done⟩ := bind_present.mp done
    obtain ⟨_, admitted, done⟩ := bind_ok.mp done
    cases loaded.symm.trans loaded'
    subst owner
    exact ⟨require_ok (admitAuthority_ok admitted).1, .inr admitted⟩

/-- In a run whose calls name the only open account of a binding that they close, a binding that was closed up to
a generation opens the device no more, and neither does a registration that is not the current one. -/
theorem closed_never_opens {before later : List Entry} (first : Runs NamedStep create before s)
    (rest : Runs NamedStep s later t) : Onward s t ∧ ∀ a, Opens t a →
      t.registration = some ⟨a.registration, false⟩ ∧
        ∀ row, s.revoked.get a.binding = some row → row.generation < a.bindingGeneration := by
  have onward : Onward s t := rest.relates Onward .refl .trans fun _ _ _ step => step_onward step.step
  have fenced : Fenced t := (first.trans rest).invariant Fenced (fun _ _ _ loaded => by cases loaded)
    fun _ _ _ fenced step => fenced.step step
  refine ⟨onward, fun a opens => ?_⟩
  obtain ⟨current, why⟩ := opens.current
  refine ⟨current, fun row found => ?_⟩
  obtain ⟨last, found', raised⟩ := onward.rows a.binding row found
  rcases why with ⟨sid, record, loaded, opened, rfl⟩ | admitted
  · exact Int.lt_of_le_of_lt raised (fenced sid record last loaded opened found')
  · exact Int.lt_of_le_of_lt raised ((admitAuthority_ok admitted).2 last found')

/-! ## Runs whose calls name their accounts, computed -/

def soleOf (s : Store) (sid : String) (binding : Uuid) (generation : Int) : Bool :=
  s.bindings.entries.all fun record => record.sid = sid || !record.enabled || record.revoked ||
    record.authority.binding ≠ binding || generation < record.authority.bindingGeneration

omit [Digests] [Protector] [TableScan] in
theorem soleOf_sound {account : String} {binding : Uuid} {generation : Int}
    (checked : soleOf s account binding generation = true) : Sole s account binding generation := by
  intro other record loaded opened named reached
  have here := List.all_eq_true.mp checked record (Rows.get_mem (load_some.mp loaded).1)
  rw [load_sid loaded] at here
  simpa [opened.1, opened.2, named, Int.not_lt.mpr reached] using here

def names (s : Store) : Call → Bool
  | .revoke authority _ => soleOf s authority.sid authority.binding authority.bindingGeneration
  | .revokeTask task => (unbound task.action).all fun named => soleOf s named.1 task.bindingId task.bindingGeneration
  | .prepareHello _ authority => soleOf s authority.sid authority.binding authority.bindingGeneration
  | .observeJoin _ _ => s.joinEpoch = none
  | _ => true

omit [Digests] [Protector] [TableScan] in
theorem names_sound {call : Call} (checked : names s call = true) : Names s call := by
  cases call with
  | revoke authority revision => exact soleOf_sound checked
  | revokeTask task =>
    intro account source named
    unfold names at checked
    dsimp only at checked
    rw [named] at checked
    exact soleOf_sound checked
  | prepareHello task authority => exact fun _ _ => soleOf_sound checked
  | observeJoin fingerprint now =>
    intro before observed epoch
    rw [of_decide_eq_true checked] at epoch
    cases epoch
  | _ => trivial

def namedCalls : Store → List Call → Bool
  | _, [] => true
  | s, call :: rest => names s call && namedCalls (perform s call).2 rest

theorem namedCalls_runs : ∀ (calls : List Call) (s : Store), namedCalls s calls = true →
    Runs NamedStep s (runCalls s calls).1 (runCalls s calls).2
  | [], _, _ => .refl
  | call :: rest, s, checked => by
    unfold namedCalls at checked
    rw [Bool.and_eq_true] at checked
    exact (Runs.one ⟨fun _ => names_sound checked.1, entryOf_step s call⟩).trans (namedCalls_runs rest _ checked.2)

end Steps

end Fence

/-! ## A binding of the account "a" -/

section Samples
open FactorThrottle

attribute [local instance] sampleWire sampleDigests sampleProtector sampleScan

/-- A signed removal of the binding 5 that names an account. -/
def removal (sid : String) : AccessTaskSpec where
  tenantId := 3
  deviceId := "d"
  registrationId := 4
  generation := 1
  permit := .start
  bindingId := 5
  instanceId := 1
  principalId := 2
  bindingGeneration := 1
  factorGeneration := 1
  revision := 2
  definitionDigest := []
  action := .unbind (.windows sid .machine)
  windows := none

def removedCalls : List Call := setupCalls ++ [
  .stage 2 (sampleCandidate 8 'A' 100) 0,
  activateCall (sampleAuthority "b" 6 1 1) 1 2 (sampleClock 3000 1000 1),
  .revokeTask (removal "a")]

def removed : Store := (runCalls create removedCalls).2

theorem closed_never_opens_sample :
    (Onward removed (perform removed .reopen).2 ∧ ∀ a, Opens (perform removed .reopen).2 a →
      (perform removed .reopen).2.registration = some ⟨a.registration, false⟩ ∧
        ∀ row, removed.revoked.get a.binding = some row → row.generation < a.bindingGeneration) ∧
      removed.revoked.get 5 = some ⟨5, 1, 2⟩ ∧
      (perform removed (.verify (sampleAuthority "b" 6 1 1) (.recovery (sampleCandidate 8 'A' 100).recovery)
        (sampleClock 3000 1000 1) 0)).1 = .decided .accepted :=
  ⟨closed_never_opens (namedCalls_runs removedCalls create (by decide +kernel))
    (namedCalls_runs [.reopen] removed rfl), by decide +kernel⟩

def misnamed : Store := (runCalls create (setupCalls ++ [.revokeTask (removal "b")])).2

/-- A removal that names another account closes the binding, and its record still opens the device. -/
theorem closed_binding_opens :
    Reachable (runCalls create (setupCalls ++ [.revokeTask (removal "b")])).1 misnamed ∧
      misnamed.revoked.get 5 = some ⟨5, 1, 2⟩ ∧ Opens misnamed (sampleAuthority "a" 5 1 1) := by
  refine ⟨runCalls_runs _ _, by decide +kernel, ?_⟩
  have accepted : (perform misnamed (.verify (sampleAuthority "a" 5 1 1) (.recovery sampleRecovery)
      (sampleClock 3000 1000 1) 0)).1 = .decided .accepted := by decide +kernel
  unfold perform at accepted
  dsimp only at accepted
  split at accepted
  · rename_i decision t verified
    cases accepted
    exact .verified verified
  · cases accepted

end Samples

end RssMdmAgent.BindingFence
