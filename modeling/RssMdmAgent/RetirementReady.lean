import RssMdmAgent.BindingFence
import RssMdmAgent.OneTimeCodes

set_option autoImplicit false

/-! # When device access can be retired -/

namespace RssMdmAgent.RetirementReady
open OrderedRows AccessRecords AccessStore AccessSteps RetirementWalk TransitionRuns
open BindingFence (require_ok admitAuthority_ok)
open FactorThrottle (judge_cases lockLength_le)
open OneTimeCodes (judge_secret)
open ContractPlan (bind_ok)

/-! ## What every reachable store keeps -/

section Reach
variable [Wire] [Digests] [Protector]

omit [Digests] [Protector] in
/-- What the loader asks of a record beside the lengths of its bodies. -/
structure Sound (record : Record) : Prop where
  authority : record.authority.valid = true
  facts : record.authority.accepts record.facts = true
  revision : 1 ≤ record.revision
  hash : record.recoveryHash.length = 32
  step : 0 ≤ record.consumedStep
  lock : record.lockSeconds ≤ 300
  boot : record.boot ≠ 0
  utc : 1 ≤ record.utc

def Sealed (record : Record) : Prop :=
  (record.secret ≠ [] ∧ record.secret.length ≤ 16384) ∧
    (record.recoverySecret ≠ [] ∧ record.recoverySecret.length ≤ 16384)

omit [Digests] [Protector] in
theorem valid_iff {record : Record} {sid : String} :
    record.valid sid = true ↔ Sound record ∧ record.sid = sid ∧ Sealed record := by
  unfold Record.valid Sealed Record.sid
  simp only [Bool.and_eq_true, Bool.not_eq_true', Bool.or_eq_false_iff, decide_eq_false_iff_not, decide_eq_true_eq,
    Int.not_lt, Nat.not_lt, List.isEmpty_eq_false_iff, not_not, ne_eq]
  constructor
  · rintro ⟨⟨⟨authority, sid⟩, facts⟩, ⟨⟨⟨⟨⟨⟨⟨⟨⟨revision, secret⟩, short⟩, hash⟩, recovery⟩, short'⟩, step⟩, lock⟩, boot⟩, utc⟩⟩
    exact ⟨⟨authority, facts, revision, hash, step, lock, boot, utc⟩, sid, ⟨secret, short⟩, recovery, short'⟩
  · rintro ⟨⟨authority, facts, revision, hash, step, lock, boot, utc⟩, sid, ⟨secret, short⟩, recovery, short'⟩
    exact ⟨⟨⟨authority, sid⟩, facts⟩, ⟨⟨⟨⟨⟨⟨⟨⟨⟨revision, secret⟩, short⟩, hash⟩, recovery⟩, short'⟩, step⟩, lock⟩, boot⟩, utc⟩⟩

omit [Wire] [Digests] [Protector] in
theorem clock_sound {clock : Clock} (valid : clock.valid = true) : clock.boot ≠ 0 ∧ 1 ≤ clock.utc := by
  unfold Clock.valid at valid
  simp only [Bool.not_eq_true', Bool.or_eq_false_iff, decide_eq_false_iff_not] at valid
  exact ⟨valid.2, by omega⟩

omit [Wire] [Protector] [Digests] in
theorem punished_kept (record : Record) (clock : Clock) : (punished record clock).authority = record.authority ∧
    (punished record clock).facts = record.facts ∧ (punished record clock).revision = record.revision ∧
    (punished record clock).recoveryHash = record.recoveryHash ∧
    (record.lockSeconds ≤ 300 → (punished record clock).lockSeconds ≤ 300) := by
  unfold punished
  dsimp only
  split
  · exact ⟨rfl, rfl, rfl, rfl, fun _ => lockLength_le _⟩
  · exact ⟨rfl, rfl, rfl, rfl, id⟩

theorem Sound.judged {record judged : Record} {factor : Factor} {clock : Clock} {decision : Decision}
    (sound : Sound record) (timed : clock.valid = true) (h : judge record factor clock = .ok (decision, judged)) :
    Sound (stamped judged clock) := by
  have kept : judged.authority = record.authority ∧ judged.facts = record.facts ∧
      judged.revision = record.revision ∧ judged.recoveryHash = record.recoveryHash ∧ judged.lockSeconds ≤ 300 := by
    rcases judge_cases h with ⟨-, rfl⟩ | ⟨-, -, accepted, consumed, -, ⟨-, -, rfl⟩ | ⟨-, -, rfl⟩⟩
    · exact ⟨rfl, rfl, rfl, rfl, sound.lock⟩
    · exact ⟨rfl, rfl, rfl, rfl, Nat.zero_le _⟩
    · obtain ⟨authority, facts, revision, hash, lock⟩ := punished_kept
        { record with
          lockUntil := deadline record clock
          lockSeconds := 0
          consumedStep := consumed } clock
      exact ⟨authority, facts, revision, hash, lock (Nat.zero_le _)⟩
  obtain ⟨authority, facts, revision, hash, lock⟩ := kept
  obtain ⟨-, -, utc, step⟩ := judge_secret h
  obtain ⟨boot, positive⟩ := clock_sound timed
  refine ⟨?_, ?_, revision ▸ sound.revision, hash ▸ sound.hash, Int.le_trans sound.step step, lock, boot, ?_⟩
  · exact authority ▸ sound.authority
  · change judged.authority.accepts judged.facts = true
    rw [authority, facts]
    exact sound.facts
  · exact Int.le_trans positive (Int.le_max_right _ _)

theorem activation_sound {s : Store} {authority : Authority} {revision : Int} {enabled : Bool} {operation : Uuid}
    {facts : AccessRssFacts} {clock : Clock} {nonce : Nat} {record : Record}
    (written : activation s authority revision enabled operation facts clock nonce = .ok (some record)) :
    Sound record := by
  obtain ⟨plain, secret, recoverySecret, old, valid, timed, positive, accepted, opened, -, -, -, loaded, replaced⟩ :=
    activation_ok written
  have step : 0 ≤ plain.confirmedStep := by
    unfold candidate at opened
    obtain ⟨_, -, opened⟩ := bind_ok.mp opened
    obtain ⟨_, new, opened⟩ := bind_ok.mp opened
    cases opened
    rw [refuse_ok, Int.not_lt] at new
    exact new
  obtain ⟨boot, utc⟩ := clock_sound timed
  rcases replaceRecord_some replaced with ⟨rfl, rfl⟩ | ⟨before, rfl, rfl, -, -⟩
  · exact ⟨valid, accepted, positive, Digests.sha256_length _, step, Nat.zero_le _, boot, utc⟩
  · obtain ⟨sound, -⟩ := valid_iff.mp (load_some.mp loaded).2.2
    exact ⟨valid, accepted, positive, Digests.sha256_length _, step, sound.lock, boot,
      Int.le_trans utc (Int.le_max_right _ _)⟩

/-- What every reachable store keeps. -/
structure Kept (s : Store) : Prop where
  registered : s.registration = none → (∀ sid, s.bindings.get sid = none) ∧ ∀ sid, s.helloBindings.get sid = none
  valid : ∀ value, s.registration = some value → value.registration.valid = true
  epoch : ∀ fingerprint observed, s.joinEpoch = some (fingerprint, observed) → 0 < observed
  sound : ∀ sid record, s.bindings.get sid = some record → Sound record
  hello : ∀ sid value, s.helloBindings.get sid = some value → value.size ≤ 16384

section Steps
variable {s t : Store} {e : Entry} {sid : String} {record : Record}

theorem touch_sound (touch : Touch s t e sid) (before : ∀ old, s.bindings.get sid = some old → Sound old)
    (found : t.bindings.get sid = some record) : Sound record := by
  cases touch with
  | kept same => exact before record (same ▸ found)
  | checked _ _ timed loaded _ _ judgement _ row =>
    cases found.symm.trans row
    exact (before _ (load_some.mp loaded).1).judged timed judgement
  | activated _ _ written _ row =>
    cases found.symm.trans row
    exact activation_sound written
  | configured loaded _ row _ _ later =>
    cases found.symm.trans row
    have sound := before _ (load_some.mp loaded).1
    exact ⟨sound.authority, sound.facts, Int.le_trans sound.revision later, sound.hash, sound.step, sound.lock,
      sound.boot, sound.utc⟩
  | rotated loaded _ row _ hashed accepted =>
    cases found.symm.trans row
    have sound := before _ (load_some.mp loaded).1
    exact ⟨sound.authority, accepted, sound.revision, hashed, sound.step, sound.lock, sound.boot, sound.utc⟩
  | closed stored row _ later =>
    cases found.symm.trans row
    have sound := before _ stored
    exact ⟨sound.authority, sound.facts, later sound.revision, sound.hash, sound.step, sound.lock, sound.boot,
      sound.utc⟩

variable [TableScan]

omit [Wire] [Digests] [Protector] [TableScan] in
theorem hello_set {rows : Rows HelloRecord.sid} {written value : HelloRecord}
    (found : (rows.set written).get sid = some value) :
    rows.get sid = some value ∨ (value = written ∧ written.sid = sid) := by
  rw [Rows.get_set] at found
  split at found
  · rename_i here
    cases found
    exact .inr ⟨rfl, here.symm⟩
  · exact .inl found

omit [Digests] [Protector] in
theorem retired_size {cloudOnly : Bool} {s' : Store} {value : HelloRecord}
    (retired : retireRecords s cloudOnly = .ok s') (found : s'.helloBindings.get sid = some value) :
    value.size ≤ 16384 ∧ s.helloBindings.get sid ≠ none := by
  obtain ⟨hellos, records, listed, -, rfl⟩ := retireRecords_ok.mp retired
  rw [retired_hello listed, Option.map_eq_some_iff] at found
  obtain ⟨old, stored, rfl⟩ := found
  refine ⟨(listed.hello old (listed.mem_hello stored)).2, ?_⟩
  rw [stored]
  nofun

/-- A Hello record is stored within its limit, under a registration or over another one. -/
theorem step_hello {value : HelloRecord} (step : Step s e t) (found : t.helloBindings.get sid = some value) :
    s.helloBindings.get sid = some value ∨
      (value.size ≤ 16384 ∧ (s.registration ≠ none ∨ s.helloBindings.get sid ≠ none)) := by
  cases step_change step with
  | same equal => exact .inl (equal ▸ found)
  | staged _ equal =>
    subst equal
    exact .inl found
  | acknowledged _ _ _ equal =>
    subst equal
    exact .inl found
  | rotated _ _ _ _ _ _ done =>
    obtain ⟨_, _, _, _, -, -, -, -, -, rfl | ⟨-, _, rfl⟩⟩ := rotateRecovery_ok done <;> exact .inl found
  | activated _ _ _ _ _ _ _ _ _ _ _ equal =>
    subst equal
    exact .inl found
  | configured _ _ _ _ _ done =>
    obtain ⟨_, -, -, -, -, rfl⟩ := configure_ok done
    exact .inl found
  | revoked authority revision _ _ done =>
    obtain ⟨-, s', fenced, from'⟩ := revoke_ok done
    obtain ⟨-, rfl⟩ := recordRevocation_ok.mp fenced
    rcases from' with ⟨-, rfl⟩ | ⟨_, -, -, rfl⟩ <;> exact .inl found
  | checked _ _ _ _ _ _ _ _ _ _ _ _ _ _ settled =>
    obtain ⟨_, rfl, -⟩ := settle_ok settled
    exact .inl found
  | unbound task _ _ done =>
    obtain ⟨_, _, s', -, -, rfl, ⟨-, rfl⟩ | ⟨_, -, -, -, -, rfl⟩⟩ := revokeTask_ok done <;> exact .inl found
  | joined _ _ _ _ _ done =>
    rcases observeJoin_ok done with rfl | ⟨-, rfl⟩ | ⟨_, _, s', -, -, retired, rfl⟩
    · exact .inl found
    · exact .inl found
    · exact .inr ⟨(retired_size retired found).1, .inr (retired_size retired found).2⟩
  | bound _ _ done =>
    rcases bindRegistration_ok done with ⟨rfl, -⟩ | ⟨-, rfl⟩ | ⟨_, s', -, -, retired, rfl⟩
    · exact .inl found
    · exact .inl found
    · exact .inr ⟨(retired_size retired found).1, .inr (retired_size retired found).2⟩
  | unregistered _ done =>
    rcases retireRegistration_ok done with ⟨rfl, -⟩ | ⟨_, s', -, retired, rfl⟩
    · exact .inl found
    · exact .inr ⟨(retired_size retired found).1, .inr (retired_size retired found).2⟩
  | prepared task authority written _ _ done =>
    obtain ⟨s', from', -, -, -, -, -, current, size, rfl⟩ := prepareHello_ok done
    have registered : s.registration ≠ none := by
      rw [require_ok current]
      nofun
    have kept : s'.helloBindings = s.helloBindings := by
      rcases from' with ⟨-, rfl⟩ | ⟨-, fenced⟩
      · rfl
      · obtain ⟨-, rfl⟩ := recordRevocation_ok.mp fenced
        rfl
    rcases hello_set found with before | ⟨rfl, -⟩
    · exact .inl (kept ▸ before)
    · exact .inr ⟨size, .inl registered⟩
  | hello update =>
    rcases update with rfl | ⟨account, old, written, loaded, kept, rfl⟩
    · exact .inl found
    · rcases hello_set found with before | ⟨rfl, here⟩
      · exact .inl before
      · refine .inr ⟨kept.size, .inr ?_⟩
        have named : account = sid := by
          rw [← here, ← Rows.get_key (loadHello_some.mp loaded).1]
          exact congrArg Authority.sid kept.authority.symm
        rw [← named, (loadHello_some.mp loaded).1]
        nofun

/-- Registrations are checked when they are bound, and joins are observed at positive times. -/
theorem step_registration (step : Step s e t) :
    (∀ value, t.registration = some value → value.registration.valid = true ∨
      ∃ old, s.registration = some old ∧ old.registration = value.registration) ∧
    ∀ fingerprint observed, t.joinEpoch = some (fingerprint, observed) →
      0 < observed ∨ s.joinEpoch = some (fingerprint, observed) := by
  have kept : ∀ {u : Store}, u.registration = s.registration → u.joinEpoch = s.joinEpoch →
      (∀ value, u.registration = some value → value.registration.valid = true ∨
        ∃ old, s.registration = some old ∧ old.registration = value.registration) ∧
      ∀ fingerprint observed, u.joinEpoch = some (fingerprint, observed) →
        0 < observed ∨ s.joinEpoch = some (fingerprint, observed) := by
    intro u registration epoch
    rw [registration, epoch]
    exact ⟨fun value found => .inr ⟨value, found, rfl⟩, fun _ _ found => .inr found⟩
  cases step_change step with
  | same equal => exact kept (equal ▸ rfl) (equal ▸ rfl)
  | staged _ equal => exact kept (equal ▸ rfl) (equal ▸ rfl)
  | acknowledged _ _ _ equal => exact kept (equal ▸ rfl) (equal ▸ rfl)
  | rotated _ _ _ _ _ _ done =>
    obtain ⟨_, _, _, _, -, -, -, -, -, rfl | ⟨-, _, rfl⟩⟩ := rotateRecovery_ok done <;> exact kept rfl rfl
  | activated _ _ _ _ _ _ _ _ _ _ _ equal => exact kept (equal ▸ rfl) (equal ▸ rfl)
  | configured _ _ _ _ _ done =>
    obtain ⟨_, -, -, -, -, rfl⟩ := configure_ok done
    exact kept rfl rfl
  | revoked authority revision _ _ done =>
    obtain ⟨-, s', fenced, from'⟩ := revoke_ok done
    obtain ⟨-, rfl⟩ := recordRevocation_ok.mp fenced
    rcases from' with ⟨-, rfl⟩ | ⟨_, -, -, rfl⟩ <;> exact kept rfl rfl
  | checked _ _ _ _ _ _ _ _ _ _ _ _ _ _ settled =>
    obtain ⟨_, rfl, -⟩ := settle_ok settled
    exact kept rfl rfl
  | unbound task _ _ done =>
    obtain ⟨_, _, s', -, -, rfl, ⟨-, rfl⟩ | ⟨_, -, -, -, -, rfl⟩⟩ := revokeTask_ok done <;> exact kept rfl rfl
  | prepared task authority written _ _ done =>
    obtain ⟨s', from', -, -, -, -, -, -, -, rfl⟩ := prepareHello_ok done
    rcases from' with ⟨-, rfl⟩ | ⟨-, fenced⟩
    · exact kept rfl rfl
    · obtain ⟨-, rfl⟩ := recordRevocation_ok.mp fenced
      exact kept rfl rfl
  | hello update => rcases update with rfl | ⟨_, _, _, -, -, rfl⟩ <;> exact kept rfl rfl
  | joined fingerprint now _ _ _ done =>
    have positive : 0 < now := by
      unfold observeJoin at done
      obtain ⟨_, refused, -⟩ := bind_ok.mp done
      rw [refuse_ok, not_or, Int.not_le] at refused
      exact refused.2
    rcases observeJoin_ok done with rfl | ⟨-, rfl⟩ | ⟨_, _, s', -, -, retired, rfl⟩
    · exact kept rfl rfl
    · refine ⟨(kept rfl rfl).1, fun _ _ found => ?_⟩
      cases found
      exact .inl positive
    · refine ⟨(kept (retireRecords_retires retired).registration (retireRecords_retires retired).joinEpoch).1, fun _ _ found => ?_⟩
      cases found
      exact .inl positive
  | bound registration _ done =>
    have valid : registration.valid = true := by
      unfold bindRegistration at done
      obtain ⟨_, refused, -⟩ := bind_ok.mp done
      rw [refuse_ok, Bool.not_eq_false] at refused
      exact refused
    rcases bindRegistration_ok done with ⟨rfl, -⟩ | ⟨-, rfl⟩ | ⟨_, s', -, -, retired, rfl⟩
    · exact kept rfl rfl
    · refine ⟨fun value found => ?_, (kept rfl rfl).2⟩
      cases found
      exact .inl valid
    · refine ⟨fun value found => ?_, (kept (retireRecords_retires retired).registration (retireRecords_retires retired).joinEpoch).2⟩
      cases found
      exact .inl valid
  | unregistered _ done =>
    rcases retireRegistration_ok done with ⟨rfl, -⟩ | ⟨old, s', stored, retired, rfl⟩
    · exact kept rfl rfl
    · refine ⟨fun value found => ?_, (kept (retireRecords_retires retired).registration (retireRecords_retires retired).joinEpoch).2⟩
      cases found
      exact .inr ⟨old, stored, rfl⟩

theorem Kept.step (kept : Kept s) (step : Step s e t) : Kept t where
  registered := by
    intro none
    have before : s.registration = .none := by
      cases registered : s.registration with
      | none => rfl
      | some value =>
        obtain ⟨later, found, -⟩ := (BindingFence.step_onward step).registration value registered
        rw [none] at found
        cases found
    obtain ⟨records, hellos⟩ := kept.registered before
    have absent : ∀ {account : String} {old : Record}, load s account ≠ .ok (some old) := by
      intro account old loaded
      rw [load_some, records] at loaded
      cases loaded.1
    refine ⟨fun sid => ?_, fun sid => ?_⟩
    · cases step_touch step sid with
      | kept same => exact same.trans (records sid)
      | checked _ _ _ loaded => exact absurd loaded absent
      | configured loaded => exact absurd loaded absent
      | rotated loaded => exact absurd loaded absent
      | closed found =>
        rw [records] at found
        cases found
      | activated _ _ written =>
        obtain ⟨_, _, _, _, -, -, -, -, -, -, -, admitted, -⟩ := activation_ok written
        have registered := require_ok (admitAuthority_ok admitted).1
        rw [before] at registered
        cases registered
    · cases found : t.helloBindings.get sid with
      | none => rfl
      | some value =>
        rcases step_hello step found with stored | ⟨-, registered | stored⟩
        · rw [hellos] at stored
          cases stored
        · exact absurd before registered
        · exact absurd (hellos sid) stored
  valid value found := by
    rcases (step_registration step).1 value found with valid | ⟨old, stored, same⟩
    · exact valid
    · exact same ▸ kept.valid old stored
  epoch fingerprint observed found := by
    rcases (step_registration step).2 fingerprint observed found with positive | stored
    · exact positive
    · exact kept.epoch fingerprint observed stored
  sound sid record found := touch_sound (step_touch step sid) (fun old => kept.sound sid old) found
  hello sid value found := by
    rcases step_hello step found with stored | ⟨size, -⟩
    · exact kept.hello sid value stored
    · exact size

theorem reachable_kept {entries : List Entry} (run : Reachable entries s) : Kept s := by
  refine run.invariant Kept ⟨fun _ => ⟨fun _ => rfl, fun _ => rfl⟩, ?_, ?_, ?_, ?_⟩ fun _ _ _ kept step => kept.step step
  · intro value found
    cases found
  · intro fingerprint observed found
    cases found
  · intro sid record found
    cases found
  · intro sid value found
    cases found

end Steps

/-! ## The condition -/

section Ready
variable [TableScan] {s t : Store} {sid : String}

omit [Digests] [Protector] in
/-- The stored Hello records in the order in which a retirement visits them. -/
def helloOrder (s : Store) : List HelloRecord := (helloSids s).filterMap s.helloBindings.get

omit [Wire] [Digests] [Protector] in
def recordOrder (s : Store) : List Record := (sids s).filterMap s.bindings.get

omit [Digests] [Protector] in
/-- Bodies are short enough to be selected, Hello records pass their check, and in the order of a retirement no
generation and revision of a binding goes below its closed row or below one visited earlier. -/
structure Orderly (s : Store) : Prop where
  hello : ∀ sid value, s.helloBindings.get sid = some value →
    value.valid sid = true ∧ (retiredHello value).size ≤ 16384
  record : ∀ sid record, s.bindings.get sid = some record → record.size ≤ 32768 ∧ Sealed record
  rises : Rises s.revoked (raisedRows false (helloOrder s) (recordOrder s))

omit [Digests] [Protector] [TableScan] in
/-- All that a retirement affects is revoked and disabled, and the rows of the bindings are closed. -/
structure Closed (s t : Store) (cloudOnly : Bool) : Prop where
  hello : ∀ sid value, s.helloBindings.get sid = some value →
    t.helloBindings.get sid = some (retiredHello value) ∧
      ∃ row, t.revoked.get value.authority.binding = some row ∧ value.authority.bindingGeneration ≤ row.generation
  record : ∀ sid record, s.bindings.get sid = some record → affected cloudOnly record = true →
    t.bindings.get sid = some (retiredRecord record) ∧
      ∃ row, t.revoked.get record.authority.binding = some row ∧ record.authority.bindingGeneration ≤ row.generation

omit [Wire] [Digests] [Protector] [TableScan] in
/-- A registration that may follow the current one. -/
def Successor (s : Store) (registration : Registration) : Prop :=
  registration.valid = true ∧ ∀ old, s.registration = some old → old.registration.tenant = registration.tenant ∧
    old.registration.device = registration.device ∧ old.registration.generation < registration.generation

omit [Wire] [Digests] [Protector] [TableScan] in
/-- A fingerprint that changes the join, at a time that is not before the last change. -/
def Changes (s : Store) (fingerprint : String) (now : Int) : Prop :=
  isPlain 512 fingerprint = true ∧ 0 < now ∧
    ∀ before observed, s.joinEpoch = some (before, observed) → before ≠ fingerprint ∧ observed ≤ now

omit [Digests] [Protector] in
/-- Everything loads, and every retirement succeeds and closes what it affects. -/
structure Retirable (s : Store) : Prop where
  record : ∀ sid record, s.bindings.get sid = some record → load s sid = .ok (some record)
  hello : ∀ sid value, s.helloBindings.get sid = some value → loadHello s sid = .ok (some value)
  binds : ∀ registration, Successor s registration →
    ∃ t, bindRegistration s registration = .ok t ∧ Closed s t false
  retires : ∃ t, retireRegistration s = .ok t ∧ Closed s t false
  joins : ∀ fingerprint now, Changes s fingerprint now → ∃ observed t,
    observeJoin s fingerprint now = .ok (observed, t) ∧ (s.joinEpoch ≠ none → Closed s t true)

/-! ## The registration is always readable -/

omit [Wire] [Digests] [Protector] [TableScan] in
theorem utf8Size_sum (list : List Char) : (list.map Char.utf8Size).sum = (String.ofList list).utf8ByteSize := by
  induction list with
  | nil => rfl
  | cons c rest ih =>
    have split : String.ofList (c :: rest) = String.singleton c ++ String.ofList rest := by
      rw [show c :: rest = [c] ++ rest from rfl, String.ofList_append]
      rfl
    rw [List.map_cons, List.sum_cons, ih, split, String.utf8ByteSize_append, String.utf8ByteSize_singleton]

omit [Wire] [Digests] [Protector] [TableScan] in
theorem stringSize_le {limit : Nat} {text : String} (plain : isPlain limit text = true) :
    stringSize text ≤ 2 + 2 * limit := by
  unfold isPlain at plain
  simp only [Bool.not_eq_true', Bool.or_eq_false_iff, decide_eq_false_iff_not, Nat.not_lt, List.any_eq_false] at plain
  obtain ⟨⟨-, short⟩, characters⟩ := plain
  have doubled : ∀ list : List Char, (∀ c ∈ list, ¬isControl c = true) → (list.map fun c =>
      if c = '"' ∨ c = '\\' then 2
      else if c.toNat < 32 then (if c.toNat ∈ [8, 9, 10, 12, 13] then 2 else 6)
      else c.utf8Size).sum ≤ 2 * (list.map Char.utf8Size).sum := by
    intro list
    induction list with
    | nil => exact fun _ => Nat.le_refl _
    | cons c rest ih =>
      intro all
      obtain ⟨here, later⟩ := List.forall_mem_cons.mp all
      have positive := c.utf8Size_pos
      have above : ¬c.toNat < 32 := by
        intro low
        exact here (by unfold isControl; simp [low])
      rw [List.map_cons, List.map_cons, List.sum_cons, List.sum_cons, if_neg above]
      have := ih later
      split <;> omega
  have total := doubled text.toList characters
  rw [utf8Size_sum, String.ofList_toList] at total
  unfold stringSize
  omega

omit [Wire] [Digests] [Protector] [TableScan] in
theorem current_size {registration : Registration} {retired : Bool} (valid : registration.valid = true) :
    (Current.mk registration retired).size ≤ 4096 := by
  unfold Registration.valid at valid
  simp only [Bool.and_eq_true, Bool.not_eq_true', Bool.or_eq_false_iff, decide_eq_false_iff_not, Nat.not_lt] at valid
  obtain ⟨⟨-, bound⟩, plain⟩ := valid
  have device := stringSize_le plain
  have digits : natSize registration.generation ≤ 19 := by
    unfold natSize
    rw [Nat.length_toDigits_le_iff (by decide) (by decide)]
    omega
  have flag : boolSize retired ≤ 5 := by
    unfold boolSize
    split <;> decide
  simp only [Current.size, objectSize, arraySize, uuidSize, List.map_cons, List.map_nil, List.isEmpty_cons,
    List.sum_cons, List.sum_nil, Bool.false_eq_true, if_false]
  omega

omit [Digests] [Protector] [TableScan] in
theorem Kept.current (kept : Kept s) : current s = .ok s.registration := by
  unfold AccessStore.current
  cases registered : s.registration with
  | none => rfl
  | some value =>
    have valid := kept.valid value registered
    have size : value.size ≤ 4096 := current_size valid
    dsimp only
    rw [if_neg]
    rw [not_or, Nat.not_lt, Bool.not_eq_false]
    exact ⟨size, valid⟩

/-! ## The condition is exact -/

omit [Digests] [Protector] in
theorem Orderly.load (orderly : Orderly s) (kept : Kept s) {record : Record}
    (stored : s.bindings.get sid = some record) : load s sid = .ok (some record) := by
  obtain ⟨size, sealed⟩ := orderly.record sid record stored
  exact load_some.mpr ⟨stored, size, valid_iff.mpr ⟨kept.sound sid record stored, Rows.get_key stored, sealed⟩⟩

omit [Digests] [Protector] in
theorem Orderly.loadHello (orderly : Orderly s) (kept : Kept s) {value : HelloRecord}
    (stored : s.helloBindings.get sid = some value) : loadHello s sid = .ok (some value) :=
  loadHello_some.mpr ⟨stored, kept.hello sid value stored, (orderly.hello sid value stored).1⟩

omit [Wire] [Digests] [Protector] in
theorem listed_record : ∀ k ∈ sids s, ∃ record, s.bindings.get k = some record := by
  intro k listed
  obtain ⟨record, mem, rfl⟩ := List.mem_map.mp ((TableScan.perm _).mem_iff.mp listed)
  exact ⟨record, Rows.get_of_mem mem⟩

omit [Wire] [Digests] [Protector] in
theorem listed_hello : ∀ k ∈ helloSids s, ∃ value, s.helloBindings.get k = some value := by
  intro k listed
  obtain ⟨value, mem, rfl⟩ := List.mem_map.mp ((TableScan.perm _).mem_iff.mp listed)
  exact ⟨value, Rows.get_of_mem mem⟩

omit [Digests] [Protector] in
theorem Orderly.found (orderly : Orderly s) (kept : Kept s) : Found s (helloOrder s) (recordOrder s) where
  helloSids := Rows.map_filterMap_get listed_hello
  sids := Rows.map_filterMap_get listed_record
  hello value mem := by
    obtain ⟨k, -, stored⟩ := List.mem_filterMap.mp mem
    rw [← Rows.get_key stored] at stored
    exact ⟨orderly.loadHello kept stored, (orderly.hello _ value stored).2⟩
  record record mem := by
    obtain ⟨k, -, stored⟩ := List.mem_filterMap.mp mem
    rw [← Rows.get_key stored] at stored
    exact orderly.load kept stored

omit [Digests] [Protector] in
theorem found_order {hellos : List HelloRecord} {records : List Record} (found : Found s hellos records) :
    hellos = helloOrder s ∧ records = recordOrder s := by
  constructor
  · unfold helloOrder
    rw [← found.helloSids]
    exact (Rows.filterMap_get fun value mem => (loadHello_some.mp (found.hello value mem).1).1).symm
  · unfold recordOrder
    rw [← found.sids]
    exact (Rows.filterMap_get fun record mem => (load_some.mp (found.record record mem)).1).symm

omit [Wire] [Digests] [Protector] [TableScan] in
theorem rises_sublist {rows : Rows Revocation.binding} {list part : List Revocation} (rises : Rises rows list)
    (sub : part.Sublist list) : Rises rows part :=
  ⟨fun row mem => rises.stored row (sub.subset mem), rises.ordered.sublist sub⟩

omit [Wire] [Digests] [Protector] [TableScan] in
theorem raisedRows_sublist {cloudOnly : Bool} {hellos : List HelloRecord} {records : List Record} :
    (raisedRows cloudOnly hellos records).Sublist (raisedRows false hellos records) := by
  unfold raisedRows
  refine List.Sublist.append (.refl _) (List.Sublist.map _ ?_)
  rw [List.filter_eq_self.mpr fun record _ => (rfl : affected false record = true)]
  exact List.filter_sublist

omit [Digests] [Protector] in
theorem Orderly.retires (orderly : Orderly s) (kept : Kept s) (cloudOnly : Bool) :
    ∃ t, retireRecords s cloudOnly = .ok t ∧ Closed s t cloudOnly := by
  have found := orderly.found kept
  have rises : Rises s.revoked (raisedRows cloudOnly (helloOrder s) (recordOrder s)) :=
    rises_sublist orderly.rises raisedRows_sublist
  refine ⟨_, retireRecords_ok.mpr ⟨_, _, found, rises, rfl⟩, fun sid value stored => ⟨?_, ?_⟩,
    fun sid record stored hit => ⟨?_, ?_⟩⟩
  · rw [retired_hello found, stored]
    rfl
  · have mem : helloRow value ∈ raisedRows cloudOnly (helloOrder s) (recordOrder s) :=
      List.mem_append_left _ (List.mem_map_of_mem (found.mem_hello stored))
    obtain ⟨later, row, follows⟩ := rises.covers mem
    exact ⟨later, row, follows.generation⟩
  · rw [retired_record found, stored, Option.map_some, if_pos hit]
  · have mem : recordRow record ∈ raisedRows cloudOnly (helloOrder s) (recordOrder s) :=
      List.mem_append_right _ (List.mem_map_of_mem (List.mem_filter.mpr ⟨found.mem_record stored, hit⟩))
    obtain ⟨later, row, follows⟩ := rises.covers mem
    exact ⟨later, row, follows.generation⟩

omit [Digests] [Protector] in
theorem Orderly.retirable (orderly : Orderly s) (kept : Kept s) : Retirable s where
  record _ _ stored := orderly.load kept stored
  hello _ _ stored := orderly.loadHello kept stored
  binds := by
    rintro registration ⟨valid, follows⟩
    obtain ⟨s', retired, closed⟩ := orderly.retires kept false
    unfold bindRegistration
    rw [kept.current]
    cases registered : s.registration with
    | none =>
      obtain ⟨records, hellos⟩ := kept.registered registered
      refine ⟨{ s with registration := some ⟨registration, false⟩ }, ?_, ⟨fun sid value stored => ?_,
        fun sid record stored => ?_⟩⟩
      · exact bind_ok.mpr ⟨(), refuse_ok.mpr (by simp [valid]), rfl⟩
      · rw [hellos] at stored
        cases stored
      · rw [records] at stored
        cases stored
    | some old =>
      obtain ⟨tenant, device, up⟩ := follows old registered
      refine ⟨{ s' with registration := some ⟨registration, false⟩ }, ?_, ⟨closed.hello, closed.record⟩⟩
      refine bind_ok.mpr ⟨(), refuse_ok.mpr (by simp [valid]), ?_⟩
      change (if old.registration = registration then _ else _) = _
      rw [if_neg fun same => Nat.lt_irrefl _ (same ▸ up)]
      refine bind_ok.mpr ⟨(), refuse_ok.mpr ?_, bind_ok.mpr ⟨s', retired, rfl⟩⟩
      rw [not_or, not_or, not_not, not_not, Nat.not_le]
      exact ⟨tenant, device, up⟩
  retires := by
    obtain ⟨s', retired, closed⟩ := orderly.retires kept false
    unfold retireRegistration
    rw [kept.current]
    cases registered : s.registration with
    | none =>
      obtain ⟨records, hellos⟩ := kept.registered registered
      refine ⟨s, rfl, ⟨fun sid value stored => ?_, fun sid record stored => ?_⟩⟩
      · rw [hellos] at stored
        cases stored
      · rw [records] at stored
        cases stored
    | some value =>
      exact ⟨{ s' with registration := some { value with retired := true } },
        bind_ok.mpr ⟨some value, rfl, bind_ok.mpr ⟨s', retired, rfl⟩⟩, ⟨closed.hello, closed.record⟩⟩
  joins := by
    rintro fingerprint now ⟨plain, positive, new⟩
    obtain ⟨s', retired, closed⟩ := orderly.retires kept true
    have accepted : refuse (isPlain 512 fingerprint = false ∨ now ≤ 0) .invalid = .ok () := by
      rw [refuse_ok, not_or, Bool.not_eq_false, Int.not_le]
      exact ⟨plain, positive⟩
    unfold observeJoin
    cases epoch : s.joinEpoch with
    | none =>
      refine ⟨now, { s with joinEpoch := some (fingerprint, now) }, bind_ok.mpr ⟨(), accepted, rfl⟩, fun some => ?_⟩
      exact absurd rfl some
    | some pair =>
      obtain ⟨before, observed⟩ := pair
      obtain ⟨differ, later⟩ := new before observed epoch
      refine ⟨now, { s' with joinEpoch := some (fingerprint, now) }, bind_ok.mpr ⟨(), accepted, ?_⟩,
        fun _ => ⟨closed.hello, closed.record⟩⟩
      refine bind_ok.mpr ⟨(), refuse_ok.mpr ?_, ?_⟩
      · rw [not_or, Int.not_le, Int.not_lt]
        exact ⟨kept.epoch before observed epoch, later⟩
      · rw [if_neg differ]
        exact bind_ok.mpr ⟨s', retired, rfl⟩

omit [Digests] [Protector] in
theorem Retirable.orderly (retirable : Retirable s) (kept : Kept s) : Orderly s := by
  obtain ⟨t, done, -⟩ := retirable.retires
  have sealed : ∀ sid record, s.bindings.get sid = some record → record.size ≤ 32768 ∧ Sealed record := by
    intro sid record stored
    obtain ⟨-, size, valid⟩ := load_some.mp (retirable.record sid record stored)
    exact ⟨size, (valid_iff.mp valid).2.2⟩
  rcases retireRegistration_ok done with ⟨rfl, none⟩ | ⟨value, s', -, retired, rfl⟩
  · obtain ⟨records, hellos⟩ := kept.registered none
    have empty : helloOrder t = [] ∧ recordOrder t = [] := by
      refine ⟨List.filterMap_eq_nil_iff.mpr fun k _ => hellos k, List.filterMap_eq_nil_iff.mpr fun k _ => records k⟩
    refine ⟨fun sid value stored => ?_, sealed, ?_⟩
    · rw [hellos] at stored
      cases stored
    · rw [empty.1, empty.2]
      exact rises_nil
  · obtain ⟨hellos, records, found, rises, -⟩ := retireRecords_ok.mp retired
    obtain ⟨rfl, rfl⟩ := found_order found
    refine ⟨fun sid value stored => ?_, sealed, rises⟩
    obtain ⟨-, -, valid⟩ := loadHello_some.mp (retirable.hello sid value stored)
    exact ⟨valid, (found.hello value (found.mem_hello stored)).2⟩

/-- In every reachable store everything loads and every retirement succeeds exactly if the store is orderly. -/
theorem retirable_iff {entries : List Entry} (run : Reachable entries s) : Retirable s ↔ Orderly s :=
  ⟨fun retirable => retirable.orderly (reachable_kept run), fun orderly => orderly.retirable (reachable_kept run)⟩

end Ready

end Reach

/-! ## A removal ahead of its record -/

section Samples
open FactorThrottle BindingFence

attribute [local instance] sampleWire sampleDigests sampleProtector sampleScan

def prepared : Store := (runCalls create setupCalls).2

theorem retirable_iff_sample : (Retirable prepared ↔ Orderly prepared) ∧
    (perform prepared .retireRegistration).1 = .done :=
  ⟨retirable_iff (runCalls_runs setupCalls create), by decide +kernel⟩

def aheadCalls : List Call := setupCalls ++ [.revokeTask { removal "a" with bindingGeneration := 2 }]

def ahead : Store := (runCalls create aheadCalls).2

/-- A removal that was accepted for a later generation blocks every retirement. -/
theorem removal_blocks_retirement : Reachable (runCalls create aheadCalls).1 ahead ∧
    (perform ahead .retireRegistration).1 = .failed .changed ∧ ¬Retirable ahead := by
  have refused : (perform ahead .retireRegistration).1 = .failed .changed := by decide +kernel
  refine ⟨runCalls_runs _ _, refused, fun retirable => ?_⟩
  obtain ⟨t, done, -⟩ := retirable.retires
  unfold perform at refused
  dsimp only at refused
  rw [done] at refused
  cases refused

end Samples

end RssMdmAgent.RetirementReady
