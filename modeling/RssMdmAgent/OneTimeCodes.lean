import RssMdmAgent.FactorThrottle

set_option autoImplicit false

/-! # One-time codes and the uses of recovery secrets -/

namespace RssMdmAgent.OneTimeCodes
open OrderedRows AccessRecords AccessStore AccessSteps FactorThrottle TransitionRuns
open ContractPlan (bind_ok)

/-! ## What a trace says about codes -/

def usedSteps (entries : List Entry) : List (Bytes × Int) := entries.filterMap (·.used)

def UsedOnce (entries : List Entry) : Prop :=
  ∀ before e after x n m, entries = before ++ e :: after → e.reply = .decided .accepted → e.used = some (x, n) →
    (x, m) ∈ usedSteps before → m < n

def nextUses (uses : List (Uuid × Int)) (e : Entry) : List (Uuid × Int) :=
  match e.call, e.reply with
  | .verify _ (.recovery _) clock useId, .decided .accepted => uses ++ [(useId, clock.utc)]
  | .acknowledgeRecoveryUse operation, .done => uses.filter (·.1 ≠ operation)
  | _, _ => uses

def openUses (entries : List Entry) : List (Uuid × Int) := entries.foldl nextUses []

theorem usedSteps_append {entries : List Entry} {e : Entry} :
    usedSteps (entries ++ [e]) = usedSteps entries ++ e.used.toList := by
  unfold usedSteps
  rw [List.filterMap_append]
  cases used : e.used <;> simp [used]

theorem UsedOnce.extend {entries : List Entry} {e : Entry} (before : UsedOnce entries)
    (later : ∀ x n m, e.reply = .decided .accepted → e.used = some (x, n) → (x, m) ∈ usedSteps entries → m < n) :
    UsedOnce (entries ++ [e]) := by
  intro first f rest x n m split accepted used earlier
  rcases List.eq_nil_or_concat rest with rfl | ⟨rest', final, rfl⟩
  · obtain ⟨rfl, equal⟩ := List.append_inj' split rfl
    cases equal
    exact later x n m accepted used earlier
  · have cut : entries ++ [e] = (first ++ f :: rest') ++ [final] := by simpa using split
    obtain ⟨rfl, -⟩ := List.append_inj' cut rfl
    exact before first f rest' x n m rfl accepted used earlier

/-! ## Steps of a secret that no longer count -/

def Spent (n consumed utc : Int) : Prop := n ≤ consumed ∨ n + 1 < utc.tdiv 30

instance (n consumed utc : Int) : Decidable (Spent n consumed utc) := inferInstanceAs (Decidable (_ ∨ _))

theorem Spent.mono {n consumed utc consumed' utc' : Int} (spent : Spent n consumed utc) (steps : consumed ≤ consumed')
    (floor : utc ≤ utc') : Spent n consumed' utc' := by
  have window : utc.tdiv 30 ≤ utc'.tdiv 30 := Int.tdiv_le_tdiv (by decide) floor
  unfold Spent at spent ⊢
  omega

theorem foldl_found {α : Type} {hit : α → Prop} [DecidablePred hit] {n : α} : ∀ (list : List α) (start : Option α),
    list.foldl (fun found a => if hit a then some a else found) start = some n →
      (n ∈ list ∧ hit n) ∨ start = some n
  | [], _, h => .inr h
  | a :: rest, start, h => by
    rw [List.foldl_cons] at h
    rcases foldl_found rest _ h with ⟨mem, here⟩ | first
    · exact .inl ⟨List.mem_cons_of_mem _ mem, here⟩
    · split at first
      · rename_i here
        cases first
        exact .inl ⟨List.mem_cons_self, here⟩
      · exact .inr first

section Steps
variable [Digests]

theorem matchingStep_some {secret : Bytes} {code : String} {utc consumed n : Int}
    (h : matchingStep secret code utc consumed = some n) :
    0 ≤ n ∧ consumed < n ∧ utc.tdiv 30 - 1 ≤ n := by
  unfold matchingStep at h
  split at h
  · cases h
  · dsimp only at h
    rcases foldl_found _ _ h with ⟨mem, hit⟩ | start
    · refine ⟨hit.1, hit.2.1, ?_⟩
      simp only [List.mem_cons, List.not_mem_nil, or_false] at mem
      omega
    · cases start

theorem Spent.before {secret : Bytes} {code : String} {utc utc' consumed m n : Int} (spent : Spent m consumed utc')
    (floor : utc' ≤ utc) (matched : matchingStep secret code utc consumed = some n) : m < n := by
  obtain ⟨-, new, window⟩ := matchingStep_some matched
  have later : utc'.tdiv 30 ≤ utc.tdiv 30 := Int.tdiv_le_tdiv (by decide) floor
  unfold Spent at spent
  omega

end Steps

/-! ## Activations and confirmations with care -/

section Care
variable [Wire] [Digests] [Protector]

omit [Wire] [Digests] in
/-- The secret that a record opens to. -/
def Holds (record : Record) (x : Bytes) : Prop := Protector.openBytes record.secret = .ok x

omit [Digests] [Protector] in
/-- The clock floor of an account after an activation. -/
def floorAfter (s : Store) (sid : String) (clock : Clock) : Int :=
  match load s sid with
  | .ok (some old) => max old.utc clock.utc
  | _ => clock.utc

/-- A code confirms a candidate only if no live record of its secret could still accept it; a candidate is only
activated if the steps used with its secret are spent for it, and no other live record has that secret. -/
structure Careful (done : List Entry) (s : Store) (e : Entry) : Prop where
  confirms : ∀ x n, e.used = some (x, n) → e.reply = .done → ∀ sid record, load s sid = .ok (some record) →
    record.revoked = false → Holds record x → Spent n record.consumedStep record.utc
  activates : ∀ authority revision enabled operation facts clock nonce record plain,
    e.call = .activate authority revision enabled operation facts clock nonce →
    activation s authority revision enabled operation facts clock nonce = .ok (some record) →
    candidate s operation = .ok plain →
    (∀ n, (plain.secret, n) ∈ usedSteps done → Spent n plain.confirmedStep (floorAfter s authority.sid clock)) ∧
      ∀ sid other, load s sid = .ok (some other) → sid ≠ authority.sid → other.revoked = false →
        ¬Holds other plain.secret

variable [TableScan]

structure CarefulStep (h : List Entry × Store) (e : Entry) (h' : List Entry × Store) : Prop where
  careful : Careful h.1 h.2 e
  step : Step h.2 e h'.2
  trace : h'.1 = h.1 ++ [e]

structure Consumed (done : List Entry) (s : Store) : Prop where
  spent : ∀ sid record x n, load s sid = .ok (some record) → record.revoked = false → Holds record x →
    (x, n) ∈ usedSteps done → Spent n record.consumedStep record.utc
  alone : ∀ sid sid' record record' x, load s sid = .ok (some record) → load s sid' = .ok (some record') →
    record.revoked = false → record'.revoked = false → Holds record x → Holds record' x → sid = sid'

end Care

section Touches
variable [Wire] [Digests] [Protector] {s t : Store} {e : Entry} {sid : String} {record : Record}

omit [Wire] in
/-- A judged record keeps its secret and never lowers its consumed step. -/
theorem judge_secret {factor : Factor} {clock : Clock} {decision : Decision} {judged : Record}
    (h : judge record factor clock = .ok (decision, judged)) :
    judged.secret = record.secret ∧ judged.revoked = record.revoked ∧ judged.utc = record.utc ∧
      record.consumedStep ≤ judged.consumedStep := by
  have kept : ∀ r : Record, (punished r clock).secret = r.secret ∧ (punished r clock).revoked = r.revoked ∧
      (punished r clock).utc = r.utc ∧ (punished r clock).consumedStep = r.consumedStep := by
    intro r
    unfold punished
    dsimp only
    split <;> exact ⟨rfl, rfl, rfl, rfl⟩
  have consumed : ∀ {accepted : Bool} {step : Int}, checkFactor record factor clock = .ok (accepted, step) →
      record.consumedStep ≤ step := by
    intro accepted step checked
    cases factor with
    | recovery code =>
      cases checked
      exact Int.le_refl _
    | totp code =>
      cases accepted with
      | true =>
        obtain ⟨-, secret, -, found⟩ := checkFactor_totp checked
        exact Int.le_of_lt (matchingStep_some found).2.1
      | false =>
        unfold checkFactor at checked
        dsimp only at checked
        split at checked
        · cases checked
          exact Int.le_refl _
        · obtain ⟨secret, -, checked'⟩ := bind_ok.mp checked
          obtain ⟨_, -, checked''⟩ := bind_ok.mp checked'
          split at checked''
          · cases checked''
          · cases checked''
            exact Int.le_refl _
  rcases judge_cases h with ⟨-, rfl⟩ | ⟨-, -, accepted, step, checked, ⟨-, -, rfl⟩ | ⟨-, -, rfl⟩⟩
  · exact ⟨rfl, rfl, rfl, Int.le_refl _⟩
  · exact ⟨rfl, rfl, rfl, consumed checked⟩
  · obtain ⟨secret, revoked, utc, step'⟩ := kept { record with
      lockUntil := deadline record clock
      lockSeconds := 0
      consumedStep := step }
    exact ⟨secret, revoked, utc, by rw [step']; exact consumed checked⟩

theorem touch_live (touch : Touch s t e sid) (after : load t sid = .ok (some record)) (live : record.revoked = false) :
    (∃ old, load s sid = .ok (some old) ∧ old.revoked = false ∧ record.secret = old.secret ∧
        old.consumedStep ≤ record.consumedStep ∧ old.utc ≤ record.utc) ∨
      ∃ authority revision enabled operation facts clock nonce,
        e.call = .activate authority revision enabled operation facts clock nonce ∧ authority.sid = sid ∧
        activation s authority revision enabled operation facts clock nonce = .ok (some record) := by
  obtain ⟨found, readable⟩ := load_some.mp after
  cases touch with
  | kept same => exact .inl ⟨record, load_some.mpr ⟨same ▸ found, readable⟩, live, rfl, Int.le_refl _, Int.le_refl _⟩
  | @checked expected factor clock useId old judged decision _ _ _ loaded _ before judgement _ row =>
    cases found.symm.trans row
    obtain ⟨secret, -, utc, step⟩ := judge_secret judgement
    refine .inl ⟨old, loaded, before, secret, step, ?_⟩
    exact utc ▸ Int.le_max_left judged.utc clock.utc
  | activated call account written _ row =>
    cases found.symm.trans row
    exact .inr ⟨_, _, _, _, _, _, _, call, account, written⟩
  | configured loaded before row =>
    cases found.symm.trans row
    exact .inl ⟨_, loaded, before, rfl, Int.le_refl _, Int.le_refl _⟩
  | rotated loaded before row =>
    cases found.symm.trans row
    exact .inl ⟨_, loaded, before, rfl, Int.le_refl _, Int.le_refl _⟩
  | closed _ row =>
    cases found.symm.trans row
    cases live

theorem activation_fields {authority : Authority} {revision : Int} {enabled : Bool} {operation : Uuid}
    {facts : AccessRssFacts} {clock : Clock} {nonce : Nat}
    (written : activation s authority revision enabled operation facts clock nonce = .ok (some record)) :
    ∃ plain, candidate s operation = .ok plain ∧ Protector.sealBytes nonce plain.secret = .ok record.secret ∧
      record.consumedStep = plain.confirmedStep ∧ record.utc = floorAfter s authority.sid clock := by
  obtain ⟨plain, secret, recoverySecret, old, -, -, -, -, opened, sealed, -, -, loaded, replaced⟩ :=
    activation_ok written
  rcases replaceRecord_some replaced with ⟨rfl, rfl⟩ | ⟨before, rfl, rfl, -, -⟩
  · refine ⟨plain, opened, sealed, rfl, ?_⟩
    unfold floorAfter
    rw [loaded]
    rfl
  · refine ⟨plain, opened, sealed, rfl, ?_⟩
    unfold floorAfter
    rw [loaded]
    rfl

theorem activation_holds [LawfulProtector] {authority : Authority} {revision : Int} {enabled : Bool}
    {operation : Uuid} {facts : AccessRssFacts} {clock : Clock} {nonce : Nat} {x : Bytes}
    (written : activation s authority revision enabled operation facts clock nonce = .ok (some record))
    (holds : Holds record x) : ∃ plain, candidate s operation = .ok plain ∧ x = plain.secret ∧
      record.consumedStep = plain.confirmedStep ∧ record.utc = floorAfter s authority.sid clock := by
  obtain ⟨plain, opened, sealed, step, utc⟩ := activation_fields written
  have same := holds.symm.trans (LawfulProtector.open_seal _ _ _ sealed)
  cases same
  exact ⟨plain, opened, rfl, step, utc⟩

variable [TableScan]

/-- An accepted code is a new step of the secret of a live record, and the record remembers it. -/
theorem accepted_code {x : Bytes} {n : Int} (step : Step s e t) (accepted : e.reply = .decided .accepted)
    (used : e.used = some (x, n)) : ∃ sid record code, ∃ clock : Clock, load s sid = .ok (some record) ∧
      record.revoked = false ∧ Holds record x ∧ record.utc ≤ clock.utc ∧
      matchingStep x code clock.utc record.consumedStep = some n ∧
      ∀ after, t.bindings.get sid = some after → after.consumedStep = n := by
  have by' : e.used = usedBy s e.call e.reply := by
    cases step with
    | interrupted failed =>
      rw [accepted] at failed
      cases failed
    | answered _ by' => exact by'
  rw [by', accepted] at used
  cases step_change step with
  | checked expected factor clock useId record judged decision call timed loaded _ live judgement reply settled =>
    cases accepted.symm.trans reply
    rw [call] at used
    cases factor with
    | recovery => cases used
    | totp code =>
      obtain ⟨found, -⟩ := load_some.mp loaded
      rcases judge_cases judgement with ⟨denied, -⟩ | ⟨-, -, passed, consumed, verdict, ⟨rfl, -, rfl⟩ | ⟨-, denied, -⟩⟩
      · cases denied
      · obtain ⟨forward, secret, opened, matched⟩ := checkFactor_totp verdict
        unfold usedBy at used
        dsimp only at used
        rw [found] at used
        simp only [Option.map_some, opened, matched, Option.some.injEq, Prod.mk.injEq] at used
        obtain ⟨rfl, rfl⟩ := used
        unfold rollback at forward
        rw [Bool.or_eq_false_iff, decide_eq_false_iff_not, Int.not_lt] at forward
        refine ⟨expected.sid, record, code, clock, loaded, live, opened, forward.1, matched, fun after stored => ?_⟩
        obtain ⟨uses, rfl, -⟩ := settle_ok settled
        cases stored.symm.trans ((saved_row _ _).trans (if_pos (load_sid loaded).symm))
        rfl
      · split at denied <;> cases denied
  | same _ idle | staged _ _ idle | hello _ idle =>
    cases call : e.call with
    | verify expected factor clock useId =>
      have reaches' := idle expected.sid
      unfold reaches at reaches'
      rw [call, accepted] at reaches'
      simp at reaches'
    | _ =>
      rw [call] at used
      cases used
  | acknowledged _ call | rotated _ _ _ _ _ call | activated _ _ _ _ _ _ _ _ call | configured _ _ _ _ call
    | revoked _ _ call | joined _ _ _ call | unbound _ call | bound _ call | unregistered call
    | prepared _ _ _ call =>
    rw [call] at used
    cases used

theorem used_reply {x : Bytes} {n : Int} (step : Step s e t) (used : e.used = some (x, n)) :
    e.reply = .done ∨ e.reply = .decided .accepted := by
  cases step with
  | interrupted _ none =>
    rw [none] at used
    cases used
  | answered _ by' =>
    rw [by'] at used
    unfold usedBy at used
    split at used
    · exact .inl ‹_›
    · exact .inl ‹_›
    · exact .inr ‹_›
    · cases used

theorem activation_used {authority : Authority} {revision : Int} {enabled : Bool} {operation : Uuid}
    {facts : AccessRssFacts} {clock : Clock} {nonce : Nat} (step : Step s e t)
    (call : e.call = .activate authority revision enabled operation facts clock nonce) : e.used = none := by
  cases step with
  | interrupted _ none => exact none
  | answered _ by' =>
    rw [by', call]
    rfl

/-! ## One step keeps what the used steps are -/

variable [LawfulProtector] {done : List Entry}

theorem Consumed.step (consumed : Consumed done s) (careful : Careful done s e) (step : Step s e t) :
    Consumed (done ++ [e]) t where
  spent := by
    intro sid record x n loaded live holds used
    rw [usedSteps_append, List.mem_append, Option.mem_toList] at used
    rcases touch_live (step_touch step sid) loaded live with
      ⟨old, before, alive, secret, steps, floor⟩ | ⟨authority, revision, enabled, operation, facts, clock, nonce, call, account, written⟩
    · have held : Holds old x := by
        unfold Holds
        rw [← secret]
        exact holds
      rcases used with earlier | now
      · exact (consumed.spent sid old x n before alive held earlier).mono steps floor
      · rcases used_reply step now with confirmed | accepted
        · exact (careful.confirms x n now confirmed sid old before alive held).mono steps floor
        · obtain ⟨sid', record', code, clock, loaded', live', held', -, -, remembered⟩ := accepted_code step accepted now
          cases consumed.alone sid sid' old record' x before loaded' alive live' held held'
          exact .inl (remembered record (load_some.mp loaded).1).ge
    · obtain ⟨plain, opened, rfl, step', utc⟩ := activation_holds written holds
      rcases used with earlier | now
      · rw [step', utc]
        exact (careful.activates _ _ _ _ _ _ _ _ _ call written opened).1 n earlier
      · rw [activation_used step call] at now
        cases now
  alone := by
    intro sid sid' record record' x loaded loaded' live live' holds holds'
    rcases touch_live (step_touch step sid) loaded live with
      ⟨old, before, alive, secret, -⟩ | ⟨authority, revision, enabled, operation, facts, clock, nonce, call, account, written⟩
    · have held : Holds old x := by
        unfold Holds
        rw [← secret]
        exact holds
      rcases touch_live (step_touch step sid') loaded' live' with
        ⟨old', before', alive', secret', -⟩ | ⟨_, _, _, _, _, _, _, call', account', written'⟩
      · refine consumed.alone sid sid' old old' x before before' alive alive' held ?_
        unfold Holds
        rw [← secret']
        exact holds'
      · obtain ⟨plain, opened, rfl, -⟩ := activation_holds written' holds'
        by_contra differ
        exact (careful.activates _ _ _ _ _ _ _ _ _ call' written' opened).2 sid old before (account' ▸ differ) alive held
    · obtain ⟨plain, opened, rfl, -⟩ := activation_holds written holds
      rcases touch_live (step_touch step sid') loaded' live' with
        ⟨old', before', alive', secret', -⟩ | ⟨_, _, _, _, _, _, _, call', account', -⟩
      · by_contra differ
        refine (careful.activates _ _ _ _ _ _ _ _ _ call written opened).2 sid' old' before' ?_ alive' ?_
        · rw [account]
          exact Ne.symm differ
        · unfold Holds
          rw [← secret']
          exact holds'
      · cases call.symm.trans call'
        exact account.symm.trans account'

omit [LawfulProtector] in
theorem UsedOnce.step (once : UsedOnce done) (consumed : Consumed done s) (step : Step s e t) :
    UsedOnce (done ++ [e]) := by
  apply once.extend
  intro x n m accepted used earlier
  obtain ⟨sid, record, code, clock, loaded, live, holds, floor, matched, -⟩ := accepted_code step accepted used
  exact (consumed.spent sid record x m loaded live holds earlier).before floor matched

end Touches

/-! ## The uses of recovery secrets -/

section Uses
variable [Wire] [Digests] [Protector] [TableScan] {s t : Store} {e : Entry}

def keptUses (s : Store) : List (Uuid × Int) := s.recoveryUses.entries.map fun use => (use.operationId, use.usedAt)

omit [Wire] [Digests] [Protector] [TableScan] in
theorem nextUses_kept {uses : List (Uuid × Int)} (idle : ∀ sid, reaches sid e = false)
    (kept : ∀ operation, e.call = .acknowledgeRecoveryUse operation → e.reply ≠ .done) : nextUses uses e = uses := by
  unfold nextUses
  split
  · rename_i expected code clock useId call reply
    have evaluated := idle expected.sid
    unfold reaches at evaluated
    rw [call, reply] at evaluated
    simp at evaluated
  · rename_i operation call reply
    exact absurd reply (kept operation call)
  · rfl

omit [Wire] [Digests] [Protector] [TableScan] in
theorem keptUses_eq (same : t.recoveryUses = s.recoveryUses) : keptUses t = keptUses s := by
  unfold keptUses
  rw [same]

/-- The stored uses follow the trace step by step. -/
theorem step_uses (step : Step s e t) : keptUses t = nextUses (keptUses s) e := by
  cases step_change step with
  | same equal idle kept => rw [equal, nextUses_kept idle kept]
  | staged rows equal idle kept =>
    rw [nextUses_kept idle fun operation here => absurd here (kept operation)]
    exact keptUses_eq (equal ▸ rfl)
  | hello update idle kept =>
    rw [nextUses_kept idle fun operation here => absurd here (kept operation)]
    apply keptUses_eq
    rcases update with rfl | ⟨_, _, _, -, -, rfl⟩ <;> rfl
  | acknowledged operation call reply equal =>
    have kept : keptUses t = (keptUses s).filter (·.1 ≠ operation) := by
      rw [equal]
      unfold keptUses
      rw [List.filter_map]
      rfl
    rw [kept]
    unfold nextUses
    rw [call, reply]
  | checked expected factor clock useId record judged decision call timed loaded _ live judgement reply settled =>
    obtain ⟨uses, rfl, ⟨⟨rfl, recovery⟩, fresh, rfl⟩ | ⟨other, rfl⟩⟩ := settle_ok settled
    · cases factor with
      | totp => cases recovery
      | recovery code =>
        unfold nextUses
        rw [call, reply]
        change ((s.recoveryUses.set _).entries.map _) = _
        rw [Rows.entries_set_absent fresh, List.map_append]
        rfl
    · have kept : nextUses (keptUses s) e = keptUses s := by
        unfold nextUses
        rw [call, reply]
        split
        · rename_i here accepted
          cases here
          cases accepted
          exact absurd ⟨rfl, rfl⟩ other
        · rename_i here _
          cases here
        · rfl
      rw [kept]
      exact keptUses_eq rfl
  | rotated task subject recovery receipt nonce call done =>
    have kept : nextUses (keptUses s) e = keptUses s := by
      unfold nextUses
      rw [call]
    rw [kept]
    apply keptUses_eq
    obtain ⟨_, _, account, record, -, -, -, -, -, rfl | ⟨-, body, rfl⟩⟩ := rotateRecovery_ok done <;> rfl
  | activated authority revision enabled operation facts clock nonce record call written reply equal =>
    have kept : nextUses (keptUses s) e = keptUses s := by
      unfold nextUses
      rw [call]
    rw [kept]
    exact keptUses_eq (equal ▸ rfl)
  | configured authority revision enabled facts call done =>
    have kept : nextUses (keptUses s) e = keptUses s := by
      unfold nextUses
      rw [call]
    rw [kept]
    obtain ⟨record, -, -, -, -, rfl⟩ := configure_ok done
    exact keptUses_eq rfl
  | revoked authority revision call _ done =>
    have kept : nextUses (keptUses s) e = keptUses s := by
      unfold nextUses
      rw [call]
    rw [kept]
    apply keptUses_eq
    obtain ⟨-, s', fenced, from'⟩ := revoke_ok done
    obtain ⟨-, rfl⟩ := recordRevocation_ok.mp fenced
    rcases from' with ⟨-, rfl⟩ | ⟨record, -, -, rfl⟩ <;> rfl
  | joined fingerprint now observed call _ done =>
    have kept : nextUses (keptUses s) e = keptUses s := by
      unfold nextUses
      rw [call]
    rw [kept]
    apply keptUses_eq
    rcases observeJoin_ok done with rfl | ⟨-, rfl⟩ | ⟨_, _, s', -, -, retired, rfl⟩
    · rfl
    · rfl
    · exact (retireRecords_retires retired).recoveryUses
  | unbound task call _ done =>
    have kept : nextUses (keptUses s) e = keptUses s := by
      unfold nextUses
      rw [call]
    rw [kept]
    apply keptUses_eq
    obtain ⟨account, source, s', -, -, rfl, ⟨-, rfl⟩ | ⟨record, -, -, -, -, rfl⟩⟩ := revokeTask_ok done <;> rfl
  | bound registration call done =>
    have kept : nextUses (keptUses s) e = keptUses s := by
      unfold nextUses
      rw [call]
    rw [kept]
    apply keptUses_eq
    rcases bindRegistration_ok done with ⟨rfl, -⟩ | ⟨-, rfl⟩ | ⟨old, s', -, -, retired, rfl⟩
    · rfl
    · rfl
    · exact (retireRecords_retires retired).recoveryUses
  | unregistered call done =>
    have kept : nextUses (keptUses s) e = keptUses s := by
      unfold nextUses
      rw [call]
    rw [kept]
    apply keptUses_eq
    rcases retireRegistration_ok done with ⟨rfl, -⟩ | ⟨value, s', -, retired, rfl⟩
    · rfl
    · exact (retireRecords_retires retired).recoveryUses
  | prepared task authority value call _ done =>
    have kept : nextUses (keptUses s) e = keptUses s := by
      unfold nextUses
      rw [call]
    rw [kept]
    apply keptUses_eq
    obtain ⟨s', from', -, -, -, -, -, -, -, rfl⟩ := prepareHello_ok done
    rcases from' with ⟨-, rfl⟩ | ⟨-, fenced⟩
    · rfl
    · obtain ⟨-, rfl⟩ := recordRevocation_ok.mp fenced
      rfl

theorem reachable_uses {entries : List Entry} (run : Reachable entries s) : keptUses s = openUses entries := by
  refine run.history (fun entries s => keptUses s = openUses entries) rfl fun done s e t before step => ?_
  rw [step_uses step, before]
  unfold openUses
  rw [List.foldl_append]
  rfl

end Uses

/-! ## Runs with care -/

section Runs
variable [Wire] [Digests] [Protector] [TableScan] [LawfulProtector]

/-- In a run of careful steps every code is used once, and the open uses are those of the trace. -/
theorem codes_used_once {entries : List Entry} {h : List Entry × Store}
    (run : Runs CarefulStep ([], create) entries h) : UsedOnce entries ∧ keptUses h.2 = openUses entries := by
  have all : h.1 = entries ∧ Consumed entries h.2 ∧ UsedOnce entries ∧ Reachable entries h.2 := by
    refine run.history
      (fun entries h => h.1 = entries ∧ Consumed entries h.2 ∧ UsedOnce entries ∧ Reachable entries h.2) ?_ ?_
    · refine ⟨rfl, ⟨fun sid record x n loaded => ?_, fun sid _ record _ x loaded => ?_⟩, ?_, .refl⟩
      · cases loaded
      · cases loaded
      · intro before e after x n m split
        exact absurd split (by simp)
    · rintro done ⟨trace, s⟩ e ⟨trace', t⟩ ⟨rfl, consumed, once, reached⟩ ⟨careful, step, rfl⟩
      exact ⟨rfl, consumed.step careful step, once.step consumed step, .next reached step⟩
  exact ⟨all.2.2.1, reachable_uses all.2.2.2⟩

omit [LawfulProtector] in
/-- The care of one call, computed over the stored records. -/
def careful (done : List Entry) (s : Store) (e : Entry) : Bool :=
  (match e.used, e.reply with
  | some (x, n), .done => s.bindings.entries.all fun record =>
      record.revoked || Protector.openBytes record.secret ≠ .ok x || decide (Spent n record.consumedStep record.utc)
  | _, _ => true) &&
  match e.call with
  | .activate authority _ _ operation _ clock _ =>
    match candidate s operation with
    | .ok plain => ((usedSteps done).all fun used =>
          used.1 ≠ plain.secret || decide (Spent used.2 plain.confirmedStep (floorAfter s authority.sid clock))) &&
        s.bindings.entries.all fun record =>
          record.sid = authority.sid || record.revoked || Protector.openBytes record.secret ≠ .ok plain.secret
    | .error _ => true
  | _ => true

omit [TableScan] [LawfulProtector] in
theorem careful_sound {done : List Entry} {s : Store} {e : Entry} (checked : careful done s e = true) :
    Careful done s e := by
  unfold careful at checked
  rw [Bool.and_eq_true] at checked
  refine ⟨fun x n used reply sid record loaded live holds => ?_, ?_⟩
  · have stored := Rows.get_mem (load_some.mp loaded).1
    have each := checked.1
    rw [used, reply] at each
    have here := List.all_eq_true.mp each record stored
    unfold Holds at holds
    simpa [live, holds] using here
  · intro authority revision enabled operation facts clock nonce record plain call _ opened
    have each := checked.2
    rw [call] at each
    dsimp only at each
    rw [opened] at each
    rw [Bool.and_eq_true] at each
    refine ⟨fun n used => ?_, fun sid other loaded differ live holds => ?_⟩
    · simpa using List.all_eq_true.mp each.1 _ used
    · have stored := Rows.get_mem (load_some.mp loaded).1
      have here := List.all_eq_true.mp each.2 other stored
      unfold Holds at holds
      rw [← load_sid loaded] at differ
      simp [live, holds, differ] at here

def carefulCalls (done : List Entry) (s : Store) : List Call → Bool
  | [] => true
  | call :: rest => careful done s (entryOf s call) && carefulCalls (done ++ [entryOf s call]) (perform s call).2 rest

omit [LawfulProtector] in
theorem carefulCalls_runs : ∀ (calls : List Call) (done : List Entry) (s : Store), carefulCalls done s calls = true →
    Runs CarefulStep (done, s) (runCalls s calls).1 (done ++ (runCalls s calls).1, (runCalls s calls).2)
  | [], done, s, _ => by
    rw [runCalls, List.append_nil]
    exact .refl
  | call :: rest, done, s, all => by
    rw [carefulCalls, Bool.and_eq_true] at all
    have later := carefulCalls_runs rest (done ++ [entryOf s call]) (perform s call).2 all.2
    rw [List.append_assoc] at later
    exact (Runs.one ⟨careful_sound all.1, entryOf_step s call, rfl⟩).trans later

end Runs

/-! ## A code of the account "a" -/

section Samples

attribute [local instance] sampleWire sampleDigests sampleProtector sampleScan

instance sampleLawful : LawfulProtector where
  open_seal := by
    intro nonce plain body sealed
    unfold Protector.sealBytes at sealed
    change (if plain.length < 256 then _ else _) = _ at sealed
    split at sealed
    · rename_i short
      cases sealed
      have length : (UInt8.ofNat plain.length).toNat = plain.length := UInt8.toNat_ofNat_of_lt' short
      change Except.ok ((plain ++ List.replicate nonce 255).take (UInt8.ofNat plain.length).toNat) = _
      rw [length, List.take_left]
    · cases sealed

def codeCall (factorGeneration : Int) (step : Int) : Call :=
  .verify (sampleAuthority "a" 5 1 factorGeneration) (.totp (otp (List.replicate 20 7) step)) (sampleClock 3030 1010 1) 0

theorem codes_used_once_sample :
    UsedOnce (runCalls create (setupCalls ++ [codeCall 1 101, codeCall 1 101])).1 ∧
      ((runCalls create (setupCalls ++ [codeCall 1 101, codeCall 1 101])).1.drop 3).map (·.reply) =
        [.decided .accepted, .decided .denied] :=
  ⟨(codes_used_once (carefulCalls_runs (setupCalls ++ [codeCall 1 101, codeCall 1 101]) [] create
    (by decide +kernel))).1, by decide +kernel⟩

def againCalls : List Call := [
  codeCall 1 101,
  activateCall (sampleAuthority "a" 5 1 2) 2 1 (sampleClock 3030 1010 1),
  codeCall 2 101]

/-- A second activation of a candidate accepts a code again. -/
theorem code_used_twice :
    Reachable (runCalls create (setupCalls ++ againCalls)).1 (runCalls create (setupCalls ++ againCalls)).2 ∧
      ¬UsedOnce (runCalls create (setupCalls ++ againCalls)).1 := by
  refine ⟨runCalls_runs _ _, fun once => ?_⟩
  have trace : (runCalls create (setupCalls ++ againCalls)).1 =
      (runCalls create (setupCalls ++ againCalls.take 2)).1 ++
        [⟨codeCall 2 101, .decided .accepted, some (List.replicate 20 7, 101)⟩] := by
    decide +kernel
  have later := once _ _ _ _ _ 101 trace rfl rfl (by decide +kernel)
  exact absurd later (by decide)

end Samples

end RssMdmAgent.OneTimeCodes
