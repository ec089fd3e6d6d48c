import RssMdmAgent.LifecycleAdvances

set_option autoImplicit false

/-! # The relations of a snapshot are kept by every accepted input -/

namespace RssMdmAgent.LifecycleConsistency
open BoundedArithmetic ContractIdentity ContractPlan LifecycleModel LifecycleState LifecycleSteps LifecycleRuns LifecycleAdvances

section Relations

theorem require_then {α ε : Type} {ok : Bool} {error : ε} {next : Except ε α} {value : α} :
    (require ok error >>= fun _ => next) = .ok value ↔ ok = true ∧ next = .ok value := by
  cases ok <;> simp [require, bind, Except.bind]

/-- The relations of the current attempt to the snapshot and to the plan. -/
structure AttemptValid (p : FrozenExecution) (s : Snapshot) (a : AttemptSnapshot) (first : Nat) : Prop where
  prepared : s.preparation = .prepared
  number : a.number = s.attempts
  counted : a.number ≠ 0
  opened : s.openedAtUnixMs ≤ first
  started : p.spec.validity.notBeforeUnixMs ≤ first
  ordered : first ≤ a.acceptedAtUnixMs
  window : a.acceptedAtUnixMs < p.spec.validity.expiresAtUnixMs
  accepted : a.acceptedAtUnixMs ≤ s.updatedAtUnixMs
  elapsed : a.acceptedAtUnixMs - first < p.spec.budget.totalTimeoutMs
  single : a.number = 1 → first = a.acceptedAtUnixMs ∧ s.priorOutputBytes = 0
  prior : s.priorOutputBytes < p.spec.budget.totalOutputBytes
  provenance : Authority.isTest p.spec.request.authority = true → a.mode = .test
  recorded : ∀ o ∈ a.termination.toList ++ a.assessment.toList, validRecorded s a o = true
  settled : ∀ t, a.termination = some t → finalOutput a t.observation = some a.outputBytes
  assessed : ∀ o, a.assessment = some o → isEffect o.observation = true ∧
    ∃ t, a.termination = some t ∧ t.observedAtUnixMs ≤ o.observedAtUnixMs

theorem validAttempt_iff {p : FrozenExecution} {s : Snapshot} {a : AttemptSnapshot} {first : Nat} :
    validAttempt p s a first = true ↔ AttemptValid p s a first := by
  unfold validAttempt
  simp only [Bool.and_eq_true, Bool.or_eq_true, Bool.not_eq_true', beq_iff_eq, decide_eq_true_eq, List.all_eq_true, ne_eq]
  constructor
  · rintro ⟨⟨⟨⟨⟨⟨⟨⟨⟨⟨⟨⟨⟨⟨prepared, number⟩, counted⟩, opened⟩, started⟩, ordered⟩, window⟩, accepted⟩, elapsed⟩, single⟩, prior⟩, provenance⟩,
      recorded⟩, termination⟩, assessment⟩
    refine ⟨prepared, number, counted, opened, started, ordered, window, accepted, elapsed, fun one => ?_, prior, fun test => ?_, recorded,
      fun t found => ?_, fun o found => ?_⟩
    · exact single.resolve_left fun other => other one
    · exact provenance.resolve_left fun other => by rw [test] at other; cases other
    · rw [found] at termination
      exact beq_iff_eq.mp termination
    · rw [found] at assessment
      obtain ⟨effect, later⟩ := Bool.and_eq_true_iff.mp assessment
      refine ⟨effect, ?_⟩
      cases ended : a.termination with
      | none =>
        rw [ended] at later
        cases later
      | some t =>
        rw [ended] at later
        exact ⟨t, rfl, of_decide_eq_true later⟩
  · intro v
    refine ⟨⟨⟨⟨⟨⟨⟨⟨⟨⟨⟨⟨⟨⟨v.prepared, v.number⟩, v.counted⟩, v.opened⟩, v.started⟩, v.ordered⟩, v.window⟩, v.accepted⟩, v.elapsed⟩, ?_⟩, v.prior⟩, ?_⟩,
      v.recorded⟩, ?_⟩, ?_⟩
    · exact (Classical.em (a.number = 1)).symm.imp_right v.single
    · cases test : Authority.isTest p.spec.request.authority with
      | false => exact .inl rfl
      | true => exact .inr (v.provenance test)
    · cases ended : a.termination with
      | none => rfl
      | some t => exact beq_iff_eq.mpr (v.settled t ended)
    · cases found : a.assessment with
      | none => rfl
      | some o =>
        obtain ⟨effect, t, ended, later⟩ := v.assessed o found
        rw [ended]
        exact Bool.and_eq_true_iff.mpr ⟨effect, decide_eq_true later⟩

/-- All relations among the fields of a stored snapshot. -/
structure Consistent (p : FrozenExecution) (s : Snapshot) : Prop where
  version : s.version = snapshotVersion
  request : s.requestId = p.spec.request.requestId
  digest : s.contentDigest = p.digest
  times : s.openedAtUnixMs ≤ s.updatedAtUnixMs
  attempts : s.attempts ≤ p.spec.budget.maxAttempts
  received : s.lastEvent = none → s.revision = 0
  follows : ∀ event, s.lastEvent = some event → checkedAdd event.expectedRevision 1 = some s.revision
  fresh : s.revision = 0 → s.preparation = .received ∧ s.cancelRequested = false ∧ s.attempt = none ∧ s.openedAtUnixMs = s.updatedAtUnixMs
  idle : s.attempt = none → s.firstAttemptAtUnixMs = none ∧ s.attempts = 0 ∧ s.priorOutputBytes = 0
  current : ∀ a, s.attempt = some a → ∃ first, s.firstAttemptAtUnixMs = some first ∧ AttemptValid p s a first

/-- Validation is consistency and the bound of the encoding. -/
theorem validate_iff {p : FrozenExecution} {s : Snapshot} {limits : Limits} :
    validate p s limits = .ok () ↔ Consistent p s ∧ s.toJson.size ≤ limits.maxSnapshotBytes := by
  unfold validate
  simp only [require_then, require_ok, Bool.and_eq_true, Bool.or_eq_true, Bool.not_eq_true', beq_iff_eq, decide_eq_true_eq, ne_eq]
  constructor
  · rintro ⟨⟨⟨⟨⟨⟨version, request⟩, digest⟩, times⟩, attempts⟩, event⟩, fresh, attempt, size⟩
    refine ⟨⟨version, request, digest, times, attempts, fun none => ?_, fun last found => ?_, fun zero => ?_, fun idle => ?_, fun a found => ?_⟩, size⟩
    · rw [none] at event
      exact beq_iff_eq.mp event
    · rw [found] at event
      exact beq_iff_eq.mp event
    · obtain ⟨⟨⟨preparation, cancelled⟩, unattempted⟩, unchanged⟩ := fresh.resolve_left fun other => other zero
      exact ⟨preparation, cancelled, Option.isNone_iff_eq_none.mp unattempted, unchanged⟩
    · rw [idle] at attempt
      split at attempt
      · next none =>
        simp only [Bool.and_eq_true, beq_iff_eq] at attempt
        exact ⟨none, attempt⟩
      · next impossible _ => cases impossible
      · cases attempt
    · rw [found] at attempt
      split at attempt
      · next impossible _ => cases impossible
      · next a' first same started =>
        cases same
        exact ⟨first, started, validAttempt_iff.mp attempt⟩
      · cases attempt
  · rintro ⟨c, size⟩
    refine ⟨⟨⟨⟨⟨⟨c.version, c.request⟩, c.digest⟩, c.times⟩, c.attempts⟩, ?_⟩, ?_, ?_, size⟩
    · cases found : s.lastEvent with
      | none => exact beq_iff_eq.mpr (c.received found)
      | some event => exact beq_iff_eq.mpr (c.follows event found)
    · refine (Classical.em (s.revision = 0)).symm.imp_right fun zero => ?_
      obtain ⟨preparation, cancelled, idle, unchanged⟩ := c.fresh zero
      exact ⟨⟨⟨preparation, cancelled⟩, Option.isNone_iff_eq_none.mpr idle⟩, unchanged⟩
    · cases found : s.attempt with
      | none =>
        obtain ⟨first, attempts, prior⟩ := c.idle found
        rw [first]
        simp [attempts, prior]
      | some a =>
        obtain ⟨first, started, valid⟩ := c.current a found
        rw [started]
        exact validAttempt_iff.mpr valid

end Relations

section Steps
variable {e : Execution} {directive : Directive} {now : Nat} {next : Snapshot} {input : Input} {a a' : AttemptSnapshot} {first : Nat}

theorem consistent (e : Execution) : Consistent e.plan e.snapshot := by
  obtain ⟨_, -, checks⟩ := bind_ok.mp e.valid
  exact (validate_iff.mp checks).1

theorem validRecorded_iff {s : Snapshot} {a : AttemptSnapshot} {o : RecordedObservation} : validRecorded s a o = true ↔
    o.evidence.runner = a.runner ∧ validEvidence a.mode o.evidence.kind o.observation = true ∧
      a.acceptedAtUnixMs ≤ o.observedAtUnixMs ∧ o.observedAtUnixMs ≤ s.updatedAtUnixMs := by
  unfold validRecorded
  simp only [Bool.and_eq_true, beq_iff_eq, decide_eq_true_eq, and_assoc]

theorem AttemptValid.kept {p : FrozenExecution} {s s' : Snapshot} (v : AttemptValid p s a first)
    (prepared : s'.preparation = s.preparation) (attempts : s'.attempts = s.attempts) (opened : s'.openedAtUnixMs = s.openedAtUnixMs)
    (prior : s'.priorOutputBytes = s.priorOutputBytes) (later : s.updatedAtUnixMs ≤ s'.updatedAtUnixMs) : AttemptValid p s' a first := by
  refine ⟨prepared.trans v.prepared, v.number.trans attempts.symm, v.counted, opened ▸ v.opened, v.started, v.ordered, v.window,
    Nat.le_trans v.accepted later, v.elapsed, fun one => prior ▸ v.single one, prior ▸ v.prior, v.provenance, fun o mem => ?_,
    v.settled, v.assessed⟩
  obtain ⟨runner, evidence, accepted, observed⟩ := validRecorded_iff.mp (v.recorded o mem)
  exact validRecorded_iff.mpr ⟨runner, evidence, accepted, Nat.le_trans observed later⟩

theorem AttemptValid.redispatched {p : FrozenExecution} {s : Snapshot} (v : AttemptValid p s a first) (dispatch : DispatchState)
    (cause : Option DispatchCause) (outcome : Option StopOutcome) :
    AttemptValid p s { a with
      dispatch := dispatch
      dispatchCause := cause
      stopOutcome := outcome } first :=
  ⟨v.prepared, v.number, v.counted, v.opened, v.started, v.ordered, v.window, v.accepted, v.elapsed, v.single, v.prior, v.provenance,
    v.recorded, v.settled, v.assessed⟩

theorem observed_recorded {o : RecordedObservation} (observed : Observed e input now a o) {s : Snapshot} (stored : s.updatedAtUnixMs = now) :
    validRecorded s a o = true :=
  validRecorded_iff.mpr ⟨observed.runner, observed.evidence, observed.accepted, stored ▸ observed.received⟩

theorem updates_valid {p : FrozenExecution} {s : Snapshot} (v : AttemptValid p s a first) (stored : s.updatedAtUnixMs = now)
    (h : Updates e input now a a') : AttemptValid p s a' first := by
  cases h with
  | kept => exact v
  | dispatched => exact v.redispatched .dispatched a.dispatchCause a.stopOutcome
  | uncertain => exact v.redispatched a.dispatch.uncertain a.dispatchCause a.stopOutcome
  | unconfirmed cause => exact v.redispatched _ (some cause) a.stopOutcome
  | stopped outcome => exact v.redispatched a.dispatch a.dispatchCause (some outcome)
  | counted _ running =>
    refine { v with settled := fun t ended => ?_ }
    rw [running] at ended
    cases ended
  | ended observed running settled =>
    have unassessed : a.assessment = none := by
      cases found : a.assessment with
      | none => rfl
      | some o =>
        obtain ⟨-, t, ended, -⟩ := v.assessed o found
        rw [running] at ended
        cases ended
    refine { v with recorded := fun o mem => ?_, settled := fun t ended => ?_, assessed := fun o found => ?_ }
    · dsimp only at mem
      rw [unassessed] at mem
      rw [List.mem_singleton.mp mem]
      exact observed_recorded observed stored
    · cases ended
      exact settled
    · rw [unassessed] at found
      cases found
  | assessed observed ended effect later =>
    refine { v with recorded := fun o mem => ?_, assessed := fun o found => ?_ }
    · rcases List.mem_append.mp mem with old | new
      · exact v.recorded o (List.mem_append_left _ old)
      · rw [List.mem_singleton.mp new]
        exact observed_recorded observed stored
    · cases found
      exact ⟨effect, _, ended, later⟩

theorem frozen_budget (plan : FrozenExecution) : 0 < plan.spec.budget.totalTimeoutMs ∧ 0 < plan.spec.budget.maxAttempts := by
  obtain ⟨limits, frozen⟩ := plan.frozen
  have context := (validatePlan_parts (freezable_validated frozen).1).1
  obtain ⟨_, -, context⟩ := bind_ok.mp context
  obtain ⟨_, timeout, context⟩ := bind_ok.mp context
  obtain ⟨_, -, context⟩ := bind_ok.mp context
  obtain ⟨_, attempts, -⟩ := bind_ok.mp context
  exact ⟨(budgetBound_ok.mp timeout).1, (budgetBound_ok.mp attempts).1⟩

theorem eligible_first (advised : e.directive now = .ok directive) (eligible : directive = .ready ∨ directive = .retryEligible)
    (idle : e.snapshot.attempt = none) : e.snapshot.preparation = .prepared ∧ e.limitReason now = none := by
  unfold Execution.directive at advised
  dsimp only at advised
  split at advised
  · cases advised
  rw [Except.ok.injEq, idle] at advised
  dsimp only at advised
  split at advised
  · rcases eligible with rfl | rfl <;> cases advised
  split at advised
  · rcases eligible with rfl | rfl <;> cases advised
  next unlimited =>
  cases preparation : e.snapshot.preparation with
  | prepared => exact ⟨rfl, unlimited⟩
  | received | waiting =>
    rw [preparation] at advised
    rcases eligible with rfl | rfl <;> cases advised

theorem begun_valid {attemptId : AttemptId} {runner : Identifier} {mode : ExecutionMode} (advised : e.directive now = .ok directive)
    (eligible : directive = .ready ∨ directive = .retryEligible)
    (provenance : Authority.isTest e.plan.spec.request.authority = true → mode = .test) {s : Snapshot}
    (stored : s = committed e.snapshot (begunSnapshot e attemptId runner mode now) input.record now) :
    s.attempts ≤ e.plan.spec.budget.maxAttempts ∧
      ∃ a first, s.attempt = some a ∧ s.firstAttemptAtUnixMs = some first ∧ AttemptValid e.plan s a first := by
  have c := consistent e
  have clock := directive_clock advised
  obtain ⟨timeout, single⟩ := frozen_budget e.plan
  subst stored
  cases found : e.snapshot.attempt with
  | none =>
    obtain ⟨prepared, unlimited⟩ := eligible_first advised eligible found
    obtain ⟨started, window, output, -⟩ := limitReason_none unlimited
    obtain ⟨unstarted, attempts, prior⟩ := c.idle found
    have total : e.totalOutputBytes = 0 := by
      simp [Execution.totalOutputBytes, Snapshot.totalOutputBytes, found, prior, saturatingAdd]
    refine ⟨by change e.snapshot.attempts + 1 ≤ _; omega, _, now, rfl, ?_, ?_⟩
    · change some (e.snapshot.firstAttemptAtUnixMs.getD now) = some now
      rw [unstarted, Option.getD_none]
    · exact ⟨prepared, rfl, Nat.succ_ne_zero _, Nat.le_trans c.times clock, started, Nat.le_refl _, window (by rw [found]; rfl), Nat.le_refl _,
        by change now - now < _; omega, fun _ => ⟨rfl, total⟩, output, provenance, fun _ mem => absurd mem List.not_mem_nil, nofun, nofun⟩
  | some a =>
    obtain ⟨⟨t, ended, -⟩, -, unlimited, attempts⟩ := eligible_retry advised eligible found
    obtain ⟨-, window, output, elapsed⟩ := limitReason_none unlimited
    obtain ⟨first, started, v⟩ := c.current a found
    have ordered : first ≤ now := Nat.le_trans v.ordered (Nat.le_trans v.accepted clock)
    refine ⟨attempts, _, first, rfl, ?_, ?_⟩
    · change some (e.snapshot.firstAttemptAtUnixMs.getD now) = some first
      rw [started, Option.getD_some]
    · refine ⟨v.prepared, rfl, Nat.succ_ne_zero _, v.opened, v.started, ordered, window ?_, Nat.le_refl _, elapsed first started, fun one => ?_,
        output, provenance, fun _ mem => absurd mem List.not_mem_nil, nofun, nofun⟩
      · rw [found, Option.all_some, ended]
        rfl
      · have counted := v.counted
        have number := v.number
        have last : e.snapshot.attempts + 1 = 1 := one
        omega

/-- The successor of an accepted input is consistent. -/
theorem committed_consistent (advised : e.directive now = .ok directive) (revision : input.record.expectedRevision = e.snapshot.revision)
    (room : e.snapshot.revision ≠ maxWord) (h : Advances e directive now input next) :
    Consistent e.plan (committed e.snapshot next input.record now) := by
  have c := consistent e
  have clock := directive_clock advised
  have bounded : e.snapshot.revision ≤ maxWord := by
    cases last : e.snapshot.lastEvent with
    | none =>
      rw [c.received last]
      exact Nat.zero_le _
    | some event =>
      obtain ⟨same, bound⟩ := checkedAdd_eq_some.mp (c.follows event last)
      rw [same]
      exact bound
  have follows : checkedAdd input.record.expectedRevision 1 = some (e.snapshot.revision + 1) := by
    rw [revision]
    exact checkedAdd_eq_some.mpr ⟨rfl, by omega⟩
  have times : e.snapshot.openedAtUnixMs ≤ now := Nat.le_trans c.times clock
  have later : ∀ a, e.snapshot.attempt = some a → ∃ first, e.snapshot.firstAttemptAtUnixMs = some first ∧
      ∀ s : Snapshot, s.preparation = e.snapshot.preparation → s.attempts = e.snapshot.attempts →
        s.openedAtUnixMs = e.snapshot.openedAtUnixMs → s.priorOutputBytes = e.snapshot.priorOutputBytes → s.updatedAtUnixMs = now →
        AttemptValid e.plan s a first := by
    intro a found
    obtain ⟨first, started, v⟩ := c.current a found
    exact ⟨first, started, fun s prepared attempts opened prior stored => v.kept prepared attempts opened prior (stored ▸ clock)⟩
  have follow : ∀ event, some input.record = some event → checkedAdd event.expectedRevision 1 = some (e.snapshot.revision + 1) := by
    rintro event ⟨⟩
    exact follows
  cases h with
  | prepared preparation idle =>
    refine ⟨c.version, c.request, c.digest, times, c.attempts, nofun, follow, fun zero => absurd zero (Nat.succ_ne_zero _),
      c.idle, fun a found => ?_⟩
    have found : e.snapshot.attempt = some a := found
    rw [idle] at found
    cases found
  | begun _ _ eligible provenance =>
    obtain ⟨attempts, a, first, found, started, v⟩ := begun_valid advised eligible provenance rfl
    refine ⟨c.version, c.request, c.digest, times, attempts, nofun, follow, fun zero => absurd zero (Nat.succ_ne_zero _),
      nofun, fun b same => ?_⟩
    have same : a = b := Option.some.inj (found.symm.trans same)
    exact ⟨first, started, same ▸ v⟩
  | cancelled =>
    refine ⟨c.version, c.request, c.digest, times, c.attempts, nofun, follow, fun zero => absurd zero (Nat.succ_ne_zero _),
      c.idle, fun a found => ?_⟩
    obtain ⟨first, started, valid⟩ := later a found
    exact ⟨first, started, valid _ rfl rfl rfl rfl rfl⟩
  | recovered =>
    refine ⟨c.version, c.request, c.digest, times, c.attempts, nofun, follow, fun zero => absurd zero (Nat.succ_ne_zero _),
      c.idle, fun a found => ?_⟩
    obtain ⟨first, started, valid⟩ := later a found
    exact ⟨first, started, valid _ rfl rfl rfl rfl rfl⟩
  | updated found updates =>
    refine ⟨c.version, c.request, c.digest, times, c.attempts, nofun, follow, fun zero => absurd zero (Nat.succ_ne_zero _),
      nofun, fun b same => ?_⟩
    cases same
    obtain ⟨first, started, valid⟩ := later _ found
    exact ⟨first, started, updates_valid (valid _ rfl rfl rfl rfl rfl) rfl updates⟩

end Steps

end RssMdmAgent.LifecycleConsistency
