import RssMdmAgent.TransitionRuns
import RssMdmAgent.LifecycleState

set_option autoImplicit false

/-! # What one accepted lifecycle input can change -/

namespace RssMdmAgent.LifecycleSteps
open BoundedArithmetic ContractIdentity ContractPlan LifecycleModel LifecycleState TransitionRuns

theorem require_ok {ε : Type} {ok : Bool} {error : ε} : require ok error = .ok () ↔ ok = true := by
  cases ok <;> simp [require]

/-- The checks that an execution with a current attempt has passed. -/
structure AttemptFacts (p : FrozenExecution) (s : Snapshot) (a : AttemptSnapshot) (first : Nat) :
    Prop where
  number : a.number = s.attempts
  started : p.spec.validity.notBeforeUnixMs ≤ first
  ordered : first ≤ a.acceptedAtUnixMs
  window : a.acceptedAtUnixMs < p.spec.validity.expiresAtUnixMs
  accepted : a.acceptedAtUnixMs ≤ s.updatedAtUnixMs
  prior : s.priorOutputBytes < p.spec.budget.totalOutputBytes
  settled : ∀ t, a.termination = some t → finalOutput a t.observation = some a.outputBytes
  assessed : ∀ o, a.assessment = some o → isEffect o.observation = true

theorem validAttempt_facts {p : FrozenExecution} {s : Snapshot} {a : AttemptSnapshot} {first : Nat}
    (h : validAttempt p s a first = true) : AttemptFacts p s a first := by
  unfold validAttempt at h
  simp only [Bool.and_eq_true, beq_iff_eq, decide_eq_true_eq] at h
  obtain ⟨⟨⟨⟨⟨⟨⟨⟨⟨⟨⟨⟨⟨⟨-, number⟩, -⟩, -⟩, started⟩, ordered⟩, window⟩, accepted⟩, -⟩, -⟩, prior⟩, -⟩,
    -⟩, termination⟩, assessment⟩ := h
  refine ⟨number, started, ordered, window, accepted, prior, ?_, ?_⟩
  · intro t found
    rw [found] at termination
    exact beq_iff_eq.mp termination
  · intro o found
    rw [found] at assessment
    exact (Bool.and_eq_true_iff.mp assessment).1

section Valid
variable (e : Execution)

theorem Execution.checks : (e.snapshot.requestId = e.plan.spec.request.requestId ∧
    e.snapshot.contentDigest = e.plan.digest ∧
    e.snapshot.attempts ≤ e.plan.spec.budget.maxAttempts) ∧
    (match e.snapshot.attempt, e.snapshot.firstAttemptAtUnixMs with
      | none, none => e.snapshot.attempts == 0 && e.snapshot.priorOutputBytes == 0
      | some a, some first => validAttempt e.plan e.snapshot a first
      | _, _ => false) = true := by
  obtain ⟨_, -, checks⟩ := bind_ok.mp e.valid
  obtain ⟨_, header, checks⟩ := bind_ok.mp checks
  obtain ⟨_, -, checks⟩ := bind_ok.mp checks
  obtain ⟨_, attempt, -⟩ := bind_ok.mp checks
  have header := require_ok.mp header
  simp only [Bool.and_eq_true, beq_iff_eq, decide_eq_true_eq] at header
  obtain ⟨⟨⟨⟨⟨-, request⟩, digest⟩, -⟩, attempts⟩, -⟩ := header
  exact ⟨⟨request, digest, attempts⟩, require_ok.mp attempt⟩

theorem Execution.attempts_le : e.snapshot.attempts ≤ e.plan.spec.budget.maxAttempts :=
  (Execution.checks e).1.2.2

theorem Execution.attempt_facts {a : AttemptSnapshot} (found : e.snapshot.attempt = some a) :
    ∃ first, e.snapshot.firstAttemptAtUnixMs = some first ∧
      AttemptFacts e.plan e.snapshot a first := by
  have checks := (Execution.checks e).2
  rw [found] at checks
  split at checks
  · next impossible _ => cases impossible
  · next a' first same started =>
    cases same
    exact ⟨first, started, validAttempt_facts checks⟩
  · cases checks

theorem Execution.idle_facts (idle : e.snapshot.attempt = none) :
    e.snapshot.firstAttemptAtUnixMs = none ∧ e.snapshot.attempts = 0 ∧
      e.snapshot.priorOutputBytes = 0 := by
  have checks := (Execution.checks e).2
  rw [idle] at checks
  split at checks
  · next _ none =>
    simp only [Bool.and_eq_true, beq_iff_eq] at checks
    exact ⟨none, checks⟩
  · next impossible _ => cases impossible
  · cases checks

theorem restore_ok {plan : FrozenExecution} {snapshot : Snapshot} {limits : Limits} {e : Execution}
    (h : restore plan snapshot limits = .ok e) :
    e.plan = plan ∧ e.snapshot = snapshot ∧ e.limits = limits := by
  unfold restore at h
  split at h
  · cases h
    exact ⟨rfl, rfl, rfl⟩
  · cases h

end Valid

def Assessed (a : AttemptSnapshot) : Prop :=
  a.assessment.any (fun o => settledAssessment o.observation) = true

/-- A later record of the same attempt: its identity stays, its output never shrinks, and nothing
recorded about its end is taken back. -/
structure AttemptKept (a a' : AttemptSnapshot) : Prop where
  id : a'.id = a.id
  accepted : a'.acceptedAtUnixMs = a.acceptedAtUnixMs
  output : a.outputBytes ≤ a'.outputBytes
  settled : a.termination.isSome → a'.outputBytes = a.outputBytes
  ended : ∀ t, a.termination = some t → a'.termination = some t
  unsure : a.dispatch.isUnknown = true → a'.dispatch.isUnknown = true
  assessed : a.assessment.isSome → a'.assessment.isSome
  final : Assessed a → a'.assessment = a.assessment

theorem AttemptKept.refl (a : AttemptSnapshot) : AttemptKept a a :=
  ⟨rfl, rfl, Nat.le_refl _, fun _ => rfl, fun _ h => h, fun h => h, fun h => h, fun _ => rfl⟩

theorem AttemptKept.redispatched {a : AttemptSnapshot} {dispatch : DispatchState}
    {cause : Option DispatchCause}
    (unsure : a.dispatch.isUnknown = true → dispatch.isUnknown = true) :
    AttemptKept a { a with dispatch := dispatch, dispatchCause := cause } :=
  ⟨rfl, rfl, Nat.le_refl _, fun _ => rfl, fun _ h => h, unsure, fun h => h, fun _ => rfl⟩

/-- The admitted attempt of an accepted begin command. -/
def begunSnapshot (e : Execution) (attemptId : AttemptId) (runner : Identifier)
    (mode : ExecutionMode) (now : Nat) : Snapshot :=
  { e.snapshot with
    attempts := e.snapshot.attempts + 1
    firstAttemptAtUnixMs := some (e.snapshot.firstAttemptAtUnixMs.getD now)
    priorOutputBytes := e.totalOutputBytes
    attempt := some
      { id := attemptId
        number := e.snapshot.attempts + 1
        acceptedAtUnixMs := now
        runner := runner
        mode := mode
        dispatch := .starting
        dispatchCause := none
        stopOutcome := none
        termination := none
        assessment := none
        outputBytes := 0 } }

/-- The snapshots that an input can produce. -/
inductive Applies (e : Execution) (directive : Directive) (now : Nat) : Input → Snapshot → Prop where
  | prepared {event : CommandEvent} (preparation : Preparation)
      (command : event.command = .prepare ∨ event.command = .wait)
      (idle : e.snapshot.attempt = none) :
      Applies e directive now (.command event) { e.snapshot with preparation := preparation }
  | begun {event : CommandEvent} {attemptId : AttemptId} {runner : Identifier} {mode : ExecutionMode}
      (command : event.command = .beginAttempt attemptId runner mode)
      (eligible : directive = .ready ∨ directive = .retryEligible)
      (fresh : e.snapshot.attempt.all fun a => a.id ≠ attemptId) :
      Applies e directive now (.command event) (begunSnapshot e attemptId runner mode now)
  | cancelled {event : CommandEvent} (command : event.command = .cancel) :
      Applies e directive now (.command event) { e.snapshot with cancelRequested := true }
  | recovered {event : CommandEvent} (command : event.command = .recover)
      (idle : e.snapshot.attempt = none) : Applies e directive now (.command event) e.snapshot
  | updated {input : Input} {a a' : AttemptSnapshot} (found : e.snapshot.attempt = some a)
      (kept : AttemptKept a a')
      (other : ∀ event, input = .command event → event.command ≠ .cancel ∧
        ∀ attemptId runner mode, event.command ≠ .beginAttempt attemptId runner mode) :
      Applies e directive now input { e.snapshot with attempt := some a' }

theorem withCurrentAttempt_ok {s next : Snapshot} {id : AttemptId}
    {update : AttemptSnapshot → Except LifecycleError AttemptSnapshot}
    (h : withCurrentAttempt s id update = .ok next) :
    ∃ a a', s.attempt = some a ∧ a.id = id ∧ update a = .ok a' ∧
      next = { s with attempt := some a' } := by
  unfold withCurrentAttempt at h
  split at h
  · cases h
  next a found =>
  split at h
  · next same =>
    obtain ⟨a', updated, h⟩ := bind_ok.mp h
    cases h
    exact ⟨a, a', found, same, updated, rfl⟩
  · cases h

theorem AttemptKept.terminated {a : AttemptSnapshot} {bytes : Nat} {recorded : RecordedObservation}
    (running : ¬ a.termination.isSome) (covers : ¬ bytes < a.outputBytes) :
    AttemptKept a { a with outputBytes := bytes, termination := some recorded } :=
  ⟨rfl, rfl, Nat.le_of_not_lt covers, fun ended => absurd ended running,
    fun _ ended => absurd (by rw [ended]; rfl) running, fun h => h, fun h => h, fun _ => rfl⟩

theorem recordObservation_kept {a a' : AttemptSnapshot} {recorded : RecordedObservation}
    (h : recordObservation a recorded = .ok a') : AttemptKept a a' := by
  unfold recordObservation at h
  split at h
  · split at h
    · cases h
    next running =>
    split at h
    · cases h
    next covers =>
    cases h
    exact .terminated running covers
  · split at h
    · cases h
    next running =>
    split at h
    · cases h
    next covers =>
    cases h
    exact .terminated running covers
  · split at h
    · cases h
    next running =>
    cases h
    exact .terminated running (Nat.lt_irrefl _)
  · split at h
    · cases h
    split at h
    · cases h
    next open_ =>
    cases h
    refine ⟨rfl, rfl, Nat.le_refl _, fun _ => rfl, fun _ => id, id, fun _ => rfl, fun final => ?_⟩
    obtain ⟨o, found, final⟩ := (Option.any_eq_true _ _).mp final
    rw [found, Option.any_some, final, Bool.or_true] at open_
    exact absurd (.inr rfl) open_
  · split at h
    · cases h
    · cases h
      exact .redispatched fun _ => rfl

theorem applyObservation_applies {e : Execution} {event : ObservationEvent} {now : Nat}
    {directive : Directive} {verify : ObservationVerifier} {next : Snapshot}
    (h : applyObservation e event now verify = .ok next) :
    Applies e directive now (.observation event verify) next := by
  obtain ⟨a, a', found, -, updated, rfl⟩ := withCurrentAttempt_ok h
  refine .updated found ?_ (fun _ impossible => by cases impossible)
  split at updated
  · cases updated
  split at updated
  · cases updated
  · exact recordObservation_kept updated

theorem applyCommand_applies {e : Execution} {event : CommandEvent} {directive : Directive}
    {now : Nat} {next : Snapshot} (h : applyCommand e event.command directive now = .ok next) :
    Applies e directive now (.command event) next := by
  cases command : event.command with
  | prepare | wait =>
    rw [command] at h
    simp only [applyCommand] at h
    split at h
    · cases h
    next open_ =>
    rw [not_or, Option.not_isSome_iff_eq_none] at open_
    cases h
    exact .prepared _ (by simp [command]) open_.1
  | beginAttempt attemptId runner mode =>
    rw [command] at h
    simp only [applyCommand] at h
    split at h
    · cases h
    next eligible =>
    split at h
    · cases h
    next bound =>
    split at h
    · cases h
    cases h
    rw [not_and_or, not_not, not_not] at eligible
    rw [not_or] at bound
    refine .begun command eligible ?_
    cases found : e.snapshot.attempt with
    | none => rfl
    | some a =>
      rw [found] at bound
      simp only [Option.any_some, Bool.or_eq_true, decide_eq_true_eq, not_or] at bound
      simpa using bound.2.1.1
  | cancel =>
    rw [command] at h
    cases h
    exact .cancelled command
  | recover =>
    rw [command] at h
    cases found : e.snapshot.attempt with
    | none =>
      simp only [applyCommand, found, Option.map_none, Except.ok.injEq] at h
      subst h
      have same : { e.snapshot with attempt := none } = e.snapshot := by
        cases snapshot : e.snapshot
        rw [snapshot] at found
        cases found
        rfl
      rw [same]
      exact .recovered command found
    | some a =>
      simp only [applyCommand, found, Option.map_some, Except.ok.injEq] at h
      subst h
      refine .updated found ?_ (by rintro _ ⟨⟩; simp [command])
      split
      · exact .redispatched fun _ => rfl
      · exact .refl a
  | dispatched attemptId =>
    rw [command] at h
    obtain ⟨a, a', found, -, updated, rfl⟩ := withCurrentAttempt_ok h
    refine .updated found ?_ (by rintro _ ⟨⟩; simp [command])
    split at updated
    · cases updated
    next starting =>
    cases updated
    rw [not_or, not_not] at starting
    exact .redispatched fun unknown => by rw [starting.1] at unknown; cases unknown
  | dispatchUnconfirmed attemptId cause =>
    rw [command] at h
    obtain ⟨a, a', found, -, updated, rfl⟩ := withCurrentAttempt_ok h
    cases updated
    refine .updated found (.redispatched fun unknown => ?_) (by rintro _ ⟨⟩; simp [command])
    split
    · rfl
    · exact unknown
  | stopReported attemptId outcome =>
    rw [command] at h
    obtain ⟨a, a', found, -, updated, rfl⟩ := withCurrentAttempt_ok h
    cases updated
    exact .updated found ⟨rfl, rfl, Nat.le_refl _, fun _ => rfl, fun _ => id, id, id, fun _ => rfl⟩
      (by rintro _ ⟨⟩; simp [command])
  | output attemptId totalBytes =>
    rw [command] at h
    obtain ⟨a, a', found, -, updated, rfl⟩ := withCurrentAttempt_ok h
    refine .updated found ?_ (by rintro _ ⟨⟩; simp [command])
    split at updated
    · cases updated
    next covers =>
    cases updated
    cases ended : a.termination with
    | none =>
      rw [ended] at covers
      simp only [Option.isNone_none, true_and, Option.isSome_none, Bool.false_eq_true, false_and,
        or_false, not_lt] at covers
      exact ⟨rfl, rfl, by simpa using covers, fun h => by simp [ended] at h,
        fun t h => by simp [ended] at h, id, id, fun _ => rfl⟩
    | some t =>
      exact ⟨rfl, rfl, by simp, fun _ => by simp, fun _ => by simp [ended], id, id, fun _ => rfl⟩

theorem apply_applies {e : Execution} {input : Input} {directive : Directive} {now : Nat}
    {next : Snapshot} (h : e.apply input directive now = .ok next) :
    Applies e directive now input next := by
  cases input with
  | command event => exact applyCommand_applies h
  | observation event verify => exact applyObservation_applies h

/-- Everything an evaluation that offers a transition has checked and computed. -/
structure Evaluated (e : Execution) (input : Input) (now : Nat) (next : Execution) : Prop where
  clock : e.snapshot.updatedAtUnixMs ≤ now
  revision : input.record.expectedRevision = e.snapshot.revision
  fresh : ∀ last, e.snapshot.lastEvent = some last → last.id ≠ input.record.id
  plan : next.plan = e.plan
  limits : next.limits = e.limits
  applied : ∃ directive snapshot, e.directive now = .ok directive ∧
    Applies e directive now input snapshot ∧
    next.snapshot = committed e.snapshot snapshot input.record now

theorem directive_clock {e : Execution} {now : Nat} {directive : Directive}
    (h : e.directive now = .ok directive) : e.snapshot.updatedAtUnixMs ≤ now := by
  unfold Execution.directive at h
  dsimp only at h
  split at h
  · cases h
  · next ordered => exact Nat.le_of_not_lt ordered

theorem evaluateInput_transition {e : Execution} {input : Input} {now : Nat} {ev : Evaluation}
    {t : Transition} (h : e.evaluateInput input now = .ok ev) (offered : ev.transition = some t) :
    ev.outcome = .applied ∧ t.expectedRevision = e.snapshot.revision ∧
      Evaluated e input now t.next := by
  obtain ⟨directive, advised, h⟩ := bind_ok.mp h
  split at h
  · split at h
    · cases h
      cases offered
    · cases h
  next fresh =>
  split at h
  · cases h
    cases offered
  split at h
  · cases h
  next revision =>
  obtain ⟨snapshot, applied, h⟩ := bind_ok.mp h
  obtain ⟨next, restored, h⟩ := bind_ok.mp h
  obtain ⟨after, -, h⟩ := bind_ok.mp h
  cases h
  cases offered
  obtain ⟨plan, stored, limits⟩ := restore_ok restored
  rw [not_or, not_not] at revision
  refine ⟨rfl, rfl, directive_clock advised, revision.1, ?_, plan, limits, directive, snapshot,
    advised, apply_applies applied, stored⟩
  intro last found same
  rw [found] at fresh
  exact fresh (by simpa using same)

theorem applied_offers {e : Execution} {input : Input} {now : Nat} {ev : Evaluation}
    (h : e.evaluateInput input now = .ok ev) (applied : ev.outcome = .applied) :
    ∃ t, ev.transition = some t := by
  obtain ⟨directive, -, h⟩ := bind_ok.mp h
  split at h
  · split at h
    · cases h
      cases applied
    · cases h
  split at h
  · cases h
    cases applied
  split at h
  · cases h
  obtain ⟨snapshot, -, h⟩ := bind_ok.mp h
  obtain ⟨next, -, h⟩ := bind_ok.mp h
  obtain ⟨after, -, h⟩ := bind_ok.mp h
  cases h
  exact ⟨_, rfl⟩

end RssMdmAgent.LifecycleSteps
