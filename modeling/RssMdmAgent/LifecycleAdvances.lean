import RssMdmAgent.LifecycleRuns

set_option autoImplicit false

/-! # Everything that an accepted lifecycle input changes -/

namespace RssMdmAgent.LifecycleAdvances
open BoundedArithmetic ContractIdentity ContractPlan LifecycleModel LifecycleState LifecycleSteps LifecycleRuns

/-- A verified observation of the current attempt, received at a time. -/
structure Observed (e : Execution) (input : Input) (now : Nat) (a : AttemptSnapshot) (o : RecordedObservation) : Prop where
  source : ∃ event verify facts, input = .observation event verify ∧ event.attemptId = a.id ∧
    verify e.plan event.attemptId event.evidence now = .ok facts ∧ o = ⟨event.evidence, facts.observedAtUnixMs, facts.observation⟩
  runner : o.evidence.runner = a.runner
  evidence : validEvidence a.mode o.evidence.kind o.observation = true
  accepted : a.acceptedAtUnixMs ≤ o.observedAtUnixMs
  received : o.observedAtUnixMs ≤ now

/-- What an accepted input makes of the current attempt. -/
inductive Updates (e : Execution) (input : Input) (now : Nat) (a : AttemptSnapshot) : AttemptSnapshot → Prop where
  | kept : Updates e input now a a
  | dispatched (starting : a.dispatch = .starting) : Updates e input now a { a with dispatch := .dispatched }
  | uncertain : Updates e input now a { a with dispatch := a.dispatch.uncertain }
  | unconfirmed (cause : DispatchCause) : Updates e input now a { a with
      dispatchCause := some cause
      dispatch := if a.termination.isNone then a.dispatch.uncertain else a.dispatch }
  | stopped (outcome : StopOutcome) : Updates e input now a { a with stopOutcome := some outcome }
  | counted {bytes : Nat} (source : ∃ event attemptId, input = .command event ∧ event.command = .output attemptId bytes)
      (running : a.termination = none) (covers : a.outputBytes ≤ bytes) : Updates e input now a { a with outputBytes := bytes }
  | ended {o : RecordedObservation} {bytes : Nat} (observed : Observed e input now a o) (running : a.termination = none)
      (settled : finalOutput { a with outputBytes := bytes } o.observation = some bytes) (covers : a.outputBytes ≤ bytes)
      (counts : bytes = a.outputBytes ∨ o.observation = .neverDispatched bytes ∨ ∃ code, o.observation = .exited code bytes) :
      Updates e input now a { a with
        outputBytes := bytes
        termination := some o }
  | assessed {o t : RecordedObservation} (observed : Observed e input now a o) (ended : a.termination = some t)
      (effect : isEffect o.observation = true) (later : t.observedAtUnixMs ≤ o.observedAtUnixMs)
      (revisable : ∀ p, a.assessment = some p → p.observedAtUnixMs ≤ o.observedAtUnixMs ∧ settledAssessment p.observation = false) :
      Updates e input now a { a with assessment := some o }

/-- The snapshots that an accepted input makes of the current one. -/
inductive Advances (e : Execution) (directive : Directive) (now : Nat) (input : Input) : Snapshot → Prop where
  | prepared (preparation : Preparation) (idle : e.snapshot.attempt = none) (open_ : e.snapshot.cancelRequested = false) :
      Advances e directive now input { e.snapshot with preparation := preparation }
  | begun {event : CommandEvent} {attemptId : AttemptId} {runner : Identifier} {mode : ExecutionMode}
      (source : input = .command event) (command : event.command = .beginAttempt attemptId runner mode)
      (eligible : directive = .ready ∨ directive = .retryEligible)
      (provenance : Authority.isTest e.plan.spec.request.authority = true → mode = .test)
      (same : ∀ a, e.snapshot.attempt = some a → a.id ≠ attemptId ∧ a.runner = runner ∧ a.mode = mode)
      (counted : e.snapshot.attempts + 1 ≤ maxAttemptCount) :
      Advances e directive now input (begunSnapshot e attemptId runner mode now)
  | cancelled : Advances e directive now input { e.snapshot with cancelRequested := true }
  | recovered (idle : e.snapshot.attempt = none) : Advances e directive now input e.snapshot
  | updated {a a' : AttemptSnapshot} (found : e.snapshot.attempt = some a) (updates : Updates e input now a a') :
      Advances e directive now input { e.snapshot with attempt := some a' }

section Inversion
variable {e : Execution} {directive : Directive} {now : Nat} {next : Snapshot} {input : Input} {a a' : AttemptSnapshot}

theorem recordObservation_updates {o : RecordedObservation} (observed : Observed e input now a o) (h : recordObservation a o = .ok a') :
    Updates e input now a a' := by
  unfold recordObservation at h
  split at h
  · next code bytes observation =>
    split at h
    · cases h
    next running =>
    split at h
    · cases h
    next covers =>
    cases h
    rw [Option.not_isSome_iff_eq_none] at running
    exact .ended observed running (by rw [observation]; rfl) (Nat.le_of_not_lt covers) (.inr (.inr ⟨code, observation⟩))
  · next bytes observation =>
    split at h
    · cases h
    next running =>
    split at h
    · cases h
    next covers =>
    cases h
    rw [Option.not_isSome_iff_eq_none] at running
    exact .ended observed running (by rw [observation]; rfl) (Nat.le_of_not_lt covers) (.inr (.inl observation))
  · next observation =>
    split at h
    · cases h
    next running =>
    cases h
    rw [Option.not_isSome_iff_eq_none] at running
    exact .ended observed running (by rw [observation]; rfl) (Nat.le_refl _) (.inl rfl)
  · next assessment observation =>
    split at h
    · cases h
    next t ended =>
    split at h
    · cases h
    next ordered =>
    cases h
    rw [not_or, Nat.not_lt] at ordered
    refine .assessed observed ended (by rw [observation]; rfl) ordered.1 fun p found => ?_
    have revisable := ordered.2
    rw [found] at revisable
    simpa using revisable
  · split at h
    · cases h
    · cases h
      exact .uncertain

theorem applyObservation_advances {event : ObservationEvent} {verify : ObservationVerifier}
    (h : applyObservation e event now verify = .ok next) : Advances e directive now (.observation event verify) next := by
  obtain ⟨a, a', found, current, updated, rfl⟩ := withCurrentAttempt_ok h
  refine .updated found ?_
  split at updated
  · cases updated
  next facts verified =>
  split at updated
  · cases updated
  next bound =>
  simp only [not_or, not_not, Nat.not_lt, Bool.not_eq_false] at bound
  obtain ⟨-, -, -, -, runner, accepted, received, evidence⟩ := bound
  exact recordObservation_updates ⟨⟨event, verify, facts, rfl, current.symm, verified, rfl⟩, runner, evidence, accepted, received⟩ updated

theorem applyCommand_advances {event : CommandEvent} (h : applyCommand e event.command directive now = .ok next) :
    Advances e directive now (.command event) next := by
  cases command : event.command with
  | prepare | wait =>
    rw [command] at h
    simp only [applyCommand] at h
    split at h
    · cases h
    next open_ =>
    rw [not_or, Option.not_isSome_iff_eq_none, Bool.not_eq_true] at open_
    cases h
    exact .prepared _ open_.1 open_.2
  | beginAttempt attemptId runner mode =>
    rw [command] at h
    simp only [applyCommand] at h
    split at h
    · cases h
    next eligible =>
    split at h
    · cases h
    next bound =>
    split at h
    · cases h
    next counted =>
    cases h
    rw [not_and_or, not_not, not_not] at eligible
    rw [not_or, not_and, not_not] at bound
    refine .begun rfl command eligible bound.1 (fun a found => ?_) (Nat.le_of_not_lt counted)
    have same := bound.2
    rw [found] at same
    simpa [and_assoc] using same
  | cancel =>
    rw [command] at h
    cases h
    exact .cancelled
  | recover =>
    rw [command] at h
    cases found : e.snapshot.attempt with
    | none =>
      simp only [applyCommand, found, Option.map_none, Except.ok.injEq] at h
      subst h
      have same : { e.snapshot with attempt := none } = e.snapshot := by
        cases snapshot : e.snapshot
        rw [snapshot] at found
        cases found
        rfl
      rw [same]
      exact .recovered found
    | some a =>
      simp only [applyCommand, found, Option.map_some, Except.ok.injEq] at h
      subst h
      refine .updated found ?_
      split
      · exact .uncertain
      · exact .kept
  | dispatched attemptId =>
    rw [command] at h
    obtain ⟨a, a', found, -, updated, rfl⟩ := withCurrentAttempt_ok h
    split at updated
    · cases updated
    next starting =>
    cases updated
    rw [not_or, not_not] at starting
    exact .updated found (.dispatched starting.1)
  | dispatchUnconfirmed attemptId cause =>
    rw [command] at h
    obtain ⟨a, a', found, -, updated, rfl⟩ := withCurrentAttempt_ok h
    cases updated
    exact .updated found (.unconfirmed cause)
  | stopReported attemptId outcome =>
    rw [command] at h
    obtain ⟨a, a', found, -, updated, rfl⟩ := withCurrentAttempt_ok h
    cases updated
    exact .updated found (.stopped outcome)
  | output attemptId totalBytes =>
    rw [command] at h
    obtain ⟨a, a', found, -, updated, rfl⟩ := withCurrentAttempt_ok h
    refine .updated found ?_
    split at updated
    · cases updated
    next covers =>
    cases updated
    rw [not_or, not_and, Nat.not_lt] at covers
    by_cases running : a.termination.isNone = true
    · rw [if_pos running]
      exact .counted ⟨event, attemptId, rfl, command⟩ (Option.isNone_iff_eq_none.mp running) (covers.1 running)
    · rw [if_neg running]
      exact .kept

theorem apply_advances (h : e.apply input directive now = .ok next) : Advances e directive now input next := by
  cases input with
  | command event => exact applyCommand_advances h
  | observation event verify => exact applyObservation_advances h

theorem evaluateInput_advances {ev : Evaluation} {t : Transition} (h : e.evaluateInput input now = .ok ev)
    (offered : ev.transition = some t) : ∃ directive next, e.directive now = .ok directive ∧ Advances e directive now input next ∧
      t.next.plan = e.plan ∧ t.next.snapshot = committed e.snapshot next input.record now := by
  obtain ⟨directive, advised, h⟩ := bind_ok.mp h
  split at h
  · split at h
    · cases h
      cases offered
    · cases h
  split at h
  · cases h
    cases offered
  split at h
  · cases h
  obtain ⟨next, applied, h⟩ := bind_ok.mp h
  obtain ⟨successor, restored, h⟩ := bind_ok.mp h
  obtain ⟨after, -, h⟩ := bind_ok.mp h
  cases h
  cases offered
  obtain ⟨plan, stored, -⟩ := restore_ok restored
  exact ⟨directive, next, advised, apply_advances applied, plan, stored⟩

end Inversion

end RssMdmAgent.LifecycleAdvances
