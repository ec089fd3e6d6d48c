import RssMdmAgent.LifecycleSteps

set_option autoImplicit false

/-! # Retries over whole runs of one execution -/

namespace RssMdmAgent.LifecycleRuns
open BoundedArithmetic ContractIdentity ContractPlan LifecycleModel LifecycleState LifecycleSteps
open TransitionRuns

inductive Label where
  | applied (event : EventRecord) (now : Nat)
  | kept
  | restored

/-- One evaluation or restoration. Duplicates, stale inputs and errors keep the execution. -/
inductive Step : Execution → Label → Execution → Prop where
  | applied {e : Execution} {input : Input} {now : Nat} {ev : Evaluation} {t : Transition}
      (evaluated : e.evaluateInput input now = .ok ev) (offered : ev.transition = some t) :
      Step e (.applied input.record now) t.next
  | unchanged {e : Execution} {input : Input} {now : Nat} {ev : Evaluation}
      (evaluated : e.evaluateInput input now = .ok ev) (refused : ev.transition = none) :
      Step e .kept e
  | rejected {e : Execution} {input : Input} {now : Nat} {error : LifecycleError}
      (evaluated : e.evaluateInput input now = .error error) : Step e .kept e
  | restored {e e' : Execution} {limits : Limits}
      (stored : restore e.plan e.snapshot limits = .ok e') : Step e .restored e'

def Label.begun : Label → Option (AttemptId × Nat)
  | .applied (.command ⟨_, _, .beginAttempt attemptId _ _⟩) now => some (attemptId, now)
  | _ => none

def Label.cancelled : Label → Bool
  | .applied (.command ⟨_, _, .cancel⟩) _ => true
  | _ => false

def begins (labels : List Label) : List (AttemptId × Nat) := labels.filterMap Label.begun

/-- What the accepted inputs of a run say about the stored snapshot. -/
structure Recorded (plan : FrozenExecution) (labels : List Label) (e : Execution) : Prop where
  plan : e.plan = plan
  cancelled : e.snapshot.cancelRequested = labels.any Label.cancelled
  attempts : e.snapshot.attempts = (begins labels).length
  first : e.snapshot.firstAttemptAtUnixMs = (begins labels).head?.map (·.2)
  current : e.snapshot.attempt.map (fun a => (a.id, a.acceptedAtUnixMs)) = (begins labels).getLast?

theorem begins_append (labels : List Label) (label : Label) :
    begins (labels ++ [label]) = begins labels ++ label.begun.toList := by
  rw [begins, List.filterMap_append]
  cases found : label.begun <;> simp [begins, found]

section Recording
variable {plan : FrozenExecution} {labels : List Label} {e e' : Execution}

theorem Recorded.keep {label : Label} (recorded : Recorded plan labels e) (begun : label.begun = none)
    (cancelled : label.cancelled = false) (samePlan : e'.plan = e.plan)
    (sameCancel : e'.snapshot.cancelRequested = e.snapshot.cancelRequested)
    (sameAttempts : e'.snapshot.attempts = e.snapshot.attempts)
    (sameFirst : e'.snapshot.firstAttemptAtUnixMs = e.snapshot.firstAttemptAtUnixMs)
    (sameAttempt : e'.snapshot.attempt.map (fun a => (a.id, a.acceptedAtUnixMs)) =
      e.snapshot.attempt.map (fun a => (a.id, a.acceptedAtUnixMs))) :
    Recorded plan (labels ++ [label]) e' := by
  have same : begins (labels ++ [label]) = begins labels := by
    rw [begins_append, begun, Option.toList_none, List.append_nil]
  refine ⟨samePlan.trans recorded.plan, ?_, ?_, ?_, ?_⟩
  · rw [sameCancel, recorded.cancelled, List.any_append]
    simp [cancelled]
  · rw [sameAttempts, recorded.attempts, same]
  · rw [sameFirst, recorded.first, same]
  · rw [sameAttempt, recorded.current, same]

theorem Recorded.applied {input : Input} {now : Nat} (recorded : Recorded plan labels e)
    (evaluated : Evaluated e input now e') :
    Recorded plan (labels ++ [.applied input.record now]) e' := by
  obtain ⟨directive, snapshot, -, applies, stored⟩ := evaluated.applied
  cases applies with
  | @prepared event preparation command idle =>
    have begun : (Label.applied (Input.command event).record now).begun = none := by
      rcases event with ⟨_, _, command⟩
      rcases command with rfl | rfl <;> rfl
    have cancelled : (Label.applied (Input.command event).record now).cancelled = false := by
      rcases event with ⟨_, _, command⟩
      rcases command with rfl | rfl <;> rfl
    exact recorded.keep begun cancelled evaluated.plan (by rw [stored]; rfl) (by rw [stored]; rfl)
      (by rw [stored]; rfl) (by rw [stored]; rfl)
  | @begun event attemptId runner mode command eligible fresh =>
    have begun : (Label.applied (Input.command event).record now).begun = some (attemptId, now) := by
      rcases event with ⟨_, _, command⟩
      subst command
      rfl
    have cancelled : (Label.applied (Input.command event).record now).cancelled = false := by
      rcases event with ⟨_, _, command⟩
      subst command
      rfl
    have grown : begins (labels ++ [.applied (Input.command event).record now]) =
        begins labels ++ [(attemptId, now)] := by
      rw [begins_append, begun]
      rfl
    refine ⟨evaluated.plan.trans recorded.plan, ?_, ?_, ?_, ?_⟩
    · rw [stored, List.any_append, ← recorded.cancelled]
      simp [committed, begunSnapshot, cancelled]
    · rw [stored, grown, List.length_append, ← recorded.attempts]
      rfl
    · rw [stored, grown]
      change some (e.snapshot.firstAttemptAtUnixMs.getD now) = _
      rw [recorded.first]
      cases begins labels <;> rfl
    · rw [stored, grown, List.getLast?_concat]
      rfl
  | @cancelled event command =>
    have begun : (Label.applied (Input.command event).record now).begun = none := by
      rcases event with ⟨_, _, command⟩
      subst command
      rfl
    have cancelled : (Label.applied (Input.command event).record now).cancelled = true := by
      rcases event with ⟨_, _, command⟩
      subst command
      rfl
    have same : begins (labels ++ [.applied (Input.command event).record now]) = begins labels := by
      rw [begins_append, begun, Option.toList_none, List.append_nil]
    refine ⟨evaluated.plan.trans recorded.plan, ?_, ?_, ?_, ?_⟩
    · rw [stored, List.any_append]
      simp [committed, cancelled]
    · rw [stored, same]
      exact recorded.attempts
    · rw [stored, same]
      exact recorded.first
    · rw [stored, same]
      exact recorded.current
  | @recovered event command idle =>
    have begun : (Label.applied (Input.command event).record now).begun = none := by
      rcases event with ⟨_, _, command⟩
      subst command
      rfl
    have cancelled : (Label.applied (Input.command event).record now).cancelled = false := by
      rcases event with ⟨_, _, command⟩
      subst command
      rfl
    exact recorded.keep begun cancelled evaluated.plan (by rw [stored]; rfl) (by rw [stored]; rfl)
      (by rw [stored]; rfl) (by rw [stored]; rfl)
  | @updated _ a a' found kept other =>
    have begun : (Label.applied input.record now).begun = none := by
      cases input with
      | command event =>
        rcases event with ⟨id, revision, command⟩
        cases command with
        | beginAttempt attemptId runner mode => exact absurd rfl ((other _ rfl).2 attemptId runner mode)
        | _ => rfl
      | observation => rfl
    have cancelled : (Label.applied input.record now).cancelled = false := by
      cases input with
      | command event =>
        rcases event with ⟨id, revision, command⟩
        cases command with
        | cancel => exact absurd rfl (other _ rfl).1
        | _ => rfl
      | observation => rfl
    refine recorded.keep begun cancelled evaluated.plan (by rw [stored]; rfl) (by rw [stored]; rfl)
      (by rw [stored]; rfl) ?_
    rw [stored, found]
    simp [committed, kept.id, kept.accepted]

theorem Recorded.step {label : Label} (recorded : Recorded plan labels e) (h : Step e label e') :
    Recorded plan (labels ++ [label]) e' := by
  cases h with
  | applied evaluated offered =>
    exact recorded.applied (evaluateInput_transition evaluated offered).2.2
  | unchanged | rejected => exact recorded.keep rfl rfl rfl rfl rfl rfl rfl
  | restored stored =>
    obtain ⟨plan, snapshot, -⟩ := restore_ok stored
    exact recorded.keep rfl rfl plan (by rw [snapshot]) (by rw [snapshot]) (by rw [snapshot])
      (by rw [snapshot])

theorem Recorded.created {now : Nat} {limits : Limits}
    (opened : Execution.create plan now limits = .ok e) : Recorded plan [] e := by
  obtain ⟨plan, snapshot, -⟩ := restore_ok opened
  refine ⟨plan, ?_, ?_, ?_, ?_⟩ <;> rw [snapshot] <;> rfl

theorem runs_recorded {start : Execution} {now : Nat} {limits : Limits}
    (opened : Execution.create plan now limits = .ok start) (run : Runs Step start labels e) :
    Recorded plan labels e :=
  run.history (Recorded plan) (.created opened) fun _ _ _ _ recorded h => recorded.step h

end Recording

def EffectFree (a : AttemptSnapshot) (termination : RecordedObservation) : Prop :=
  (isNeverDispatched termination.observation = true ∧
    (a.assessment = none ∨ ∃ o, a.assessment = some o ∧ o.observation = .effect .noEffect)) ∨
  ((∃ code bytes, termination.observation = .exited code bytes) ∧
    ∃ o, a.assessment = some o ∧ o.observation = .effect .noEffect)

/-- Everything that justifies a further attempt at time `now`, after the accepted inputs. -/
structure RetryJustified (plan : FrozenExecution) (labels : List Label) (e : Execution) (now : Nat) :
    Prop where
  previous : ∃ a termination, e.snapshot.attempt = some a ∧
    (begins labels).getLast? = some (a.id, a.acceptedAtUnixMs) ∧
    a.termination = some termination ∧ EffectFree a termination
  uncancelled : ∀ label ∈ labels, label.cancelled = false
  window : plan.spec.validity.notBeforeUnixMs ≤ now ∧ now < plan.spec.validity.expiresAtUnixMs
  elapsed : ∃ first, (begins labels).head? = some first ∧
    now - first.2 < plan.spec.budget.totalTimeoutMs
  output : e.totalOutputBytes < plan.spec.budget.totalOutputBytes
  attempts : (begins labels).length < plan.spec.budget.maxAttempts

theorem limitReason_none {e : Execution} {now : Nat} (h : e.limitReason now = none) :
    e.plan.spec.validity.notBeforeUnixMs ≤ now ∧
      (e.snapshot.attempt.all (·.termination.isSome) = true →
        now < e.plan.spec.validity.expiresAtUnixMs) ∧
      e.totalOutputBytes < e.plan.spec.budget.totalOutputBytes ∧
      ∀ first, e.snapshot.firstAttemptAtUnixMs = some first →
        now - first < e.plan.spec.budget.totalTimeoutMs := by
  unfold Execution.limitReason at h
  dsimp only at h
  split at h
  · cases h
  next started =>
  split at h
  · cases h
  next window =>
  split at h
  · cases h
  next output =>
  split at h
  · cases h
  next elapsed =>
  refine ⟨Nat.le_of_not_lt started, fun ended => ?_, Nat.lt_of_not_le output, fun first found => ?_⟩
  · exact Nat.lt_of_not_le fun late => window ⟨late, ended⟩
  · rw [found] at elapsed
    simpa using elapsed

theorem effectAssessment_noEffect {a : AttemptSnapshot}
    (h : AttemptSnapshot.effectAssessment a = some .noEffect) :
    ∃ o, a.assessment = some o ∧ o.observation = .effect .noEffect := by
  unfold AttemptSnapshot.effectAssessment at h
  split at h
  · cases h
  next o found =>
  split at h
  · next assessment observation =>
    cases h
    exact ⟨o, found, observation⟩
  · cases h

/-- An eligible execution with an attempt has an effect-free one and no exhausted bound. -/
theorem eligible_retry {e : Execution} {now : Nat} {directive : Directive} {a : AttemptSnapshot}
    (advised : e.directive now = .ok directive)
    (eligible : directive = .ready ∨ directive = .retryEligible)
    (found : e.snapshot.attempt = some a) :
    (∃ termination, a.termination = some termination ∧ EffectFree a termination) ∧
      e.snapshot.cancelRequested = false ∧ e.limitReason now = none ∧
      e.snapshot.attempts < e.plan.spec.budget.maxAttempts := by
  obtain ⟨first, -, facts⟩ := Execution.attempt_facts e found
  unfold Execution.directive at advised
  dsimp only at advised
  split at advised
  · cases advised
  rw [Except.ok.injEq, found] at advised
  dsimp only at advised
  split at advised
  · -- a running attempt is stopped, awaited or reconciled
    exfalso
    split at advised
    · rcases eligible with rfl | rfl <;> cases advised
    split at advised
    · rcases eligible with rfl | rfl <;> cases advised
    split at advised <;> rcases eligible with rfl | rfl <;> cases advised
  next termination ended =>
  split at advised
  · rcases eligible with rfl | rfl <;> cases advised
  next open_ =>
  split at advised
  · rcases eligible with rfl | rfl <;> cases advised
  next unproven =>
  split at advised
  swap
  · split at advised <;> rcases eligible with rfl | rfl <;> cases advised
  next noEffect =>
  split at advised
  · rcases eligible with rfl | rfl <;> cases advised
  next unlimited =>
  split at advised
  · rcases eligible with rfl | rfl <;> cases advised
  next attempts =>
  rw [not_or, not_and] at open_
  refine ⟨⟨termination, ended, ?_⟩, ?_, unlimited, Nat.lt_of_not_le attempts⟩
  · have settled := facts.settled termination ended
    have notQuiescent : termination.observation ≠ .quiescent := fun quiescent =>
      unproven ⟨noEffect, quiescent⟩
    unfold AttemptSnapshot.noEffect at noEffect
    rw [Bool.or_eq_true, Bool.and_eq_true, beq_iff_eq, beq_iff_eq, ended, Option.any_some] at noEffect
    rcases noEffect with assessed | ⟨unassessed, never⟩
    · have noEffect := effectAssessment_noEffect assessed
      cases observation : termination.observation with
      | exited code bytes => exact .inr ⟨⟨code, bytes, observation⟩, noEffect⟩
      | neverDispatched bytes => exact .inl ⟨by rw [observation]; rfl, .inr noEffect⟩
      | quiescent => exact absurd observation notQuiescent
      | effect | uncertain => rw [observation] at settled; cases settled
    · refine .inl ⟨never, .inl ?_⟩
      cases assessment : a.assessment with
      | none => rfl
      | some o =>
        have effect := facts.assessed o assessment
        simp only [AttemptSnapshot.effectAssessment, assessment] at unassessed
        cases observation : o.observation with
        | effect => rw [observation] at unassessed; cases unassessed
        | exited | neverDispatched | quiescent | uncertain => rw [observation] at effect; cases effect
  · exact Bool.eq_false_of_not_eq_true fun cancelled => open_.2 cancelled noEffect

/-- No attempt repeats an effect: after the first one, an accepted begin command finds the previous
attempt ended and effect free, no cancellation, and every cumulative bound unexhausted. -/
theorem retry_justified {plan : FrozenExecution} {opened : Nat} {limits : Limits}
    {start e : Execution} {labels : List Label} {event : CommandEvent} {attemptId : AttemptId}
    {runner : Identifier} {mode : ExecutionMode} {now : Nat} {ev : Evaluation}
    (creation : Execution.create plan opened limits = .ok start) (run : Runs Step start labels e)
    (command : event.command = .beginAttempt attemptId runner mode)
    (accepted : e.evaluateInput (.command event) now = .ok ev) (applied : ev.outcome = .applied)
    (later : begins labels ≠ []) : RetryJustified plan labels e now := by
  have recorded := runs_recorded creation run
  obtain ⟨t, offered⟩ := applied_offers accepted applied
  obtain ⟨-, -, evaluated⟩ := evaluateInput_transition accepted offered
  obtain ⟨directive, snapshot, advised, applies, -⟩ := evaluated.applied
  obtain ⟨first, head⟩ : ∃ first, (begins labels).head? = some first := by
    cases found : begins labels with
    | nil => exact absurd found later
    | cons first rest => exact ⟨first, rfl⟩
  obtain ⟨a, found⟩ : ∃ a, e.snapshot.attempt = some a := by
    cases found : e.snapshot.attempt with
    | some a => exact ⟨a, rfl⟩
    | none =>
      have current := recorded.current
      rw [found, Option.map_none, eq_comm, List.getLast?_eq_none_iff] at current
      exact absurd current later
  have eligible : directive = .ready ∨ directive = .retryEligible := by
    cases applies with
    | prepared _ other => rcases other with other | other <;> rw [command] at other <;> cases other
    | begun _ eligible => exact eligible
    | cancelled other => rw [command] at other; cases other
    | recovered other => rw [command] at other; cases other
    | updated _ _ other => exact absurd command ((other event rfl).2 attemptId runner mode)
  obtain ⟨⟨termination, ended, free⟩, uncancelled, unlimited, attempts⟩ :=
    eligible_retry advised eligible found
  obtain ⟨started, window, output, elapsed⟩ := limitReason_none unlimited
  rw [recorded.plan] at started window output elapsed attempts
  have terminated : e.snapshot.attempt.all (·.termination.isSome) = true := by
    rw [found, Option.all_some, ended]
    rfl
  refine ⟨⟨a, termination, found, ?_, ended, free⟩, ?_, ⟨started, window terminated⟩,
    ⟨first, head, elapsed first.2 ?_⟩, output, ?_⟩
  · rw [← recorded.current, found]
    rfl
  · rw [recorded.cancelled] at uncancelled
    intro label mem
    exact Bool.eq_false_of_not_eq_true (List.any_eq_false.mp uncancelled label mem)
  · rw [recorded.first, head]
    rfl
  · rw [← recorded.attempts]
    exact attempts

section Samples

theorem toOption_ok {α ε : Type} {result : Except ε α} {value : α}
    (h : result.toOption = some value) : result = .ok value := by
  cases result with
  | error => cases h
  | ok => cases h; rfl

def advance (e : Execution) (input : Input × Nat) : Option Execution :=
  match e.evaluateInput input.1 input.2 with
  | .ok ev => ev.transition.map (·.next)
  | .error _ => none

def advanceAll (e : Execution) (inputs : List (Input × Nat)) : Option Execution :=
  inputs.foldlM advance e

theorem advance_evaluated {e e' : Execution} {input : Input × Nat} (h : advance e input = some e') :
    ∃ ev t, e.evaluateInput input.1 input.2 = .ok ev ∧ ev.transition = some t ∧ t.next = e' := by
  unfold advance at h
  split at h
  · next ev evaluated =>
    obtain ⟨t, offered, next⟩ := Option.map_eq_some_iff.mp h
    exact ⟨ev, t, evaluated, offered, next⟩
  · cases h

theorem advanceAll_append {e e' : Execution} (inputs : List (Input × Nat)) (input : Input × Nat)
    (h : advanceAll e (inputs ++ [input]) = some e') :
    ∃ middle, advanceAll e inputs = some middle ∧ advance middle input = some e' := by
  rw [advanceAll, List.foldlM_append] at h
  obtain ⟨middle, first, last⟩ := Option.bind_eq_some_iff.mp h
  refine ⟨middle, first, ?_⟩
  rw [List.foldlM_cons] at last
  obtain ⟨next, step, rest⟩ := Option.bind_eq_some_iff.mp last
  cases rest
  exact step

theorem advanceAll_runs {e e' : Execution} (inputs : List (Input × Nat))
    (h : advanceAll e inputs = some e') :
    Runs Step e (inputs.map fun input => .applied input.1.record input.2) e' := by
  refine Runs.of_foldlM advance _ ?_ inputs h
  intro e input e' h
  obtain ⟨ev, t, evaluated, offered, rfl⟩ := advance_evaluated h
  exact .applied evaluated offered

def processInput : ExecutionInput where
  execution := .process
  request :=
    { requestId := ⟨"request", .refl true⟩
      authority := .localAuthority ⟨"authority", .refl true⟩
      actor := ⟨"actor", .refl true⟩
      device := ⟨"device", .refl true⟩
      platform := .macos
      targetUser := none
      action := ⟨"native.step", .refl true⟩
      exclusiveResources := some (.items [some "settings:display"]) }
  launch := ⟨⟨"native-script", .refl true⟩, .empty⟩
  runAs := .system .macos
  sessionRequirement := .notRequired
  budget := ⟨100, 1000, 3⟩
  validity := ⟨0, 1000⟩

def processDigest : Digest :=
  ⟨"1111111111111111111111111111111111111111111111111111111111111111", .refl true⟩

def processPlan : FrozenExecution where
  spec := processInput
  digest := processDigest
  frozen := ⟨⟨65536, 32, 4096, 4096, 128, 60000, 65536, 65536, 3⟩, by decide +kernel⟩

def processLimits : Limits := ⟨minSnapshotBytes⟩

def processRunner : Identifier := ⟨"runner", .refl true⟩
def firstAttempt : AttemptId := ⟨"attempt-1", .refl true⟩
def secondAttempt : AttemptId := ⟨"attempt-2", .refl true⟩

def processEvidence (kind : EvidenceKind) : EvidenceRef :=
  ⟨⟨⟨"evidence", .refl true⟩, ⟨"1", .refl true⟩⟩, kind, processRunner⟩

def reports (observation : Observation) : ObservationVerifier := fun plan attempt evidence now =>
  .ok ⟨plan.spec.request.requestId, plan.digest, attempt, evidence, now, observation⟩

def commandInput (id : String) (valid : validId id = true) (revision : Nat) (command : Command)
    (now : Nat) : Input × Nat :=
  (.command ⟨⟨id, valid⟩, revision, command⟩, now)

def undispatched : List (Input × Nat) :=
  [commandInput "event-0" (.refl true) 0 .prepare 1,
    commandInput "event-1" (.refl true) 1 (.beginAttempt firstAttempt processRunner .real) 2,
    (.observation ⟨⟨"event-2", .refl true⟩, 2, firstAttempt, processEvidence .stateObserved⟩
      (reports (.neverDispatched 5)), 3)]

theorem retry_justified_sample : ∃ e, RetryJustified processPlan
    (undispatched.map fun input => .applied input.1.record input.2) e 4 := by
  have computed : ((Execution.create processPlan 0 processLimits).toOption.bind fun start =>
      advanceAll start (undispatched ++ [commandInput "event-3" (by decide) 3
        (.beginAttempt secondAttempt processRunner .real) 4])).isSome = true := by decide +kernel
  obtain ⟨last, computed⟩ := Option.isSome_iff_exists.mp computed
  obtain ⟨start, creation, computed⟩ := Option.bind_eq_some_iff.mp computed
  obtain ⟨e, first, retried⟩ := advanceAll_append _ _ computed
  obtain ⟨ev, t, evaluated, offered, -⟩ := advance_evaluated retried
  exact ⟨e, retry_justified (toOption_ok creation) (advanceAll_runs undispatched first) rfl evaluated
    (evaluateInput_transition evaluated offered).1 (by decide +kernel)⟩

end Samples

end RssMdmAgent.LifecycleRuns
