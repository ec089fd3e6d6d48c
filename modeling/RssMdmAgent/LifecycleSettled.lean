import RssMdmAgent.LifecycleAdvances

set_option autoImplicit false

/-! # Settled facts of a lifecycle over whole runs -/

namespace RssMdmAgent.LifecycleSettled
open BoundedArithmetic ContractIdentity ContractPlan LifecycleModel LifecycleState LifecycleSteps LifecycleRuns LifecycleAdvances
open TransitionRuns

/-- A later record of the same attempt takes no settled fact back. -/
structure Settled (a a' : AttemptSnapshot) : Prop where
  id : a'.id = a.id
  accepted : a'.acceptedAtUnixMs = a.acceptedAtUnixMs
  runner : a'.runner = a.runner
  mode : a'.mode = a.mode
  ended : ∀ t, a.termination = some t → a'.termination = some t ∧ a'.outputBytes = a.outputBytes
  final : Assessed a → a'.assessment = a.assessment
  ordered : ∀ o, a.assessment = some o → ∃ o', a'.assessment = some o' ∧ o.observedAtUnixMs ≤ o'.observedAtUnixMs
  dispatched : a.dispatch.wasDispatched = true → a'.dispatch.wasDispatched = true
  uncertain : ∀ was, a.dispatch = .unknown was → a'.dispatch = .unknown was

theorem Settled.refl (a : AttemptSnapshot) : Settled a a :=
  ⟨rfl, rfl, rfl, rfl, fun _ h => ⟨h, rfl⟩, fun _ => rfl, fun o h => ⟨o, h, Nat.le_refl _⟩, fun h => h, fun _ h => h⟩

theorem Settled.trans {a b c : AttemptSnapshot} (first : Settled a b) (second : Settled b c) : Settled a c := by
  refine ⟨second.id.trans first.id, second.accepted.trans first.accepted, second.runner.trans first.runner,
    second.mode.trans first.mode, ?_, ?_, ?_, fun h => second.dispatched (first.dispatched h),
    fun was h => second.uncertain was (first.uncertain was h)⟩
  · intro t ended
    obtain ⟨stored, bytes⟩ := first.ended t ended
    obtain ⟨still, same⟩ := second.ended t stored
    exact ⟨still, same.trans bytes⟩
  · intro final
    have kept := first.final final
    have later : Assessed b := by
      unfold Assessed
      rw [kept]
      exact final
    exact (second.final later).trans kept
  · intro o found
    obtain ⟨o', later, ordered⟩ := first.ordered o found
    obtain ⟨o'', last, after⟩ := second.ordered o' later
    exact ⟨o'', last, ordered.trans after⟩

theorem Settled.redispatched {a : AttemptSnapshot} {dispatch : DispatchState} {cause : Option DispatchCause}
    (dispatched : a.dispatch.wasDispatched = true → dispatch.wasDispatched = true)
    (uncertain : ∀ was, a.dispatch = .unknown was → dispatch = .unknown was) :
    Settled a { a with
      dispatch := dispatch
      dispatchCause := cause } :=
  ⟨rfl, rfl, rfl, rfl, fun _ h => ⟨h, rfl⟩, fun _ => rfl, fun o h => ⟨o, h, Nat.le_refl _⟩, dispatched, uncertain⟩

theorem uncertain_dispatched (d : DispatchState) : d.uncertain.wasDispatched = d.wasDispatched := by
  cases d with
  | starting | dispatched => rfl
  | unknown was => cases was <;> rfl

theorem uncertain_unknown {d : DispatchState} {was : Bool} (h : d = .unknown was) : d.uncertain = .unknown was := by
  subst h
  cases was <;> rfl

theorem updates_settled {e : Execution} {input : Input} {now : Nat} {a a' : AttemptSnapshot} (h : Updates e input now a a') :
    Settled a a' := by
  cases h with
  | kept => exact .refl a
  | dispatched starting =>
    exact .redispatched (fun _ => rfl) fun was unknown => by
      rw [starting] at unknown
      cases unknown
  | uncertain =>
    exact .redispatched (fun h => (uncertain_dispatched _).trans h) fun _ => uncertain_unknown
  | unconfirmed cause =>
    refine .redispatched ?_ ?_
    · intro h
      split
      · exact (uncertain_dispatched _).trans h
      · exact h
    · intro was h
      split
      · exact uncertain_unknown h
      · exact h
  | stopped outcome =>
    exact ⟨rfl, rfl, rfl, rfl, fun _ h => ⟨h, rfl⟩, fun _ => rfl, fun o h => ⟨o, h, Nat.le_refl _⟩, fun h => h, fun _ h => h⟩
  | counted source running covers =>
    refine ⟨rfl, rfl, rfl, rfl, fun t ended => ?_, fun _ => rfl, fun o h => ⟨o, h, Nat.le_refl _⟩, fun h => h, fun _ h => h⟩
    rw [running] at ended
    cases ended
  | ended observed running settled covers counts =>
    refine ⟨rfl, rfl, rfl, rfl, fun t ended => ?_, fun _ => rfl, fun o h => ⟨o, h, Nat.le_refl _⟩, fun h => h, fun _ h => h⟩
    rw [running] at ended
    cases ended
  | @assessed o t observed ended effect later revisable =>
    refine ⟨rfl, rfl, rfl, rfl, fun _ h => ⟨h, rfl⟩, fun final => ?_, fun p found => ?_, fun h => h, fun _ h => h⟩
    · obtain ⟨p, found, settled⟩ := (Option.any_eq_true _ _).mp final
      rw [(revisable p found).2] at settled
      cases settled
    · exact ⟨o, rfl, (revisable p found).1⟩

structure Lasting (e e' : Execution) : Prop where
  plan : e'.plan = e.plan
  cancelled : e.snapshot.cancelRequested = true → e'.snapshot.cancelRequested = true
  bound : ∀ a, e.snapshot.attempt = some a → ∃ a', e'.snapshot.attempt = some a' ∧ a'.runner = a.runner ∧ a'.mode = a.mode

theorem Lasting.refl (e : Execution) : Lasting e e :=
  ⟨rfl, fun h => h, fun a found => ⟨a, found, rfl, rfl⟩⟩

theorem Lasting.trans {e f g : Execution} (first : Lasting e f) (second : Lasting f g) : Lasting e g := by
  refine ⟨second.plan.trans first.plan, fun h => second.cancelled (first.cancelled h), fun a found => ?_⟩
  obtain ⟨b, later, runner, mode⟩ := first.bound a found
  obtain ⟨c, last, runner', mode'⟩ := second.bound b later
  exact ⟨c, last, runner'.trans runner, mode'.trans mode⟩

section Steps
variable {e e' : Execution} {label : Label}

theorem step_lasting (h : Step e label e') : Lasting e e' := by
  cases h with
  | unchanged | rejected => exact .refl e
  | restored stored =>
    obtain ⟨plan, snapshot, -⟩ := restore_ok stored
    exact ⟨plan, fun h => snapshot ▸ h, fun a found => ⟨a, snapshot ▸ found, rfl, rfl⟩⟩
  | applied evaluated offered =>
    obtain ⟨directive, next, -, advances, plan, stored⟩ := evaluateInput_advances evaluated offered
    cases advances with
    | prepared preparation idle open_ =>
      refine ⟨plan, fun h => by rw [stored]; exact h, fun a found => ?_⟩
      rw [idle] at found
      cases found
    | begun source command eligible provenance same counted =>
      refine ⟨plan, fun h => by rw [stored]; exact h, fun a found => ?_⟩
      obtain ⟨-, runner, mode⟩ := same a found
      rw [stored]
      exact ⟨_, rfl, runner.symm, mode.symm⟩
    | cancelled => exact ⟨plan, fun _ => by rw [stored]; rfl, fun a found => ⟨a, by rw [stored]; exact found, rfl, rfl⟩⟩
    | recovered idle => exact ⟨plan, fun h => by rw [stored]; exact h, fun a found => ⟨a, by rw [stored]; exact found, rfl, rfl⟩⟩
    | updated found updates =>
      refine ⟨plan, fun h => by rw [stored]; exact h, fun b other => ?_⟩
      rw [found] at other
      cases other
      have settled := updates_settled updates
      exact ⟨_, by rw [stored]; rfl, settled.runner, settled.mode⟩

theorem step_settled (h : Step e label e') (same : label.begun = none) (a : AttemptSnapshot) (found : e.snapshot.attempt = some a) :
    ∃ a', e'.snapshot.attempt = some a' ∧ Settled a a' := by
  cases h with
  | unchanged | rejected => exact ⟨a, found, .refl a⟩
  | restored stored =>
    obtain ⟨-, snapshot, -⟩ := restore_ok stored
    exact ⟨a, by rw [snapshot]; exact found, .refl a⟩
  | applied evaluated offered =>
    obtain ⟨directive, next, -, advances, plan, stored⟩ := evaluateInput_advances evaluated offered
    cases advances with
    | prepared preparation idle open_ =>
      rw [idle] at found
      cases found
    | @begun event attemptId runner mode source command eligible provenance fresh counted =>
      subst source
      rcases event with ⟨id, revision, _⟩
      cases command
      cases same
    | cancelled | recovered => exact ⟨a, by rw [stored]; exact found, .refl a⟩
    | updated current updates =>
      rw [found] at current
      cases current
      exact ⟨_, by rw [stored]; rfl, updates_settled updates⟩

def Provided (labels : List Label) (e : Execution) : Prop :=
  ∀ a t, e.snapshot.attempt = some a → a.termination = some t → ∃ event now,
    Label.applied (.observation event) now ∈ labels ∧ event.attemptId = a.id ∧ event.evidence = t.evidence

theorem Provided.step {labels : List Label} (provided : Provided labels e) (h : Step e label e') : Provided (labels ++ [label]) e' := by
  -- a termination that was there before keeps its observation among the labels
  have earlier : ∀ a t, e.snapshot.attempt = some a → a.termination = some t → ∃ event now,
      Label.applied (.observation event) now ∈ labels ++ [label] ∧ event.attemptId = a.id ∧ event.evidence = t.evidence := by
    intro a t found ended
    obtain ⟨event, now, mem, facts⟩ := provided a t found ended
    exact ⟨event, now, List.mem_append_left _ mem, facts⟩
  cases h with
  | unchanged | rejected => exact earlier
  | restored stored =>
    obtain ⟨-, snapshot, -⟩ := restore_ok stored
    unfold Provided
    rw [snapshot]
    exact earlier
  | @applied input now ev offer evaluated offered =>
    obtain ⟨directive, next, -, advances, plan, stored⟩ := evaluateInput_advances evaluated offered
    unfold Provided
    rw [stored]
    cases advances with
    | prepared | cancelled | recovered => exact earlier
    | begun =>
      intro a t found ended
      cases found
      cases ended
    | @updated a a' found updates =>
      intro b t current ended
      cases current
      have settled := updates_settled updates
      rw [settled.id]
      cases updates with
      | kept | dispatched | uncertain | unconfirmed | stopped | counted | assessed => exact earlier a t found ended
      | @ended o bytes observed =>
        cases ended
        obtain ⟨event, verify, facts, rfl, attempt, -, rfl⟩ := observed.source
        exact ⟨event, now, List.mem_append_right _ (List.mem_singleton_self _), attempt, rfl⟩

end Steps

section Runs
variable {plan : FrozenExecution} {opened : Nat} {limits : Limits} {start e e' : Execution} {earlier later : List Label}

theorem run_settled (run : Runs Step e later e') (same : begins later = []) (a : AttemptSnapshot) (found : e.snapshot.attempt = some a) :
    ∃ a', e'.snapshot.attempt = some a' ∧ Settled a a' := by
  refine run.history (fun labels e' => begins labels = [] → ∃ a', e'.snapshot.attempt = some a' ∧ Settled a a')
    (fun _ => ⟨a, found, .refl a⟩) ?_ same
  intro labels f label g ih h none
  rw [begins_append, List.append_eq_nil_iff] at none
  obtain ⟨b, middle, first⟩ := ih none.1
  have silent : label.begun = Option.none := by
    cases begun : label.begun with
    | none => rfl
    | some began =>
      rw [begun] at none
      cases none.2
  obtain ⟨c, last, second⟩ := step_settled h silent b middle
  exact ⟨c, last, first.trans second⟩

theorem assessed_ended {a : AttemptSnapshot} {o : RecordedObservation} (found : e.snapshot.attempt = some a)
    (assessed : a.assessment = some o) : ∃ t, a.termination = some t ∧ t.observedAtUnixMs ≤ o.observedAtUnixMs := by
  have checks := (Execution.checks e).2
  rw [found] at checks
  split at checks
  · next impossible _ => cases impossible
  · next b first current started =>
    cases current
    unfold validAttempt at checks
    rw [Bool.and_eq_true, assessed] at checks
    have ordered := (Bool.and_eq_true_iff.mp checks.2).2
    split at ordered
    · cases ordered
    · next t ended => exact ⟨t, ended, of_decide_eq_true ordered⟩
  · cases checks

theorem dispatched_phase {a : AttemptSnapshot} (found : e.snapshot.attempt = some a) (dispatched : a.dispatch.wasDispatched = true) :
    e.phase ≠ .starting ∧ (e.phase = .failedBeforeDispatch →
      ∃ t bytes, a.termination = some t ∧ t.observation = .neverDispatched bytes) := by
  unfold Execution.phase
  rw [found]
  dsimp only
  split
  · exact ⟨nofun, nofun⟩
  split
  · next t ended =>
    split
    · next bytes never => exact ⟨nofun, fun _ => ⟨t, bytes, ended, never⟩⟩
    · exact ⟨nofun, nofun⟩
  · split
    · next starting =>
      rw [starting] at dispatched
      cases dispatched
    · exact ⟨nofun, nofun⟩
    · exact ⟨nofun, nofun⟩

/-- What a later state owes to an earlier one and to the accepted inputs. -/
structure Upheld (plan : FrozenExecution) (labels later : List Label) (e e' : Execution) : Prop where
  authority : e'.plan = plan
  cancelled : e'.snapshot.cancelRequested = labels.any Label.cancelled
  bound : ∀ a, e.snapshot.attempt = some a → ∃ a', e'.snapshot.attempt = some a' ∧ a'.runner = a.runner ∧ a'.mode = a.mode
  attempt : begins later = [] → ∀ a, e.snapshot.attempt = some a → ∃ a', e'.snapshot.attempt = some a' ∧ Settled a a'
  assessed : ∀ a o, e'.snapshot.attempt = some a → a.assessment = some o →
    ∃ t, a.termination = some t ∧ t.observedAtUnixMs ≤ o.observedAtUnixMs
  provided : Provided labels e'
  dispatched : ∀ a, e'.snapshot.attempt = some a → a.dispatch.wasDispatched = true → e'.phase ≠ .starting ∧
    (e'.phase = .failedBeforeDispatch → ∃ t bytes, a.termination = some t ∧ t.observation = .neverDispatched bytes)

theorem facts_upheld (creation : Execution.create plan opened limits = .ok start) (run : Runs Step start earlier e)
    (rest : Runs Step e later e') : Upheld plan (earlier ++ later) later e e' := by
  have recorded := runs_recorded creation (run.trans rest)
  have lasting : Lasting e e' := rest.relates Lasting Lasting.refl Lasting.trans fun _ _ _ h => step_lasting h
  have provided : Provided (earlier ++ later) e' := by
    refine (run.trans rest).history Provided ?_ fun _ _ _ _ provided h => provided.step h
    obtain ⟨-, snapshot, -⟩ := restore_ok creation
    intro a t found
    rw [snapshot] at found
    cases found
  exact ⟨recorded.plan, recorded.cancelled, lasting.bound, run_settled rest, fun _ _ => assessed_ended, provided,
    fun _ => dispatched_phase⟩

end Runs

section Samples

theorem computed_runs {α β : Type} (first second : List (Input × Nat)) (seen : Execution → α) (after : Execution → β) {x : α} {y : β}
    (computed : ((Execution.create processPlan 0 processLimits).toOption.bind fun start => (advanceAll start first).bind fun e =>
      (advanceAll e second).map fun e' => (seen e, after e')) = some (x, y)) :
    ∃ start e e', Execution.create processPlan 0 processLimits = .ok start ∧
      Runs Step start (first.map fun input => .applied input.1.record input.2) e ∧
      Runs Step e (second.map fun input => .applied input.1.record input.2) e' ∧ seen e = x ∧ after e' = y := by
  obtain ⟨start, creation, computed⟩ := Option.bind_eq_some_iff.mp computed
  obtain ⟨e, run, computed⟩ := Option.bind_eq_some_iff.mp computed
  obtain ⟨e', rest, same⟩ := Option.map_eq_some_iff.mp computed
  cases same
  exact ⟨start, e, e', toOption_ok creation, advanceAll_runs first run, advanceAll_runs second rest, rfl, rfl⟩

def interrupted : List (Input × Nat) :=
  [commandInput "event-0" (.refl true) 0 .prepare 1,
    commandInput "event-1" (.refl true) 1 (.beginAttempt firstAttempt processRunner .real) 2,
    commandInput "event-2" (.refl true) 2 (.dispatched firstAttempt) 3,
    commandInput "event-3" (.refl true) 3 .recover 4]

def denied : List (Input × Nat) :=
  [(.observation ⟨⟨"event-4", .refl true⟩, 4, firstAttempt, processEvidence .stateObserved⟩ (reports (.neverDispatched 5)), 5)]

def retried : List (Input × Nat) := [commandInput "event-5" (.refl true) 5 (.beginAttempt secondAttempt processRunner .real) 6]

def attemptDispatch (e : Execution) : Option (AttemptId × DispatchState) := e.snapshot.attempt.map fun a => (a.id, a.dispatch)

/-- A dispatched attempt can look as if it had failed before its dispatch, and its uncertainty ends with the next attempt. -/
theorem dispatched_then_denied : (∃ start e e', Execution.create processPlan 0 processLimits = .ok start ∧
      Runs Step start (interrupted.map fun input => .applied input.1.record input.2) e ∧
      Runs Step e (denied.map fun input => .applied input.1.record input.2) e' ∧
      (attemptDispatch e, e.phase) = (some (firstAttempt, .unknown true), .outcomeUnknown) ∧
      (attemptDispatch e', e'.phase) = (some (firstAttempt, .unknown true), .failedBeforeDispatch)) ∧
    ∃ start e e', Execution.create processPlan 0 processLimits = .ok start ∧
      Runs Step start ((interrupted ++ denied).map fun input => .applied input.1.record input.2) e ∧
      Runs Step e (retried.map fun input => .applied input.1.record input.2) e' ∧
      attemptDispatch e = some (firstAttempt, .unknown true) ∧ attemptDispatch e' = some (secondAttempt, .starting) :=
  ⟨computed_runs _ _ (fun e => (attemptDispatch e, e.phase)) (fun e => (attemptDispatch e, e.phase)) (by decide +kernel),
    computed_runs _ _ attemptDispatch attemptDispatch (by decide +kernel)⟩

theorem facts_upheld_sample : ∃ e e', attemptDispatch e = some (firstAttempt, .unknown true) ∧ e'.phase = .failedBeforeDispatch ∧
    Upheld processPlan ((interrupted.map fun input => .applied input.1.record input.2) ++
      denied.map fun input => .applied input.1.record input.2) (denied.map fun input => .applied input.1.record input.2) e e' := by
  have computed : ((Execution.create processPlan 0 processLimits).toOption.bind fun start => (advanceAll start interrupted).bind fun e =>
      (advanceAll e denied).map fun e' => (attemptDispatch e, e'.phase)) =
      some (some (firstAttempt, .unknown true), .failedBeforeDispatch) := by decide +kernel
  obtain ⟨start, e, e', creation, run, rest, before, after⟩ := computed_runs _ _ attemptDispatch Execution.phase computed
  exact ⟨e, e', before, after, facts_upheld creation run rest⟩

end Samples

end RssMdmAgent.LifecycleSettled
