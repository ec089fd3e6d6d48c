import RssMdmAgent.LifecycleRuns

set_option autoImplicit false

/-! # Cumulative budgets over whole runs of one execution -/

namespace RssMdmAgent.LifecycleBudgets
open BoundedArithmetic ContractIdentity ContractPlan LifecycleModel LifecycleState LifecycleSteps
open TransitionRuns LifecycleRuns

theorem saturatingAdd_mono {a b c d : Nat} (left : a ≤ c) (right : b ≤ d) :
    saturatingAdd a b ≤ saturatingAdd c d := by
  unfold saturatingAdd
  omega

theorem Snapshot.output_of_attempt {s : Snapshot} {a : AttemptSnapshot}
    (found : s.attempt = some a) :
    Snapshot.totalOutputBytes s = saturatingAdd s.priorOutputBytes a.outputBytes := by
  unfold Snapshot.totalOutputBytes
  rw [found]
  rfl

theorem Applies.output_le {e : Execution} {directive : Directive} {now : Nat} {input : Input}
    {next : Snapshot} (applies : Applies e directive now input next) :
    e.totalOutputBytes ≤ Snapshot.totalOutputBytes next := by
  cases applies with
  | prepared | cancelled | recovered => exact Nat.le_refl _
  | begun =>
    -- the previous total becomes the prior output, and it already fits a word
    change e.totalOutputBytes ≤ saturatingAdd e.totalOutputBytes 0
    have word : e.totalOutputBytes ≤ maxWord := Nat.min_le_right _ _
    unfold saturatingAdd
    omega
  | updated found kept =>
    rw [Execution.totalOutputBytes, Snapshot.output_of_attempt found]
    exact saturatingAdd_mono (Nat.le_refl _) kept.output

theorem Step.output_le {e e' : Execution} {label : Label} (h : Step e label e') :
    e.totalOutputBytes ≤ e'.totalOutputBytes := by
  cases h with
  | applied evaluated offered =>
    obtain ⟨directive, snapshot, -, applies, stored⟩ :=
      (evaluateInput_transition evaluated offered).2.2.applied
    refine Nat.le_trans (Applies.output_le applies) (Nat.le_of_eq ?_)
    rw [Execution.totalOutputBytes, stored]
    rfl
  | unchanged | rejected => exact Nat.le_refl _
  | restored stored =>
    rw [Execution.totalOutputBytes, Execution.totalOutputBytes, (restore_ok stored).2.1]

theorem runs_output_le {e e' : Execution} {labels : List Label} (run : Runs Step e labels e') :
    e.totalOutputBytes ≤ e'.totalOutputBytes :=
  run.relates (fun e e' => e.totalOutputBytes ≤ e'.totalOutputBytes) (fun _ => Nat.le_refl _)
    Nat.le_trans fun _ _ _ h => Step.output_le h

theorem frozen_bounds (plan : FrozenExecution) :
    plan.spec.budget.totalTimeoutMs ≤ maxSafeInteger ∧
      plan.spec.validity.expiresAtUnixMs ≤ maxSafeInteger := by
  obtain ⟨limits, frozen⟩ := plan.frozen
  have integers := check_ok.mp (freezable_validated frozen).2.1
  simp only [ExecutionInput.integers, List.all_cons, List.all_nil, Bool.and_true, Bool.and_eq_true,
    decide_eq_true_eq] at integers
  obtain ⟨timeout, -, -, -, expires⟩ := integers
  exact ⟨timeout, expires⟩

theorem deadline_exact {e : Execution} {first : Nat}
    (started : e.snapshot.firstAttemptAtUnixMs = some first) :
    saturatingAdd first e.plan.spec.budget.totalTimeoutMs =
      first + e.plan.spec.budget.totalTimeoutMs ∧ first ≤ e.snapshot.updatedAtUnixMs ∧
      first + e.plan.spec.budget.totalTimeoutMs ≤ 2 * maxSafeInteger := by
  obtain ⟨timeout, expires⟩ := frozen_bounds e.plan
  obtain ⟨a, found⟩ : ∃ a, e.snapshot.attempt = some a := by
    cases found : e.snapshot.attempt with
    | some a => exact ⟨a, rfl⟩
    | none => rw [(Execution.idle_facts e found).1] at started; cases started
  obtain ⟨first', same, facts⟩ := Execution.attempt_facts e found
  cases started.symm.trans same
  have ordered := facts.ordered
  have window := facts.window
  have accepted := facts.accepted
  have bound : first + e.plan.spec.budget.totalTimeoutMs ≤ 2 * maxSafeInteger := by omega
  refine ⟨saturatingAdd_of_le (Nat.le_trans bound (by decide)), by omega, bound⟩

/-- What an allowance hands out. -/
structure AllowanceFacts (e : Execution) (now : Nat) (allowance : DispatchAllowance) : Prop where
  clock : e.snapshot.updatedAtUnixMs ≤ now
  deadline : allowance.deadlineUnixMs =
    saturatingAdd (e.snapshot.firstAttemptAtUnixMs.getD now) e.plan.spec.budget.totalTimeoutMs
  timeout : allowance.remainingTimeoutMs = allowance.deadlineUnixMs - now
  output : allowance.remainingOutputBytes =
    e.plan.spec.budget.totalOutputBytes - e.totalOutputBytes

theorem allowance_facts {e : Execution} {now : Nat} {allowance : DispatchAllowance}
    (h : e.allowance now = .ok allowance) : AllowanceFacts e now allowance := by
  obtain ⟨directive, advised, h⟩ := bind_ok.mp h
  cases h
  exact ⟨directive_clock advised, rfl, rfl, rfl⟩

theorem active_unlimited {e : Execution} {now : Nat} {directive : Directive} {a : AttemptSnapshot}
    (advised : e.directive now = .ok directive) (found : e.snapshot.attempt = some a)
    (active : a.termination = none) (going : ∀ reason, directive ≠ .stopRunner reason) :
    e.limitReason now = none := by
  unfold Execution.directive at advised
  dsimp only at advised
  split at advised
  · cases advised
  rw [Except.ok.injEq, found] at advised
  dsimp only at advised
  rw [active] at advised
  dsimp only at advised
  split at advised
  · exact absurd advised.symm (going _)
  split at advised
  · exact absurd advised.symm (going _)
  · next unlimited => exact unlimited

/-- The budgets at `e'`, reached by the inputs `done` from `e`, compared with those at `e`. -/
structure BudgetsKept (plan : FrozenExecution) (e : Execution) (labels done : List Label)
    (e' : Execution) : Prop where
  output : e.totalOutputBytes ≤ e'.totalOutputBytes
  counted : e'.snapshot.attempts = e.snapshot.attempts + (begins done).length
  attempts : e'.snapshot.attempts ≤ plan.spec.budget.maxAttempts
  deadline : ∀ first, (begins (labels ++ done)).head? = some first → ∀ now allowance,
    e'.allowance now = .ok allowance →
      allowance.deadlineUnixMs = first.2 + plan.spec.budget.totalTimeoutMs
  remaining : ∀ now later allowance after, now ≤ later → e.allowance now = .ok allowance →
    e'.allowance later = .ok after →
      after.remainingTimeoutMs ≤ allowance.remainingTimeoutMs ∧
        after.remainingOutputBytes ≤ allowance.remainingOutputBytes
  active : ∀ a now directive allowance, e'.snapshot.attempt = some a → a.termination = none →
    e'.directive now = .ok directive → (∀ reason, directive ≠ .stopRunner reason) →
      e'.allowance now = .ok allowance →
        0 < allowance.remainingTimeoutMs ∧ 0 < allowance.remainingOutputBytes

section Remaining
variable {plan : FrozenExecution} {e e' : Execution}

theorem remaining_timeout_le {now later : Nat} {allowance after : DispatchAllowance}
    (samePlan : e'.plan = e.plan)
    (kept : ∀ first, e.snapshot.firstAttemptAtUnixMs = some first →
      e'.snapshot.firstAttemptAtUnixMs = some first)
    (ordered : now ≤ later) (first : AllowanceFacts e now allowance)
    (second : AllowanceFacts e' later after) :
    after.remainingTimeoutMs ≤ allowance.remainingTimeoutMs := by
  have bounds := (frozen_bounds e.plan).1
  rw [first.timeout, first.deadline, second.timeout, second.deadline, samePlan]
  cases started : e.snapshot.firstAttemptAtUnixMs with
  | some start =>
    rw [kept start started, Option.getD_some, Option.getD_some]
    exact Nat.sub_le_sub_left ordered _
  | none =>
    -- before the first attempt the whole timeout remains, up to the integer ceiling
    rw [Option.getD_none]
    cases begun : e'.snapshot.firstAttemptAtUnixMs with
    | none =>
      rw [Option.getD_none]
      unfold saturatingAdd
      omega
    | some start =>
      rw [Option.getD_some]
      obtain ⟨exact_, past, small⟩ := deadline_exact begun
      rw [samePlan] at exact_ small
      have clock := second.clock
      rw [exact_]
      have ceiling : 4 * maxSafeInteger ≤ maxWord := by decide
      unfold saturatingAdd
      omega

theorem active_remaining {a : AttemptSnapshot} {now : Nat} {directive : Directive}
    {allowance : DispatchAllowance} (found : e.snapshot.attempt = some a)
    (active : a.termination = none) (advised : e.directive now = .ok directive)
    (going : ∀ reason, directive ≠ .stopRunner reason) (h : e.allowance now = .ok allowance) :
    0 < allowance.remainingTimeoutMs ∧ 0 < allowance.remainingOutputBytes := by
  obtain ⟨-, -, output, elapsed⟩ := limitReason_none (active_unlimited advised found active going)
  obtain ⟨start, started, -⟩ := Execution.attempt_facts e found
  obtain ⟨exact_, past, -⟩ := deadline_exact started
  have facts := allowance_facts h
  have elapsed := elapsed start started
  have clock := facts.clock
  rw [facts.timeout, facts.deadline, facts.output, started, Option.getD_some, exact_]
  omega

end Remaining

/-- No run replenishes a budget. Under a stop advice, for a limit or for a cancellation, nothing is
promised about what remains. -/
theorem budgets_never_replenished {plan : FrozenExecution} {opened : Nat} {limits : Limits}
    {start e e' : Execution} {labels done : List Label}
    (creation : Execution.create plan opened limits = .ok start) (run : Runs Step start labels e)
    (further : Runs Step e done e') : BudgetsKept plan e labels done e' := by
  have before := runs_recorded creation run
  have after := runs_recorded creation (run.trans further)
  have output := runs_output_le further
  have samePlan : e'.plan = e.plan := after.plan.trans before.plan.symm
  have grown : begins (labels ++ done) = begins labels ++ begins done := List.filterMap_append
  refine ⟨output, ?_, ?_, ?_, ?_, ?_⟩
  · rw [after.attempts, before.attempts, grown, List.length_append]
  · rw [← after.plan]
    exact Execution.attempts_le e'
  · intro first head now allowance h
    have started : e'.snapshot.firstAttemptAtUnixMs = some first.2 := by
      rw [after.first, head]
      rfl
    rw [(allowance_facts h).deadline, started, Option.getD_some, (deadline_exact started).1,
      after.plan]
  · intro now later allowance afterAllowance ordered h h'
    refine ⟨remaining_timeout_le samePlan ?_ ordered (allowance_facts h) (allowance_facts h'), ?_⟩
    · intro first started
      rw [before.first] at started
      rw [after.first, grown, List.head?_append]
      obtain ⟨entry, head, rfl⟩ := Option.map_eq_some_iff.mp started
      rw [head]
      rfl
    · rw [(allowance_facts h).output, (allowance_facts h').output, samePlan]
      exact Nat.sub_le_sub_left output _
  · intro a now directive allowance found active advised going h
    exact active_remaining found active advised going h

section Samples

def exhausted : List (Input × Nat) :=
  [commandInput "event-0" (.refl true) 0 .prepare 1,
    commandInput "event-1" (.refl true) 1 (.beginAttempt firstAttempt processRunner .real) 2,
    commandInput "event-2" (.refl true) 2 (.output firstAttempt 1000) 3,
    commandInput "event-3" (.refl true) 3 .cancel 4]

def exhaustedLabels : List Label := exhausted.map fun input => .applied input.1.record input.2

theorem budgets_never_replenished_sample : ∃ start e, BudgetsKept processPlan start []
    exhaustedLabels e := by
  have computed : ((Execution.create processPlan 0 processLimits).toOption.bind fun start =>
      advanceAll start exhausted).isSome = true := by decide +kernel
  obtain ⟨e, computed⟩ := Option.isSome_iff_exists.mp computed
  obtain ⟨start, creation, computed⟩ := Option.bind_eq_some_iff.mp computed
  exact ⟨start, e, budgets_never_replenished (toOption_ok creation) .refl
    (advanceAll_runs exhausted computed)⟩

/-- A cancelled attempt is still active and its stop is no limit stop, but nothing may remain. -/
theorem cancelled_nothing_remains : ∃ start e a allowance,
    Execution.create processPlan 0 processLimits = .ok start ∧ Runs Step start exhaustedLabels e ∧
      e.snapshot.attempt = some a ∧ a.termination = none ∧
      e.directive 200 = .ok (.stopRunner .cancelled) ∧ e.allowance 200 = .ok allowance ∧
      allowance.remainingTimeoutMs = 0 ∧ allowance.remainingOutputBytes = 0 := by
  have computed : ((Execution.create processPlan 0 processLimits).toOption.bind fun start =>
      (advanceAll start exhausted).filter fun e =>
        e.snapshot.attempt.any (·.termination.isNone) &&
          (e.directive 200).toOption == some (.stopRunner .cancelled) &&
          (e.allowance 200).toOption == some ⟨102, 0, 0⟩).isSome = true := by decide +kernel
  obtain ⟨e, computed⟩ := Option.isSome_iff_exists.mp computed
  obtain ⟨start, creation, computed⟩ := Option.bind_eq_some_iff.mp computed
  obtain ⟨computed, facts⟩ := Option.filter_eq_some_iff.mp computed
  simp only [Bool.and_eq_true, beq_iff_eq, Option.any_eq_true] at facts
  obtain ⟨⟨⟨a, found, active⟩, advised⟩, allowance⟩ := facts
  exact ⟨start, e, a, ⟨102, 0, 0⟩, toOption_ok creation, advanceAll_runs exhausted computed, found,
    Option.isNone_iff_eq_none.mp active, toOption_ok advised, toOption_ok allowance, rfl, rfl⟩

end Samples

end RssMdmAgent.LifecycleBudgets
