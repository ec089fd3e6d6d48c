import RssMdmAgent.ProgressClosure

set_option autoImplicit false

/-! # The cleanup reserve over a whole history -/

namespace RssMdmAgent.ProgressReserve
open BoundedArithmetic ContractIdentity ContractProcess ProgramInstructions ContractPlan PlanShape
open ProgressHistory ProgressValidity ProgressReplay ProgressLayout ProgressRuns ProgressRecovery ProgressClosure

def isCleanupBegin : SoftwareCheckpoint → Bool
  | .cleanupBegin .. => true
  | _ => false

def beginsCleanup : SoftwareCheckpoint → Bool
  | .started _ .cleanup | .cleanupBegin .. => true
  | _ => false

def endsCleanup : SoftwareCheckpoint → SoftwareCheckpoint → Bool
  | .started i .cleanup, .ended _ j .cleanup _ _ _ => i == j
  | .cleanupBegin i n _ _, .cleanupEnd j m _ _ _ => i == j && n == m
  | _, _ => false

def endedTime (step : Nat) : SoftwareCheckpoint → Option Nat
  | .ended durationMs i .cleanup _ _ _ => if i = step then some durationMs else none
  | .cleanupEnd _ _ durationMs _ _ => some durationMs
  | _ => none

def endedOutput (step : Nat) : SoftwareCheckpoint → Option Nat
  | .ended _ i .cleanup process _ _ => if i = step then some (observedBytes process) else none
  | .cleanupEnd _ _ _ process _ => some process.totalOutputBytes
  | _ => none

/-- What the granting of a recovery has checked. -/
structure Granted (program : SoftwareProgram) (plan : FrozenExecution) (q : SoftwareProgress) (step sequence timeoutMs outputBytes : Nat) :
    Prop where
  acquired : lastAcquiring program q.checkpoints = some step
  account : ∃ command, program.invocation step .cleanup = some command ∧
    sequence = (cleanupAccount step command q.checkpoints).sequence + 1 ∧
    timeoutMs = command.timeoutMs - (cleanupAccount step command q.checkpoints).debit.elapsed ∧
    outputBytes = command.outputBytes - (cleanupAccount step command q.checkpoints).debit.output
  few : sequence ≤ 3
  time : 0 < timeoutMs
  output : 0 < outputBytes
  budget : q.elapsedMs < plan.spec.budget.totalTimeoutMs ∧ q.outputBytes < plan.spec.budget.totalOutputBytes

@[simp] theorem debit_sequence (a : CleanupAccount) : a.debit.sequence = a.sequence := by
  unfold CleanupAccount.debit
  split <;> rfl

section Grants
variable {plan : FrozenExecution} {program : SoftwareProgram} {valid : SoftwareProgress → Bool} {step sequence timeoutMs outputBytes : Nat}

theorem allowance_granted (found : plan.program = some program) {q : SoftwareProgress}
    (h : cleanupAllowanceWith valid plan q = some (step, sequence, timeoutMs, outputBytes)) :
    Granted program plan q step sequence timeoutMs outputBytes := by
  unfold cleanupAllowanceWith at h
  rw [found] at h
  simp only [Option.bind_eq_bind, Option.bind_some] at h
  obtain ⟨i, acquired, h⟩ := Option.bind_eq_some_iff.mp h
  obtain ⟨command, invocation, h⟩ := Option.bind_eq_some_iff.mp h
  split at h
  · cases h
  next few =>
  split at h
  · cases h
  next budget =>
  split at h
  · next positive =>
    cases h
    simp only [debit_sequence, Bool.or_eq_true, decide_eq_true_eq, not_or, Nat.not_le] at few budget
    refine ⟨acquired, ⟨command, invocation, by rw [debit_sequence], rfl, rfl⟩, ?_, positive.1, positive.2, budget⟩
    rw [debit_sequence]
    exact few.1.1
  · cases h

theorem recovery_granted {p : SoftwareProgress} {later : List SoftwareCheckpoint} (recs : List SoftwareCheckpoint) : ∀ {before pending},
    recoveryReplay valid plan p before pending (recs ++ .cleanupBegin step sequence timeoutMs outputBytes :: later) = true →
    ∃ q : SoftwareProgress, q.checkpoints = before.checkpoints ++ recs ∧
      cleanupAllowanceWith valid plan q = some (step, sequence, timeoutMs, outputBytes) := by
  induction recs with
  | nil =>
    intro before pending h
    rw [List.nil_append, recoveryReplay, Bool.and_eq_true, beq_iff_eq] at h
    exact ⟨before, (List.append_nil _).symm, h.1⟩
  | cons c rest ih =>
    intro before pending h
    rw [List.cons_append] at h
    unfold recoveryReplay at h
    cases c with
    | started | ended | complete => cases h
    | cleanupBegin =>
      rw [Bool.and_eq_true] at h
      obtain ⟨q, cps, granted⟩ := ih h.2
      exact ⟨q, by rw [cps, List.append_assoc]; rfl, granted⟩
    | cleanupEnd =>
      cases pending with
      | none => cases h
      | some grant =>
        rw [Bool.and_eq_true] at h
        obtain ⟨q, cps, granted⟩ := ih h.2
        exact ⟨q, by rw [cps, List.append_assoc]; rfl, granted⟩

theorem recovery_behind {p : SoftwareProgress} {start output elapsed : Nat} (recovers : Recovers plan p start output elapsed)
    {earlier later : List SoftwareCheckpoint} {c : SoftwareCheckpoint} (split : p.checkpoints = earlier ++ c :: later)
    (recovery : c.isRecovery = true) : start ≤ earlier.length ∧ p.checkpoints.drop start = earlier.drop start ++ c :: later ∧
      p.checkpoints.take start = earlier.take start := by
  have late : start ≤ earlier.length := by
    by_contra early
    have mem : c ∈ p.checkpoints.take start := by
      rw [split, List.take_append, show start - earlier.length = (start - earlier.length - 1) + 1 by omega, List.take_succ_cons]
      exact List.mem_append_right _ List.mem_cons_self
    have business := recovers.business c mem
    rw [recovery] at business
    cases business
  refine ⟨late, ?_, ?_⟩
  · rw [split, List.drop_append_of_le_length late]
  · rw [split, List.take_append_of_le_length late]

theorem valid_granted {p : SoftwareProgress} (found : plan.program = some program) (valid : p.validFor plan = true)
    {earlier later : List SoftwareCheckpoint}
    (split : p.checkpoints = earlier ++ .cleanupBegin step sequence timeoutMs outputBytes :: later) :
    ∃ q : SoftwareProgress, q.checkpoints = earlier ∧ Granted program plan q step sequence timeoutMs outputBytes := by
  obtain ⟨start, output, elapsed, recovers⟩ := valid_recovers valid ⟨_, split ▸ List.mem_append_right _ List.mem_cons_self, rfl⟩
  obtain ⟨-, behind, front⟩ := recovery_behind recovers split rfl
  have tail := recovers.tail
  rw [behind] at tail
  obtain ⟨q, cps, granted⟩ := recovery_granted _ tail
  refine ⟨q, ?_, allowance_granted found granted⟩
  rw [cps]
  change p.checkpoints.take start ++ earlier.drop start = earlier
  rw [front, List.take_append_drop]

theorem cleanups_ended {p : SoftwareProgress} (found : plan.program = some program) (valid : p.validFor plan = true)
    {front rest later : List SoftwareCheckpoint} {c : SoftwareCheckpoint}
    (split : p.checkpoints = (front ++ c :: rest) ++ .cleanupBegin step sequence timeoutMs outputBytes :: later)
    (begun : beginsCleanup c = true) : ∃ next rest', rest = next :: rest' ∧ endsCleanup c next = true := by
  obtain ⟨start, output, elapsed, recovers⟩ := valid_recovers valid ⟨_, split ▸ List.mem_append_right _ List.mem_cons_self, rfl⟩
  have split' := split
  rw [List.append_assoc, List.cons_append] at split'
  cases c with
  | ended | cleanupEnd | complete => cases begun
  | cleanupBegin i n time bytes =>
    have tail := recovers.tail
    rw [(recovery_behind recovers split' rfl).2.1] at tail
    cases rest with
    | nil =>
      obtain ⟨_, _, _, impossible⟩ := recovery_matched (frozen_shape found) found _ tail
      cases impossible
    | cons next rest =>
      obtain ⟨_, _, _, rfl⟩ := recovery_matched (frozen_shape found) found _ tail
      exact ⟨_, rest, rfl, by simp [endsCleanup]⟩
  | started i phase =>
    have closing : phase = .cleanup := by cases phase <;> first | rfl | cases begun
    subst closing
    obtain ⟨behind, business, records⟩ := business_before recovers split' rfl
    cases behind with
    | nil => exact (open_cleanup_ungranted found recovers business).elim
    | cons next behind =>
      obtain ⟨_, _, _, _, rfl⟩ :=
        (accepted_of_replay ((valid_of_business found recovers.business).mp recovers.valid).2.2).begun business
      cases rest with
      | nil =>
        rw [List.nil_append, List.cons_append] at records
        obtain ⟨impossible, -⟩ := List.cons.inj records
        cases impossible
      | cons first rest =>
        rw [List.cons_append, List.cons_append] at records
        obtain ⟨rfl, -⟩ := List.cons.inj records
        exact ⟨_, rest, rfl, by simp [endsCleanup]⟩

end Grants

section Account
variable {command : SoftwareInvocation} {step : Nat}

theorem accountStep_sequence (a : CleanupAccount) {c : SoftwareCheckpoint} (other : isCleanupBegin c = false) :
    (cleanupAccountStep step command a c).sequence = a.sequence := by
  cases c with
  | cleanupBegin => cases other
  | cleanupEnd | complete => rfl
  | started i phase | ended _ i phase =>
    cases phase <;> simp only [cleanupAccountStep]
    split <;> rfl

theorem account_sequence (cps : List SoftwareCheckpoint) (numbered : ∀ earlier i sequence timeoutMs outputBytes later,
      cps = earlier ++ .cleanupBegin i sequence timeoutMs outputBytes :: later →
      ∃ j other, sequence = (cleanupAccount j other earlier).sequence + 1) :
    ∀ step command, (cleanupAccount step command cps).sequence = cps.countP isCleanupBegin := by
  induction cps using List.reverseRecOn with
  | nil => exact fun _ _ => rfl
  | append_singleton front c ih =>
    have before := ih fun earlier i sequence timeoutMs outputBytes later same =>
      numbered earlier i sequence timeoutMs outputBytes (later ++ [c]) (by rw [same]; simp)
    intro step command
    rw [cleanupAccount_append, List.countP_append]
    cases c with
    | cleanupBegin i sequence timeoutMs outputBytes =>
      obtain ⟨j, other, same⟩ := numbered front i sequence timeoutMs outputBytes [] rfl
      rw [before] at same
      exact same
    | cleanupEnd | complete | started | ended =>
      rw [accountStep_sequence _ rfl, before]
      rfl

theorem debit_covers (a : CleanupAccount) : min a.elapsed maxWord ≤ a.debit.elapsed ∧ min a.output maxWord ≤ a.debit.output := by
  unfold CleanupAccount.debit saturatingAdd
  split
  · exact ⟨Nat.min_le_left _ _, Nat.min_le_left _ _⟩
  · dsimp only
    omega

/-- The account has at least what the ended attempts took, or has stopped at the ceiling. -/
theorem account_covers (command : SoftwareInvocation) (step : Nat) (cps : List SoftwareCheckpoint) :
    min (cps.filterMap (endedTime step)).sum maxWord ≤ (cleanupAccount step command cps).elapsed ∧
      min (cps.filterMap (endedOutput step)).sum maxWord ≤ (cleanupAccount step command cps).output := by
  induction cps using List.reverseRecOn with
  | nil => exact ⟨Nat.min_le_left _ _, Nat.min_le_left _ _⟩
  | append_singleton front c ih =>
    obtain ⟨time, output⟩ := ih
    rw [cleanupAccount_append, List.filterMap_append, List.sum_append, List.filterMap_append, List.sum_append]
    have debited := debit_covers (cleanupAccount step command front)
    cases c with
    | complete => exact ⟨time, output⟩
    | cleanupBegin =>
      simp only [cleanupAccountStep, endedTime, endedOutput, List.filterMap_cons, List.filterMap_nil, List.sum_nil, Nat.add_zero]
      omega
    | cleanupEnd =>
      simp only [cleanupAccountStep, endedTime, endedOutput, List.filterMap_cons, List.filterMap_nil, List.sum_cons, List.sum_nil,
        Nat.add_zero, saturatingAdd]
      omega
    | started i phase =>
      have kept : (cleanupAccountStep step command (cleanupAccount step command front) (.started i phase)).elapsed =
          (cleanupAccount step command front).elapsed ∧ (cleanupAccountStep step command (cleanupAccount step command front)
          (.started i phase)).output = (cleanupAccount step command front).output := by
        cases phase <;> simp only [cleanupAccountStep, and_self]
        split <;> exact ⟨rfl, rfl⟩
      rw [kept.1, kept.2]
      exact ⟨time, output⟩
    | ended durationMs i phase process detected quiescent =>
      by_cases own : phase = .cleanup ∧ i = step
      · obtain ⟨rfl, rfl⟩ := own
        simp only [cleanupAccountStep, endedTime, endedOutput, if_true, List.filterMap_cons, List.filterMap_nil, List.sum_cons, List.sum_nil,
          Nat.add_zero, saturatingAdd, observedBytes]
        omega
      · have kept : cleanupAccountStep step command (cleanupAccount step command front)
            (.ended durationMs i phase process detected quiescent) = cleanupAccount step command front := by
          cases phase <;> simp only [cleanupAccountStep]
          rw [if_neg fun same => own ⟨rfl, same⟩]
        have none : endedTime step (.ended durationMs i phase process detected quiescent) = none ∧
            endedOutput step (.ended durationMs i phase process detected quiescent) = none := by
          cases phase <;> simp only [endedTime, endedOutput, and_self]
          rw [if_neg fun same => own ⟨rfl, same⟩, if_neg fun same => own ⟨rfl, same⟩]
          exact ⟨rfl, rfl⟩
        rw [kept, List.filterMap_cons_none none.1, List.filterMap_cons_none none.2]
        exact ⟨time, output⟩

end Account

/-- What every recovery of a history respects. Each cleanup attempt before it has an end record, so what was consumed is what these
records say; a slice without an end record is followed by no further grant. -/
structure ReserveKept (program : SoftwareProgram) (p : SoftwareProgress) : Prop where
  numbered : ∀ earlier step sequence timeoutMs outputBytes later,
    p.checkpoints = earlier ++ .cleanupBegin step sequence timeoutMs outputBytes :: later →
    sequence = earlier.countP isCleanupBegin + 1 ∧ sequence ≤ 3
  ended : ∀ front c rest step sequence timeoutMs outputBytes later,
    p.checkpoints = (front ++ c :: rest) ++ .cleanupBegin step sequence timeoutMs outputBytes :: later → beginsCleanup c = true →
    ∃ next rest', rest = next :: rest' ∧ endsCleanup c next = true
  reserve : ∀ earlier step sequence timeoutMs outputBytes later,
    p.checkpoints = earlier ++ .cleanupBegin step sequence timeoutMs outputBytes :: later →
    ∃ command, program.invocation step .cleanup = some command ∧
      (earlier.filterMap (endedTime step)).sum + timeoutMs ≤ command.timeoutMs ∧
      (earlier.filterMap (endedOutput step)).sum + outputBytes ≤ command.outputBytes
  resourcesOnly : ∀ earlier c later, p.checkpoints = earlier ++ c :: later → c.isRecovery = true → ∀ d ∈ later, d.isRecovery = true

theorem cleanup_output_le {program : SoftwareProgram} (shape : ProgramShape program) {step : Nat} {command : SoftwareInvocation}
    (invocation : program.invocation step .cleanup = some command) : command.outputBytes ≤ maxWord := by
  unfold SoftwareProgram.invocation at invocation
  split at invocation
  · cases invocation
  next current found =>
  have bounds := (shape.step found).bounds .cleanup command invocation
  exact Nat.le_trans bounds.output_le (by decide)

theorem valid_reserve {plan : FrozenExecution} {program : SoftwareProgram} {p : SoftwareProgress} (found : plan.program = some program)
    (valid : p.validFor plan = true) : ReserveKept program p := by
  refine ⟨?_, ?_, ?_, ?_⟩
  · intro earlier step sequence timeoutMs outputBytes later split
    obtain ⟨q, rfl, granted⟩ := valid_granted found valid split
    obtain ⟨command, -, same, -, -⟩ := granted.account
    refine ⟨?_, granted.few⟩
    rw [same, account_sequence]
    intro front i n time bytes rest inner
    rw [inner, List.append_assoc, List.cons_append] at split
    obtain ⟨r, rfl, first⟩ := valid_granted found valid split
    obtain ⟨other, -, same, -, -⟩ := first.account
    exact ⟨i, other, same⟩
  · intro front c rest step sequence timeoutMs outputBytes later split begun
    exact cleanups_ended found valid split begun
  · intro earlier step sequence timeoutMs outputBytes later split
    obtain ⟨q, rfl, granted⟩ := valid_granted found valid split
    obtain ⟨command, invocation, -, time, output⟩ := granted.account
    have positive := granted.time
    have some_ := granted.output
    have word := cleanup_timeout_le (frozen_shape found) invocation
    have word' := cleanup_output_le (frozen_shape found) invocation
    obtain ⟨covered, covered'⟩ := account_covers command step q.checkpoints
    obtain ⟨debited, debited'⟩ := debit_covers (cleanupAccount step command q.checkpoints)
    refine ⟨command, invocation, ?_, ?_⟩
    · omega
    · omega
  · intro earlier c later split recovery d mem
    obtain ⟨start, output, elapsed, recovers⟩ := valid_recovers valid ⟨c, split ▸ List.mem_append_right _ List.mem_cons_self, recovery⟩
    apply recovers.tail_recovery d
    rw [(recovery_behind recovers split recovery).2.1]
    exact List.mem_append_right _ (List.mem_cons_of_mem _ mem)

/-- The recursion of the source ends: it is followed at most as deep as the history is long, and the validator satisfies it. -/
theorem reserve_kept (plan : FrozenExecution) : (∀ program p, plan.program = some program → p.validFor plan = true →
      ReserveKept program p) ∧
    ∀ p : SoftwareProgress, p.validFor plan = validBody (fun q => q.validFor plan) plan p ∧
      ∀ depth, p.checkpoints.length < depth → validAt plan depth p = p.validFor plan :=
  ⟨fun _ _ found valid => valid_reserve found valid, fun p => ⟨validFor_eq p plan, fun depth => validAt_stable plan depth p⟩⟩

section Samples
open ProgressCompletion

def recoveredHistory : SoftwareProgress :=
  { sampleProgress ([.started 0 .before, .ended 0 0 .before none (some (.present sampleText)) true] ++
      sampleOperation .prepare 0 ++ sampleOperation .mutation 0 ++
      [.cleanupBegin 0 1 1000 1000, .cleanupEnd 0 1 400 { sampleEvidence 0 with exitCode := none, processEnd := .unknown } false,
        .cleanupBegin 0 2 600 1000]) with
    elapsedMs := 900 }

theorem reserve_kept_sample : ReserveKept (ProgressClosure.sampleProgram removalPlan) recoveredHistory :=
  (reserve_kept removalPlan).1 _ _ rfl (by decide +kernel)

end Samples

end RssMdmAgent.ProgressReserve
