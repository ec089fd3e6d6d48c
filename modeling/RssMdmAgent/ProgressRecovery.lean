import RssMdmAgent.ProgressRuns

set_option autoImplicit false

/-! # Histories that end with recovery records -/

namespace RssMdmAgent.ProgressRecovery
open BoundedArithmetic ContractIdentity ContractProcess ProgramInstructions ContractPlan PlanShape
open ProgressHistory ProgressValidity ProgressReplay ProgressLayout ProgressRuns

def beforeRecovery (p : SoftwareProgress) (start output elapsed : Nat) : SoftwareProgress :=
  { p with
    checkpoints := p.checkpoints.take start
    outputBytes := output
    elapsedMs := elapsed }

/-- A valid history with recovery records: a valid, incomplete prefix and a granted tail. -/
structure Recovers (plan : FrozenExecution) (p : SoftwareProgress) (start output elapsed : Nat) :
    Prop where
  inside : start < p.checkpoints.length
  business : ∀ c ∈ p.checkpoints.take start, c.isRecovery = false
  valid : (beforeRecovery p start output elapsed).validFor plan = true
  incomplete : (beforeRecovery p start output elapsed).complete plan = false
  tail : recoveryReplay (fun q => q.validFor plan) plan p (beforeRecovery p start output elapsed)
    none (p.checkpoints.drop start) = true

section Recovery
variable {plan : FrozenExecution} {p : SoftwareProgress}

theorem tail_recovers {program : SoftwareProgram} (found : plan.program = some program) {start : Nat}
    (at_ : p.checkpoints.findIdx? SoftwareCheckpoint.isRecovery = some start)
    (valid : validCleanupTail (fun q => q.validFor plan) plan p start = true) :
    ∃ output elapsed, Recovers plan p start output elapsed := by
  obtain ⟨inside, first⟩ := List.findIdx?_eq_some_iff_findIdx_eq.mp at_
  unfold validCleanupTail at valid
  dsimp only at valid
  split at valid
  · cases valid
  split at valid
  · cases valid
  next output _ =>
  split at valid
  · cases valid
  next wellFormed =>
  split at valid
  · cases valid
  split at valid
  · cases valid
  next elapsed _ =>
  rw [Bool.and_eq_true] at valid
  simp only [Bool.or_eq_true, Bool.not_eq_true', not_or, Bool.not_eq_false,
    Bool.not_eq_true] at wellFormed
  refine ⟨output, elapsed, inside, ?_, valid.1, ?_, valid.2⟩
  · intro c mem
    obtain ⟨i, bound, rfl⟩ := List.mem_take_iff_getElem.mp mem
    exact List.not_of_lt_findIdx
      (show i < p.checkpoints.findIdx SoftwareCheckpoint.isRecovery by omega)
  · have incomplete := wellFormed.2
    simp only [completeWith, wellFormed.1, Bool.true_and, found] at incomplete
    unfold SoftwareProgress.complete completeWith
    rw [found]
    change (_ && (completeCount _ == program.steps.length)) = false
    rw [Bool.and_eq_false_iff]
    exact .inr incomplete

theorem valid_recovers (valid : p.validFor plan = true)
    (recovery : ∃ c ∈ p.checkpoints, c.isRecovery = true) :
    ∃ start output elapsed, Recovers plan p start output elapsed := by
  obtain ⟨program, found, -, -⟩ := valid_program valid
  rw [validFor_eq, validBody, found] at valid
  dsimp only at valid
  split at valid
  · cases valid
  split at valid
  · next start at_ => exact ⟨start, tail_recovers found at_ valid⟩
  · next none =>
    obtain ⟨c, mem, is⟩ := recovery
    have not := List.findIdx?_eq_none_iff.mp none c mem
    rw [is] at not
    cases not

theorem recoveryReplay_records {valid : SoftwareProgress → Bool} (tail : List SoftwareCheckpoint) :
    ∀ {before : SoftwareProgress} {pending : Option (Nat × Nat × Nat × Nat)},
      recoveryReplay valid plan p before pending tail = true → ∀ c ∈ tail, c.isRecovery = true := by
  induction tail with
  | nil => intro _ _ _ c mem; cases mem
  | cons checkpoint rest ih =>
    intro before pending h c mem
    unfold recoveryReplay at h
    cases checkpoint with
    | started | ended | complete => cases h
    | cleanupBegin step sequence timeoutMs outputBytes =>
      rw [Bool.and_eq_true] at h
      rcases List.mem_cons.mp mem with rfl | mem
      · rfl
      · exact ih h.2 c mem
    | cleanupEnd step sequence durationMs process resourcesClosed =>
      cases pending with
      | none => cases h
      | some grant =>
        rw [Bool.and_eq_true] at h
        rcases List.mem_cons.mp mem with rfl | mem
        · rfl
        · exact ih h.2 c mem

theorem Recovers.tail_recovery {start output elapsed : Nat}
    (recovers : Recovers plan p start output elapsed) :
    ∀ c ∈ p.checkpoints.drop start, c.isRecovery = true :=
  recoveryReplay_records _ recovers.tail

theorem business_of_complete (complete : p.complete plan = true) :
    ∀ c ∈ p.checkpoints, c.isRecovery = false := by
  by_contra recovery
  push Not at recovery
  obtain ⟨c, mem, is⟩ := recovery
  unfold SoftwareProgress.complete completeWith at complete
  rw [Bool.and_eq_true] at complete
  obtain ⟨program, found, -, -⟩ := valid_program complete.1
  rw [found] at complete
  obtain ⟨start, output, elapsed, recovers⟩ :=
    valid_recovers complete.1 ⟨c, mem, Bool.eq_true_of_not_eq_false is⟩
  have count : completeCount (beforeRecovery p start output elapsed) = completeCount p := by
    unfold completeCount beforeRecovery
    dsimp only
    conv_rhs => rw [← List.take_append_drop start p.checkpoints, List.countP_append]
    rw [Nat.left_eq_add, List.countP_eq_zero]
    intro c mem is
    have recovery := recovers.tail_recovery c mem
    cases c <;> simp [SoftwareCheckpoint.isRecovery, SoftwareCheckpoint.isComplete] at recovery is
  have incomplete := recovers.incomplete
  unfold SoftwareProgress.complete completeWith at incomplete
  rw [found] at incomplete
  change ((beforeRecovery p start output elapsed).validFor plan &&
    (completeCount _ == program.steps.length)) = false at incomplete
  rw [recovers.valid, count, Bool.true_and] at incomplete
  exact absurd (incomplete.symm.trans complete.2) (by simp)

end Recovery

end RssMdmAgent.ProgressRecovery
