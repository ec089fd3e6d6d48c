import RssMdmAgent.ProgressHistory

set_option autoImplicit false

/-! # The validator as an equation over shorter histories -/

namespace RssMdmAgent.ProgressValidity
open BoundedArithmetic ContractIdentity ContractProcess ProgramInstructions ContractPlan
open ProgressHistory

section Congruence
variable {valid valid' : SoftwareProgress → Bool} {plan : FrozenExecution}

theorem completeWith_congr {p : SoftwareProgress} (h : valid p = valid' p) :
    completeWith valid plan p = completeWith valid' plan p := by
  simp only [completeWith, h]

theorem cleanupAllowanceWith_congr {p : SoftwareProgress} (h : valid p = valid' p) :
    cleanupAllowanceWith valid plan p = cleanupAllowanceWith valid' plan p := by
  simp only [cleanupAllowanceWith, closedWith, completeWith, h]

theorem recoveryReplay_congr {p : SoftwareProgress} {bound : Nat}
    (h : ∀ q : SoftwareProgress, q.checkpoints.length < bound → valid q = valid' q)
    (tail : List SoftwareCheckpoint) :
    ∀ (before : SoftwareProgress) (pending : Option (Nat × Nat × Nat × Nat)),
      before.checkpoints.length + tail.length ≤ bound →
      recoveryReplay valid plan p before pending tail =
        recoveryReplay valid' plan p before pending tail := by
  induction tail with
  | nil => intro before pending _; rfl
  | cons checkpoint rest ih =>
    intro before pending fits
    have shorter : valid before = valid' before :=
      h before (by rw [List.length_cons] at fits; omega)
    have grown : (before.checkpoints ++ [checkpoint]).length + rest.length ≤ bound := by
      rw [List.length_append, List.length_singleton]
      rw [List.length_cons] at fits
      omega
    cases checkpoint with
    | started | ended | complete => rfl
    | cleanupBegin step sequence timeoutMs outputBytes =>
      unfold recoveryReplay
      dsimp only
      rw [cleanupAllowanceWith_congr shorter, ih _ _ grown]
    | cleanupEnd step sequence durationMs process resourcesClosed =>
      unfold recoveryReplay
      cases pending with
      | none => rfl
      | some grant => dsimp only; rw [ih _ _ grown]

theorem validCleanupTail_congr {p : SoftwareProgress} {start : Nat}
    (h : ∀ q : SoftwareProgress, q.checkpoints.length < p.checkpoints.length → valid q = valid' q)
    (inside : start < p.checkpoints.length) :
    validCleanupTail valid plan p start = validCleanupTail valid' plan p start := by
  have shorter (output elapsed : Nat) :
      valid { p with
        checkpoints := p.checkpoints.take start, outputBytes := output, elapsedMs := elapsed } =
      valid' { p with
        checkpoints := p.checkpoints.take start, outputBytes := output, elapsedMs := elapsed } := by
    apply h
    rw [List.length_take]
    omega
  have fits : (p.checkpoints.take start).length + (p.checkpoints.drop start).length ≤
      p.checkpoints.length := by
    rw [List.length_take, List.length_drop]
    omega
  unfold validCleanupTail
  dsimp only
  split
  · rfl
  split
  · rfl
  rw [shorter, completeWith_congr (shorter _ _)]
  split
  · rfl
  split
  · rfl
  split
  · rfl
  rw [shorter, recoveryReplay_congr h _ _ _ fits]

theorem validBody_congr {p : SoftwareProgress}
    (h : ∀ q : SoftwareProgress, q.checkpoints.length < p.checkpoints.length → valid q = valid' q) :
    validBody valid plan p = validBody valid' plan p := by
  unfold validBody
  split
  · rfl
  split
  · rfl
  split
  · next start found =>
    exact validCleanupTail_congr h (List.findIdx?_eq_some_iff_findIdx_eq.mp found).1
  · rfl

end Congruence

theorem validAt_stable (plan : FrozenExecution) (fuel : Nat) : ∀ (p : SoftwareProgress),
    p.checkpoints.length < fuel → validAt plan fuel p = p.validFor plan := by
  induction fuel using Nat.strong_induction_on with
  | _ fuel ih =>
    intro p enough
    obtain ⟨fuel, rfl⟩ : ∃ n, fuel = n + 1 := ⟨fuel - 1, by omega⟩
    unfold SoftwareProgress.validFor
    unfold validAt
    apply validBody_congr
    intro q shorter
    rw [ih fuel (by omega) q (by omega)]
    by_cases same : fuel = p.checkpoints.length
    · rw [← same, ih fuel (by omega) q (by omega)]
    · rw [ih p.checkpoints.length (by omega) q shorter]

theorem validFor_eq (p : SoftwareProgress) (plan : FrozenExecution) :
    p.validFor plan = validBody (fun q => q.validFor plan) plan p := by
  unfold SoftwareProgress.validFor validAt
  apply validBody_congr
  intro q shorter
  exact validAt_stable plan _ q shorter

theorem valid_program {p : SoftwareProgress} {plan : FrozenExecution} (h : p.validFor plan = true) :
    ∃ program, plan.program = some program ∧ p.contentDigest = plan.digest ∧
      p.checkpoints.length ≤ program.steps.length * 17 + 6 := by
  rw [validFor_eq] at h
  unfold validBody at h
  split at h
  · cases h
  · next program found =>
    split at h
    · cases h
    · next bounds =>
      simp only [Bool.or_eq_true, decide_eq_true_eq, not_or, not_not, not_lt] at bounds
      exact ⟨program, found, bounds.1, bounds.2⟩

theorem valid_of_business {p : SoftwareProgress} {plan : FrozenExecution}
    {program : SoftwareProgram} (found : plan.program = some program)
    (business : ∀ c ∈ p.checkpoints, c.isRecovery = false) :
    p.validFor plan = true ↔ p.contentDigest = plan.digest ∧
      p.checkpoints.length ≤ program.steps.length * 17 + 6 ∧
      replay program p Replay.initial p.checkpoints = true := by
  have none : p.checkpoints.findIdx? SoftwareCheckpoint.isRecovery = none :=
    List.findIdx?_eq_none_iff.mpr business
  rw [validFor_eq, validBody, found]
  dsimp only
  rw [none]
  by_cases bounds : p.contentDigest ≠ plan.digest ∨
      program.steps.length * 17 + 6 < p.checkpoints.length
  · simp only [Bool.or_eq_true, decide_eq_true_eq, bounds, if_true, Bool.false_eq_true, false_iff]
    rintro ⟨digest, length, -⟩
    rcases bounds with bounds | bounds
    · exact bounds digest
    · omega
  · simp only [Bool.or_eq_true, decide_eq_true_eq, bounds, if_false]
    rw [not_or, not_not, not_lt] at bounds
    simp only [bounds.1, bounds.2, true_and]

end RssMdmAgent.ProgressValidity
