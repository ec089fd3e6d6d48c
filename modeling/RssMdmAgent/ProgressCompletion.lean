import RssMdmAgent.ProgressRecovery

set_option autoImplicit false

/-! # Release of completed programs -/

namespace RssMdmAgent.ProgressCompletion
open BoundedArithmetic ContractIdentity ContractProcess ProgramInstructions ContractPlan PlanShape
open ProgressHistory ProgressValidity ProgressReplay ProgressLayout ProgressRuns ProgressRecovery

def CleanupsExitZero (p : SoftwareProgress) : Prop :=
  ∀ durationMs step process detected quiescent facts,
    .ended durationMs step .cleanup process detected quiescent ∈ p.checkpoints →
      process = some facts → facts.exitCode = some 0

section Completion
variable {plan : FrozenExecution} {p : SoftwareProgress} {program : SoftwareProgram}

theorem complete_iff (found : plan.program = some program) :
    p.complete plan = true ↔
      p.validFor plan = true ∧ completeCount p = program.steps.length := by
  unfold SoftwareProgress.complete completeWith
  rw [found, Bool.and_eq_true, beq_iff_eq]

theorem closed_iff (found : plan.program = some program) :
    p.closed plan = true ↔ p.validFor plan = true ∧
      (releaseOver program p p.checkpoints).pending = false ∧
      (releaseOver program p p.checkpoints).resources = ∅ := by
  unfold SoftwareProgress.closed closedWith releaseScan
  rw [found]
  simp only [Bool.and_eq_true, Bool.not_eq_true', decide_eq_true_eq]
  rfl

theorem complete_run (found : plan.program = some program) (complete : p.complete plan = true) :
    ∃ s, Replayed program p p.checkpoints s ∧ s.index = program.steps.length := by
  have business := business_of_complete complete
  obtain ⟨valid, count⟩ := (complete_iff found).mp complete
  obtain ⟨-, -, accepted⟩ := (valid_of_business found business).mp valid
  have accepted := accepted_of_replay accepted
  generalize cps : p.checkpoints = checkpoints at accepted
  cases accepted with
  | advanced run output =>
    refine ⟨_, run, ?_⟩
    rw [← run.completeCount, ← cps]
    exact count
  | @finished done s checkpoint _ run h _ =>
    exfalso
    have index : s.index = program.steps.length := by
      rw [← count, completeCount, cps, List.countP_append, run.completeCount]
      cases h <;> rfl
    cases h with
    | observed inside => exact inside_of_found inside (Nat.le_of_eq index.symm)
    | operated inside => exact inside_of_found inside (Nat.le_of_eq index.symm)

theorem exitedZero_of_exited {facts : ProcessEvidence} (ends : facts.processEnd = .exited)
    (failure : facts.failureKind = .none) :
    facts.exitedZero = true ↔ facts.exitCode = some 0 := by
  simp [ProcessEvidence.exitedZero, ends, failure]

theorem complete_held (shape : ProgramShape program) {s : Replay}
    (run : Replayed program p p.checkpoints s) (finished : s.index = program.steps.length) :
    (releaseOver program p p.checkpoints).resources = ∅ ↔ CleanupsExitZero p := by
  have sound := run.sound shape
  have release := run.release shape
  obtain ⟨-, -, start⟩ := sound.beyond (Nat.le_of_eq finished.symm)
  have scheduled : SoftwarePhase.cleanup ∉ remaining s := by
    rw [remaining, start, sound.fresh start]
    decide
  have exits : ∀ {d j pr de q}, SoftwareCheckpoint.ended d j .cleanup pr de q ∈ p.checkpoints →
      ∃ facts, pr = some facts ∧ facts.processEnd = .exited ∧ facts.failureKind = .none :=
    fun mem => release.succeeded _ _ _ _ _ mem fun _ => sound.opened (by omega)
  constructor
  · intro empty d j pr de q facts mem same
    obtain ⟨facts', same', ends, failure⟩ := exits mem
    cases same.symm.trans same'
    rw [← exitedZero_of_exited ends failure]
    by_contra nonzero
    have held := release.failed j ⟨d, pr, de, q, mem, by rw [same]; simpa using nonzero⟩
    rw [empty] at held
    cases held
  · intro zero
    rw [Finset.eq_empty_iff_forall_notMem]
    intro j held
    rcases release.held j held with ⟨d, pr, de, q, mem, bad⟩ | ⟨-, ahead⟩
    · obtain ⟨facts, rfl, ends, failure⟩ := exits mem
      have exit := (exitedZero_of_exited ends failure).mpr (zero d j _ de q facts mem rfl)
      rw [Option.any_some, exit] at bad
      cases bad
    · exact scheduled ahead

/-- A finished program releases its locks exactly when every cleanup exit was zero. -/
theorem complete_closed_iff (plan : FrozenExecution) (p : SoftwareProgress)
    (complete : p.complete plan = true) : p.closed plan = true ↔ CleanupsExitZero p := by
  have valid : p.validFor plan = true := (Bool.and_eq_true_iff.mp complete).1
  obtain ⟨program, found, -, -⟩ := valid_program valid
  have shape := frozen_shape found
  obtain ⟨s, run, finished⟩ := complete_run found complete
  obtain ⟨idle, quiet, -⟩ := (run.sound shape).beyond (Nat.le_of_eq finished.symm)
  rw [closed_iff found, complete_held shape run finished]
  constructor
  · exact fun closed => closed.2.2
  · intro zero
    exact ⟨valid, (run.release shape).quiet idle quiet, zero⟩

end Completion

section Samples

def sampleDigest : Digest :=
  ⟨"0000000000000000000000000000000000000000000000000000000000000000", .refl true⟩

def sampleText : PackageValue := ⟨"aarch64", .refl true⟩

def sampleLimits : ExecutionLimits := ⟨65536, 32, 4096, 4096, 128, 60000, 65536, 65536, 3⟩

def sampleInvocation (success : Finset Int) : SoftwareInvocation where
  launch := ⟨⟨"native-software-worker", .refl true⟩, .empty⟩
  runAs := .system .macos
  sessionRequirement := .notRequired
  timeoutMs := 1000
  outputBytes := 1000
  exitCodes := ⟨success, ∅⟩

/-- One package-manager step whose cleanup accepts the given exit codes. -/
def sampleStep (upgrade : SoftwareUpgrade) (phases : List SoftwarePhase) (cleanup : Finset Int)
    (detection : SoftwareDetector) : SoftwareProgramStep where
  format := .homebrew ⟨"export", .refl true⟩
  package := sampleText
  version := sampleText
  architecture := sampleText
  upgrade := upgrade
  invocations phase :=
    if phase ∈ phases then some (sampleInvocation (if phase = .cleanup then cleanup else {0}))
    else none
  detection := detection
  allowDowngrade := true
  allowReboot := false

def sampleReceipt : SoftwareDetector := .pkgReceipt "receipt" sampleText (.system .macos) .notRequired

def sampleInput (intent : SoftwareOperation) (action : Identifier) (step : SoftwareProgramStep) :
    ExecutionInput where
  execution := .software ⟨sampleDigest, intent, [step]⟩
  request :=
    { requestId := ⟨"request", .refl true⟩
      authority := .localAuthority ⟨"authority", .refl true⟩
      actor := ⟨"actor", .refl true⟩
      device := ⟨"device", .refl true⟩
      platform := .macos
      targetUser := none
      action := action
      exclusiveResources := none }
  launch := ⟨⟨"native-software-sequence", .refl true⟩, .empty⟩
  runAs := .system .macos
  sessionRequirement := .notRequired
  budget := ⟨10000, 10000, 2⟩
  validity := ⟨0, 1000000⟩

def removalPlan : FrozenExecution where
  spec := sampleInput .uninstall ⟨"software.uninstall", .refl true⟩
    (sampleStep .deny [.prepare, .mutation, .cleanup] {0, 1} sampleReceipt)
  digest := sampleDigest
  frozen := ⟨sampleLimits, by decide +kernel⟩

def sampleEvidence (exitCode : Int) : ProcessEvidence where
  contentDigest := sampleDigest
  attemptId := ⟨"attempt", .refl true⟩
  runner := ⟨"runner", .refl true⟩
  scope := .processGroup 1 1
  finished := true
  exitCode := some exitCode
  processEnd := .exited
  failureKind := .none
  quiescent := true
  stdout := []
  stderr := []
  totalOutputBytes := 0
  quality := .complete

def sampleOperation (phase : SoftwarePhase) (exitCode : Int) : List SoftwareCheckpoint :=
  [.started 0 phase, .ended 0 0 phase (some (sampleEvidence exitCode)) none true]

def sampleProgress (checkpoints : List SoftwareCheckpoint) : SoftwareProgress where
  attemptId := ⟨"attempt", .refl true⟩
  contentDigest := sampleDigest
  runner := ⟨"runner", .refl true⟩
  checkpoints := checkpoints
  elapsedMs := 1
  outputBytes := 0

def removalHistory (cleanupExit : Int) : SoftwareProgress :=
  sampleProgress
    ([.started 0 .before, .ended 0 0 .before none (some (.present sampleText)) true] ++
      sampleOperation .prepare 0 ++ sampleOperation .mutation 0 ++
      sampleOperation .cleanup cleanupExit ++
      [.started 0 .after, .ended 0 0 .after none (some .absent) true, .complete 0])

/-- The approved cleanup exit one completes the program and keeps its resources for ever. -/
theorem complete_not_closed :
    (removalHistory 1).validFor removalPlan = true ∧
      (removalHistory 1).complete removalPlan = true ∧
      (removalHistory 1).closed removalPlan = false ∧
      (removalHistory 1).cleanupAllowance removalPlan = none := by decide +kernel

theorem complete_closed_sample :
    (removalHistory 0).closed removalPlan = true ↔ CleanupsExitZero (removalHistory 0) :=
  complete_closed_iff removalPlan (removalHistory 0) (by decide +kernel)

end Samples

end RssMdmAgent.ProgressCompletion
