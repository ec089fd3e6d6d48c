import RssMdmAgent.ContractPlan

set_option autoImplicit false

/-! # What freezing guarantees about the phases of a step -/

namespace RssMdmAgent.PlanShape
open ContractIdentity ContractProcess ProgramInstructions ContractPlan

theorem forM_ok {α ε : Type} {f : α → Except ε Unit} {items : List α}
    (h : items.forM f = .ok ()) : ∀ item ∈ items, f item = .ok () := by
  induction items with
  | nil => intro item mem; cases mem
  | cons first rest ih =>
    obtain ⟨_, head, tail⟩ := bind_ok.mp h
    intro item mem
    rcases List.mem_cons.mp mem with rfl | mem
    · exact head
    · exact ih tail item mem

theorem mem_all (phase : SoftwarePhase) : phase ∈ SoftwarePhase.all := by cases phase <;> decide

theorem all_nodup : SoftwarePhase.all.Nodup := by decide

theorem expectedPhases_nodup (intent : SoftwareOperation) (step : SoftwareProgramStep) :
    (expectedPhases intent step).Nodup := by
  unfold expectedPhases
  generalize step.format = format
  generalize step.upgrade = upgrade
  cases intent <;> cases format <;> cases upgrade <;> simp [acquisitionPhases, effectPhases]

theorem mem_declared {step : SoftwareProgramStep} {phase : SoftwarePhase} :
    phase ∈ SoftwareProgramStep.declaredPhases step ↔ step.hasInvocation phase = true := by
  simp [SoftwareProgramStep.declaredPhases, mem_all]

theorem declared_iff_expected {intent : SoftwareOperation} {step : SoftwareProgramStep}
    (count : (SoftwareProgramStep.declaredPhases step).length = (expectedPhases intent step).length)
    (all : (expectedPhases intent step).all step.hasInvocation = true) (phase : SoftwarePhase) :
    step.hasInvocation phase = true ↔ phase ∈ expectedPhases intent step := by
  have sub : expectedPhases intent step ⊆ SoftwareProgramStep.declaredPhases step := by
    intro phase mem
    exact mem_declared.mpr (List.all_eq_true.mp all phase mem)
  have perm := (expectedPhases_nodup intent step).subperm sub
  have same := perm.perm_of_length_le (Nat.le_of_eq count)
  rw [← mem_declared]
  exact same.mem_iff.symm

structure InvocationBounds (command : SoftwareInvocation) : Prop where
  timeout_pos : 0 < command.timeoutMs
  timeout_le : command.timeoutMs ≤ 86400000
  output_pos : 0 < command.outputBytes
  output_le : command.outputBytes ≤ 1048576

structure StepShape (intent : SoftwareOperation) (step : SoftwareProgramStep) : Prop where
  invocations : ∀ phase, step.hasInvocation phase = true ↔ phase ∈ expectedPhases intent step
  bounds : ∀ phase command, step.invocations phase = some command → InvocationBounds command
  deny : intent ≠ .install → step.upgrade = .deny

theorem invocationAccepted_bounds {p : ExecutionInput} {limits : ExecutionLimits}
    {command : SoftwareInvocation} (h : invocationAccepted p limits command = .ok ()) :
    InvocationBounds command := by
  obtain ⟨_, checked, _⟩ := bind_ok.mp h
  have facts := check_ok.mp checked
  simp only [Bool.and_eq_true, decide_eq_true_eq, ne_eq] at facts
  obtain ⟨⟨⟨⟨-, timeoutPos⟩, timeoutLe⟩, outputPos⟩, outputLe⟩ := facts
  exact ⟨Nat.pos_of_ne_zero timeoutPos, timeoutLe, Nat.pos_of_ne_zero outputPos, outputLe⟩

theorem stepAccepted_shape {p : ExecutionInput} {limits : ExecutionLimits}
    {intent : SoftwareOperation} {step : SoftwareProgramStep}
    (h : stepAccepted p limits intent step = .ok ()) : StepShape intent step := by
  obtain ⟨_, -, h⟩ := bind_ok.mp h
  obtain ⟨_, phases, h⟩ := bind_ok.mp h
  obtain ⟨_, commands, -⟩ := bind_ok.mp h
  have facts := check_ok.mp phases
  simp only [Bool.and_eq_true, Bool.or_eq_true, beq_iff_eq] at facts
  obtain ⟨⟨upgrade, count⟩, all⟩ := facts
  refine ⟨declared_iff_expected count all, ?_, ?_⟩
  · intro phase command found
    have mem : phase ∈ SoftwareProgramStep.declaredPhases step := by
      rw [mem_declared, SoftwareProgramStep.hasInvocation, found, Option.isSome_some]
    have accepted := forM_ok commands phase mem
    rw [found] at accepted
    exact invocationAccepted_bounds accepted
  · intro other
    exact upgrade.resolve_left other

structure ProgramShape (program : SoftwareProgram) : Prop where
  nonempty : 0 < program.steps.length
  bounded : program.steps.length ≤ 32
  steps : ∀ step ∈ program.steps, StepShape program.intent step

theorem frozen_shape {plan : FrozenExecution} {program : SoftwareProgram}
    (h : plan.program = some program) : ProgramShape program := by
  obtain ⟨limits, frozen⟩ := plan.frozen
  have software := (validatePlan_parts (freezable_validated frozen).1).2
  unfold ContractPlan.software at software
  rw [show plan.spec.execution.softwareProgram = some program from h] at software
  obtain ⟨_, header, steps⟩ := bind_ok.mp software
  have facts := check_ok.mp header
  simp only [Bool.and_eq_true, decide_eq_true_eq, ne_eq] at facts
  obtain ⟨⟨⟨⟨nonempty, bounded⟩, -⟩, -⟩, -⟩ := facts
  exact ⟨Nat.pos_of_ne_zero nonempty, bounded,
    fun step mem => stepAccepted_shape (forM_ok steps step mem)⟩

theorem ProgramShape.step {program : SoftwareProgram} (shape : ProgramShape program) {index : Nat}
    {step : SoftwareProgramStep} (found : program.steps[index]? = some step) :
    StepShape program.intent step :=
  shape.steps step (List.mem_of_getElem? found)

/-- The phases between the first observation and the last one. -/
structure MutationLayout (program : SoftwareProgram) (index : Nat) (phases : List SoftwarePhase) :
    Prop where
  split : phases = [] ∨ ∃ acquire removal main close,
    phases = acquire ++ (removal ++ main :: close) ∧
    acquire ∈ [[], [SoftwarePhase.prepare], [.attach], [.attach, .stage]] ∧
    removal ∈ [[], [SoftwarePhase.removal, .removalAfter]] ∧
    main ∈ [SoftwarePhase.mutation, .upgrade] ∧
    close ∈ [[], [SoftwarePhase.cleanup]] ∧
    (close = [.cleanup] ↔ acquire ≠ [] ∨
      (main = .mutation ∧ program.acquiresResources index .mutation = true)) ∧
    (program.acquiresResources index .mutation = true → removal = [])

theorem prepare_excludes_attach {intent : SoftwareOperation} {step : SoftwareProgramStep}
    (shape : StepShape intent step) (prepare : step.hasInvocation .prepare = true) :
    step.hasInvocation .attach = false := by
  rw [shape.invocations, expectedPhases] at prepare
  rw [Bool.eq_false_iff, ne_eq, shape.invocations, expectedPhases]
  revert prepare
  generalize step.format = format
  generalize step.upgrade = upgrade
  cases intent <;> cases format <;> cases upgrade <;> simp [acquisitionPhases, effectPhases]

theorem cleanup_acquired {intent : SoftwareOperation} {step : SoftwareProgramStep}
    (shape : StepShape intent step) (cleanup : step.hasInvocation .cleanup = true) :
    step.hasInvocation .prepare = true ∨
      (step.hasInvocation .attach = true ∧ intent = .install) ∨
      (intent = .uninstall ∧ ∃ name, step.format = .dmgApp name) := by
  rw [shape.invocations, expectedPhases] at cleanup
  rw [shape.invocations, shape.invocations, expectedPhases]
  revert cleanup
  generalize step.format = format
  generalize step.upgrade = upgrade
  cases intent <;> cases format <;> cases upgrade <;> simp [acquisitionPhases, effectPhases]

theorem acquisition_closed {intent : SoftwareOperation} {step : SoftwareProgramStep}
    (shape : StepShape intent step)
    (acquired : step.hasInvocation .prepare = true ∨ step.hasInvocation .attach = true) :
    step.hasInvocation .cleanup = true := by
  simp only [shape.invocations, expectedPhases] at acquired ⊢
  revert acquired
  generalize step.format = format
  generalize step.upgrade = upgrade
  cases intent <;> cases format <;> cases upgrade <;> simp [acquisitionPhases, effectPhases]

theorem mutationPhases_layout {program : SoftwareProgram} (shape : ProgramShape program)
    {index : Nat} {step : SoftwareProgramStep} (found : program.steps[index]? = some step)
    (before : SoftwareState) :
    MutationLayout program index (program.mutationPhases step before) := by
  have stepShape := shape.step found
  constructor
  unfold SoftwareProgram.mutationPhases
  split
  · exact .inl rfl
  dsimp only
  split
  · exact .inl rfl
  right
  refine ⟨(if step.hasInvocation .prepare then [.prepare] else []) ++
      (if step.hasInvocation .attach && program.intent == .install then
        .attach :: (if step.hasInvocation .stage then [.stage] else []) else []), _, _, _,
    by simp only [List.append_assoc, List.cons_append, List.nil_append]; rfl, ?_, ?_, ?_, ?_, ?_, ?_⟩
  · by_cases prepare : step.hasInvocation .prepare = true
    · simp [prepare, prepare_excludes_attach stepShape prepare]
    · by_cases attach : (step.hasInvocation .attach && program.intent == .install) = true
      · by_cases stage : step.hasInvocation .stage = true <;> simp [prepare, attach, stage]
      · simp [prepare, attach]
  · split <;> simp
  · split <;> simp
  · split <;> simp
  · constructor
    · intro close
      have cleanup : step.hasInvocation .cleanup = true := by
        by_contra none
        simp [none] at close
      rcases cleanup_acquired stepShape cleanup with prepare | ⟨attach, install⟩ |
        ⟨intent, name, format⟩
      · left
        simp [prepare]
      · left
        simp [attach, install]
      · right
        simp [intent, SoftwareProgram.acquiresResources, found, format, cleanup]
    · intro acquired
      suffices cleanup : step.hasInvocation .cleanup = true by simp [cleanup]
      rcases acquired with acquire | ⟨-, mutation⟩
      · apply acquisition_closed stepShape
        by_contra neither
        rw [not_or, Bool.not_eq_true, Bool.not_eq_true] at neither
        simp [neither.1, neither.2] at acquire
      · simp only [SoftwareProgram.acquiresResources, found] at mutation
        split at mutation
        · simp_all
        · simp at mutation
  · intro mutation
    simp only [SoftwareProgram.acquiresResources, Bool.or_eq_true, Bool.and_eq_true,
      beq_iff_eq, reduceCtorEq, false_or, true_and] at mutation
    simp [mutation.1]

end RssMdmAgent.PlanShape
