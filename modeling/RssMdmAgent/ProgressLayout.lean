import Mathlib.Data.List.TakeWhile
import Mathlib.Tactic.FinCases
import RssMdmAgent.PlanShape
import RssMdmAgent.ProgressReplay

set_option autoImplicit false

/-! # The phase list that the validator walks -/

namespace RssMdmAgent.ProgressLayout
open BoundedArithmetic ContractIdentity ContractProcess ProgramInstructions ContractPlan PlanShape
open ProgressHistory ProgressReplay

lemma drop_eq_cons {α : Type} {items : List α} {i : Nat} {x : α} (h : items[i]? = some x) :
    items.drop i = x :: items.drop (i + 1) := by
  obtain ⟨inside, rfl⟩ := List.getElem?_eq_some_iff.mp h
  exact List.drop_eq_getElem_cons inside

lemma not_mem_drop_of_nodup {α : Type} {items : List α} {i : Nat} {x : α} (nodup : items.Nodup)
    (h : items[i]? = some x) : x ∉ items.drop (i + 1) := by
  have tail := nodup.sublist (List.drop_sublist i items)
  rw [drop_eq_cons h, List.nodup_cons] at tail
  exact tail.1

def StepLayout (program : SoftwareProgram) (index : Nat) (phases : List SoftwarePhase) : Prop :=
  phases = [.before] ∨ ∃ muts final, phases = .before :: (muts ++ final) ∧
    MutationLayout program index muts ∧ final ∈ [[], [SoftwarePhase.after]]

section Layout
variable {program : SoftwareProgram} {index i : Nat} {phases : List SoftwarePhase}
  {phase : SoftwarePhase}

theorem StepLayout.nodup (layout : StepLayout program index phases) : phases.Nodup := by
  rcases layout with rfl | ⟨muts, final, rfl, layout, last⟩
  · decide
  · rcases layout.split with rfl | ⟨acquire, removal, main, close, rfl, ha, hr, hm, hc, -⟩
    · fin_cases last <;> decide
    · fin_cases ha <;> fin_cases hr <;> fin_cases hm <;> fin_cases hc <;> fin_cases last <;> decide

theorem StepLayout.before_first (layout : StepLayout program index phases)
    (h : phases[i]? = some .before) : i = 0 := by
  have nodup := layout.nodup
  have head : phases[0]? = some .before := by
    rcases layout with rfl | ⟨muts, final, rfl, -⟩ <;> rfl
  by_contra later
  have mem : SoftwarePhase.before ∈ phases.drop (0 + 1) := by
    apply List.mem_of_getElem? (i := i - 1)
    rw [List.getElem?_drop, show 0 + 1 + (i - 1) = i by omega]
    exact h
  exact not_mem_drop_of_nodup nodup head mem

theorem StepLayout.after_last (layout : StepLayout program index phases)
    (h : phases[i]? = some .after) : phases.drop (i + 1) = [] := by
  have mem := List.mem_of_getElem? h
  rcases layout with rfl | ⟨muts, final, rfl, layout, last⟩
  · simp at mem
  have absent : SoftwarePhase.after ∉ SoftwarePhase.before :: muts := by
    rcases layout.split with rfl | ⟨acquire, removal, main, close, rfl, ha, hr, hm, hc, -⟩
    · decide
    · fin_cases ha <;> fin_cases hr <;> fin_cases hm <;> fin_cases hc <;> decide
  rw [← List.cons_append] at h mem ⊢
  have outside : ¬ i < (SoftwarePhase.before :: muts).length := by
    intro inside
    rw [List.getElem?_append_left inside] at h
    exact absent (List.mem_of_getElem? h)
  apply List.drop_eq_nil_of_le
  rw [List.length_append]
  fin_cases last <;> simp only [List.length_cons, List.length_nil] at outside ⊢ <;> omega

theorem StepLayout.cleanup_acquired (layout : StepLayout program index phases)
    (mem : SoftwarePhase.cleanup ∈ phases) :
    ∃ first rest, phases = .before :: first :: rest ∧ first ≠ .cleanup ∧
      program.acquiresResources index first = true := by
  rcases layout with rfl | ⟨muts, final, rfl, layout, last⟩
  · simp at mem
  rcases layout.split with rfl | ⟨acquire, removal, main, close, rfl, ha, hr, hm, hc, acquired, uninstall⟩
  · fin_cases last <;> simp at mem
  have closing : close = [.cleanup] := by
    by_contra open_
    have none : close = [] := by
      fin_cases hc
      · rfl
      · exact absurd rfl open_
    subst none
    revert mem
    fin_cases ha <;> fin_cases hr <;> fin_cases hm <;> fin_cases last <;> decide
  rcases acquired.mp closing with nonempty | ⟨rfl, acquires⟩
  · fin_cases ha
    · exact absurd rfl nonempty
    · exact ⟨.prepare, _, rfl, by decide, rfl⟩
    · exact ⟨.attach, _, rfl, by decide, rfl⟩
    · exact ⟨.attach, _, rfl, by decide, rfl⟩
  · rw [uninstall acquires]
    fin_cases ha
    · exact ⟨.mutation, _, rfl, by decide, acquires⟩
    · exact ⟨.prepare, _, rfl, by decide, rfl⟩
    · exact ⟨.attach, _, rfl, by decide, rfl⟩
    · exact ⟨.attach, _, rfl, by decide, rfl⟩

theorem acquires_phase (h : program.acquiresResources index phase = true) :
    phase = .attach ∨ phase = .prepare ∨ phase = .mutation := by
  simp only [SoftwareProgram.acquiresResources, Bool.or_eq_true, Bool.and_eq_true, beq_iff_eq] at h
  rcases h with (h | h) | ⟨⟨h, -⟩, -⟩
  · exact .inl h
  · exact .inr (.inl h)
  · exact .inr (.inr h)

/-- A phase that acquires resources is followed by the cleanup that closes them. -/
theorem StepLayout.cleanup_follows (layout : StepLayout program index phases)
    (here : phases[i]? = some phase) (acquires : program.acquiresResources index phase = true) :
    SoftwarePhase.cleanup ∈ phases.drop i := by
  have mem := List.mem_of_getElem? here
  have kind := acquires_phase acquires
  rcases layout with rfl | ⟨muts, final, rfl, layout, last⟩
  · simp only [List.mem_singleton] at mem
    subst mem
    simp at kind
  rcases layout.split with rfl | ⟨acquire, removal, main, close, rfl, ha, hr, hm, hc, acquired, uninstall⟩
  · exfalso
    revert mem
    rcases kind with rfl | rfl | rfl <;> fin_cases last <;> decide
  have closing : close = [.cleanup] := by
    rw [acquired]
    by_contra neither
    rw [not_or, not_not, not_and] at neither
    obtain ⟨rfl, effect⟩ := neither
    rcases kind with rfl | rfl | rfl
    · revert mem
      fin_cases hr <;> fin_cases hm <;> fin_cases hc <;> fin_cases last <;> decide
    · revert mem
      fin_cases hr <;> fin_cases hm <;> fin_cases hc <;> fin_cases last <;> decide
    · rw [uninstall acquires] at mem
      fin_cases hm
      · exact effect rfl acquires
      · revert mem
        fin_cases hc <;> fin_cases last <;> decide
  subst closing
  have outside : phase ∉ SoftwarePhase.cleanup :: final := by
    rcases kind with rfl | rfl | rfl <;> fin_cases last <;> decide
  rw [show SoftwarePhase.before :: (acquire ++ (removal ++ main :: [.cleanup]) ++ final) =
    (SoftwarePhase.before :: (acquire ++ (removal ++ [main]))) ++ (.cleanup :: final) by simp]
    at here ⊢
  have early : i < (SoftwarePhase.before :: (acquire ++ (removal ++ [main]))).length := by
    by_contra late
    rw [List.getElem?_append_right (Nat.le_of_not_lt late)] at here
    exact outside (List.mem_of_getElem? here)
  rw [List.drop_append_of_le_length (Nat.le_of_lt early)]
  exact List.mem_append_right _ List.mem_cons_self

theorem StepLayout.extend {current : SoftwareProgramStep} (shape : ProgramShape program)
    (found : program.steps[index]? = some current) (state : SoftwareState) :
    StepLayout program index ([.before] ++ program.mutationPhases current state ++
      (if program.intent = .detect then [] else [.after])) := by
  right
  refine ⟨_, _, rfl, mutationPhases_layout shape found state, ?_⟩
  split <;> simp

end Layout

def remaining (s : Replay) : List SoftwarePhase := s.phases.drop s.position

/-- The loop variables describe a position inside the phases of the current step. -/
structure ReplaySound (program : SoftwareProgram) (s : Replay) : Prop where
  layout : StepLayout program s.index s.phases
  fresh : s.position = 0 → s.phases = [.before]
  opened : s.position ≤ 1 → s.succeeded = true
  pending : ∀ phase, s.pending = some phase → s.phases[s.position]? = some phase
  completable : s.canComplete = true →
    s.quiet = true ∧ s.succeeded = true ∧ s.pending = none ∧ remaining s = []
  beyond : program.steps.length ≤ s.index → s.pending = none ∧ s.quiet = true ∧ s.position = 0

theorem observed_phases (program : SoftwareProgram) (step : SoftwareProgramStep) (s : Replay)
    (phase : SoftwarePhase) (state : SoftwareState) :
    (observed program step s phase state).phases =
      if phase = .before ∧ (observed program step s phase state).canComplete = false then
        s.phases ++ program.mutationPhases step state ++
          (if program.intent = .detect then [] else [.after])
      else s.phases := rfl

theorem ReplaySound.initial (program : SoftwareProgram) (index output duration : Nat) :
    ReplaySound program
      { Replay.initial with index := index, output := output, duration := duration } where
  layout := .inl rfl
  fresh _ := rfl
  opened _ := rfl
  pending _ h := by cases h
  completable h := by cases h
  beyond _ := ⟨rfl, rfl, rfl⟩

theorem inside_of_found {program : SoftwareProgram} {index : Nat} {current : SoftwareProgramStep}
    (found : program.steps[index]? = some current) : ¬ program.steps.length ≤ index := by
  have inside := (List.getElem?_eq_some_iff.mp found).1
  omega

theorem position_le_skipFailed (s : Replay) (phase : SoftwarePhase) :
    s.position ≤ skipFailed s phase := by
  unfold skipFailed
  split <;> omega

theorem skipFailed_of_succeeded {s : Replay} (h : s.succeeded = true) (phase : SoftwarePhase) :
    skipFailed s phase = s.position := by
  unfold skipFailed
  rw [if_neg (by simp [h])]

theorem cleanup_mem_skipFailed {s : Replay} (phase : SoftwarePhase)
    (h : SoftwarePhase.cleanup ∈ remaining s) :
    SoftwarePhase.cleanup ∈ s.phases.drop (skipFailed s phase) := by
  unfold skipFailed
  split
  · rw [← List.drop_drop]
    change SoftwarePhase.cleanup ∈ (remaining s).drop ((remaining s).takeWhile skippable).length
    rw [← List.takeWhile_append_dropWhile (p := skippable) (l := remaining s)] at h
    rcases List.mem_append.mp h with early | late
    · have impossible := List.mem_takeWhile_imp early
      simp [skippable] at impossible
    · have split := List.takeWhile_append_dropWhile (p := skippable) (l := remaining s)
      have drop : (remaining s).drop ((remaining s).takeWhile skippable).length =
          (remaining s).dropWhile skippable := by
        nth_rewrite 2 [← split]
        rw [List.drop_left]
      rw [drop]
      exact late
  · exact h

theorem ReplaySound.skip_le_one {program : SoftwareProgram} {s : Replay} {phase : SoftwarePhase}
    (sound : ReplaySound program s) (h : skipFailed s phase ≤ 1) :
    skipFailed s phase = s.position ∧ s.succeeded = true := by
  have ok := sound.opened (Nat.le_trans (position_le_skipFailed s phase) h)
  exact ⟨skipFailed_of_succeeded ok phase, ok⟩

/-- One record preserves the soundness of the loop variables. -/
theorem ReplaySound.advance {program : SoftwareProgram} {p : SoftwareProgress} {s s' : Replay}
    {checkpoint : SoftwareCheckpoint} (shape : ProgramShape program)
    (sound : ReplaySound program s) (h : Advances program p s checkpoint s') :
    ReplaySound program s' := by
  cases h with
  | @started current phase found idle incomplete next =>
    refine ⟨sound.layout, ?_, ?_, ?_, ?_, ?_⟩
    · intro first
      change skipFailed s phase = 0 at first
      have early : skipFailed s phase ≤ 1 := by omega
      exact sound.fresh ((sound.skip_le_one early).1 ▸ first)
    · intro early
      exact (sound.skip_le_one early).2
    · rintro _ ⟨⟩
      exact next
    · intro complete
      exact absurd (incomplete.symm.trans complete) (by simp)
    · exact fun beyond => absurd beyond (inside_of_found found)
  | @observed current durationMs phase process state quiescent found pending account observation
      known removed =>
    have here := sound.pending phase pending
    refine ⟨?_, ?_, ?_, ?_, ?_, ?_⟩
    · rw [observed_phases]
      by_cases first : phase = .before ∧ (ProgressHistory.observed program current
          (accounted s durationMs process quiescent) phase state).canComplete = false
      · rw [if_pos first]
        change StepLayout program s.index (s.phases ++ _ ++ _)
        rw [sound.fresh (sound.layout.before_first (first.1 ▸ here))]
        exact StepLayout.extend shape found state
      · rw [if_neg first]
        exact sound.layout
    · intro zero
      cases zero
    · intro early
      exact sound.opened (Nat.le_of_succ_le early)
    · rintro _ ⟨⟩
    · intro complete
      have complete' := complete
      simp only [ProgressHistory.observed, accounted, Bool.and_eq_true, decide_eq_true_eq]
        at complete
      obtain ⟨⟨⟨notRemoval, quiet⟩, succeeded⟩, -⟩ := complete
      refine ⟨by simpa [ProgressHistory.observed, accounted] using quiet, succeeded, rfl, ?_⟩
      have same : (ProgressHistory.observed program current (accounted s durationMs process quiescent)
          phase state).phases = s.phases := by
        rw [observed_phases, if_neg (by simp [complete'])]
        rfl
      rw [remaining, same]
      change s.phases.drop (s.position + 1) = []
      cases phase with
      | before =>
        rw [sound.layout.before_first here, sound.fresh (sound.layout.before_first here)]
        rfl
      | after => exact sound.layout.after_last here
      | removalAfter => exact absurd rfl notRemoval
      | mutation | removal | upgrade | prepare | attach | stage | cleanup => cases observation
    · exact fun beyond => absurd beyond (inside_of_found found)
  | operated found pending invocation account operation =>
    have here := sound.pending _ pending
    refine ⟨sound.layout, ?_, ?_, ?_, ?_, ?_⟩
    · intro zero
      cases zero
    · intro early
      have zero : s.position = 0 := by
        simp only [accounted] at early
        omega
      rw [zero, sound.fresh zero] at here
      cases here
      cases operation
    · rintro _ ⟨⟩
    · intro complete
      have idle := (sound.completable complete).2.2.1
      rw [pending] at idle
      cases idle
    · exact fun beyond => absurd beyond (inside_of_found found)
  | completed found idle canComplete => exact ReplaySound.initial program _ _ _

end RssMdmAgent.ProgressLayout
