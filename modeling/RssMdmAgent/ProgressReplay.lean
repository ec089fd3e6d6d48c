import RssMdmAgent.ProgressValidity

set_option autoImplicit false

/-! # One record of the validator loop -/

namespace RssMdmAgent.ProgressReplay
open BoundedArithmetic ContractIdentity ContractProcess ProgramInstructions ContractPlan
open ProgressHistory

def observedBytes (process : Option ProcessEvidence) : Nat :=
  (process.map (·.totalOutputBytes)).getD 0

/-- The loop variables after the accounting of an end record. -/
def accounted (s : Replay) (durationMs : Nat) (process : Option ProcessEvidence)
    (quiescent : Bool) : Replay :=
  { s with
    pending := none
    position := s.position + 1
    quiet := s.quiet && quiescent
    output := s.output + observedBytes process
    duration := s.duration + durationMs }

/-- What the accounting of an end record checks. -/
structure Accountable (p : SoftwareProgress) (s : Replay) (durationMs : Nat)
    (command : Option SoftwareInvocation) (process : Option ProcessEvidence) (quiescent : Bool) :
    Prop where
  word : s.duration + durationMs ≤ maxWord
  elapsed : s.duration + durationMs ≤ p.elapsedMs
  physical : command.isSome = process.isSome
  quiet : ∀ facts, process = some facts → facts.quiescent = quiescent
  bound : ∀ facts invocation, process = some facts → command = some invocation →
    processBound p invocation facts = true
  output : process.isSome → s.output + observedBytes process ≤ maxWord

theorem replayAccount_eq_some {p : SoftwareProgress} {s a : Replay} {durationMs : Nat}
    {command : Option SoftwareInvocation} {process : Option ProcessEvidence} {quiescent : Bool} :
    replayAccount p s durationMs command process quiescent = some a ↔
      a = accounted s durationMs process quiescent ∧
        Accountable p s durationMs command process quiescent := by
  unfold replayAccount
  simp only [Option.bind_eq_bind, Option.bind_eq_some_iff, checkedAdd_eq_some]
  constructor
  · rintro ⟨duration, ⟨rfl, word⟩, rest⟩
    split at rest
    · cases rest
    next elapsed =>
    rw [not_lt] at elapsed
    split at rest
    · cases rest
      exact ⟨rfl, word, elapsed, rfl, by simp, by simp, by simp⟩
    · next command facts =>
      split at rest
      · cases rest
      next checks =>
      simp only [Bool.or_eq_true, decide_eq_true_eq, Bool.not_eq_true', not_or, not_not,
        Bool.not_eq_false] at checks
      obtain ⟨output, sum, rest⟩ := Option.bind_eq_some_iff.mp rest
      obtain ⟨rfl, fits⟩ := checkedAdd_eq_some.mp sum
      cases rest
      refine ⟨rfl, word, elapsed, rfl, ?_, ?_, fun _ => fits⟩
      · rintro _ ⟨⟩
        exact checks.1
      · rintro _ _ ⟨⟩ ⟨⟩
        exact checks.2
    · cases rest
  · rintro ⟨rfl, checks⟩
    refine ⟨_, ⟨rfl, checks.word⟩, ?_⟩
    rw [if_neg (Nat.not_lt.mpr checks.elapsed)]
    cases process with
    | none =>
      cases command with
      | none => rfl
      | some invocation => cases checks.physical
    | some facts =>
      cases command with
      | none => cases checks.physical
      | some invocation =>
        dsimp only
        rw [if_neg (by simp [checks.quiet facts rfl, checks.bound facts invocation rfl rfl])]
        exact Option.bind_eq_some_iff.mpr
          ⟨_, checkedAdd_eq_some.mpr ⟨rfl, checks.output rfl⟩, rfl⟩

/-- A record after which the history may continue. -/
inductive Advances (program : SoftwareProgram) (p : SoftwareProgress) (s : Replay) :
    SoftwareCheckpoint → Replay → Prop where
  | started {current : SoftwareProgramStep} {phase : SoftwarePhase}
      (found : program.steps[s.index]? = some current) (idle : s.pending = none)
      (incomplete : s.canComplete = false) (next : s.phases[skipFailed s phase]? = some phase) :
      Advances program p s (.started s.index phase)
        { s with position := skipFailed s phase, pending := some phase }
  | observed {current : SoftwareProgramStep} {durationMs : Nat} {phase : SoftwarePhase}
      {process : Option ProcessEvidence} {state : SoftwareState} {quiescent : Bool}
      (found : program.steps[s.index]? = some current) (pending : s.pending = some phase)
      (account : Accountable p s durationMs (program.invocation s.index phase) process quiescent)
      (observation : phase.isObservation = true) (known : state.isUnknown = false)
      (removed : phase = .removalAfter → state = .absent) :
      Advances program p s (.ended durationMs s.index phase process (some state) quiescent)
        (observed program current (accounted s durationMs process quiescent) phase state)
  | operated {current : SoftwareProgramStep} {durationMs : Nat} {phase : SoftwarePhase}
      {facts : ProcessEvidence} {command : SoftwareInvocation}
      (found : program.steps[s.index]? = some current) (pending : s.pending = some phase)
      (invocation : program.invocation s.index phase = some command)
      (account : Accountable p s durationMs (some command) (some facts) true)
      (operation : phase.isObservation = false) :
      Advances program p s (.ended durationMs s.index phase (some facts) none true)
        { accounted s durationMs (some facts) true with
          succeeded := s.succeeded && command.succeeded facts current.allowReboot }
  | completed {current : SoftwareProgramStep} (found : program.steps[s.index]? = some current)
      (idle : s.pending = none) (canComplete : s.canComplete = true) :
      Advances program p s (.complete s.index)
        { Replay.initial with
          index := s.index + 1, output := s.output, duration := s.duration }

/-- A record that is retained but cannot be followed by another one. -/
inductive Finishes (program : SoftwareProgram) (p : SoftwareProgress) (s : Replay) :
    SoftwareCheckpoint → Nat → Prop where
  | observed {current : SoftwareProgramStep} {durationMs : Nat} {phase : SoftwarePhase}
      {process : Option ProcessEvidence} {state : SoftwareState} {quiescent : Bool}
      (found : program.steps[s.index]? = some current) (pending : s.pending = some phase)
      (account : Accountable p s durationMs (program.invocation s.index phase) process quiescent)
      (observation : phase.isObservation = true)
      (stop : (phase = .removalAfter ∧ state ≠ .absent) ∨ state.isUnknown = true) :
      Finishes program p s (.ended durationMs s.index phase process (some state) quiescent)
        (s.output + observedBytes process)
  | operated {current : SoftwareProgramStep} {durationMs : Nat} {phase : SoftwarePhase}
      {facts : ProcessEvidence} {command : SoftwareInvocation}
      (found : program.steps[s.index]? = some current) (pending : s.pending = some phase)
      (invocation : program.invocation s.index phase = some command)
      (account : Accountable p s durationMs (some command) (some facts) false)
      (operation : phase.isObservation = false) :
      Finishes program p s (.ended durationMs s.index phase (some facts) none false)
        (s.output + observedBytes (some facts))

section Inversion
variable {program : SoftwareProgram} {p : SoftwareProgress} {s s' : Replay}
  {checkpoint : SoftwareCheckpoint}

theorem replayBegin_eq (step : Nat) (phase : SoftwarePhase) :
    replayBegin s step phase =
      if step = s.index ∧ s.pending = none ∧ s.canComplete = false ∧
          s.phases[skipFailed s phase]? = some phase then
        .next { s with position := skipFailed s phase, pending := some phase }
      else .reject := by
  unfold replayBegin
  dsimp only
  by_cases h : step = s.index ∧ s.pending = none ∧ s.canComplete = false ∧
      s.phases[skipFailed s phase]? = some phase
  · rw [if_pos h, if_neg (by simp [h.1, h.2.1, h.2.2.1, h.2.2.2])]
  · rw [if_neg h, if_pos]
    rw [not_and_or, not_and_or, not_and_or] at h
    simp only [ne_eq, Bool.or_eq_true, decide_eq_true_eq]
    rcases h with h | h | h | h
    · exact .inl (.inl (.inl h))
    · exact .inl (.inl (.inr (Option.isSome_iff_ne_none.mpr h)))
    · exact .inl (.inr (Bool.eq_true_of_not_eq_false h))
    · exact .inr h

theorem replayEnd_cases {current : SoftwareProgramStep} {durationMs step : Nat}
    {phase : SoftwarePhase} {process : Option ProcessEvidence} {detected : Option SoftwareState}
    {quiescent : Bool}
    (h : replayEnd program p current s durationMs step phase process detected quiescent ≠ .reject) :
    step = s.index ∧ s.pending = some phase ∧
      Accountable p s durationMs (program.invocation s.index phase) process quiescent ∧
      replayEnd program p current s durationMs step phase process detected quiescent =
        if phase.isObservation then
          replayObservation program current (accounted s durationMs process quiescent) phase detected
        else
          replayOperation current (accounted s durationMs process quiescent)
            (program.invocation s.index phase) process detected quiescent := by
  unfold replayEnd at h ⊢
  split at h
  · exact absurd rfl h
  next ids =>
  rw [Bool.or_eq_true, decide_eq_true_eq, decide_eq_true_eq, not_or, not_not, not_not] at ids
  rw [if_neg (by simp [ids.1, ids.2])]
  dsimp only at h ⊢
  cases result : replayAccount p s durationMs (program.invocation s.index phase) process
      quiescent with
  | none =>
    rw [result] at h
    exact absurd rfl h
  | some a =>
    obtain ⟨rfl, account⟩ := replayAccount_eq_some.mp result
    exact ⟨ids.1, ids.2, account, rfl⟩

/-- Every record that lets the loop continue is one of the four kinds. -/
theorem advances_of_next (h : replayStep program p s checkpoint = .next s') :
    Advances program p s checkpoint s' := by
  unfold replayStep at h
  split at h
  · cases h
  next current found =>
  cases checkpoint with
  | started step phase =>
    dsimp only at h
    rw [replayBegin_eq] at h
    split at h
    · next checks =>
      obtain ⟨rfl, idle, incomplete, next⟩ := checks
      cases h
      exact .started found idle incomplete next
    · cases h
  | ended durationMs step phase process detected quiescent =>
    dsimp only at h
    obtain ⟨rfl, pending, account, outcome⟩ := replayEnd_cases (by rw [h]; simp)
    rw [outcome] at h
    split at h
    · next observation =>
      unfold replayObservation at h
      split at h
      · cases h
      next state =>
      split at h
      · cases h
      next stop =>
      rw [not_or, not_and, not_not] at stop
      cases h
      exact .observed found pending account observation (Bool.eq_false_of_not_eq_true stop.2) stop.1
    · next operation =>
      unfold replayOperation at h
      split at h
      · next command facts invocation =>
        split at h
        · cases h
        next detected =>
        rw [Option.not_isSome_iff_eq_none] at detected
        subst detected
        dsimp only at h
        split at h
        · next quiet =>
          subst quiet
          cases h
          rw [invocation] at account
          exact .operated found pending invocation account (Bool.eq_false_of_not_eq_true operation)
        · cases h
      · cases h
  | cleanupBegin | cleanupEnd => cases h
  | complete step =>
    unfold replayComplete at h
    dsimp only at h
    split at h
    · cases h
    next checks =>
    simp only [Bool.or_eq_true, decide_eq_true_eq, not_or, not_not, Bool.not_eq_true',
      Bool.not_eq_false, ne_eq, Option.not_isSome_iff_eq_none] at checks
    obtain ⟨⟨rfl, idle⟩, canComplete⟩ := checks
    cases h
    exact .completed found idle canComplete

theorem finishes_of_last {output : Nat} (h : replayStep program p s checkpoint = .last output) :
    Finishes program p s checkpoint output := by
  unfold replayStep at h
  split at h
  · cases h
  next current found =>
  cases checkpoint with
  | started step phase =>
    dsimp only at h
    rw [replayBegin_eq] at h
    split at h <;> cases h
  | ended durationMs step phase process detected quiescent =>
    dsimp only at h
    obtain ⟨rfl, pending, account, outcome⟩ := replayEnd_cases (by rw [h]; simp)
    rw [outcome] at h
    split at h
    · next observation =>
      unfold replayObservation at h
      split at h
      · cases h
      next state =>
      split at h
      · next stop =>
        cases h
        exact .observed found pending account observation stop
      · cases h
    · next operation =>
      unfold replayOperation at h
      split at h
      · next command facts invocation =>
        split at h
        · cases h
        next detected =>
        rw [Option.not_isSome_iff_eq_none] at detected
        subst detected
        dsimp only at h
        split at h
        · cases h
        · next quiet =>
          obtain rfl := Bool.eq_false_of_not_eq_true quiet
          cases h
          rw [invocation] at account
          exact .operated found pending invocation account (Bool.eq_false_of_not_eq_true operation)
      · cases h
  | cleanupBegin | cleanupEnd => cases h
  | complete step =>
    unfold replayComplete at h
    dsimp only at h
    split at h <;> cases h

end Inversion

end RssMdmAgent.ProgressReplay
