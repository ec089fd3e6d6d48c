import RssMdmAgent.ProgressCompletion
import RssMdmAgent.RunnerWalk

set_option autoImplicit false

/-! # Every history that the runner hands out is valid -/

namespace RssMdmAgent.RunnerRefinement
open BoundedArithmetic ContractIdentity ContractProcess ProgramInstructions ContractPlan PlanShape
open ProgressHistory ProgressValidity ProgressReplay ProgressLayout ProgressRuns
open RunnerProgram RunnerRecords RunnerWalk TransitionRuns ApplicationModel ProgressCompletion

section Ending
variable {host : RunnerHost} {run : ProgramRun} {step : SoftwareProgramStep} {st : RunState}
  {phase : SoftwarePhase} {facts : PhaseFacts} {done : List SoftwareCheckpoint} {s : Replay}
  {consumed : List SoftwarePhase} {ended committed : Nat}

def endRecord (st : RunState) (phase : SoftwarePhase) (facts : PhaseFacts) (ended : Nat) :
    SoftwareCheckpoint :=
  .ended (millis (ended - st.phaseStarted)) st.index phase facts.process facts.detected
    facts.quiescent

def endedJournal (run : ProgramRun) (st : RunState) (phase : SoftwarePhase) (facts : PhaseFacts)
    (ended committed : Nat) : SoftwareProgress :=
  { st.journal with
    checkpoints := st.journal.checkpoints ++ [endRecord st phase facts ended]
    elapsedMs := elapsedAt run committed
    outputBytes := st.journal.outputBytes + observedBytes facts.process }

theorem endPhase_eq (fits : elapsedAt run committed ≤ maxWord)
    (room : st.journal.outputBytes + observedBytes facts.process ≤ maxWord) :
    ∃ elapsed output first latest observed failed,
      st.endPhase run step phase facts ended committed =
        { st with
          journal := endedJournal run st phase facts ended committed
          control := .ending phase facts
          clock := committed
          invocationElapsed := elapsed, invocationOutput := output, first := first
          latest := latest, physicalObserved := observed, physicalFailed := failed } := by
  obtain ⟨first, latest, observed, failed, same⟩ := captured_eq
    { st with journal := { st.journal with
        outputBytes := saturatingAdd st.journal.outputBytes (observedBytes facts.process) } }
    step phase (run.program.invocation st.index phase) facts
  refine ⟨charge st.invocationElapsed (budgetGroup step phase) (millis (ended - st.phaseStarted)),
    charge st.invocationOutput (budgetGroup step phase) (observedBytes facts.process), first, latest,
    observed, failed, ?_⟩
  unfold RunState.endPhase
  dsimp only
  rw [show (Option.map (·.totalOutputBytes) facts.process).getD 0 = observedBytes facts.process
    from rfl, same, RunState.commit, handed_elapsed fits, saturatingAdd_of_le room]
  rfl

theorem duration_le {duration started : Nat} (before : duration ≤ elapsedAt run started)
    (first : started ≤ ended) (second : ended ≤ committed) :
    duration + millis (ended - started) ≤ elapsedAt run committed := by
  unfold elapsedAt at before ⊢
  have floors : started / 1000000 + (ended - started) / 1000000 ≤ ended / 1000000 := by omega
  have later : ended / 1000000 ≤ committed / 1000000 := Nat.div_le_div_right second
  have bounded : millis (ended - started) ≤ (ended - started) / 1000000 := Nat.min_le_left _ _
  omega

theorem stops_eq_true : stops phase facts = true ↔ facts.quiescent = false ∨
    ∃ state, facts.detected = some state ∧
      (state.isUnknown = true ∨ (phase = .removalAfter ∧ state ≠ .absent)) := by
  unfold stops
  rw [Bool.or_eq_true, Bool.not_eq_true']
  cases facts.detected with
  | none => simp
  | some state => simp

/-- The loop variables of the validator after the end record of a phase. -/
structure Ended (run : ProgramRun) (st : RunState) (p : SoftwareProgress) (s s' : Replay)
    (phase : SoftwarePhase) (facts : PhaseFacts) (ended : Nat) : Prop where
  advances : Advances run.program p s (endRecord st phase facts ended) s'
  pending : s'.pending = none
  output : s'.output = s.output + observedBytes facts.process
  duration : s'.duration = s.duration + millis (ended - st.phaseStarted)

/-- The validator retains every checked end record, as its last one or before others. -/
theorem Live.retained {p : SoftwareProgress} (h : Live run st phase done s consumed)
    (checked : PhaseChecked run st.index phase facts)
    (found : run.program.steps[s.index]? = some step)
    (account : Accountable p s (millis (ended - st.phaseStarted))
      (run.program.invocation s.index phase) facts.process facts.quiescent) :
    (stops phase facts = true ∧ Finishes run.program p s (endRecord st phase facts ended)
      (s.output + observedBytes facts.process)) ∨
      ∃ s', Ended run st p s s' phase facts ended ∧ (s.quiet = true →
        stops phase facts = true ∨ EndsStep run.program s s' phase
          ⟨facts, millis (ended - st.phaseStarted)⟩) := by
  have index := h.vars.index
  obtain ⟨process, detected, quiescent⟩ := facts
  cases observation : phase.isObservation with
  | true =>
    have seen := checked.observation
    rw [observation, eq_comm, Option.isSome_iff_exists] at seen
    obtain ⟨state, rfl⟩ := seen
    by_cases stop : (phase = .removalAfter ∧ state ≠ .absent) ∨ state.isUnknown = true
    · refine .inl ⟨stops_eq_true.mpr (.inr ⟨state, rfl, stop.symm⟩), ?_⟩
      unfold endRecord
      rw [index]
      exact .observed found h.pending account observation stop
    · rw [not_or, not_and, not_not, Bool.not_eq_true] at stop
      refine .inr ⟨observed run.program step (accounted s _ process quiescent) phase state,
        ⟨?_, rfl, rfl, rfl⟩, fun quiet => ?_⟩
      · unfold endRecord
        rw [index]
        exact .observed found h.pending account observation stop.2 stop.1
      · cases quiescent with
        | false => exact .inl rfl
        | true =>
          exact .inr (EndsStep.of_observed h.journal.facts.1 quiet found h.pending observation stop.2
            stop.1)
  | false =>
    have unseen := checked.observation
    rw [observation, eq_comm, Option.isSome_eq_false_iff, Option.isNone_iff_eq_none] at unseen
    obtain rfl : detected = none := unseen
    obtain ⟨evidence, rfl⟩ := Option.isSome_iff_exists.mp (checked.operation observation)
    have physical := checked.physical
    rw [Option.isSome_some, Option.isSome_iff_exists, index] at physical
    obtain ⟨command, invocation⟩ := physical
    dsimp only at account
    rw [invocation] at account
    cases quiescent with
    | false =>
      refine .inl ⟨rfl, ?_⟩
      unfold endRecord
      rw [index]
      exact .operated found h.pending invocation account observation
    | true =>
      refine .inr ⟨{ accounted s _ (some evidence) true with
        succeeded := s.succeeded && command.succeeded evidence step.allowReboot },
        ⟨?_, rfl, rfl, rfl⟩, fun _ => .inr (EndsStep.of_operated found h.pending invocation observation)⟩
      unfold endRecord
      rw [index]
      exact .operated found h.pending invocation account observation

/-- The end record of an executed phase is accepted, and the thread stops where the validator does. -/
theorem Live.endPhase (h : Live run st phase done s consumed)
    (found : run.program.steps[st.index]? = some step) (checked : PhaseChecked run st.index phase facts)
    (clock : st.clock ≤ ended) (after : ended ≤ committed)
    (fits : elapsedAt run committed ≤ maxWord)
    (room : st.journal.outputBytes + observedBytes facts.process ≤ maxWord) :
    SoundState run (st.endPhase run step phase facts ended committed) := by
  obtain ⟨elapsed, output, first, latest, observed, failed, same⟩ :
      ∃ elapsed output first latest observed failed, st.endPhase run step phase facts ended committed =
        _ := endPhase_eq fits room
  rw [same]
  obtain ⟨sound, quiet, records⟩ := h.journal.facts
  have index := h.vars.index
  have checkpoints := h.journal.records
  rw [Option.toList_none, List.append_nil] at checkpoints
  have duration := duration_le h.journal.duration (Nat.le_trans h.started clock) after
  have owner : SameOwner st.journal (endedJournal run st phase facts ended committed) :=
    ⟨rfl, rfl, rfl, Nat.le_trans h.journal.elapsed (elapsedAt_mono (Nat.le_trans clock after))⟩
  have account : Accountable (endedJournal run st phase facts ended committed) s
      (millis (ended - st.phaseStarted)) (run.program.invocation s.index phase) facts.process
      facts.quiescent := by
    refine ⟨Nat.le_trans duration fits, duration, index ▸ checked.physical, checked.quiet, ?_, ?_⟩
    · intro process command ran invocation
      have facts := checked.bound process command ran (index ▸ invocation)
      simp [processBound, endedJournal, facts.attempt, facts.digest, facts.runner, facts.finished,
        facts.capped, facts.counted, h.journal.attempt, h.journal.digest, h.journal.runner]
    · intro _
      rw [h.journal.output rfl]
      exact room
  rw [index] at found
  have room : (endedJournal run st phase facts ended committed).checkpoints.length ≤
      run.program.steps.length * 17 := by
    have room := Replayed.room (frozen_shape run.software) h.journal.replayed
    rw [h.pending] at room
    change (st.journal.checkpoints ++ [endRecord st phase facts ended]).length ≤ _
    rw [checkpoints, List.length_append]
    exact room
  have later := Replayed.later owner h.journal.replayed
  have grown : (endedJournal run st phase facts ended committed).checkpoints =
      done ++ [endRecord st phase facts ended] := by
    rw [← checkpoints]
    rfl
  have bytes := h.journal.output rfl
  rcases Live.retained h checked found account with ⟨stop, finishes⟩ | ⟨s', ended', going⟩
  · refine ⟨valid_of_accepted (p := endedJournal run st phase facts ended committed)
      h.journal.digest ?_ room, .inl stop⟩
    rw [grown]
    exact .finished later finishes (by rw [bytes]; rfl)
  · refine ⟨valid_of_accepted (p := endedJournal run st phase facts ended committed)
      h.journal.digest ?_ room, ?_⟩
    · rw [grown]
      exact .advanced (.next later ended'.advances) (by rw [ended'.output, bytes]; rfl)
    refine (going quiet).imp id fun ends => ?_
    have pushed : JournalSound run
        { st with
          journal := endedJournal run st phase facts ended committed, control := .ending phase facts
          clock := committed, invocationElapsed := elapsed, invocationOutput := output, first := first
          latest := latest, physicalObserved := observed, physicalFailed := failed }
        (done ++ [endRecord st phase facts ended]) s' none committed := by
      refine h.journal.push owner ended'.advances ?_ rfl ?_ ?_ (Nat.le_refl _)
      · have quiescent : facts.quiescent = true := ends.shaped.quiescent
        cases observation : phase.isObservation with
        | true =>
          obtain ⟨state, detected, known, -⟩ := ends.shaped.observation observation
          have detected : facts.detected = some state := detected
          simp [SoftwareCheckpoint.resumableRecord, endRecord, quiescent, detected, known]
        | false =>
          have detected : facts.detected = none := (ends.shaped.operation observation).1
          simp [SoftwareCheckpoint.resumableRecord, endRecord, quiescent, detected]
      · rw [ended'.output, bytes]
        rfl
      · rw [ended'.duration]
        exact duration
    exact ⟨_, s', consumed, h.concluding ends pushed ended'.pending rfl rfl rfl rfl rfl rfl rfl⟩

end Ending

section Step
variable {host : RunnerHost} {run : ProgramRun} {step : SoftwareProgramStep} {st st' : RunState}
  {move : Move} {phase : SoftwarePhase} {facts : PhaseFacts} {done : List SoftwareCheckpoint}
  {s : Replay} {halt : Option SoftwareCheckpoint} {consumed queue : List SoftwarePhase}

theorem StepVars.keep (vars : StepVars run st done s halt consumed queue)
    (index : st'.index = st.index) (before : st'.before = st.before)
    (succeeded : st'.mutationSucceeded = st.mutationSucceeded)
    (failed : st'.failedMutation = st.failedMutation)
    (quiescent : st'.stepQuiescent = st.stepQuiescent) :
    StepVars run st' done s halt consumed queue where
  index := by rw [index]; exact vars.index
  layout := by rw [before]; exact vars.layout
  halted := vars.halted
  passed := by rw [index, failed]; exact vars.passed
  flags := by rw [succeeded, index]; exact vars.flags
  failed := by rw [failed, succeeded]; exact vars.failed
  quiescent := by rw [quiescent]; exact vars.quiescent

theorem StepVars.fresh (index : st.index = s.index) (before : st.before = none)
    (succeeded : st.mutationSucceeded = true) (failed : st.failedMutation = false)
    (quiescent : st.stepQuiescent = true) : StepVars run st done s halt [] [.before] where
  index := index
  layout := .inl ⟨rfl, rfl, before⟩
  halted _ := List.not_mem_nil
  passed _ mem := by cases mem
  flags := by simp [succeeded]
  failed := by rw [failed, succeeded]; rfl
  quiescent := quiescent

theorem JournalSound.wait {time : Nat} (sound : JournalSound run st done s halt time)
    (journal : st'.journal = st.journal) (clock : st.clock ≤ st'.clock) :
    JournalSound run st' done s halt time := by
  have kept : JournalSound run { st' with clock := st.clock } done s halt time :=
    sound.keep journal rfl
  refine { kept with elapsed := ?_ }
  rw [journal]
  exact Nat.le_trans sound.elapsed (elapsedAt_mono clock)

theorem Live.wait (h : Live run st phase done s consumed) (control : Control) {time : Nat}
    (clock : st.clock ≤ time) :
    Live run { st with control := control, clock := time } phase done s consumed where
  journal := JournalSound.wait h.journal rfl clock
  vars := StepVars.keep h.vars rfl rfl rfl rfl rfl
  kept := h.kept
  pending := h.pending
  position := h.position
  started := Nat.le_trans h.started clock

theorem conclude_stops {time : Nat} (stop : stops phase facts = true) :
    SoundState run (st.conclude host run step phase facts time) := by
  unfold RunState.conclude
  dsimp only
  split
  · trivial
  next quiescent =>
  rw [stops_eq_true] at stop
  obtain ⟨state, detected, stop⟩ := stop.resolve_left quiescent
  rw [detected]
  dsimp only
  split
  · trivial
  next known =>
  rw [if_pos (stop.resolve_left known)]
  trivial

theorem startInvocation_sound {command : SoftwareInvocation} {bound : Bool}
    (h : Live run st phase done s consumed)
    (invocation : run.program.invocation st.index phase = some command) :
    SoundState run (st.startInvocation run step phase command bound) := by
  unfold RunState.startInvocation
  split
  · trivial
  dsimp only
  split
  · trivial
  refine ⟨⟨done, s, consumed, Live.wait h _ (Nat.le_refl _)⟩, command, invocation, ?_⟩
  -- the output cap is at most the bound of the invocation itself
  unfold RunState.invocationBudget
  dsimp only
  split <;> omega

theorem observe_sound {context : Except AppError Unit} {gate : Gate} {state : SoftwareState}
    {ended : Nat} (h : Live run st phase done s consumed)
    (found : run.program.steps[st.index]? = some step)
    (native : run.program.invocation st.index phase = none)
    (observation : phase.isObservation = true) (clock : st.clock ≤ ended)
    (after : ended ≤ gate.committed) (fits : elapsedAt run gate.committed ≤ maxWord)
    (room : st.journal.outputBytes ≤ maxWord) :
    SoundState run (st.observe run step phase context gate state ended) := by
  unfold RunState.observe
  split
  · trivial
  split
  · trivial
  refine Live.endPhase h found ⟨?_, ?_, ?_, ?_, ?_⟩ clock after fits (by simpa [observedBytes] using room)
  · rw [native]
    rfl
  · rintro _ ⟨⟩
  · rintro _ _ ⟨⟩
  · rw [observation]
    rfl
  · rw [observation]
    intro impossible
    cases impossible

theorem invoke_sound {command : SoftwareInvocation} {result : Except AppError ProcessEvidence}
    {ended committed cap : Nat} (h : Live run st phase done s consumed)
    (found : run.program.steps[st.index]? = some step)
    (invocation : run.program.invocation st.index phase = some command)
    (capped : cap ≤ command.outputBytes)
    (evidence : ∀ process, result = .ok process → InvocationFacts run cap process)
    (clock : st.clock ≤ ended) (after : ended ≤ committed)
    (fits : elapsedAt run committed ≤ maxWord)
    (room : ∀ process, result = .ok process →
      st.journal.outputBytes + process.totalOutputBytes ≤ maxWord) :
    SoundState run (st.invoke host run step phase command result ended committed) := by
  unfold RunState.invoke
  split
  · trivial
  next process =>
  have bound := evidence process rfl
  refine Live.endPhase h found ⟨?_, ?_, ?_, ?_, fun _ => rfl⟩ clock after fits (room process rfl)
  · rw [invocation]
    rfl
  · rintro _ ⟨⟩
    rfl
  · rintro _ command' ⟨⟩ same
    cases invocation.symm.trans same
    exact { bound with capped := Nat.le_trans bound.capped capped }
  · cases phase.isObservation <;> rfl

theorem fresh_kept {time : Nat} (journal : JournalSound run st done s none time)
    (index : s.index = st.index + 1) (position : s.position = 0) (phase : SoftwarePhase) :
    recordOf st.journal.checkpoints (st.index + 1) phase =
      recordOf run.prior (st.index + 1) phase := by
  obtain ⟨-, -, records⟩ := journal.facts
  have none : recordOf st.journal.checkpoints (st.index + 1) phase = none := by
    rw [← index, journal.recorded (.inl rfl)]
    cases found : recordOf done s.index phase with
    | none => rfl
    | some record =>
      obtain ⟨j, early, -⟩ := records.passed phase record found
      omega
  obtain ⟨later, split⟩ := journal.stored
  rw [none]
  rw [← split, recordOf_append] at none
  exact (Option.or_eq_none_iff.mp none).1.symm

/-- Every admissible move keeps the invariant, if it skips no unrecorded removal. -/
theorem advance_sound (sound : SoundState run st) (removal : RemovalKept run st)
    (fits : Fits run st move) (h : RunnerStep host run st move st') : SoundState run st' := by
  obtain ⟨⟨clock, evidence⟩, h⟩ := h
  unfold RunState.advance at h
  split at h
  · split at h
    · cases h
      trivial
    · cases h
  next step found =>
  unfold SoundState at sound
  split at h
  · cases h
    trivial
  · next control =>
    cases h
    rw [control] at sound
    obtain ⟨done, s, halt, phases, idle⟩ := sound
    refine ⟨done, s, halt, [], idle.journal.keep rfl rfl, ?_, idle.kept, idle.idle⟩
    exact StepVars.keep idle.vars rfl rfl rfl rfl rfl
  · next gate control =>
    cases h
    rw [control] at sound
    obtain ⟨done, s, halt, consumed, idle⟩ := sound
    exact idle.choose control found removal clock.1 clock.2 fits.elapsed
  · next phase time control =>
    cases h
    rw [control] at sound
    obtain ⟨done, s, consumed, live⟩ := sound
    exact ⟨done, s, consumed, Live.wait live _ clock⟩
  · next phase facts time control =>
    cases h
    rw [control] at sound
    obtain ⟨-, stop | ⟨done, s, consumed, concluding⟩⟩ := sound
    · exact conclude_stops stop
    · exact concluding.conclude found clock fits.elapsed
  · next time control =>
    cases h
    rw [control] at sound
    obtain ⟨-, done, s, journal, index, idle, position⟩ := sound
    have kept : JournalSound run { st.enterStep (st.index + 1) with clock := time } done s none
        st.clock := JournalSound.wait journal rfl clock
    have waited := { kept with duration := Nat.le_trans journal.duration (elapsedAt_mono clock) }
    exact ⟨done, s, none, rfl, waited, StepVars.fresh index.symm rfl rfl rfl rfl,
      fun phase _ => fresh_kept journal index position phase, fun _ => idle⟩
  · cases h
    trivial
  · cases h
    trivial
  · cases h
    trivial
  · next phase bound control =>
    rw [control] at sound
    obtain ⟨done, s, consumed, live⟩ := sound
    obtain ⟨command, invocation, rfl⟩ := Option.map_eq_some_iff.mp h
    exact startInvocation_sound live invocation
  · next phase context gate state ended control =>
    rw [control] at sound
    obtain ⟨done, s, consumed, live⟩ := sound
    split at h
    · cases h
    next native =>
    split at h
    · next observation =>
      cases h
      exact observe_sound live found native observation clock.1 clock.2 fits.elapsed
        (Nat.le_trans (Nat.le_add_right _ _) fits.output)
    · cases h
      trivial
  · next phase cap result ended committed control =>
    rw [control] at sound
    obtain ⟨⟨done, s, consumed, live⟩, command, called, capped⟩ := sound
    obtain ⟨command', invocation, rfl⟩ := Option.map_eq_some_iff.mp h
    cases called.symm.trans invocation
    refine invoke_sound live found invocation capped ?_ clock.1 clock.2 fits.elapsed ?_
    · rintro process rfl
      rw [control] at evidence
      exact evidence
    · rintro process rfl
      exact fits.output
  · cases h

end Step

section Start
variable {run : ProgramRun} {st : RunState} {done : List SoftwareCheckpoint} {s : Replay}
  {halt : Option SoftwareCheckpoint}

theorem Replayed.duration_le {program : SoftwareProgram} {p : SoftwareProgress}
    (run : Replayed program p done s) : s.duration ≤ p.elapsedMs := by
  induction run with
  | refl => exact Nat.zero_le _
  | next _ h ih =>
    cases h with
    | started | completed => exact ih
    | observed _ _ account => exact account.elapsed
    | operated _ _ _ account => exact account.elapsed

theorem Replayed.idle {program : SoftwareProgram} {p : SoftwareProgress}
    (run : Replayed program p done s)
    (last : ∀ step phase, done.getLast? ≠ some (.started step phase)) : s.pending = none := by
  cases run with
  | refl => rfl
  | next _ h =>
    cases h with
    | started => exact absurd (List.getLast?_concat) (last _ _)
    | observed | operated | completed => rfl

theorem start_sound (resumes : Resumes run) : SoundState run run.start := by
  suffices found : ∃ done s halt, JournalSound run run.start done s halt 0 ∧
      run.completed = s.index ∧ (halt = none → s.pending = none) by
    obtain ⟨done, s, halt, journal, index, idle⟩ := found
    refine ⟨done, s, halt, rfl, journal, StepVars.fresh index rfl rfl rfl rfl, fun phase _ => ?_,
      idle⟩
    change recordOf run.journal.checkpoints _ phase = recordOf run.prior _ phase
    unfold ProgramRun.journal ProgramRun.prior
    cases run.previous <;> rfl
  cases previous : run.previous with
  | none =>
    have journal : run.start.journal = ⟨run.attempt, run.plan.digest, run.runner, [], 0, 0⟩ := by
      simp [ProgramRun.start, ProgramRun.journal, previous]
    refine ⟨[], Replay.initial, none, ?_, ?_, fun _ => rfl⟩
    · constructor <;>
        simp [journal, ProgramRun.prior, previous, Replay.initial, elapsedAt]
      exact .refl
    · simp [ProgramRun.completed, ProgramRun.prior, previous, Replay.initial]
  | some p =>
    obtain ⟨valid, resumable, attempt, runner⟩ := resumes p previous
    have journal : run.start.journal = p := by
      simp [ProgramRun.start, ProgramRun.journal, previous]
    have prior : run.prior = p.checkpoints := by simp [ProgramRun.prior, previous]
    have elapsed : run.priorElapsed = p.elapsedMs := by simp [ProgramRun.priorElapsed, previous]
    simp only [SoftwareProgress.resumable, Bool.and_eq_true, List.all_eq_true] at resumable
    obtain ⟨⟨-, records⟩, last⟩ := resumable
    have business : ∀ c ∈ p.checkpoints, c.isRecovery = false := by
      intro c mem
      have kept := records c mem
      cases c with
      | cleanupBegin | cleanupEnd => cases kept
      | started | ended | complete => rfl
    obtain ⟨digest, -, accepted⟩ := (valid_of_business run.software business).mp valid
    have accepted := accepted_of_replay accepted
    have completed : ∀ {done s}, Replayed run.program p done s → ∀ halt : Option SoftwareCheckpoint,
        p.checkpoints = done ++ halt.toList → (∀ c, halt = some c → c.isComplete = false) →
        run.completed = s.index := by
      intro done s replayed halt split other
      rw [ProgramRun.completed, prior, split, List.countP_append, replayed.completeCount]
      cases halt with
      | none => rfl
      | some c => simp [other c rfl]
    generalize same : p.checkpoints = cps at accepted
    cases accepted with
    | @advanced _ s replayed output =>
      refine ⟨cps, s, none, ?_, completed replayed none (by simpa using same) (by simp), fun _ => ?_⟩
      · refine ⟨by rw [journal]; exact replayed, by rw [journal, same]; simp, same ▸ records,
          by rw [journal, attempt], by rw [journal, digest], by rw [journal, runner],
          by rw [journal, prior], fun _ => by rw [journal, output], ?_, ?_, by simp⟩
        · rw [elapsedAt, elapsed]
          exact Nat.le_add_right_of_le (Replayed.duration_le replayed)
        · rw [journal, elapsedAt, elapsed]
          exact Nat.le_add_right _ _
      · refine Replayed.idle replayed fun step phase started => ?_
        rw [same, started] at last
        cases last
    | @finished done s c output replayed h output' =>
      have kept := records c (by rw [same]; simp)
      refine ⟨done, s, some c, ?_, completed replayed (some c) same ?_, by simp⟩
      · refine ⟨by rw [journal]; exact replayed, by rw [journal, same]; rfl, ?_,
          by rw [journal, attempt], by rw [journal, digest], by rw [journal, runner],
          by rw [journal, prior], by simp, ?_, ?_, ?_⟩
        · intro c mem
          exact records c (by rw [same]; exact List.mem_append_left _ mem)
        · rw [elapsedAt, elapsed]
          exact Nat.le_add_right_of_le (Replayed.duration_le replayed)
        · rw [journal, elapsedAt, elapsed]
          exact Nat.le_add_right _ _
        · rintro _ ⟨⟩
          -- only a removal that was observed to have failed can end a resumable history
          cases h with
          | @observed _ durationMs phase process state quiescent _ pending _ _ stop =>
            simp only [SoftwareCheckpoint.resumableRecord, Bool.and_eq_true, Bool.not_eq_true']
              at kept
            obtain ⟨rfl, present⟩ := stop.resolve_right (by simp [kept.2])
            exact ⟨pending, ⟨⟨process, some state, quiescent⟩, durationMs⟩, state, rfl, kept.1, rfl,
              present⟩
          | operated => cases kept
      · rintro _ ⟨⟩
        cases h <;> rfl

end Start

structure KeepingStep (host : RunnerHost) (run : ProgramRun) (st : RunState) (move : Move)
    (st' : RunState) : Prop where
  step : RunnerStep host run st move st'
  removal : RemovalKept run st
  fits : Fits run st move

theorem runs_sound {host : RunnerHost} {run : ProgramRun} {moves : List Move} {st : RunState}
    (resumes : Resumes run) (runs : Runs (KeepingStep host run) run.start moves st) :
    SoundState run st :=
  runs.invariant (SoundState run) (start_sound resumes) fun _ _ _ sound h =>
    advance_sound sound h.removal h.fits h.step

/-- In every run that skips no unrecorded removal, each history that the thread hands to the
checkpoint port is one that the validator accepts. -/
theorem handed_valid {host : RunnerHost} {run : ProgramRun} {moves : List Move} {st : RunState}
    (resumes : Resumes run) (runs : Runs (KeepingStep host run) run.start moves st)
    (handed : st.control.handsOut = true) : st.journal.validFor run.plan = true := by
  have sound := runs_sound resumes runs
  unfold SoundState at sound
  cases control : st.control with
  | opening | choosing | starting | running | finished =>
    rw [control] at handed
    cases handed
  | beginning phase =>
    rw [control] at sound
    obtain ⟨done, s, consumed, live⟩ := sound
    exact live.journal.valid
  | ending phase facts =>
    rw [control] at sound
    exact sound.1
  | completing =>
    rw [control] at sound
    exact sound.1

section Samples

def replacementStep : SoftwareProgramStep :=
  let step := sampleStep .uninstallThenInstall [.prepare, .removal, .mutation, .cleanup] {0}
    sampleReceipt
  { step with
    invocations := fun phase => (step.invocations phase).map fun command =>
      if phase = .cleanup then { command with timeoutMs := 100, outputBytes := 100 } else command }

def replacementPlan : FrozenExecution where
  spec := sampleInput .install ⟨"software.install", .refl true⟩ replacementStep
  digest := sampleDigest
  frozen := ⟨sampleLimits, by decide +kernel⟩

def replacementRun : ProgramRun where
  plan := replacementPlan
  program := ⟨sampleDigest, .install, [replacementStep]⟩
  software := rfl
  attempt := ⟨"attempt", .refl true⟩
  runner := ⟨"runner", .refl true⟩
  outputLimit := 10000
  firstStart := none
  previous := none

def sampleHost : RunnerHost := ⟨fun _ => none, fun _ => none, fun _ _ => true⟩

def openGate : Gate := ⟨false, false, 0, none, 0⟩

def sampleObservation (state : SoftwareState) : List Move :=
  [.chosen openGate, .acknowledged 0, .observed (.ok ()) openGate state 0, .acknowledged 0]

def sampleInvoked (exitCode : Int) : List Move :=
  [.chosen openGate, .acknowledged 0, .started true, .invoked (.ok (sampleEvidence exitCode)) 0 0,
    .acknowledged 0]

def prepared (exitCode : Int) : List Move :=
  [.verified (.ok ())] ++ sampleObservation (.present ⟨"old", .refl true⟩) ++ sampleInvoked exitCode

def checkedAdvance (host : RunnerHost) (run : ProgramRun) (st : RunState) (move : Move) :
    Option RunState :=
  if Admissible run st move then st.advance host run move else none

def keepingAdvance (host : RunnerHost) (run : ProgramRun) (st : RunState) (move : Move) :
    Option RunState :=
  if RemovalKept run st ∧ Fits run st move then checkedAdvance host run st move else none

theorem checkedAdvance_step {host : RunnerHost} {run : ProgramRun} {st st' : RunState} {move : Move}
    (h : checkedAdvance host run st move = some st') : RunnerStep host run st move st' := by
  unfold checkedAdvance at h
  split at h
  · next admissible => exact ⟨admissible, h⟩
  · cases h

theorem keepingAdvance_step {host : RunnerHost} {run : ProgramRun} {st st' : RunState} {move : Move}
    (h : keepingAdvance host run st move = some st') : KeepingStep host run st move st' := by
  unfold keepingAdvance at h
  split at h
  · next keeps => exact ⟨checkedAdvance_step h, keeps.1, keeps.2⟩
  · cases h

def replacementMoves : List Move :=
  prepared 0 ++ sampleInvoked 0 ++ sampleObservation .absent ++ sampleInvoked 0 ++ sampleInvoked 0 ++
    [.chosen openGate]

theorem handed_valid_sample : ∃ st : RunState, st.control.handsOut = true ∧ st.journal.checkpoints.length = 13 ∧
    st.journal.validFor replacementPlan = true := by
  have computed : ((replacementMoves.foldlM (keepingAdvance sampleHost replacementRun)
      replacementRun.start).any fun st : RunState =>
        st.control.handsOut && st.journal.checkpoints.length == 13) = true := by decide +kernel
  obtain ⟨st, run, facts⟩ := (Option.any_eq_true _ _).mp computed
  rw [Bool.and_eq_true, beq_iff_eq] at facts
  have runs := Runs.of_foldlM _ id (fun _ _ _ h => keepingAdvance_step h) replacementMoves run
  exact ⟨st, facts.1, facts.2, handed_valid (by rintro _ ⟨⟩) runs facts.1⟩

def failingMoves : List Move := prepared 1 ++ [.chosen openGate, .chosen openGate]

/-- After a failed preparation the thread skips the removal but observes it, and hands out a history
that the validator rejects. -/
theorem failed_preparation_rejected : ∃ moves st,
    Runs (RunnerStep sampleHost replacementRun) replacementRun.start moves st ∧
      st.control.handsOut = true ∧ st.journal.validFor replacementPlan = false := by
  have computed : ((failingMoves.foldlM (checkedAdvance sampleHost replacementRun)
      replacementRun.start).any fun st : RunState =>
        st.control.handsOut && !st.journal.validFor replacementPlan) = true := by decide +kernel
  obtain ⟨st, run, facts⟩ := (Option.any_eq_true _ _).mp computed
  rw [Bool.and_eq_true, Bool.not_eq_true'] at facts
  exact ⟨_, st, Runs.of_foldlM _ id (fun _ _ _ h => checkedAdvance_step h) _ run, facts⟩

end Samples

end RssMdmAgent.RunnerRefinement
