import RssMdmAgent.ProgressRuns
import RssMdmAgent.RunnerProgram

set_option autoImplicit false

/-! # The records of a step that the validator has accepted -/

namespace RssMdmAgent.RunnerRecords
open BoundedArithmetic ContractIdentity ContractProcess ProgramInstructions ContractPlan PlanShape
open ProgressHistory ProgressValidity ProgressReplay ProgressLayout ProgressRuns RunnerProgram

structure SameOwner (p q : SoftwareProgress) : Prop where
  attempt : q.attemptId = p.attemptId
  digest : q.contentDigest = p.contentDigest
  runner : q.runner = p.runner
  elapsed : p.elapsedMs ≤ q.elapsedMs

section Later
variable {program : SoftwareProgram} {p q : SoftwareProgress} {s s' : Replay}

theorem Accountable.later {durationMs : Nat} {command : Option SoftwareInvocation}
    {process : Option ProcessEvidence} {quiescent : Bool} (same : SameOwner p q)
    (h : Accountable p s durationMs command process quiescent) :
    Accountable q s durationMs command process quiescent where
  word := h.word
  elapsed := Nat.le_trans h.elapsed same.elapsed
  physical := h.physical
  quiet := h.quiet
  bound facts invocation found called := by
    rw [processBound, same.attempt, same.digest, same.runner]
    exact h.bound facts invocation found called
  output := h.output

theorem Advances.later {checkpoint : SoftwareCheckpoint} (same : SameOwner p q)
    (h : Advances program p s checkpoint s') : Advances program q s checkpoint s' := by
  cases h with
  | started found idle incomplete next => exact .started found idle incomplete next
  | observed found pending account observation known removed =>
    exact .observed found pending (Accountable.later same account) observation known removed
  | operated found pending invocation account operation =>
    exact .operated found pending invocation (Accountable.later same account) operation
  | completed found idle canComplete => exact .completed found idle canComplete

theorem Replayed.later {done : List SoftwareCheckpoint} (same : SameOwner p q)
    (run : Replayed program p done s) : Replayed program q done s := by
  induction run with
  | refl => exact .refl
  | next _ h ih => exact .next ih (Advances.later same h)

end Later

section Acceptance
variable {program : SoftwareProgram} {p : SoftwareProgress} {s s' : Replay}
  {checkpoint : SoftwareCheckpoint}

theorem replayEnd_of_account {current : SoftwareProgramStep} {durationMs : Nat}
    {phase : SoftwarePhase} {process : Option ProcessEvidence} {detected : Option SoftwareState}
    {quiescent : Bool} (pending : s.pending = some phase)
    (account : Accountable p s durationMs (program.invocation s.index phase) process quiescent) :
    replayEnd program p current s durationMs s.index phase process detected quiescent =
      if phase.isObservation then
        replayObservation program current (accounted s durationMs process quiescent) phase detected
      else
        replayOperation current (accounted s durationMs process quiescent)
          (program.invocation s.index phase) process detected quiescent := by
  unfold replayEnd
  rw [if_neg (by simp [pending])]
  dsimp only
  rw [replayAccount_eq_some.mpr ⟨rfl, account⟩]

theorem next_of_advances (h : Advances program p s checkpoint s') :
    replayStep program p s checkpoint = .next s' := by
  unfold replayStep
  cases h with
  | started found idle incomplete next =>
    rw [found]
    dsimp only
    rw [replayBegin_eq, if_pos ⟨rfl, idle, incomplete, next⟩]
  | observed found pending account observation known removed =>
    rw [found]
    dsimp only
    rw [replayEnd_of_account pending account, if_pos observation]
    simp only [replayObservation]
    rw [if_neg]
    rw [not_or, not_and, not_not, known]
    exact ⟨removed, by simp⟩
  | operated found pending invocation account operation =>
    rw [found]
    dsimp only
    rw [replayEnd_of_account pending (by rw [invocation]; exact account), operation, invocation]
    rfl
  | completed found idle canComplete =>
    rw [found]
    simp [replayComplete, idle, canComplete]

theorem last_of_finishes {output : Nat} (h : Finishes program p s checkpoint output) :
    replayStep program p s checkpoint = .last output := by
  unfold replayStep
  cases h with
  | observed found pending account observation stop =>
    rw [found]
    dsimp only
    rw [replayEnd_of_account pending account, if_pos observation]
    simp only [replayObservation]
    rw [if_pos stop]
    rfl
  | operated found pending invocation account operation =>
    rw [found]
    dsimp only
    rw [replayEnd_of_account pending (by rw [invocation]; exact account), operation, invocation]
    rfl

theorem replay_of_replayed {done : List SoftwareCheckpoint} (run : Replayed program p done s) :
    ∀ {rest : List SoftwareCheckpoint}, replay program p s rest = true →
      replay program p Replay.initial (done ++ rest) = true := by
  induction run with
  | refl => exact fun h => h
  | next _ h ih =>
    intro rest tail
    rw [List.append_assoc]
    apply ih
    rw [List.singleton_append, replay, next_of_advances h]
    exact tail

theorem replay_of_accepted {cps : List SoftwareCheckpoint} (accepted : Accepted program p cps) :
    replay program p Replay.initial cps = true := by
  cases accepted with
  | advanced run output =>
    rw [← List.append_nil cps]
    refine replay_of_replayed run ?_
    rw [replay]
    simpa using output
  | finished run h same =>
    refine replay_of_replayed run ?_
    rw [replay, last_of_finishes h]
    simpa using same

end Acceptance

section Length
variable {program : SoftwareProgram} {p : SoftwareProgress} {s s' : Replay}
  {checkpoint : SoftwareCheckpoint} {done : List SoftwareCheckpoint}

theorem StepLayout.length_le {index : Nat} {phases : List SoftwarePhase}
    (layout : StepLayout program index phases) : phases.length ≤ 8 := by
  rcases layout with rfl | ⟨muts, final, rfl, layout, last⟩
  · decide
  · rcases layout.split with rfl | ⟨acquire, removal, main, close, rfl, ha, hr, hm, hc, -⟩
    · fin_cases last <;> decide
    · fin_cases ha <;> fin_cases hr <;> fin_cases hm <;> fin_cases hc <;> fin_cases last <;> decide

theorem Advances.position_le (sound : ReplaySound program s)
    (h : Advances program p s checkpoint s') : s'.position ≤ s'.phases.length := by
  cases h with
  | started found idle incomplete next =>
    exact Nat.le_of_lt (List.getElem?_eq_some_iff.mp next).1
  | @observed current durationMs phase process state quiescent found pending account observation =>
    have here := (List.getElem?_eq_some_iff.mp (sound.pending _ pending)).1
    rw [observed_phases]
    change s.position + 1 ≤ _
    split
    · change s.position + 1 ≤ (s.phases ++ _ ++ _).length
      rw [List.length_append, List.length_append]
      omega
    · exact here
  | operated found pending =>
    exact (List.getElem?_eq_some_iff.mp (sound.pending _ pending)).1
  | completed => exact Nat.zero_le _

theorem Replayed.position_le (shape : ProgramShape program) (run : Replayed program p done s) :
    s.position ≤ s.phases.length := by
  induction run with
  | refl => exact Nat.zero_le _
  | next earlier h => exact Advances.position_le (earlier.sound shape) h

theorem Replayed.length_le (shape : ProgramShape program) (run : Replayed program p done s) :
    done.length ≤ 17 * s.index + 2 * s.position + s.pending.toList.length := by
  induction run with
  | refl => exact Nat.zero_le _
  | @next done s s' checkpoint earlier h ih =>
    have sound := earlier.sound shape
    have inside := Replayed.position_le shape earlier
    have short := StepLayout.length_le sound.layout
    rw [List.length_append, List.length_singleton]
    cases h with
    | @started _ phase _ idle =>
      have later := position_le_skipFailed s phase
      simp only [idle, Option.toList_none, List.length_nil, Option.toList_some,
        List.length_singleton] at ih ⊢
      omega
    | observed _ pending =>
      simp only [pending, Option.toList_some, List.length_singleton] at ih
      simp only [observed, accounted, Option.toList_none, List.length_nil]
      omega
    | operated _ pending =>
      simp only [pending, Option.toList_some, List.length_singleton] at ih
      simp only [accounted, Option.toList_none, List.length_nil]
      omega
    | completed _ idle =>
      simp only [idle, Option.toList_none, List.length_nil] at ih
      simp only [Replay.initial, Option.toList_none, List.length_nil]
      omega

theorem StepLayout.removal_before {index i : Nat} {phases : List SoftwarePhase}
    (layout : StepLayout program index phases) (here : phases[i]? = some .removalAfter) :
    ∃ j, i = j + 1 ∧ phases[j]? = some .removal := by
  have nodup := layout.nodup
  have mem := List.mem_of_getElem? here
  rcases layout with rfl | ⟨muts, final, rfl, layout, last⟩
  · simp at mem
  rcases layout.split with rfl | ⟨acquire, removal, main, close, rfl, ha, hr, hm, hc, -⟩
  · fin_cases last <;> simp at mem
  have removing : removal = [.removal, .removalAfter] := by
    fin_cases hr
    · revert mem
      fin_cases ha <;> fin_cases hm <;> fin_cases hc <;> fin_cases last <;> decide
    · rfl
  subst removing
  have there : (SoftwarePhase.before :: (acquire ++ ([.removal, .removalAfter] ++ main :: close) ++
      final))[acquire.length + 2]? = some .removalAfter := by simp
  have same := (List.getElem?_inj (List.getElem?_eq_some_iff.mp here).1 nodup).mp
    (here.trans there.symm)
  exact ⟨acquire.length + 1, same, by simp⟩

theorem skipFailed_of_skippable {phase : SoftwarePhase} {k : Nat} (ahead : s.position ≤ k)
    (here : s.phases[k]? = some phase) (passed : ∀ j passed, s.position ≤ j → j < k →
      s.phases[j]? = some passed → skippable passed = true) (stops : skippable phase = false)
    (closing : s.succeeded = false ∧ (phase = .cleanup ∨ phase = .after)) :
    skipFailed s phase = k := by
  unfold skipFailed
  rw [if_pos (by simpa using closing), List.takeWhile_eq_take_findIdx_not, List.length_take]
  obtain ⟨inside, value⟩ := List.getElem?_eq_some_iff.mp here
  have found : (s.phases.drop s.position).findIdx (fun phase => !skippable phase) =
      k - s.position := by
    rw [List.findIdx_eq (by rw [List.length_drop]; omega)]
    constructor
    · rw [List.getElem_drop]
      simp only [show s.position + (k - s.position) = k by omega, value, stops, Bool.not_false]
    · intro j early
      rw [List.getElem_drop, Bool.not_eq_false']
      exact passed (s.position + j) _ (by omega) (by omega) (List.getElem?_eq_getElem _)
  rw [found, List.length_drop]
  omega

theorem skipFailed_here {phase : SoftwarePhase} (here : s.phases[s.position]? = some phase) :
    skipFailed s phase = s.position := by
  by_cases closing : s.succeeded = false ∧ (phase = .cleanup ∨ phase = .after)
  · refine skipFailed_of_skippable (Nat.le_refl _) here (fun j _ from_ to_ => by omega) ?_ closing
    rcases closing.2 with rfl | rfl <;> rfl
  · unfold skipFailed
    rw [if_neg (by simpa using closing)]

end Length

section Records
variable {done : List SoftwareCheckpoint} {index : Nat} {phase : SoftwarePhase}

theorem recordOf_append (front back : List SoftwareCheckpoint) (index : Nat)
    (phase : SoftwarePhase) : recordOf (front ++ back) index phase =
      (recordOf front index phase).or (recordOf back index phase) := by
  rw [recordOf, List.findSome?_append]
  rfl

theorem recordOf_append_other {checkpoint : SoftwareCheckpoint}
    (other : phaseRecord index phase checkpoint = none) :
    recordOf (done ++ [checkpoint]) index phase = recordOf done index phase := by
  rw [recordOf_append]
  simp [recordOf, other]

theorem recordOf_append_ended {durationMs step : Nat} {p : SoftwarePhase}
    {process : Option ProcessEvidence} {detected : Option SoftwareState} {quiescent : Bool} :
    recordOf (done ++ [.ended durationMs step p process detected quiescent]) index phase =
      (recordOf done index phase).or
        (if step = index ∧ p = phase then some ⟨⟨process, detected, quiescent⟩, durationMs⟩
          else none) := by
  rw [recordOf_append]
  simp [recordOf, phaseRecord]

end Records

def operationSucceeded (program : SoftwareProgram) (index : Nat) (phase : SoftwarePhase)
    (process : Option ProcessEvidence) : Bool :=
  match program.steps[index]?, program.invocation index phase, process with
  | some step, some command, some facts => command.succeeded facts step.allowReboot
  | _, _, _ => false

def failedRecord (program : SoftwareProgram) (index : Nat) (phase : SoftwarePhase)
    (record : PhaseRecord) : Bool :=
  !phase.isObservation && !operationSucceeded program index phase record.process

/-- A retained record of the current step from which the history could continue. -/
structure RecordShape (program : SoftwareProgram) (index : Nat) (phase : SoftwarePhase)
    (record : PhaseRecord) : Prop where
  quiescent : record.quiescent = true
  observation : phase.isObservation = true → ∃ state, record.detected = some state ∧
    state.isUnknown = false ∧ (phase = .removalAfter → state = .absent)
  operation : phase.isObservation = false → record.detected = none ∧
    ∃ facts command, record.process = some facts ∧ program.invocation index phase = some command

/-- How the records of the current step follow the phases that the validator walks. -/
structure StepRecords (program : SoftwareProgram) (done : List SoftwareCheckpoint) (s : Replay) :
    Prop where
  future : ∀ i phase, s.index < i → recordOf done i phase = none
  passed : ∀ phase record, recordOf done s.index phase = some record →
    ∃ j < s.position, s.phases[j]? = some phase
  skipped : ∀ (j : Nat) phase, s.phases[j]? = some phase → j < s.position →
    recordOf done s.index phase = none → skippable phase = true ∧
      ∃ i < j, ∃ failing record, s.phases[i]? = some failing ∧
        recordOf done s.index failing = some record ∧
        failedRecord program s.index failing record = true
  succeeded : s.succeeded = true ↔ ∀ phase record, recordOf done s.index phase = some record →
    failedRecord program s.index phase record = false
  scheduled : ∀ current record state, program.steps[s.index]? = some current →
    recordOf done s.index .before = some record → record.detected = some state →
    program.satisfied current state = false →
      s.phases = [.before] ++ program.mutationPhases current state ++
        (if program.intent = .detect then [] else [.after])
  concluded : ∀ current (j : Nat) phase record state, program.steps[s.index]? = some current →
    s.phases[j]? = some phase → phase.isObservation = true → phase ≠ .removalAfter →
    recordOf done s.index phase = some record → record.detected = some state →
    program.satisfied current state = true →
    (∀ i < j, ∀ earlier record, s.phases[i]? = some earlier →
      recordOf done s.index earlier = some record →
        failedRecord program s.index earlier record = false) → s.canComplete = true
  shaped : ∀ phase record, recordOf done s.index phase = some record →
    RecordShape program s.index phase record

section StepRecords
variable {program : SoftwareProgram} {p : SoftwareProgress} {s s' : Replay}
  {done : List SoftwareCheckpoint} {phase : SoftwarePhase}

theorem StepRecords.fresh {index output duration : Nat}
    (future : ∀ i phase, index ≤ i → recordOf done i phase = none) :
    StepRecords program done
      { Replay.initial with index := index, output := output, duration := duration } := by
  have none : ∀ phase, recordOf done index phase = none := fun phase => future index phase (by omega)
  refine ⟨fun i phase later => future i phase (Nat.le_of_lt later), ?_, ?_, ?_, ?_, ?_, ?_⟩
  · intro phase record found
    rw [none] at found
    cases found
  · intro j phase _ early
    exact absurd early (Nat.not_lt_zero j)
  · refine ⟨fun _ phase record found => ?_, fun _ => rfl⟩
    rw [none] at found
    cases found
  · intro current record state _ found
    rw [none] at found
    cases found
  · intro current j phase record state _ _ _ _ found
    rw [none] at found
    cases found
  · intro phase record found
    rw [none] at found
    cases found

theorem StepRecords.unrecorded (sound : ReplaySound program s)
    (records : StepRecords program done s) {k : Nat} (ahead : s.position ≤ k)
    (here : s.phases[k]? = some phase) : recordOf done s.index phase = none := by
  cases found : recordOf done s.index phase with
  | none => rfl
  | some record =>
    obtain ⟨j, early, there⟩ := records.passed phase record found
    have mem : phase ∈ s.phases.drop (j + 1) := by
      apply List.mem_of_getElem? (i := k - (j + 1))
      rw [List.getElem?_drop, show j + 1 + (k - (j + 1)) = k by omega]
      exact here
    exact absurd mem (not_mem_drop_of_nodup sound.layout.nodup there)

theorem skippable_of_passed {j : Nat} {passed : SoftwarePhase} (here : s.phases[j]? = some passed)
    (behind : s.position ≤ j) (before : j < skipFailed s phase) :
    skippable passed = true ∧ s.succeeded = false := by
  unfold skipFailed at before
  split at before
  · next failed =>
    simp only [Bool.and_eq_true, Bool.not_eq_true'] at failed
    refine ⟨?_, failed.1⟩
    have inside : j - s.position < ((s.phases.drop s.position).takeWhile skippable).length := by omega
    have found : (s.phases.drop s.position)[j - s.position]? = some passed := by
      rw [List.getElem?_drop, show s.position + (j - s.position) = j by omega]
      exact here
    have same := (List.takeWhile_prefix skippable).getElem inside
    obtain ⟨_, value⟩ := List.getElem?_eq_some_iff.mp found
    rw [value] at same
    exact List.mem_takeWhile_imp (same ▸ List.getElem_mem inside)
  · omega

theorem phases_unique (sound : ReplaySound program s) {i j : Nat} (first : s.phases[i]? = some phase)
    (second : s.phases[j]? = some phase) : i = j :=
  (List.getElem?_inj (List.getElem?_eq_some_iff.mp first).1 sound.layout.nodup).mp
    (first.trans second.symm)

theorem StepRecords.started (records : StepRecords program done s)
    (incomplete : s.canComplete = false) :
    StepRecords program (done ++ [.started s.index phase])
      { s with position := skipFailed s phase, pending := some phase } := by
  have same : ∀ i g, recordOf (done ++ [.started s.index phase]) i g = recordOf done i g :=
    fun i g => recordOf_append_other rfl
  refine ⟨?_, ?_, ?_, ?_, ?_, ?_, ?_⟩
  · intro i g later
    rw [same]
    exact records.future i g later
  · intro g record found
    rw [same] at found
    obtain ⟨j, early, there⟩ := records.passed g record found
    exact ⟨j, Nat.lt_of_lt_of_le early (position_le_skipFailed s phase), there⟩
  · intro j g here early none
    simp only [same] at none ⊢
    by_cases old : j < s.position
    · exact records.skipped j g here old none
    · have behind := Nat.le_of_not_lt old
      obtain ⟨skip, failed⟩ := skippable_of_passed (s := s) here behind early
      refine ⟨skip, ?_⟩
      -- the failed flag comes from a record, which lies before the position
      have failing := mt records.succeeded.mpr (by simp [failed])
      push Not at failing
      obtain ⟨g, record, found, bad⟩ := failing
      obtain ⟨i, before, there⟩ := records.passed g record found
      exact ⟨i, by omega, g, record, there, found, Bool.eq_true_of_not_eq_false bad⟩
  · simp only [same]
    exact records.succeeded
  · simp only [same]
    exact records.scheduled
  · intro current j g record state found here observation removal recorded detected satisfied quiet
    simp only [same] at recorded quiet
    have complete := records.concluded current j g record state found here observation removal
      recorded detected satisfied quiet
    exact absurd (incomplete.symm.trans complete) (by simp)
  · simp only [same]
    exact records.shaped

/-- The parts of an end record that observations and operations share. -/
structure EndsStep (program : SoftwareProgram) (s s' : Replay) (phase : SoftwarePhase)
    (record : PhaseRecord) : Prop where
  pending : s.pending = some phase
  index : s'.index = s.index
  position : s'.position = s.position + 1
  phases : ∃ added, s'.phases = s.phases ++ added
  shaped : RecordShape program s.index phase record
  succeeded : s'.succeeded = (s.succeeded && !failedRecord program s.index phase record)
  scheduled : ∀ current state, program.steps[s.index]? = some current → phase = .before →
    record.detected = some state → program.satisfied current state = false →
      s'.phases = [.before] ++ program.mutationPhases current state ++
        (if program.intent = .detect then [] else [.after])
  unscheduled : phase ≠ .before → s'.phases = s.phases
  concluded : ∀ current state, program.steps[s.index]? = some current →
    phase.isObservation = true → phase ≠ .removalAfter → record.detected = some state →
    program.satisfied current state = true → s.succeeded = true → s'.canComplete = true

theorem StepRecords.ended (sound : ReplaySound program s) (later : ReplaySound program s')
    (records : StepRecords program done s)
    {record : PhaseRecord} (ends : EndsStep program s s' phase record) :
    StepRecords program
      (done ++ [.ended record.durationMs s.index phase record.process record.detected
        record.quiescent]) s' := by
  have here := sound.pending phase ends.pending
  have fresh := records.unrecorded sound (Nat.le_refl _) here
  have other : ∀ i g, ¬ (s.index = i ∧ phase = g) → recordOf (done ++ [.ended record.durationMs
      s.index phase record.process record.detected record.quiescent]) i g = recordOf done i g := by
    intro i g different
    rw [recordOf_append_ended, if_neg different, Option.or_none]
  have own : recordOf (done ++ [.ended record.durationMs s.index phase record.process
      record.detected record.quiescent]) s.index phase = some record := by
    rw [recordOf_append_ended, if_pos ⟨rfl, rfl⟩, fresh]
    rfl
  obtain ⟨added, grown⟩ := ends.phases
  have kept : ∀ {j : Nat} {g : SoftwarePhase}, s.phases[j]? = some g → s'.phases[j]? = some g := by
    intro j g there
    rw [grown, List.getElem?_append_left (List.getElem?_eq_some_iff.mp there).1]
    exact there
  have incomplete : s.canComplete ≠ true := by
    intro complete
    have idle := (sound.completable complete).2.2.1
    rw [ends.pending] at idle
    cases idle
  have inside := (List.getElem?_eq_some_iff.mp here).1
  have back : ∀ {j : Nat} {g : SoftwarePhase}, s'.phases[j]? = some g → j ≤ s.position →
      s.phases[j]? = some g := by
    intro j g there early
    rw [grown, List.getElem?_append_left (by omega)] at there
    exact there
  refine ⟨?_, ?_, ?_, ?_, ?_, ?_, ?_⟩
  · intro i g later
    rw [ends.index] at later
    rw [other i g (by omega)]
    exact records.future i g later
  · intro g r found
    rw [ends.index] at found
    rw [ends.position]
    by_cases same : phase = g
    · exact ⟨s.position, by omega, same ▸ kept here⟩
    · rw [other _ g (by simp [same])] at found
      obtain ⟨j, early, there⟩ := records.passed g r found
      exact ⟨j, by omega, kept there⟩
  · intro j g there early none
    rw [ends.index] at none ⊢
    rw [ends.position] at early
    have old := back there (by omega)
    by_cases same : phase = g
    · subst same
      rw [own] at none
      cases none
    · rw [other _ g (by simp [same])] at none
      have before : j < s.position := by
        have different : j ≠ s.position := by
          rintro rfl
          exact same (Option.some.inj (here.symm.trans old))
        omega
      obtain ⟨skip, i, earlier, f, r, at_, found, bad⟩ := records.skipped j g old before none
      refine ⟨skip, i, earlier, f, r, kept at_, ?_, bad⟩
      rw [other _ f]
      · exact found
      · rintro ⟨-, rfl⟩
        rw [fresh] at found
        cases found
  · rw [ends.succeeded, Bool.and_eq_true, Bool.not_eq_true', records.succeeded, ends.index]
    constructor
    · rintro ⟨earlier, last⟩ g r found
      by_cases same : phase = g
      · subst same
        rw [own] at found
        cases found
        exact last
      · rw [other _ g (by simp [same])] at found
        exact earlier g r found
    · intro all
      refine ⟨fun g r found => all g r ?_, all phase record own⟩
      rw [other _ g]
      · exact found
      · rintro ⟨-, rfl⟩
        rw [fresh] at found
        cases found
  · intro current r state found recorded detected unsatisfied
    rw [ends.index] at found recorded
    by_cases same : phase = .before
    · subst same
      rw [own] at recorded
      cases recorded
      exact ends.scheduled current state found rfl detected unsatisfied
    · rw [other _ .before (by simp [same])] at recorded
      rw [ends.unscheduled same]
      exact records.scheduled current r state found recorded detected unsatisfied
  · intro current j g r state found there observation removal recorded detected satisfied quiet
    rw [ends.index] at found recorded quiet
    by_cases same : phase = g
    · subst same
      rw [own] at recorded
      cases recorded
      refine ends.concluded current state found observation removal detected satisfied ?_
      rw [records.succeeded]
      intro f r earlier
      obtain ⟨i, early, at_⟩ := records.passed f r earlier
      have position : j = s.position := phases_unique later there (kept here)
      refine quiet i (by omega) f r (kept at_) ?_
      rw [other _ f]
      · exact earlier
      · rintro ⟨-, rfl⟩
        rw [fresh] at earlier
        cases earlier
    · rw [other _ g (by simp [same])] at recorded
      obtain ⟨i, early, at_⟩ := records.passed g r recorded
      have position : i = j := phases_unique later (kept at_) there
      subst position
      have complete := records.concluded current i g r state found at_ observation removal recorded
        detected satisfied ?_
      · exact absurd complete incomplete
      · intro k less f r' there' found'
        refine quiet k less f r' (kept there') ?_
        rw [other _ f]
        · exact found'
        · rintro ⟨-, rfl⟩
          rw [fresh] at found'
          cases found'
  · intro g r found
    rw [ends.index] at found ⊢
    by_cases same : phase = g
    · subst same
      rw [own] at found
      cases found
      exact ends.shaped
    · rw [other _ g (by simp [same])] at found
      exact records.shaped g r found

theorem EndsStep.of_observed {current : SoftwareProgramStep} {durationMs : Nat}
    {process : Option ProcessEvidence} {state : SoftwareState} (sound : ReplaySound program s)
    (quiet : s.quiet = true) (found : program.steps[s.index]? = some current)
    (pending : s.pending = some phase) (observation : phase.isObservation = true)
    (known : state.isUnknown = false) (removed : phase = .removalAfter → state = .absent) :
    EndsStep program s (observed program current (accounted s durationMs process true) phase state)
      phase ⟨⟨process, some state, true⟩, durationMs⟩ where
  pending := pending
  index := rfl
  position := rfl
  phases := by
    rw [observed_phases]
    split
    · exact ⟨_, List.append_assoc _ _ _⟩
    · exact ⟨[], (List.append_nil _).symm⟩
  shaped :=
    { quiescent := rfl
      observation := fun _ => ⟨state, rfl, known, removed⟩
      operation := fun operation => by
        rw [observation] at operation
        cases operation }
  succeeded := by simp [observed, accounted, failedRecord, observation]
  scheduled := by
    rintro current' state' found' rfl ⟨⟩ unsatisfied
    cases found.symm.trans found'
    have first := sound.layout.before_first (sound.pending _ pending)
    rw [observed_phases, if_pos ⟨rfl, by simp [observed, unsatisfied]⟩, ← sound.fresh first]
    rfl
  unscheduled other := by
    rw [observed_phases, if_neg (by simp [other])]
    rfl
  concluded := by
    rintro current' state' found' - removal ⟨⟩ satisfied succeeded
    cases found.symm.trans found'
    simp [observed, accounted, removal, quiet, succeeded, satisfied]

theorem EndsStep.of_operated {current : SoftwareProgramStep} {durationMs : Nat}
    {facts : ProcessEvidence} {command : SoftwareInvocation}
    (found : program.steps[s.index]? = some current) (pending : s.pending = some phase)
    (invocation : program.invocation s.index phase = some command)
    (operation : phase.isObservation = false) :
    EndsStep program s { accounted s durationMs (some facts) true with
      succeeded := s.succeeded && command.succeeded facts current.allowReboot }
      phase ⟨⟨some facts, none, true⟩, durationMs⟩ where
  pending := pending
  index := rfl
  position := rfl
  phases := ⟨[], (List.append_nil _).symm⟩
  shaped :=
    { quiescent := rfl
      observation := fun observation => by
        rw [operation] at observation
        cases observation
      operation := fun _ => ⟨rfl, facts, command, rfl, invocation⟩ }
  succeeded := by simp [failedRecord, operation, operationSucceeded, found, invocation]
  scheduled := by
    rintro _ _ _ rfl
    cases operation
  unscheduled _ := rfl
  concluded := by
    intro _ _ _ observation
    rw [operation] at observation
    cases observation

theorem StepRecords.completed (records : StepRecords program done s) :
    StepRecords program (done ++ [.complete s.index])
      { Replay.initial with index := s.index + 1, output := s.output, duration := s.duration } := by
  apply StepRecords.fresh
  intro i g later
  rw [recordOf_append_other rfl]
  exact records.future i g later

theorem Replayed.records (shape : ProgramShape program) (run : Replayed program p done s)
    (resumable : ∀ c ∈ done, SoftwareCheckpoint.resumableRecord c = true) :
    s.quiet = true ∧ StepRecords program done s := by
  induction run with
  | refl => exact ⟨rfl, StepRecords.fresh fun _ _ _ => rfl⟩
  | next earlier h ih =>
    have sound := earlier.sound shape
    have later := sound.advance shape h
    obtain ⟨quiet, records⟩ := ih fun c mem => resumable c (List.mem_append_left _ mem)
    have last := resumable _ (List.mem_append_right _ (List.mem_singleton_self _))
    cases h with
    | started found idle incomplete next => exact ⟨quiet, records.started incomplete⟩
    | @observed current durationMs phase process state quiescent found pending account observation
        known removed =>
      obtain rfl : quiescent = true := (Bool.and_eq_true_iff.mp last).1
      refine ⟨by simp [observed, accounted, quiet], ?_⟩
      exact records.ended sound later
        (EndsStep.of_observed sound quiet found pending observation known removed)
    | operated found pending invocation account operation =>
      refine ⟨by simp [accounted, quiet], ?_⟩
      exact records.ended sound later (EndsStep.of_operated found pending invocation operation)
    | completed found idle canComplete => exact ⟨rfl, records.completed⟩

end StepRecords

end RssMdmAgent.RunnerRecords
