import RssMdmAgent.TransitionRuns
import RssMdmAgent.RunnerRecords

set_option autoImplicit false

/-! # The runner thread follows the history validator -/

namespace RssMdmAgent.RunnerWalk
open BoundedArithmetic ContractIdentity ContractProcess ProgramInstructions ContractPlan PlanShape
open ProgressHistory ProgressValidity ProgressReplay ProgressLayout ProgressRuns
open RunnerProgram RunnerRecords TransitionRuns ApplicationModel

def elapsedAt (run : ProgramRun) (time : Nat) : Nat := run.priorElapsed + time / 1000000

def ordered (clock : Nat) : Move → Prop
  | .chosen gate => clock ≤ gate.now ∧ gate.now ≤ gate.committed
  | .acknowledged time => clock ≤ time
  | .observed _ gate _ ended => clock ≤ ended ∧ ended ≤ gate.committed
  | .invoked _ ended committed => clock ≤ ended ∧ ended ≤ committed
  | _ => True

/-- What every evidence of an invocation satisfies, however the process ended. -/
structure InvocationFacts (run : ProgramRun) (cap : Nat) (process : ProcessEvidence) : Prop where
  attempt : process.attemptId = run.attempt
  digest : process.contentDigest = run.plan.digest
  runner : process.runner = run.runner
  finished : process.finished = true
  capped : saturatingAdd process.stdout.length process.stderr.length ≤ cap
  counted : saturatingAdd process.stdout.length process.stderr.length ≤ process.totalOutputBytes

def evidenceFor (run : ProgramRun) : Control → Move → Prop
  | .running _ cap, .invoked (.ok process) _ _ => InvocationFacts run cap process
  | _, _ => True

structure Admissible (run : ProgramRun) (st : RunState) (move : Move) : Prop where
  ordered : ordered st.clock move
  evidence : evidenceFor run st.control move

instance (clock : Nat) (move : Move) : Decidable (RunnerWalk.ordered clock move) :=
  match move with
  | .chosen _ | .observed .. | .invoked .. => inferInstanceAs (Decidable (_ ∧ _))
  | .acknowledged time => inferInstanceAs (Decidable (clock ≤ time))
  | .verified _ | .abandoned _ | .started _ => inferInstanceAs (Decidable True)

instance (run : ProgramRun) (cap : Nat) (process : ProcessEvidence) :
    Decidable (InvocationFacts run cap process) :=
  decidable_of_iff (process.attemptId = run.attempt ∧ process.contentDigest = run.plan.digest ∧
      process.runner = run.runner ∧ process.finished = true ∧
      saturatingAdd process.stdout.length process.stderr.length ≤ cap ∧
      saturatingAdd process.stdout.length process.stderr.length ≤ process.totalOutputBytes)
    ⟨fun h => ⟨h.1, h.2.1, h.2.2.1, h.2.2.2.1, h.2.2.2.2.1, h.2.2.2.2.2⟩,
      fun h => ⟨h.attempt, h.digest, h.runner, h.finished, h.capped, h.counted⟩⟩

instance (run : ProgramRun) (control : Control) (move : Move) :
    Decidable (evidenceFor run control move) := by
  unfold evidenceFor
  split <;> infer_instance

instance (run : ProgramRun) (st : RunState) (move : Move) : Decidable (Admissible run st move) :=
  decidable_of_iff (RunnerWalk.ordered st.clock move ∧ evidenceFor run st.control move)
    ⟨fun h => ⟨h.1, h.2⟩, fun h => ⟨h.ordered, h.evidence⟩⟩

def RunnerStep (host : RunnerHost) (run : ProgramRun) (st : RunState) (move : Move)
    (st' : RunState) : Prop :=
  Admissible run st move ∧ st.advance host run move = some st'

def Resumes (run : ProgramRun) : Prop :=
  ∀ p, run.previous = some p → p.validFor run.plan = true ∧ p.resumable run.plan = true ∧
    p.attemptId = run.attempt ∧ p.runner = run.runner

def skipsRemoval (st : RunState) : Bool :=
  match st.control, st.phases with
  | .choosing, .removal :: _ => st.failedMutation
  | _, _ => false

def RemovalKept (run : ProgramRun) (st : RunState) : Prop :=
  skipsRemoval st = true → (recordOf run.prior st.index .removal).isSome = true

instance (run : ProgramRun) (st : RunState) : Decidable (RemovalKept run st) :=
  inferInstanceAs (Decidable (_ → _))

def committedAt : Move → Nat
  | .chosen gate => gate.committed
  | .acknowledged time => time
  | .observed _ gate _ _ => gate.committed
  | .invoked _ _ committed => committed
  | _ => 0

def producedBytes : Move → Nat
  | .invoked (.ok process) _ _ => process.totalOutputBytes
  | _ => 0

structure Fits (run : ProgramRun) (st : RunState) (move : Move) : Prop where
  elapsed : elapsedAt run (committedAt move) ≤ maxWord
  output : st.journal.outputBytes + producedBytes move ≤ maxWord

instance (run : ProgramRun) (st : RunState) (move : Move) : Decidable (Fits run st move) :=
  decidable_of_iff (elapsedAt run (committedAt move) ≤ maxWord ∧
      st.journal.outputBytes + producedBytes move ≤ maxWord)
    ⟨fun h => ⟨h.1, h.2⟩, fun h => ⟨h.elapsed, h.output⟩⟩

/-- The journal is an accepted history. A stored history may end with a removal that was observed
to have failed; such a `halt` record is never followed by another one. -/
structure JournalSound (run : ProgramRun) (st : RunState) (done : List SoftwareCheckpoint)
    (s : Replay) (halt : Option SoftwareCheckpoint) (time : Nat) : Prop where
  replayed : Replayed run.program st.journal done s
  records : st.journal.checkpoints = done ++ halt.toList
  resumable : ∀ c ∈ done, SoftwareCheckpoint.resumableRecord c = true
  attempt : st.journal.attemptId = run.attempt
  digest : st.journal.contentDigest = run.plan.digest
  runner : st.journal.runner = run.runner
  stored : run.prior <+: st.journal.checkpoints
  output : halt = none → s.output = st.journal.outputBytes
  duration : s.duration ≤ elapsedAt run time
  elapsed : st.journal.elapsedMs ≤ elapsedAt run st.clock
  halted : ∀ c, halt = some c → s.pending = some .removalAfter ∧ ∃ (r : PhaseRecord)
    (state : SoftwareState), c = .ended r.durationMs s.index .removalAfter r.process r.detected r.quiescent ∧
      r.quiescent = true ∧ r.detected = some state ∧ state ≠ .absent

/-- The variables of the thread inside a step agree with the records of its consumed phases. -/
structure StepVars (run : ProgramRun) (st : RunState) (done : List SoftwareCheckpoint)
    (s : Replay) (halt : Option SoftwareCheckpoint) (consumed queue : List SoftwarePhase) :
    Prop where
  index : st.index = s.index
  layout : (consumed = [] ∧ queue = [.before] ∧ st.before = none) ∨
    (consumed ≠ [] ∧ s.phases = consumed ++ queue ∧ .after ∈ queue ∧ st.before.isSome = true)
  halted : halt ≠ none → .removalAfter ∉ consumed
  passed : ∀ phase ∈ consumed, recordOf done st.index phase ≠ none ∨
    (skippable phase = true ∧ st.failedMutation = true ∧ phase ≠ .removal)
  flags : st.mutationSucceeded = true ↔ ∀ phase ∈ consumed, ∀ record,
    recordOf done st.index phase = some record →
      failedRecord run.program st.index phase record = false
  failed : st.failedMutation = !st.mutationSucceeded
  quiescent : st.stepQuiescent = true

def Kept (run : ProgramRun) (st : RunState) (taken : List SoftwarePhase) : Prop :=
  ∀ phase ∉ taken, recordOf st.journal.checkpoints st.index phase =
    recordOf run.prior st.index phase

/-- Between two phases. -/
structure Idle (run : ProgramRun) (st : RunState) (done : List SoftwareCheckpoint) (s : Replay)
    (halt : Option SoftwareCheckpoint) (consumed : List SoftwarePhase) : Prop where
  journal : JournalSound run st done s halt st.clock
  vars : StepVars run st done s halt consumed st.phases
  kept : Kept run st consumed
  idle : halt = none → s.pending = none

/-- Inside a phase whose begin record has been handed out. -/
structure Live (run : ProgramRun) (st : RunState) (phase : SoftwarePhase)
    (done : List SoftwareCheckpoint) (s : Replay) (consumed : List SoftwarePhase) : Prop where
  journal : JournalSound run st done s none st.phaseStarted
  vars : StepVars run st done s none consumed (phase :: st.phases)
  kept : Kept run st consumed
  pending : s.pending = some phase
  position : s.position = consumed.length
  started : st.phaseStarted ≤ st.clock

/-- The facts of a phase are retained and the thread decides what follows. -/
structure Concluding (run : ProgramRun) (st : RunState) (phase : SoftwarePhase) (facts : PhaseFacts)
    (done : List SoftwareCheckpoint) (s : Replay) (halt : Option SoftwareCheckpoint)
    (consumed : List SoftwarePhase) : Prop where
  journal : JournalSound run st done s halt st.clock
  vars : StepVars run st done s halt consumed (phase :: st.phases)
  kept : Kept run st (consumed ++ [phase])
  recorded : ∃ durationMs, recordOf done st.index phase = some ⟨facts, durationMs⟩
  here : s.phases[consumed.length]? = some phase
  idle : halt = none → s.pending = none

def stops (phase : SoftwarePhase) (facts : PhaseFacts) : Bool :=
  !facts.quiescent ||
    match facts.detected with
    | none => false
    | some state => state.isUnknown || (phase == .removalAfter && state ≠ .absent)

/-- The invariant of the thread, by its control. -/
def SoundState (run : ProgramRun) (st : RunState) : Prop :=
  match st.control with
  | .opening => ∃ done s halt, st.phases = [.before] ∧ Idle run st done s halt []
  | .choosing => ∃ done s halt consumed, Idle run st done s halt consumed
  | .beginning phase | .starting phase => ∃ done s consumed, Live run st phase done s consumed
  | .running phase cap => (∃ done s consumed, Live run st phase done s consumed) ∧
    ∃ command, run.program.invocation st.index phase = some command ∧ cap ≤ command.outputBytes
  | .ending phase facts => st.journal.validFor run.plan = true ∧
    (stops phase facts = true ∨ ∃ done s consumed, Concluding run st phase facts done s none consumed)
  | .completing => st.journal.validFor run.plan = true ∧ ∃ done s,
    JournalSound run st done s none st.clock ∧ s.index = st.index + 1 ∧ s.pending = none ∧
      s.position = 0
  | .finished _ => True

section Journal
variable {run : ProgramRun} {st st' : RunState} {done : List SoftwareCheckpoint} {s s' : Replay}
  {halt : Option SoftwareCheckpoint} {time : Nat}

theorem Replayed.index_le {program : SoftwareProgram} {p : SoftwareProgress}
    (run : Replayed program p done s) : s.index ≤ program.steps.length := by
  induction run with
  | refl => exact Nat.zero_le _
  | next _ h ih =>
    cases h with
    | started | observed | operated => exact ih
    | completed found => exact (List.getElem?_eq_some_iff.mp found).1

theorem Replayed.room {program : SoftwareProgram} {p : SoftwareProgress}
    (shape : ProgramShape program) (run : Replayed program p done s) :
    done.length + s.pending.toList.length ≤ program.steps.length * 17 := by
  have length := Replayed.length_le shape run
  have inside := Replayed.position_le shape run
  have sound := run.sound shape
  have short := StepLayout.length_le sound.layout
  have steps := Replayed.index_le run
  cases found : s.pending with
  | none =>
    simp only [found, Option.toList_none, List.length_nil] at length ⊢
    rcases Nat.lt_or_eq_of_le steps with more | last
    · omega
    · have start := (sound.beyond (Nat.le_of_eq last.symm)).2.2
      omega
  | some phase =>
    have here := (List.getElem?_eq_some_iff.mp (sound.pending phase found)).1
    simp only [found, Option.toList_some, List.length_singleton] at length ⊢
    rcases Nat.lt_or_eq_of_le steps with more | last
    · omega
    · have idle := (sound.beyond (Nat.le_of_eq last.symm)).1
      rw [found] at idle
      cases idle

theorem valid_of_accepted {p : SoftwareProgress} (digest : p.contentDigest = run.plan.digest)
    (accepted : Accepted run.program p p.checkpoints)
    (length : p.checkpoints.length ≤ run.program.steps.length * 17) :
    p.validFor run.plan = true := by
  have business : ∀ c ∈ p.checkpoints, c.isRecovery = false := by
    generalize same : p.checkpoints = cps at accepted
    cases accepted with
    | advanced replayed => exact replayed.business
    | finished replayed h =>
      intro c mem
      rcases List.mem_append.mp mem with mem | mem
      · exact replayed.business c mem
      · rw [List.mem_singleton.mp mem]
        cases h <;> rfl
  exact (valid_of_business run.software business).mpr
    ⟨digest, Nat.le_add_right_of_le length, replay_of_accepted accepted⟩

theorem JournalSound.valid (sound : JournalSound run st done s none time) :
    st.journal.validFor run.plan = true := by
  have records := sound.records
  rw [Option.toList_none, List.append_nil] at records
  refine valid_of_accepted sound.digest ?_ ?_
  · rw [records]
    exact .advanced sound.replayed (sound.output rfl)
  · have room := Replayed.room (frozen_shape run.software) sound.replayed
    rw [records]
    omega

theorem elapsedAt_mono {earlier later : Nat} (h : earlier ≤ later) :
    elapsedAt run earlier ≤ elapsedAt run later :=
  Nat.add_le_add_left (Nat.div_le_div_right h) _

theorem handed_elapsed (fits : elapsedAt run time ≤ maxWord) :
    saturatingAdd run.priorElapsed (millis time) = elapsedAt run time := by
  unfold elapsedAt at fits ⊢
  unfold saturatingAdd millis
  omega

theorem commit_journal (record : SoftwareCheckpoint) (control : Control)
    (fits : elapsedAt run time ≤ maxWord) : (st.commit run record control time).journal =
      { st.journal with
        checkpoints := st.journal.checkpoints ++ [record], elapsedMs := elapsedAt run time } := by
  rw [RunState.commit, handed_elapsed fits]

theorem JournalSound.push {record : SoftwareCheckpoint} {later : Nat}
    (sound : JournalSound run st done s none time) (same : SameOwner st.journal st'.journal)
    (h : Advances run.program st'.journal s record s')
    (resumable : SoftwareCheckpoint.resumableRecord record = true)
    (records : st'.journal.checkpoints = st.journal.checkpoints ++ [record])
    (output : s'.output = st'.journal.outputBytes) (duration : s'.duration ≤ elapsedAt run later)
    (elapsed : st'.journal.elapsedMs ≤ elapsedAt run st'.clock) :
    JournalSound run st' (done ++ [record]) s' none later where
  replayed := .next (Replayed.later same sound.replayed) h
  records := by
    rw [records, sound.records]
    simp
  resumable c mem := by
    rcases List.mem_append.mp mem with mem | mem
    · exact sound.resumable c mem
    · rw [List.mem_singleton.mp mem]
      exact resumable
  attempt := same.attempt.trans sound.attempt
  digest := same.digest.trans sound.digest
  runner := same.runner.trans sound.runner
  stored := by
    rw [records]
    exact sound.stored.trans (List.prefix_append _ _)
  output _ := output
  duration := duration
  elapsed := elapsed
  halted _ h := by cases h

theorem JournalSound.facts (sound : JournalSound run st done s halt time) :
    ReplaySound run.program s ∧ s.quiet = true ∧ StepRecords run.program done s := by
  have shape := frozen_shape run.software
  exact ⟨sound.replayed.sound shape, Replayed.records shape sound.replayed sound.resumable⟩

theorem JournalSound.recorded (sound : JournalSound run st done s halt time)
    {phase : SoftwarePhase} (other : halt = none ∨ phase ≠ .removalAfter) :
    recordOf st.journal.checkpoints s.index phase = recordOf done s.index phase := by
  rw [sound.records]
  cases found : halt with
  | none => rw [Option.toList_none, List.append_nil]
  | some c =>
    obtain ⟨-, r, state, rfl, -⟩ := sound.halted c found
    have different : phase ≠ .removalAfter := other.resolve_left (by simp [found])
    rw [Option.toList_some, recordOf_append_ended, if_neg (by simp [different.symm]), Option.or_none]

end Journal

section Conclusion
variable {host : RunnerHost} {run : ProgramRun} {step : SoftwareProgramStep} {st st' : RunState}
  {phase : SoftwarePhase} {facts : PhaseFacts} {done : List SoftwareCheckpoint} {s : Replay}
  {halt : Option SoftwareCheckpoint} {consumed : List SoftwarePhase} {time : Nat}

theorem JournalSound.keep (sound : JournalSound run st done s halt time)
    (journal : st'.journal = st.journal) (clock : st'.clock = st.clock) :
    JournalSound run st' done s halt time where
  replayed := by rw [journal]; exact sound.replayed
  records := by rw [journal]; exact sound.records
  resumable := sound.resumable
  attempt := by rw [journal]; exact sound.attempt
  digest := by rw [journal]; exact sound.digest
  runner := by rw [journal]; exact sound.runner
  stored := by rw [journal]; exact sound.stored
  output := by rw [journal]; exact sound.output
  duration := sound.duration
  elapsed := by rw [journal, clock]; exact sound.elapsed
  halted := sound.halted

theorem Concluding.unhalted (h : Concluding run st phase facts done s halt consumed)
    (halted : halt ≠ none) : phase ≠ .removalAfter := by
  obtain ⟨c, found⟩ := Option.ne_none_iff_exists'.mp halted
  obtain ⟨pending, -⟩ := h.journal.halted c found
  obtain ⟨sound, -, records⟩ := h.journal.facts
  obtain ⟨durationMs, recorded⟩ := h.recorded
  rintro rfl
  rw [h.vars.index, records.unrecorded sound (Nat.le_refl _) (sound.pending _ pending)] at recorded
  cases recorded

/-- The variables after the flags of a concluded phase are updated. -/
theorem Concluding.vars_next (h : Concluding run st phase facts done s halt consumed)
    {queue : List SoftwarePhase} {record : PhaseRecord}
    (recorded : recordOf done st.index phase = some record) (index : st'.index = st.index)
    (layout : s.phases = (consumed ++ [phase]) ++ queue) (last : .after ∈ queue)
    (before : st'.before.isSome = true) (quiescent : st'.stepQuiescent = true)
    (flags : st'.mutationSucceeded =
      (st.mutationSucceeded && !failedRecord run.program st.index phase record))
    (failed : st'.failedMutation = !st'.mutationSucceeded) :
    StepVars run st' done s halt (consumed ++ [phase]) queue where
  index := index.trans h.vars.index
  layout := .inr ⟨by simp, layout, last, before⟩
  halted halted mem := by
    rcases List.mem_append.mp mem with mem | mem
    · exact h.vars.halted halted mem
    · exact h.unhalted halted (List.mem_singleton.mp mem).symm
  passed f mem := by
    rw [index]
    rcases List.mem_append.mp mem with mem | mem
    · rcases h.vars.passed f mem with recorded | ⟨skip, bad, other⟩
      · exact .inl recorded
      · refine .inr ⟨skip, ?_, other⟩
        rw [h.vars.failed, Bool.not_eq_true'] at bad
        rw [failed, flags, bad]
        rfl
    · rw [List.mem_singleton.mp mem, recorded]
      exact .inl (by simp)
  flags := by
    rw [flags, Bool.and_eq_true, Bool.not_eq_true', h.vars.flags, index]
    constructor
    · rintro ⟨earlier, last⟩ f mem r found
      rcases List.mem_append.mp mem with mem | mem
      · exact earlier f mem r found
      · rw [List.mem_singleton.mp mem] at found ⊢
        cases recorded.symm.trans found
        exact last
    · intro all
      exact ⟨fun f mem => all f (List.mem_append_left _ mem),
        all phase (List.mem_append_right _ (List.mem_singleton_self _)) record recorded⟩
  failed := failed
  quiescent := quiescent

theorem Concluding.walked (h : Concluding run st phase facts done s halt consumed)
    (other : phase ≠ .before) : s.phases = (consumed ++ [phase]) ++ st.phases ∧
      st.before.isSome = true ∧ (phase ≠ .after → .after ∈ st.phases) := by
  rcases h.vars.layout with ⟨-, queue, -⟩ | ⟨-, phases, last, before⟩
  · exact absurd (List.cons.inj queue).1 other
  · refine ⟨by rw [phases]; simp, before, fun more => ?_⟩
    rcases List.mem_cons.mp last with same | mem
    · exact absurd same.symm more
    · exact mem

theorem Concluding.canComplete (h : Concluding run st phase facts done s halt consumed)
    (found : run.program.steps[st.index]? = some step) {state : SoftwareState}
    (observation : phase.isObservation = true) (removal : phase ≠ .removalAfter)
    (detected : facts.detected = some state) (satisfied : run.program.satisfied step state = true)
    (flags : st.mutationSucceeded = true) : s.canComplete = true := by
  obtain ⟨sound, -, records⟩ := h.journal.facts
  obtain ⟨durationMs, recorded⟩ := h.recorded
  have index := h.vars.index
  rw [index] at recorded found
  refine records.concluded step consumed.length phase _ state found h.here observation removal
    recorded detected satisfied ?_
  intro i early f r there earlier
  rw [← index] at earlier ⊢
  refine h.vars.flags.mp flags f ?_ r earlier
  rcases h.vars.layout with ⟨none, -⟩ | ⟨-, phases, -⟩
  · rw [none] at early
    exact absurd early (Nat.not_lt_zero i)
  · rw [phases, List.getElem?_append_left early] at there
    exact List.mem_of_getElem? there

theorem Concluding.complete (h : Concluding run st phase facts done s halt consumed)
    (found : run.program.steps[st.index]? = some step) (canComplete : s.canComplete = true)
    (clock : st.clock ≤ time) (fits : elapsedAt run time ≤ maxWord) :
    SoundState run (st.commit run (.complete st.index) .completing time) := by
  obtain ⟨sound, -, records⟩ := h.journal.facts
  have idle := (sound.completable canComplete).2.2.1
  have unhalted : halt = none := by
    cases halted : halt with
    | none => rfl
    | some c =>
      have pending := (h.journal.halted c halted).1
      rw [idle] at pending
      cases pending
  subst unhalted
  have same : SameOwner st.journal (st.commit run (.complete st.index) .completing time).journal := by
    rw [commit_journal _ _ fits]
    exact ⟨rfl, rfl, rfl, Nat.le_trans h.journal.elapsed (elapsedAt_mono clock)⟩
  have index := h.vars.index
  have pushed : JournalSound run (st.commit run (.complete st.index) .completing time)
      (done ++ [.complete st.index])
      { Replay.initial with index := s.index + 1, output := s.output, duration := s.duration } none
      time := by
    refine h.journal.push same ?_ rfl ?_ ?_ ?_ ?_
    · rw [index] at found ⊢
      exact .completed found idle canComplete
    · rw [commit_journal _ _ fits]
    · rw [commit_journal _ _ fits]
      exact h.journal.output rfl
    · exact Nat.le_trans h.journal.duration (elapsedAt_mono clock)
    · rw [commit_journal _ _ fits]
      exact Nat.le_refl _
  exact ⟨pushed.valid, _, _, pushed, by rw [← index]; rfl, rfl, rfl⟩

theorem Concluding.schedule (h : Concluding run st .before facts done s halt consumed)
    (found : run.program.steps[st.index]? = some step) {state : SoftwareState}
    (detected : facts.detected = some state)
    (unsatisfied : run.program.satisfied step state = false)
    (mutations : run.program.mutationPhases step state ≠ []) :
    SoundState run { st with
      phases := st.phases ++ run.program.mutationPhases step state ++ [.after]
      before := some state
      control := .choosing } := by
  obtain ⟨sound, -, records⟩ := h.journal.facts
  obtain ⟨durationMs, recorded⟩ := h.recorded
  have index := h.vars.index
  have first := sound.layout.before_first h.here
  obtain ⟨none, queue⟩ : consumed = [] ∧ st.phases = [] := by
    have none := List.length_eq_zero_iff.mp first
    refine ⟨none, ?_⟩
    rcases h.vars.layout with ⟨-, queue, -⟩ | ⟨some, -⟩
    · exact (List.cons.inj queue).2
    · exact absurd none some
  have changes : run.program.intent ≠ .detect := by
    intro detect
    exact mutations (by simp [SoftwareProgram.mutationPhases, detect])
  have recorded' := recorded
  rw [index] at recorded' found
  have phases := records.scheduled step _ state found recorded' detected unsatisfied
  rw [if_neg changes] at phases
  refine ⟨done, s, halt, consumed ++ [SoftwarePhase.before], h.journal.keep rfl rfl, ?_, h.kept, h.idle⟩
  refine h.vars_next recorded rfl ?_ ?_ rfl h.vars.quiescent ?_ h.vars.failed
  · rw [phases, queue, none]
    simp
  · simp
  · simp [failedRecord, SoftwarePhase.isObservation]

/-- Whatever the facts of a phase are, the decision of the thread keeps the invariant. -/
theorem Concluding.conclude (h : Concluding run st phase facts done s halt consumed)
    (found : run.program.steps[st.index]? = some step) (clock : st.clock ≤ time)
    (fits : elapsedAt run time ≤ maxWord) :
    SoundState run (st.conclude host run step phase facts time) := by
  obtain ⟨sound, -, records⟩ := h.journal.facts
  obtain ⟨durationMs, recorded⟩ := h.recorded
  have index := h.vars.index
  have shape := records.shaped phase _ (index ▸ recorded)
  have quiescent : facts.quiescent = true := shape.quiescent
  unfold RunState.conclude
  simp only [h.vars.quiescent, quiescent, Bool.and_self, Bool.true_eq_false, if_false, true_and]
  cases observation : phase.isObservation with
  | true =>
    obtain ⟨state, detected, known, removed⟩ := shape.observation observation
    have detected : facts.detected = some state := detected
    rw [detected]
    dsimp only
    rw [known, if_neg (by simp), if_neg (by rw [not_and, not_not]; exact removed)]
    split
    · next checks =>
      obtain ⟨removal, satisfied, flags⟩ := checks
      have same : { st with stepQuiescent := true } = st := by
        rw [← h.vars.quiescent]
      rw [same]
      exact h.complete found (h.canComplete found observation removal detected satisfied flags)
        clock fits
    next incomplete =>
    split
    · trivial
    next more =>
    split
    · trivial
    split
    · next before =>
      subst before
      split
      · trivial
      next mutations =>
      have unsatisfied : run.program.satisfied step state = false := by
        by_contra satisfied
        refine incomplete ⟨by decide, Bool.eq_true_of_not_eq_false satisfied, ?_⟩
        rw [h.vars.flags]
        intro f mem r recorded
        have first := List.length_eq_zero_iff.mp (sound.layout.before_first h.here)
        rw [first] at mem
        cases mem
      have scheduled := h.schedule found detected unsatisfied mutations
      rw [← h.vars.quiescent]
      exact scheduled
    · next other =>
      obtain ⟨phases, -, last⟩ := h.walked other
      refine ⟨done, s, halt, consumed ++ [phase], h.journal.keep rfl rfl, ?_, h.kept, h.idle⟩
      refine h.vars_next recorded rfl phases (last more) rfl rfl ?_ h.vars.failed
      simp [failedRecord, observation]
  | false =>
    obtain ⟨detected, process, command, ran, invocation⟩ := shape.operation observation
    have detected : facts.detected = none := detected
    have ran : facts.process = some process := ran
    rw [← index] at invocation
    rw [detected, ran, invocation]
    simp only [Bool.false_eq_true, if_false]
    have other : phase ≠ .before := by
      rintro rfl
      cases observation
    obtain ⟨phases, before, last⟩ := h.walked other
    rw [if_neg (by simpa using Option.isSome_iff_ne_none.mp before)]
    refine ⟨done, s, halt, consumed ++ [phase], h.journal.keep rfl rfl, ?_, h.kept, h.idle⟩
    refine h.vars_next recorded rfl phases (last (by rintro rfl; cases observation)) before rfl ?_ ?_
    · simp [failedRecord, observation, operationSucceeded, found, invocation, ran]
    · simp [h.vars.failed]

end Conclusion

section Choice
variable {host : RunnerHost} {run : ProgramRun} {step : SoftwareProgramStep} {st : RunState}
  {phase : SoftwarePhase} {rest : List SoftwarePhase} {done : List SoftwareCheckpoint} {s : Replay}
  {halt : Option SoftwareCheckpoint} {consumed : List SoftwarePhase}

theorem captured_eq (st : RunState) (step : SoftwareProgramStep) (phase : SoftwarePhase)
    (command : Option SoftwareInvocation) (facts : PhaseFacts) :
    ∃ first latest observed failed, st.captured step command phase facts =
      { st with
        first := first, latest := latest, physicalObserved := observed, physicalFailed := failed } := by
  unfold RunState.captured
  split
  · exact ⟨_, _, _, _, rfl⟩
  · dsimp only
    split
    · exact ⟨_, _, _, _, rfl⟩
    · exact ⟨_, _, _, _, rfl⟩

theorem Idle.next (h : Idle run st done s halt consumed) (queue : st.phases = phase :: rest) :
    s.phases[consumed.length]? = some phase := by
  obtain ⟨sound, -, -⟩ := h.journal.facts
  rcases h.vars.layout with ⟨none, first, -⟩ | ⟨-, phases, -, -⟩
  · rw [queue] at first
    obtain ⟨rfl, -⟩ := List.cons.inj first
    rw [none]
    rcases sound.layout with phases | ⟨muts, final, phases, -⟩ <;> rw [phases] <;> rfl
  · rw [phases, queue]
    simp

theorem Idle.fresh (h : Idle run st done s halt consumed) (queue : st.phases = phase :: rest) :
    phase ∉ consumed := by
  obtain ⟨sound, -, -⟩ := h.journal.facts
  rcases h.vars.layout with ⟨none, -, -⟩ | ⟨-, phases, -, -⟩
  · rw [none]
    exact List.not_mem_nil
  · have nodup := sound.layout.nodup
    rw [phases, queue] at nodup
    intro mem
    exact (List.nodup_append.mp nodup).2.2 phase mem phase List.mem_cons_self rfl

theorem StepVars.failing {queue : List SoftwarePhase}
    (vars : StepVars run st done s halt consumed queue) (failed : st.failedMutation = true) :
    ∃ phase ∈ consumed, ∃ record, recordOf done st.index phase = some record ∧
      failedRecord run.program st.index phase record = true := by
  have flag : ¬ st.mutationSucceeded = true := by
    rw [vars.failed, Bool.not_eq_true'] at failed
    simp [failed]
  rw [vars.flags] at flag
  push Not at flag
  obtain ⟨phase, mem, record, recorded, bad⟩ := flag
  exact ⟨phase, mem, record, recorded, Bool.eq_true_of_not_eq_false bad⟩

theorem soundState_choosing (control : st.control = .choosing)
    (h : Idle run st done s halt consumed) : SoundState run st := by
  unfold SoundState
  rw [control]
  exact ⟨done, s, halt, consumed, h⟩

/-- Skipping an operation after a failure keeps the invariant. -/
theorem Idle.skip (h : Idle run st done s halt consumed) (queue : st.phases = phase :: rest)
    (control : st.control = .choosing) (failed : st.failedMutation = true)
    (skip : skippable phase = true)
    (removal : phase = .removal → (recordOf run.prior st.index .removal).isSome = true) :
    SoundState run { st with phases := rest } := by
  obtain ⟨f, mem, -⟩ := h.vars.failing failed
  have invariant : Idle run { st with phases := rest } done s halt (consumed ++ [phase]) := by
    refine ⟨h.journal.keep rfl rfl, ?_, ?_, h.idle⟩
    · refine ⟨h.vars.index, .inr ?_, ?_, ?_, ?_, h.vars.failed, h.vars.quiescent⟩
      · rcases h.vars.layout with ⟨none, -⟩ | ⟨-, phases, last, before⟩
        · rw [none] at mem
          cases mem
        refine ⟨by simp, by rw [phases, queue]; simp, ?_, before⟩
        rw [queue] at last
        rcases List.mem_cons.mp last with same | last
        · rw [← same] at skip
          cases skip
        · exact last
      · intro halted mem
        rcases List.mem_append.mp mem with mem | mem
        · exact h.vars.halted halted mem
        · rw [← List.mem_singleton.mp mem] at skip
          cases skip
      · intro f mem
        rcases List.mem_append.mp mem with mem | mem
        · exact h.vars.passed f mem
        rw [List.mem_singleton.mp mem]
        by_cases same : phase = .removal
        · subst same
          left
          have stored := removal rfl
          rw [← h.kept _ (h.fresh queue), h.vars.index,
            h.journal.recorded (.inr (by decide))] at stored
          exact Option.isSome_iff_ne_none.mp (h.vars.index ▸ stored)
        · exact .inr ⟨skip, failed, same⟩
      · constructor
        · intro flag
          rw [h.vars.failed, Bool.not_eq_true'] at failed
          exact absurd (failed.symm.trans flag) (by simp)
        · intro all
          exact h.vars.flags.mpr fun f mem => all f (List.mem_append_left _ mem)
    · intro f fresh
      exact h.kept f fun mem => fresh (List.mem_append_left _ mem)
  exact soundState_choosing control invariant

/-- A stored record is concluded as if it had been made now. -/
theorem Idle.replay (h : Idle run st done s halt consumed) (queue : st.phases = phase :: rest)
    (found : run.program.steps[st.index]? = some step) {record : PhaseRecord}
    (stored : recordOf run.prior st.index phase = some record) {time : Nat}
    (clock : st.clock ≤ time) (fits : elapsedAt run time ≤ maxWord) :
    SoundState run (((({ st with phases := rest } : RunState).charged step phase record.durationMs
      record.process).captured step (run.program.invocation st.index phase) phase
        record.toPhaseFacts).conclude host run step phase record.toPhaseFacts time) := by
  obtain ⟨first, latest, observed, failed, same⟩ := captured_eq
    (({ st with phases := rest } : RunState).charged step phase record.durationMs record.process)
    step phase (run.program.invocation st.index phase) record.toPhaseFacts
  rw [same]
  rw [← h.kept phase (h.fresh queue)] at stored
  by_cases halting : halt = none ∨ phase ≠ .removalAfter
  · have recorded : recordOf done st.index phase = some record := by
      rw [h.vars.index, ← h.journal.recorded halting, ← h.vars.index]
      exact stored
    have concluding : Concluding run
        { ({ st with phases := rest } : RunState).charged step phase record.durationMs
            record.process with
          first := first, latest := latest, physicalObserved := observed, physicalFailed := failed }
        phase record.toPhaseFacts done s halt consumed := by
      refine ⟨h.journal.keep rfl rfl, ?_, ?_, ⟨record.durationMs, recorded⟩, h.next queue, h.idle⟩
      · have vars := h.vars
        rw [queue] at vars
        exact ⟨vars.index, vars.layout, vars.halted, vars.passed, vars.flags, vars.failed,
          vars.quiescent⟩
      · intro f fresh
        exact h.kept f fun mem => fresh (List.mem_append_left _ mem)
    exact concluding.conclude found clock fits
  · -- the halting record ends the thread
    rw [not_or, not_not] at halting
    obtain ⟨halted, rfl⟩ := halting
    obtain ⟨c, halted⟩ := Option.ne_none_iff_exists'.mp halted
    obtain ⟨pending, r, state, rfl, quiescent, detected, present⟩ := h.journal.halted c halted
    obtain ⟨sound, -, records⟩ := h.journal.facts
    rw [h.vars.index, h.journal.records, halted, Option.toList_some, recordOf_append_ended,
      if_pos ⟨rfl, rfl⟩, records.unrecorded sound (Nat.le_refl _) (sound.pending _ pending)] at stored
    obtain rfl : r = record := Option.some.inj stored
    unfold RunState.conclude
    simp only [quiescent, detected, Bool.true_eq_false, if_false]
    split
    · trivial
    · rw [if_pos ⟨trivial, present⟩]
      trivial

/-- An unrecorded phase that the thread does not skip is the next one of the validator. -/
theorem Idle.accepted (h : Idle run st done s halt consumed) (queue : st.phases = phase :: rest)
    (stored : recordOf run.prior st.index phase = none)
    (executes : ¬ (st.failedMutation = true ∧ skippable phase = true)) :
    halt = none ∧ s.pending = none ∧ s.canComplete = false ∧
      skipFailed s phase = consumed.length := by
  obtain ⟨sound, quiet, records⟩ := h.journal.facts
  have here := h.next queue
  have fresh : recordOf done s.index phase = none := by
    rw [← h.kept phase (h.fresh queue), h.vars.index, h.journal.records, recordOf_append] at stored
    exact (Option.or_eq_none_iff.mp stored).1
  have prefix_ : ∀ {j : Nat} {f : SoftwarePhase}, j < consumed.length → s.phases[j]? = some f →
      f ∈ consumed := by
    intro j f early there
    rcases h.vars.layout with ⟨none, -⟩ | ⟨-, phases, -, -⟩
    · rw [none] at early
      exact absurd early (Nat.not_lt_zero j)
    · rw [phases, List.getElem?_append_left early] at there
      exact List.mem_of_getElem? there
  have ahead : s.position ≤ consumed.length := by
    by_contra behind
    obtain ⟨skip, i, early, f, record, there, recorded, bad⟩ :=
      records.skipped consumed.length phase here (by omega) fresh
    refine executes ⟨?_, skip⟩
    rw [h.vars.failed, Bool.not_eq_true', Bool.eq_false_iff, ne_eq, h.vars.flags]
    intro all
    rw [← h.vars.index] at recorded bad
    rw [all f (prefix_ early there) record recorded] at bad
    cases bad
  have unhalted : halt = none := by
    cases halted : halt with
    | none => rfl
    | some c =>
      exfalso
      obtain ⟨pending, r, state, rfl, -⟩ := h.journal.halted c halted
      have there := sound.pending _ pending
      rcases Nat.lt_or_eq_of_le ahead with before | same
      · exact h.vars.halted (by simp [halted]) (prefix_ before there)
      · rw [same] at there
        obtain rfl : SoftwarePhase.removalAfter = phase := Option.some.inj (there.symm.trans here)
        rw [← h.kept _ (h.fresh queue), h.vars.index, h.journal.records, halted,
          Option.toList_some, recordOf_append_ended, if_pos ⟨rfl, rfl⟩, fresh] at stored
        cases stored
  refine ⟨unhalted, h.idle unhalted, ?_, ?_⟩
  · by_contra complete
    have none := (sound.completable (Bool.eq_true_of_not_eq_false complete)).2.2.2
    have inside := (List.getElem?_eq_some_iff.mp here).1
    have short := List.drop_eq_nil_iff.mp none
    omega
  rcases Nat.lt_or_eq_of_le ahead with behind | same
  swap
  · rw [← same] at here ⊢
    exact skipFailed_here here
  -- every phase between the position and the next one was skipped by the thread
  have passed : ∀ (j : Nat) f, s.position ≤ j → j < consumed.length → s.phases[j]? = some f →
      skippable f = true ∧ st.failedMutation = true ∧ f ≠ .removal := by
    intro j f from_ to_ there
    refine (h.vars.passed f (prefix_ to_ there)).resolve_left ?_
    rw [h.vars.index, not_not]
    exact records.unrecorded sound from_ there
  have failed : st.failedMutation = true :=
    (passed s.position _ (Nat.le_refl _) behind (List.getElem?_eq_getElem
      (Nat.lt_trans behind (List.getElem?_eq_some_iff.mp here).1))).2.1
  have stops : skippable phase = false :=
    Bool.eq_false_of_not_eq_true fun skip => executes ⟨failed, skip⟩
  refine skipFailed_of_skippable ahead here (fun j f from_ to_ there => (passed j f from_ to_ there).1)
    stops ⟨?_, ?_⟩
  · rw [Bool.eq_false_iff, ne_eq, records.succeeded]
    intro all
    obtain ⟨f, mem, record, recorded, bad⟩ := h.vars.failing failed
    rw [h.vars.index] at recorded bad
    rw [all f record recorded] at bad
    cases bad
  · cases phase with
    | cleanup => exact .inl rfl
    | after => exact .inr rfl
    | before =>
      have first := sound.layout.before_first here
      omega
    | removalAfter =>
      obtain ⟨j, next, there⟩ := StepLayout.removal_before sound.layout here
      exact absurd rfl (passed j _ (by omega) (by omega) there).2.2
    | mutation | removal | upgrade | prepare | attach | stage => cases stops

end Choice

section Records
variable {host : RunnerHost} {run : ProgramRun} {step : SoftwareProgramStep} {st st' : RunState}
  {phase : SoftwarePhase} {rest : List SoftwarePhase} {done : List SoftwareCheckpoint} {s s' : Replay}
  {halt : Option SoftwareCheckpoint} {consumed : List SoftwarePhase}

/-- The begin record that the thread hands out is accepted. -/
theorem Idle.begin (h : Idle run st done s none consumed) (queue : st.phases = phase :: rest)
    (found : run.program.steps[st.index]? = some step) (idle : s.pending = none)
    (incomplete : s.canComplete = false) (skip : skipFailed s phase = consumed.length)
    {now committed : Nat} (before : st.clock ≤ now) (after : now ≤ committed)
    (fits : elapsedAt run committed ≤ maxWord) :
    Live run (({ st with phases := rest, phaseStarted := now } : RunState).commit run
      (.started st.index phase) (.beginning phase) committed) phase
      (done ++ [.started st.index phase])
      { s with position := skipFailed s phase, pending := some phase } consumed := by
  have index := h.vars.index
  have same : ∀ f, recordOf (done ++ [.started st.index phase]) st.index f =
      recordOf done st.index f := fun f => recordOf_append_other rfl
  refine ⟨?_, ?_, ?_, rfl, skip, after⟩
  · refine h.journal.push ?_ ?_ rfl ?_ ?_ ?_ ?_
    · rw [commit_journal _ _ fits]
      exact ⟨rfl, rfl, rfl, Nat.le_trans h.journal.elapsed
        (elapsedAt_mono (Nat.le_trans before after))⟩
    · rw [index] at found ⊢
      exact .started found idle incomplete (by rw [skip]; exact h.next queue)
    · rw [commit_journal _ _ fits]
    · rw [commit_journal _ _ fits]
      exact h.journal.output rfl
    · exact Nat.le_trans h.journal.duration (elapsedAt_mono before)
    · rw [commit_journal _ _ fits]
      exact Nat.le_refl _
  · have vars := h.vars
    rw [queue] at vars
    refine ⟨index, vars.layout, vars.halted, ?_, ?_, vars.failed, vars.quiescent⟩
    · intro f mem
      change recordOf (done ++ [.started st.index phase]) st.index f ≠ none ∨ _
      rw [same]
      exact vars.passed f mem
    · change _ ↔ ∀ f ∈ consumed, ∀ record,
        recordOf (done ++ [.started st.index phase]) st.index f = some record → _
      simp only [same]
      exact vars.flags
  · intro f fresh
    rw [commit_journal _ _ fits]
    change recordOf (st.journal.checkpoints ++ [.started st.index phase]) st.index f = _
    rw [recordOf_append_other rfl]
    exact h.kept f fresh

theorem Idle.choose (h : Idle run st done s halt consumed) (control : st.control = .choosing)
    (found : run.program.steps[st.index]? = some step) (removal : RemovalKept run st) {gate : Gate}
    (before : st.clock ≤ gate.now) (after : gate.now ≤ gate.committed)
    (fits : elapsedAt run gate.committed ≤ maxWord) : SoundState run (st.choose host run step gate) := by
  unfold RunState.choose
  split
  · next queue =>
    exfalso
    rcases h.vars.layout with ⟨-, first, -⟩ | ⟨-, -, last, -⟩
    · rw [queue] at first
      cases first
    · rw [queue] at last
      cases last
  next phase rest queue =>
  dsimp only
  split
  · next skip =>
    rw [Bool.and_eq_true, Bool.and_eq_true] at skip
    refine h.skip queue control skip.1.1 (Bool.and_eq_true_iff.mpr ⟨skip.1.2, skip.2⟩) ?_
    rintro rfl
    exact removal (by rw [skipsRemoval, control, queue]; exact skip.1.1)
  next executes =>
  split
  · next record stored =>
    exact h.replay queue found stored (Nat.le_trans before after) fits
  next stored =>
  split
  · trivial
  split
  · trivial
  obtain ⟨rfl, idle, incomplete, skip⟩ := h.accepted queue stored (by
    rintro ⟨failed, skip⟩
    refine executes ?_
    rw [failed, Bool.true_and]
    exact skip)
  exact ⟨_, _, _, h.begin queue found idle incomplete skip before after fits⟩

/-- What the facts of an executed phase satisfy. -/
structure PhaseChecked (run : ProgramRun) (index : Nat) (phase : SoftwarePhase)
    (facts : PhaseFacts) : Prop where
  physical : (run.program.invocation index phase).isSome = facts.process.isSome
  quiet : ∀ process, facts.process = some process → process.quiescent = facts.quiescent
  bound : ∀ process command, facts.process = some process →
    run.program.invocation index phase = some command →
      InvocationFacts run command.outputBytes process
  observation : phase.isObservation = facts.detected.isSome
  operation : phase.isObservation = false → facts.process.isSome = true

theorem Live.fresh (h : Live run st phase done s consumed) :
    s.phases[consumed.length]? = some phase ∧ phase ∉ consumed ∧
      recordOf done st.index phase = none := by
  obtain ⟨sound, -, records⟩ := h.journal.facts
  have here := sound.pending _ h.pending
  refine ⟨h.position ▸ here, ?_, ?_⟩
  · rcases h.vars.layout with ⟨none, -, -⟩ | ⟨-, phases, -, -⟩
    · rw [none]
      exact List.not_mem_nil
    · have nodup := sound.layout.nodup
      rw [phases] at nodup
      intro mem
      exact (List.nodup_append.mp nodup).2.2 phase mem phase List.mem_cons_self rfl
  · rw [h.vars.index]
    exact records.unrecorded sound (Nat.le_refl _) here

/-- An end record after which the history continues leads to a decision. -/
theorem Live.concluding (h : Live run st phase done s consumed) {record : PhaseRecord}
    (ends : EndsStep run.program s s' phase record)
    (pushed : JournalSound run st' (done ++ [.ended record.durationMs st.index phase record.process
      record.detected record.quiescent]) s' none st'.clock)
    (idle : s'.pending = none) (index : st'.index = st.index) (phases : st'.phases = st.phases)
    (before : st'.before = st.before) (succeeded : st'.mutationSucceeded = st.mutationSucceeded)
    (failed : st'.failedMutation = st.failedMutation) (quiescent : st'.stepQuiescent = st.stepQuiescent)
    (records : st'.journal.checkpoints = st.journal.checkpoints ++
      [.ended record.durationMs st.index phase record.process record.detected record.quiescent]) :
    Concluding run st' phase record.toPhaseFacts
      (done ++ [.ended record.durationMs st.index phase record.process record.detected
        record.quiescent]) s' none consumed := by
  obtain ⟨here, fresh, unrecorded⟩ := h.fresh
  obtain ⟨added, grown⟩ := ends.phases
  have same : ∀ f ≠ phase, recordOf (done ++ [.ended record.durationMs st.index phase record.process
      record.detected record.quiescent]) st.index f = recordOf done st.index f := by
    intro f other
    rw [recordOf_append_ended, if_neg (by simp [other.symm]), Option.or_none]
  refine ⟨pushed, ?_, ?_, ?_, ?_, fun _ => idle⟩
  · rw [phases]
    refine ⟨by rw [index, ends.index]; exact h.vars.index, ?_, ?_, ?_, ?_, ?_, ?_⟩
    · rw [before]
      rcases h.vars.layout with first | ⟨walked, phases, last, before⟩
      · exact .inl first
      · refine .inr ⟨walked, ?_, last, before⟩
        rw [ends.unscheduled, phases]
        rintro rfl
        have zero := h.journal.facts.1.layout.before_first here
        exact walked (List.length_eq_zero_iff.mp zero)
    · intro halted
      exact absurd rfl halted
    · intro f mem
      rw [index, same f (fun equal => fresh (equal ▸ mem)), failed]
      exact h.vars.passed f mem
    · rw [succeeded, h.vars.flags, index]
      constructor
      · intro all f mem r found
        rw [same f (fun equal => fresh (equal ▸ mem))] at found
        exact all f mem r found
      · intro all f mem r found
        refine all f mem r ?_
        rw [same f (fun equal => fresh (equal ▸ mem))]
        exact found
    · rw [failed, succeeded]
      exact h.vars.failed
    · rw [quiescent]
      exact h.vars.quiescent
  · intro f taken
    rw [List.mem_append, List.mem_singleton, not_or] at taken
    rw [records, index, recordOf_append_ended, if_neg (by simp [Ne.symm taken.2]), Option.or_none]
    exact h.kept f taken.1
  · refine ⟨record.durationMs, ?_⟩
    rw [index, recordOf_append_ended, if_pos ⟨rfl, rfl⟩, unrecorded]
    rfl
  · rw [grown, List.getElem?_append_left (List.getElem?_eq_some_iff.mp here).1]
    exact here

end Records

end RssMdmAgent.RunnerWalk
