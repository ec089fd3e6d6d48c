import RssMdmAgent.ProgressLayout

set_option autoImplicit false

/-! # Whole accepted histories and the state of their release scan -/

namespace RssMdmAgent.ProgressRuns
open BoundedArithmetic ContractIdentity ContractProcess ProgramInstructions ContractPlan PlanShape
open ProgressHistory ProgressReplay ProgressLayout

/-- The loop accepted `done` record by record and may still continue. -/
inductive Replayed (program : SoftwareProgram) (p : SoftwareProgress) :
    List SoftwareCheckpoint → Replay → Prop where
  | refl : Replayed program p [] Replay.initial
  | next {done : List SoftwareCheckpoint} {s s' : Replay} {checkpoint : SoftwareCheckpoint}
      (earlier : Replayed program p done s) (h : Advances program p s checkpoint s') :
      Replayed program p (done ++ [checkpoint]) s'

/-- The records of an accepted history: all of them advance, or the last one finishes. -/
inductive Accepted (program : SoftwareProgram) (p : SoftwareProgress) :
    List SoftwareCheckpoint → Prop where
  | advanced {done : List SoftwareCheckpoint} {s : Replay} (run : Replayed program p done s)
      (output : s.output = p.outputBytes) : Accepted program p done
  | finished {done : List SoftwareCheckpoint} {s : Replay} {checkpoint : SoftwareCheckpoint}
      {output : Nat} (run : Replayed program p done s) (h : Finishes program p s checkpoint output)
      (same : output = p.outputBytes) : Accepted program p (done ++ [checkpoint])

section Runs
variable {program : SoftwareProgram} {p : SoftwareProgress}

theorem accepted_of_replay_from (rest : List SoftwareCheckpoint) :
    ∀ {done : List SoftwareCheckpoint} {s : Replay}, Replayed program p done s →
      replay program p s rest = true → Accepted program p (done ++ rest) := by
  induction rest with
  | nil =>
    intro done s run h
    rw [List.append_nil]
    exact .advanced run (beq_iff_eq.mp h)
  | cons checkpoint rest ih =>
    intro done s run h
    unfold replay at h
    split at h
    · cases h
    · next output outcome =>
      rw [Bool.and_eq_true, List.isEmpty_iff, beq_iff_eq] at h
      obtain ⟨rfl, same⟩ := h
      exact .finished run (finishes_of_last outcome) same
    · next s' outcome =>
      rw [show done ++ checkpoint :: rest = (done ++ [checkpoint]) ++ rest by simp]
      exact ih (.next run (advances_of_next outcome)) h

theorem accepted_of_replay {cps : List SoftwareCheckpoint}
    (h : replay program p Replay.initial cps = true) : Accepted program p cps :=
  accepted_of_replay_from cps .refl h

theorem Replayed.sound (shape : ProgramShape program) {done : List SoftwareCheckpoint} {s : Replay}
    (run : Replayed program p done s) : ReplaySound program s := by
  induction run with
  | refl => exact ReplaySound.initial program 0 0 0
  | next _ h ih => exact ih.advance shape h

theorem Replayed.business {done : List SoftwareCheckpoint} {s : Replay}
    (run : Replayed program p done s) : ∀ c ∈ done, c.isRecovery = false := by
  induction run with
  | refl => intro c mem; cases mem
  | next _ h ih =>
    intro c mem
    rcases List.mem_append.mp mem with mem | mem
    · exact ih c mem
    · rw [List.mem_singleton.mp mem]
      cases h <;> rfl

theorem Replayed.completeCount {done : List SoftwareCheckpoint} {s : Replay}
    (run : Replayed program p done s) :
    done.countP SoftwareCheckpoint.isComplete = s.index := by
  induction run with
  | refl => rfl
  | next _ h ih =>
    rw [List.countP_append, ih]
    cases h <;> rfl

theorem Replayed.last {done : List SoftwareCheckpoint} {checkpoint : SoftwareCheckpoint}
    {s' : Replay} (run : Replayed program p (done ++ [checkpoint]) s') :
    ∃ s, Replayed program p done s ∧ Advances program p s checkpoint s' := by
  generalize same : done ++ [checkpoint] = cps at run
  cases run with
  | refl => simp at same
  | next earlier h =>
    obtain ⟨rfl, last⟩ := List.append_inj' same rfl
    cases List.singleton_inj.mp last
    exact ⟨_, earlier, h⟩

theorem Replayed.at {cps : List SoftwareCheckpoint} {s' : Replay} (run : Replayed program p cps s') :
    ∀ {earlier checkpoint later}, cps = earlier ++ checkpoint :: later →
      ∃ s t, Replayed program p earlier s ∧ Advances program p s checkpoint t := by
  induction run with
  | refl =>
    intro earlier checkpoint later split
    simp at split
  | @next done s s' last run h ih =>
    intro earlier checkpoint later split
    rcases List.eq_nil_or_concat later with rfl | ⟨front, x, rfl⟩
    · obtain ⟨rfl, same⟩ := List.append_inj' split rfl
      cases List.singleton_inj.mp same
      exact ⟨s, s', run, h⟩
    · rw [List.concat_eq_append, ← List.cons_append, ← List.append_assoc] at split
      exact ih (List.append_inj' split rfl).1

theorem Accepted.at {cps earlier later : List SoftwareCheckpoint} {checkpoint : SoftwareCheckpoint}
    (accepted : Accepted program p cps) (split : cps = earlier ++ checkpoint :: later) :
    ∃ s, Replayed program p earlier s ∧ ((∃ t, Advances program p s checkpoint t) ∨
      (later = [] ∧ ∃ output, Finishes program p s checkpoint output)) := by
  cases accepted with
  | advanced run output =>
    obtain ⟨s, t, run, h⟩ := run.at split
    exact ⟨s, run, .inl ⟨t, h⟩⟩
  | @finished done s last output run h same =>
    rcases List.eq_nil_or_concat later with rfl | ⟨front, x, rfl⟩
    · obtain ⟨rfl, eq⟩ := List.append_inj' split rfl
      cases List.singleton_inj.mp eq
      exact ⟨s, run, .inr ⟨rfl, output, h⟩⟩
    · rw [List.concat_eq_append, ← List.cons_append, ← List.append_assoc] at split
      obtain ⟨s, t, run, h⟩ := run.at (List.append_inj' split rfl).1
      exact ⟨s, run, .inl ⟨t, h⟩⟩

theorem Accepted.begun {cps earlier later : List SoftwareCheckpoint} {step : Nat}
    {phase : SoftwarePhase} {next : SoftwareCheckpoint} (accepted : Accepted program p cps)
    (split : cps = earlier ++ .started step phase :: next :: later) :
    ∃ durationMs process detected quiescent,
      next = .ended durationMs step phase process detected quiescent := by
  have split' : cps = (earlier ++ [.started step phase]) ++ next :: later := by simp [split]
  obtain ⟨s', run, outcome⟩ := accepted.at split'
  obtain ⟨s, -, h⟩ := run.last
  cases h
  rcases outcome with ⟨t, h⟩ | ⟨-, output, h⟩
  · cases h with
    | started _ idle => cases idle
    | observed _ pending => cases pending; exact ⟨_, _, _, _, rfl⟩
    | operated _ pending => cases pending; exact ⟨_, _, _, _, rfl⟩
    | completed _ idle => cases idle
  · cases h with
    | observed _ pending => cases pending; exact ⟨_, _, _, _, rfl⟩
    | operated _ pending => cases pending; exact ⟨_, _, _, _, rfl⟩

theorem Accepted.unquiet {cps earlier later : List SoftwareCheckpoint} {durationMs step : Nat}
    {phase : SoftwarePhase} {process : Option ProcessEvidence} {detected : Option SoftwareState}
    (accepted : Accepted program p cps)
    (split : cps = earlier ++ .ended durationMs step phase process detected false :: later)
    (more : later ≠ []) : phase.isObservation = true := by
  obtain ⟨s, -, ⟨t, h⟩ | ⟨none, -⟩⟩ := accepted.at split
  · cases h with
    | observed _ _ _ observation => exact observation
  · exact absurd none more

end Runs

def releaseOver (program : SoftwareProgram) (p : SoftwareProgress)
    (cps : List SoftwareCheckpoint) : ReleaseScan :=
  cps.foldl (releaseStep (some program) p) ⟨false, ∅⟩

def FailedCleanup (cps : List SoftwareCheckpoint) (step : Nat) : Prop :=
  ∃ durationMs process detected quiescent,
    .ended durationMs step .cleanup process detected quiescent ∈ cps ∧
      process.any ProcessEvidence.exitedZero = false

def entered (s : Replay) : Prop := 1 < s.position ∨ (s.position = 1 ∧ s.pending.isSome)

/-- How the release scan follows the validator loop. -/
structure ReleaseSound (program : SoftwareProgram) (p : SoftwareProgress)
    (done : List SoftwareCheckpoint) (s : Replay) : Prop where
  quiet : s.pending = none → s.quiet = true → (releaseOver program p done).pending = false
  held : ∀ step ∈ (releaseOver program p done).resources,
    FailedCleanup done step ∨ (step = s.index ∧ SoftwarePhase.cleanup ∈ remaining s)
  failed : ∀ step, FailedCleanup done step → step ∈ (releaseOver program p done).resources
  passed : ∀ durationMs step process detected quiescent,
    .ended durationMs step .cleanup process detected quiescent ∈ done → step ≤ s.index ∧
      (step = s.index → 1 < s.position ∧ SoftwarePhase.cleanup ∉ remaining s)
  acquired : entered s → SoftwarePhase.cleanup ∈ remaining s →
    s.index ∈ (releaseOver program p done).resources ∧
      lastAcquiring program done = some s.index
  succeeded : ∀ durationMs step process detected quiescent,
    .ended durationMs step .cleanup process detected quiescent ∈ done →
      (step = s.index → s.succeeded = true) → ∃ facts, process = some facts ∧
        facts.processEnd = .exited ∧ facts.failureKind = .none

theorem releaseOver_append (program : SoftwareProgram) (p : SoftwareProgress)
    (done : List SoftwareCheckpoint) (checkpoint : SoftwareCheckpoint) :
    releaseOver program p (done ++ [checkpoint]) =
      releaseStep (some program) p (releaseOver program p done) checkpoint := by
  rw [releaseOver, List.foldl_append]
  rfl

theorem lastAcquiring_append (program : SoftwareProgram) (done : List SoftwareCheckpoint)
    (checkpoint : SoftwareCheckpoint) :
    lastAcquiring program (done ++ [checkpoint]) =
      (acquiringStep program checkpoint).or (lastAcquiring program done) := by
  rw [lastAcquiring, List.reverse_append, List.reverse_singleton, List.singleton_append,
    List.findSome?_cons]
  cases acquiringStep program checkpoint <;> rfl

theorem failedCleanup_append {done : List SoftwareCheckpoint} {checkpoint : SoftwareCheckpoint}
    {step : Nat} : FailedCleanup (done ++ [checkpoint]) step ↔ FailedCleanup done step ∨
      ∃ durationMs process detected quiescent,
        checkpoint = .ended durationMs step .cleanup process detected quiescent ∧
          process.any ProcessEvidence.exitedZero = false := by
  simp only [FailedCleanup, List.mem_append, List.mem_singleton]
  constructor
  · rintro ⟨d, pr, de, q, mem | rfl, bad⟩
    · exact .inl ⟨d, pr, de, q, mem, bad⟩
    · exact .inr ⟨d, pr, de, q, rfl, bad⟩
  · rintro (⟨d, pr, de, q, mem, bad⟩ | ⟨d, pr, de, q, rfl, bad⟩)
    · exact ⟨d, pr, de, q, .inl mem, bad⟩
    · exact ⟨d, pr, de, q, .inr rfl, bad⟩

theorem mem_remaining {s : Replay} {phase : SoftwarePhase}
    (h : s.phases[s.position]? = some phase) : phase ∈ remaining s := by
  rw [remaining, drop_eq_cons h]
  exact List.mem_cons_self

theorem mem_remaining_of_later {s s' : Replay} {phase : SoftwarePhase} (phases : s'.phases = s.phases)
    (position : s.position ≤ s'.position) (h : phase ∈ remaining s') : phase ∈ remaining s := by
  obtain ⟨n, same⟩ := Nat.exists_eq_add_of_le position
  rw [remaining, phases, same, ← List.drop_drop] at h
  exact List.mem_of_mem_drop h

section Step
variable {program : SoftwareProgram} {p : SoftwareProgress} {done : List SoftwareCheckpoint}
  {s : Replay}

/-- A begin record keeps the relation: the first operation of a closing step acquires it. -/
theorem ReleaseSound.start {phase : SoftwarePhase} (sound : ReplaySound program s)
    (release : ReleaseSound program p done s) (next : s.phases[skipFailed s phase]? = some phase) :
    ReleaseSound program p (done ++ [.started s.index phase])
      { s with position := skipFailed s phase, pending := some phase } := by
  have later : ∀ {x : SoftwarePhase}, x ∈ s.phases.drop (skipFailed s phase) → x ∈ remaining s :=
    fun h => @mem_remaining_of_later s { s with position := skipFailed s phase } _ rfl
      (position_le_skipFailed s phase) h
  have records : ∀ {d j pr de q}, SoftwareCheckpoint.ended d j .cleanup pr de q ∈
      done ++ [.started s.index phase] → SoftwareCheckpoint.ended d j .cleanup pr de q ∈ done := by
    intro d j pr de q mem
    simpa using mem
  refine ⟨?_, ?_, ?_, ?_, ?_, ?_⟩
  · intro idle
    cases idle
  · intro step mem
    rw [releaseOver_append] at mem
    dsimp only [releaseStep] at mem
    have old : step ∈ (releaseOver program p done).resources →
        FailedCleanup (done ++ [.started s.index phase]) step ∨
          step = s.index ∧ SoftwarePhase.cleanup ∈ s.phases.drop (skipFailed s phase) := by
      intro mem
      rcases release.held step mem with bad | ⟨same, ahead⟩
      · exact .inl (failedCleanup_append.mpr (.inl bad))
      · exact .inr ⟨same, cleanup_mem_skipFailed phase ahead⟩
    split at mem
    · next acquires =>
      rcases Finset.mem_insert.mp mem with rfl | mem
      · exact .inr ⟨rfl, sound.layout.cleanup_follows next acquires⟩
      · exact old mem
    · exact old mem
  · intro step bad
    rw [failedCleanup_append] at bad
    rcases bad with bad | ⟨d, pr, de, q, impossible, -⟩
    · rw [releaseOver_append]
      dsimp only [releaseStep]
      split
      · exact Finset.mem_insert_of_mem (release.failed step bad)
      · exact release.failed step bad
    · cases impossible
  · intro d j pr de q mem
    have old := release.passed d j pr de q (records mem)
    refine ⟨old.1, fun same => ⟨?_, fun mem => (old.2 same).2 (later mem)⟩⟩
    exact Nat.lt_of_lt_of_le (old.2 same).1 (position_le_skipFailed s phase)
  · intro enter cleanup
    change SoftwarePhase.cleanup ∈ s.phases.drop (skipFailed s phase) at cleanup
    rw [releaseOver_append, lastAcquiring_append]
    dsimp only [releaseStep, acquiringStep]
    by_cases acquires : program.acquiresResources s.index phase = true
    · rw [if_pos acquires, if_pos acquires]
      exact ⟨Finset.mem_insert_self _ _, rfl⟩
    · rw [if_neg acquires, if_neg acquires]
      -- an operation that acquires nothing is not the first one of a closing step
      have before : entered s := by
        have positive : skipFailed s phase ≠ 0 := by
          intro zero
          unfold entered at enter
          simp only [zero] at enter
          omega
        by_contra outside
        have early : s.position ≤ 1 := by
          unfold entered at outside
          omega
        have same := skipFailed_of_succeeded (sound.opened early) phase
        obtain ⟨first, rest, phases, -, acquired⟩ := sound.layout.cleanup_acquired
          (List.mem_of_mem_drop cleanup)
        rw [same] at next positive
        rw [show s.position = 1 by omega, phases] at next
        simp only [List.getElem?_cons_succ, List.getElem?_cons_zero, Option.some.injEq] at next
        exact acquires (next ▸ acquired)
      exact release.acquired before (later cleanup)
  · intro d j pr de q mem same
    exact release.succeeded d j pr de q (records mem) same

/-- What an end record does to the loop variables, for observations and operations alike. -/
structure Ends (s s' : Replay) (phase : SoftwarePhase) (process : Option ProcessEvidence)
    (quiescent : Bool) : Prop where
  index : s'.index = s.index
  pending : s'.pending = none
  position : s'.position = s.position + 1
  quiet : s'.quiet = (s.quiet && quiescent)
  phases : ∃ more, s'.phases = s.phases ++ more ∧ (more ≠ [] → phase = .before)
  succeeded : s'.succeeded = true → s.succeeded = true ∧ (phase = .cleanup → ∃ facts,
    process = some facts ∧ facts.processEnd = .exited ∧ facts.failureKind = .none)

theorem Ends.cleanup_remaining {s' : Replay} {phase : SoftwarePhase}
    {process : Option ProcessEvidence} {quiescent : Bool} (ends : Ends s s' phase process quiescent)
    (here : s.phases[s.position]? = some phase) (other : phase ≠ .cleanup)
    (h : SoftwarePhase.cleanup ∈ remaining s) : SoftwarePhase.cleanup ∈ remaining s' := by
  obtain ⟨more, phases, -⟩ := ends.phases
  rw [remaining, drop_eq_cons here, List.mem_cons] at h
  rw [remaining, ends.position, phases]
  have inside := (List.getElem?_eq_some_iff.mp here).1
  rw [List.drop_append_of_le_length inside]
  exact List.mem_append_left _ (h.resolve_left (Ne.symm other))

theorem Ends.remaining_of_later {s' : Replay} {phase : SoftwarePhase}
    {process : Option ProcessEvidence} {quiescent : Bool} (ends : Ends s s' phase process quiescent)
    (other : phase ≠ .before) (h : SoftwarePhase.cleanup ∈ remaining s') :
    SoftwarePhase.cleanup ∈ s.phases.drop (s.position + 1) := by
  obtain ⟨more, phases, first⟩ := ends.phases
  have same : more = [] := by
    by_contra nonempty
    exact other (first nonempty)
  rw [remaining, ends.position, phases, same, List.append_nil] at h
  exact h

/-- An end record keeps the relation. -/
theorem ReleaseSound.ended {s' : Replay} {durationMs : Nat} {phase : SoftwarePhase}
    {process : Option ProcessEvidence} {detected : Option SoftwareState} {quiescent : Bool}
    (sound : ReplaySound program s) (release : ReleaseSound program p done s)
    (pending : s.pending = some phase) (ends : Ends s s' phase process quiescent) :
    ReleaseSound program p (done ++ [.ended durationMs s.index phase process detected quiescent])
      s' := by
  have here := sound.pending phase pending
  have nodup := sound.layout.nodup
  have positive : phase ≠ .before → s.position ≠ 0 := by
    intro other zero
    rw [zero, sound.fresh zero] at here
    simp only [List.getElem?_cons_zero, Option.some.injEq] at here
    exact other here.symm
  have enters : phase ≠ .before → entered s := by
    intro other
    have nonzero := positive other
    unfold entered
    rw [pending]
    simp only [Option.isSome_some, and_true]
    omega
  have scan : releaseOver program p
      (done ++ [.ended durationMs s.index phase process detected quiescent]) =
      { pending := !quiescent
        resources :=
          if phase = .cleanup ∧ process.any ProcessEvidence.exitedZero then
            (releaseOver program p done).resources.erase s.index
          else (releaseOver program p done).resources } := releaseOver_append _ _ _ _
  refine ⟨?_, ?_, ?_, ?_, ?_, ?_⟩
  · intro _ quiet
    rw [ends.quiet, Bool.and_eq_true] at quiet
    rw [scan, quiet.2]
    rfl
  · intro step mem
    rw [scan] at mem
    dsimp only at mem
    by_cases erased : phase = .cleanup ∧ process.any ProcessEvidence.exitedZero = true
    · rw [if_pos erased, Finset.mem_erase] at mem
      rcases release.held step mem.2 with bad | ⟨same, -⟩
      · exact .inl (failedCleanup_append.mpr (.inl bad))
      · exact absurd same mem.1
    · rw [if_neg erased] at mem
      rcases release.held step mem with bad | ⟨rfl, ahead⟩
      · exact .inl (failedCleanup_append.mpr (.inl bad))
      · by_cases closing : phase = .cleanup
        · subst closing
          refine .inl (failedCleanup_append.mpr (.inr ⟨durationMs, process, detected, quiescent, rfl, ?_⟩))
          exact Bool.eq_false_of_not_eq_true fun zero => erased ⟨rfl, zero⟩
        · exact .inr ⟨ends.index.symm, ends.cleanup_remaining here closing ahead⟩
  · intro step bad
    rw [scan]
    dsimp only
    rcases failedCleanup_append.mp bad with old | ⟨d, pr, de, q, same, nonzero⟩
    · have mem := release.failed step old
      split
      · next erased =>
        refine Finset.mem_erase.mpr ⟨?_, mem⟩
        rintro rfl
        obtain ⟨d, pr, de, q, record, -⟩ := old
        have passed := (release.passed d _ pr de q record).2 rfl
        exact passed.2 (mem_remaining (erased.1 ▸ here))
      · exact mem
    · cases same
      rw [if_neg (by simp [nonzero])]
      exact (release.acquired (enters (by decide)) (mem_remaining here)).1
  · intro d j pr de q mem
    rw [ends.index, ends.position]
    rcases List.mem_append.mp mem with mem | mem
    · have old := release.passed d j pr de q mem
      refine ⟨old.1, fun same => ⟨by have := (old.2 same).1; omega, fun ahead => ?_⟩⟩
      have other : phase ≠ .before := by
        rintro rfl
        have zero := sound.layout.before_first here
        have later := (old.2 same).1
        omega
      apply (old.2 same).2
      rw [remaining, drop_eq_cons here]
      exact List.mem_cons_of_mem _ (ends.remaining_of_later other ahead)
    · cases List.mem_singleton.mp mem
      have other : SoftwarePhase.cleanup ≠ .before := by decide
      refine ⟨Nat.le_refl _, fun _ => ⟨by have := positive other; omega, fun ahead => ?_⟩⟩
      exact not_mem_drop_of_nodup nodup here (ends.remaining_of_later other ahead)
  · intro enter ahead
    have other : phase ≠ .before := by
      rintro rfl
      unfold entered at enter
      rw [ends.position, sound.layout.before_first here, ends.pending] at enter
      simp at enter
    have later := ends.remaining_of_later other ahead
    have closing : phase ≠ .cleanup := by
      rintro rfl
      exact not_mem_drop_of_nodup nodup here later
    have old := release.acquired (enters other)
      (by rw [remaining, drop_eq_cons here]; exact List.mem_cons_of_mem _ later)
    rw [scan, lastAcquiring_append, ends.index]
    dsimp only
    rw [if_neg (fun erased => closing erased.1)]
    exact old
  · intro d j pr de q mem same
    rcases List.mem_append.mp mem with mem | mem
    · refine release.succeeded d j pr de q mem fun eq => ?_
      exact (ends.succeeded (same (ends.index ▸ eq))).1
    · cases List.mem_singleton.mp mem
      exact (ends.succeeded (same ends.index.symm)).2 rfl

theorem succeeded_exited {command : SoftwareInvocation} {facts : ProcessEvidence} {reboot : Bool}
    (h : command.succeeded facts reboot = true) :
    facts.processEnd = .exited ∧ facts.failureKind = .none := by
  simp only [SoftwareInvocation.succeeded, Bool.and_eq_true, beq_iff_eq] at h
  exact h.1

theorem Ends.of_observed {current : SoftwareProgramStep} {durationMs : Nat} {phase : SoftwarePhase}
    {process : Option ProcessEvidence} {state : SoftwareState} {quiescent : Bool}
    (observation : phase.isObservation = true) :
    Ends s (observed program current (accounted s durationMs process quiescent) phase state) phase
      process quiescent where
  index := rfl
  pending := rfl
  position := rfl
  quiet := rfl
  phases := by
    rw [observed_phases]
    split
    · next first => exact ⟨_, List.append_assoc _ _ _, fun _ => first.1⟩
    · exact ⟨[], (List.append_nil _).symm, fun nonempty => absurd rfl nonempty⟩
  succeeded h := ⟨h, by rintro rfl; cases observation⟩

theorem Ends.of_operated {current : SoftwareProgramStep} {durationMs : Nat} {phase : SoftwarePhase}
    {facts : ProcessEvidence} {command : SoftwareInvocation} :
    Ends s { accounted s durationMs (some facts) true with
      succeeded := s.succeeded && command.succeeded facts current.allowReboot } phase
      (some facts) true where
  index := rfl
  pending := rfl
  position := rfl
  quiet := rfl
  phases := ⟨[], (List.append_nil _).symm, fun nonempty => absurd rfl nonempty⟩
  succeeded h := by
    rw [Bool.and_eq_true] at h
    exact ⟨h.1, fun _ => ⟨facts, rfl, succeeded_exited h.2⟩⟩

theorem ReleaseSound.completed (sound : ReplaySound program s)
    (release : ReleaseSound program p done s) (canComplete : s.canComplete = true) :
    ReleaseSound program p (done ++ [.complete s.index])
      { Replay.initial with
        index := s.index + 1, output := s.output, duration := s.duration } := by
  obtain ⟨quiet, succeeded, idle, last⟩ := sound.completable canComplete
  have records : ∀ {d j pr de q}, SoftwareCheckpoint.ended d j .cleanup pr de q ∈
      done ++ [.complete s.index] → SoftwareCheckpoint.ended d j .cleanup pr de q ∈ done := by
    intro d j pr de q mem
    simpa using mem
  have scan : releaseOver program p (done ++ [.complete s.index]) = releaseOver program p done :=
    releaseOver_append _ _ _ _
  refine ⟨?_, ?_, ?_, ?_, ?_, ?_⟩
  · intro _ _
    rw [scan]
    exact release.quiet idle quiet
  · intro step mem
    rw [scan] at mem
    rcases release.held step mem with bad | ⟨-, ahead⟩
    · exact .inl (failedCleanup_append.mpr (.inl bad))
    · rw [last] at ahead
      cases ahead
  · intro step bad
    rw [scan]
    rcases failedCleanup_append.mp bad with old | ⟨d, pr, de, q, impossible, -⟩
    · exact release.failed step old
    · cases impossible
  · intro d j pr de q mem
    have old := (release.passed d j pr de q (records mem)).1
    change j ≤ s.index + 1 ∧ (j = s.index + 1 → _)
    refine ⟨by omega, fun same => by omega⟩
  · intro enter
    simp [entered, Replay.initial] at enter
  · intro d j pr de q mem _
    exact release.succeeded d j pr de q (records mem) fun _ => succeeded

theorem Replayed.release (shape : ProgramShape program) {done : List SoftwareCheckpoint}
    {s : Replay} (run : Replayed program p done s) : ReleaseSound program p done s := by
  induction run with
  | refl =>
    refine ⟨fun _ _ => rfl, ?_, ?_, ?_, ?_, ?_⟩
    · intro step mem
      cases mem
    · rintro step ⟨d, pr, de, q, mem, -⟩
      cases mem
    · intro d j pr de q mem
      cases mem
    · intro enter
      simp [entered, Replay.initial] at enter
    · intro d j pr de q mem
      cases mem
  | next earlier h ih =>
    have sound := earlier.sound shape
    cases h with
    | started found idle incomplete next => exact ih.start sound next
    | observed found pending account observation known removed =>
      exact ih.ended sound pending (.of_observed observation)
    | operated found pending invocation account operation =>
      exact ih.ended sound pending .of_operated
    | completed found idle canComplete => exact ih.completed sound canComplete

end Step

end RssMdmAgent.ProgressRuns
