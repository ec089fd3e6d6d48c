import RssMdmAgent.ProgressClosure

set_option autoImplicit false

/-! # What an accepted history lets an installer be started over -/

namespace RssMdmAgent.ProgressSequencing
open BoundedArithmetic ContractIdentity ContractProcess ProgramInstructions ContractPlan PlanShape
open ProgressHistory ProgressValidity ProgressReplay ProgressLayout ProgressRuns ProgressRecovery ProgressClosure

def approved (program : SoftwareProgram) (step : Nat) (phase : SoftwarePhase) (process : Option ProcessEvidence) : Bool :=
  match program.steps[step]?, program.invocation step phase, process with
  | some current, some command, some facts => command.succeeded facts current.allowReboot
  | _, _, _ => true

def failedEnd (program : SoftwareProgram) : SoftwareCheckpoint → Bool
  | .ended _ step phase process _ quiescent => !(quiescent && approved program step phase process)
  | _ => false

def endedStep : SoftwareCheckpoint → Option Nat
  | .ended _ step _ _ _ _ => some step
  | _ => none

def satisfiedEnd (program : SoftwareProgram) (step : Nat) : SoftwareCheckpoint → Bool
  | .ended _ i phase _ (some state) _ =>
    i == step && phase.isObservation && phase ≠ .removalAfter && program.steps[step]?.any fun current => program.satisfied current state
  | _ => false

def stoppingEnd : SoftwareCheckpoint → Bool
  | .ended _ _ phase _ (some state) _ => state.isUnknown || (phase == .removalAfter && state ≠ .absent)
  | _ => false

/-- Sequencing safety of a history. -/
structure Sequenced (program : SoftwareProgram) (p : SoftwareProgress) : Prop where
  predecessors : ∀ earlier step phase later, p.checkpoints = earlier ++ .started step phase :: later → skippable phase = true →
    ∀ c ∈ earlier, endedStep c = some step → failedEnd program c = false
  stopped : ∀ earlier step phase later, p.checkpoints = earlier ++ .started step phase :: later → ∀ c ∈ earlier, stoppingEnd c = false
  completed : ∀ earlier step later, p.checkpoints = earlier ++ .complete step :: later →
    ∃ front c, earlier = front ++ [c] ∧ satisfiedEnd program step c = true

structure Unbroken (program : SoftwareProgram) (p : SoftwareProgress) : Prop where
  last : ∀ earlier c step phase later, p.checkpoints = earlier ++ c :: .started step phase :: later → skippable phase = true →
    endedStep c = some step → failedEnd program c = false
  previous : ∀ earlier b a c step phase later, p.checkpoints = earlier ++ b :: a :: c :: .started step phase :: later →
    skippable phase = true → endedStep b = some step → failedEnd program b = false

section Business
variable {plan : FrozenExecution} {p : SoftwareProgress} {program : SoftwareProgram}

theorem business_at (found : plan.program = some program) (valid : p.validFor plan = true) {earlier later : List SoftwareCheckpoint}
    {c : SoftwareCheckpoint} (split : p.checkpoints = earlier ++ c :: later) (business : c.isRecovery = false) :
    ∃ q rest, Accepted program q (earlier ++ c :: rest) ∧ ∃ tail, later = rest ++ tail ∧ ∀ c ∈ tail, c.isRecovery = true := by
  by_cases recovery : ∃ c ∈ p.checkpoints, c.isRecovery = true
  · obtain ⟨start, output, elapsed, recovers⟩ := valid_recovers valid recovery
    obtain ⟨rest, front, rfl⟩ := business_before recovers split business
    refine ⟨beforeRecovery p start output elapsed, rest, ?_, _, rfl, recovers.tail_recovery⟩
    rw [← front]
    exact accepted_of_replay ((valid_of_business found recovers.business).mp recovers.valid).2.2
  · push Not at recovery
    refine ⟨p, later, ?_, [], (List.append_nil _).symm, fun _ mem => by cases mem⟩
    rw [← split]
    refine accepted_of_replay ((valid_of_business found ?_).mp valid).2.2
    exact fun c mem => Bool.eq_false_of_not_eq_true (recovery c mem)

theorem Accepted.advances {cps earlier later : List SoftwareCheckpoint} {c next : SoftwareCheckpoint} (accepted : Accepted program p cps)
    (split : cps = earlier ++ c :: next :: later) : ∃ s t, Replayed program p earlier s ∧ Advances program p s c t := by
  obtain ⟨s, run, ⟨t, h⟩ | ⟨none, -⟩⟩ := accepted.at split
  · exact ⟨s, t, run, h⟩
  · cases none

theorem advances_known {s t : Replay} {c : SoftwareCheckpoint} (h : Advances program p s c t) : stoppingEnd c = false := by
  cases h with
  | started | operated | completed => rfl
  | observed found pending account observation known removed =>
    simp only [stoppingEnd, known, Bool.false_or, Bool.and_eq_false_iff, beq_eq_false_iff_ne, decide_eq_false_iff_not, not_not]
    exact or_iff_not_imp_left.mpr fun same => removed (not_not.mp same)

theorem valid_stopped (found : plan.program = some program) (valid : p.validFor plan = true) (earlier : List SoftwareCheckpoint) (step : Nat)
    (phase : SoftwarePhase) (later : List SoftwareCheckpoint) (split : p.checkpoints = earlier ++ .started step phase :: later) :
    ∀ c ∈ earlier, stoppingEnd c = false := by
  intro c mem
  obtain ⟨q, rest, accepted, -⟩ := business_at found valid split rfl
  obtain ⟨front, back, rfl⟩ := List.append_of_mem mem
  rw [List.append_assoc, List.cons_append] at accepted
  cases back with
  | nil =>
    obtain ⟨s, t, -, h⟩ := Accepted.advances accepted rfl
    exact advances_known h
  | cons next back =>
    obtain ⟨s, t, -, h⟩ := Accepted.advances accepted rfl
    exact advances_known h

theorem replayed_completable (shape : ProgramShape program) {done : List SoftwareCheckpoint} {s : Replay} (run : Replayed program p done s)
    (completable : s.canComplete = true) : ∃ front c, done = front ++ [c] ∧ satisfiedEnd program s.index c = true := by
  cases run with
  | refl => cases completable
  | @next done before _ c earlier h =>
    refine ⟨done, c, rfl, ?_⟩
    cases h with
    | started found idle incomplete next =>
      rw [show before.canComplete = true from completable] at incomplete
      cases incomplete
    | @observed current durationMs phase process state quiescent found pending account observation known removed =>
      have complete := completable
      simp only [observed, accounted, Bool.and_eq_true, decide_eq_true_eq] at complete
      obtain ⟨⟨⟨notRemoval, -⟩, -⟩, satisfied⟩ := complete
      have index : (ProgressHistory.observed program current (accounted before durationMs process quiescent) phase state).index =
        before.index := rfl
      simp only [satisfiedEnd, index, found, Option.any_some, observation, satisfied, beq_self_eq_true, Bool.true_and, Bool.and_true]
      simpa using notRemoval
    | operated found pending =>
      have idle := ((earlier.sound shape).completable completable).2.2.1
      rw [pending] at idle
      cases idle
    | completed => cases completable

theorem valid_completed (found : plan.program = some program) (valid : p.validFor plan = true) (earlier : List SoftwareCheckpoint) (step : Nat)
    (later : List SoftwareCheckpoint) (split : p.checkpoints = earlier ++ .complete step :: later) :
    ∃ front c, earlier = front ++ [c] ∧ satisfiedEnd program step c = true := by
  obtain ⟨q, rest, accepted, -⟩ := business_at found valid split rfl
  obtain ⟨s, run, ⟨t, h⟩ | ⟨-, _, h⟩⟩ := accepted.at rfl
  · cases h with
    | completed inside idle canComplete => exact replayed_completable (frozen_shape found) run canComplete
  · cases h

end Business

section Neighbours
variable {p : SoftwareProgress} {program : SoftwareProgram}

def Clean (program : SoftwareProgram) (index : Nat) (cps : List SoftwareCheckpoint) : Prop :=
  ∀ c ∈ cps, endedStep c = some index → failedEnd program c = false

theorem Clean.append {index : Nat} {cps : List SoftwareCheckpoint} (clean : Clean program index cps) {c : SoftwareCheckpoint}
    (ok : endedStep c = some index → failedEnd program c = false) : Clean program index (cps ++ [c]) := by
  intro d mem same
  rcases List.mem_append.mp mem with mem | mem
  · exact clean d mem same
  · rw [List.mem_singleton.mp mem] at same ⊢
    exact ok same

/-- Where a failure of the current step can be, as long as no installer was begun over it: nowhere, before the closing phases, in the
last end record, or in the one before the removal check. -/
inductive Tracked (program : SoftwareProgram) (done : List SoftwareCheckpoint) (s : Replay) : Prop where
  | clean (ok : Clean program s.index done)
  | closing (begun : 0 < s.position) (rest : ∀ phase ∈ remaining s, skippable phase = false)
  | trailing {front : List SoftwareCheckpoint} {c : SoftwareCheckpoint} (idle : s.pending = none) (begun : 0 < s.position)
      (same : done = front ++ [c]) (ok : Clean program s.index front)
  | checking {front : List SoftwareCheckpoint} {b : SoftwareCheckpoint} (pending : s.pending = some .removalAfter)
      (same : done = front ++ [b] ++ [.started s.index .removalAfter]) (ok : Clean program s.index front)
  | checked {front : List SoftwareCheckpoint} {b c : SoftwareCheckpoint} (idle : s.pending = none) {i : Nat} (next : s.position = i + 1)
      (here : s.phases[i]? = some .removalAfter) (same : done = front ++ [b] ++ [.started s.index .removalAfter] ++ [c])
      (ok : Clean program s.index front)

theorem closing_phases {index i : Nat} {phases : List SoftwarePhase} {phase : SoftwarePhase} (layout : StepLayout program index phases)
    (here : phases[i]? = some phase) (closing : phase = .cleanup ∨ phase = .after) : ∀ x ∈ phases.drop i, skippable x = false := by
  rcases layout with rfl | ⟨muts, final, rfl, layout, last⟩
  · have mem := List.mem_of_getElem? here
    rcases closing with rfl | rfl <;> simp at mem
  obtain ⟨front, back, whole, early, late⟩ : ∃ front back, SoftwarePhase.before :: (muts ++ final) = front ++ back ∧
      phase ∉ front ∧ ∀ x ∈ back, skippable x = false := by
    rcases layout.split with rfl | ⟨acquire, removal, main, close, rfl, ha, hr, hm, hc, -⟩
    · refine ⟨[.before], final, rfl, ?_, ?_⟩
      · rcases closing with rfl | rfl <;> decide
      · fin_cases last <;> decide
    · refine ⟨.before :: (acquire ++ (removal ++ [main])), close ++ final, by simp, ?_, ?_⟩
      · rcases closing with rfl | rfl <;> fin_cases ha <;> fin_cases hr <;> fin_cases hm <;> decide
      · fin_cases hc <;> fin_cases last <;> decide
  rw [whole] at here ⊢
  intro x mem
  have behind : front.length ≤ i := by
    by_contra inside
    rw [List.getElem?_append_left (Nat.lt_of_not_le inside)] at here
    exact early (List.mem_of_getElem? here)
  rw [List.drop_append, List.drop_of_length_le behind, List.nil_append] at mem
  exact late x (List.mem_of_mem_drop mem)

theorem skipFailed_other {s : Replay} {phase : SoftwarePhase} (cleanup : phase ≠ .cleanup) (after : phase ≠ .after) :
    skipFailed s phase = s.position := by
  unfold skipFailed
  rw [if_neg]
  simp [cleanup, after]

theorem Replayed.steps_le {done : List SoftwareCheckpoint} {s : Replay} (run : Replayed program p done s) :
    ∀ c ∈ done, ∀ i, endedStep c = some i → i ≤ s.index := by
  induction run with
  | refl => intro c mem; cases mem
  | next _ h ih =>
    intro c mem i step
    rcases List.mem_append.mp mem with mem | mem
    · have old := ih c mem i step
      cases h with
      | started | observed | operated => exact old
      | completed => exact Nat.le_succ_of_le old
    · rw [List.mem_singleton.mp mem] at step
      cases h <;> cases step
      · exact Nat.le_refl _
      · exact Nat.le_refl _

theorem Tracked.begins {done rest : List SoftwareCheckpoint} {s : Replay} {phase : SoftwarePhase} (tracked : Tracked program done s)
    (unbroken : Unbroken program p) (split : p.checkpoints = done ++ .started s.index phase :: rest) (idle : s.pending = none)
    (next : s.phases[skipFailed s phase]? = some phase) (installs : skippable phase = true) : Clean program s.index done := by
  cases tracked with
  | clean ok => exact ok
  | closing begun rest =>
    have stays : skipFailed s phase = s.position := by
      refine skipFailed_other ?_ ?_ <;> rintro rfl <;> cases installs
    rw [stays] at next
    rw [rest phase (mem_remaining next)] at installs
    cases installs
  | @trailing front c _ begun same ok =>
    subst same
    rw [List.append_assoc] at split
    exact ok.append (unbroken.last front c _ _ _ split installs)
  | checking pending =>
    rw [idle] at pending
    cases pending
  | @checked front b c _ i at_ here same ok =>
    subst same
    refine ((ok.append ?_).append fun step => ?_).append ?_
    · refine unbroken.previous front b (.started s.index .removalAfter) c _ _ rest ?_ installs
      rw [split]
      simp
    · cases step
    · refine unbroken.last (front ++ [b] ++ [.started s.index .removalAfter]) c _ _ rest ?_ installs
      rw [split, List.append_assoc]
      rfl

theorem Tracked.ended {done : List SoftwareCheckpoint} {s s' : Replay} {c : SoftwareCheckpoint} {phase : SoftwarePhase}
    {process : Option ProcessEvidence} {quiescent : Bool} (tracked : Tracked program done s) (sound : ReplaySound program s)
    (pending : s.pending = some phase) (ends : Ends s s' phase process quiescent) : Tracked program (done ++ [c]) s' := by
  have here := sound.pending phase pending
  have later : 0 < s'.position := by
    rw [ends.position]
    exact Nat.succ_pos _
  cases tracked with
  | clean ok => exact .trailing ends.pending later rfl (by rw [ends.index]; exact ok)
  | closing begun rest =>
    obtain ⟨more, phases, first⟩ := ends.phases
    have same : more = [] := by
      by_contra nonempty
      have zero := sound.layout.before_first (first nonempty ▸ here)
      omega
    refine .closing later fun x mem => rest x ?_
    rw [same, List.append_nil] at phases
    exact mem_remaining_of_later phases (by rw [ends.position]; exact Nat.le_succ _) mem
  | trailing idle | checked idle =>
    rw [pending] at idle
    cases idle
  | checking removal same ok =>
    rw [pending, Option.some.injEq] at removal
    subst removal
    obtain ⟨more, phases, -⟩ := ends.phases
    refine .checked ends.pending ends.position ?_ (by rw [ends.index, same]) (by rw [ends.index]; exact ok)
    rw [phases, List.getElem?_append_left (List.getElem?_eq_some_iff.mp here).1]
    exact here

theorem Tracked.started {done rest : List SoftwareCheckpoint} {s : Replay} {phase : SoftwarePhase} (tracked : Tracked program done s)
    (sound : ReplaySound program s) (unbroken : Unbroken program p) (split : p.checkpoints = done ++ .started s.index phase :: rest)
    (idle : s.pending = none) (next : s.phases[skipFailed s phase]? = some phase) :
    Tracked program (done ++ [.started s.index phase]) { s with
      position := skipFailed s phase
      pending := some phase } := by
  have extended : Clean program s.index done → Clean program s.index (done ++ [.started s.index phase]) := fun ok => ok.append nofun
  by_cases closing : phase = .cleanup ∨ phase = .after
  · refine .closing ?_ (closing_phases sound.layout next closing)
    refine Nat.pos_of_ne_zero fun zero => ?_
    dsimp only at zero
    rw [zero, sound.fresh (Nat.eq_zero_of_le_zero (zero ▸ position_le_skipFailed s phase))] at next
    rcases closing with rfl | rfl <;> cases next
  rw [not_or] at closing
  have stays := skipFailed_other (s := s) closing.1 closing.2
  by_cases installs : skippable phase = true
  · exact .clean (extended (tracked.begins unbroken split idle next installs))
  cases tracked with
  | clean ok => exact .clean (extended ok)
  | closing begun rest =>
    refine .closing (by rw [stays]; exact begun) fun x mem => rest x ?_
    rw [remaining, stays] at mem
    exact mem
  | checking pending =>
    rw [idle] at pending
    cases pending
  | @trailing front c _ begun same ok =>
    have removal : phase = .removalAfter := by
      cases phase with
      | before =>
        have zero := sound.layout.before_first next
        omega
      | removalAfter => rfl
      | after => exact absurd rfl closing.2
      | cleanup => exact absurd rfl closing.1
      | mutation | removal | upgrade | prepare | attach | stage => exact absurd rfl installs
    subst removal
    exact .checking rfl (by rw [same]) ok
  | @checked front b c _ i at_ here same ok =>
    exfalso
    rw [stays, at_] at next
    cases phase with
    | before => exact absurd (sound.layout.before_first next) (Nat.succ_ne_zero i)
    | removalAfter => exact not_mem_drop_of_nodup sound.layout.nodup here (List.mem_of_getElem? (i := 0) (by simpa using next))
    | after => exact closing.2 rfl
    | cleanup => exact closing.1 rfl
    | mutation | removal | upgrade | prepare | attach | stage => exact installs rfl

theorem replayed_tracked (shape : ProgramShape program) (unbroken : Unbroken program p) {q : SoftwareProgress} {done : List SoftwareCheckpoint}
    {s : Replay} (run : Replayed program q done s) : ∀ rest, p.checkpoints = done ++ rest → Tracked program done s := by
  induction run with
  | refl => exact fun _ _ => .clean fun c mem => by cases mem
  | @next done s s' c earlier h ih =>
    intro rest split
    rw [List.append_assoc] at split
    have tracked := ih _ split
    have sound := earlier.sound shape
    cases h with
    | started found idle incomplete next => exact tracked.started sound unbroken split idle next
    | observed found pending account observation known removed => exact tracked.ended sound pending (.of_observed observation)
    | operated found pending invocation account operation => exact tracked.ended sound pending .of_operated
    | completed found idle canComplete =>
      refine .clean fun c mem step => ?_
      rcases List.mem_append.mp mem with mem | mem
      · exact absurd (Replayed.steps_le earlier c mem _ step) (Nat.not_succ_le_self _)
      · rw [List.mem_singleton.mp mem] at step
        cases step

end Neighbours

/-- An accepted history is sequenced safely exactly when the neighbours of its installers are unbroken. -/
theorem sequenced_iff {plan : FrozenExecution} {program : SoftwareProgram} {p : SoftwareProgress} (found : plan.program = some program)
    (valid : p.validFor plan = true) : Sequenced program p ↔ Unbroken program p := by
  constructor
  · rintro ⟨predecessors, -, -⟩
    refine ⟨?_, ?_⟩
    · intro earlier c step phase later split installs ended
      refine predecessors (earlier ++ [c]) step phase later (by rw [split]; simp) installs c (by simp) ended
    · intro earlier b a c step phase later split installs ended
      refine predecessors (earlier ++ [b, a, c]) step phase later (by rw [split]; simp) installs b (by simp) ended
  · intro unbroken
    refine ⟨?_, valid_stopped found valid, valid_completed found valid⟩
    intro earlier step phase later split installs
    obtain ⟨q, rest, accepted, -⟩ := business_at found valid split rfl
    obtain ⟨s, run, ⟨t, h⟩ | ⟨-, _, h⟩⟩ := accepted.at rfl
    · have tracked := replayed_tracked (frozen_shape found) unbroken run _ split
      cases h with
      | started inside idle incomplete next => exact tracked.begins unbroken split idle next installs
    · cases h

section Samples
open ProgressCompletion

def sampleHistory (prepareExit : Int) : SoftwareProgress :=
  sampleProgress ([.started 0 .before, .ended 0 0 .before none (some (.present sampleText)) true] ++
    sampleOperation .prepare prepareExit ++ [.started 0 .mutation])

/-- A removal was begun over a preparation that had exited without an approved code. -/
theorem begun_over_failure : (sampleHistory 7).validFor removalPlan = true ∧ ¬ Sequenced (sampleProgram removalPlan) (sampleHistory 7) := by
  refine ⟨by decide +kernel, fun sequenced => ?_⟩
  have ok := sequenced.predecessors _ 0 .mutation [] rfl rfl (.ended 0 0 .prepare (some (sampleEvidence 7)) none true) (by simp [sampleOperation]) rfl
  revert ok
  decide +kernel

theorem sequenced_sample : Sequenced (sampleProgram removalPlan) (sampleHistory 0) ↔ Unbroken (sampleProgram removalPlan) (sampleHistory 0) :=
  @sequenced_iff removalPlan _ _ rfl (by decide +kernel)

end Samples

end RssMdmAgent.ProgressSequencing
