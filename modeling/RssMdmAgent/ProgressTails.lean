import RssMdmAgent.ProgressReserve
import RssMdmAgent.RunnerWalk

set_option autoImplicit false

/-! # The business part of a history and the recoveries behind it -/

namespace RssMdmAgent.ProgressTails
open BoundedArithmetic ContractIdentity ContractProcess ProgramInstructions ContractPlan PlanShape
open ProgressHistory ProgressValidity ProgressReplay ProgressLayout ProgressRuns ProgressRecovery ProgressClosure ProgressReserve RunnerRecords
open RunnerWalk

def recordedDuration : SoftwareCheckpoint → Option Nat
  | .ended durationMs .. | .cleanupEnd _ _ durationMs _ _ => some durationMs
  | _ => none

def durations (cps : List SoftwareCheckpoint) : Nat := (cps.filterMap recordedDuration).sum

def recoveredBytes (cps : List SoftwareCheckpoint) : Nat := (cps.filterMap recoveryOutput).sum

def atElapsed (p : SoftwareProgress) (elapsed : Nat) : SoftwareProgress := { p with elapsedMs := elapsed }

section Sums

@[simp] theorem durations_nil : durations [] = 0 := rfl

@[simp] theorem durations_append (xs ys : List SoftwareCheckpoint) : durations (xs ++ ys) = durations xs + durations ys := by
  simp [durations]

theorem durations_cons (c : SoftwareCheckpoint) (rest : List SoftwareCheckpoint) : durations (c :: rest) = durations [c] + durations rest :=
  durations_append [c] rest

@[simp] theorem recoveredBytes_append (xs ys : List SoftwareCheckpoint) : recoveredBytes (xs ++ ys) = recoveredBytes xs + recoveredBytes ys := by
  simp [recoveredBytes]

theorem checkedSum_eq_some {values : List Nat} {total : Nat} : checkedSum values = some total ↔ total = values.sum ∧ values.sum ≤ maxWord := by
  have from_ : ∀ start, start ≤ maxWord → (values.foldlM checkedAdd start = some total ↔
      total = start + values.sum ∧ start + values.sum ≤ maxWord) := by
    induction values with
    | nil =>
      intro start fits
      simp [fits, eq_comm]
    | cons first rest ih =>
      intro start fits
      rw [List.foldlM_cons, List.sum_cons]
      simp only [Option.bind_eq_bind, Option.bind_eq_some_iff, checkedAdd_eq_some]
      constructor
      · rintro ⟨_, ⟨rfl, word⟩, sum⟩
        rw [ih _ word] at sum
        omega
      · rintro ⟨same, word⟩
        exact ⟨start + first, ⟨rfl, by omega⟩, (ih _ (by omega)).mpr (by omega)⟩
  have start := from_ 0 (Nat.zero_le _)
  rw [Nat.zero_add] at start
  exact start

theorem recovered_durations {tail : List SoftwareCheckpoint} (recovery : ∀ c ∈ tail, c.isRecovery = true) :
    (tail.filterMap recoveryDuration).sum = durations tail := by
  induction tail with
  | nil => rfl
  | cons c rest ih =>
    have others := ih fun d mem => recovery d (List.mem_cons_of_mem _ mem)
    have first := recovery c List.mem_cons_self
    unfold durations at others ⊢
    cases c with
    | started | ended | complete => cases first
    | cleanupBegin => exact others
    | cleanupEnd _ _ durationMs => exact congrArg (durationMs + ·) others

end Sums

section Business
variable {program : SoftwareProgram} {plan : FrozenExecution} {p q : SoftwareProgress} {done cps : List SoftwareCheckpoint} {s s' : Replay}
  {c : SoftwareCheckpoint} {elapsed : Nat}

theorem advances_duration (h : Advances program p s c s') : s'.duration = s.duration + durations [c] := by
  cases h <;> rfl

theorem replayed_duration (run : Replayed program p done s) : s.duration = durations done := by
  induction run with
  | refl => rfl
  | next _ h ih => rw [advances_duration h, ih, durations_append]

structure SameAttempt (p q : SoftwareProgress) : Prop where
  attempt : q.attemptId = p.attemptId
  digest : q.contentDigest = p.contentDigest
  runner : q.runner = p.runner

theorem accountable_same (same : SameAttempt p q) {durationMs : Nat} {command : Option SoftwareInvocation}
    {process : Option ProcessEvidence} {quiescent : Bool} (account : Accountable p s durationMs command process quiescent)
    (covers : s.duration + durationMs ≤ q.elapsedMs) : Accountable q s durationMs command process quiescent := by
  refine { account with elapsed := covers, bound := fun facts invocation present issued => ?_ }
  have bound := account.bound facts invocation present issued
  unfold processBound at bound ⊢
  rw [same.attempt, same.digest, same.runner]
  exact bound

theorem advances_same (same : SameAttempt p q) (h : Advances program p s c s') (covers : s'.duration ≤ q.elapsedMs) :
    Advances program q s c s' := by
  cases h with
  | started found idle incomplete next => exact .started found idle incomplete next
  | observed found pending account observation known removed =>
    exact .observed found pending (accountable_same same account covers) observation known removed
  | operated found pending invocation account operation =>
    exact .operated found pending invocation (accountable_same same account covers) operation
  | completed found idle canComplete => exact .completed found idle canComplete

theorem replayed_same (same : SameAttempt p q) (run : Replayed program p done s) (covers : s.duration ≤ q.elapsedMs) :
    Replayed program q done s := by
  induction run with
  | refl => exact .refl
  | next _ h ih =>
    have grown := advances_duration h
    exact .next (ih (by omega)) (advances_same same h covers)

theorem finishes_same (same : SameAttempt p q) {output : Nat} (h : Finishes program p s c output)
    (covers : s.duration + durations [c] ≤ q.elapsedMs) : Finishes program q s c output := by
  cases h with
  | observed found pending account observation stop =>
    exact .observed found pending (accountable_same same account covers) observation stop
  | operated found pending invocation account operation =>
    exact .operated found pending invocation (accountable_same same account covers) operation

theorem accepted_covers (accepted : Accepted program p cps) : durations cps ≤ p.elapsedMs := by
  have bounded : ∀ {done s}, Replayed program p done s → durations done ≤ p.elapsedMs := by
    intro done s run
    induction run with
    | refl => exact Nat.zero_le _
    | next earlier h ih =>
      rw [durations_append, ← replayed_duration earlier]
      rw [← replayed_duration earlier] at ih
      cases h with
      | started | completed => exact ih
      | observed _ _ account => exact account.elapsed
      | operated _ _ _ account => exact account.elapsed
  cases accepted with
  | advanced run => exact bounded run
  | finished run h =>
    rw [durations_append, ← replayed_duration run]
    cases h with
    | observed _ _ account => exact account.elapsed
    | operated _ _ _ account => exact account.elapsed

theorem accepted_same (same : SameAttempt p q) (output : q.outputBytes = p.outputBytes) (accepted : Accepted program p cps)
    (covers : durations cps ≤ q.elapsedMs) : Accepted program q cps := by
  cases accepted with
  | advanced run total =>
    rw [← replayed_duration run] at covers
    exact .advanced (replayed_same same run covers) (total.trans output.symm)
  | finished run h total =>
    rw [durations_append, ← replayed_duration run] at covers
    exact .finished (replayed_same same run (by omega)) (finishes_same same h covers) (total.trans output.symm)

theorem business_elapsed (found : plan.program = some program) (business : ∀ c ∈ p.checkpoints, c.isRecovery = false)
    (valid : p.validFor plan = true) : (atElapsed p elapsed).validFor plan = true ↔ durations p.checkpoints ≤ elapsed := by
  obtain ⟨digest, length, replayed⟩ := (valid_of_business found business).mp valid
  have moved : (atElapsed p elapsed).validFor plan = true ↔ _ := valid_of_business found business
  constructor
  · intro later
    exact accepted_covers (accepted_of_replay (moved.mp later).2.2)
  · intro covers
    have same : SameAttempt p (atElapsed p elapsed) := ⟨rfl, rfl, rfl⟩
    exact moved.mpr ⟨digest, length, replay_of_accepted (accepted_same same rfl (accepted_of_replay replayed) covers)⟩

theorem accepted_room (found : plan.program = some program) (accepted : Accepted program p cps) : cps.length ≤ program.steps.length * 17 := by
  cases accepted with
  | advanced run =>
    have room := Replayed.room (frozen_shape found) run
    omega
  | finished run h =>
    have room := Replayed.room (frozen_shape found) run
    rw [List.length_append, List.length_singleton]
    cases h with
    | observed _ pending | operated _ pending =>
      rw [pending] at room
      exact room

theorem business_room (found : plan.program = some program) (business : ∀ c ∈ p.checkpoints, c.isRecovery = false)
    (valid : p.validFor plan = true) : p.checkpoints.length ≤ program.steps.length * 17 :=
  accepted_room found (accepted_of_replay ((valid_of_business found business).mp valid).2.2)

end Business

/-- The history that the recovery loop has built after one more record. -/
def recoveryNext (before : SoftwareProgress) : SoftwareCheckpoint → SoftwareProgress
  | .cleanupEnd step sequence durationMs process resourcesClosed =>
    { before with
      checkpoints := before.checkpoints ++ [.cleanupEnd step sequence durationMs process resourcesClosed]
      outputBytes := saturatingAdd before.outputBytes process.totalOutputBytes
      elapsedMs := saturatingAdd before.elapsedMs durationMs }
  | c => { before with checkpoints := before.checkpoints ++ [c] }

def grantAfter (_ : Option (Nat × Nat × Nat × Nat)) : SoftwareCheckpoint → Option (Nat × Nat × Nat × Nat)
  | .cleanupBegin step sequence timeoutMs outputBytes => some (step, sequence, timeoutMs, outputBytes)
  | _ => none

/-- What the recovery loop asks of one record. -/
def recordHolds (valid : SoftwareProgress → Bool) (plan : FrozenExecution) (p before : SoftwareProgress)
    (pending : Option (Nat × Nat × Nat × Nat)) : SoftwareCheckpoint → Bool
  | .cleanupBegin step sequence timeoutMs outputBytes =>
    cleanupAllowanceWith valid plan before == some (step, sequence, timeoutMs, outputBytes)
  | .cleanupEnd step sequence durationMs process resourcesClosed =>
    pending.any fun grant => recoveryBound p grant step sequence durationMs process resourcesClosed
  | _ => false

structure Words (p : SoftwareProgress) : Prop where
  elapsed : p.elapsedMs ≤ maxWord
  output : p.outputBytes ≤ maxWord

def fronted (p : SoftwareProgress) (front tail : List SoftwareCheckpoint) : SoftwareProgress :=
  { p with
    checkpoints := front
    outputBytes := p.outputBytes - recoveredBytes tail
    elapsedMs := p.elapsedMs - durations tail }

/-- Everything that validity asks of a business part and the recoveries behind it. -/
structure Tailed (plan : FrozenExecution) (program : SoftwareProgram) (p : SoftwareProgress) (front tail : List SoftwareCheckpoint) :
    Prop where
  length : p.checkpoints.length ≤ program.steps.length * 17 + 6
  bytes : recoveredBytes tail ≤ p.outputBytes
  time : durations tail ≤ p.elapsedMs
  valid : (fronted p front tail).validFor plan = true
  incomplete : tail ≠ [] → front.countP SoftwareCheckpoint.isComplete ≠ program.steps.length
  replay : recoveryReplay (fun q => q.validFor plan) plan p (fronted p front tail) none tail = true

section Loop
variable {valid : SoftwareProgress → Bool} {plan : FrozenExecution} {p before : SoftwareProgress}
  {pending : Option (Nat × Nat × Nat × Nat)}

theorem recoveryReplay_cons (c : SoftwareCheckpoint) (rest : List SoftwareCheckpoint) :
    recoveryReplay valid plan p before pending (c :: rest) = (recordHolds valid plan p before pending c &&
      recoveryReplay valid plan p (recoveryNext before c) (grantAfter pending c) rest) := by
  conv_lhs => unfold recoveryReplay
  cases c with
  | started | ended | complete => rfl
  | cleanupBegin => rfl
  | cleanupEnd => cases pending <;> rfl

theorem recoveryReplay_append (xs ys : List SoftwareCheckpoint) : ∀ {before pending},
    recoveryReplay valid plan p before pending (xs ++ ys) = (recoveryReplay valid plan p before pending xs &&
      recoveryReplay valid plan p (xs.foldl recoveryNext before) (xs.foldl grantAfter pending) ys) := by
  induction xs with
  | nil =>
    intro before pending
    rw [List.nil_append, recoveryReplay, Bool.true_and]
    rfl
  | cons c rest ih =>
    intro before pending
    rw [List.cons_append, recoveryReplay_cons, recoveryReplay_cons, ih, Bool.and_assoc]
    rfl

theorem recoveryNext_fold (recs : List SoftwareCheckpoint) (recovery : ∀ c ∈ recs, c.isRecovery = true)
    (bytes : before.outputBytes + recoveredBytes recs ≤ maxWord) (time : before.elapsedMs + durations recs ≤ maxWord) :
    recs.foldl recoveryNext before = { before with
      checkpoints := before.checkpoints ++ recs
      outputBytes := before.outputBytes + recoveredBytes recs
      elapsedMs := before.elapsedMs + durations recs } := by
  induction recs using List.reverseRecOn with
  | nil =>
    rw [List.append_nil]
    rfl
  | append_singleton recs c ih =>
    rw [recoveredBytes_append] at bytes ⊢
    rw [durations_append] at time ⊢
    rw [List.foldl_append, ih (fun d mem => recovery d (List.mem_append_left _ mem)) (by omega) (by omega), ← List.append_assoc,
      ← Nat.add_assoc, ← Nat.add_assoc]
    have last := recovery c (List.mem_append_right _ (List.mem_singleton_self c))
    cases c with
    | started | ended | complete => cases last
    | cleanupBegin => rfl
    | cleanupEnd step sequence durationMs process resourcesClosed =>
      change before.outputBytes + (recoveredBytes recs + process.totalOutputBytes) ≤ maxWord at bytes
      change before.elapsedMs + (durations recs + durationMs) ≤ maxWord at time
      have output : saturatingAdd (before.outputBytes + recoveredBytes recs) process.totalOutputBytes = _ := saturatingAdd_of_le (by omega)
      have elapsed : saturatingAdd (before.elapsedMs + durations recs) durationMs = _ := saturatingAdd_of_le (by omega)
      rw [List.foldl_cons, List.foldl_nil, recoveryNext]
      dsimp only
      rw [output, elapsed]
      rfl

end Loop

section Tails
variable {plan : FrozenExecution} {program : SoftwareProgram} {p : SoftwareProgress} {front tail : List SoftwareCheckpoint}

/-- Validity, read off the business part and the recoveries. -/
theorem valid_tailed (found : plan.program = some program) (words : Words p) (split : p.checkpoints = front ++ tail)
    (business : ∀ c ∈ front, c.isRecovery = false) (recovery : ∀ c ∈ tail, c.isRecovery = true) :
    p.validFor plan = true ↔ Tailed plan program p front tail := by
  cases tail with
  | nil =>
    rw [List.append_nil] at split
    subst split
    constructor
    · intro valid
      obtain ⟨_, same, -, length⟩ := valid_program valid
      rw [found] at same
      cases same
      exact ⟨length, Nat.zero_le _, Nat.zero_le _, valid, fun no => absurd rfl no, rfl⟩
    · intro tailed
      exact tailed.valid
  | cons c rest =>
    have first := recovery c List.mem_cons_self
    have at_ : p.checkpoints.findIdx? SoftwareCheckpoint.isRecovery = some front.length := by
      rw [split, List.findIdx?_append, List.findIdx?_eq_none_iff.mpr business, List.findIdx?_cons, first]
      simp
    have taken : p.checkpoints.take front.length = front := by rw [split, List.take_left']; rfl
    have dropped : p.checkpoints.drop front.length = c :: rest := by rw [split, List.drop_left']; rfl
    have bytes : ∀ {x}, checkedSum ((c :: rest).filterMap recoveryOutput) = some x ↔ x = recoveredBytes (c :: rest) ∧
        recoveredBytes (c :: rest) ≤ maxWord := checkedSum_eq_some
    have time : ∀ {x}, checkedSum ((c :: rest).filterMap recoveryDuration) = some x ↔ x = durations (c :: rest) ∧
        durations (c :: rest) ≤ maxWord := by
      intro x
      rw [checkedSum_eq_some, recovered_durations recovery]
    have front_complete : ∀ output elapsed, completeWith (fun q => q.validFor plan) plan
        { p with checkpoints := front, outputBytes := output, elapsedMs := elapsed } =
        (({ p with checkpoints := front, outputBytes := output, elapsedMs := elapsed } : SoftwareProgress).validFor plan &&
          (front.countP SoftwareCheckpoint.isComplete == program.steps.length)) := by
      intro output elapsed
      rw [completeWith, found]
      rfl
    rw [validFor_eq, validBody, found]
    dsimp only
    rw [at_]
    dsimp only
    constructor
    · intro valid
      split at valid
      · cases valid
      next bounds =>
      simp only [Bool.or_eq_true, decide_eq_true_eq, not_or, not_not, not_lt] at bounds
      unfold validCleanupTail at valid
      rw [taken, dropped] at valid
      dsimp only at valid
      split at valid
      · cases valid
      next added sum =>
      obtain ⟨rfl, -⟩ := bytes.mp sum
      split at valid
      · cases valid
      next output less =>
      obtain ⟨covers, rfl⟩ := checkedSub_eq_some.mp less
      split at valid
      · cases valid
      next wellFormed =>
      rw [front_complete, Bool.or_eq_true, not_or, Bool.not_eq_true', Bool.not_eq_false] at wellFormed
      obtain ⟨whole, incomplete⟩ := wellFormed
      split at valid
      · cases valid
      next added sum =>
      obtain ⟨rfl, -⟩ := time.mp sum
      split at valid
      · cases valid
      next elapsed less =>
      obtain ⟨spent, rfl⟩ := checkedSub_eq_some.mp less
      rw [Bool.and_eq_true] at valid
      refine ⟨bounds.2, covers, spent, valid.1, fun _ all => ?_, valid.2⟩
      rw [whole, all] at incomplete
      simp at incomplete
    · intro tailed
      have fits := tailed.valid
      have recorded := (@business_elapsed _ _ _ (p.elapsedMs - durations (c :: rest)) found business fits).mp fits
      have whole := (@business_elapsed _ _ _ p.elapsedMs found business fits).mpr (Nat.le_trans recorded (Nat.sub_le _ _))
      obtain ⟨_, _, digest, -⟩ := valid_program fits
      have digest : p.contentDigest = plan.digest := digest
      have incomplete : front.countP SoftwareCheckpoint.isComplete ≠ program.steps.length := tailed.incomplete (by simp)
      rw [if_neg (by simp [digest, tailed.length])]
      unfold validCleanupTail
      rw [taken, dropped]
      dsimp only
      rw [bytes.mpr ⟨rfl, Nat.le_trans tailed.bytes words.output⟩]
      dsimp only
      rw [checkedSub_eq_some.mpr ⟨tailed.bytes, rfl⟩]
      dsimp only
      split
      · next broken =>
        rw [front_complete, Bool.or_eq_true, Bool.and_eq_true, beq_iff_eq] at broken
        rcases broken with invalid | ⟨-, all⟩
        · have whole : ({ p with checkpoints := front, outputBytes := p.outputBytes - recoveredBytes (c :: rest) } :
              SoftwareProgress).validFor plan = true := whole
          rw [whole] at invalid
          cases invalid
        · exact absurd all incomplete
      rw [time.mpr ⟨rfl, Nat.le_trans tailed.time words.elapsed⟩]
      dsimp only
      rw [checkedSub_eq_some.mpr ⟨tailed.time, rfl⟩]
      dsimp only
      rw [Bool.and_eq_true]
      exact ⟨fits, tailed.replay⟩

theorem valid_split (valid : p.validFor plan = true) : ∃ front tail, p.checkpoints = front ++ tail ∧ (∀ c ∈ front, c.isRecovery = false) ∧
    ∀ c ∈ tail, c.isRecovery = true := by
  by_cases recovery : ∃ c ∈ p.checkpoints, c.isRecovery = true
  · obtain ⟨start, output, elapsed, recovers⟩ := valid_recovers valid recovery
    exact ⟨p.checkpoints.take start, p.checkpoints.drop start, (List.take_append_drop _ _).symm, recovers.business, recovers.tail_recovery⟩
  · refine ⟨p.checkpoints, [], (List.append_nil _).symm, fun c mem => ?_, fun c mem => absurd mem List.not_mem_nil⟩
    exact Bool.eq_false_of_not_eq_true fun is => recovery ⟨c, mem, is⟩

theorem recoveryReplay_whole {valid : SoftwareProgress → Bool} {q : SoftwareProgress} (attempt : q.attemptId = p.attemptId)
    (digest : q.contentDigest = p.contentDigest) (runner : q.runner = p.runner) (recs : List SoftwareCheckpoint) :
    ∀ {before pending}, durations recs ≤ q.elapsedMs → recoveryReplay valid plan p before pending recs = true →
      recoveryReplay valid plan q before pending recs = true := by
  induction recs with
  | nil => exact fun _ _ => rfl
  | cons c rest ih =>
    intro before pending covers replay
    rw [durations_cons] at covers
    rw [recoveryReplay_cons, Bool.and_eq_true] at replay ⊢
    refine ⟨?_, ih (by omega) replay.2⟩
    have holds := replay.1
    cases c with
    | started | ended | complete => cases holds
    | cleanupBegin => exact holds
    | cleanupEnd step sequence durationMs process resourcesClosed =>
      have own : durationMs ≤ q.elapsedMs := Nat.le_trans (Nat.le_add_right _ _) covers
      obtain ⟨grant, open_, bound⟩ := (Option.any_eq_true _ _).mp holds
      refine (Option.any_eq_true _ _).mpr ⟨grant, open_, ?_⟩
      unfold recoveryBound at bound ⊢
      rw [attempt, digest, runner]
      simp only [Bool.and_eq_true, decide_eq_true_eq] at bound ⊢
      exact ⟨⟨bound.1.1, own⟩, bound.2⟩

theorem earlier_valid (found : plan.program = some program) (words : Words p) {recs later : List SoftwareCheckpoint}
    (split : p.checkpoints = front ++ (recs ++ later)) (business : ∀ c ∈ front, c.isRecovery = false)
    (recovery : ∀ c ∈ recs ++ later, c.isRecovery = true) (valid : p.validFor plan = true) :
    (fronted p (front ++ recs) later).validFor plan = true := by
  have tailed := (valid_tailed found words split business recovery).mp valid
  have bytes := tailed.bytes
  have time := tailed.time
  have same : fronted (fronted p (front ++ recs) later) front recs = fronted p front (recs ++ later) := by
    rw [fronted, fronted, fronted, recoveredBytes_append, durations_append, Nat.sub_sub, Nat.sub_sub, Nat.add_comm (recoveredBytes later),
      Nat.add_comm (durations later)]
  rw [recoveredBytes_append] at bytes
  rw [durations_append] at time
  have replay := tailed.replay
  rw [recoveryReplay_append, Bool.and_eq_true] at replay
  refine (valid_tailed found ⟨?_, ?_⟩ rfl business fun c mem => recovery c (List.mem_append_left _ mem)).mpr ⟨?_, ?_, ?_, ?_, ?_, ?_⟩
  · exact Nat.le_trans (Nat.sub_le _ _) words.elapsed
  · exact Nat.le_trans (Nat.sub_le _ _) words.output
  · have length := tailed.length
    rw [split, List.length_append, List.length_append] at length
    change (front ++ recs).length ≤ _
    rw [List.length_append]
    omega
  · change recoveredBytes recs ≤ p.outputBytes - recoveredBytes later
    omega
  · change durations recs ≤ p.elapsedMs - durations later
    omega
  · rw [same]
    exact tailed.valid
  · exact fun some_ => tailed.incomplete fun none => some_ (List.append_eq_nil_iff.mp none).1
  · rw [same]
    refine recoveryReplay_whole (p := p) (q := fronted p (front ++ recs) later) rfl rfl rfl recs ?_ replay.1
    change durations recs ≤ p.elapsedMs - durations later
    omega

end Tails

end RssMdmAgent.ProgressTails
