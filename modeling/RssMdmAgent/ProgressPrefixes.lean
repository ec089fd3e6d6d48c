import RssMdmAgent.ProgressElapsed

set_option autoImplicit false

/-! # Prefixes of a history and its number of records -/

namespace RssMdmAgent.ProgressPrefixes
open BoundedArithmetic ContractIdentity ContractProcess ProgramInstructions ContractPlan PlanShape
open ProgressHistory ProgressValidity ProgressReplay ProgressLayout ProgressRuns ProgressRecovery ProgressClosure ProgressReserve RunnerRecords
open RunnerWalk ProgressTails ProgressElapsed

def recordedOutput : SoftwareCheckpoint → Option Nat
  | .ended _ _ _ process _ _ => process.map (·.totalOutputBytes)
  | .cleanupEnd _ _ _ process _ => some process.totalOutputBytes
  | _ => none

def outputs (cps : List SoftwareCheckpoint) : Nat := (cps.filterMap recordedOutput).sum

def prefixed (p : SoftwareProgress) (kept reduction : Nat) : SoftwareProgress :=
  { p with
    checkpoints := p.checkpoints.take kept
    outputBytes := outputs (p.checkpoints.take kept)
    elapsedMs := p.elapsedMs - reduction }

section Totals
variable {program : SoftwareProgram} {plan : FrozenExecution} {p q : SoftwareProgress} {done cps : List SoftwareCheckpoint} {s s' : Replay}
  {c : SoftwareCheckpoint}

@[simp] theorem outputs_nil : outputs [] = 0 := rfl

@[simp] theorem outputs_append (xs ys : List SoftwareCheckpoint) : outputs (xs ++ ys) = outputs xs + outputs ys := by
  simp [outputs]

theorem outputs_ended (durationMs step : Nat) (phase : SoftwarePhase) (process : Option ProcessEvidence) (detected : Option SoftwareState)
    (quiescent : Bool) : outputs [.ended durationMs step phase process detected quiescent] = observedBytes process := by
  cases process <;> rfl

theorem outputs_recovery (recovery : ∀ c ∈ cps, c.isRecovery = true) : outputs cps = recoveredBytes cps := by
  unfold outputs recoveredBytes
  rw [List.filterMap_congr]
  intro c mem
  have is := recovery c mem
  cases c <;> first | rfl | cases is

theorem advances_output (h : Advances program p s c s') : s'.output = s.output + outputs [c] := by
  cases h with
  | started | completed => rfl
  | observed | operated =>
    rw [outputs_ended]
    rfl

theorem replayed_output (run : Replayed program p done s) : s.output = outputs done := by
  induction run with
  | refl => rfl
  | next _ h ih => rw [advances_output h, ih, outputs_append]

theorem finishes_output {output : Nat} (h : Finishes program p s c output) : output = s.output + outputs [c] := by
  cases h <;> rw [outputs_ended]

theorem accepted_output (accepted : Accepted program p cps) : p.outputBytes = outputs cps := by
  cases accepted with
  | advanced run output => rw [← output, replayed_output run]
  | finished run h same => rw [← same, finishes_output h, replayed_output run, outputs_append]

theorem replayed_take (run : Replayed program p done s) (kept : Nat) : ∃ s', Replayed program p (done.take kept) s' := by
  induction run with
  | refl => exact ⟨_, by rw [List.take_nil]; exact .refl⟩
  | @next done s s' c earlier h ih =>
    by_cases whole : (done ++ [c]).length ≤ kept
    · rw [List.take_of_length_le whole]
      exact ⟨_, .next earlier h⟩
    · rw [List.length_append, List.length_singleton] at whole
      rw [List.take_append_of_le_length (by omega)]
      exact ih

theorem accepted_take (accepted : Accepted program p cps) (kept : Nat) (same : SameAttempt p q)
    (output : q.outputBytes = outputs (cps.take kept)) (covers : durations (cps.take kept) ≤ q.elapsedMs) :
    Accepted program q (cps.take kept) := by
  have behind : ∀ {done s}, Replayed program p done s → q.outputBytes = outputs (done.take kept) →
      durations (done.take kept) ≤ q.elapsedMs → Accepted program q (done.take kept) := by
    intro done s run output covers
    obtain ⟨s', shorter⟩ := replayed_take run kept
    rw [← replayed_duration shorter] at covers
    exact .advanced (replayed_same same shorter covers) ((replayed_output shorter).trans output.symm)
  by_cases whole : cps.length ≤ kept
  · rw [List.take_of_length_le whole] at output covers ⊢
    exact accepted_same same (output.trans (accepted_output accepted).symm) accepted covers
  · cases accepted with
    | advanced run => exact behind run output covers
    | finished run =>
      rw [List.length_append, List.length_singleton] at whole
      rw [List.take_append_of_le_length (by omega)] at output covers ⊢
      exact behind run output covers

theorem valid_output (words : Words p) (valid : p.validFor plan = true) : p.outputBytes = outputs p.checkpoints := by
  obtain ⟨program, found, -, -⟩ := valid_program valid
  obtain ⟨front, tail, split, business, recovered⟩ := valid_split valid
  have tailed := (valid_tailed found words split business recovered).mp valid
  have replayed := ((valid_of_business (p := fronted p front tail) found business).mp tailed.valid).2.2
  have own : p.outputBytes - recoveredBytes tail = outputs front := accepted_output (accepted_of_replay replayed)
  have bytes := tailed.bytes
  rw [split, outputs_append, outputs_recovery recovered]
  omega

end Totals

section Prefixes
variable {plan : FrozenExecution} {program : SoftwareProgram} {p : SoftwareProgress}

theorem outputs_take (cps : List SoftwareCheckpoint) (kept : Nat) : outputs (cps.take kept) + outputs (cps.drop kept) = outputs cps := by
  rw [← outputs_append, List.take_append_drop]

theorem durations_take (cps : List SoftwareCheckpoint) (kept : Nat) :
    durations (cps.take kept) + durations (cps.drop kept) = durations cps := by
  rw [← durations_append, List.take_append_drop]

theorem prefixed_words (words : Words p) (valid : p.validFor plan = true) (kept reduction : Nat) : Words (prefixed p kept reduction) := by
  refine ⟨Nat.le_trans (Nat.sub_le _ _) words.elapsed, ?_⟩
  have total := valid_output words valid
  have parts := outputs_take p.checkpoints kept
  have word := words.output
  change outputs (p.checkpoints.take kept) ≤ maxWord
  omega

/-- The first records are accepted at the time that is left without the durations of the others. -/
theorem prefixed_valid (words : Words p) (valid : p.validFor plan = true) (kept : Nat) :
    (prefixed p kept (durations (p.checkpoints.drop kept))).validFor plan = true := by
  obtain ⟨program, found, -, -⟩ := valid_program valid
  obtain ⟨front, tail, split, business, recovered⟩ := valid_split valid
  have tailed := (valid_tailed found words split business recovered).mp valid
  by_cases inside : kept ≤ front.length
  · have first : p.checkpoints.take kept = front.take kept := by rw [split, List.take_append_of_le_length inside]
    obtain ⟨digest, length, replayed⟩ := (valid_of_business (p := fronted p front tail) found business).mp tailed.valid
    have covers := recorded_elapsed found words valid
    have parts := durations_take p.checkpoints kept
    have same : SameAttempt (fronted p front tail) (prefixed p kept (durations (p.checkpoints.drop kept))) := ⟨rfl, rfl, rfl⟩
    have shorter := accepted_take (accepted_of_replay replayed) kept same (congrArg outputs first) (by
      change durations (front.take kept) ≤ p.elapsedMs - durations (p.checkpoints.drop kept)
      rw [first] at parts
      omega)
    refine (valid_of_business found fun c mem => ?_).mpr ⟨digest, ?_, ?_⟩
    · change c ∈ p.checkpoints.take kept at mem
      rw [first] at mem
      exact business c (List.mem_of_mem_take mem)
    · change (p.checkpoints.take kept).length ≤ _
      rw [first]
      exact Nat.le_trans (List.length_take_le' kept front) length
    · change replay program _ Replay.initial (p.checkpoints.take kept) = true
      rw [first]
      exact replay_of_accepted shorter
  · have first : p.checkpoints.take kept = front ++ tail.take (kept - front.length) := by
      rw [split, List.take_append, List.take_of_length_le (by omega)]
    have last : p.checkpoints.drop kept = tail.drop (kept - front.length) := by
      rw [split, List.drop_append, List.drop_of_length_le (by omega), List.nil_append]
    have behind := @earlier_valid _ _ _ front found words (tail.take (kept - front.length)) (tail.drop (kept - front.length))
      (by rw [List.take_append_drop, split]) business (by rw [List.take_append_drop]; exact recovered) valid
    have total := valid_output words valid
    have parts := outputs_take p.checkpoints kept
    have rest : outputs (p.checkpoints.drop kept) = recoveredBytes (tail.drop (kept - front.length)) := by
      rw [last]
      exact outputs_recovery fun c mem => recovered c (List.mem_of_mem_drop mem)
    have same : prefixed p kept (durations (p.checkpoints.drop kept)) =
        fronted p (front ++ tail.take (kept - front.length)) (tail.drop (kept - front.length)) := by
      have output : outputs (p.checkpoints.take kept) = p.outputBytes - recoveredBytes (tail.drop (kept - front.length)) := by omega
      unfold prefixed fronted
      rw [output, first, last]
    rw [same]
    exact behind

theorem prefixed_valid_iff (words : Words p) (valid : p.validFor plan = true) {kept reduction : Nat}
    (less : reduction ≤ durations (p.checkpoints.drop kept)) :
    (prefixed p kept reduction).validFor plan = true ↔ BegunInTime plan (p.checkpoints.take kept) (p.elapsedMs - reduction) := by
  obtain ⟨program, found, -, -⟩ := valid_program valid
  have fits : p.elapsedMs - reduction ≤ maxWord := Nat.le_trans (Nat.sub_le _ _) words.elapsed
  exact @elapsed_valid_iff plan program (prefixed p kept (durations (p.checkpoints.drop kept))) found
    (prefixed_words words valid kept _) (prefixed_valid words valid kept) _ (Nat.sub_le_sub_left less _) fits

end Prefixes

/-- The validator without its bound on the number of records. -/
def sequencedBody (valid : SoftwareProgress → Bool) (plan : FrozenExecution) (p : SoftwareProgress) : Bool :=
  match plan.program with
  | none => false
  | some program =>
    if p.contentDigest ≠ plan.digest then false
    else
      match p.checkpoints.findIdx? SoftwareCheckpoint.isRecovery with
      | some start => validCleanupTail valid plan p start
      | none => replay program p Replay.initial p.checkpoints

def sequencedAt (plan : FrozenExecution) : Nat → SoftwareProgress → Bool
  | 0, _ => false
  | fuel + 1, p => sequencedBody (sequencedAt plan fuel) plan p

def correctlySequenced (p : SoftwareProgress) (plan : FrozenExecution) : Bool := sequencedAt plan (p.checkpoints.length + 1) p

section Numbers
variable {plan : FrozenExecution} {program : SoftwareProgram} {p : SoftwareProgress} {valid valid' : SoftwareProgress → Bool}

def Numbered (cps : List SoftwareCheckpoint) : Prop :=
  ∀ step command, (cleanupAccount step command cps).sequence = cps.countP isCleanupBegin

theorem begun_few (found : plan.program = some program) (tail : List SoftwareCheckpoint) : ∀ {before : SoftwareProgress} {pending},
    Numbered before.checkpoints → before.checkpoints.countP isCleanupBegin ≤ 3 → recoveryReplay valid plan p before pending tail = true →
    before.checkpoints.countP isCleanupBegin + tail.countP isCleanupBegin ≤ 3 := by
  induction tail with
  | nil => exact fun _ few _ => few
  | cons c rest ih =>
    intro before pending numbered few replay
    rw [recoveryReplay_cons, Bool.and_eq_true] at replay
    cases c with
    | started | ended | complete => cases replay.1
    | cleanupBegin step sequence timeoutMs outputBytes =>
      have grant := allowance_granted found (beq_iff_eq.mp replay.1)
      obtain ⟨command, -, next, -, -⟩ := grant.account
      rw [numbered] at next
      have limit := grant.few
      have grown := @ih (recoveryNext before (.cleanupBegin step sequence timeoutMs outputBytes)) _ ?_ ?_ replay.2
      · change (before.checkpoints ++ [_]).countP isCleanupBegin + _ ≤ 3 at grown
        rw [List.countP_append, List.countP_singleton] at grown
        rw [List.countP_cons]
        omega
      · intro i other
        change (cleanupAccount i other (before.checkpoints ++ [_])).sequence = (before.checkpoints ++ [_]).countP isCleanupBegin
        rw [cleanupAccount_append, List.countP_append]
        exact next
      · change (before.checkpoints ++ [_]).countP isCleanupBegin ≤ 3
        rw [List.countP_append]
        change before.checkpoints.countP isCleanupBegin + 1 ≤ 3
        omega
    | cleanupEnd step sequence durationMs process resourcesClosed =>
      have count : (before.checkpoints ++ [SoftwareCheckpoint.cleanupEnd step sequence durationMs process resourcesClosed]).countP isCleanupBegin =
          before.checkpoints.countP isCleanupBegin := by
        rw [List.countP_append]
        rfl
      have grown := @ih (recoveryNext before (.cleanupEnd step sequence durationMs process resourcesClosed)) _ ?_ ?_ replay.2
      · change (before.checkpoints ++ [_]).countP isCleanupBegin + _ ≤ 3 at grown
        rw [count] at grown
        exact grown
      · intro i other
        change (cleanupAccount i other (before.checkpoints ++ [_])).sequence = (before.checkpoints ++ [_]).countP isCleanupBegin
        rw [cleanupAccount_append, count]
        exact numbered i other
      · change (before.checkpoints ++ [_]).countP isCleanupBegin ≤ 3
        rw [count]
        exact few

theorem business_begun {cps : List SoftwareCheckpoint} (business : ∀ c ∈ cps, c.isRecovery = false) : cps.countP isCleanupBegin = 0 := by
  rw [List.countP_eq_zero]
  intro c mem is
  have other := business c mem
  cases c <;> cases is
  cases other

theorem business_numbered {cps : List SoftwareCheckpoint} (business : ∀ c ∈ cps, c.isRecovery = false) : Numbered cps := by
  refine account_sequence cps fun earlier i sequence timeoutMs outputBytes later same => ?_
  have other := business (.cleanupBegin i sequence timeoutMs outputBytes) (by rw [same]; exact List.mem_append_right _ List.mem_cons_self)
  cases other

theorem sequencedBody_congr (h : ∀ q : SoftwareProgress, q.checkpoints.length < p.checkpoints.length → valid q = valid' q) :
    sequencedBody valid plan p = sequencedBody valid' plan p := by
  unfold sequencedBody
  split
  · rfl
  split
  · rfl
  split
  · next start found => exact validCleanupTail_congr h (List.findIdx?_eq_some_iff_findIdx_eq.mp found).1
  · rfl

theorem tail_room (found : plan.program = some program) {start : Nat}
    (first : p.checkpoints.findIdx? SoftwareCheckpoint.isRecovery = some start)
    (tail : validCleanupTail (fun q => q.validFor plan) plan p start = true) : p.checkpoints.length ≤ program.steps.length * 17 + 6 := by
  obtain ⟨output, elapsed, recovers⟩ := tail_recovers found first tail
  have short : (p.checkpoints.take start).length ≤ program.steps.length * 17 := business_room found recovers.business recovers.valid
  have begun : (beforeRecovery p start output elapsed).checkpoints.countP isCleanupBegin = 0 := business_begun recovers.business
  have few := begun_few found _ (business_numbered recovers.business) (by rw [begun]; omega) recovers.tail
  have ends := recovery_ends _ recovers.tail
  have length := recovery_length recovers.tail_recovery
  rw [begun] at few
  rw [← List.take_append_drop start p.checkpoints, List.length_append]
  simp only [Option.toList_none, List.length_nil] at ends
  omega

theorem sequenced_valid (plan : FrozenExecution) (p : SoftwareProgress) : correctlySequenced p plan = p.validFor plan := by
  have every : ∀ fuel (p : SoftwareProgress), p.checkpoints.length < fuel → sequencedAt plan fuel p = p.validFor plan := by
    intro fuel
    induction fuel with
    | zero => exact fun p none => absurd none (Nat.not_lt_zero _)
    | succ fuel ih =>
      intro p enough
      have shorter : sequencedBody (sequencedAt plan fuel) plan p = sequencedBody (fun q => q.validFor plan) plan p :=
        sequencedBody_congr fun q less => ih q (by omega)
      rw [sequencedAt, shorter, validFor_eq]
      unfold sequencedBody validBody
      cases found : plan.program with
      | none => rfl
      | some program =>
        simp only [Bool.or_eq_true, decide_eq_true_eq]
        by_cases digest : p.contentDigest ≠ plan.digest
        · rw [if_pos digest, if_pos (Or.inl digest)]
        by_cases long : program.steps.length * 17 + 6 < p.checkpoints.length
        · rw [if_neg digest, if_pos (Or.inr long)]
          cases first : p.checkpoints.findIdx? SoftwareCheckpoint.isRecovery with
          | some start =>
            dsimp only
            refine Bool.eq_false_of_not_eq_true fun tail => ?_
            have room := tail_room found first tail
            omega
          | none =>
            dsimp only
            refine Bool.eq_false_of_not_eq_true fun replayed => ?_
            have room := accepted_room found (accepted_of_replay replayed)
            omega
        · rewrite [if_neg digest, if_neg (not_or.mpr ⟨digest, long⟩)]
          rfl
  exact every _ p (Nat.lt_succ_self _)

end Numbers

/-- The records that a plan's validator accepts have accepted prefixes, up to recoveries that would then have begun too late, and it counts
no history out. -/
theorem prefixes_accepted_iff (plan : FrozenExecution) :
    (∀ p : SoftwareProgress, Words p → p.validFor plan = true → ∀ kept,
      (prefixed p kept (durations (p.checkpoints.drop kept))).validFor plan = true ∧
      ∀ reduction ≤ durations (p.checkpoints.drop kept), ((prefixed p kept reduction).validFor plan = true ↔
        BegunInTime plan (p.checkpoints.take kept) (p.elapsedMs - reduction))) ∧
    ∀ p : SoftwareProgress, correctlySequenced p plan = p.validFor plan :=
  ⟨fun _ words valid kept => ⟨prefixed_valid words valid kept, fun _ less => prefixed_valid_iff words valid less⟩, sequenced_valid plan⟩

section Samples
open ProgressCompletion

def lateRecovery : SoftwareProgress :=
  { sampleProgress ([.started 0 .before, .ended 0 0 .before none (some (.present sampleText)) true] ++
      sampleOperation .prepare 0 ++ sampleOperation .mutation 0 ++
      [.cleanupBegin 0 1 1000 1000, .cleanupEnd 0 1 400 (sampleEvidence 0) true]) with
    elapsedMs := 10300 }

/-- Without its last record, but with the time that it took, the history is refused. -/
theorem late_prefix_refused : lateRecovery.validFor removalPlan = true ∧
    0 ≤ durations (lateRecovery.checkpoints.drop 7) ∧ (prefixed lateRecovery 7 0).validFor removalPlan = false ∧
    (prefixed lateRecovery 7 400).validFor removalPlan = true := by decide +kernel

theorem prefixes_accepted_sample : (prefixed lateRecovery 7 400).validFor removalPlan = true ↔
    BegunInTime removalPlan (lateRecovery.checkpoints.take 7) 9900 :=
  ((prefixes_accepted_iff removalPlan).1 lateRecovery ⟨by decide, by decide⟩ (by decide +kernel) 7).2 400 (by decide)

end Samples

end RssMdmAgent.ProgressPrefixes
