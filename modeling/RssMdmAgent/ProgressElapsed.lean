import RssMdmAgent.ProgressTails

set_option autoImplicit false

/-! # Histories whose elapsed time grows -/

namespace RssMdmAgent.ProgressElapsed
open BoundedArithmetic ContractIdentity ContractProcess ProgramInstructions ContractPlan PlanShape
open ProgressHistory ProgressValidity ProgressReplay ProgressLayout ProgressRuns ProgressRecovery ProgressClosure ProgressReserve RunnerRecords
open RunnerWalk ProgressTails

section Growth
variable {plan : FrozenExecution} {program : SoftwareProgram} {p : SoftwareProgress}

theorem allowance_elapsed (found : plan.program = some program) (valid : p.validFor plan = true) {grant : Nat × Nat × Nat × Nat}
    (granted : p.cleanupAllowance plan = some grant) (elapsed : Nat) :
    (atElapsed p elapsed).cleanupAllowance plan = some grant ↔ elapsed < plan.spec.budget.totalTimeoutMs := by
  unfold SoftwareProgress.cleanupAllowance cleanupAllowanceWith at granted ⊢
  rw [found] at granted ⊢
  simp only [Option.bind_eq_bind, Option.bind_some] at granted ⊢
  obtain ⟨step, acquired, granted⟩ := Option.bind_eq_some_iff.mp granted
  obtain ⟨command, invocation, granted⟩ := Option.bind_eq_some_iff.mp granted
  change (lastAcquiring program p.checkpoints).bind _ = _ ↔ _
  rw [acquired, Option.bind_some, invocation, Option.bind_some]
  split at granted
  · cases granted
  next open_ =>
  split at granted
  · cases granted
  next budget =>
  simp only [closedWith, completeWith, valid, Bool.true_and, Bool.or_eq_true, decide_eq_true_eq, not_or, Bool.not_eq_true] at open_ budget
  obtain ⟨⟨few, held⟩, incomplete⟩ := open_
  rw [if_neg]
  · by_cases more : elapsed < plan.spec.budget.totalTimeoutMs
    · rw [if_neg]
      · exact ⟨fun _ => more, fun _ => granted⟩
      · simp only [Bool.or_eq_true, decide_eq_true_eq, not_or]
        exact ⟨Nat.not_le.mpr more, budget.2⟩
    · rw [if_pos]
      · exact ⟨fun granted => absurd granted (by simp), fun less => absurd less more⟩
      · simp only [Bool.or_eq_true, decide_eq_true_eq]
        exact .inl (Nat.le_of_not_lt more)
  · have unreleased : closedWith (fun q => q.validFor plan) plan (atElapsed p elapsed) = false := by
      unfold closedWith
      change (_ && (!(releaseScan plan.program p).pending && decide ((releaseScan plan.program p).resources = ∅))) = false
      rw [held, Bool.and_false]
    have unfinished : completeWith (fun q => q.validFor plan) plan (atElapsed p elapsed) = false := by
      unfold completeWith
      rw [Bool.and_eq_false_iff]
      exact .inr incomplete
    rw [unreleased, unfinished, Bool.or_false, Bool.or_false, decide_eq_true_eq]
    exact few

theorem recoveryNext_elapsed {before : SoftwareProgress} {elapsed : Nat} {c : SoftwareCheckpoint} (recovery : c.isRecovery = true)
    (fits : elapsed + durations [c] ≤ maxWord) :
    recoveryNext (atElapsed before elapsed) c = atElapsed (recoveryNext before c) (elapsed + durations [c]) := by
  cases c with
  | started | ended | complete => cases recovery
  | cleanupBegin => rfl
  | cleanupEnd step sequence durationMs process resourcesClosed =>
    have added : saturatingAdd elapsed durationMs = elapsed + durationMs := saturatingAdd_of_le fits
    rw [recoveryNext, recoveryNext]
    change { before with checkpoints := _, outputBytes := _, elapsedMs := saturatingAdd elapsed durationMs } = _
    rw [added]
    rfl

/-- At other elapsed times the loop accepts the same records as long as every recovery began before the total timeout. -/
theorem recoveryReplay_elapsed (found : plan.program = some program) (tail : List SoftwareCheckpoint) : ∀ {before pending elapsed},
    (∀ recs later, tail = recs ++ later → (recs.foldl recoveryNext before).validFor plan = true) →
    elapsed + durations tail ≤ maxWord → recoveryReplay (fun q => q.validFor plan) plan p before pending tail = true →
    (recoveryReplay (fun q => q.validFor plan) plan p (atElapsed before elapsed) pending tail = true ↔
      ∀ recs step sequence timeoutMs outputBytes later, tail = recs ++ .cleanupBegin step sequence timeoutMs outputBytes :: later →
        elapsed + durations recs < plan.spec.budget.totalTimeoutMs) := by
  induction tail with
  | nil =>
    intro before pending elapsed _ _ _
    refine ⟨fun _ recs step sequence timeoutMs outputBytes later split => ?_, fun _ => rfl⟩
    simp at split
  | cons c rest ih =>
    intro before pending elapsed valid fits replay
    rw [durations_cons, ← Nat.add_assoc] at fits
    have recovery := recoveryReplay_records _ replay c List.mem_cons_self
    rw [recoveryReplay_cons, Bool.and_eq_true] at replay ⊢
    have later : ∀ recs later, rest = recs ++ later → (recs.foldl recoveryNext (recoveryNext before c)).validFor plan = true :=
      fun recs later split => valid (c :: recs) later (by rw [split]; rfl)
    rw [recoveryNext_elapsed recovery (by omega), ih later fits replay.2]
    cases c with
    | started | ended | complete => cases recovery
    | cleanupBegin step sequence timeoutMs outputBytes =>
      have granted : before.cleanupAllowance plan = some (step, sequence, timeoutMs, outputBytes) := beq_iff_eq.mp replay.1
      have held := allowance_elapsed found (valid [] _ rfl) granted elapsed
      have now : recordHolds (fun q => q.validFor plan) plan p (atElapsed before elapsed) pending
          (.cleanupBegin step sequence timeoutMs outputBytes) = true ↔ elapsed < plan.spec.budget.totalTimeoutMs := beq_iff_eq.trans held
      rw [now]
      constructor
      · rintro ⟨first, others⟩ recs i n time bytes later split
        cases recs with
        | nil => exact first
        | cons c recs =>
          obtain ⟨rfl, same⟩ := List.cons.inj split
          have next := others recs i n time bytes later same
          rw [durations_cons, ← Nat.add_assoc]
          exact next
      · intro all
        refine ⟨all [] step sequence timeoutMs outputBytes rest rfl, fun recs i n time bytes later split => ?_⟩
        have next := all (.cleanupBegin step sequence timeoutMs outputBytes :: recs) i n time bytes later (by rw [split]; rfl)
        rw [durations_cons, ← Nat.add_assoc] at next
        exact next
    | cleanupEnd step sequence durationMs process resourcesClosed =>
      constructor
      · rintro ⟨-, others⟩ recs i n time bytes later split
        cases recs with
        | nil => cases split
        | cons c recs =>
          obtain ⟨rfl, same⟩ := List.cons.inj split
          have next := others recs i n time bytes later same
          rw [durations_cons, ← Nat.add_assoc]
          exact next
      · intro all
        refine ⟨replay.1, fun recs i n time bytes later split => ?_⟩
        have next := all (.cleanupEnd step sequence durationMs process resourcesClosed :: recs) i n time bytes later (by rw [split]; rfl)
        rw [durations_cons, ← Nat.add_assoc] at next
        exact next

theorem grantAfter_business {front : List SoftwareCheckpoint} (business : ∀ c ∈ front, c.isRecovery = false) :
    front.foldl grantAfter none = none := by
  cases front using List.reverseRecOn with
  | nil => rfl
  | append_singleton front c =>
    have last := business c (List.mem_append_right _ (List.mem_singleton_self c))
    rw [List.foldl_append]
    cases c with
    | cleanupBegin | cleanupEnd => cases last
    | started | ended | complete => rfl

theorem split_behind {front tail earlier later : List SoftwareCheckpoint} {c : SoftwareCheckpoint} (business : ∀ c ∈ front, c.isRecovery = false)
    (recovery : c.isRecovery = true) (split : front ++ tail = earlier ++ c :: later) :
    ∃ recs, earlier = front ++ recs ∧ tail = recs ++ c :: later := by
  rcases List.append_eq_append_iff.mp split with ⟨recs, same, rest⟩ | ⟨recs, same, rest⟩
  · exact ⟨recs, same, rest⟩
  · cases recs with
    | nil =>
      rw [List.append_nil] at same
      exact ⟨[], by rw [List.append_nil, same], rest.symm⟩
    | cons d recs =>
      obtain ⟨rfl, -⟩ := List.cons.inj rest
      have other := business c (by rw [same]; exact List.mem_append_right _ List.mem_cons_self)
      rw [recovery] at other
      cases other

theorem fronted_fold (words : Words p) {front recs later : List SoftwareCheckpoint} (recovery : ∀ c ∈ recs, c.isRecovery = true)
    (bytes : recoveredBytes (recs ++ later) ≤ p.outputBytes) (time : durations (recs ++ later) ≤ p.elapsedMs) :
    recs.foldl recoveryNext (fronted p front (recs ++ later)) = fronted p (front ++ recs) later := by
  have elapsed := words.elapsed
  have output := words.output
  have same : p.outputBytes - recoveredBytes (recs ++ later) + recoveredBytes recs = p.outputBytes - recoveredBytes later := by
    rw [recoveredBytes_append] at bytes ⊢
    omega
  have spent : p.elapsedMs - durations (recs ++ later) + durations recs = p.elapsedMs - durations later := by
    rw [durations_append] at time ⊢
    omega
  rw [recoveryNext_fold recs recovery]
  · unfold fronted
    dsimp only
    rw [same, spent]
  · change p.outputBytes - recoveredBytes (recs ++ later) + recoveredBytes recs ≤ maxWord
    omega
  · change p.elapsedMs - durations (recs ++ later) + durations recs ≤ maxWord
    omega

def extended (p : SoftwareProgress) (extra : List SoftwareCheckpoint) (elapsed : Nat) : SoftwareProgress :=
  { p with
    checkpoints := p.checkpoints ++ extra
    outputBytes := p.outputBytes + recoveredBytes extra
    elapsedMs := elapsed }

def BegunInTime (plan : FrozenExecution) (cps : List SoftwareCheckpoint) (elapsed : Nat) : Prop :=
  ∀ earlier step sequence timeoutMs outputBytes later, cps = earlier ++ .cleanupBegin step sequence timeoutMs outputBytes :: later →
    elapsed - durations later < plan.spec.budget.totalTimeoutMs

/-- An extended history is valid when its records fit into the elapsed time, every recovery began in time, and the loop accepts the new
records. -/
theorem extended_valid (found : plan.program = some program) (words : Words p) (valid : p.validFor plan = true)
    {extra : List SoftwareCheckpoint} {elapsed : Nat} (recovery : ∀ c ∈ extra, c.isRecovery = true) (fits : elapsed ≤ maxWord)
    (counted : p.outputBytes + recoveredBytes extra ≤ maxWord)
    (room : (p.checkpoints ++ extra).length ≤ program.steps.length * 17 + 6)
    (incomplete : extra ≠ [] → p.checkpoints.countP SoftwareCheckpoint.isComplete ≠ program.steps.length) :
    (extended p extra elapsed).validFor plan = true ↔ durations (p.checkpoints ++ extra) ≤ elapsed ∧
      BegunInTime plan p.checkpoints (elapsed - durations extra) ∧
      recoveryReplay (fun q => q.validFor plan) plan (extended p extra elapsed) (atElapsed p (elapsed - durations extra))
        (p.checkpoints.foldl grantAfter none) extra = true := by
  obtain ⟨front, tail, split, business, recovered⟩ := valid_split valid
  have tailed := (valid_tailed found words split business recovered).mp valid
  have bytes := tailed.bytes
  have time := tailed.time
  have whole : (extended p extra elapsed).checkpoints = front ++ (tail ++ extra) := by
    change p.checkpoints ++ extra = _
    rw [split, List.append_assoc]
  have base : fronted (extended p extra elapsed) front (tail ++ extra) =
      atElapsed (fronted p front tail) (elapsed - durations (tail ++ extra)) := by
    unfold fronted extended atElapsed
    rw [recoveredBytes_append]
    congr 1
    dsimp only
    omega
  have open_ : p.checkpoints.foldl grantAfter none = tail.foldl grantAfter none := by
    rw [split, List.foldl_append, grantAfter_business business]
  have business_ok : (fronted (extended p extra elapsed) front (tail ++ extra)).validFor plan = true ↔
      durations front ≤ elapsed - durations (tail ++ extra) := by
    rw [base]
    exact business_elapsed found business tailed.valid
  have earlier : ∀ recs later, tail = recs ++ later → (recs.foldl recoveryNext (fronted p front tail)).validFor plan = true := by
    intro recs later same
    subst same
    have records : ∀ c ∈ recs, c.isRecovery = true := fun c mem => recovered c (List.mem_append_left _ mem)
    rw [fronted_fold words records bytes time]
    exact earlier_valid found words split business recovered valid
  have loop : durations (tail ++ extra) ≤ elapsed → (recoveryReplay (fun q => q.validFor plan) plan (extended p extra elapsed)
      (atElapsed (fronted p front tail) (elapsed - durations (tail ++ extra))) none tail = true ↔
        BegunInTime plan p.checkpoints (elapsed - durations extra)) := by
    intro covers
    rw [durations_append] at covers
    have shifted := @recoveryReplay_elapsed plan program p found tail _ none (elapsed - durations (tail ++ extra)) earlier
      (by rw [durations_append]; omega) tailed.replay
    have read : recoveryReplay (fun q => q.validFor plan) plan (extended p extra elapsed)
        (atElapsed (fronted p front tail) (elapsed - durations (tail ++ extra))) none tail = true ↔
        recoveryReplay (fun q => q.validFor plan) plan p
          (atElapsed (fronted p front tail) (elapsed - durations (tail ++ extra))) none tail = true :=
      ⟨recoveryReplay_whole (p := extended p extra elapsed) (q := p) rfl rfl rfl tail time,
        recoveryReplay_whole (p := p) (q := extended p extra elapsed) rfl rfl rfl tail (by change durations tail ≤ elapsed; omega)⟩
    rw [read, shifted]
    constructor
    · intro begun front' i n timeoutMs outputBytes later same
      rw [split] at same
      obtain ⟨recs, rfl, rest⟩ := split_behind business rfl same
      have next := begun recs i n timeoutMs outputBytes later rest
      have parts : durations tail = durations recs + durations later := by
        rw [rest, durations_append]
        rfl
      rw [durations_append] at next
      omega
    · intro begun recs i n timeoutMs outputBytes later same
      have next := begun (front ++ recs) i n timeoutMs outputBytes later (by rw [split, same, List.append_assoc])
      have parts : durations tail = durations recs + durations later := by
        rw [same, durations_append]
        rfl
      rw [durations_append]
      omega
  have after : durations (tail ++ extra) ≤ elapsed → tail.foldl recoveryNext
      (atElapsed (fronted p front tail) (elapsed - durations (tail ++ extra))) = atElapsed p (elapsed - durations extra) := by
    intro covers
    have output := words.output
    have same : p.outputBytes - recoveredBytes tail + recoveredBytes tail = p.outputBytes := by omega
    have spent : elapsed - durations (tail ++ extra) + durations tail = elapsed - durations extra := by
      rw [durations_append] at covers ⊢
      omega
    rw [recoveryNext_fold tail recovered]
    · unfold fronted atElapsed
      dsimp only
      rw [same, spent, split]
    · change p.outputBytes - recoveredBytes tail + recoveredBytes tail ≤ maxWord
      omega
    · change elapsed - durations (tail ++ extra) + durations tail ≤ maxWord
      omega
  have records : ∀ c ∈ tail ++ extra, c.isRecovery = true := by
    intro c mem
    exact (List.mem_append.mp mem).elim (recovered c) (recovery c)
  rw [valid_tailed found ⟨fits, counted⟩ whole business records, open_]
  constructor
  · intro extended
    have covers := extended.time
    have replay := extended.replay
    rw [base, recoveryReplay_append, Bool.and_eq_true, after covers] at replay
    refine ⟨?_, (loop covers).mp replay.1, replay.2⟩
    have front_covers := business_ok.mp extended.valid
    rw [split, List.append_assoc, durations_append]
    change durations (tail ++ extra) ≤ elapsed at covers
    omega
  · rintro ⟨covers, begun, added⟩
    rw [split, List.append_assoc, durations_append] at covers
    have tail_covers : durations (tail ++ extra) ≤ elapsed := by omega
    refine ⟨room, ?_, tail_covers, business_ok.mpr (by omega), fun some_ => ?_, ?_⟩
    · change recoveredBytes (tail ++ extra) ≤ p.outputBytes + recoveredBytes extra
      rw [recoveredBytes_append]
      omega
    · by_cases none : tail = []
      · rw [none, List.append_nil] at split
        rw [← split]
        exact incomplete fun empty => some_ (by rw [none, empty]; rfl)
      · exact tailed.incomplete none
    · rw [base, recoveryReplay_append, Bool.and_eq_true, after tail_covers]
      exact ⟨(loop tail_covers).mpr begun, added⟩

theorem recorded_elapsed (found : plan.program = some program) (words : Words p) (valid : p.validFor plan = true) :
    durations p.checkpoints ≤ p.elapsedMs := by
  have same : extended p [] p.elapsedMs = p := by
    unfold extended
    rw [List.append_nil]
    rfl
  obtain ⟨_, found', -, length⟩ := valid_program valid
  rw [found] at found'
  cases found'
  have grown := @extended_valid plan program p found words valid [] p.elapsedMs (fun c mem => absurd mem List.not_mem_nil) words.elapsed
    words.output (by rw [List.append_nil]; exact length) (fun no => absurd rfl no)
  rw [same] at grown
  have covers := (grown.mp valid).1
  rw [List.append_nil] at covers
  exact covers

theorem elapsed_valid_iff (found : plan.program = some program) (words : Words p) (valid : p.validFor plan = true) {elapsed : Nat}
    (later : p.elapsedMs ≤ elapsed) (fits : elapsed ≤ maxWord) :
    (atElapsed p elapsed).validFor plan = true ↔ BegunInTime plan p.checkpoints elapsed := by
  have same : extended p [] elapsed = atElapsed p elapsed := by
    unfold extended
    rw [List.append_nil]
    rfl
  obtain ⟨_, found', -, length⟩ := valid_program valid
  rw [found] at found'
  cases found'
  have covers := Nat.le_trans (recorded_elapsed found words valid) later
  rw [← same, @extended_valid plan program p found words valid [] elapsed (fun c mem => absurd mem List.not_mem_nil) fits words.output
    (by rw [List.append_nil]; exact length) (fun no => absurd rfl no), List.append_nil]
  exact ⟨fun h => h.2.1, fun h => ⟨covers, h, rfl⟩⟩

def isCleanupEnd : SoftwareCheckpoint → Bool
  | .cleanupEnd .. => true
  | _ => false

theorem recovery_ends (tail : List SoftwareCheckpoint) : ∀ {valid : SoftwareProgress → Bool} {before pending},
    recoveryReplay valid plan p before pending tail = true →
    tail.countP isCleanupEnd ≤ tail.countP isCleanupBegin + pending.toList.length := by
  induction tail with
  | nil => exact fun _ => Nat.zero_le _
  | cons c rest ih =>
    intro valid before pending replay
    rw [recoveryReplay_cons, Bool.and_eq_true] at replay
    have others := ih replay.2
    rw [List.countP_cons, List.countP_cons]
    cases c with
    | started | ended | complete => cases replay.1
    | cleanupBegin =>
      simp only [grantAfter, Option.toList_some, List.length_singleton] at others
      simp only [isCleanupEnd, isCleanupBegin, Bool.false_eq_true, if_false, if_true]
      omega
    | cleanupEnd =>
      obtain ⟨grant, open_, -⟩ := (Option.any_eq_true _ _).mp replay.1
      rw [open_]
      simp only [grantAfter, Option.toList_none, Option.toList_some, List.length_nil, List.length_singleton] at others ⊢
      simp only [isCleanupEnd, isCleanupBegin, Bool.false_eq_true, if_false, if_true]
      omega

theorem recovery_length {tail : List SoftwareCheckpoint} (recovery : ∀ c ∈ tail, c.isRecovery = true) :
    tail.length = tail.countP isCleanupBegin + tail.countP isCleanupEnd := by
  induction tail with
  | nil => rfl
  | cons c rest ih =>
    have others := ih fun d mem => recovery d (List.mem_cons_of_mem _ mem)
    have first := recovery c List.mem_cons_self
    rw [List.countP_cons, List.countP_cons, List.length_cons, others]
    cases c with
    | started | ended | complete => cases first
    | cleanupBegin | cleanupEnd =>
      simp only [isCleanupEnd, isCleanupBegin, Bool.false_eq_true, if_false, if_true]
      omega

theorem granted_room (found : plan.program = some program) (words : Words p) (valid : p.validFor plan = true)
    {step sequence timeoutMs outputBytes : Nat} (granted : p.cleanupAllowance plan = some (step, sequence, timeoutMs, outputBytes)) :
    p.checkpoints.length + 2 ≤ program.steps.length * 17 + 6 := by
  obtain ⟨front, tail, split, business, recovered⟩ := valid_split valid
  have tailed := (valid_tailed found words split business recovered).mp valid
  have short := @business_room program plan (fronted p front tail) found business tailed.valid
  change front.length ≤ _ at short
  have grant := allowance_granted found granted
  obtain ⟨command, -, numbered, -, -⟩ := grant.account
  have few := grant.few
  rw [numbered, account_sequence p.checkpoints] at few
  · have none : front.countP isCleanupBegin = 0 := by
      rw [List.countP_eq_zero]
      intro c mem is
      have other := business c mem
      cases c <;> cases is
      cases other
    have ends := recovery_ends tail tailed.replay
    have length := recovery_length recovered
    rw [split, List.countP_append, none] at few
    rw [split, List.length_append]
    simp only [Option.toList_none, List.length_nil] at ends
    omega
  · intro earlier i n time bytes later inner
    obtain ⟨q, rfl, first⟩ := valid_granted found valid inner
    obtain ⟨other, -, same, -, -⟩ := first.account
    exact ⟨i, other, same⟩

theorem granted_incomplete (found : plan.program = some program) (valid : p.validFor plan = true) {grant : Nat × Nat × Nat × Nat}
    (granted : p.cleanupAllowance plan = some grant) : p.checkpoints.countP SoftwareCheckpoint.isComplete ≠ program.steps.length := by
  intro all
  have complete : p.complete plan = true := by
    unfold SoftwareProgress.complete completeWith
    rw [found]
    exact Bool.and_eq_true_iff.mpr ⟨valid, beq_iff_eq.mpr all⟩
  unfold SoftwareProgress.cleanupAllowance cleanupAllowanceWith at granted
  rw [found] at granted
  simp only [Option.bind_eq_bind, Option.bind_some] at granted
  obtain ⟨step, -, granted⟩ := Option.bind_eq_some_iff.mp granted
  obtain ⟨command, -, granted⟩ := Option.bind_eq_some_iff.mp granted
  have complete : completeWith (fun q => q.validFor plan) plan p = true := complete
  rw [complete, Bool.or_true, if_pos rfl] at granted
  cases granted

theorem frozen_output_le (plan : FrozenExecution) : plan.spec.budget.totalOutputBytes ≤ maxSafeInteger := by
  obtain ⟨limits, frozen⟩ := plan.frozen
  have integers := check_ok.mp (freezable_validated frozen).2.1
  exact of_decide_eq_true (List.all_eq_true.mp integers _ (List.mem_cons_of_mem _ List.mem_cons_self))

theorem granted_output_le (found : plan.program = some program) {step sequence timeoutMs outputBytes bytes : Nat}
    (grant : Granted program plan p step sequence timeoutMs outputBytes) (within : bytes ≤ outputBytes) : p.outputBytes + bytes ≤ maxWord := by
  obtain ⟨command, invocation, -, -, slice⟩ := grant.account
  have total := frozen_output_le plan
  have before := grant.budget.2
  unfold SoftwareProgram.invocation at invocation
  split at invocation
  · cases invocation
  next current found' =>
  have bound := (((frozen_shape found).step found').bounds .cleanup command invocation).output_le
  have large : maxSafeInteger + 1048576 ≤ maxWord := by decide
  omega

theorem begun_valid_iff (found : plan.program = some program) (words : Words p) (valid : p.validFor plan = true)
    {step sequence timeoutMs outputBytes elapsed : Nat} (granted : p.cleanupAllowance plan = some (step, sequence, timeoutMs, outputBytes))
    (later : p.elapsedMs ≤ elapsed) (fits : elapsed ≤ maxWord) :
    (extended p [.cleanupBegin step sequence timeoutMs outputBytes] elapsed).validFor plan = true ↔
      elapsed < plan.spec.budget.totalTimeoutMs := by
  have covers := Nat.le_trans (recorded_elapsed found words valid) later
  have room := granted_room found words valid granted
  rw [@extended_valid plan program p found words valid [.cleanupBegin step sequence timeoutMs outputBytes] elapsed
    (fun c mem => by rw [List.mem_singleton.mp mem]; rfl) fits words.output (by rw [List.length_append, List.length_singleton]; omega)
    fun _ => granted_incomplete found valid granted]
  have held : recoveryReplay (fun q => q.validFor plan) plan (extended p [.cleanupBegin step sequence timeoutMs outputBytes] elapsed)
      (atElapsed p elapsed) (p.checkpoints.foldl grantAfter none) [.cleanupBegin step sequence timeoutMs outputBytes] = true ↔
      elapsed < plan.spec.budget.totalTimeoutMs := by
    rw [recoveryReplay_cons, recoveryReplay, Bool.and_true, ← allowance_elapsed found valid granted elapsed]
    exact beq_iff_eq
  constructor
  · intro h
    exact held.mp h.2.2
  · intro less
    refine ⟨by rw [durations_append]; exact covers, fun _ _ _ _ _ _ _ => ?_, held.mpr less⟩
    exact Nat.lt_of_le_of_lt (Nat.le_trans (Nat.sub_le _ _) (Nat.sub_le _ _)) less

/-- The history that a granted recovery and its end leave. -/
def afterCleanup (p : SoftwareProgress) (grant : Nat × Nat × Nat × Nat) (durationMs : Nat) (process : ProcessEvidence) (resourcesClosed : Bool)
    (elapsed : Nat) : SoftwareProgress :=
  { p with
    checkpoints := p.checkpoints ++ [.cleanupBegin grant.1 grant.2.1 grant.2.2.1 grant.2.2.2,
      .cleanupEnd grant.1 grant.2.1 durationMs process resourcesClosed]
    outputBytes := saturatingAdd p.outputBytes process.totalOutputBytes
    elapsedMs := elapsed }

/-- Evidence of the attempt, as any invocation of it gives. -/
structure OwnEvidence (p : SoftwareProgress) (process : ProcessEvidence) (resourcesClosed : Bool) : Prop where
  attempt : process.attemptId = p.attemptId
  digest : process.contentDigest = p.contentDigest
  runner : process.runner = p.runner
  finished : process.finished = true
  retained : saturatingAdd process.stdout.length process.stderr.length ≤ process.totalOutputBytes
  closed : resourcesClosed = true → process.quiescent = true ∧ process.exitedZero = true

/-- The end record of a granted recovery is accepted when its output stayed within the grant and the recovery had begun in time. -/
theorem ended_valid_iff (found : plan.program = some program) (words : Words p) (valid : p.validFor plan = true)
    {grant : Nat × Nat × Nat × Nat} {durationMs elapsed : Nat} {process : ProcessEvidence} {resourcesClosed : Bool}
    (granted : p.cleanupAllowance plan = some grant) (own : OwnEvidence p process resourcesClosed) (fits : elapsed ≤ maxWord) :
    (afterCleanup p grant durationMs process resourcesClosed elapsed).validFor plan = true ↔
      process.totalOutputBytes ≤ grant.2.2.2 ∧ durations p.checkpoints + durationMs ≤ elapsed ∧
        elapsed - durationMs < plan.spec.budget.totalTimeoutMs := by
  obtain ⟨step, sequence, timeoutMs, outputBytes⟩ := grant
  have grant := allowance_granted found granted
  have records : ∀ c ∈ [SoftwareCheckpoint.cleanupBegin step sequence timeoutMs outputBytes,
      .cleanupEnd step sequence durationMs process resourcesClosed], c.isRecovery = true := by
    intro c mem
    rcases List.mem_cons.mp mem with rfl | mem
    · rfl
    · rw [List.mem_singleton.mp mem]
      rfl
  have held : ∀ (q : SoftwareProgress) {before pending}, q.attemptId = p.attemptId → q.contentDigest = p.contentDigest →
      q.runner = p.runner → (recoveryReplay (fun q => q.validFor plan) plan q before pending
        [.cleanupBegin step sequence timeoutMs outputBytes, .cleanupEnd step sequence durationMs process resourcesClosed] = true ↔
      before.cleanupAllowance plan = some (step, sequence, timeoutMs, outputBytes) ∧ process.totalOutputBytes ≤ outputBytes ∧
        durationMs ≤ q.elapsedMs) := by
    intro q before pending attempt digest runner
    rw [recoveryReplay_cons, recoveryReplay_cons, recoveryReplay, Bool.and_true, Bool.and_eq_true]
    refine and_congr beq_iff_eq ?_
    change recoveryBound q (step, sequence, timeoutMs, outputBytes) step sequence durationMs process resourcesClosed = true ↔ _
    unfold recoveryBound
    rw [attempt, digest, runner]
    simp only [Bool.and_eq_true, Bool.or_eq_true, Bool.not_eq_true', beq_iff_eq, decide_eq_true_eq, own.attempt, own.digest, own.runner,
      own.finished, own.retained, and_true, true_and]
    constructor
    · rintro ⟨h, -⟩
      exact h
    · intro h
      refine ⟨h, ?_⟩
      cases closed : resourcesClosed with
      | false => exact .inl rfl
      | true => exact .inr (own.closed closed)
  have output : process.totalOutputBytes ≤ outputBytes → p.outputBytes + process.totalOutputBytes ≤ maxWord :=
    granted_output_le found grant
  have room := granted_room found words valid granted
  have whole : process.totalOutputBytes ≤ outputBytes → afterCleanup p (step, sequence, timeoutMs, outputBytes) durationMs process resourcesClosed
      elapsed = extended p [.cleanupBegin step sequence timeoutMs outputBytes,
        .cleanupEnd step sequence durationMs process resourcesClosed] elapsed := by
    intro within
    unfold afterCleanup extended
    rw [saturatingAdd_of_le (output within)]
    rfl
  have grown := fun within : process.totalOutputBytes ≤ outputBytes => @extended_valid plan program p found words valid
    [.cleanupBegin step sequence timeoutMs outputBytes, .cleanupEnd step sequence durationMs process resourcesClosed] elapsed records fits
    (output within) (by rw [List.length_append]; exact room) fun _ => granted_incomplete found valid granted
  constructor
  · intro valid'
    have within : process.totalOutputBytes ≤ outputBytes := by
      obtain ⟨front, tail, split, business, recovered⟩ := valid_split valid
      have tailed := (@valid_tailed _ _ _ front _ found ⟨fits, Nat.min_le_right _ _⟩
        (by change p.checkpoints ++ _ = _; rw [split, List.append_assoc]) business
        fun c mem => (List.mem_append.mp mem).elim (recovered c) (records c)).mp valid'
      have replay := tailed.replay
      rw [recoveryReplay_append, Bool.and_eq_true] at replay
      exact ((held (afterCleanup p (step, sequence, timeoutMs, outputBytes) durationMs process resourcesClosed elapsed) rfl rfl rfl).mp replay.2).2.1
    rw [whole within, grown within] at valid'
    obtain ⟨covers, -, replay⟩ := valid'
    refine ⟨within, ?_, ?_⟩
    · rw [durations_append] at covers
      exact covers
    · exact (allowance_elapsed found valid granted _).mp ((held (extended p [.cleanupBegin step sequence timeoutMs outputBytes,
        .cleanupEnd step sequence durationMs process resourcesClosed] elapsed) rfl rfl rfl).mp replay).1
  · rintro ⟨within, covers, begun⟩
    rw [whole within, grown within]
    refine ⟨by rw [durations_append]; exact covers, fun _ _ _ _ _ later _ => ?_, ?_⟩
    · change elapsed - durationMs - durations later < _
      omega
    · refine (held (extended p [.cleanupBegin step sequence timeoutMs outputBytes,
        .cleanupEnd step sequence durationMs process resourcesClosed] elapsed) rfl rfl rfl).mpr ⟨(allowance_elapsed found valid granted _).mpr begun, within, ?_⟩
      change durationMs ≤ elapsed
      omega

end Growth

end RssMdmAgent.ProgressElapsed
