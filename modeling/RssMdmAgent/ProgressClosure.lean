import RssMdmAgent.ProgressCompletion

set_option autoImplicit false

/-! # What a closed history leaves behind -/

namespace RssMdmAgent.ProgressClosure
open BoundedArithmetic ContractIdentity ContractProcess ProgramInstructions ContractPlan PlanShape
open ProgressHistory ProgressValidity ProgressReplay ProgressLayout ProgressRuns ProgressRecovery
open ProgressCompletion

def releases (step : Nat) : SoftwareCheckpoint → Bool
  | .ended _ i .cleanup process _ _ => i == step && process.any ProcessEvidence.exitedZero
  | .cleanupEnd i _ _ _ resourcesClosed => i == step && resourcesClosed
  | _ => false

def closesResources : SoftwareCheckpoint → Bool
  | .cleanupEnd _ _ _ _ resourcesClosed => resourcesClosed
  | _ => false

/-- Nothing is left running and nothing is left held. -/
structure Released (program : SoftwareProgram) (p : SoftwareProgress) : Prop where
  begun : ∀ earlier step phase later, p.checkpoints = earlier ++ .started step phase :: later →
    ∃ durationMs process detected quiescent rest,
      later = .ended durationMs step phase process detected quiescent :: rest
  recovered : ∀ earlier step sequence timeoutMs outputBytes later,
    p.checkpoints = earlier ++ .cleanupBegin step sequence timeoutMs outputBytes :: later →
    ∃ durationMs process resourcesClosed rest,
      later = .cleanupEnd step sequence durationMs process resourcesClosed :: rest
  quiet : ∀ earlier durationMs step phase process detected quiescent later,
    p.checkpoints = earlier ++ .ended durationMs step phase process detected quiescent :: later →
    phase ≠ .cleanup → quiescent = true ∨
      (originalActivityEnded p = true ∧ ∃ c ∈ later, closesResources c = true)
  held : ∀ earlier step phase later, p.checkpoints = earlier ++ .started step phase :: later →
    program.acquiresResources step phase = true → ∃ c ∈ later, releases step c = true

def UnquietObservation (p : SoftwareProgress) : Prop :=
  ∃ earlier durationMs step phase process detected next later,
    p.checkpoints =
      earlier ++ .ended durationMs step phase process detected false :: next :: later ∧
      phase.isObservation = true

section Scan
variable {program : SoftwareProgram} {p : SoftwareProgress}

theorem releaseStep_held {scan : ReleaseScan} {step : Nat} (held : step ∈ scan.resources)
    (checkpoint : SoftwareCheckpoint) :
    step ∈ (releaseStep (some program) p scan checkpoint).resources ∨
      releases step checkpoint = true := by
  cases checkpoint with
  | started i phase =>
    left
    dsimp only [releaseStep]
    split
    · exact Finset.mem_insert_of_mem held
    · exact held
  | ended durationMs i phase process detected quiescent =>
    dsimp only [releaseStep]
    split
    · next closing =>
      by_cases same : step = i
      · right
        obtain ⟨rfl, zero⟩ := closing
        simp [releases, same, zero]
      · exact .inl (Finset.mem_erase.mpr ⟨same, held⟩)
    · exact .inl held
  | cleanupBegin => exact .inl held
  | cleanupEnd i sequence durationMs process resourcesClosed =>
    dsimp only [releaseStep]
    split
    · next closing =>
      by_cases same : step = i
      · right
        simp [releases, same, closing]
      · exact .inl (Finset.mem_erase.mpr ⟨same, held⟩)
    · exact .inl held
  | complete => exact .inl held

theorem released_of_empty {step : Nat} (cps : List SoftwareCheckpoint) : ∀ {scan : ReleaseScan},
    step ∈ scan.resources → (cps.foldl (releaseStep (some program) p) scan).resources = ∅ →
      ∃ c ∈ cps, releases step c = true := by
  induction cps with
  | nil =>
    intro scan held empty
    rw [List.foldl_nil] at empty
    rw [empty] at held
    cases held
  | cons checkpoint rest ih =>
    intro scan held empty
    rcases releaseStep_held held checkpoint with held | now
    · obtain ⟨c, mem, released⟩ := ih held empty
      exact ⟨c, List.mem_cons_of_mem _ mem, released⟩
    · exact ⟨checkpoint, List.mem_cons_self, now⟩

theorem held_of_closed (empty : (releaseOver program p p.checkpoints).resources = ∅) :
    ∀ earlier step phase later, p.checkpoints = earlier ++ .started step phase :: later →
      program.acquiresResources step phase = true → ∃ c ∈ later, releases step c = true := by
  intro earlier step phase later split acquires
  rw [split, releaseOver, List.foldl_append, List.foldl_cons] at empty
  refine released_of_empty later ?_ empty
  dsimp only [releaseStep]
  rw [if_pos acquires]
  exact Finset.mem_insert_self _ _

theorem originalActivityScan_unquiet {durationMs step : Nat} {phase : SoftwarePhase}
    {process : Option ProcessEvidence} {detected : Option SoftwareState}
    {later : List SoftwareCheckpoint} (operation : phase ≠ .cleanup)
    (earlier : List SoftwareCheckpoint) (business : ∀ c ∈ earlier, c.isRecovery = false) :
    ∀ pending, originalActivityScan pending
      (earlier ++ .ended durationMs step phase process detected false :: later) = false := by
  induction earlier with
  | nil =>
    intro pending
    simp [originalActivityScan, operation]
  | cons checkpoint rest ih =>
    intro pending
    have tail := ih fun c mem => business c (List.mem_cons_of_mem _ mem)
    have head := business checkpoint List.mem_cons_self
    cases checkpoint with
    | started i phase => exact tail _
    | ended d i phase pr de quiescent =>
      simp only [List.cons_append, originalActivityScan]
      split
      · rfl
      · exact tail _
    | cleanupBegin | cleanupEnd => cases head
    | complete i => exact tail _

theorem originalActivityScan_begun {step : Nat} {phase : SoftwarePhase}
    {later : List SoftwareCheckpoint} (earlier : List SoftwareCheckpoint)
    (business : ∀ c ∈ earlier, c.isRecovery = false)
    (recovery : ∀ c ∈ later, c.isRecovery = true) : ∀ pending,
      originalActivityScan pending (earlier ++ .started step phase :: later) = true →
      phase = .cleanup := by
  induction earlier with
  | nil =>
    intro pending ended
    rw [List.nil_append, originalActivityScan] at ended
    cases later with
    | nil => simpa [originalActivityScan] using ended
    | cons checkpoint rest =>
      have head := recovery checkpoint List.mem_cons_self
      cases checkpoint with
      | started | ended | complete => cases head
      | cleanupBegin | cleanupEnd => simpa [originalActivityScan] using ended
  | cons checkpoint rest ih =>
    intro pending ended
    have tail := ih fun c mem => business c (List.mem_cons_of_mem _ mem)
    have head := business checkpoint List.mem_cons_self
    cases checkpoint with
    | started i phase => exact tail _ ended
    | ended d i phase pr de quiescent =>
      simp only [List.cons_append, originalActivityScan] at ended
      split at ended
      · cases ended
      · exact tail _ ended
    | cleanupBegin | cleanupEnd => cases head
    | complete i => exact tail _ ended

end Scan

section Recovery
variable {plan : FrozenExecution} {p : SoftwareProgress} {program : SoftwareProgram}

theorem allowance_none {q : SoftwareProgress} {step : Nat} {command : SoftwareInvocation}
    {valid : SoftwareProgress → Bool} (found : plan.program = some program)
    (acquired : lastAcquiring program q.checkpoints = some step)
    (invocation : program.invocation step .cleanup = some command)
    (spent : command.timeoutMs ≤ (cleanupAccount step command q.checkpoints).debit.elapsed) :
    cleanupAllowanceWith valid plan q = none := by
  unfold cleanupAllowanceWith
  rw [found]
  simp only [Option.bind_eq_bind, Option.bind_some, acquired, invocation]
  split
  · rfl
  split
  · rfl
  rw [if_neg]
  omega

theorem debit_elapsed {a : CleanupAccount} {time bytes limit : Nat}
    (pending : a.pending = some (time, bytes)) (word : limit ≤ maxWord)
    (covers : limit ≤ a.elapsed + time) : limit ≤ a.debit.elapsed := by
  unfold CleanupAccount.debit
  rw [pending]
  exact Nat.le_min.mpr ⟨covers, word⟩

theorem cleanupAccount_append (step : Nat) (command : SoftwareInvocation)
    (cps : List SoftwareCheckpoint) (checkpoint : SoftwareCheckpoint) :
    cleanupAccount step command (cps ++ [checkpoint]) =
      cleanupAccountStep step command (cleanupAccount step command cps) checkpoint := by
  rw [cleanupAccount, List.foldl_append]
  rfl

theorem cleanup_timeout_le (shape : ProgramShape program) {step : Nat}
    {command : SoftwareInvocation} (invocation : program.invocation step .cleanup = some command) :
    command.timeoutMs ≤ maxWord := by
  unfold SoftwareProgram.invocation at invocation
  split at invocation
  · cases invocation
  next current found =>
  have bounds := (shape.step found).bounds .cleanup command invocation
  exact Nat.le_trans bounds.timeout_le (by decide)

theorem allowance_after_begin (shape : ProgramShape program) (found : plan.program = some program)
    {q : SoftwareProgress} {step sequence timeoutMs outputBytes : Nat}
    {valid : SoftwareProgress → Bool}
    (granted : cleanupAllowanceWith valid plan q = some (step, sequence, timeoutMs, outputBytes)) :
    cleanupAllowanceWith valid plan
      { q with checkpoints :=
        q.checkpoints ++ [.cleanupBegin step sequence timeoutMs outputBytes] } = none := by
  unfold cleanupAllowanceWith at granted
  rw [found] at granted
  simp only [Option.bind_eq_bind, Option.bind_some] at granted
  obtain ⟨i, acquired, granted⟩ := Option.bind_eq_some_iff.mp granted
  obtain ⟨command, invocation, granted⟩ := Option.bind_eq_some_iff.mp granted
  split at granted
  · cases granted
  split at granted
  · cases granted
  split at granted
  · next positive =>
    cases granted
    refine allowance_none found ?_ invocation ?_
    · rw [lastAcquiring_append]
      exact acquired
    · rw [cleanupAccount_append]
      refine debit_elapsed rfl (cleanup_timeout_le shape invocation) ?_
      change command.timeoutMs ≤ (cleanupAccount step command q.checkpoints).debit.elapsed +
        (command.timeoutMs - (cleanupAccount step command q.checkpoints).debit.elapsed)
      omega
  · cases granted

theorem allowance_after_cleanup (shape : ProgramShape program) (found : plan.program = some program)
    {valid : SoftwareProgress → Bool} {q r : SoftwareProgress} {earlier : List SoftwareCheckpoint}
    {step : Nat} {s : Replay} (run : Replayed program r (earlier ++ [.started step .cleanup]) s)
    (cps : q.checkpoints = earlier ++ [.started step .cleanup]) :
    cleanupAllowanceWith valid plan q = none := by
  have sound := run.sound shape
  obtain ⟨before, first, h⟩ := run.last
  cases h with
  | @started current _ inside idle incomplete next =>
  have enters : entered { before with
      position := skipFailed before .cleanup, pending := some .cleanup } := by
    have nonzero : skipFailed before .cleanup ≠ 0 := by
      intro zero
      have fresh := sound.fresh zero
      change before.phases = [.before] at fresh
      rw [zero, fresh] at next
      cases next
    unfold entered
    simp only [Option.isSome_some, and_true]
    omega
  have acquired := ((run.release shape).acquired enters (mem_remaining (sound.pending _ rfl))).2
  change lastAcquiring program _ = some before.index at acquired
  rw [← cps] at acquired
  cases invocation : program.invocation before.index .cleanup with
  | none =>
    unfold cleanupAllowanceWith
    rw [found]
    simp only [Option.bind_eq_bind, Option.bind_some, acquired, invocation, Option.bind_none]
  | some command =>
    apply allowance_none found acquired invocation
    rw [cps, cleanupAccount_append]
    have pending : (cleanupAccountStep before.index command
        (cleanupAccount before.index command earlier) (.started before.index .cleanup)).pending =
        some (command.timeoutMs, command.outputBytes) := by
      simp only [cleanupAccountStep, if_true]
    exact debit_elapsed pending (cleanup_timeout_le shape invocation) (Nat.le_add_left _ _)

/-- Inside a recovery tail a begun call is followed by its own end. -/
theorem recovery_matched (shape : ProgramShape program) (found : plan.program = some program)
    {valid : SoftwareProgress → Bool} {step sequence timeoutMs outputBytes : Nat}
    {next : SoftwareCheckpoint} {later : List SoftwareCheckpoint}
    (earlier : List SoftwareCheckpoint) : ∀ {before pending},
      recoveryReplay valid plan p before pending
        (earlier ++ .cleanupBegin step sequence timeoutMs outputBytes :: next :: later) = true →
      ∃ durationMs process resourcesClosed,
        next = .cleanupEnd step sequence durationMs process resourcesClosed := by
  induction earlier with
  | nil =>
    intro before pending h
    rw [List.nil_append, recoveryReplay, Bool.and_eq_true, beq_iff_eq] at h
    obtain ⟨granted, h⟩ := h
    unfold recoveryReplay at h
    cases next with
    | started | ended | complete => cases h
    | cleanupBegin =>
      dsimp only at h
      rw [allowance_after_begin shape found granted, Bool.and_eq_true] at h
      cases h.1
    | cleanupEnd i n durationMs process resourcesClosed =>
      dsimp only at h
      rw [Bool.and_eq_true] at h
      simp only [recoveryBound, Bool.and_eq_true, beq_iff_eq] at h
      obtain ⟨⟨⟨⟨⟨⟨⟨⟨⟨⟨rfl, rfl⟩, -⟩, -⟩, -⟩, -⟩, -⟩, -⟩, -⟩, -⟩, -⟩ := h
      exact ⟨durationMs, process, resourcesClosed, rfl⟩
  | cons checkpoint rest ih =>
    intro before pending h
    rw [List.cons_append] at h
    unfold recoveryReplay at h
    cases checkpoint with
    | started | ended | complete => cases h
    | cleanupBegin =>
      rw [Bool.and_eq_true] at h
      exact ih h.2
    | cleanupEnd =>
      cases pending with
      | none => cases h
      | some grant =>
        rw [Bool.and_eq_true] at h
        exact ih h.2

theorem recovery_ended (tail : List SoftwareCheckpoint) :
    ∀ {valid : SoftwareProgress → Bool} {before pending scan},
      recoveryReplay valid plan p before pending tail = true →
      (pending.isSome → scan.pending = true) →
      (tail.foldl (releaseStep (some program) p) scan).pending = false →
      scan.pending = false ∨ originalActivityEnded p = true := by
  induction tail with
  | nil => intro _ _ _ _ _ _ idle; exact .inl idle
  | cons checkpoint rest ih =>
    intro valid before pending scan h open_ idle
    unfold recoveryReplay at h
    cases checkpoint with
    | started | ended | complete => cases h
    | cleanupBegin =>
      rw [Bool.and_eq_true] at h
      rcases ih h.2 (fun _ => rfl) idle with impossible | ended
      · cases impossible
      · exact .inr ended
    | cleanupEnd step sequence durationMs process resourcesClosed =>
      cases pending with
      | none => cases h
      | some grant =>
        rw [Bool.and_eq_true] at h
        rcases ih h.2 (by simp) idle with now | ended
        · cases resourcesClosed with
          | false =>
            rw [releaseStep, if_neg (by simp)] at now
            exact .inl now
          | true =>
            rw [releaseStep, if_pos rfl] at now
            right
            simpa using now
        · exact .inr ended

end Recovery

section Closed
variable {plan : FrozenExecution} {p : SoftwareProgress} {program : SoftwareProgram}

theorem last_of_idle (earlier : List SoftwareCheckpoint) {checkpoint : SoftwareCheckpoint}
    {later : List SoftwareCheckpoint}
    (idle : (releaseOver program p (earlier ++ checkpoint :: later)).pending = false)
    (running : (releaseStep (some program) p (releaseOver program p earlier)
      checkpoint).pending = true) : ∃ next rest, later = next :: rest := by
  cases later with
  | nil =>
    rw [releaseOver_append, running] at idle
    cases idle
  | cons next rest => exact ⟨next, rest, rfl⟩

theorem released_of_business (found : plan.program = some program) (valid : p.validFor plan = true)
    (business : ∀ c ∈ p.checkpoints, c.isRecovery = false)
    (idle : (releaseOver program p p.checkpoints).pending = false)
    (empty : (releaseOver program p p.checkpoints).resources = ∅)
    (quiet : ¬ UnquietObservation p) : Released program p := by
  have accepted := accepted_of_replay ((valid_of_business found business).mp valid).2.2
  refine ⟨?_, ?_, ?_, held_of_closed empty⟩
  · intro earlier step phase later split
    rw [split] at idle
    obtain ⟨next, rest, rfl⟩ := last_of_idle earlier idle rfl
    obtain ⟨durationMs, process, detected, quiescent, rfl⟩ := accepted.begun split
    exact ⟨durationMs, process, detected, quiescent, rest, rfl⟩
  · intro earlier step sequence timeoutMs outputBytes later split
    have not := business _ (split ▸ List.mem_append_right _ List.mem_cons_self)
    cases not
  · intro earlier durationMs step phase process detected quiescent later split _
    cases quiescent with
    | true => exact .inl rfl
    | false =>
      exfalso
      rw [split] at idle
      obtain ⟨next, rest, rfl⟩ := last_of_idle earlier idle rfl
      have observation := accepted.unquiet split (by simp)
      exact quiet ⟨earlier, durationMs, step, phase, process, detected, next, rest, split, observation⟩

theorem business_before {start output elapsed : Nat}
    (recovers : Recovers plan p start output elapsed) {earlier later : List SoftwareCheckpoint}
    {checkpoint : SoftwareCheckpoint} (split : p.checkpoints = earlier ++ checkpoint :: later)
    (business : checkpoint.isRecovery = false) : ∃ rest,
      p.checkpoints.take start = earlier ++ checkpoint :: rest ∧
        later = rest ++ p.checkpoints.drop start := by
  have early : earlier.length < start := by
    by_contra late
    have mem : checkpoint ∈ p.checkpoints.drop start := by
      rw [split, List.drop_append_of_le_length (Nat.le_of_not_lt late)]
      exact List.mem_append_right _ List.mem_cons_self
    rw [recovers.tail_recovery _ mem] at business
    cases business
  refine ⟨later.take (start - earlier.length - 1), ?_, ?_⟩
  · rw [split, List.take_append, List.take_of_length_le (Nat.le_of_lt early),
      show start - earlier.length = (start - earlier.length - 1) + 1 by omega, List.take_succ_cons]
    rfl
  · conv_rhs => rw [split]
    rw [List.drop_append, List.drop_of_length_le (Nat.le_of_lt early), List.nil_append,
      show start - earlier.length = (start - earlier.length - 1) + 1 by omega, List.drop_succ_cons]
    simp

theorem recovery_activity_ended {start output elapsed : Nat}
    (recovers : Recovers plan p start output elapsed)
    (idle : (releaseOver program p p.checkpoints).pending = false) :
    originalActivityEnded p = true := by
  have tail := recovers.tail
  rw [← List.take_append_drop start p.checkpoints, releaseOver, List.foldl_append] at idle
  have nonempty : p.checkpoints.drop start ≠ [] := by
    rw [ne_eq, List.drop_eq_nil_iff]
    exact Nat.not_le_of_lt recovers.inside
  generalize p.checkpoints.drop start = records at tail idle nonempty
  cases records with
  | nil => exact absurd rfl nonempty
  | cons checkpoint rest =>
    unfold recoveryReplay at tail
    cases checkpoint with
    | started | ended | complete => cases tail
    | cleanupEnd => cases tail
    | cleanupBegin =>
      rw [Bool.and_eq_true] at tail
      rcases recovery_ended rest tail.2 (fun _ => rfl) idle with impossible | ended
      · cases impossible
      · exact ended

theorem open_cleanup_ungranted (found : plan.program = some program) {start output elapsed step : Nat}
    (recovers : Recovers plan p start output elapsed) {earlier : List SoftwareCheckpoint}
    (front : p.checkpoints.take start = earlier ++ [.started step .cleanup]) : False := by
  have shape := frozen_shape found
  have accepted : Accepted program (beforeRecovery p start output elapsed)
      (p.checkpoints.take start) :=
    accepted_of_replay ((valid_of_business found recovers.business).mp recovers.valid).2.2
  obtain ⟨s, run, ⟨t, h⟩ | ⟨-, _, h⟩⟩ := accepted.at front
  · have tail := recovers.tail
    cases records : p.checkpoints.drop start with
    | nil =>
      rw [List.drop_eq_nil_iff] at records
      exact absurd recovers.inside (Nat.not_lt_of_le records)
    | cons checkpoint rest =>
      rw [records] at tail
      unfold recoveryReplay at tail
      cases checkpoint with
      | started | ended | complete => cases tail
      | cleanupEnd => cases tail
      | cleanupBegin =>
        dsimp only at tail
        rw [allowance_after_cleanup shape found (.next run h) front, Bool.and_eq_true] at tail
        cases tail.1
  · cases h

theorem released_of_recovery (found : plan.program = some program) {start output elapsed : Nat}
    (recovers : Recovers plan p start output elapsed)
    (idle : (releaseOver program p p.checkpoints).pending = false)
    (empty : (releaseOver program p p.checkpoints).resources = ∅) : Released program p := by
  have shape := frozen_shape found
  have ended := recovery_activity_ended recovers idle
  have accepted : Accepted program (beforeRecovery p start output elapsed)
      (p.checkpoints.take start) :=
    accepted_of_replay ((valid_of_business found recovers.business).mp recovers.valid).2.2
  refine ⟨?_, ?_, ?_, held_of_closed empty⟩
  · intro earlier step phase later split
    obtain ⟨rest, front, rfl⟩ := business_before recovers split rfl
    cases rest with
    | cons next rest =>
      obtain ⟨durationMs, process, detected, quiescent, rfl⟩ := accepted.begun front
      exact ⟨durationMs, process, detected, quiescent, _, rfl⟩
    | nil =>
      -- only a cleanup can be left open, and then nothing is granted to a recovery
      exfalso
      have business : ∀ c ∈ earlier, c.isRecovery = false := fun c mem =>
        recovers.business c (front ▸ List.mem_append_left _ mem)
      rw [originalActivityEnded, split] at ended
      obtain rfl := originalActivityScan_begun earlier business recovers.tail_recovery _ ended
      exact open_cleanup_ungranted found recovers front
  · intro earlier step sequence timeoutMs outputBytes later split
    have late : start ≤ earlier.length := by
      by_contra early
      have mem : SoftwareCheckpoint.cleanupBegin step sequence timeoutMs outputBytes ∈
          p.checkpoints.take start := by
        rw [split, List.take_append,
          show start - earlier.length = (start - earlier.length - 1) + 1 by omega,
          List.take_succ_cons]
        exact List.mem_append_right _ List.mem_cons_self
      have business := recovers.business _ mem
      cases business
    have tail := recovers.tail
    rw [split, List.drop_append_of_le_length late] at tail
    rw [split] at idle
    obtain ⟨next, rest, rfl⟩ := last_of_idle earlier idle rfl
    obtain ⟨durationMs, process, resourcesClosed, rfl⟩ := recovery_matched shape found _ tail
    exact ⟨durationMs, process, resourcesClosed, rest, rfl⟩
  · intro earlier durationMs step phase process detected quiescent later split operation
    cases quiescent with
    | true => exact .inl rfl
    | false =>
      exfalso
      obtain ⟨rest, front, rfl⟩ := business_before recovers split rfl
      have business : ∀ c ∈ earlier, c.isRecovery = false := fun c mem =>
        recovers.business c (front ▸ List.mem_append_left _ mem)
      rw [originalActivityEnded, split, originalActivityScan_unquiet operation _ business] at ended
      cases ended

theorem unquiet_not_ended {earlier later : List SoftwareCheckpoint} {durationMs step : Nat}
    {phase : SoftwarePhase} {process : Option ProcessEvidence} {detected : Option SoftwareState}
    (valid : p.validFor plan = true)
    (split : p.checkpoints = earlier ++ .ended durationMs step phase process detected false :: later)
    (operation : phase ≠ .cleanup) : originalActivityEnded p = false := by
  rw [originalActivityEnded, split]
  apply originalActivityScan_unquiet operation
  by_contra recovery
  push Not at recovery
  obtain ⟨c, mem, is⟩ := recovery
  have is := Bool.eq_true_of_not_eq_false is
  obtain ⟨start, output, elapsed, recovers⟩ := valid_recovers valid
    ⟨c, split ▸ List.mem_append_left _ mem, is⟩
  obtain ⟨rest, front, -⟩ := business_before recovers split rfl
  have not := recovers.business c (front ▸ List.mem_append_left _ mem)
  rw [is] at not
  cases not

/-- A closed history leaves nothing behind exactly when no observation that was not quiescent is
followed by another record. -/
theorem closed_released_iff (plan : FrozenExecution) (program : SoftwareProgram)
    (p : SoftwareProgress) (found : plan.program = some program)
    (closed : p.closed plan = true) : Released program p ↔ ¬ UnquietObservation p := by
  obtain ⟨valid, idle, empty⟩ := (closed_iff found).mp closed
  constructor
  · rintro released ⟨earlier, d, step, phase, process, detected, next, later, split, observation⟩
    have operation : phase ≠ .cleanup := by
      rintro rfl
      cases observation
    rcases released.quiet _ _ _ _ _ _ _ _ split operation with quiet | ⟨ended, -⟩
    · cases quiet
    · rw [unquiet_not_ended valid split operation] at ended
      cases ended
  · intro quiet
    by_cases recovery : ∃ c ∈ p.checkpoints, c.isRecovery = true
    · obtain ⟨start, output, elapsed, recovers⟩ := valid_recovers valid recovery
      exact released_of_recovery found recovers idle empty
    · push Not at recovery
      exact released_of_business found valid
        (fun c mem => Bool.eq_false_of_not_eq_true (recovery c mem)) idle empty quiet

end Closed

section Samples

def sampleProgram (plan : FrozenExecution) : SoftwareProgram :=
  plan.program.getD ⟨sampleDigest, .detect, []⟩

theorem closed_released_sample :
    Released (sampleProgram removalPlan) (removalHistory 0) ↔
      ¬ UnquietObservation (removalHistory 0) :=
  closed_released_iff removalPlan (sampleProgram removalPlan) (removalHistory 0) rfl
    (by decide +kernel)

def scriptedPlan : FrozenExecution where
  spec := sampleInput .uninstall ⟨"software.uninstall", .refl true⟩
    (sampleStep .deny [.prepare, .mutation, .cleanup] {0} (.script (sampleInvocation {0})))
  digest := sampleDigest
  frozen := ⟨sampleLimits, by decide +kernel⟩

def runningEvidence : ProcessEvidence := { sampleEvidence 0 with quiescent := false }

def unquietHistory : SoftwareProgress :=
  sampleProgress
    ([.started 0 .before,
        .ended 0 0 .before (some runningEvidence) (some (.present sampleText)) false] ++
      sampleOperation .prepare 0 ++ sampleOperation .mutation 0 ++ sampleOperation .cleanup 0)

/-- The history is closed although the detector of its first record was never accounted for. -/
theorem closed_over_running_detector :
    unquietHistory.validFor scriptedPlan = true ∧ unquietHistory.closed scriptedPlan = true ∧
      ¬ Released (sampleProgram scriptedPlan) unquietHistory := by
  refine ⟨by decide +kernel, by decide +kernel, ?_⟩
  intro released
  rcases released.quiet [.started 0 .before] 0 0 .before (some runningEvidence)
    (some (.present sampleText)) false _ rfl (by decide) with quiet | ⟨ended, -⟩
  · cases quiet
  · revert ended
    decide +kernel

end Samples

end RssMdmAgent.ProgressClosure
