import RssMdmAgent.LifecycleConsistency
import RssMdmAgent.LifecycleDocuments

set_option autoImplicit false

/-! # Every reachable lifecycle state can be stored and read back -/

namespace RssMdmAgent.LifecycleStorable
open BoundedArithmetic JsonDocument JsonEncoding ContractIdentity ContractPlan LifecycleModel LifecycleState LifecycleSteps LifecycleRuns
open LifecycleAdvances LifecycleConsistency LifecycleDocuments TransitionRuns

/-- The sole bounded format, read back and validated. -/
def decode (text : CompactText) (plan : FrozenExecution) (bytes : String) (limits : Limits) : Except LifecycleError Execution := do
  validateLimits limits
  if limits.maxSnapshotBytes < bytes.utf8ByteSize then .error .limit
  else
    match (text.fromSlice bytes).bind readSnapshot with
    | none => .error .snapshot
    | some s => restore plan s limits

def unstorable : LifecycleError → Bool
  | .snapshot | .limit => true
  | _ => false

def InputWords : Input → Prop
  | .command event => event.expectedRevision ≤ maxWord ∧ CommandWords event.command
  | .observation event verify => event.expectedRevision ≤ maxWord ∧ ∀ plan attempt evidence now facts,
      now ≤ maxWord → verify plan attempt evidence now = .ok facts → facts.observedAtUnixMs ≤ maxWord ∧ ObservationWords facts.observation

structure WordInput where
  input : Input
  now : Nat
  words : InputWords input
  time : now ≤ maxWord

inductive WordStep : Execution → Label → Execution → Prop where
  | applied {e : Execution} (i : WordInput) {ev : Evaluation} {t : Transition} (evaluated : e.evaluateInput i.input i.now = .ok ev)
      (offered : ev.transition = some t) : WordStep e (.applied i.input.record i.now) t.next
  | restored {e e' : Execution} {limits : Limits} (stored : restore e.plan e.snapshot limits = .ok e') : WordStep e .restored e'

section Words
variable {e e' : Execution} {directive : Directive} {next : Snapshot} {a a' : AttemptSnapshot} {label : Label}

theorem record_words {input : Input} (words : InputWords input) : EventWords input.record := by
  cases input with
  | command event => exact words
  | observation event verify => exact words.1

theorem observed_words {i : WordInput} {o : RecordedObservation} (observed : Observed e i.input i.now a o) : RecordedWords o := by
  obtain ⟨event, verify, facts, source, -, verified, rfl⟩ := observed.source
  have words := i.words
  rw [source] at words
  exact words.2 _ _ _ _ _ i.time verified

theorem updates_words {i : WordInput} (words : AttemptWords a) (h : Updates e i.input i.now a a') : AttemptWords a' := by
  cases h with
  | kept => exact words
  | dispatched | uncertain | unconfirmed | stopped => exact ⟨words.number, words.accepted, words.termination, words.assessment, words.output⟩
  | counted source =>
    obtain ⟨event, attemptId, source, command⟩ := source
    have counted := i.words
    rw [source] at counted
    have counted := counted.2
    rw [command] at counted
    exact { words with output := counted }
  | ended observed _ _ _ counts =>
    have recorded := observed_words observed
    refine { words with termination := fun o found => ?_, output := ?_ }
    · cases found
      exact recorded
    · have bytes := recorded.2
      rcases counts with same | observation | ⟨code, observation⟩
      · exact same ▸ words.output
      · rw [observation] at bytes
        exact bytes
      · rw [observation] at bytes
        exact bytes.2
  | assessed observed =>
    refine { words with assessment := fun o found => ?_ }
    cases found
    exact observed_words observed

theorem committed_words (i : WordInput) (words : SnapshotWords e.snapshot) (room : e.snapshot.revision + 1 ≤ maxWord)
    (h : Advances e directive i.now i.input next) : SnapshotWords (committed e.snapshot next i.input.record i.now) := by
  have event : ∀ event, some i.input.record = some event → EventWords event := by
    rintro event ⟨⟩
    exact record_words i.words
  cases h with
  | prepared | cancelled | recovered =>
    exact ⟨words.version, words.opened, i.time, room, words.first, words.attempts, words.prior, words.attempt, event⟩
  | begun _ _ _ _ _ counted =>
    refine ⟨words.version, words.opened, i.time, room, fun time started => ?_, counted, Nat.min_le_right _ _, fun a found => ?_, event⟩
    · cases found : e.snapshot.firstAttemptAtUnixMs with
      | none =>
        change some (e.snapshot.firstAttemptAtUnixMs.getD i.now) = _ at started
        rw [found] at started
        cases started
        exact i.time
      | some first =>
        change some (e.snapshot.firstAttemptAtUnixMs.getD i.now) = _ at started
        rw [found] at started
        cases started
        exact words.first first found
    · cases found
      exact ⟨counted, i.time, nofun, nofun, Nat.zero_le _⟩
  | updated found updates =>
    refine ⟨words.version, words.opened, i.time, room, words.first, words.attempts, words.prior, fun b current => ?_, event⟩
    cases current
    exact updates_words (words.attempt _ found) updates

theorem revision_le (e : Execution) : e.snapshot.revision ≤ maxWord := by
  have c := consistent e
  cases last : e.snapshot.lastEvent with
  | none =>
    rw [c.received last]
    exact Nat.zero_le _
  | some event =>
    obtain ⟨same, bound⟩ := checkedAdd_eq_some.mp (c.follows event last)
    rw [same]
    exact bound

theorem step_words (words : SnapshotWords e.snapshot) (h : WordStep e label e') : SnapshotWords e'.snapshot := by
  cases h with
  | restored stored =>
    obtain ⟨-, snapshot, -⟩ := restore_ok stored
    rw [snapshot]
    exact words
  | @applied i ev t evaluated offered =>
    obtain ⟨directive, next, -, advances, -, stored⟩ := evaluateInput_advances evaluated offered
    have room := revision_le t.next
    rw [stored] at room ⊢
    exact committed_words i words room advances

theorem opened_words {plan : FrozenExecution} {now : Nat} (time : now ≤ maxWord) : SnapshotWords (openedSnapshot plan now) := by
  refine ⟨Nat.le_of_ble_eq_true rfl, time, time, Nat.zero_le _, ?_, Nat.zero_le _, Nat.zero_le _, ?_, ?_⟩ <;> intro _ found <;> cases found

theorem runs_words {plan : FrozenExecution} {opened : Nat} {limits : Limits} {start : Execution} {labels : List Label} (time : opened ≤ maxWord)
    (creation : Execution.create plan opened limits = .ok start) (run : Runs WordStep start labels e) : SnapshotWords e.snapshot := by
  refine run.invariant (fun e => SnapshotWords e.snapshot) ?_ fun _ _ _ words h => step_words words h
  obtain ⟨-, snapshot, -⟩ := restore_ok creation
  rw [snapshot]
  exact opened_words time

end Words

section Errors
variable {e : Execution} {directive : Directive} {now : Nat} {error : LifecycleError}

theorem withCurrentAttempt_error {s : Snapshot} {id : AttemptId} {update : AttemptSnapshot → Except LifecycleError AttemptSnapshot}
    (h : withCurrentAttempt s id update = .error error) : error = .attempt ∨ ∃ a, update a = .error error := by
  unfold withCurrentAttempt at h
  split at h
  · cases h
    exact .inl rfl
  next a found =>
  split at h
  · rcases bind_error.mp h with failed | ⟨_, _, failed⟩
    · exact .inr ⟨a, failed⟩
    · cases failed
  · cases h
    exact .inl rfl

theorem recordObservation_error {a : AttemptSnapshot} {o : RecordedObservation} (h : recordObservation a o = .error error) :
    unstorable error = false := by
  unfold recordObservation at h
  repeat' split at h
  all_goals cases h <;> rfl

theorem applyObservation_error {event : ObservationEvent} {verify : ObservationVerifier}
    (h : applyObservation e event now verify = .error error) : unstorable error = false := by
  rcases withCurrentAttempt_error h with rfl | ⟨a, h⟩
  · rfl
  split at h
  · cases h
    rfl
  split at h
  · cases h
    rfl
  · exact recordObservation_error h

theorem applyCommand_error {command : Command} (h : applyCommand e command directive now = .error error) : unstorable error = false := by
  cases command with
  | prepare | wait =>
    simp only [applyCommand] at h
    split at h <;> cases h
    rfl
  | beginAttempt attemptId runner mode =>
    simp only [applyCommand] at h
    repeat' split at h
    all_goals cases h <;> rfl
  | cancel | recover => cases h
  | dispatched attemptId =>
    rcases withCurrentAttempt_error h with rfl | ⟨a, h⟩
    · rfl
    · split at h <;> cases h
      rfl
  | dispatchUnconfirmed attemptId cause =>
    rcases withCurrentAttempt_error h with rfl | ⟨a, h⟩
    · rfl
    · cases h
  | stopReported attemptId outcome =>
    rcases withCurrentAttempt_error h with rfl | ⟨a, h⟩
    · rfl
    · cases h
  | output attemptId totalBytes =>
    rcases withCurrentAttempt_error h with rfl | ⟨a, h⟩
    · rfl
    · split at h <;> cases h
      rfl

theorem apply_error {input : Input} (h : e.apply input directive now = .error error) : unstorable error = false := by
  cases input with
  | command event => exact applyCommand_error h
  | observation event verify => exact applyObservation_error h

theorem directive_error (h : e.directive now = .error error) : error = .clock := by
  unfold Execution.directive at h
  dsimp only at h
  split at h
  · cases h
    rfl
  · cases h

end Errors

/-- What is stored is valid, small enough, and read back as it was. -/
structure Storable (text : CompactText) (e : Execution) : Prop where
  evaluates : ∀ i : WordInput, ∀ error, e.evaluateInput i.input i.now = .error error → error ≠ .snapshot ∧ error ≠ .limit
  successors : ∀ (i : WordInput) (directive : Directive) (next : Snapshot), e.directive i.now = .ok directive →
    i.input.record.expectedRevision = e.snapshot.revision → e.snapshot.revision ≠ maxWord → e.apply i.input directive i.now = .ok next →
    validate e.plan (committed e.snapshot next i.input.record i.now) e.limits = .ok () ∧
      (text.toVec (committed e.snapshot next i.input.record i.now).toJson).utf8ByteSize ≤ minSnapshotBytes
  reloads : ∀ limits, validateLimits limits = .ok () → ∃ e', decode text e.plan (text.toVec e.snapshot.toJson) limits = .ok e' ∧
    e'.plan = e.plan ∧ e'.snapshot = e.snapshot ∧ e'.phase = e.phase ∧ ∀ now, e'.directive now = e.directive now

section Storage
variable {e : Execution} {directive : Directive} {next : Snapshot}

theorem snapshot_size {s : Snapshot} (words : SnapshotWords s) : s.toJson.size ≤ minSnapshotBytes :=
  (@snapshot_within 0 s words).size

theorem words_validate {plan : FrozenExecution} {s : Snapshot} {limits : Limits} (bounded : validateLimits limits = .ok ())
    (c : Consistent plan s) (words : SnapshotWords s) : validate plan s limits = .ok () := by
  have reserved : minSnapshotBytes ≤ limits.maxSnapshotBytes := of_decide_eq_true (require_ok.mp bounded)
  exact validate_iff.mpr ⟨c, Nat.le_trans (snapshot_size words) reserved⟩

theorem limits_valid (e : Execution) : validateLimits e.limits = .ok () := by
  obtain ⟨⟨⟩, bounded, -⟩ := bind_ok.mp e.valid
  exact bounded

theorem successor_words (i : WordInput) (words : SnapshotWords e.snapshot) (room : e.snapshot.revision ≠ maxWord)
    (applied : e.apply i.input directive i.now = .ok next) : SnapshotWords (committed e.snapshot next i.input.record i.now) := by
  have bounded := revision_le e
  exact committed_words i words (by omega) (apply_advances applied)

theorem successor_valid (i : WordInput) (words : SnapshotWords e.snapshot) (advised : e.directive i.now = .ok directive)
    (revision : i.input.record.expectedRevision = e.snapshot.revision) (room : e.snapshot.revision ≠ maxWord)
    (applied : e.apply i.input directive i.now = .ok next) :
    validate e.plan (committed e.snapshot next i.input.record i.now) e.limits = .ok () :=
  words_validate (limits_valid e) (committed_consistent advised revision room (apply_advances applied)) (successor_words i words room applied)

theorem restore_of_validate {plan : FrozenExecution} {s : Snapshot} {limits : Limits} (bounded : validateLimits limits = .ok ())
    (checks : validate plan s limits = .ok ()) : ∃ e, restore plan s limits = .ok e := by
  have restorable : restorable plan s limits = .ok () := bind_ok.mpr ⟨(), bounded, checks⟩
  unfold restore
  split
  · exact ⟨_, rfl⟩
  · next error failed =>
    rw [restorable] at failed
    cases failed

theorem evaluate_storable (i : WordInput) (words : SnapshotWords e.snapshot) {error : LifecycleError}
    (h : e.evaluateInput i.input i.now = .error error) : unstorable error = false := by
  rcases bind_error.mp h with failed | ⟨directive, advised, h⟩
  · rw [directive_error failed]
    rfl
  split at h
  · split at h <;> cases h
    rfl
  split at h
  · cases h
  split at h
  · cases h
    rfl
  next revision =>
  rw [not_or, not_not] at revision
  rcases bind_error.mp h with failed | ⟨next, applied, h⟩
  · exact apply_error failed
  obtain ⟨successor, restored⟩ := restore_of_validate (limits_valid e) (successor_valid i words advised revision.1 revision.2 applied)
  rw [restored] at h
  rcases bind_error.mp h with failed | ⟨_, same, h⟩
  · cases failed
  rcases bind_error.mp h with failed | ⟨_, _, h⟩
  · rw [directive_error failed]
    rfl
  · cases h

theorem decode_toVec (text : CompactText) (words : SnapshotWords e.snapshot) {limits : Limits} (bounded : validateLimits limits = .ok ()) :
    decode text e.plan (text.toVec e.snapshot.toJson) limits = restore e.plan e.snapshot limits := by
  have reserved : minSnapshotBytes ≤ limits.maxSnapshotBytes := of_decide_eq_true (require_ok.mp bounded)
  have size := snapshot_size words
  have read : text.fromSlice (text.toVec e.snapshot.toJson) = some e.snapshot.toJson := text.fromSlice_toVec _ (@snapshot_within 122 _ words).fits
  unfold decode
  rw [bounded]
  change (if limits.maxSnapshotBytes < (text.toVec e.snapshot.toJson).utf8ByteSize then _ else _) = _
  rw [text.toVec_size, if_neg (by omega), read, Option.bind_some, readSnapshot_toJson words]

theorem same_derived {e e' : Execution} (plan : e'.plan = e.plan) (snapshot : e'.snapshot = e.snapshot) :
    e'.phase = e.phase ∧ ∀ now, e'.directive now = e.directive now := by
  refine ⟨?_, fun now => ?_⟩
  · unfold Execution.phase
    rw [snapshot]
  · unfold Execution.directive Execution.limitReason Execution.totalOutputBytes
    rw [plan, snapshot]

theorem words_storable (text : CompactText) (words : SnapshotWords e.snapshot) : Storable text e := by
  refine ⟨fun i error failed => ?_, fun i directive next advised revision room applied => ⟨?_, ?_⟩, fun limits bounded => ?_⟩
  · have storable := evaluate_storable i words failed
    refine ⟨?_, ?_⟩ <;> rintro rfl <;> cases storable
  · exact successor_valid i words advised revision room applied
  · rw [text.toVec_size]
    exact snapshot_size (successor_words i words room applied)
  · obtain ⟨e', restored⟩ := restore_of_validate bounded (words_validate bounded (consistent e) words)
    obtain ⟨plan, snapshot, -⟩ := restore_ok restored
    exact ⟨e', (decode_toVec text words bounded).trans restored, plan, snapshot, same_derived plan snapshot⟩

/-- Whatever happened since an execution was opened, it can go on, be stored, and be restored from what was stored. -/
theorem reached_storable (text : CompactText) {plan : FrozenExecution} {opened : Nat} {limits : Limits} {start : Execution} {labels : List Label}
    (time : opened ≤ maxWord) (creation : Execution.create plan opened limits = .ok start) (run : Runs WordStep start labels e) :
    Storable text e :=
  words_storable text (runs_words time creation run)

end Storage

section Samples

def wordCommand (id : String) (valid : validId id = true) (revision : Nat) (command : Command) (now : Nat) (expected : revision ≤ maxWord)
    (words : CommandWords command) (time : now ≤ maxWord) : WordInput :=
  ⟨.command ⟨⟨id, valid⟩, revision, command⟩, now, ⟨expected, words⟩, time⟩

theorem reports_words {event : ObservationEvent} {observation : Observation} (expected : event.expectedRevision ≤ maxWord)
    (words : ObservationWords observation) : InputWords (.observation event (reports observation)) := by
  refine ⟨expected, fun plan attempt evidence now facts time verified => ?_⟩
  cases verified
  exact ⟨time, words⟩

/-- An attempt that exits and is found to have no effect. -/
def assessed : List WordInput :=
  [wordCommand "event-0" (.refl true) 0 .prepare 1 (by decide) trivial (by decide),
    wordCommand "event-1" (.refl true) 1 (.beginAttempt firstAttempt processRunner .real) 2 (by decide) trivial (by decide),
    wordCommand "event-2" (.refl true) 2 (.dispatched firstAttempt) 3 (by decide) trivial (by decide),
    ⟨.observation ⟨⟨"event-3", .refl true⟩, 3, firstAttempt, processEvidence .processExited⟩ (reports (.exited 1 7)), 4,
      reports_words (by decide) ⟨by decide, by decide⟩, by decide⟩,
    ⟨.observation ⟨⟨"event-4", .refl true⟩, 4, firstAttempt, processEvidence .stateObserved⟩ (reports (.effect .noEffect)), 5,
      reports_words (by decide) trivial, by decide⟩]

theorem wordInputs_runs {e e' : Execution} (inputs : List WordInput)
    (h : inputs.foldlM (fun e i => advance e (i.input, i.now)) e = some e') :
    Runs WordStep e (inputs.map fun i => .applied i.input.record i.now) e' := by
  refine Runs.of_foldlM (fun e (i : WordInput) => advance e (i.input, i.now)) _ ?_ inputs h
  intro e i e' h
  obtain ⟨ev, t, evaluated, offered, rfl⟩ := advance_evaluated h
  exact .applied i evaluated offered

theorem reached_storable_sample : ∃ e, e.phase = .verified ∧ Storable plainCompact e := by
  have computed : ((Execution.create processPlan 0 processLimits).toOption.bind fun start =>
      (assessed.foldlM (fun e i => advance e (i.input, i.now)) start).map Execution.phase) = some .verified := by decide +kernel
  obtain ⟨start, creation, computed⟩ := Option.bind_eq_some_iff.mp computed
  obtain ⟨e, run, verified⟩ := Option.map_eq_some_iff.mp computed
  exact ⟨e, verified, reached_storable plainCompact (Nat.zero_le _) (toOption_ok creation) (wordInputs_runs assessed run)⟩

end Samples

end RssMdmAgent.LifecycleStorable
