import RssMdmAgent.JsonEncoding
import RssMdmAgent.LifecycleState

set_option autoImplicit false

/-! # Stored snapshots are read back -/

namespace RssMdmAgent.LifecycleDocuments
open BoundedArithmetic JsonDocument JsonEncoding ContractIdentity LifecycleModel LifecycleState

/-! ## Readers -/

def lookupName {α : Type} (name : String) : List (String × α) → Option α
  | [] => none
  | (key, value) :: rest => if key = name then some value else lookupName name rest

def readText : Json → Option String
  | .text s => some s
  | _ => none

def readBool : Json → Option Bool
  | .bool b => some b
  | _ => none

def readNat (max : Nat) : Json → Option Nat
  | .int (.ofNat n) => if n ≤ max then some n else none
  | _ => none

def readExitCode : Json → Option Int
  | .int n => if -2 ^ 31 ≤ n ∧ n < 2 ^ 31 then some n else none
  | _ => none

def readId (j : Json) : Option Identifier := (readText j).bind fun s => if h : validId s = true then some ⟨s, h⟩ else none
def readDigest (j : Json) : Option Digest := (readText j).bind fun s => if h : validDigest s = true then some ⟨s, h⟩ else none

def readOption {α : Type} (read : Json → Option α) : Option Json → Option (Option α)
  | none | some .null => some none
  | some j => (read j).map some

def readName {α : Type} (names : List (String × α)) : Json → Option α
  | .text s | .object [(s, .null)] => lookupName s names
  | _ => none

def fields (names : List String) : Json → Option (String → Option Json)
  | .object members =>
    if members.all (fun m => names.contains m.1) && decide (members.map Prod.fst).Nodup then some fun name => lookupName name members else none
  | _ => none

def tagOf : Json → Option String
  | .object members => (lookupName "kind" members).bind readText
  | _ => none

def readVersionedRef (j : Json) : Option VersionedRef := do
  let find ← fields ["id", "revision"] j
  let id ← (find "id").bind readId
  let revision ← (find "revision").bind readId
  return ⟨id, revision⟩

def readEvidenceKind : Json → Option EvidenceKind :=
  readName [("testResult", .testResult), ("processExited", .processExited), ("stateObserved", .stateObserved)]

def readEvidenceRef (j : Json) : Option EvidenceRef := do
  let find ← fields ["reference", "kind", "runner"] j
  let reference ← (find "reference").bind readVersionedRef
  let kind ← (find "kind").bind readEvidenceKind
  let runner ← (find "runner").bind readId
  return ⟨reference, kind, runner⟩

def readMode : Json → Option ExecutionMode := readName [("test", .test), ("real", .real)]

def readPreparation : Json → Option Preparation :=
  readName [("received", .received), ("prepared", .prepared), ("waiting", .waiting)]

def readDispatch : Json → Option DispatchState
  | .object [("unknown", body)] => do
    let find ← fields ["dispatched"] body
    let was ← (find "dispatched").bind readBool
    return .unknown was
  | j => readName [("starting", .starting), ("dispatched", .dispatched)] j

def readAssessment : Json → Option EffectAssessment :=
  readName [("noEffect", .noEffect), ("satisfied", .satisfied), ("notSatisfied", .notSatisfied), ("unknown", .unknown)]

def readTagged {α : Type} (readers : List (String × (Json → Option α))) (j : Json) : Option α :=
  (tagOf j).bind fun tag => (lookupName tag readers).bind fun read => read j

def readUnit {α : Type} (value : α) (j : Json) : Option α := (fields ["kind"] j).map fun _ => value

def readExited (j : Json) : Option Observation := do
  let find ← fields ["kind", "exitCode", "totalOutputBytes"] j
  let code ← (find "exitCode").bind readExitCode
  let bytes ← (find "totalOutputBytes").bind (readNat maxWord)
  return .exited code bytes

def readNeverDispatched (j : Json) : Option Observation := do
  let find ← fields ["kind", "totalOutputBytes"] j
  let bytes ← (find "totalOutputBytes").bind (readNat maxWord)
  return .neverDispatched bytes

def readEffect (j : Json) : Option Observation := do
  let find ← fields ["kind", "assessment"] j
  let assessment ← (find "assessment").bind readAssessment
  return .effect assessment

def readObservation : Json → Option Observation :=
  readTagged [("exited", readExited), ("neverDispatched", readNeverDispatched), ("quiescent", readUnit .quiescent), ("effect", readEffect),
    ("uncertain", readUnit .uncertain)]

def readRecorded (j : Json) : Option RecordedObservation := do
  let find ← fields ["evidence", "observedAtUnixMs", "observation"] j
  let evidence ← (find "evidence").bind readEvidenceRef
  let observedAt ← (find "observedAtUnixMs").bind (readNat maxWord)
  let observation ← (find "observation").bind readObservation
  return ⟨evidence, observedAt, observation⟩

def readLimitReason : Json → Option LimitReason :=
  readName [("notYetValid", .notYetValid), ("expired", .expired), ("timeout", .timeout), ("output", .output), ("attempts", .attempts)]

def readCause : Json → Option DispatchCause
  | .object [("limit", reason)] => (readLimitReason reason).map .limit
  | j => readName [("clockUnavailable", .clockUnavailable), ("cancelled", .cancelled), ("staleRevision", .staleRevision),
      ("runnerMismatch", .runnerMismatch), ("authorityUnavailable", .authorityUnavailable), ("lifecycleChanged", .lifecycleChanged),
      ("runnerRejected", .runnerRejected), ("deliveryUnknown", .deliveryUnknown), ("runnerError", .runnerError)] j

def readStopOutcome : Json → Option StopOutcome := readName [("acknowledged", .acknowledged), ("failed", .failed)]

def readAttempt (j : Json) : Option AttemptSnapshot := do
  let find ← fields ["id", "number", "acceptedAtUnixMs", "runner", "mode", "dispatch", "dispatchCause", "stopOutcome", "termination",
    "assessment", "outputBytes"] j
  let id ← (find "id").bind readId
  let number ← (find "number").bind (readNat maxAttemptCount)
  let acceptedAt ← (find "acceptedAtUnixMs").bind (readNat maxWord)
  let runner ← (find "runner").bind readId
  let mode ← (find "mode").bind readMode
  let dispatch ← (find "dispatch").bind readDispatch
  let cause ← readOption readCause (find "dispatchCause")
  let stopOutcome ← readOption readStopOutcome (find "stopOutcome")
  let termination ← readOption readRecorded (find "termination")
  let assessment ← readOption readRecorded (find "assessment")
  let outputBytes ← (find "outputBytes").bind (readNat maxWord)
  return ⟨id, number, acceptedAt, runner, mode, dispatch, cause, stopOutcome, termination, assessment, outputBytes⟩

def readBegin (j : Json) : Option Command := do
  let find ← fields ["kind", "attemptId", "runner", "mode"] j
  let attemptId ← (find "attemptId").bind readId
  let runner ← (find "runner").bind readId
  let mode ← (find "mode").bind readMode
  return .beginAttempt attemptId runner mode

def readDispatched (j : Json) : Option Command := do
  let find ← fields ["kind", "attemptId"] j
  let attemptId ← (find "attemptId").bind readId
  return .dispatched attemptId

def readUnconfirmed (j : Json) : Option Command := do
  let find ← fields ["kind", "attemptId", "cause"] j
  let attemptId ← (find "attemptId").bind readId
  let cause ← (find "cause").bind readCause
  return .dispatchUnconfirmed attemptId cause

def readStopReported (j : Json) : Option Command := do
  let find ← fields ["kind", "attemptId", "outcome"] j
  let attemptId ← (find "attemptId").bind readId
  let outcome ← (find "outcome").bind readStopOutcome
  return .stopReported attemptId outcome

def readOutput (j : Json) : Option Command := do
  let find ← fields ["kind", "attemptId", "totalBytes"] j
  let attemptId ← (find "attemptId").bind readId
  let totalBytes ← (find "totalBytes").bind (readNat maxWord)
  return .output attemptId totalBytes

def readCommand : Json → Option Command :=
  readTagged [("prepare", readUnit .prepare), ("wait", readUnit .wait), ("beginAttempt", readBegin), ("dispatched", readDispatched),
    ("dispatchUnconfirmed", readUnconfirmed), ("stopReported", readStopReported), ("cancel", readUnit .cancel),
    ("recover", readUnit .recover), ("output", readOutput)]

def readCommandEvent (j : Json) : Option CommandEvent := do
  let find ← fields ["id", "expectedRevision", "command"] j
  let id ← (find "id").bind readId
  let expected ← (find "expectedRevision").bind (readNat maxWord)
  let command ← (find "command").bind readCommand
  return ⟨id, expected, command⟩

def readObservationEvent (j : Json) : Option ObservationEvent := do
  let find ← fields ["id", "expectedRevision", "attemptId", "evidence"] j
  let id ← (find "id").bind readId
  let expected ← (find "expectedRevision").bind (readNat maxWord)
  let attemptId ← (find "attemptId").bind readId
  let evidence ← (find "evidence").bind readEvidenceRef
  return ⟨id, expected, attemptId, evidence⟩

def readEventBody {α : Type} (read : Json → Option α) (j : Json) : Option α := do
  let find ← fields ["kind", "event"] j
  (find "event").bind read

def readEvent : Json → Option EventRecord :=
  readTagged [("command", fun j => (readEventBody readCommandEvent j).map .command),
    ("observation", fun j => (readEventBody readObservationEvent j).map .observation)]

def readSnapshot (j : Json) : Option Snapshot := do
  let find ← fields ["version", "requestId", "contentDigest", "openedAtUnixMs", "updatedAtUnixMs", "revision", "preparation",
    "cancelRequested", "firstAttemptAtUnixMs", "attempts", "priorOutputBytes", "attempt", "lastEvent"] j
  let version ← (find "version").bind (readNat 255)
  let requestId ← (find "requestId").bind readId
  let contentDigest ← (find "contentDigest").bind readDigest
  let openedAt ← (find "openedAtUnixMs").bind (readNat maxWord)
  let updatedAt ← (find "updatedAtUnixMs").bind (readNat maxWord)
  let revision ← (find "revision").bind (readNat maxWord)
  let preparation ← (find "preparation").bind readPreparation
  let cancelRequested ← (find "cancelRequested").bind readBool
  let firstAttemptAt ← readOption (readNat maxWord) (find "firstAttemptAtUnixMs")
  let attempts ← (find "attempts").bind (readNat maxAttemptCount)
  let priorOutputBytes ← (find "priorOutputBytes").bind (readNat maxWord)
  let attempt ← readOption readAttempt (find "attempt")
  let lastEvent ← readOption readEvent (find "lastEvent")
  return ⟨version, requestId, contentDigest, openedAt, updatedAt, revision, preparation, cancelRequested, firstAttemptAt, attempts,
    priorOutputBytes, attempt, lastEvent⟩

/-! ## Machine words -/

def ObservationWords : Observation → Prop
  | .exited exitCode bytes => (-2 ^ 31 ≤ exitCode ∧ exitCode < 2 ^ 31) ∧ bytes ≤ maxWord
  | .neverDispatched bytes => bytes ≤ maxWord
  | .quiescent | .effect _ | .uncertain => True

def RecordedWords (o : RecordedObservation) : Prop := o.observedAtUnixMs ≤ maxWord ∧ ObservationWords o.observation

structure AttemptWords (a : AttemptSnapshot) : Prop where
  number : a.number ≤ maxAttemptCount
  accepted : a.acceptedAtUnixMs ≤ maxWord
  termination : ∀ o, a.termination = some o → RecordedWords o
  assessment : ∀ o, a.assessment = some o → RecordedWords o
  output : a.outputBytes ≤ maxWord

def CommandWords : Command → Prop
  | .output _ totalBytes => totalBytes ≤ maxWord
  | _ => True

def EventWords : EventRecord → Prop
  | .command event => event.expectedRevision ≤ maxWord ∧ CommandWords event.command
  | .observation event => event.expectedRevision ≤ maxWord

/-- Every number of the snapshot fits its machine type. -/
structure SnapshotWords (s : Snapshot) : Prop where
  version : s.version ≤ 255
  opened : s.openedAtUnixMs ≤ maxWord
  updated : s.updatedAtUnixMs ≤ maxWord
  revision : s.revision ≤ maxWord
  first : ∀ time, s.firstAttemptAtUnixMs = some time → time ≤ maxWord
  attempts : s.attempts ≤ maxAttemptCount
  prior : s.priorOutputBytes ≤ maxWord
  attempt : ∀ a, s.attempt = some a → AttemptWords a
  event : ∀ event, s.lastEvent = some event → EventWords event

section RoundTrip

@[simp] theorem readId_text (id : Identifier) : readId (.text id.value) = some id := by
  simp [readId, readText, id.valid]

@[simp] theorem readDigest_text (digest : Digest) : readDigest (.text digest.value) = some digest := by
  simp [readDigest, readText, digest.valid]

theorem readNat_nat {max n : Nat} (fits : n ≤ max) : readNat max (.nat n) = some n := by
  simp [readNat, Json.nat, fits]

theorem readOption_option {α : Type} {read : Json → Option α} (write : α → Json) {o : Option α}
    (solid : ∀ x, o = some x → write x ≠ .null) (back : ∀ x, o = some x → read (write x) = some x) : readOption read (some (.option write o)) = some o := by
  cases o with
  | none => rfl
  | some x =>
    have kept := back x rfl
    have written := solid x rfl
    change readOption read (some (write x)) = some (some x)
    cases h : write x with
    | null => exact absurd h written
    | bool | int | text | array | object =>
      rw [h] at kept
      change (read _).map some = _
      rw [kept]
      rfl

theorem readVersionedRef_toJson (r : VersionedRef) : readVersionedRef r.toJson = some r := by
  change ((readId (.text r.id.value)).bind fun id => (readId (.text r.revision.value)).bind fun revision => some ⟨id, revision⟩) = some r
  rw [readId_text, readId_text]
  rfl

theorem readEvidenceKind_toJson (kind : EvidenceKind) : readEvidenceKind kind.toJson = some kind := by
  cases kind <;> rfl

theorem readEvidenceRef_toJson (e : EvidenceRef) : readEvidenceRef e.toJson = some e := by
  change ((readVersionedRef e.reference.toJson).bind fun reference => (readEvidenceKind e.kind.toJson).bind fun kind =>
    (readId (.text e.runner.value)).bind fun runner => some ⟨reference, kind, runner⟩) = some e
  rw [readVersionedRef_toJson, readEvidenceKind_toJson, readId_text]
  rfl

theorem readMode_toJson (mode : ExecutionMode) : readMode mode.toJson = some mode := by
  cases mode <;> rfl

theorem readPreparation_toJson (preparation : Preparation) : readPreparation preparation.toJson = some preparation := by
  cases preparation <;> rfl

theorem readDispatch_toJson (dispatch : DispatchState) : readDispatch dispatch.toJson = some dispatch := by
  cases dispatch <;> rfl

theorem readAssessment_toJson (assessment : EffectAssessment) : readAssessment assessment.toJson = some assessment := by
  cases assessment <;> rfl

theorem readObservation_toJson {o : Observation} (words : ObservationWords o) : readObservation o.toJson = some o := by
  cases o with
  | exited code bytes =>
    obtain ⟨range, counted⟩ := words
    have read : readExitCode (.int code) = some code := if_pos range
    change ((readExitCode (.int code)).bind fun code => (readNat maxWord (.nat bytes)).bind fun bytes => some (Observation.exited code bytes)) = _
    rw [read, readNat_nat counted]
    rfl
  | neverDispatched bytes =>
    have counted : bytes ≤ maxWord := words
    change ((readNat maxWord (.nat bytes)).bind fun bytes => some (Observation.neverDispatched bytes)) = _
    rw [readNat_nat counted]
    rfl
  | quiescent | uncertain => rfl
  | effect assessment =>
    change ((readAssessment assessment.toJson).bind fun assessment => some (Observation.effect assessment)) = _
    rw [readAssessment_toJson]
    rfl

theorem readRecorded_toJson {o : RecordedObservation} (words : RecordedWords o) : readRecorded o.toJson = some o := by
  change ((readEvidenceRef o.evidence.toJson).bind fun evidence => (readNat maxWord (.nat o.observedAtUnixMs)).bind fun observedAt =>
    (readObservation o.observation.toJson).bind fun observation => some ⟨evidence, observedAt, observation⟩) = some o
  rw [readEvidenceRef_toJson, readNat_nat words.1, readObservation_toJson words.2]
  rfl

theorem readCause_toJson (cause : DispatchCause) : readCause cause.toJson = some cause := by
  cases cause with
  | limit reason => cases reason <;> rfl
  | _ => rfl

theorem readStopOutcome_toJson (outcome : StopOutcome) : readStopOutcome outcome.toJson = some outcome := by
  cases outcome <;> rfl

theorem readAttempt_toJson {a : AttemptSnapshot} (words : AttemptWords a) : readAttempt a.toJson = some a := by
  change ((readId (.text a.id.value)).bind fun id => (readNat maxAttemptCount (.nat a.number)).bind fun number =>
    (readNat maxWord (.nat a.acceptedAtUnixMs)).bind fun acceptedAt => (readId (.text a.runner.value)).bind fun runner =>
    (readMode a.mode.toJson).bind fun mode => (readDispatch a.dispatch.toJson).bind fun dispatch =>
    (readOption readCause (some (.option DispatchCause.toJson a.dispatchCause))).bind fun cause =>
    (readOption readStopOutcome (some (.option StopOutcome.toJson a.stopOutcome))).bind fun stopOutcome =>
    (readOption readRecorded (some (.option RecordedObservation.toJson a.termination))).bind fun termination =>
    (readOption readRecorded (some (.option RecordedObservation.toJson a.assessment))).bind fun assessment =>
    (readNat maxWord (.nat a.outputBytes)).bind fun outputBytes => some ⟨id, number, acceptedAt, runner, mode, dispatch, cause, stopOutcome,
      termination, assessment, outputBytes⟩) = some a
  rw [readId_text, readNat_nat words.number, readNat_nat words.accepted, readId_text, readMode_toJson, readDispatch_toJson,
    readOption_option DispatchCause.toJson (fun cause _ => by cases cause <;> nofun) fun cause _ => readCause_toJson cause,
    readOption_option StopOutcome.toJson (fun outcome _ => by cases outcome <;> nofun) fun outcome _ => readStopOutcome_toJson outcome,
    readOption_option RecordedObservation.toJson (fun _ _ => nofun) fun o found => readRecorded_toJson (words.termination o found),
    readOption_option RecordedObservation.toJson (fun _ _ => nofun) fun o found => readRecorded_toJson (words.assessment o found),
    readNat_nat words.output]
  rfl

theorem readCommand_toJson {command : Command} (words : CommandWords command) : readCommand command.toJson = some command := by
  cases command with
  | prepare | wait | cancel | recover => rfl
  | beginAttempt attemptId runner mode =>
    change ((readId (.text attemptId.value)).bind fun attemptId => (readId (.text runner.value)).bind fun runner =>
      (readMode mode.toJson).bind fun mode => some (Command.beginAttempt attemptId runner mode)) = _
    rw [readId_text, readId_text, readMode_toJson]
    rfl
  | dispatched attemptId =>
    change ((readId (.text attemptId.value)).bind fun attemptId => some (Command.dispatched attemptId)) = _
    rw [readId_text]
    rfl
  | dispatchUnconfirmed attemptId cause =>
    change ((readId (.text attemptId.value)).bind fun attemptId => (readCause cause.toJson).bind fun cause =>
      some (Command.dispatchUnconfirmed attemptId cause)) = _
    rw [readId_text, readCause_toJson]
    rfl
  | stopReported attemptId outcome =>
    change ((readId (.text attemptId.value)).bind fun attemptId => (readStopOutcome outcome.toJson).bind fun outcome =>
      some (Command.stopReported attemptId outcome)) = _
    rw [readId_text, readStopOutcome_toJson]
    rfl
  | output attemptId totalBytes =>
    have counted : totalBytes ≤ maxWord := words
    change ((readId (.text attemptId.value)).bind fun attemptId => (readNat maxWord (.nat totalBytes)).bind fun totalBytes =>
      some (Command.output attemptId totalBytes)) = _
    rw [readId_text, readNat_nat counted]
    rfl

theorem readEvent_toJson {event : EventRecord} (words : EventWords event) : readEvent event.toJson = some event := by
  cases event with
  | command event =>
    obtain ⟨expected, command⟩ := words
    change (((readId (.text event.id.value)).bind fun id => (readNat maxWord (.nat event.expectedRevision)).bind fun expected =>
      (readCommand event.command.toJson).bind fun command => some (⟨id, expected, command⟩ : CommandEvent)).map EventRecord.command) = _
    rw [readId_text, readNat_nat expected, readCommand_toJson command]
    rfl
  | observation event =>
    have expected : event.expectedRevision ≤ maxWord := words
    change (((readId (.text event.id.value)).bind fun id => (readNat maxWord (.nat event.expectedRevision)).bind fun expected =>
      (readId (.text event.attemptId.value)).bind fun attemptId => (readEvidenceRef event.evidence.toJson).bind fun evidence =>
      some (⟨id, expected, attemptId, evidence⟩ : ObservationEvent)).map EventRecord.observation) = _
    rw [readId_text, readNat_nat expected, readId_text, readEvidenceRef_toJson]
    rfl

theorem readSnapshot_toJson {s : Snapshot} (words : SnapshotWords s) : readSnapshot s.toJson = some s := by
  change ((readNat 255 (.nat s.version)).bind fun version => (readId (.text s.requestId.value)).bind fun requestId =>
    (readDigest (.text s.contentDigest.value)).bind fun contentDigest => (readNat maxWord (.nat s.openedAtUnixMs)).bind fun openedAt =>
    (readNat maxWord (.nat s.updatedAtUnixMs)).bind fun updatedAt => (readNat maxWord (.nat s.revision)).bind fun revision =>
    (readPreparation s.preparation.toJson).bind fun preparation => (readBool (.bool s.cancelRequested)).bind fun cancelRequested =>
    (readOption (readNat maxWord) (some (.option Json.nat s.firstAttemptAtUnixMs))).bind fun firstAttemptAt =>
    (readNat maxAttemptCount (.nat s.attempts)).bind fun attempts => (readNat maxWord (.nat s.priorOutputBytes)).bind fun priorOutputBytes =>
    (readOption readAttempt (some (.option AttemptSnapshot.toJson s.attempt))).bind fun attempt =>
    (readOption readEvent (some (.option EventRecord.toJson s.lastEvent))).bind fun lastEvent => some ⟨version, requestId, contentDigest,
      openedAt, updatedAt, revision, preparation, cancelRequested, firstAttemptAt, attempts, priorOutputBytes, attempt, lastEvent⟩) = some s
  rw [readNat_nat words.version, readId_text, readDigest_text, readNat_nat words.opened, readNat_nat words.updated, readNat_nat words.revision,
    readPreparation_toJson, readOption_option Json.nat (fun _ _ => nofun) fun time found => readNat_nat (words.first time found),
    readNat_nat words.attempts, readNat_nat words.prior,
    readOption_option AttemptSnapshot.toJson (fun _ _ => nofun) fun a found => readAttempt_toJson (words.attempt a found),
    readOption_option EventRecord.toJson (fun event _ => by cases event <;> nofun) fun event found => readEvent_toJson (words.event event found)]
  rfl

end RoundTrip

section Sizes
variable {d : Nat}

theorem escapedSize_from {c : Char} (high : 48 ≤ c.toNat) (slash : c.toNat ≠ 92) : escapedSize c ≤ c.utf8Size := by
  refine escapedSize_plain ?_ ?_ (by omega)
  · rintro rfl
    exact absurd high (by decide)
  · rintro rfl
    exact slash rfl

theorem id_within (id : Identifier) : Within d 130 (.text id.value) := by
  have plain : ∀ c ∈ id.value.toList, escapedSize c ≤ c.utf8Size := by
    have valid := id.valid
    unfold validId at valid
    split at valid
    · cases valid
    next first rest chars =>
    simp only [Bool.and_eq_true, List.all_eq_true] at valid
    obtain ⟨⟨-, start⟩, others⟩ := valid
    intro c mem
    rw [chars] at mem
    rcases List.mem_cons.mp mem with rfl | mem
    · exact @escapedSize_among _ [] rfl (Bool.or_eq_true_iff.mpr (.inl start))
    · exact escapedSize_among (by decide) (others c mem)
  exact within_text (Nat.le_trans (textSize_le plain) (Nat.add_le_add_left id.size_le 2))

theorem digest_within (digest : Digest) : Within d 66 (.text digest.value) := by
  have valid := digest.valid
  unfold validDigest at valid
  simp only [Bool.and_eq_true, beq_iff_eq, List.all_eq_true, Bool.or_eq_true, decide_eq_true_eq] at valid
  obtain ⟨size, chars⟩ := valid
  refine within_text (Nat.le_trans (textSize_le fun c mem => ?_) (by rw [size]))
  rcases chars c mem with digit | ⟨low, high⟩
  · simp only [Char.isDigit, Bool.and_eq_true, decide_eq_true_eq, UInt32.le_iff_toNat_le, ge_iff_le] at digit
    have bounds : 48 ≤ c.toNat ∧ c.toNat ≤ 57 := digit
    exact escapedSize_from bounds.1 (by omega)
  · have bounds : 97 ≤ c.toNat ∧ c.toNat ≤ 102 := ⟨UInt32.le_iff_toNat_le.mp low, UInt32.le_iff_toNat_le.mp high⟩
    exact escapedSize_from (by omega) (by omega)

theorem versionedRef_within (r : VersionedRef) : Within (d + 1) 300 r.toJson :=
  (within_object (.cons (id_within _) (.cons (id_within _) .nil))).mono (by decide)

theorem evidenceRef_within (e : EvidenceRef) : Within (d + 2) 500 e.toJson := by
  have kind : Within (d + 1) 15 e.kind.toJson := by cases e.kind <;> exact within_text (by decide)
  exact (within_object (.cons (versionedRef_within _) (.cons kind (.cons (id_within _) .nil)))).mono (by decide)

theorem mode_within (mode : ExecutionMode) : Within d 6 mode.toJson := by
  cases mode <;> exact within_text (by decide)

theorem cause_within (cause : DispatchCause) : Within (d + 1) 50 cause.toJson := by
  cases cause with
  | limit reason =>
    have named : Within d 13 reason.toJson := by cases reason <;> exact within_text (by decide)
    exact (within_object (.cons named .nil)).mono (by decide)
  | _ => exact within_text (by decide)

theorem outcome_within (outcome : StopOutcome) : Within d 14 outcome.toJson := by
  cases outcome <;> exact within_text (by decide)

theorem dispatch_within (dispatch : DispatchState) : Within (d + 2) 50 dispatch.toJson := by
  cases dispatch with
  | unknown was => exact (within_object (.cons (within_object (.cons (within_bool was) .nil)) .nil)).mono (by decide)
  | _ => exact within_text (by decide)

theorem word_lt {n : Nat} (word : n ≤ maxWord) : n < 2 ^ 64 := Nat.lt_of_le_of_lt word (by decide)

theorem exitCode_within {code : Int} (low : -2 ^ 31 ≤ code) (high : code < 2 ^ 31) : Within d 11 (.int code) := by
  refine ⟨?_, ?_⟩
  · rw [fits, Bool.and_eq_true, decide_eq_true_eq, decide_eq_true_eq]
    omega
  · change intSize code ≤ 11
    cases code with
    | ofNat n =>
      rw [intSize, natSize_le_iff (by decide)]
      simp only [Int.ofNat_eq_natCast] at high
      omega
    | negSucc n =>
      have magnitude : natSize (n + 1) ≤ 10 := by
        rw [natSize_le_iff (by decide)]
        rw [Int.negSucc_eq] at low
        omega
      rw [intSize]
      omega

theorem observation_within {o : Observation} (words : ObservationWords o) : Within (d + 1) 100 o.toJson := by
  cases o with
  | exited code bytes =>
    obtain ⟨⟨low, high⟩, counted⟩ := words
    have coded : Within d 11 (.int code) := exitCode_within low high
    exact (within_object (.cons (within_text (Nat.le_refl _)) (.cons coded (.cons (within_nat (word_lt counted)) .nil)))).mono (by decide)
  | neverDispatched bytes =>
    exact (within_object (.cons (within_text (Nat.le_refl _)) (.cons (within_nat (word_lt words)) .nil))).mono (by decide)
  | quiescent | uncertain => exact (within_object (.cons (within_text (Nat.le_refl _)) .nil)).mono (by decide)
  | effect assessment =>
    have assessed : Within d 14 assessment.toJson := by cases assessment <;> exact within_text (by decide)
    exact (within_object (.cons (within_text (Nat.le_refl _)) (.cons assessed .nil))).mono (by decide)

theorem recorded_within {o : RecordedObservation} (words : RecordedWords o) : Within (d + 3) 750 o.toJson :=
  (within_object (.cons (evidenceRef_within _) (.cons (within_nat (word_lt words.1)) (.cons (observation_within words.2) .nil)))).mono (by decide)

theorem count_lt {n : Nat} (counted : n ≤ maxAttemptCount) : n < 2 ^ 64 := Nat.lt_of_le_of_lt counted (by decide)

theorem attempt_within {a : AttemptSnapshot} (words : AttemptWords a) : Within (d + 4) 2500 a.toJson := by
  have identity : Within (d + 3) 130 (.text a.id.value) := id_within _
  have runner : Within (d + 3) 130 (.text a.runner.value) := id_within _
  have cause : Within (d + 3) 50 (.option DispatchCause.toJson a.dispatchCause) := within_option (fun _ _ => cause_within _) (by decide)
  have outcome : Within (d + 3) 14 (.option StopOutcome.toJson a.stopOutcome) := within_option (fun _ _ => outcome_within _) (by decide)
  have ended : Within (d + 3) 750 (.option RecordedObservation.toJson a.termination) :=
    within_option (fun o found => recorded_within (words.termination o found)) (by decide)
  have assessed : Within (d + 3) 750 (.option RecordedObservation.toJson a.assessment) :=
    within_option (fun o found => recorded_within (words.assessment o found)) (by decide)
  exact (within_object (.cons identity (.cons (within_nat (count_lt words.number)) (.cons (within_nat (word_lt words.accepted)) (.cons runner
    (.cons (mode_within _) (.cons (dispatch_within _) (.cons cause (.cons outcome (.cons ended (.cons assessed
    (.cons (within_nat (word_lt words.output)) .nil)))))))))))).mono (by decide)

theorem command_within {command : Command} (words : CommandWords command) : Within (d + 2) 450 command.toJson := by
  cases command with
  | prepare | wait | cancel | recover => exact (within_object (.cons (within_text (Nat.le_refl _)) .nil)).mono (by decide)
  | beginAttempt attemptId runner mode =>
    exact (within_object (.cons (within_text (Nat.le_refl _)) (.cons (id_within _) (.cons (id_within _) (.cons (mode_within _) .nil))))).mono
      (by decide)
  | dispatched attemptId => exact (within_object (.cons (within_text (Nat.le_refl _)) (.cons (id_within _) .nil))).mono (by decide)
  | dispatchUnconfirmed attemptId cause =>
    exact (within_object (.cons (within_text (Nat.le_refl _)) (.cons (id_within _) (.cons (cause_within _) .nil)))).mono (by decide)
  | stopReported attemptId outcome =>
    exact (within_object (.cons (within_text (Nat.le_refl _)) (.cons (id_within _) (.cons (outcome_within _) .nil)))).mono (by decide)
  | output attemptId totalBytes =>
    have counted : totalBytes ≤ maxWord := words
    exact (within_object (.cons (within_text (Nat.le_refl _)) (.cons (id_within _) (.cons (within_nat (word_lt counted)) .nil)))).mono (by decide)

theorem event_within {event : EventRecord} (words : EventWords event) : Within (d + 4) 1000 event.toJson := by
  cases event with
  | command event =>
    obtain ⟨expected, command⟩ := words
    have body : Within (d + 3) 700 (.object [("id", .text event.id.value), ("expectedRevision", .nat event.expectedRevision),
        ("command", event.command.toJson)]) :=
      (within_object (.cons (id_within _) (.cons (within_nat (word_lt expected)) (.cons (command_within command) .nil)))).mono (by decide)
    exact (within_object (.cons (within_text (Nat.le_refl _)) (.cons body .nil))).mono (by decide)
  | observation event =>
    have expected : event.expectedRevision ≤ maxWord := words
    have body : Within (d + 3) 900 (.object [("id", .text event.id.value), ("expectedRevision", .nat event.expectedRevision),
        ("attemptId", .text event.attemptId.value), ("evidence", event.evidence.toJson)]) :=
      (within_object (.cons (id_within _) (.cons (within_nat (word_lt expected)) (.cons (id_within _)
        (.cons (evidenceRef_within _) .nil))))).mono (by decide)
    exact (within_object (.cons (within_text (Nat.le_refl _)) (.cons body .nil))).mono (by decide)

theorem snapshot_within {s : Snapshot} (words : SnapshotWords s) : Within (d + 5) minSnapshotBytes s.toJson := by
  have version : Within (d + 4) 20 (.nat s.version) := within_nat (Nat.lt_of_le_of_lt words.version (by decide))
  have preparation : Within (d + 4) 10 s.preparation.toJson := by cases s.preparation <;> exact within_text (by decide)
  have first : Within (d + 4) 20 (.option Json.nat s.firstAttemptAtUnixMs) :=
    within_option (fun time found => within_nat (word_lt (words.first time found))) (by decide)
  have attempt : Within (d + 4) 2500 (.option AttemptSnapshot.toJson s.attempt) :=
    within_option (fun a found => attempt_within (words.attempt a found)) (by decide)
  have event : Within (d + 4) 1000 (.option EventRecord.toJson s.lastEvent) :=
    within_option (fun event found => event_within (words.event event found)) (by decide)
  exact (within_object (.cons version (.cons (id_within _) (.cons (digest_within _) (.cons (within_nat (word_lt words.opened))
    (.cons (within_nat (word_lt words.updated)) (.cons (within_nat (word_lt words.revision)) (.cons preparation (.cons (within_bool _)
    (.cons first (.cons (within_nat (count_lt words.attempts)) (.cons (within_nat (word_lt words.prior)) (.cons attempt
    (.cons event .nil)))))))))))))).mono (by decide)

end Sizes

end RssMdmAgent.LifecycleDocuments
