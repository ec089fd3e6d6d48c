import RssMdmAgent.LifecycleRuns
import RssMdmAgent.JournalEffects

set_option autoImplicit false

/-! # Runs of journal operations on one set of tables -/

namespace RssMdmAgent.JournalRuns
open ContractIdentity ContractPlan ProgressHistory ApplicationModel
open LifecycleModel LifecycleState LifecycleSteps JournalModel KeyedTable JournalStore
open JournalOperations JournalSteps JournalEffects TransitionRuns
open ProgramInstructions (ResourceNaming)

structure Operation where
  store : Store
  env : Environment
  call : Call
  result : Except JournalError Reply

section Steps
variable [ResourceNaming] [JournalNaming] [RecordEncoding]

structure Operates (t : Tables) (o : Operation) (t' : Tables) : Prop where
  before : o.store.tables = t
  performed : ∃ s', Store.call o.store o.env o.call = (s', o.result) ∧ s'.tables = t'

theorem Operates.answer {t t' : Tables} {o : Operation} (h : Operates t o t') :
    Answer o.store o.env o.call t' o.result := by
  obtain ⟨s', called, rfl⟩ := h.performed
  exact (call_cases called).answer

theorem Operates.effect {t t' : Tables} {o : Operation} (h : Operates t o t') :
    t' = t ∨ ∃ reply, Effect o.store.limits o.env.host t o.call t' reply := by
  obtain ⟨store, env, call, result⟩ := o
  have answer := h.answer
  cases h.before
  cases answer with
  | failed kept => exact .inl kept
  | replayed kept => exact .inl kept
  | stored kept => exact .inl kept
  | committed effect => exact .inr ⟨_, effect⟩

end Steps

section Attempts
variable {current next : Execution} {input : Input} {now : Nat}

inductive Continues : Option AttemptSnapshot → Option AttemptSnapshot → Prop where
  | idle : Continues none none
  | active {a a' : AttemptSnapshot} (kept : AttemptKept a a') : Continues (some a) (some a')

theorem Continues.refl (a : Option AttemptSnapshot) : Continues a a := by
  cases a with
  | none => exact .idle
  | some a => exact .active (.refl a)

/-- A fresh attempt of an accepted begin command. -/
structure Begins (event : EventRecord) (current next : Snapshot) (attempt : AttemptSnapshot) :
    Prop where
  command : ∃ id revision,
    event = .command ⟨id, revision, .beginAttempt attempt.id attempt.runner attempt.mode⟩
  active : next.attempt = some attempt
  cancelRequested : current.cancelRequested = false ∧ next.cancelRequested = false
  dispatch : attempt.dispatch = .starting
  termination : attempt.termination = none
  assessment : attempt.assessment = none

structure Advances (current next : Snapshot) : Prop where
  attempt : Continues current.attempt next.attempt
  cancelRequested : current.cancelRequested = true → next.cancelRequested = true

theorem directive_uncancelled {directive : Directive} (advised : current.directive now = .ok directive)
    (eligible : directive = .ready ∨ directive = .retryEligible) :
    current.snapshot.cancelRequested = false := by
  unfold Execution.directive at advised
  dsimp only at advised
  split at advised
  · cases advised
  cases advised
  by_contra cancelled
  rw [Bool.not_eq_false] at cancelled
  rcases eligible with h | h <;> grind

theorem Evaluated.lastEvent (h : Evaluated current input now next) :
    next.snapshot.lastEvent = some input.record ∧
      next.snapshot.revision = current.snapshot.revision + 1 ∧ next.snapshot.updatedAtUnixMs = now := by
  obtain ⟨directive, snapshot, -, -, stored⟩ := h.applied
  rw [stored]
  exact ⟨rfl, rfl, rfl⟩

theorem isBegin_command {event : CommandEvent} {attemptId : AttemptId} {runner : Identifier}
    {mode : ExecutionMode} (h : event.command = .beginAttempt attemptId runner mode) :
    isBegin (.command event) = true := by
  cases event
  cases h
  rfl

theorem not_isBegin_command {event : CommandEvent}
    (h : ∀ attemptId runner mode, event.command ≠ .beginAttempt attemptId runner mode) :
    isBegin (.command event) = false := by
  unfold isBegin
  split
  · next same =>
    cases same
    exact absurd rfl (h _ _ _)
  · rfl

theorem Evaluated.progress (h : Evaluated current input now next) :
    (isBegin input.record = true ∧ ∃ attempt,
        Begins input.record current.snapshot next.snapshot attempt) ∨
      isBegin input.record = false ∧ Advances current.snapshot next.snapshot := by
  obtain ⟨directive, snapshot, advised, applies, stored⟩ := h.applied
  rw [stored]
  cases applies with
  | prepared preparation command idle =>
    refine .inr ⟨not_isBegin_command fun _ _ _ => ?_, .refl _, id⟩
    rcases command with command | command <;> simp [command]
  | @begun event attemptId runner mode command eligible fresh =>
    have open_ := directive_uncancelled advised eligible
    refine .inl ⟨isBegin_command command, _, ⟨event.id, event.expectedRevision, ?_⟩, rfl,
      ⟨open_, open_⟩, rfl, rfl, rfl⟩
    obtain ⟨id, revision, command'⟩ := event
    cases command
    rfl
  | cancelled command =>
    exact .inr ⟨not_isBegin_command fun _ _ _ => by simp [command], .refl _, fun _ => rfl⟩
  | recovered command idle =>
    exact .inr ⟨not_isBegin_command fun _ _ _ => by simp [command], .refl _, id⟩
  | updated found kept other =>
    refine .inr ⟨?_, ?_, id⟩
    · cases input with
      | observation => rfl
      | command event => exact not_isBegin_command (other event rfl).2
    · rw [found]
      exact .active kept

end Attempts

section Calls
variable [ResourceNaming] [JournalNaming] [RecordEncoding]

def performed (s : Store) : List (Environment × Call) → List Operation × Store
  | [] => ([], s)
  | (env, call) :: rest =>
    let (s', result) := Store.call s env call
    let (operations, last) := performed s' rest
    (⟨s, env, call, result⟩ :: operations, last)

theorem performed_runs (calls : List (Environment × Call)) (s : Store) :
    Runs Operates s.tables (performed s calls).1 (performed s calls).2.tables := by
  induction calls generalizing s with
  | nil => exact .refl
  | cons first rest ih =>
    obtain ⟨env, call⟩ := first
    have step : Operates s.tables ⟨s, env, call, (Store.call s env call).2⟩
        (Store.call s env call).1.tables :=
      ⟨rfl, _, rfl, rfl⟩
    exact (Runs.one step).trans (ih _)

end Calls

section Samples
open LifecycleRuns

@[reducible] def sampleResources : ResourceNaming := ⟨id, fun _ => processDigest.value⟩
@[reducible] def sampleNaming : JournalNaming := ⟨fun _ => digestReference processDigest⟩
@[reducible] def sampleEncoding : RecordEncoding := ⟨fun _ => 0, fun _ _ => true, fun _ _ => true⟩

def sampleLimits : StoreLimits where
  input := ⟨65536, 32, 4096, 4096, 128, 60000, 65536, 65536, 3⟩
  lifecycle := processLimits
  interaction := ⟨16384, 60000⟩
  maxRecordBytes := 65536
  maxReceipts := 8
  maxConsumers := 4

def sampleStore : Store :=
  ⟨processInput.request.authority, false, sampleLimits, 0, Tables.empty processInput.request.authority⟩

def roomyStore : Store := { sampleStore with limits := { sampleLimits with maxReceipts := 64 } }

def sampleEnvironment (now : Nat) : Environment where
  host :=
    { authorize := fun _ => .ok ()
      reliableNow := .ok now
      refreshedNow := .ok now
      admits := fun _ _ _ => .ok ⟨.direct, now + 1⟩ }
  startFault := none
  fault := none
  commit := .committed

def sampleOperation (id : String) (valid : validId id = true) : OperationRequestId := ⟨id, valid⟩

def sampleScope : Scope := .ofInput processPlan

def sampleInput (id : String) (valid : validId id = true) (now : Nat) (input : Input) :
    Environment × Call :=
  (sampleEnvironment now, .execution ⟨id, valid⟩ sampleScope input)

def sampleCalls : List (Environment × Call) :=
  [(sampleEnvironment 1, .openExecution (sampleOperation "open" (.refl true)) processPlan),
    sampleInput "prepare" (.refl true) 2 (.command ⟨⟨"event-0", .refl true⟩, 0, .prepare⟩),
    sampleInput "begin" (.refl true) 3
      (.command ⟨⟨"event-1", .refl true⟩, 1, .beginAttempt firstAttempt processRunner .real⟩)]

/-- A preparation that a person has made for a request. -/
def preparedRequest (request : RequestId) : BackendTasks.BackendRequest where
  retryOf := none
  retryExpectedRevision := none
  recordedAtUnixMs := 1
  cancellationControl := none
  cancellationExpectedRevision := none
  action := .event request "input" "namespace" none none 60000
  trigger := .human ⟨⟨"device", .refl true⟩, ⟨.macos, ⟨"account", .refl true⟩⟩, ⟨"session", .refl true⟩⟩
  risk := none
  confirmation := none
  revision := 1
  state := .ready
  failure := none

def preparation (now : Nat) (scope : Scope) : Environment × Call :=
  (sampleEnvironment now, .backendRequest scope none (preparedRequest scope.requestId))

end Samples

end RssMdmAgent.JournalRuns
