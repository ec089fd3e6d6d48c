import RssMdmAgent.TransitionRuns
import RssMdmAgent.LifecycleSteps
import RssMdmAgent.JournalOperations

set_option autoImplicit false

/-! # What one journal operation can change -/

namespace RssMdmAgent.JournalSteps
open ContractIdentity ContractProcess ContractPlan ProgressHistory ApplicationModel
open LifecycleModel LifecycleState LifecycleSteps JournalModel KeyedTable JournalStore
open JournalOperations TransitionRuns BackendTasks
open ProgramInstructions (ResourceNaming)
open InteractionModel (Reference Spec)
open InteractionState (Interaction)

theorem guarded_ok {ok : Bool} {error : JournalError} : guarded ok error = .ok () ↔ ok = true := by
  cases ok <;> simp [guarded]

/-- The operations that change the journal. -/
inductive Call where
  | openExecution (op : OperationRequestId) (plan : FrozenExecution)
  | execution (op : OperationRequestId) (scope : Scope) (input : Input)
  | openInteraction (op : OperationRequestId) (scope : Scope) (spec : Spec)
  | interaction (op : OperationRequestId) (scope : Scope) (id : Reference)
      (command : InteractionModel.Command)
  | confirm (scope : Scope) (consumer : Identifier) (event : ReceiptEvent)
  | process (scope : Scope) (facts : ProcessEvidence)
  | progress (scope : Scope) (facts : SoftwareProgress)
  | backendRequest (scope : Scope) (expected : Option BackendRequest) (next : BackendRequest)

inductive Reply where
  | outcome (outcome : CommitOutcome)
  | progress (facts : SoftwareProgress)
  | done
  deriving DecidableEq

def Call.operation : Call → Option OperationRequestId
  | .openExecution op _ | .execution op _ _ | .openInteraction op _ _ | .interaction op _ _ _ => some op
  | _ => none

def Call.intent : Call → Option Intent
  | .openExecution _ plan => some ⟨.ofInput plan, .openExecution, .openExecution plan.spec⟩
  | .execution _ scope input => some ⟨scope, .execution, .execution input.record⟩
  | .openInteraction _ scope spec => some ⟨scope, .openInteraction, .openInteraction spec⟩
  | .interaction _ scope id command => some ⟨scope, .interaction, .interaction id command⟩
  | _ => none

def Call.unknown : Call → JournalError
  | .confirm _ _ _ => .confirmationCommitUnknown
  | _ => .operationCommitUnknown

section Calls
variable [ResourceNaming] [JournalNaming] [RecordEncoding]

def answered {α : Type} (wrap : α → Reply) (result : Store × Except JournalError α) :
    Store × Except JournalError Reply :=
  (result.1, result.2.map wrap)

def Store.call (s : Store) (env : Environment) : Call → Store × Except JournalError Reply
  | .openExecution op plan => answered .outcome (openExecution s env op plan)
  | .execution op scope input => answered .outcome (applyInput s env op scope input)
  | .openInteraction op scope spec => answered .outcome (openInteraction s env op scope spec)
  | .interaction op scope id command =>
    answered .outcome (applyInteraction s env op scope id command)
  | .confirm scope consumer event => answered (fun _ => .done) (confirm s env scope consumer event)
  | .process scope facts => answered (fun _ => .done) (recordProcess s env scope facts)
  | .progress scope facts => answered .progress (recordSoftwareProgress s env scope facts)
  | .backendRequest scope expected next =>
    answered (fun _ => .done) (recordBackendRequest s env scope expected next)

end Calls

section Parts
variable {limits : StoreLimits} {t t' : Tables} {w w' : Write} {outcome : Outcome} {revision : Nat}
  {audit : AuditRecord} {receipt : Receipt} {scope : Scope}

structure Started (t : Tables) (op : OperationRequestId) (intent : Intent) (w : Write) : Prop where
  named : w.op = op
  meant : w.intent = intent
  fresh : t.receiptOf op = none
  clock : t.watermark ≤ w.now

structure Write.Later (w w' : Write) : Prop where
  named : w'.op = w.op
  meant : w'.intent = w.intent
  time : w.now ≤ w'.now

theorem Write.Later.refl (w : Write) : Write.Later w w := ⟨rfl, rfl, Nat.le_refl _⟩

structure Prepared (limits : StoreLimits) (t : Tables) (w : Write) (outcome : Outcome)
    (revision : Nat) (audit : AuditRecord) (t' : Tables) (receipt : Receipt) : Prop where
  capacity : t.receipts.length + t.reserved + 1 ≤ limits.maxReceipts
  made : receipt = w.receipt t outcome revision audit
  tables : ∃ audit', t' = t.recorded ⟨receipt, w.intent, audit'⟩ w.now

theorem refreshTime_later {host : JournalHost} (h : w.refreshTime host = .ok w') :
    Write.Later w w' := by
  obtain ⟨now, -, h⟩ := bind_ok.mp h
  obtain ⟨_, later, h⟩ := bind_ok.mp h
  obtain ⟨_, -, h⟩ := bind_ok.mp h
  cases h
  exact ⟨rfl, rfl, by simpa using guarded_ok.mp later⟩

theorem loadState_ok {row : ExecutionRow} {state : Execution} (h : loadState limits row = .ok state) :
    state.plan = row.plan ∧ state.snapshot = row.snapshot ∧ row.snapshot.revision = row.revision := by
  unfold loadState at h
  split at h
  · cases h
  next state' restored =>
  obtain ⟨_, checked, h⟩ := bind_ok.mp h
  cases h
  obtain ⟨plan, snapshot, -⟩ := restore_ok restored
  refine ⟨plan, snapshot, ?_⟩
  rw [← snapshot]
  simpa using guarded_ok.mp checked

theorem readProgress_ok {attempt : AttemptId} {progress : Option SoftwareProgress}
    (h : readProgress t attempt = .ok progress) : progress = t.progress attempt := by
  unfold readProgress at h
  split at h
  · next none => cases h; exact none.symm
  next p found =>
  split at h
  · cases h
    exact found.symm
  · cases h

variable [RecordEncoding]

theorem prepare_ok (h : w.prepare limits t outcome revision audit = .ok (t', receipt)) :
    Prepared limits t w outcome revision audit t' receipt := by
  obtain ⟨_, capacity, h⟩ := bind_ok.mp h
  obtain ⟨_, -, h⟩ := bind_ok.mp h
  obtain ⟨_, -, h⟩ := bind_ok.mp h
  obtain ⟨_, -, h⟩ := bind_ok.mp h
  obtain ⟨_, -, h⟩ := bind_ok.mp h
  cases h
  exact ⟨by simpa using guarded_ok.mp capacity, rfl, _, rfl⟩

theorem finish_ok {reply : CommitOutcome}
    (h : w.finish limits t outcome revision audit = .ok (t', reply)) :
    ∃ receipt, reply = .applied receipt none ∧
      Prepared limits t w outcome revision audit t' receipt := by
  obtain ⟨⟨t', receipt⟩, prepared, h⟩ := bind_ok.mp h
  cases h
  exact ⟨receipt, rfl, prepare_ok prepared⟩

theorem loadPlan_ok {row : ExecutionRow} (h : loadPlan limits t scope = .ok row) :
    t.executions.lookup scope = some row ∧ Scope.ofInput row.plan = scope := by
  unfold loadPlan at h
  split at h
  · cases h
  next row' found =>
  obtain ⟨_, checked, h⟩ := bind_ok.mp h
  cases h
  have checked := guarded_ok.mp checked
  rw [Bool.and_eq_true, beq_iff_eq] at checked
  exact ⟨found, checked.2⟩

/-- A stored execution and its restored state. -/
structure Loaded (t : Tables) (scope : Scope) (row : ExecutionRow) (state : Execution) : Prop where
  found : t.executions.lookup scope = some row
  bound : Scope.ofInput row.plan = scope
  plan : state.plan = row.plan
  snapshot : state.snapshot = row.snapshot
  revision : row.snapshot.revision = row.revision

theorem loadExecution_ok {row : ExecutionRow} {state : Execution}
    (h : loadExecution limits t scope = .ok (row, state)) : Loaded t scope row state := by
  obtain ⟨row', planned, h⟩ := bind_ok.mp h
  obtain ⟨state', restored, h⟩ := bind_ok.mp h
  cases h
  obtain ⟨found, same⟩ := loadPlan_ok planned
  obtain ⟨plan, snapshot, revision⟩ := loadState_ok restored
  exact ⟨found, same, plan, snapshot, revision⟩

end Parts

section Claims
variable {t t' : Tables} {plan : FrozenExecution} {next : Snapshot}

def Closed (t : Tables) (plan : FrozenExecution) (attempt : AttemptSnapshot) : Prop :=
  ∃ termination, attempt.termination = some termination ∧
    (isNeverDispatched termination.observation = true ∨ processClosed plan termination = true ∨
      ∃ p, t.progress attempt.id = some p ∧ p.closed plan = true)

theorem attemptClosed_ok {attempt : AttemptSnapshot} {termination : RecordedObservation} {closed : Bool}
    (h : attemptClosed t plan attempt termination = .ok closed) :
    closed = true ↔ isNeverDispatched termination.observation = true ∨
      processClosed plan termination = true ∨
      ∃ p, t.progress attempt.id = some p ∧ p.closed plan = true := by
  unfold attemptClosed at h
  split at h
  · next ended =>
    cases h
    rw [Bool.or_eq_true] at ended
    exact ⟨fun _ => ended.elim .inl fun process => .inr (.inl process), fun _ => rfl⟩
  next open_ =>
  rw [Bool.or_eq_true, not_or] at open_
  cases read : readProgress t attempt.id with
  | error => rw [read] at h; cases h
  | ok progress =>
    rw [read] at h
    cases h
    rw [readProgress_ok read, Option.any_eq_true]
    exact ⟨fun closed => .inr (.inr closed), fun h =>
      (h.resolve_left open_.1).resolve_left open_.2⟩

theorem Closed.of_tables {attempt : AttemptSnapshot} (h : Closed t plan attempt)
    (progress : t'.progress attempt.id = t.progress attempt.id) : Closed t' plan attempt := by
  unfold Closed
  rw [progress]
  exact h

variable [ResourceNaming]

/-- The claims after settling: those of a closed current attempt are given back. -/
inductive Settled (t : Tables) (plan : FrozenExecution) (next : Snapshot) :
    (String → Option AttemptId) → Prop where
  | kept (open_ : ∀ keys attempt, plan.spec.exclusiveResourceKeys = .ok keys → keys ≠ [] →
      next.attempt = some attempt → ¬ Closed t plan attempt) : Settled t plan next t.claims
  | released {attempt : AttemptSnapshot} (current : next.attempt = some attempt)
      (closed : Closed t plan attempt) : Settled t plan next (releaseClaims t.claims attempt.id)

theorem Settled.of_tables {claims : String → Option AttemptId} (h : Settled t plan next claims)
    (sameClaims : t'.claims = t.claims) (progress : t'.progress = t.progress) :
    Settled t' plan next claims := by
  cases h with
  | kept open_ =>
    rw [← sameClaims]
    exact .kept fun keys attempt named nonempty current closed =>
      open_ keys attempt named nonempty current (closed.of_tables (by rw [progress]))
  | released current closed =>
    rw [← sameClaims]
    exact .released current (closed.of_tables (by rw [progress]))

theorem settle_ok (h : settle t plan next = .ok t') :
    ∃ claims, t' = { t with claims := claims } ∧ Settled t plan next claims := by
  unfold settle at h
  split at h
  · cases h
  · next keys =>
    cases h
    exact ⟨_, rfl, .kept fun keys' attempt same nonempty => by
      cases keys.symm.trans same
      exact absurd rfl nonempty⟩
  split at h
  · next none =>
    cases h
    exact ⟨_, rfl, .kept fun _ attempt _ _ current => by rw [none] at current; cases current⟩
  next attempt current =>
  split at h
  · next running =>
    cases h
    refine ⟨_, rfl, .kept fun _ attempt' _ _ same ⟨termination, ended, _⟩ => ?_⟩
    cases current.symm.trans same
    rw [running] at ended
    cases ended
  next termination ended =>
  obtain ⟨closed, decided, h⟩ := bind_ok.mp h
  have decided := attemptClosed_ok decided
  cases closed with
  | true =>
    cases h
    exact ⟨_, rfl, .released current ⟨termination, ended, decided.mp rfl⟩⟩
  | false =>
    cases h
    refine ⟨_, rfl, .kept fun _ attempt' _ _ same ⟨termination', ended', closed⟩ => ?_⟩
    cases current.symm.trans same
    cases ended.symm.trans ended'
    cases decided.mpr closed

end Claims

end RssMdmAgent.JournalSteps
