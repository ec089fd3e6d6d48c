import RssMdmAgent.JournalDelivery
import RssMdmAgent.JournalSnapshots

set_option autoImplicit false

/-! # What may follow a reported end of an execution -/

namespace RssMdmAgent.JournalFinality
open ContractIdentity ContractPlan ProgressHistory ApplicationModel
open LifecycleModel LifecycleState LifecycleSteps JournalModel KeyedTable JournalStore
open JournalOperations JournalSteps JournalEffects JournalRuns JournalReceipts JournalSnapshots
open JournalDelivery TransitionRuns
open ProgramInstructions (ResourceNaming)

section Snapshots
variable {current next : Execution} {input : Input} {now : Nat} {s s' : Snapshot}

def Closing (a : AttemptSnapshot) : Prop :=
  AttemptSnapshot.effectAssessment a = some .satisfied ∨
    (AttemptSnapshot.effectAssessment a = some .noEffect ∧
      a.termination.any (fun t => t.observation == .quiescent) = true)

def Final (s : Snapshot) : Prop := s.cancelRequested = true ∨ ∃ a, s.attempt = some a ∧ Closing a

theorem Closing.assessed {a : AttemptSnapshot} (h : Closing a) : Assessed a := by
  have settled : AttemptSnapshot.effectAssessment a = some .satisfied ∨
      AttemptSnapshot.effectAssessment a = some .noEffect := h.imp_right (·.1)
  unfold AttemptSnapshot.effectAssessment at settled
  unfold Assessed
  split at settled
  · simp at settled
  next o found =>
  rw [found, Option.any_some]
  split at settled
  · next assessment same =>
    rw [same]
    simp only [Option.some.injEq] at settled
    rcases settled with rfl | rfl <;> rfl
  · simp at settled

theorem Closing.kept {a a' : AttemptSnapshot} (h : Closing a) (kept : AttemptKept a a') :
    Closing a' := by
  have assessment : AttemptSnapshot.effectAssessment a' = AttemptSnapshot.effectAssessment a := by
    unfold AttemptSnapshot.effectAssessment
    rw [kept.final h.assessed]
  unfold Closing
  rw [assessment]
  refine h.imp_right fun ⟨noEffect, ended⟩ => ⟨noEffect, ?_⟩
  obtain ⟨t, found, quiescent⟩ := (Option.any_eq_true _ _).mp ended
  rw [kept.ended t found]
  exact quiescent

theorem Final.advances (h : Final s) (advances : Advances s s') : Final s' := by
  rcases h with cancelled | ⟨a, found, closing⟩
  · exact .inl (advances.cancelRequested cancelled)
  · have continued := advances.attempt
    rw [found] at continued
    generalize next' : s'.attempt = attempt at continued
    cases continued with
    | active kept => exact .inr ⟨_, next', closing.kept kept⟩

theorem Final.ineligible {directive : Directive} (h : Final current.snapshot)
    (advised : current.directive now = .ok directive) :
    directive ≠ .ready ∧ directive ≠ .retryEligible := by
  rw [← not_or]
  intro eligible
  have uncancelled := directive_uncancelled advised eligible
  rcases h with cancelled | ⟨a, found, closing⟩
  · rw [uncancelled] at cancelled
    cases cancelled
  unfold Execution.directive at advised
  dsimp only at advised
  split at advised
  · cases advised
  cases advised
  rw [found, uncancelled] at eligible
  dsimp only at eligible
  cases termination : a.termination with
  | none =>
    rw [termination] at eligible
    rcases eligible with h | h <;> grind
  | some t =>
    rw [termination] at eligible
    unfold AttemptSnapshot.noEffect at eligible
    rcases closing with satisfied | ⟨noEffect, quiescent⟩
    · rw [satisfied] at eligible
      rcases eligible with h | h <;> grind
    · rw [termination, Option.any_some] at quiescent
      rw [noEffect, termination] at eligible
      rcases eligible with h | h <;> grind

end Snapshots

section Runs
variable [ResourceNaming] [JournalNaming] [RecordEncoding] {t t' : Tables} {o : Operation} {scope : Scope}
  {labels : List Operation}

def Dispatches (o : Operation) (scope : Scope) (action : DispatchAction) : Prop :=
  Operation.dispatch o = some action ∧ ∃ op input, o.call = .execution op scope input

/-- The action belongs to a new attempt that was let through by the gate and advised when it began. -/
def Renewed (o : Operation) (scope : Scope) (action : DispatchAction) : Prop :=
  ∃ op input row current w w', o.call = .execution op scope input ∧
    (∃ id revision, input.record =
      .command ⟨id, revision, .beginAttempt action.attemptId action.runner action.mode⟩) ∧
    Loaded o.store.tables scope row current ∧
    GatePassed o.store.limits o.store.tables o.env.host row.plan input.record w w' ∧
    (current.directive w'.now = .ok .ready ∨ current.directive w'.now = .ok .retryEligible) ∧
    o.store.tables.attempts action.attemptId = none

omit [ResourceNaming] [JournalNaming] [RecordEncoding] in
theorem begun_eligible {current next : Execution} {input : Input} {now : Nat}
    (h : Evaluated current input now next) (begins : isBegin input.record = true) :
    current.directive now = .ok .ready ∨ current.directive now = .ok .retryEligible := by
  obtain ⟨directive, snapshot, advised, applies, -⟩ := h.applied
  have impossible : ∀ event, input = .command event →
      (∀ attemptId runner mode, event.command ≠ .beginAttempt attemptId runner mode) → False := by
    rintro event rfl other
    rw [show isBegin (Input.command event).record = false from not_isBegin_command other] at begins
    cases begins
  cases applies with
  | begun command eligible fresh =>
    rcases eligible with rfl | rfl
    · exact .inl advised
    · exact .inr advised
  | prepared preparation command idle =>
    refine absurd rfl (impossible _ · fun _ _ _ => ?_)
    rcases command with command | command <;> simp [command]
  | cancelled command => exact absurd rfl (impossible _ · fun _ _ _ => by simp [command])
  | recovered command idle => exact absurd rfl (impossible _ · fun _ _ _ => by simp [command])
  | updated found kept other =>
    cases input with
    | observation => cases begins
    | command event => exact absurd rfl (impossible _ · (other event rfl).2)

omit [ResourceNaming] [JournalNaming] [RecordEncoding] in
theorem firstDispatch_command {current next : Execution} {input : Input} {now : Nat}
    {action : DispatchAction} (h : Evaluated current input now next)
    (released : firstDispatch next.snapshot = some action) : ∃ id revision, input.record =
      .command ⟨id, revision, .beginAttempt action.attemptId action.runner action.mode⟩ := by
  unfold firstDispatch at released
  rw [(Evaluated.lastEvent h).1] at released
  split at released
  · next same =>
    cases released
    exact ⟨_, _, Option.some.inj same⟩
  · cases released

omit [RecordEncoding] in
theorem effect_renewed {limits : StoreLimits} {host : JournalHost} {c : Call} {reply : Reply}
    {action : DispatchAction} (h : Effect limits host t c t' reply)
    (released : Reply.dispatch reply = some action) :
    ∃ op scope input row current w w', c = .execution op scope input ∧
      (∃ id revision, input.record =
        .command ⟨id, revision, .beginAttempt action.attemptId action.runner action.mode⟩) ∧
      Loaded t scope row current ∧ GatePassed limits t host row.plan input.record w w' ∧
      (current.directive w'.now = .ok .ready ∨ current.directive w'.now = .ok .retryEligible) ∧
      t.attempts action.attemptId = none := by
  have keys := effect_keys h
  rw [released] at keys
  cases h with
  | @transitioned op scope input w w' row current next receipt _ started later accepted passed =>
    have same : w'.intent.scope = scope := by rw [later.meant, started.meant]
    have loaded := accepted.loaded
    rw [same] at loaded
    have command := firstDispatch_command accepted.evaluated released
    have eligible := begun_eligible accepted.evaluated (by obtain ⟨_, _, same⟩ := command; rw [same]; rfl)
    refine ⟨op, scope, input, row, current, w, w', rfl, command, loaded, passed, eligible, ?_⟩
    cases keys with
    | begun called fresh attempts event events id => rw [id]; exact fresh
  | _ => cases released

theorem operates_renewed {action : DispatchAction} (h : Operates t o t')
    (dispatches : Dispatches o scope action) : Renewed o scope action := by
  obtain ⟨released, op, input, called⟩ := dispatches
  have answer := h.answer
  obtain ⟨store, env, call, result⟩ := o
  cases answer with
  | failed => cases released
  | replayed => cases released
  | stored => cases released
  | committed effect reported =>
    dsimp only at reported
    rcases reported with rfl | rfl
    · obtain ⟨op', scope', input', row, current, w, w', called', begins⟩ := effect_renewed effect released
      cases (show call = _ from called).symm.trans called'
      exact ⟨op, input, row, current, w, w', called, begins⟩
    · cases released

def FinalRow (t : Tables) (scope : Scope) : Prop :=
  ∃ row, t.executions.lookup scope = some row ∧ Final row.snapshot

theorem FinalRow.step (h : FinalRow t scope) (operates : Operates t o t') : FinalRow t' scope := by
  obtain ⟨row, found, final⟩ := h
  cases operates_rows operates with
  | kept executions attempts => exact ⟨row, by rw [executions]; exact found, final⟩
  | @opened op plan called fresh executions attempts =>
    have other : scope ≠ .ofInput plan := by
      rintro rfl
      rw [fresh] at found
      cases found
    exact ⟨row, by rw [executions, AList.lookup_insert_ne other]; exact found, final⟩
  | @moved op owner input row' current next called loaded evaluated executions used attempted =>
    by_cases same : scope = owner
    · subst same
      cases loaded.found.symm.trans found
      rw [← loaded.snapshot] at final
      refine ⟨_, by rw [executions, AList.lookup_insert], ?_⟩
      cases attempted with
      | advanced ordinary advances attempts => exact final.advances advances
      | begun begins fresh attempts =>
        exfalso
        obtain ⟨id, revision, command⟩ := begins.command
        rcases begun_eligible evaluated (by rw [command]; rfl) with advised | advised
        · exact (final.ineligible advised).1 rfl
        · exact (final.ineligible advised).2 rfl
    · exact ⟨row, by rw [executions, AList.lookup_insert_ne same]; exact found, final⟩

def Undispatched (labels : List Operation) (scope : Scope) : Prop :=
  ∀ o ∈ labels, ∀ action, ¬ Dispatches o scope action

theorem FinalRow.undispatched (h : FinalRow t scope) (run : Runs Operates t labels t') :
    Undispatched labels scope := by
  have both : FinalRow t' scope ∧ Undispatched labels scope := by
    apply run.history fun labels t' => FinalRow t' scope ∧ Undispatched labels scope
    · exact ⟨h, fun _ mem => by cases mem⟩
    · intro done u o u' earlier operates
      refine ⟨earlier.1.step operates, fun o' mem action dispatches => ?_⟩
      rcases List.mem_append.mp mem with mem | mem
      · exact earlier.2 o' mem action dispatches
      · rw [List.mem_singleton.mp mem] at dispatches
        obtain ⟨op, input, row, current, w, w', -, -, loaded, -, eligible, -⟩ :=
          operates_renewed operates dispatches
        rw [operates.before] at loaded
        obtain ⟨row', found, final⟩ := earlier.1
        cases loaded.found.symm.trans found
        rw [← loaded.snapshot] at final
        rcases eligible with advised | advised
        · exact (final.ineligible advised).1 rfl
        · exact (final.ineligible advised).2 rfl
  exact both.2

def Retryable (s : Snapshot) (admission : Option AdmissionStatus) : Prop :=
  (s.attempt = none ∧ admission = some .denied) ∨
    ∃ a, s.attempt = some a ∧ AttemptSnapshot.noEffect a = true

omit [ResourceNaming] [JournalNaming] [RecordEncoding] in
theorem materialSettled_cases {e : Execution} {admission : Option AdmissionStatus}
    (h : materialSettled e admission = true) : Final e.snapshot ∨ Retryable e.snapshot admission := by
  unfold materialSettled at h
  simp only [Bool.or_eq_true, Bool.and_eq_true, beq_iff_eq] at h
  rcases h with ((⟨cancelled, -⟩ | cancelled | failed) | ⟨-, satisfied | noEffect⟩) | ⟨idle, denied⟩
  · exact .inl (.inl cancelled)
  · unfold Execution.phase at cancelled
    split at cancelled
    · split at cancelled
      · next requested => exact .inl (.inl requested)
      · split at cancelled <;> cases cancelled
    · grind
  · refine .inr (.inr ?_)
    unfold Execution.phase at failed
    split at failed
    · grind
    next a found =>
    refine ⟨a, found, ?_⟩
    unfold AttemptSnapshot.noEffect AttemptSnapshot.effectAssessment
    split at failed
    · cases failed
    next unassessed =>
    rw [Option.not_isSome_iff_eq_none] at unassessed
    rw [unassessed]
    split at failed
    · next t ended =>
      split at failed
      · next undispatched => simp [ended, undispatched, isNeverDispatched]
      · cases failed
    · split at failed <;> cases failed
  · obtain ⟨a, found, satisfied⟩ := Option.bind_eq_some_iff.mp satisfied
    exact .inl (.inr ⟨a, found, .inl satisfied⟩)
  · obtain ⟨a, found, noEffect⟩ := Option.bind_eq_some_iff.mp noEffect
    exact .inr (.inr ⟨a, found, by simp [AttemptSnapshot.noEffect, noEffect]⟩)
  · exact .inr (.inl ⟨Option.isNone_iff_eq_none.mp idle, denied⟩)

/-- What may follow after an end of an execution was reported. -/
structure ReportedEnd (s : Store) (host : JournalHost) (scope : Scope) (labels : List Operation) :
    Prop where
  cancelled : ∀ maxBatch consumer limit evidence e,
    deliveryEvidence s host maxBatch scope consumer limit = .ok evidence → e ∈ evidence →
    e.terminal = some .cancelled → Undispatched labels scope
  /-- Reclaimable material stays unused, or waits for an explicit retry. -/
  reclaimed : ∀ consumer fact, materialFactRow s host consumer scope = .ok fact →
    fact.reclaimable = true → Undispatched labels scope ∨ ∃ row,
      s.tables.executions.lookup scope = some row ∧
        Retryable row.snapshot (latestAdmission s.tables scope)
  final : ∀ row, s.tables.executions.lookup scope = some row → Final row.snapshot →
    Undispatched labels scope
  renewed : ∀ o ∈ labels, ∀ action, Dispatches o scope action → Renewed o scope action

/-- A reported cancellation and every closing assessment are final; after any other reported end an
action is released only for an attempt that is admitted anew. -/
theorem reported_end {s : Store} {host : JournalHost} (run : Runs Operates s.tables labels t') :
    ReportedEnd s host scope labels := by
  have final : ∀ row, s.tables.executions.lookup scope = some row → Final row.snapshot →
      Undispatched labels scope :=
    fun row found final => FinalRow.undispatched ⟨row, found, final⟩ run
  refine ⟨fun maxBatch consumer limit evidence e read mem terminal => ?_,
    fun consumer fact read reclaimable => ?_, final, fun o mem action dispatches => ?_⟩
  · obtain ⟨_, -, read⟩ := bind_ok.mp read
    obtain ⟨_, -, read⟩ := bind_ok.mp read
    obtain ⟨_, -, read⟩ := bind_ok.mp read
    obtain ⟨_, -, read⟩ := bind_ok.mp read
    obtain ⟨_, -, read⟩ := bind_ok.mp read
    obtain ⟨⟨row, execution⟩, loaded, read⟩ := bind_ok.mp read
    obtain ⟨⟨progress, process⟩, -, read⟩ := bind_ok.mp read
    cases read
    obtain ⟨receipt, -, rfl⟩ := List.mem_map.mp mem
    have loaded := loadExecution_ok loaded
    have cancelled : execution.snapshot.cancelRequested = true := by
      unfold deliveryTerminal at terminal
      dsimp only at terminal
      split at terminal
      · next both => exact (Bool.and_eq_true_iff.mp both).1
      · split at terminal <;> cases terminal
    rw [loaded.snapshot] at cancelled
    exact final row loaded.found (.inl cancelled)
  · obtain ⟨row, planned, read⟩ := bind_ok.mp read
    obtain ⟨_, -, read⟩ := bind_ok.mp read
    obtain ⟨_, -, read⟩ := bind_ok.mp read
    obtain ⟨_, -, read⟩ := bind_ok.mp read
    obtain ⟨execution, restored, read⟩ := bind_ok.mp read
    obtain ⟨_, -, read⟩ := bind_ok.mp read
    cases read
    have settled := (Bool.and_eq_true_iff.mp reclaimable).1
    have found := (loadPlan_ok planned).1
    have same := (loadState_ok restored).2.1
    rcases materialSettled_cases settled with closed | retryable
    · rw [same] at closed
      exact .inl (final row found closed)
    · rw [same] at retryable
      exact .inr ⟨row, found, retryable⟩
  · obtain ⟨t, u, operates⟩ := run.step_of_mem mem
    exact operates_renewed operates dispatches

end Runs

section Samples
open LifecycleRuns
attribute [local instance] sampleResources sampleNaming sampleEncoding

def sampleConsumer : Identifier := ⟨"consumer", .refl true⟩

def reportedTerminals (s : Store) : Option (List (Option DeliveryTerminal)) :=
  ((deliveryEvidence s (sampleEnvironment 0).host 16 sampleScope sampleConsumer 16).toOption).map
    (·.map (·.terminal))

def undispatchedCalls : List (Environment × Call) :=
  sampleCalls ++ [sampleInput "ended" (.refl true) 4 (.observation
    ⟨⟨"event-2", .refl true⟩, 2, firstAttempt, processEvidence .stateObserved⟩
    (reports (.neverDispatched 0)))]

def retryCalls : List (Environment × Call) :=
  [sampleInput "retry" (.refl true) 5
    (.command ⟨⟨"event-3", .refl true⟩, 3, .beginAttempt secondAttempt processRunner .real⟩)]

/-- An execution that was reported as never dispatched is dispatched by an explicit retry. -/
theorem never_dispatched_retried :
    Runs Operates (Tables.empty roomyStore.authority) (performed roomyStore undispatchedCalls).1
        (performed roomyStore undispatchedCalls).2.tables ∧
      reportedTerminals (performed roomyStore undispatchedCalls).2 =
        some (List.replicate 4 (some .neverDispatched)) ∧
      Runs Operates (performed roomyStore undispatchedCalls).2.tables
        (performed (performed roomyStore undispatchedCalls).2 retryCalls).1
        (performed (performed roomyStore undispatchedCalls).2 retryCalls).2.tables ∧
      ((performed (performed roomyStore undispatchedCalls).2 retryCalls).1.filterMap
        Operation.dispatch).map (·.attemptId) = [secondAttempt] :=
  ⟨performed_runs undispatchedCalls roomyStore, by decide +kernel,
    performed_runs retryCalls (performed roomyStore undispatchedCalls).2, by decide +kernel⟩

def cancelledCalls : List (Environment × Call) :=
  [(sampleEnvironment 1, .openExecution (sampleOperation "open" (.refl true)) processPlan),
    sampleInput "cancel" (.refl true) 2 (.command ⟨⟨"event-0", .refl true⟩, 0, .cancel⟩)]

theorem reported_end_sample :
    reportedTerminals (performed roomyStore cancelledCalls).2 =
        some (List.replicate 2 (some .cancelled)) ∧
      ReportedEnd (performed roomyStore cancelledCalls).2 (sampleEnvironment 0).host sampleScope
        (performed (performed roomyStore cancelledCalls).2 retryCalls).1 :=
  ⟨by decide +kernel, reported_end (performed_runs retryCalls (performed roomyStore cancelledCalls).2)⟩

end Samples

end RssMdmAgent.JournalFinality
