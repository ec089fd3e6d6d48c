import RssMdmAgent.JournalSteps

set_option autoImplicit false

/-! # The effects of committed journal operations -/

namespace RssMdmAgent.JournalEffects
open ContractIdentity ContractProcess ContractPlan ProgressHistory ApplicationModel
open LifecycleModel LifecycleState LifecycleSteps JournalModel KeyedTable JournalStore
open JournalOperations JournalSteps TransitionRuns BackendTasks
open ProgramInstructions (ResourceNaming)
open InteractionModel (Reference Spec)
open InteractionState (Interaction)

def withEvent (t : Tables) (w : Write) (event : EventId) : Tables :=
  { t with
    eventKeys := Function.update t.eventKeys event (some ⟨w.intent.scope, w.op⟩) }

/-- The attempt identities and claims after the admission part of a transition. -/
inductive Admits [ResourceNaming] (t : Tables) (plan : FrozenExecution) (next : Snapshot) (w : Write) :
    Bool → (AttemptId → Option Consumption) → (String → Option AttemptId) → Prop where
  | kept : Admits t plan next w false t.attempts t.claims
  | admitted {attempt : AttemptSnapshot} {claims : String → Option AttemptId}
      (current : next.attempt = some attempt) (fresh : t.attempts attempt.id = none)
      (claimed : claim t.claims plan attempt.id = .ok claims) :
      Admits t plan next w true
        (Function.update t.attempts attempt.id (some ⟨w.intent.scope, w.op⟩)) claims

def nextRow (row : ExecutionRow) (next : Snapshot) (event : EventRecord) : ExecutionRow :=
  { row with
    snapshot := next
    revision := next.revision
    reserve := terminalReserve row.snapshot next row.reserve event }

@[simp] theorem nextRow_snapshot (row : ExecutionRow) (next : Snapshot) (event : EventRecord) :
    (nextRow row next event).snapshot = next := rfl

@[simp] theorem nextRow_plan (row : ExecutionRow) (next : Snapshot) (event : EventRecord) :
    (nextRow row next event).plan = row.plan := rfl

/-- An accepted transition with everything that is written together. -/
structure Transitioned [ResourceNaming] (limits : StoreLimits) (t : Tables) (w : Write)
    (row : ExecutionRow) (current : Execution) (input : Input) (next : Execution) (t' : Tables)
    (receipt : Receipt) : Prop where
  loaded : Loaded t w.intent.scope row current
  fresh : t.eventKeys input.record.id = none
  evaluated : Evaluated current input w.now next
  written : ∃ attempts claims claims' audit,
    audit.admission = (if isBegin input.record then some true else none) ∧ Admits t row.plan next.snapshot w (isBegin input.record) attempts claims ∧
    Settled { t with claims := claims } row.plan next.snapshot claims' ∧
    Prepared limits { withEvent t w input.record.id with
      attempts := attempts
      claims := claims'
      executions := t.executions.insert w.intent.scope (nextRow row next.snapshot input.record) }
      w .changed next.snapshot.revision audit t' receipt

def GatePassed [JournalNaming] (limits : StoreLimits) (t : Tables) (host : JournalHost)
    (plan : FrozenExecution) (event : EventRecord) (w w' : Write) : Prop :=
  ∃ audit audit', passGate limits t host plan event w audit = .ok (.passed w' audit' (isBegin event))

/-- Why an event changes no execution, with the outcome and the admission that are recorded. -/
inductive Refusal [JournalNaming] (limits : StoreLimits) (t : Tables) (host : JournalHost)
    (row : ExecutionRow) (current : Execution) (input : Input) (w w' : Write) :
    Outcome → Option Bool → Prop where
  | gate (begins : isBegin input.record = true) :
      Refusal limits t host row current input w w' .rejected (some false)
  | lifecycle {error : LifecycleError} (passed : GatePassed limits t host row.plan input.record w w')
      (evaluated : current.evaluateInput input w'.now = .error error) :
      Refusal limits t host row current input w w' .rejected
        (if isBegin input.record then some true else none)
  | unchanged {evaluation : Evaluation}
      (passed : GatePassed limits t host row.plan input.record w w')
      (evaluated : current.evaluateInput input w'.now = .ok evaluation)
      (kept : evaluation.transition = none) :
      Refusal limits t host row current input w w'
        (if evaluation.outcome = .duplicate then .duplicate else .stale)
        (if isBegin input.record then some true else none)

/-- Every change that a committed operation can make, with its reply. -/
inductive Effect [ResourceNaming] [JournalNaming] (limits : StoreLimits) (host : JournalHost)
    (t : Tables) : Call → Tables → Reply → Prop where
  | openedAgain {op : OperationRequestId} {plan : FrozenExecution} {w : Write} {row : ExecutionRow}
      {audit : AuditRecord} {receipt : Receipt} {t' : Tables}
      (started : Started t op ⟨.ofInput plan, .openExecution, .openExecution plan.spec⟩ w)
      (quiet : audit.admission = none)
      (prepared : Prepared limits t w .duplicate row.revision audit t' receipt)
      (known : Tables.byRequest t plan.spec.request.requestId = some row ∧ row.plan.spec = plan.spec) :
      Effect limits host t (.openExecution op plan) t' (.outcome (.applied receipt none))
  | opened {op : OperationRequestId} {plan : FrozenExecution} {w : Write} {state : Execution}
      {audit : AuditRecord} {receipt : Receipt} {t' : Tables}
      (started : Started t op ⟨.ofInput plan, .openExecution, .openExecution plan.spec⟩ w)
      (created : Execution.create plan w.now limits.lifecycle = .ok state)
      (fresh : t.executions.lookup (.ofInput plan) = none) (quiet : audit.admission = none)
      (reserved : reserveRequest t (.ofInput plan) = .ok ()) (prepared : Prepared limits { t with
        executions := t.executions.insert (.ofInput plan) ⟨plan, state.snapshot, 0, .full⟩ }
        w .changed 0 audit t' receipt) :
      Effect limits host t (.openExecution op plan) t' (.outcome (.applied receipt none))
  | refused {op : OperationRequestId} {scope : Scope} {input : Input} {w w' : Write}
      {row : ExecutionRow} {current : Execution} {outcome : Outcome} {audit : AuditRecord}
      {receipt : Receipt} {t' : Tables}
      (started : Started t op ⟨scope, .execution, .execution input.record⟩ w)
      (later : Write.Later w w') (loaded : Loaded t scope row current)
      (fresh : t.eventKeys input.record.id = none)
      (refusal : Refusal limits t host row current input w w' outcome audit.admission)
      (prepared : Prepared limits (withEvent t w' input.record.id) w' outcome
        current.snapshot.revision audit t' receipt) :
      Effect limits host t (.execution op scope input) t' (.outcome (.applied receipt none))
  | transitioned {op : OperationRequestId} {scope : Scope} {input : Input} {w w' : Write}
      {row : ExecutionRow} {current next : Execution} {receipt : Receipt} {t' : Tables}
      (started : Started t op ⟨scope, .execution, .execution input.record⟩ w)
      (later : Write.Later w w')
      (accepted : Transitioned limits t w' row current input next t' receipt)
      (passed : GatePassed limits t host row.plan input.record w w') :
      Effect limits host t (.execution op scope input) t'
        (.outcome (.applied receipt (firstDispatch next.snapshot)))
  | interactionOpened {op : OperationRequestId} {scope : Scope} {spec : Spec} {w : Write}
      {row : ExecutionRow} {state : Interaction} {audit : AuditRecord} {receipt : Receipt}
      {t' : Tables} (started : Started t op ⟨scope, .openInteraction, .openInteraction spec⟩ w)
      (planned : t.executions.lookup scope = some row)
      (created : Interaction.create spec w.now limits.interaction = .ok state)
      (fresh : t.interactions.lookup spec.id = none) (quiet : audit.admission = none)
      (prepared : Prepared limits { t with
        interactions := t.interactions.insert spec.id ⟨scope, state.snapshot, 0, 1⟩ }
        w .changed 0 audit t' receipt) :
      Effect limits host t (.openInteraction op scope spec) t' (.outcome (.applied receipt none))
  | interactionKept {op : OperationRequestId} {scope : Scope} {id : Reference}
      {command : InteractionModel.Command} {w w' : Write} {t₁ : Tables} {outcome : Outcome}
      {revision : Nat} {audit : AuditRecord} {receipt : Receipt} {t' : Tables}
      (started : Started t op ⟨scope, .interaction, .interaction id command⟩ w)
      (later : Write.Later w w') (keyed : insertInteractionKey t command w' = .ok t₁)
      (quiet : audit.admission = none)
      (prepared : Prepared limits t₁ w' outcome revision audit t' receipt)
      (planned : t.executions.lookup scope ≠ none) :
      Effect limits host t (.interaction op scope id command) t' (.outcome (.applied receipt none))
  | interactionMoved {op : OperationRequestId} {scope : Scope} {id : Reference}
      {command : InteractionModel.Command} {w w' : Write} {t₁ : Tables} {row : InteractionRow}
      {state : Interaction} {evaluation : InteractionState.Evaluation}
      {transition : InteractionState.Transition} {audit : AuditRecord} {receipt : Receipt}
      {t' : Tables} (started : Started t op ⟨scope, .interaction, .interaction id command⟩ w)
      (later : Write.Later w w') (loaded : loadInteraction limits t scope id = .ok (row, state))
      (keyed : insertInteractionKey t command w' = .ok t₁)
      (evaluated : state.evaluate command w'.now = .ok evaluation)
      (offered : evaluation.transition = some transition)
      (current : row.revision = transition.expectedRevision) (quiet : audit.admission = none)
      (prepared : Prepared limits { t₁ with
        interactions := t.interactions.insert id { row with
          snapshot := transition.next.snapshot
          revision := transition.next.snapshot.revision
          reserve := 0 } }
        w' (interactionOutcome evaluation.outcome) transition.next.snapshot.revision audit t' receipt)
      (planned : t.executions.lookup scope ≠ none) :
      Effect limits host t (.interaction op scope id command) t' (.outcome (.applied receipt none))
  | confirmed {scope : Scope} {consumer : Identifier} {event : ReceiptEvent} {row : ReceiptRow}
      {confirmations : List Confirmation} (delivered : row ∈ t.receipts)
      (named : row.receipt.scope = scope ∧ row.receipt.eventId = event)
      (grown : ∀ c, c ∈ confirmations ↔
        c ∈ t.confirmations ∨ c = ⟨scope, consumer, row.receipt.sequence⟩) :
      Effect limits host t (.confirm scope consumer event) { t with confirmations := confirmations } .done
  | captured {scope : Scope} {facts : ProcessEvidence} {row : ExecutionRow} {current : Execution}
      {attempt : AttemptSnapshot} (loaded : Loaded t scope row current)
      (active : current.snapshot.attempt = some attempt) (bound : facts.attemptId = attempt.id)
      (planned : facts.contentDigest = row.plan.digest)
      (kept : ∀ previous, t.processEvidence attempt.id = some previous →
        captureConflict previous facts = false) :
      Effect limits host t (.process scope facts) { t with
        processEvidence := Function.update t.processEvidence attempt.id (some facts) } .done
  | progressed {scope : Scope} {facts : SoftwareProgress} {row : ExecutionRow} {current : Execution}
      {attempt : AttemptSnapshot} {claims : String → Option AttemptId}
      (loaded : Loaded t scope row current) (active : current.snapshot.attempt = some attempt)
      (bound : facts.attemptId = attempt.id) (runner : facts.runner = attempt.runner)
      (valid : facts.validFor row.plan = true)
      (grown : ∀ previous, t.progress attempt.id = some previous → facts.extends previous = true)
      (settled : Settled { t with progress := Function.update t.progress attempt.id (some facts) }
        row.plan current.snapshot claims) :
      Effect limits host t (.progress scope facts) { t with
        progress := Function.update t.progress attempt.id (some facts)
        claims := claims } (.progress facts)
  | requested {scope : Scope} {expected : Option BackendRequest} {next : BackendRequest}
      (reserved : reserveRequest t scope = .ok ())
      (accepted : acceptsRequest scope (Tables.backendRequest t scope) expected next = .ok ()) :
      Effect limits host t (.backendRequest scope expected next)
        { t with backendRequests := upsertRequest t.backendRequests scope next } .done

section Parts
variable {limits : StoreLimits} {t t' : Tables} {w w' : Write} {host : JournalHost}

@[simp] theorem withEvent_later (later : Write.Later w w') (event : EventId) :
    withEvent t w' event = withEvent t w event := by
  simp [withEvent, later.meant, later.named]

theorem passGate_ok [JournalNaming] {plan : FrozenExecution} {event : EventRecord}
    {audit : AuditRecord} {gated : Gated} (quiet : audit.admission = none)
    (h : passGate limits t host plan event w audit = .ok gated) :
    (∃ w' audit', gated = .rejected w' audit' ∧ Write.Later w w' ∧ isBegin event = true ∧
        audit'.admission = some false) ∨
      ∃ w' audit', gated = .passed w' audit' (isBegin event) ∧ Write.Later w w' ∧
        audit'.admission = if isBegin event then some true else none := by
  unfold passGate at h
  split at h
  · obtain ⟨w', refreshed, h⟩ := bind_ok.mp h
    have later := refreshTime_later refreshed
    split at h
    · cases h
      exact .inl ⟨_, _, rfl, later, rfl, rfl⟩
    · cases h
    · obtain ⟨_, -, h⟩ := bind_ok.mp h
      split at h
      · cases h
        exact .inr ⟨_, _, rfl, later, rfl⟩
      · cases h
        exact .inl ⟨_, _, rfl, later, rfl, rfl⟩
  · next other =>
    cases h
    have ordinary : isBegin event = false := by
      unfold isBegin
      split
      · exact absurd rfl (other _ _ _ _ _)
      · rfl
    rw [ordinary]
    exact .inr ⟨w, audit, rfl, .refl w, quiet⟩

@[simp] theorem transitionAudit_admission (audit : AuditRecord) (event : EventRecord)
    (admitting : Bool) (directive : Directive) :
    (transitionAudit audit event admitting directive).admission = audit.admission := by
  unfold transitionAudit
  cases event <;> cases admitting <;> dsimp only <;> split <;> rfl

theorem admitAttempt_ok [ResourceNaming] {plan : FrozenExecution} {next : Snapshot} {admitting : Bool}
    (h : (if admitting then admitAttempt t plan next w else .ok t) = .ok t') :
    ∃ attempts claims, t' = { t with attempts := attempts, claims := claims } ∧
      Admits t plan next w admitting attempts claims := by
  cases admitting with
  | false =>
    cases h
    exact ⟨_, _, rfl, .kept⟩
  | true =>
    simp only [if_true, admitAttempt] at h
    split at h
    · cases h
    next attempt current =>
    obtain ⟨_, fresh, h⟩ := bind_ok.mp h
    obtain ⟨claims, claimed, h⟩ := bind_ok.mp h
    cases h
    exact ⟨_, _, rfl, .admitted current (by simpa using guarded_ok.mp fresh) claimed⟩

theorem Admits.of_tables [ResourceNaming] {plan : FrozenExecution} {next : Snapshot}
    {admitting : Bool} {attempts : AttemptId → Option Consumption} {claims : String → Option AttemptId}
    (h : Admits t plan next w admitting attempts claims) (sameAttempts : t'.attempts = t.attempts)
    (sameClaims : t'.claims = t.claims) : Admits t' plan next w admitting attempts claims := by
  cases h with
  | kept =>
    rw [← sameAttempts, ← sameClaims]
    exact .kept
  | admitted current fresh claimed =>
    rw [← sameAttempts]
    exact .admitted current (by rw [sameAttempts]; exact fresh) (by rw [sameClaims]; exact claimed)

theorem Admits.inversion [ResourceNaming] {plan : FrozenExecution} {next : Snapshot}
    {admitting : Bool} {attempts : AttemptId → Option Consumption} {claims : String → Option AttemptId}
    (h : Admits t plan next w admitting attempts claims) :
    (admitting = false ∧ attempts = t.attempts ∧ claims = t.claims) ∨
      admitting = true ∧ ∃ attempt, next.attempt = some attempt ∧ t.attempts attempt.id = none ∧
        attempts = Function.update t.attempts attempt.id (some ⟨w.intent.scope, w.op⟩) ∧
        claim t.claims plan attempt.id = .ok claims := by
  cases h with
  | kept => exact .inl ⟨rfl, rfl, rfl⟩
  | admitted current fresh claimed => exact .inr ⟨rfl, _, current, fresh, rfl, claimed⟩

theorem insertInteractionKey_ok {command : InteractionModel.Command}
    (h : insertInteractionKey t command w = .ok t') :
    ∃ keys, t' = { t with interactionKeys := keys } := by
  unfold insertInteractionKey at h
  split at h
  · cases h
    exact ⟨_, rfl⟩
  · obtain ⟨_, -, h⟩ := bind_ok.mp h
    cases h
    exact ⟨_, rfl⟩

theorem confirmBody_effect [ResourceNaming] [JournalNaming] {scope : Scope} {consumer : Identifier}
    {event : ReceiptEvent} {done : Unit}
    (h : confirmBody limits t scope consumer event = .ok (t', done)) :
    Effect limits host t (.confirm scope consumer event) t' .done := by
  unfold confirmBody at h
  split at h
  · cases h
  next row found =>
  obtain ⟨_, -, h⟩ := bind_ok.mp h
  cases h
  have named := List.find?_some found
  rw [Bool.and_eq_true, beq_iff_eq, beq_iff_eq] at named
  refine .confirmed (List.mem_of_find?_eq_some found) named fun c => ?_
  split
  · next present =>
    have present := List.contains_iff_mem.mp present
    exact ⟨.inl, fun h => h.elim id fun same => same ▸ present⟩
  · simp

theorem currentAttempt_ok [RecordEncoding] {scope : Scope} {row : ExecutionRow}
    {current : Execution} {attempt : AttemptSnapshot}
    (h : currentAttempt limits t scope = .ok (row, current, attempt)) :
    Loaded t scope row current ∧ current.snapshot.attempt = some attempt := by
  obtain ⟨⟨row', current'⟩, loaded, h⟩ := bind_ok.mp h
  dsimp only at h
  split at h
  · cases h
  next attempt' active =>
  cases h
  exact ⟨loadExecution_ok loaded, active⟩

theorem readCapture_ok {attempt : AttemptId} {previous : Option ProcessEvidence}
    (h : readCapture limits t attempt = .ok previous) : previous = t.processEvidence attempt := by
  unfold readCapture at h
  split at h
  · next absent =>
    cases h
    exact absent.symm
  next facts found =>
  split at h
  · cases h
  · cases h
    exact found.symm

end Parts

section Bodies
variable [ResourceNaming] [JournalNaming] [RecordEncoding] {limits : StoreLimits} {t t' : Tables}
  {w w' : Write} {host : JournalHost} {scope : Scope} {reply : CommitOutcome}

theorem openBody_effect {op : OperationRequestId} {plan : FrozenExecution}
    (started : Started t op ⟨.ofInput plan, .openExecution, .openExecution plan.spec⟩ w)
    (h : openBody limits t plan w = .ok (t', reply)) :
    Effect limits host t (.openExecution op plan) t' (.outcome reply) := by
  obtain ⟨_, reserved, h⟩ := bind_ok.mp h
  split at h
  · next row found =>
    obtain ⟨_, same, h⟩ := bind_ok.mp h
    obtain ⟨receipt, rfl, prepared⟩ := finish_ok h
    exact .openedAgain started rfl prepared ⟨found, beq_iff_eq.mp (guarded_ok.mp same)⟩
  · split at h
    · cases h
    next state created =>
    obtain ⟨_, -, h⟩ := bind_ok.mp h
    obtain ⟨_, fresh, h⟩ := bind_ok.mp h
    obtain ⟨receipt, rfl, prepared⟩ := finish_ok h
    rw [started.meant] at prepared fresh reserved
    exact .opened started created (by simpa using guarded_ok.mp fresh) rfl reserved prepared

omit [JournalNaming] in
theorem applyTransition_ok {row : ExecutionRow} {current : Execution} {input : Input}
    {audit : AuditRecord} {transition : Transition}
    (loaded : Loaded t w.intent.scope row current) (fresh : t.eventKeys input.record.id = none)
    (evaluated : Evaluated current input w.now transition.next)
    (admission : audit.admission = if isBegin input.record then some true else none)
    (h : applyTransition limits (withEvent t w input.record.id) row current input.record w audit
      (isBegin input.record) transition = .ok (t', reply)) :
    ∃ receipt, reply = .applied receipt (firstDispatch transition.next.snapshot) ∧
      Transitioned limits t w row current input transition.next t' receipt := by
  unfold applyTransition at h
  obtain ⟨t₁, admitted, h⟩ := bind_ok.mp h
  obtain ⟨t₂, settled, h⟩ := bind_ok.mp h
  obtain ⟨_, -, h⟩ := bind_ok.mp h
  obtain ⟨_, -, h⟩ := bind_ok.mp h
  obtain ⟨_, -, h⟩ := bind_ok.mp h
  obtain ⟨⟨t₃, receipt⟩, prepared, h⟩ := bind_ok.mp h
  cases h
  obtain ⟨attempts, claims, rfl, admits⟩ := admitAttempt_ok admitted
  obtain ⟨claims', rfl, released⟩ := settle_ok settled
  have prepared := prepare_ok prepared
  rw [loaded.snapshot] at prepared
  exact ⟨receipt, rfl, loaded, fresh, evaluated, attempts, claims, claims', audit, admission,
    admits.of_tables rfl rfl, released.of_tables rfl rfl, prepared⟩

theorem evaluateBody_effect {op : OperationRequestId} {input : Input} {row : ExecutionRow}
    {current : Execution} {audit : AuditRecord}
    (started : Started t op ⟨scope, .execution, .execution input.record⟩ w)
    (later : Write.Later w w') (loaded : Loaded t scope row current)
    (fresh : t.eventKeys input.record.id = none)
    (passed : GatePassed limits t host row.plan input.record w w')
    (admission : audit.admission = if isBegin input.record then some true else none)
    (h : evaluateBody limits (withEvent t w' input.record.id) row current input w' audit
      (isBegin input.record) = .ok (t', reply)) :
    Effect limits host t (.execution op scope input) t' (.outcome reply) := by
  unfold evaluateBody at h
  split at h
  · next error evaluated =>
    obtain ⟨receipt, rfl, prepared⟩ := finish_ok h
    refine .refused started later loaded fresh ?_ prepared
    rw [show ({ audit.decide .denied with reason := .lifecycleError error } : AuditRecord).admission =
      audit.admission from rfl, admission]
    exact .lifecycle passed evaluated
  next evaluation evaluated =>
  split at h
  · next kept =>
    obtain ⟨receipt, rfl, prepared⟩ := finish_ok h
    refine .refused started later loaded fresh ?_ prepared
    dsimp only
    rw [admission]
    exact .unchanged passed evaluated kept
  next transition offered =>
  obtain ⟨-, -, evaluated⟩ := evaluateInput_transition evaluated offered
  have named : w'.intent.scope = scope := by rw [later.meant, started.meant]
  rw [← named] at loaded
  obtain ⟨receipt, rfl, accepted⟩ := applyTransition_ok loaded fresh evaluated
    (by rw [transitionAudit_admission, admission]) h
  exact .transitioned started later accepted passed

theorem inputBody_effect {op : OperationRequestId} {input : Input}
    (started : Started t op ⟨scope, .execution, .execution input.record⟩ w)
    (h : inputBody limits t host input w = .ok (t', reply)) :
    Effect limits host t (.execution op scope input) t' (.outcome reply) := by
  unfold inputBody at h
  obtain ⟨⟨row, current⟩, loaded, h⟩ := bind_ok.mp h
  have loaded := loadExecution_ok loaded
  rw [started.meant] at loaded
  obtain ⟨_, fresh, h⟩ := bind_ok.mp h
  have fresh : t.eventKeys input.record.id = none := by simpa using guarded_ok.mp fresh
  obtain ⟨gated, gate, h⟩ := bind_ok.mp h
  rcases passGate_ok rfl gate with
    ⟨w', audit, rfl, later, begins, denied⟩ | ⟨w', audit, rfl, later, admission⟩
  · obtain ⟨receipt, rfl, prepared⟩ := finish_ok (t := withEvent t w input.record.id) h
    rw [← withEvent_later later] at prepared
    exact .refused started later loaded fresh (by rw [denied]; exact .gate begins) prepared
  · dsimp only at h
    rw [show ({ t with eventKeys := _ } : Tables) = withEvent t w' input.record.id from
      (withEvent_later later _).symm] at h
    exact evaluateBody_effect started later loaded fresh ⟨_, _, gate⟩ admission h

theorem openInteractionBody_effect {op : OperationRequestId} {spec : Spec}
    (started : Started t op ⟨scope, .openInteraction, .openInteraction spec⟩ w)
    (h : openInteractionBody limits t spec w = .ok (t', reply)) :
    Effect limits host t (.openInteraction op scope spec) t' (.outcome reply) := by
  obtain ⟨row, planned, h⟩ := bind_ok.mp h
  rw [started.meant] at planned h
  split at h
  · cases h
  next state created =>
  obtain ⟨_, -, h⟩ := bind_ok.mp h
  obtain ⟨_, fresh, h⟩ := bind_ok.mp h
  obtain ⟨receipt, rfl, prepared⟩ := finish_ok h
  exact .interactionOpened started (loadPlan_ok planned).1 created (by simpa using guarded_ok.mp fresh)
    rfl prepared

theorem interactionBody_effect {op : OperationRequestId} {id : Reference}
    {command : InteractionModel.Command}
    (started : Started t op ⟨scope, .interaction, .interaction id command⟩ w)
    (h : interactionBody limits t host id command w = .ok (t', reply)) :
    Effect limits host t (.interaction op scope id command) t' (.outcome reply) := by
  obtain ⟨plan, planned, h⟩ := bind_ok.mp h
  obtain ⟨⟨row, state⟩, loaded, h⟩ := bind_ok.mp h
  obtain ⟨_, -, h⟩ := bind_ok.mp h
  obtain ⟨w', refreshed, h⟩ := bind_ok.mp h
  obtain ⟨t₁, keyed, h⟩ := bind_ok.mp h
  have later := refreshTime_later refreshed
  rw [started.meant] at loaded planned
  have planned : t.executions.lookup scope ≠ none := by
    cases stored : loadPlan limits t scope with
    | error =>
      rw [stored] at planned
      cases planned
    | ok row =>
      rw [(loadPlan_ok stored).1]
      exact Option.some_ne_none row
  split at h
  · obtain ⟨receipt, rfl, prepared⟩ := finish_ok h
    exact .interactionKept started later keyed rfl prepared planned
  next evaluation evaluated =>
  obtain ⟨⟨t₂, revision⟩, moved, h⟩ := bind_ok.mp h
  obtain ⟨receipt, rfl, prepared⟩ := finish_ok h
  unfold applyInteractionTransition at moved
  split at moved
  · cases moved
    exact .interactionKept started later keyed rfl prepared planned
  next transition offered =>
  obtain ⟨_, -, moved⟩ := bind_ok.mp moved
  obtain ⟨_, same, moved⟩ := bind_ok.mp moved
  cases moved
  obtain ⟨keys, rfl⟩ := insertInteractionKey_ok keyed
  exact .interactionMoved started later loaded keyed evaluated offered
    (by simpa using guarded_ok.mp same) rfl prepared planned

theorem processBody_effect {facts : ProcessEvidence}
    (h : processBody limits t scope facts = .ok (some t')) :
    Effect limits host t (.process scope facts) t' .done := by
  obtain ⟨⟨row, current, attempt⟩, found, h⟩ := bind_ok.mp h
  obtain ⟨loaded, active⟩ := currentAttempt_ok found
  obtain ⟨_, checked, h⟩ := bind_ok.mp h
  have checked := guarded_ok.mp checked
  simp only [Bool.and_eq_true, beq_iff_eq] at checked
  obtain ⟨previous, read, h⟩ := bind_ok.mp h
  have bound : facts.attemptId = attempt.id := checked.1.1.1.1.1
  have stored := readCapture_ok read
  split at h
  · cases h
  obtain ⟨_, kept, h⟩ := bind_ok.mp h
  obtain ⟨_, -, h⟩ := bind_ok.mp h
  cases h
  have kept := guarded_ok.mp kept
  rw [bound] at stored ⊢
  refine .captured loaded active bound (by rw [checked.1.1.1.1.2, loaded.plan]) fun earlier same => ?_
  rw [stored, same] at kept
  simpa using kept

theorem progressBody_effect {facts saved : SoftwareProgress}
    (h : progressBody limits t scope facts = .ok (t', saved)) :
    Effect limits host t (.progress scope facts) t' (.progress saved) := by
  obtain ⟨⟨row, current, attempt⟩, found, h⟩ := bind_ok.mp h
  obtain ⟨loaded, active⟩ := currentAttempt_ok found
  obtain ⟨_, checked, h⟩ := bind_ok.mp h
  have checked := guarded_ok.mp checked
  simp only [Bool.and_eq_true, beq_iff_eq] at checked
  obtain ⟨previous, read, h⟩ := bind_ok.mp h
  have stored := readProgress_ok read
  obtain ⟨_, grown, h⟩ := bind_ok.mp h
  have grown := guarded_ok.mp grown
  obtain ⟨_, -, h⟩ := bind_ok.mp h
  obtain ⟨t₁, settled, h⟩ := bind_ok.mp h
  obtain ⟨claims, rfl, released⟩ := settle_ok settled
  cases h
  refine .progressed loaded active checked.1.1 checked.1.2 checked.2 (fun earlier same => ?_) released
  rw [stored, same] at grown
  simpa using grown

end Bodies

section Calls
variable {s s' : Store} {env : Environment}

structure Handled (s s' : Store) : Prop where
  authority : s'.authority = s.authority
  owner : s'.installationOwner = s.installationOwner
  limits : s'.limits = s.limits
  safety : s.materialSafety ≤ s'.materialSafety

theorem Handled.refl (s : Store) : Handled s s := ⟨rfl, rfl, rfl, Nat.le_refl _⟩

theorem raisedSafety_ok {scope : Scope} {safety : Nat} (h : s.raisedSafety scope = .ok safety) :
    s.materialSafety ≤ safety ∧ (unsafeChange s.tables scope = true → s.materialSafety < safety) := by
  unfold Store.raisedSafety at h
  split at h
  · split at h
    · cases h
    next raised =>
    cases h
    have := BoundedArithmetic.checkedAdd_eq_some.mp raised
    omega
  · next safe =>
    cases h
    exact ⟨Nat.le_refl _, fun unsafe_ => absurd unsafe_ safe⟩

theorem startTime_ok {host : JournalHost} {now : Nat} (h : s.startTime host = .ok now) :
    s.tables.watermark ≤ now := by
  obtain ⟨_, -, h⟩ := bind_ok.mp h
  obtain ⟨_, behind, h⟩ := bind_ok.mp h
  obtain ⟨_, -, h⟩ := bind_ok.mp h
  cases h
  simpa using guarded_ok.mp behind

theorem knownReceipt_ok {host : JournalHost} {op : OperationRequestId} {intent : Intent}
    {access : Access} {known : Option Receipt} (h : s.knownReceipt host op intent access = .ok known) :
    (known = none ∧ s.tables.receiptOf op = none) ∨
      ∃ row, s.tables.receiptOf op = some row ∧ row.intent = intent ∧ known = some row.receipt := by
  obtain ⟨_, -, h⟩ := bind_ok.mp h
  obtain ⟨_, -, h⟩ := bind_ok.mp h
  split at h
  · next row found =>
    obtain ⟨_, -, h⟩ := bind_ok.mp h
    obtain ⟨_, same, h⟩ := bind_ok.mp h
    cases h
    exact .inr ⟨row, found, by simpa using guarded_ok.mp same, rfl⟩
  · next fresh =>
    obtain ⟨_, -, h⟩ := bind_ok.mp h
    cases h
    exact .inl ⟨rfl, fresh⟩

theorem commit_cases {α : Type} {unknown : JournalError} {result : Except JournalError (Tables × α)}
    {reply : Except JournalError α} (h : s.commit env unknown result = (s', reply)) :
    (s' = s ∧ ∃ error, reply = .error error) ∨
      ∃ t value, result = .ok (t, value) ∧ s' = { s with tables := t } ∧
        (reply = .ok value ∨ reply = .error unknown) := by
  unfold Store.commit at h
  split at h
  · cases h
    exact .inl ⟨rfl, _, rfl⟩
  next t value done =>
  obtain ⟨_, -, done⟩ := bind_ok.mp done
  split at h
  · cases h
    exact .inr ⟨t, value, done, rfl, .inl rfl⟩
  · cases h
    exact .inr ⟨t, value, done, rfl, .inr rfl⟩
  · cases h
    exact .inl ⟨rfl, _, rfl⟩

/-- A recorded operation: refused, replayed, or performed by its body. -/
inductive Performed (s s' : Store) (op : OperationRequestId) (intent : Intent)
    (body : Write → Except JournalError (Tables × CommitOutcome)) :
    Except JournalError CommitOutcome → Prop where
  | failed {error : JournalError} (kept : s'.tables = s.tables) :
      Performed s s' op intent body (.error error)
  | replayed {row : ReceiptRow} (kept : s'.tables = s.tables)
      (known : s.tables.receiptOf op = some row) (meant : row.intent = intent) :
      Performed s s' op intent body (.ok (.alreadyCommitted row.receipt))
  | done {w : Write} {reply : CommitOutcome} {result : Except JournalError CommitOutcome}
      (started : Started s.tables op intent w) (ran : body w = .ok (s'.tables, reply))
      (raised : unsafeChange s.tables intent.scope = true → s.materialSafety < s'.materialSafety)
      (reported : result = .ok reply ∨ result = .error .operationCommitUnknown) :
      Performed s s' op intent body result

theorem perform_cases (s : Store) (env : Environment) (op : OperationRequestId) {intent : Intent} {access : Access}
    {body : Write → Except JournalError (Tables × CommitOutcome)}
    {result : Except JournalError CommitOutcome}
    (h : s.perform env op intent access body = (s', result)) :
    Handled s s' ∧ Performed s s' op intent body result := by
  unfold Store.perform Store.start at h
  cases started : (do raised env.startFault; s.knownReceipt env.host op intent access) with
  | error error =>
    rw [started] at h
    cases h
    exact ⟨.refl s, .failed rfl⟩
  | ok known =>
    rw [started] at h
    obtain ⟨_, -, started⟩ := bind_ok.mp started
    rcases knownReceipt_ok started with ⟨rfl, fresh⟩ | ⟨row, found, meant, rfl⟩
    · dsimp only at h
      cases safety : s.raisedSafety intent.scope with
      | error error =>
        rw [safety] at h
        cases h
        exact ⟨.refl s, .failed rfl⟩
      | ok safety' =>
        rw [safety] at h
        obtain ⟨grown, raised⟩ := raisedSafety_ok safety
        cases time : s.startTime env.host with
        | error error =>
          rw [time] at h
          cases h
          exact ⟨⟨rfl, rfl, rfl, grown⟩, .failed rfl⟩
        | ok now =>
          rw [time] at h
          rcases commit_cases h with ⟨rfl, error, rfl⟩ | ⟨t, reply, ran, rfl, reported⟩
          · exact ⟨⟨rfl, rfl, rfl, grown⟩, .failed rfl⟩
          · exact ⟨⟨rfl, rfl, rfl, grown⟩,
              .done ⟨rfl, rfl, fresh, startTime_ok time⟩ ran raised reported⟩
    · cases h
      exact ⟨.refl s, .replayed rfl found meant⟩

variable [ResourceNaming] [JournalNaming]

/-- The answer to a call, and the tables that it leaves. -/
inductive Answer (s : Store) (env : Environment) (c : Call) (t : Tables) : Except JournalError Reply → Prop where
  | failed {error : JournalError} (kept : t = s.tables) : Answer s env c t (.error error)
  | replayed {op : OperationRequestId} {row : ReceiptRow} (kept : t = s.tables)
      (named : c.operation = some op) (known : s.tables.receiptOf op = some row)
      (meant : c.intent = some row.intent) :
      Answer s env c t (.ok (.outcome (.alreadyCommitted row.receipt)))
  | stored {scope : Scope} {facts : ProcessEvidence} (kept : t = s.tables)
      (same : c = .process scope facts) : Answer s env c t (.ok .done)
  | committed {reply : Reply} {result : Except JournalError Reply}
      (effect : Effect s.limits env.host s.tables c t reply)
      (reported : result = .ok reply ∨ result = .error c.unknown) : Answer s env c t result

structure Called (s : Store) (env : Environment) (s' : Store) (c : Call) (result : Except JournalError Reply) : Prop where
  handled : Handled s s'
  answer : Answer s env c s'.tables result
  raised : ∀ intent, c.intent = some intent → unsafeChange s.tables intent.scope = true →
    s'.tables = s.tables ∨ s.materialSafety < s'.materialSafety

theorem performed_called {op : OperationRequestId} {intent : Intent} {c : Call}
    {body : Write → Except JournalError (Tables × CommitOutcome)}
    {result : Except JournalError CommitOutcome} (named : c.operation = some op)
    (meant : c.intent = some intent) (unknown : c.unknown = .operationCommitUnknown)
    (effect : ∀ {w t reply}, Started s.tables op intent w → body w = .ok (t, reply) →
      Effect s.limits env.host s.tables c t (.outcome reply))
    (handled : Handled s s') (h : Performed s s' op intent body result) :
    Called s env s' c (result.map .outcome) := by
  cases h with
  | failed kept => exact ⟨handled, .failed kept, fun _ _ _ => .inl kept⟩
  | replayed kept known same =>
    exact ⟨handled, .replayed kept named known (by rw [meant, same]), fun _ _ _ => .inl kept⟩
  | done started ran raised reported =>
    refine ⟨handled, .committed (effect started ran) ?_, fun intent' meant' unsafe_ => .inr ?_⟩
    · rcases reported with rfl | rfl
      · exact .inl rfl
      · exact .inr (by rw [unknown]; rfl)
    · cases meant.symm.trans meant'
      exact raised unsafe_

theorem committed_called {α : Type} {c : Call} {wrap : α → Reply}
    {result : Except JournalError (Tables × α)} {reply : Except JournalError α}
    (meant : c.intent = none)
    (effect : ∀ {t value}, result = .ok (t, value) → Effect s.limits env.host s.tables c t (wrap value))
    (h : s.commit env c.unknown result = (s', reply)) : Called s env s' c (reply.map wrap) := by
  rcases commit_cases h with ⟨rfl, error, rfl⟩ | ⟨t, value, done, rfl, reported⟩
  · exact ⟨.refl _, .failed rfl, fun _ _ _ => .inl rfl⟩
  · refine ⟨⟨rfl, rfl, rfl, Nat.le_refl _⟩, .committed (effect done) ?_, fun intent meant' => ?_⟩
    · rcases reported with rfl | rfl
      · exact .inl rfl
      · exact .inr rfl
    · rw [meant] at meant'
      cases meant'

end Calls

section Inversion
variable [ResourceNaming] [JournalNaming] [RecordEncoding] {s s' : Store} {env : Environment}

theorem recordProcess_called {scope : Scope} {facts : ProcessEvidence}
    {result : Except JournalError Unit} (h : recordProcess s env scope facts = (s', result)) :
    Called s env s' (.process scope facts) (result.map fun _ => .done) := by
  unfold recordProcess at h
  dsimp only at h
  split at h
  · cases h
    exact ⟨.refl _, .failed rfl, fun _ _ _ => .inl rfl⟩
  · cases h
    exact ⟨.refl _, .stored rfl rfl, fun _ _ _ => .inl rfl⟩
  · next t checked =>
    obtain ⟨_, -, checked⟩ := bind_ok.mp checked
    obtain ⟨_, -, checked⟩ := bind_ok.mp checked
    obtain ⟨_, -, checked⟩ := bind_ok.mp checked
    obtain ⟨_, -, checked⟩ := bind_ok.mp checked
    refine committed_called (c := .process scope facts) rfl (fun done => ?_) h
    cases done
    exact processBody_effect checked

/-- Every answer to a call and every change that it can make. -/
theorem call_cases {c : Call} {result : Except JournalError Reply}
    (h : Store.call s env c = (s', result)) : Called s env s' c result := by
  cases c with
  | openExecution op plan =>
    cases h
    unfold openExecution
    dsimp only
    split
    · obtain ⟨handled, performed⟩ := perform_cases s env op rfl
      exact performed_called rfl rfl rfl (fun started ran => openBody_effect started ran) handled
        performed
    · exact ⟨.refl _, .failed rfl, fun _ _ _ => .inl rfl⟩
  | execution op scope input =>
    cases h
    obtain ⟨handled, performed⟩ := perform_cases s env op rfl
    exact performed_called rfl rfl rfl (fun started ran => inputBody_effect started ran) handled
      performed
  | openInteraction op scope spec =>
    cases h
    unfold openInteraction
    split
    · obtain ⟨handled, performed⟩ := perform_cases s env op rfl
      exact performed_called rfl rfl rfl (fun started ran => openInteractionBody_effect started ran)
        handled performed
    · exact ⟨.refl _, .failed rfl, fun _ _ _ => .inl rfl⟩
  | interaction op scope id command =>
    cases h
    obtain ⟨handled, performed⟩ := perform_cases s env op rfl
    exact performed_called rfl rfl rfl (fun started ran => interactionBody_effect started ran) handled
      performed
  | confirm scope consumer event =>
    cases h
    refine committed_called rfl (fun done => ?_) rfl
    obtain ⟨_, -, done⟩ := bind_ok.mp done
    obtain ⟨_, -, done⟩ := bind_ok.mp done
    obtain ⟨_, -, done⟩ := bind_ok.mp done
    exact confirmBody_effect done
  | process scope facts =>
    cases h
    exact recordProcess_called rfl
  | progress scope facts =>
    cases h
    refine committed_called rfl (fun done => ?_) rfl
    obtain ⟨_, -, done⟩ := bind_ok.mp done
    obtain ⟨_, -, done⟩ := bind_ok.mp done
    obtain ⟨_, -, done⟩ := bind_ok.mp done
    exact progressBody_effect done
  | backendRequest scope expected next =>
    cases h
    refine committed_called rfl (fun done => ?_) rfl
    obtain ⟨_, -, done⟩ := bind_ok.mp done
    obtain ⟨_, -, done⟩ := bind_ok.mp done
    obtain ⟨_, -, done⟩ := bind_ok.mp done
    obtain ⟨_, reserved, done⟩ := bind_ok.mp done
    obtain ⟨_, accepted, done⟩ := bind_ok.mp done
    obtain ⟨_, -, done⟩ := bind_ok.mp done
    cases done
    exact .requested reserved accepted

end Inversion

end RssMdmAgent.JournalEffects
