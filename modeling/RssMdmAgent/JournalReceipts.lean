import RssMdmAgent.JournalRuns

set_option autoImplicit false

/-! # Receipts, replays and first dispatches -/

namespace RssMdmAgent.JournalReceipts
open ContractIdentity ContractPlan ProgressHistory ApplicationModel
open LifecycleModel LifecycleState LifecycleSteps JournalModel KeyedTable JournalStore
open JournalOperations JournalSteps JournalEffects JournalRuns TransitionRuns
open ProgramInstructions (ResourceNaming)

section Effects
variable [ResourceNaming] [JournalNaming] {limits : StoreLimits} {host : JournalHost} {t t' : Tables}
  {c : Call} {reply : Reply}

/-- A recorded operation appends exactly one receipt, under its fresh identity. -/
structure Recorded (t t' : Tables) (c : Call) (reply : Reply) (row : ReceiptRow) : Prop where
  named : c.operation = some row.receipt.operationId
  meant : c.intent = some row.intent
  fresh : t.receiptOf row.receipt.operationId = none
  appended : t'.receipts = t.receipts ++ [row]
  scope : row.receipt.scope = row.intent.scope
  sequence : row.receipt.sequence = t.receipts.length + 1
  replied : ∃ action, reply = .outcome (.applied row.receipt action)
  watermark : t.watermark ≤ t'.watermark

omit [ResourceNaming] [JournalNaming] in
theorem prepared_recorded {base : Tables} {w w' : Write} {op : OperationRequestId} {intent : Intent}
    {outcome : Outcome} {revision : Nat} {audit : AuditRecord} {receipt : Receipt}
    {action : Option DispatchAction} (started : Started t op intent w) (later : Write.Later w w')
    (named : c.operation = some op) (meant : c.intent = some intent)
    (prepared : Prepared limits base w' outcome revision audit t' receipt)
    (receipts : base.receipts = t.receipts) :
    ∃ row, Recorded t t' c (.outcome (.applied receipt action)) row := by
  obtain ⟨audit', rfl⟩ := prepared.tables
  obtain rfl := prepared.made
  refine ⟨⟨w'.receipt base outcome revision audit, w'.intent, audit'⟩, ?_, ?_, ?_, ?_, rfl, ?_,
    ⟨action, rfl⟩, ?_⟩
  · rw [named, ← started.named, ← later.named]
    rfl
  · rw [meant, ← started.meant, ← later.meant]
  · rw [show (w'.receipt base outcome revision audit).operationId = w'.op from rfl, later.named,
      started.named]
    exact started.fresh
  · rw [show (base.recorded _ w'.now).receipts = base.receipts ++ [_] from rfl, receipts]
  · rw [← receipts]
    rfl
  · exact Nat.le_trans started.clock later.time

theorem effect_recorded (h : Effect limits host t c t' reply) :
    (c.operation = none ∧ t'.receipts = t.receipts ∧ t'.watermark = t.watermark) ∨
      ∃ row, Recorded t t' c reply row := by
  cases h with
  | openedAgain started quiet prepared =>
    exact .inr (prepared_recorded started (.refl _) rfl rfl prepared rfl)
  | opened started created fresh quiet reserved prepared =>
    exact .inr (prepared_recorded started (.refl _) rfl rfl prepared rfl)
  | refused started later loaded fresh refusal prepared =>
    exact .inr (prepared_recorded started later rfl rfl prepared rfl)
  | transitioned started later accepted =>
    obtain ⟨attempts, claims, claims', audit, -, -, -, prepared⟩ := accepted.written
    exact .inr (prepared_recorded started later rfl rfl prepared rfl)
  | interactionOpened started planned created fresh quiet prepared =>
    exact .inr (prepared_recorded started (.refl _) rfl rfl prepared rfl)
  | interactionKept started later keyed quiet prepared =>
    obtain ⟨keys, rfl⟩ := insertInteractionKey_ok keyed
    exact .inr (prepared_recorded started later rfl rfl prepared rfl)
  | interactionMoved started later loaded keyed evaluated offered current quiet prepared =>
    obtain ⟨keys, rfl⟩ := insertInteractionKey_ok keyed
    exact .inr (prepared_recorded started later rfl rfl prepared rfl)
  | confirmed => exact .inl ⟨rfl, rfl, rfl⟩
  | captured => exact .inl ⟨rfl, rfl, rfl⟩
  | progressed => exact .inl ⟨rfl, rfl, rfl⟩
  | requested => exact .inl ⟨rfl, rfl, rfl⟩

/-- What an operation does to the attempt and event identities, with the action that it releases. -/
inductive KeyStep (t t' : Tables) (c : Call) : Option DispatchAction → Prop where
  | kept (attempts : t'.attempts = t.attempts)
      (events : t'.eventKeys = t.eventKeys ∨ ∃ event consumption, t.eventKeys event = none ∧
        t'.eventKeys = Function.update t.eventKeys event (some consumption)) : KeyStep t t' c none
  | begun {op : OperationRequestId} {scope : Scope} {input : Input} {attempt : AttemptSnapshot}
      {action : DispatchAction} (called : c = .execution op scope input)
      (fresh : t.attempts attempt.id = none)
      (attempts : t'.attempts = Function.update t.attempts attempt.id (some ⟨scope, op⟩))
      (event : t.eventKeys input.record.id = none)
      (events : t'.eventKeys = Function.update t.eventKeys input.record.id (some ⟨scope, op⟩))
      (named : action.attemptId = attempt.id) : KeyStep t t' c (some action)

def Reply.dispatch : Reply → Option DispatchAction
  | .outcome outcome => outcome.firstDispatch
  | _ => none

omit [ResourceNaming] [JournalNaming] in
theorem firstDispatch_begin {current next : Execution} {input : Input} {now : Nat}
    (h : Evaluated current input now next) {attempt : AttemptSnapshot}
    (begins : Begins input.record current.snapshot next.snapshot attempt) :
    ∃ action, firstDispatch next.snapshot = some action ∧ action.attemptId = attempt.id := by
  obtain ⟨id, revision, command⟩ := begins.command
  unfold firstDispatch
  rw [(Evaluated.lastEvent h).1, command]
  exact ⟨_, rfl, rfl⟩

omit [ResourceNaming] [JournalNaming] in
theorem firstDispatch_other {current next : Execution} {input : Input} {now : Nat}
    (h : Evaluated current input now next) (ordinary : isBegin input.record = false) :
    firstDispatch next.snapshot = none := by
  unfold firstDispatch
  rw [(Evaluated.lastEvent h).1]
  generalize input.record = event at ordinary
  split
  · next same =>
    cases same
    simp [isBegin] at ordinary
  · rfl

theorem effect_keys (h : Effect limits host t c t' reply) : KeyStep t t' c (Reply.dispatch reply) := by
  cases h with
  | openedAgain started quiet prepared =>
    obtain ⟨audit, rfl⟩ := prepared.tables
    exact .kept rfl (.inl rfl)
  | opened started created fresh quiet reserved prepared =>
    obtain ⟨audit, rfl⟩ := prepared.tables
    exact .kept rfl (.inl rfl)
  | refused started later loaded fresh refusal prepared =>
    obtain ⟨audit, rfl⟩ := prepared.tables
    exact .kept rfl (.inr ⟨_, _, fresh, rfl⟩)
  | @transitioned op scope input w w' row current next receipt _ started later accepted =>
    obtain ⟨attempts, claims, claims', audit, -, admits, -, prepared⟩ := accepted.written
    obtain ⟨audit, rfl⟩ := prepared.tables
    have named : (⟨w'.intent.scope, w'.op⟩ : Consumption) = ⟨scope, op⟩ := by
      rw [later.meant, later.named, started.meant, started.named]
    rcases Evaluated.progress accepted.evaluated with ⟨begin_, attempt, begins⟩ | ⟨ordinary, -⟩
    · rcases admits.inversion with ⟨impossible, -⟩ | ⟨-, attempt', active, fresh, rfl, -⟩
      · rw [begin_] at impossible
        cases impossible
      cases begins.active.symm.trans active
      obtain ⟨action, released, same⟩ := firstDispatch_begin accepted.evaluated begins
      rw [Reply.dispatch, CommitOutcome.firstDispatch, released]
      refine .begun rfl fresh ?_ accepted.fresh ?_ same
      · rw [← named]
        rfl
      · rw [← named]
        rfl
    · rcases admits.inversion with ⟨-, rfl, -⟩ | ⟨impossible, -⟩
      · rw [Reply.dispatch, CommitOutcome.firstDispatch, firstDispatch_other accepted.evaluated ordinary]
        exact .kept rfl (.inr ⟨_, _, accepted.fresh, rfl⟩)
      · rw [ordinary] at impossible
        cases impossible
  | interactionOpened started planned created fresh quiet prepared =>
    obtain ⟨audit, rfl⟩ := prepared.tables
    exact .kept rfl (.inl rfl)
  | interactionKept started later keyed quiet prepared =>
    obtain ⟨audit, rfl⟩ := prepared.tables
    obtain ⟨keys, rfl⟩ := insertInteractionKey_ok keyed
    exact .kept rfl (.inl rfl)
  | interactionMoved started later loaded keyed evaluated offered current quiet prepared =>
    obtain ⟨audit, rfl⟩ := prepared.tables
    obtain ⟨keys, rfl⟩ := insertInteractionKey_ok keyed
    exact .kept rfl (.inl rfl)
  | confirmed => exact .kept rfl (.inl rfl)
  | captured => exact .kept rfl (.inl rfl)
  | progressed => exact .kept rfl (.inl rfl)
  | requested => exact .kept rfl (.inl rfl)

def Call.begins : Call → Bool
  | .execution _ _ input => isBegin input.record
  | _ => false

theorem effect_released {receipt : Receipt} {action : Option DispatchAction}
    (h : Effect limits host t c t' (.outcome (.applied receipt action))) :
    action.isSome = true ↔ receipt.outcome = .changed ∧ Call.begins c = true := by
  cases h with
  | openedAgain => simp [Call.begins]
  | opened => simp [Call.begins]
  | refused started later loaded fresh refusal prepared =>
    rename_i op scope input w w' row current outcome audit
    have unchanged : receipt.outcome ≠ .changed := by
      rw [prepared.made]
      generalize audit.admission = admission at refusal
      cases refusal with
      | gate => simp [Write.receipt]
      | lifecycle => simp [Write.receipt]
      | unchanged => simp only [Write.receipt]; split <;> simp
    simp [unchanged]
  | @transitioned op scope input w w' row current next receipt _ started later accepted =>
    obtain ⟨attempts, claims, claims', audit, -, -, -, prepared⟩ := accepted.written
    have changed : receipt.outcome = .changed := by
      rw [prepared.made]
      rfl
    rw [Call.begins]
    rcases Evaluated.progress accepted.evaluated with ⟨begin_, attempt, begins⟩ | ⟨ordinary, -⟩
    · obtain ⟨action, released, -⟩ := firstDispatch_begin accepted.evaluated begins
      simp [released, changed, begin_]
    · simp [firstDispatch_other accepted.evaluated ordinary, ordinary]
  | interactionOpened => simp [Call.begins]
  | interactionKept => simp [Call.begins]
  | interactionMoved => simp [Call.begins]

end Effects

section Replays
variable {s : Store} {env : Environment}

structure Replayable (s : Store) (env : Environment) (access : Access) (scope : Scope) : Prop where
  faultless : env.startFault = none
  inScope : s.checkScope scope = .ok ()
  current : s.ensureCurrent = .ok ()
  allowed : JournalHost.allowsReplay env.host access scope = .ok ()

theorem perform_known {op : OperationRequestId} {intent : Intent} {access : Access}
    {body : Write → Except JournalError (Tables × CommitOutcome)} {row : ReceiptRow}
    (known : s.tables.receiptOf op = some row) (may : Replayable s env access intent.scope) :
    (s.perform env op intent access body).2 =
      if row.intent = intent then .ok (.alreadyCommitted row.receipt) else .error .conflict := by
  have answer : s.knownReceipt env.host op intent access =
      if row.intent = intent then .ok (some row.receipt) else .error .conflict := by
    unfold Store.knownReceipt
    rw [may.inScope, may.current]
    by_cases same : row.intent = intent
    · simp [bind, Except.bind, pure, Except.pure, known, may.allowed, guarded, same]
    · simp [bind, Except.bind, known, may.allowed, guarded, same]
  unfold Store.perform Store.start
  rw [may.faultless, answer]
  by_cases same : row.intent = intent
  · simp only [if_pos same]
    rfl
  · simp only [if_neg same]
    rfl

/-- The access that a recorded operation needs, and its checks before any transaction. -/
def Call.entry [JournalNaming] [RecordEncoding] (s : Store) : Call → Option (Access × Bool)
  | .openExecution _ plan => some (.create, inputAccepted s.limits plan.spec)
  | .execution _ _ input => some (inputAccess input.record, true)
  | .openInteraction _ scope spec =>
    some (.interact, decide (spec.subject = JournalNaming.interactionSubject scope))
  | .interaction _ _ _ _ => some (.interact, true)
  | _ => none

variable [ResourceNaming] [JournalNaming] [RecordEncoding]

/-- A known operation is answered by its receipt, for the same scope and content, or by a conflict. -/
theorem call_known {c : Call} {op : OperationRequestId} {row : ReceiptRow} {access : Access}
    {intent : Intent} (named : c.operation = some op) (meant : c.intent = some intent)
    (entry : Call.entry s c = some (access, true)) (known : s.tables.receiptOf op = some row)
    (may : Replayable s env access intent.scope) :
    (Store.call s env c).2 =
      if row.intent = intent then .ok (.outcome (.alreadyCommitted row.receipt))
      else .error .conflict := by
  have mapped : ∀ result : Except JournalError CommitOutcome,
      result = (if row.intent = intent then .ok (.alreadyCommitted row.receipt) else .error .conflict) →
      result.map Reply.outcome = if row.intent = intent then
        .ok (.outcome (.alreadyCommitted row.receipt)) else .error .conflict := by
    rintro _ rfl
    split <;> rfl
  cases c with
  | openExecution op' plan =>
    cases named
    cases meant
    simp only [Call.entry, Option.some.injEq, Prod.mk.injEq] at entry
    obtain ⟨rfl, accepted⟩ := entry
    refine mapped _ ?_
    unfold openExecution
    rw [if_pos accepted]
    exact perform_known known may
  | execution op' scope input =>
    cases named
    cases meant
    cases entry
    exact mapped _ (perform_known known may)
  | openInteraction op' scope spec =>
    cases named
    cases meant
    simp only [Call.entry, Option.some.injEq, Prod.mk.injEq, decide_eq_true_eq] at entry
    obtain ⟨rfl, subject⟩ := entry
    refine mapped _ ?_
    unfold openInteraction
    rw [if_pos subject]
    exact perform_known known may
  | interaction op' scope id command =>
    cases named
    cases meant
    cases entry
    exact mapped _ (perform_known known may)
  | confirm | process | progress | backendRequest => cases named

end Replays

section Runs
variable [ResourceNaming] [JournalNaming] [RecordEncoding] {labels : List Operation} {o : Operation}
  {t t' : Tables}

def Operation.dispatch (o : Operation) : Option DispatchAction :=
  match o.result with
  | .ok reply => Reply.dispatch reply
  | .error _ => none

def Operation.applied (o : Operation) : Option OperationRequestId :=
  match o.result with
  | .ok (.outcome (.applied receipt _)) => some receipt.operationId
  | _ => none

def Answered (o : Operation) (t : Tables) : Prop :=
  ∀ op row intent access, o.call.operation = some op → o.call.intent = some intent →
    t.receiptOf op = some row → Call.entry o.store o.call = some (access, true) →
    Replayable o.store o.env access intent.scope →
    o.result = if row.intent = intent then .ok (.outcome (.alreadyCommitted row.receipt))
      else .error .conflict

/-- What one operation may answer, record and release. -/
structure OnceStep (o : Operation) (t t' : Tables) : Prop where
  /-- Except for a lost commit report, an error leaves every table as it was. -/
  unchanged : ∀ error, o.result = .error error → error ≠ o.call.unknown → t' = t
  replayed : ∀ op row, o.call.operation = some op → t.receiptOf op = some row →
    t' = t ∧ Operation.dispatch o = none ∧ ((∃ error, o.result = .error error) ∨
      (o.call.intent = some row.intent ∧
        o.result = .ok (.outcome (.alreadyCommitted row.receipt))))
  answered : Answered o t
  attempts : ∀ id consumption, t.attempts id = some consumption → t'.attempts id = some consumption
  events : ∀ id consumption, t.eventKeys id = some consumption → t'.eventKeys id = some consumption
  dispatched : ∀ action, Operation.dispatch o = some action →
    t.attempts action.attemptId = none ∧ ∃ consumption, t'.attempts action.attemptId = some consumption
  /-- An acknowledged operation releases an action exactly if it is an accepted begin command. -/
  released : ∀ receipt action, o.result = .ok (.outcome (.applied receipt action)) →
    (action.isSome = true ↔ receipt.outcome = .changed ∧ Call.begins o.call = true)
  /-- The attempt of an accepted begin command is released, unless the commit report is lost. -/
  begun : ∀ id consumption, t.attempts id = none → t'.attempts id = some consumption →
    o.call.operation = some consumption.operation ∧
      ((∃ action, Operation.dispatch o = some action ∧ action.attemptId = id) ∨
        o.result = .error .operationCommitUnknown)

omit [ResourceNaming] [JournalNaming] [RecordEncoding] in
theorem KeyStep.kept_keys {c : Call} {dispatch : Option DispatchAction} (h : KeyStep t t' c dispatch) :
    (∀ id consumption, t.attempts id = some consumption → t'.attempts id = some consumption) ∧
      ∀ id consumption, t.eventKeys id = some consumption → t'.eventKeys id = some consumption := by
  have update : ∀ {κ : Type} [DecidableEq κ] {f : κ → Option Consumption} {key : κ}
      {value : Consumption}, f key = none → ∀ id consumption, f id = some consumption →
      Function.update f key (some value) id = some consumption := by
    intro κ _ f key value fresh id consumption found
    rw [Function.update_of_ne]
    · exact found
    · rintro rfl
      rw [fresh] at found
      cases found
  cases h with
  | kept attempts events =>
    rw [attempts]
    refine ⟨fun _ _ => id, ?_⟩
    rcases events with same | ⟨event, consumption, fresh, same⟩
    · rw [same]
      exact fun _ _ => id
    · rw [same]
      exact update fresh
  | begun called fresh attempts event events named =>
    rw [attempts, events]
    exact ⟨update fresh, update event⟩

omit [ResourceNaming] in
theorem OnceStep.quiet (answered : Answered o t) (undispatched : Operation.dispatch o = none)
    (unapplied : Operation.applied o = none) (answer : ∀ op row, o.call.operation = some op → t.receiptOf op = some row →
      (∃ error, o.result = .error error) ∨
        (o.call.intent = some row.intent ∧
          o.result = .ok (.outcome (.alreadyCommitted row.receipt)))) : OnceStep o t t where
  unchanged _ _ _ := rfl
  replayed op row named known := ⟨rfl, undispatched, answer op row named known⟩
  answered := answered
  attempts _ _ h := h
  events _ _ h := h
  dispatched action released := by
    rw [undispatched] at released
    cases released
  released receipt action applied := by
    rw [Operation.applied, applied] at unapplied
    cases unapplied
  begun id consumption fresh consumed := by
    rw [fresh] at consumed
    cases consumed

theorem operates_once (h : Operates t o t') : OnceStep o t t' := by
  obtain ⟨s', called, rfl⟩ := h.performed
  have answer := h.answer
  obtain ⟨store, env, call, result⟩ := o
  cases h.before
  dsimp only at called answer
  have answered : Answered ⟨store, env, call, result⟩ store.tables := by
    intro op row intent access named meant found entry may
    rw [← call_known named meant entry found may, called]
  cases answer with
  | failed kept =>
    rw [kept]
    exact .quiet answered rfl rfl fun _ _ _ _ => .inl ⟨_, rfl⟩
  | @replayed op row kept named known meant =>
    rw [kept]
    refine .quiet answered rfl rfl fun op' row' named' known' => .inr ?_
    cases named.symm.trans named'
    cases known.symm.trans known'
    exact ⟨meant, rfl⟩
  | stored kept same =>
    rw [kept]
    refine .quiet answered rfl rfl fun op row named => ?_
    rw [show call = .process _ _ from same] at named
    cases named
  | @committed reply result effect reported =>
    have keys := effect_keys effect
    obtain ⟨attempts, events⟩ := keys.kept_keys
    refine ⟨fun error failed other => ?_, fun op row named found => ?_, answered, attempts, events,
      fun action released => ?_, fun receipt action applied => ?_, fun id consumption fresh consumed => ?_⟩
    · rcases reported with rfl | rfl
      · cases failed
      · cases failed
        exact absurd rfl other
    · rcases effect_recorded effect with ⟨unnamed, -⟩ | ⟨row', recorded⟩
      · rw [show call.operation = some op from named] at unnamed
        cases unnamed
      · cases (show call.operation = some op from named).symm.trans recorded.named
        rw [recorded.fresh] at found
        cases found
    · rcases reported with rfl | rfl
      · have released : Reply.dispatch reply = some action := released
        rw [released] at keys
        cases keys with
        | begun called fresh attempts event events named =>
          rw [named]
          exact ⟨fresh, _, by rw [attempts, Function.update_self]⟩
      · cases released
    · rcases reported with rfl | rfl
      · cases applied
        exact effect_released effect
      · cases applied
    · generalize dispatched : Reply.dispatch reply = dispatch at keys
      cases keys with
      | kept same =>
        rw [same, fresh] at consumed
        cases consumed
      | @begun op scope input attempt action called _ attempts event events named =>
        have same : id = attempt.id := by
          by_contra other
          rw [attempts, Function.update_of_ne other, fresh] at consumed
          cases consumed
        subst same
        rw [attempts, Function.update_self] at consumed
        cases consumed
        cases called
        rcases reported with rfl | rfl
        · exact ⟨rfl, .inl ⟨action, dispatched, named⟩⟩
        · exact ⟨rfl, .inr rfl⟩

theorem operates_recorded (h : Operates t o t') :
    ((t' = t ∨ o.call.operation = none) ∧ t'.receipts = t.receipts ∧ t'.watermark = t.watermark ∧
        Operation.applied o = none) ∨
      ∃ reply row, Recorded t t' o.call reply row ∧
        (o.result = .ok reply ∨ o.result = .error o.call.unknown) := by
  have answer := h.answer
  obtain ⟨store, env, call, result⟩ := o
  cases h.before
  cases answer with
  | failed kept => exact .inl ⟨.inl kept, by rw [kept], by rw [kept], rfl⟩
  | replayed kept => exact .inl ⟨.inl kept, by rw [kept], by rw [kept], rfl⟩
  | stored kept => exact .inl ⟨.inl kept, by rw [kept], by rw [kept], rfl⟩
  | @committed reply result effect reported =>
    rcases effect_recorded effect with ⟨unnamed, receipts, watermark⟩ | ⟨row, recorded⟩
    · refine .inl ⟨.inr unnamed, receipts, watermark, ?_⟩
      unfold Operation.applied
      dsimp only at reported
      rcases reported with rfl | rfl
      · cases effect <;> first | rfl | cases unnamed
      · rfl
    · exact .inr ⟨reply, row, recorded, reported⟩

omit [ResourceNaming] [JournalNaming] [RecordEncoding] in
theorem not_mem_operations {op : OperationRequestId} (fresh : t.receiptOf op = none) :
    op ∉ t.receipts.map (·.receipt.operationId) := by
  unfold Tables.receiptOf at fresh
  rw [List.find?_eq_none] at fresh
  intro mem
  obtain ⟨row, recorded, same⟩ := List.mem_map.mp mem
  exact fresh row recorded (beq_iff_eq.mpr same)

structure Identified (labels : List Operation) (t : Tables) : Prop where
  operations : (t.receipts.map (·.receipt.operationId)).Nodup
  applied : (labels.filterMap Operation.applied).Nodup
  recorded : ∀ op ∈ labels.filterMap Operation.applied, op ∈ t.receipts.map (·.receipt.operationId)

theorem Identified.step (h : Identified labels t) (operates : Operates t o t') :
    Identified (labels ++ [o]) t' := by
  rcases operates_recorded operates with ⟨-, same, -, unapplied⟩ | ⟨reply, row, recorded, reported⟩
  · refine ⟨by rw [same]; exact h.operations, ?_, ?_⟩
    · simpa [unapplied] using h.applied
    · rw [same]
      simpa [unapplied] using h.recorded
  · have absent := not_mem_operations recorded.fresh
    have grown : t'.receipts.map (·.receipt.operationId) =
        t.receipts.map (·.receipt.operationId) ++ [row.receipt.operationId] := by
      rw [recorded.appended, List.map_append, List.map_singleton]
    have operations : (t'.receipts.map (·.receipt.operationId)).Nodup := by
      rw [grown]
      exact observed_nodup h.operations absent
    obtain ⟨action, rfl⟩ := recorded.replied
    rcases reported with same | same
    · have seen : Operation.applied o = some row.receipt.operationId := by
        rw [Operation.applied, same]
      refine ⟨operations, ?_, ?_⟩
      · rw [observed_some seen]
        exact observed_nodup h.applied fun mem => absent (h.recorded _ mem)
      · rw [observed_some seen, grown]
        intro op mem
        rw [List.mem_append] at mem ⊢
        exact mem.imp_left (h.recorded op)
    · have silent : Operation.applied o = none := by
        rw [Operation.applied, same]
      refine ⟨operations, ?_, ?_⟩
      · rw [observed_none silent]
        exact h.applied
      · rw [observed_none silent, grown]
        exact fun op mem => List.mem_append_left _ (h.recorded op mem)

/-- The attempts of released actions are pairwise different and stay used up. -/
structure Released (labels : List Operation) (t : Tables) : Prop where
  dispatched : ((labels.filterMap Operation.dispatch).map (·.attemptId)).Nodup
  consumed : ∀ action ∈ labels.filterMap Operation.dispatch,
    ∃ consumption, t.attempts action.attemptId = some consumption
  begun : ∀ id consumption, t.attempts id = some consumption →
    (∃ action ∈ labels.filterMap Operation.dispatch, action.attemptId = id) ∨
      ∃ o ∈ labels, o.call.operation = some consumption.operation ∧
        o.result = .error .operationCommitUnknown

theorem Released.step (h : Released labels t) (operates : Operates t o t') :
    Released (labels ++ [o]) t' := by
  have once := operates_once operates
  have consumed : ∀ action ∈ labels.filterMap Operation.dispatch,
      ∃ consumption, t'.attempts action.attemptId = some consumption := by
    intro action mem
    obtain ⟨consumption, found⟩ := h.consumed action mem
    exact ⟨consumption, once.attempts _ _ found⟩
  have begun : ∀ id consumption, t'.attempts id = some consumption →
      (∃ action ∈ (labels ++ [o]).filterMap Operation.dispatch, action.attemptId = id) ∨
        ∃ o' ∈ labels ++ [o], o'.call.operation = some consumption.operation ∧
          o'.result = .error .operationCommitUnknown := by
    intro id consumption found
    cases before : t.attempts id with
    | some earlier =>
      cases (once.attempts id earlier before).symm.trans found
      rcases h.begun id consumption before with ⟨action, mem, same⟩ | ⟨o', mem, lost⟩
      · rw [List.filterMap_append]
        exact .inl ⟨action, List.mem_append_left _ mem, same⟩
      · exact .inr ⟨o', List.mem_append_left _ mem, lost⟩
    | none =>
      obtain ⟨named, ⟨action, released, same⟩ | lost⟩ := once.begun id consumption before found
      · rw [observed_some released]
        exact .inl ⟨action, List.mem_append_right _ (List.mem_singleton_self _), same⟩
      · exact .inr ⟨o, List.mem_append_right _ (List.mem_singleton_self _), named, lost⟩
  cases released : Operation.dispatch o with
  | none =>
    refine ⟨?_, ?_, begun⟩
    · rw [observed_none released]
      exact h.dispatched
    · rw [observed_none released]
      exact consumed
  | some action =>
    obtain ⟨fresh, now⟩ := once.dispatched action released
    refine ⟨?_, ?_, begun⟩
    · rw [observed_some released, List.map_append, List.map_singleton]
      refine observed_nodup h.dispatched fun mem => ?_
      obtain ⟨earlier, seen, same⟩ := List.mem_map.mp mem
      obtain ⟨consumption, found⟩ := h.consumed earlier seen
      rw [same, fresh] at found
      cases found
    · rw [observed_some released]
      intro other mem
      rcases List.mem_append.mp mem with mem | mem
      · exact consumed other mem
      · rw [List.mem_singleton.mp mem]
        exact now

/-- Over every interleaving of any callers, operations are recorded once, attempts are released at
most once, and nothing that a run has used up is ever used again. -/
theorem dispatch_once {authority : Authority} (run : Runs Operates (Tables.empty authority) labels t) :
    Identified labels t ∧ Released labels t ∧ ∀ o t', Operates t o t' → OnceStep o t t' := by
  refine ⟨?_, ?_, fun o t' => operates_once⟩
  · apply run.history Identified
    · exact ⟨List.nodup_nil, List.nodup_nil, fun _ mem => by cases mem⟩
    · exact fun _ _ _ _ h => h.step
  · apply run.history Released
    · exact ⟨List.nodup_nil, fun _ mem => (by cases mem), fun _ _ found => (by cases found)⟩
    · exact fun _ _ _ _ h => h.step

end Runs

section Samples
open LifecycleRuns
attribute [local instance] sampleResources sampleNaming sampleEncoding

def lostCalls : List (Environment × Call) :=
  [({ sampleEnvironment 1 with commit := .unknownDurable },
    .openExecution (sampleOperation "open" (.refl true)) processPlan)]

def replayedCalls : List (Environment × Call) :=
  sampleCalls ++ [sampleInput "begin" (.refl true) 3
    (.command ⟨⟨"event-1", .refl true⟩, 1, .beginAttempt firstAttempt processRunner .real⟩)]

theorem dispatch_once_sample :
    Runs Operates sampleStore.tables (performed sampleStore replayedCalls).1
        (performed sampleStore replayedCalls).2.tables ∧
      Released (performed sampleStore replayedCalls).1
        (performed sampleStore replayedCalls).2.tables ∧
      (performed sampleStore replayedCalls).1.filterMap Operation.applied =
        [sampleOperation "open" (by decide), sampleOperation "prepare" (by decide),
          sampleOperation "begin" (by decide)] ∧
      ((performed sampleStore replayedCalls).1.filterMap Operation.dispatch).length = 1 :=
  ⟨performed_runs _ _, (dispatch_once (performed_runs replayedCalls sampleStore)).2.1,
    by decide +kernel, by decide +kernel⟩

/-- An operation that reports an error may have changed the tables: its commit report was lost. -/
theorem lost_commit_applies :
    ∃ o ∈ (performed sampleStore lostCalls).1, o.result = .error .operationCommitUnknown ∧
      o.store.tables.receipts = [] ∧
      ((performed sampleStore lostCalls).2.tables.receipts.map (·.receipt.operationId)) =
        [sampleOperation "open" (by decide)] := by
  refine ⟨_, List.mem_singleton_self _, ?_, rfl, ?_⟩
  · decide +kernel
  · decide +kernel

end Samples

end RssMdmAgent.JournalReceipts
