import RssMdmAgent.JournalReceipts

set_option autoImplicit false

/-! # Coherence of stored executions, attempt rows and the clock watermark -/

namespace RssMdmAgent.JournalSnapshots
open ContractIdentity ContractPlan ProgressHistory ApplicationModel
open LifecycleModel LifecycleState LifecycleSteps JournalModel KeyedTable JournalStore
open JournalOperations JournalSteps JournalEffects JournalRuns JournalReceipts TransitionRuns
open ProgramInstructions (ResourceNaming)

def begunAttempt (intent : Intent) : Option AttemptId :=
  match intent.content with
  | .execution (.command ⟨_, _, .beginAttempt attemptId _ _⟩) => some attemptId
  | _ => none

def attemptRows (t : Tables) (scope : Scope) : List AttemptId :=
  t.receipts.filterMap fun row =>
    (begunAttempt row.intent).filter fun id =>
      t.attempts id == some ⟨scope, row.receipt.operationId⟩

section Steps
variable {t t' : Tables} {c : Call}

/-- The attempt rows of a scope after an accepted event. -/
inductive Attempted (t t' : Tables) (scope : Scope) (op : OperationRequestId) (event : EventRecord)
    (current next : Snapshot) : Prop where
  | advanced (ordinary : isBegin event = false) (advances : Advances current next)
      (attempts : t'.attempts = t.attempts) : Attempted t t' scope op event current next
  | begun {attempt : AttemptSnapshot} (begins : Begins event current next attempt)
      (fresh : t.attempts attempt.id = none)
      (attempts : t'.attempts = Function.update t.attempts attempt.id (some ⟨scope, op⟩)) :
      Attempted t t' scope op event current next

/-- What an operation does to the stored executions. -/
inductive RowStep (t t' : Tables) (c : Call) : Prop where
  | kept (executions : t'.executions = t.executions) (attempts : t'.attempts = t.attempts) : RowStep t t' c
  | opened {op : OperationRequestId} {plan : FrozenExecution} (called : c = .openExecution op plan)
      (fresh : t.executions.lookup (.ofInput plan) = none)
      (executions : t'.executions = t.executions.insert (.ofInput plan)
        ⟨plan, openedSnapshot plan t'.watermark, 0, .full⟩)
      (attempts : t'.attempts = t.attempts) : RowStep t t' c
  | moved {op : OperationRequestId} {scope : Scope} {input : Input} {row : ExecutionRow}
      {current next : Execution} (called : c = .execution op scope input)
      (loaded : Loaded t scope row current)
      (evaluated : Evaluated current input t'.watermark next)
      (executions : t'.executions = t.executions.insert scope (nextRow row next.snapshot input.record))
      (used : t'.eventKeys input.record.id ≠ none)
      (attempted : Attempted t t' scope op input.record current.snapshot next.snapshot) : RowStep t t' c

variable [ResourceNaming]

theorem transitioned_rows {limits : StoreLimits} {op : OperationRequestId} {scope : Scope}
    {input : Input} {w w' : Write} {row : ExecutionRow} {current next : Execution} {receipt : Receipt}
    (started : Started t op ⟨scope, .execution, .execution input.record⟩ w)
    (later : Write.Later w w')
    (accepted : Transitioned limits t w' row current input next t' receipt) :
    RowStep t t' (.execution op scope input) := by
  obtain ⟨attempts, claims, claims', audit, -, admits, -, prepared⟩ := accepted.written
  obtain ⟨audit', rfl⟩ := prepared.tables
  have same : w'.intent.scope = scope := by rw [later.meant, started.meant]
  have named : w'.op = op := by rw [later.named, started.named]
  have loaded := accepted.loaded
  rw [same] at loaded
  refine .moved rfl loaded accepted.evaluated ?_ ?_ ?_
  · rw [← same]
    rfl
  · show (withEvent t w' input.record.id).eventKeys input.record.id ≠ none
    simp [withEvent]
  rcases Evaluated.progress accepted.evaluated with ⟨begin_, attempt, begins⟩ | ⟨ordinary, advances⟩
  · rcases admits.inversion with ⟨impossible, -⟩ | ⟨-, attempt', active, fresh, rfl, -⟩
    · rw [begin_] at impossible
      cases impossible
    · cases begins.active.symm.trans active
      refine .begun begins fresh ?_
      rw [← same, ← named]
      rfl
  · rcases admits.inversion with ⟨-, rfl, -⟩ | ⟨impossible, -⟩
    · exact .advanced ordinary advances rfl
    · rw [ordinary] at impossible
      cases impossible

variable [JournalNaming]

theorem effect_rows {limits : StoreLimits} {host : JournalHost} {reply : Reply}
    (h : Effect limits host t c t' reply) : RowStep t t' c := by
  cases h with
  | openedAgain started quiet prepared =>
    obtain ⟨audit, rfl⟩ := prepared.tables
    exact .kept rfl rfl
  | opened started created fresh quiet reserved prepared =>
    obtain ⟨audit, rfl⟩ := prepared.tables
    obtain ⟨-, snapshot, -⟩ := restore_ok created
    exact .opened rfl fresh (by rw [snapshot]; rfl) rfl
  | refused started later loaded fresh refusal prepared =>
    obtain ⟨audit, rfl⟩ := prepared.tables
    exact .kept rfl rfl
  | transitioned started later accepted => exact transitioned_rows started later accepted
  | interactionOpened started planned created fresh quiet prepared =>
    obtain ⟨audit, rfl⟩ := prepared.tables
    exact .kept rfl rfl
  | interactionKept started later keyed quiet prepared =>
    obtain ⟨audit, rfl⟩ := prepared.tables
    obtain ⟨keys, rfl⟩ := insertInteractionKey_ok keyed
    exact .kept rfl rfl
  | interactionMoved started later loaded keyed evaluated offered current quiet prepared =>
    obtain ⟨audit, rfl⟩ := prepared.tables
    obtain ⟨keys, rfl⟩ := insertInteractionKey_ok keyed
    exact .kept rfl rfl
  | confirmed => exact .kept rfl rfl
  | captured => exact .kept rfl rfl
  | progressed => exact .kept rfl rfl
  | requested => exact .kept rfl rfl

theorem operates_rows [RecordEncoding] {o : Operation} (h : Operates t o t') : RowStep t t' o.call := by
  rcases h.effect with rfl | ⟨reply, effect⟩
  · exact .kept rfl rfl
  · exact effect_rows effect

end Steps

section Attempts
variable {t t' : Tables} {scope : Scope}

def Backed (t : Tables) : Prop :=
  ∀ id consumption, t.attempts id = some consumption → ∃ row ∈ t.receipts,
    row.receipt.operationId = consumption.operation ∧ begunAttempt row.intent = some id

theorem mem_attemptRows {id : AttemptId} : id ∈ attemptRows t scope ↔ ∃ row ∈ t.receipts,
    begunAttempt row.intent = some id ∧ t.attempts id = some ⟨scope, row.receipt.operationId⟩ := by
  simp [attemptRows, List.mem_filterMap, Option.filter_eq_some_iff]

theorem attemptRows_same (receipts : t'.receipts = t.receipts) (attempts : t'.attempts = t.attempts) :
    attemptRows t' scope = attemptRows t scope := by
  unfold attemptRows
  rw [receipts, attempts]

theorem attemptRows_recorded {row : ReceiptRow} (backed : Backed t)
    (fresh : t.receiptOf row.receipt.operationId = none)
    (receipts : t'.receipts = t.receipts ++ [row]) (attempts : t'.attempts = t.attempts) :
    attemptRows t' scope = attemptRows t scope := by
  unfold attemptRows
  rw [receipts, attempts]
  have unbacked : ∀ id, t.attempts id ≠ some ⟨scope, row.receipt.operationId⟩ := by
    intro id consumed
    obtain ⟨earlier, recorded, same, -⟩ := backed id _ consumed
    exact not_mem_operations fresh (List.mem_map.mpr ⟨earlier, recorded, same⟩)
  have none : (begunAttempt row.intent).filter
      (fun id => t.attempts id == some ⟨scope, row.receipt.operationId⟩) = none := by
    rw [Option.filter_eq_none_iff]
    intro id _
    simpa using unbacked id
  exact observed_none none

theorem attemptRows_begun {row : ReceiptRow} {id : AttemptId} {owner : Scope}
    (fresh : t.receiptOf row.receipt.operationId = none)
    (receipts : t'.receipts = t.receipts ++ [row]) (unused : t.attempts id = none)
    (attempts : t'.attempts =
      Function.update t.attempts id (some ⟨owner, row.receipt.operationId⟩))
    (begun : begunAttempt row.intent = some id) :
    attemptRows t' scope = attemptRows t scope ++ if scope = owner then [id] else [] := by
  unfold attemptRows
  rw [receipts, List.filterMap_append]
  congr 1
  · apply List.filterMap_congr
    intro earlier recorded
    have other : earlier.receipt.operationId ≠ row.receipt.operationId := by
      intro same
      exact not_mem_operations fresh (List.mem_map.mpr ⟨earlier, recorded, same⟩)
    cases begunAttempt earlier.intent with
    | none => rfl
    | some id' =>
      rw [Option.filter_some, Option.filter_some, attempts]
      by_cases same : id' = id
      · subst same
        simp [unused, Function.update_self, Ne.symm other]
      · rw [Function.update_of_ne same]
  · rw [List.filterMap_cons, begun, attempts]
    by_cases same : scope = owner
    · simp [same, Option.filter]
    · simp [same, Option.filter, Ne.symm same]

end Attempts

section Evaluations
variable {current next : Execution} {input : Input} {now : Nat}

theorem Continues.ids {a a' : Option AttemptSnapshot} (h : Continues a a') :
    a'.map (·.id) = a.map (·.id) := by
  cases h with
  | idle => rfl
  | active kept => simp [kept.id]

theorem Evaluated.attempts (h : Evaluated current input now next) :
    next.snapshot.attempts = current.snapshot.attempts + (isBegin input.record).toNat := by
  obtain ⟨directive, snapshot, -, applies, stored⟩ := h.applied
  rw [stored]
  cases applies with
  | @prepared event preparation command idle =>
    have ordinary : isBegin (Input.command event).record = false := not_isBegin_command fun _ _ _ => by
      rcases command with command | command <;> simp [command]
    simp [ordinary, committed]
  | @begun event attemptId runner mode command eligible fresh =>
    have begins : isBegin (Input.command event).record = true := isBegin_command command
    simp [begins, committed, begunSnapshot]
  | @cancelled event command =>
    have ordinary : isBegin (Input.command event).record = false :=
      not_isBegin_command fun _ _ _ => by simp [command]
    simp [ordinary, committed]
  | @recovered event command idle =>
    have ordinary : isBegin (Input.command event).record = false :=
      not_isBegin_command fun _ _ _ => by simp [command]
    simp [ordinary, committed]
  | updated found kept other =>
    have ordinary : isBegin input.record = false := by
      cases input with
      | observation => rfl
      | command event => exact not_isBegin_command (other event rfl).2
    simp [ordinary, committed]

theorem withCurrentAttempt_clock {s : Snapshot} {id : AttemptId}
    {update : AttemptSnapshot → Except LifecycleError AttemptSnapshot}
    (quiet : ∀ a, update a ≠ .error .clock) : withCurrentAttempt s id update ≠ .error .clock := by
  intro h
  unfold withCurrentAttempt at h
  split at h
  · cases h
  split at h
  · rcases bind_error.mp h with h | ⟨a, -, h⟩
    · exact quiet _ h
    · cases h
  · cases h

theorem recordObservation_clock {a : AttemptSnapshot} {recorded : RecordedObservation} :
    recordObservation a recorded ≠ .error .clock := by
  intro h
  unfold recordObservation at h
  repeat' split at h
  all_goals cases h

theorem apply_clock {directive : Directive} : current.apply input directive now ≠ .error .clock := by
  intro h
  cases input with
  | observation event verify =>
    refine withCurrentAttempt_clock (fun a h => ?_) h
    split at h
    · cases h
    split at h
    · cases h
    · exact recordObservation_clock h
  | command event =>
    unfold Execution.apply applyCommand at h
    dsimp only at h
    split at h
    · split at h <;> cases h
    · split at h <;> cases h
    · repeat' split at h
      all_goals cases h
    · exact withCurrentAttempt_clock (fun a h => by split at h <;> cases h) h
    · cases h
    · exact withCurrentAttempt_clock (fun a h => by cases h) h
    · exact withCurrentAttempt_clock (fun a h => by cases h) h
    · cases h
    · exact withCurrentAttempt_clock (fun a h => by split at h <;> cases h) h

theorem restore_clock {plan : FrozenExecution} {snapshot : Snapshot} {limits : Limits} :
    restore plan snapshot limits ≠ .error .clock := by
  have quiet : ∀ {ok : Bool} {error : LifecycleError}, error ≠ .clock → require ok error ≠ .error .clock := by
    intro ok error other h
    cases ok with
    | true => cases h
    | false =>
      cases h
      exact other rfl
  intro h
  unfold restore at h
  split at h
  · cases h
  next error failed =>
  cases h
  rcases bind_error.mp failed with h | ⟨_, -, h⟩
  · exact quiet (by decide) h
  rcases bind_error.mp h with h | ⟨_, -, h⟩
  · exact quiet (by decide) h
  rcases bind_error.mp h with h | ⟨_, -, h⟩
  · exact quiet (by decide) h
  rcases bind_error.mp h with h | ⟨_, -, h⟩
  · exact quiet (by decide) h
  · exact quiet (by decide) h

theorem directive_error {e : Execution} {error : LifecycleError} (h : e.directive now = .error error) :
    now < e.snapshot.updatedAtUnixMs := by
  unfold Execution.directive at h
  dsimp only at h
  split at h
  · assumption
  · cases h

theorem evaluateInput_clock (ordered : current.snapshot.updatedAtUnixMs ≤ now) :
    current.evaluateInput input now ≠ .error .clock := by
  intro h
  rcases bind_error.mp h with h | ⟨directive, advised, h⟩
  · exact absurd (directive_error h) (Nat.not_lt.mpr ordered)
  split at h
  · split at h <;> cases h
  split at h
  · cases h
  split at h
  · cases h
  rcases bind_error.mp h with h | ⟨snapshot, -, h⟩
  · exact apply_clock h
  rcases bind_error.mp h with h | ⟨next, restored, h⟩
  · exact restore_clock h
  rcases bind_error.mp h with h | ⟨after, -, h⟩
  · obtain ⟨-, stored, -⟩ := restore_ok restored
    have later := directive_error h
    rw [stored] at later
    exact absurd later (Nat.lt_irrefl now)
  · cases h

end Evaluations

section Coherence
variable {t t' : Tables} {scope : Scope} {o : Operation}

/-- One stored execution agrees with the other tables. -/
structure RowCoherent (t : Tables) (scope : Scope) (row : ExecutionRow) : Prop where
  bound : Scope.ofInput row.plan = scope
  revision : row.revision = row.snapshot.revision
  updated : row.snapshot.updatedAtUnixMs ≤ t.watermark
  count : (attemptRows t scope).length = row.snapshot.attempts
  current : row.snapshot.attempt.map (·.id) = (attemptRows t scope).getLast?
  event : ∀ event, row.snapshot.lastEvent = some event → t.eventKeys event.id ≠ none

structure Coherent (t : Tables) : Prop where
  rows : ∀ scope row, t.executions.lookup scope = some row → RowCoherent t scope row
  unopened : ∀ scope, t.executions.lookup scope = none → attemptRows t scope = []
  backed : Backed t
  complete : ∀ scope id op, t.attempts id = some ⟨scope, op⟩ → id ∈ attemptRows t scope
  distinct : ∀ scope, (attemptRows t scope).Nodup

theorem RowCoherent.of_tables {row : ExecutionRow} (h : RowCoherent t scope row)
    (later : t.watermark ≤ t'.watermark) (attempts : attemptRows t' scope = attemptRows t scope)
    (events : ∀ id, t.eventKeys id ≠ none → t'.eventKeys id ≠ none) : RowCoherent t' scope row where
  bound := h.bound
  revision := h.revision
  updated := Nat.le_trans h.updated later
  count := by rw [attempts]; exact h.count
  current := by rw [attempts]; exact h.current
  event event found := events _ (h.event event found)

theorem Coherent.empty (authority : Authority) : Coherent (Tables.empty authority) where
  rows _ _ found := by cases found
  unopened _ _ := rfl
  backed _ _ found := by cases found
  complete _ _ _ found := by cases found
  distinct _ := List.nodup_nil

variable [ResourceNaming] [JournalNaming] [RecordEncoding]

theorem operates_watermark (h : Operates t o t') : t.watermark ≤ t'.watermark := by
  rcases operates_recorded h with ⟨-, -, same, -⟩ | ⟨reply, row, recorded, -⟩
  · exact Nat.le_of_eq same.symm
  · exact recorded.watermark

theorem operates_events (h : Operates t o t') (id : EventId) (used : t.eventKeys id ≠ none) :
    t'.eventKeys id ≠ none := by
  obtain ⟨consumption, found⟩ := Option.ne_none_iff_exists'.mp used
  rw [(operates_once h).events id consumption found]
  exact Option.some_ne_none consumption

theorem operates_kept (backed : Backed t) (h : Operates t o t') (attempts : t'.attempts = t.attempts) :
    (∀ scope, attemptRows t' scope = attemptRows t scope) ∧ Backed t' := by
  rcases operates_recorded h with ⟨-, receipts, -, -⟩ | ⟨reply, row, recorded, -⟩
  · refine ⟨fun _ => attemptRows_same receipts attempts, fun id consumption consumed => ?_⟩
    rw [attempts] at consumed
    rw [receipts]
    exact backed id consumption consumed
  · refine ⟨fun _ => attemptRows_recorded backed recorded.fresh recorded.appended attempts,
      fun id consumption consumed => ?_⟩
    rw [attempts] at consumed
    obtain ⟨earlier, mem, same⟩ := backed id consumption consumed
    rw [recorded.appended]
    exact ⟨earlier, List.mem_append_left _ mem, same⟩

theorem Coherent.kept (h : Coherent t) (operates : Operates t o t') (attempts : t'.attempts = t.attempts)
    (rows : ∀ scope row, t'.executions.lookup scope = some row → RowCoherent t' scope row)
    (opened : ∀ scope, t'.executions.lookup scope = none → t.executions.lookup scope = none) :
    Coherent t' := by
  obtain ⟨same, backed⟩ := operates_kept h.backed operates attempts
  refine ⟨rows, fun scope absent => ?_, backed, fun scope id op consumed => ?_, fun scope => ?_⟩
  · rw [same]
    exact h.unopened scope (opened scope absent)
  · rw [attempts] at consumed
    rw [same]
    exact h.complete scope id op consumed
  · rw [same]
    exact h.distinct scope

theorem operates_begun {op : OperationRequestId} {input : Input} {attempt : AttemptSnapshot}
    {current next : Snapshot} (operates : Operates t o t') (called : o.call = .execution op scope input)
    (begins : Begins input.record current next attempt) (fresh : t.attempts attempt.id = none)
    (attempts : t'.attempts = Function.update t.attempts attempt.id (some ⟨scope, op⟩)) (h : Coherent t) :
    (∀ other, attemptRows t' other =
      attemptRows t other ++ if other = scope then [attempt.id] else []) ∧ Backed t' := by
  have recorded : ∃ row, t'.receipts = t.receipts ++ [row] ∧ row.receipt.operationId = op ∧
      begunAttempt row.intent = some attempt.id ∧ t.receiptOf op = none := by
    rcases operates_recorded operates with ⟨unchanged, -⟩ | ⟨reply, row, recorded, -⟩
    · rw [called] at unchanged
      rcases unchanged with same | unnamed
      · rw [same] at attempts
        rw [attempts, Function.update_self] at fresh
        cases fresh
      · cases unnamed
    · have named := recorded.named
      have meant := recorded.meant
      have unused := recorded.fresh
      rw [called] at named meant
      cases named
      obtain ⟨id, revision, command⟩ := begins.command
      refine ⟨row, recorded.appended, rfl, ?_, unused⟩
      rw [← Option.some.inj meant, command]
      rfl
  obtain ⟨row, appended, rfl, begun, unused⟩ := recorded
  refine ⟨fun other => attemptRows_begun unused appended fresh attempts begun, ?_⟩
  intro id consumption consumed
  rw [attempts] at consumed
  rw [appended]
  by_cases same : id = attempt.id
  · rw [same, Function.update_self] at consumed
    cases consumed
    exact ⟨row, List.mem_append_right _ (List.mem_singleton_self row), rfl, by rw [begun, same]⟩
  · rw [Function.update_of_ne same] at consumed
    obtain ⟨earlier, mem, backed⟩ := h.backed id consumption consumed
    exact ⟨earlier, List.mem_append_left _ mem, backed⟩

theorem Coherent.step (h : Coherent t) (operates : Operates t o t') : Coherent t' := by
  have later := operates_watermark operates
  have events := operates_events operates
  cases operates_rows operates with
  | kept executions attempts =>
    obtain ⟨same, -⟩ := operates_kept h.backed operates attempts
    refine h.kept operates attempts (fun scope row found => ?_) (fun scope absent => ?_)
    · rw [executions] at found
      exact (h.rows scope row found).of_tables later (same scope) events
    · rw [← executions]
      exact absent
  | @opened op plan called fresh executions attempts =>
    obtain ⟨same, -⟩ := operates_kept h.backed operates attempts
    refine h.kept operates attempts (fun scope row found => ?_) (fun scope absent => ?_)
    · rw [executions] at found
      rcases lookup_insert_cases found with ⟨rfl, rfl⟩ | ⟨-, found⟩
      · refine ⟨rfl, rfl, Nat.le_refl _, ?_, ?_, fun event found => by cases found⟩
        · rw [same, h.unopened _ fresh]
          rfl
        · rw [same, h.unopened _ fresh]
          rfl
      · exact (h.rows scope row found).of_tables later (same scope) events
    · rw [executions] at absent
      by_cases own : scope = .ofInput plan
      · rw [own]
        exact fresh
      · rwa [AList.lookup_insert_ne own] at absent
  | @moved op scope input row current next called loaded evaluated executions used attempted =>
    have opened : ∀ other, t'.executions.lookup other = none → t.executions.lookup other = none := by
      intro other absent
      rw [executions] at absent
      by_cases own : other = scope
      · rw [own, AList.lookup_insert] at absent
        cases absent
      · rwa [AList.lookup_insert_ne own] at absent
    have before := h.rows scope row loaded.found
    obtain ⟨lastEvent, -, updated⟩ := Evaluated.lastEvent evaluated
    have counted := Evaluated.attempts evaluated
    rw [loaded.snapshot] at counted
    have event : ∀ event, next.snapshot.lastEvent = some event → t'.eventKeys event.id ≠ none := by
      intro event found
      cases lastEvent.symm.trans found
      exact used
    cases attempted with
    | advanced ordinary advances attempts =>
      obtain ⟨same, -⟩ := operates_kept h.backed operates attempts
      refine h.kept operates attempts (fun other row' found => ?_) opened
      rw [executions] at found
      rcases lookup_insert_cases found with ⟨rfl, rfl⟩ | ⟨-, found⟩
      · refine ⟨before.bound, rfl, Nat.le_of_eq updated, ?_, ?_, event⟩
        · rw [same, before.count]
          simpa [ordinary] using counted.symm
        · rw [same, ← before.current, ← loaded.snapshot]
          exact Continues.ids advances.attempt
      · exact (h.rows other row' found).of_tables later (same other) events
    | @begun attempt begins fresh attempts =>
      obtain ⟨rows, backed⟩ := operates_begun operates called begins fresh attempts h
      have begin_ : isBegin input.record = true := by
        obtain ⟨id, revision, command⟩ := begins.command
        rw [command]
        rfl
      refine ⟨fun other row' found => ?_, fun other absent => ?_, backed, fun other id op' consumed => ?_,
        fun other => ?_⟩
      · rw [executions] at found
        rcases lookup_insert_cases found with ⟨rfl, rfl⟩ | ⟨different, found⟩
        · refine ⟨before.bound, rfl, Nat.le_of_eq updated, ?_, ?_, event⟩
          · rw [rows, if_pos rfl, List.length_append, before.count]
            simpa [begin_] using counted.symm
          · rw [rows, if_pos rfl, List.getLast?_concat]
            simp [nextRow, begins.active]
        · refine (h.rows other row' found).of_tables later ?_ events
          rw [rows, if_neg different, List.append_nil]
      · have absent' := opened other absent
        have different : other ≠ scope := by
          rintro rfl
          rw [loaded.found] at absent'
          cases absent'
        rw [rows, if_neg different, List.append_nil]
        exact h.unopened other absent'
      · rw [attempts] at consumed
        rw [rows, List.mem_append]
        by_cases same : id = attempt.id
        · rw [same, Function.update_self] at consumed
          cases consumed
          rw [if_pos rfl, same]
          exact .inr (List.mem_singleton_self _)
        · rw [Function.update_of_ne same] at consumed
          exact .inl (h.complete other id op' consumed)
      · rw [rows]
        split
        · refine observed_nodup (h.distinct other) fun mem => ?_
          obtain ⟨_, -, -, consumed⟩ := mem_attemptRows.mp mem
          rw [fresh] at consumed
          cases consumed
        · rw [List.append_nil]
          exact h.distinct other

theorem runs_coherent {authority : Authority} {labels : List Operation}
    (run : Runs Operates (Tables.empty authority) labels t) : Coherent t :=
  run.invariant Coherent (.empty authority) fun _ _ _ h operates => h.step operates

end Coherence

section Requests
variable {t t' : Tables} {o : Operation}

def Reserves (t : Tables) (scope : Scope) : Prop :=
  t.executions.lookup scope ≠ none ∨ scope ∈ t.backendRequests.map (·.scope)

structure OneTask (t : Tables) : Prop where
  single : ∀ a b, Reserves t a → Reserves t b → a.requestId = b.requestId → a = b
  preparations : (t.backendRequests.map (·.scope)).Nodup

theorem reserveRequest_ok {scope other : Scope} (bound : ∀ key row, t.executions.lookup key = some row →
      Scope.ofInput row.plan = key) (h : reserveRequest t scope = .ok ())
    (reserves : Reserves t other) (same : other.requestId = scope.requestId) : other = scope := by
  have free := guarded_ok.mp h
  rw [Bool.and_eq_true, Bool.not_eq_true', Bool.not_eq_true'] at free
  obtain ⟨unprepared, unopened⟩ := free
  rcases reserves with opened | prepared
  · obtain ⟨row, found⟩ := Option.ne_none_iff_exists'.mp opened
    by_contra different
    have taken : Table.exists t.executions (fun key row =>
        row.plan.spec.request.requestId == scope.requestId && key != scope) = true := by
      refine Table.exists_iff.mpr ⟨other, row, found, ?_⟩
      have named : row.plan.spec.request.requestId = other.requestId := by
        rw [← bound other row found]
        rfl
      simp [named, same, different]
    rw [taken] at unopened
    cases unopened
  · obtain ⟨row, mem, rfl⟩ := List.mem_map.mp prepared
    have := List.any_eq_false.mp unprepared row mem
    simpa [same] using this

theorem OneTask.insert {scope : Scope} (h : OneTask t)
    (reserved : ∀ other, Reserves t other → other.requestId = scope.requestId → other = scope)
    (grown : ∀ other, Reserves t' other → Reserves t other ∨ other = scope)
    (preparations : (t'.backendRequests.map (·.scope)).Nodup) : OneTask t' := by
  refine ⟨fun a b hereA hereB same => ?_, preparations⟩
  rcases grown a hereA with beforeA | rfl <;> rcases grown b hereB with beforeB | rfl
  · exact h.single a b beforeA beforeB same
  · exact reserved a beforeA same
  · exact (reserved b beforeB same.symm).symm
  · rfl

theorem upsertRequest_scopes (rows : List BackendRow) (scope : Scope) (next : BackendTasks.BackendRequest) :
    (upsertRequest rows scope next).map (·.scope) =
      if scope ∈ rows.map (·.scope) then rows.map (·.scope) else rows.map (·.scope) ++ [scope] := by
  have known : (rows.any fun row => row.scope == scope) = true ↔ scope ∈ rows.map (·.scope) := by
    simp [List.any_eq_true]
  unfold upsertRequest
  by_cases mem : scope ∈ rows.map (·.scope)
  · rw [if_pos (known.mpr mem), if_pos mem, List.map_map]
    apply List.map_congr_left
    intro row _
    by_cases same : row.scope = scope
    · simp [same]
    · simp [same]
  · rw [if_neg fun h => mem (known.mp h), if_neg mem, List.map_append, List.map_singleton]

theorem Reserves.of_tables {scope : Scope} (executions : t'.executions = t.executions)
    (requests : t'.backendRequests = t.backendRequests) (h : Reserves t' scope) : Reserves t scope := by
  unfold Reserves at h
  rwa [executions, requests] at h

theorem Reserves.inserted {scope other : Scope} {row : ExecutionRow} (h : Reserves t' other)
    (executions : t'.executions = t.executions.insert scope row)
    (requests : t'.backendRequests = t.backendRequests) :
    Reserves t other ∨ other = scope := by
  by_cases same : other = scope
  · exact .inr same
  · unfold Reserves at h
    rw [executions, requests, AList.lookup_insert_ne same] at h
    exact .inl h

/-- What an operation does to the reserved request identities. -/
inductive RequestStep (t t' : Tables) : Prop where
  | kept (reserves : ∀ scope, Reserves t' scope → Reserves t scope)
      (requests : t'.backendRequests = t.backendRequests) : RequestStep t t'
  | opened {scope : Scope} (reserved : reserveRequest t scope = .ok ())
      (reserves : ∀ other, Reserves t' other → Reserves t other ∨ other = scope)
      (requests : t'.backendRequests = t.backendRequests) : RequestStep t t'
  | prepared {scope : Scope} {next : BackendTasks.BackendRequest}
      (reserved : reserveRequest t scope = .ok ()) (executions : t'.executions = t.executions)
      (requests : t'.backendRequests = upsertRequest t.backendRequests scope next) : RequestStep t t'

variable [ResourceNaming] [JournalNaming]

theorem effect_requests {limits : StoreLimits} {host : JournalHost} {c : Call} {reply : Reply}
    (h : Effect limits host t c t' reply) : RequestStep t t' := by
  cases h with
  | openedAgain started quiet prepared =>
    obtain ⟨audit, rfl⟩ := prepared.tables
    exact .kept (fun _ => .of_tables rfl rfl) rfl
  | opened started created fresh quiet reserved prepared =>
    obtain ⟨audit, rfl⟩ := prepared.tables
    exact .opened reserved (fun _ reserves => Reserves.inserted reserves rfl rfl) rfl
  | refused started later loaded fresh refusal prepared =>
    obtain ⟨audit, rfl⟩ := prepared.tables
    exact .kept (fun _ => .of_tables rfl rfl) rfl
  | @transitioned op scope input w w' row current next receipt _ started later accepted =>
    obtain ⟨attempts, claims, claims', audit, -, -, -, prepared⟩ := accepted.written
    obtain ⟨audit', rfl⟩ := prepared.tables
    refine .kept (fun other reserves => ?_) rfl
    rcases Reserves.inserted (t := t) reserves rfl rfl with before | rfl
    · exact before
    · exact .inl (by rw [accepted.loaded.found]; exact Option.some_ne_none row)
  | interactionOpened started planned created fresh quiet prepared =>
    obtain ⟨audit, rfl⟩ := prepared.tables
    exact .kept (fun _ => .of_tables rfl rfl) rfl
  | interactionKept started later keyed quiet prepared =>
    obtain ⟨audit, rfl⟩ := prepared.tables
    obtain ⟨keys, rfl⟩ := insertInteractionKey_ok keyed
    exact .kept (fun _ => .of_tables rfl rfl) rfl
  | interactionMoved started later loaded keyed evaluated offered current quiet prepared =>
    obtain ⟨audit, rfl⟩ := prepared.tables
    obtain ⟨keys, rfl⟩ := insertInteractionKey_ok keyed
    exact .kept (fun _ => .of_tables rfl rfl) rfl
  | confirmed => exact .kept (fun _ => .of_tables rfl rfl) rfl
  | captured => exact .kept (fun _ => .of_tables rfl rfl) rfl
  | progressed => exact .kept (fun _ => .of_tables rfl rfl) rfl
  | requested reserved accepted => exact .prepared reserved rfl rfl

variable [RecordEncoding]

theorem operates_requests (h : Operates t o t') : RequestStep t t' := by
  rcases h.effect with rfl | ⟨reply, effect⟩
  · exact .kept (fun _ reserves => reserves) rfl
  · exact effect_requests effect

theorem OneTask.step (h : OneTask t) (bound : ∀ key row, t.executions.lookup key = some row →
    Scope.ofInput row.plan = key) (operates : Operates t o t') : OneTask t' := by
  cases operates_requests operates with
  | kept reserves requests =>
    refine ⟨fun a b hereA hereB => h.single a b (reserves a hereA) (reserves b hereB), ?_⟩
    rw [requests]
    exact h.preparations
  | opened reserved reserves requests =>
    refine h.insert (fun other => reserveRequest_ok bound reserved) reserves ?_
    rw [requests]
    exact h.preparations
  | @prepared scope next reserved executions requests =>
    have scopes := upsertRequest_scopes t.backendRequests scope next
    rw [← requests] at scopes
    refine h.insert (fun other => reserveRequest_ok bound reserved) (fun other here => ?_) ?_
    · unfold Reserves at here ⊢
      rw [executions, scopes] at here
      split at here
      · exact .inl here
      · rw [List.mem_append, List.mem_singleton] at here
        tauto
    · rw [scopes]
      split
      · exact h.preparations
      · next absent => exact observed_nodup h.preparations absent

/-- The tables stay coherent over every run, and no started write is behind the clock of a stored
execution. -/
structure StoreCoherent (t : Tables) : Prop where
  coherent : Coherent t
  requests : OneTask t
  clock : ∀ op scope input w w' row current, Started t op ⟨scope, .execution, .execution input.record⟩ w →
    Write.Later w w' → Loaded t scope row current → current.evaluateInput input w'.now ≠ .error .clock
  watermark : ∀ o t', Operates t o t' → t.watermark ≤ t'.watermark

theorem store_coherent {authority : Authority} {labels : List Operation}
    (run : Runs Operates (Tables.empty authority) labels t) : StoreCoherent t := by
  have coherent := runs_coherent run
  refine ⟨coherent, ?_, ?_, fun o t' => operates_watermark⟩
  · have both : Coherent t ∧ OneTask t := by
      apply run.invariant fun t => Coherent t ∧ OneTask t
      · refine ⟨.empty authority, fun a b here => ?_, List.nodup_nil⟩
        rcases here with opened | prepared
        · exact absurd rfl opened
        · cases prepared
      · exact fun _ _ _ h operates =>
          ⟨h.1.step operates, h.2.step (fun key row found => (h.1.rows key row found).bound) operates⟩
    exact both.2
  · intro op scope input w w' row current started later loaded
    apply evaluateInput_clock
    rw [loaded.snapshot]
    exact Nat.le_trans (coherent.rows scope row loaded.found).updated
      (Nat.le_trans started.clock later.time)

end Requests

section Samples
open LifecycleRuns
attribute [local instance] sampleResources sampleNaming sampleEncoding

theorem store_coherent_sample :
    StoreCoherent (performed sampleStore sampleCalls).2.tables ∧
      attemptRows (performed sampleStore sampleCalls).2.tables sampleScope = [firstAttempt] ∧
      (performed sampleStore sampleCalls).2.tables.watermark = 3 :=
  ⟨store_coherent (performed_runs sampleCalls sampleStore), by decide +kernel, by decide +kernel⟩

def preparedCalls : List (Environment × Call) :=
  [preparation 1 sampleScope,
    (sampleEnvironment 2, .openExecution (sampleOperation "open" (.refl true)) processPlan)]

/-- A preparation and its own execution share one request identity. -/
theorem preparation_shares_request :
    Runs Operates (Tables.empty sampleStore.authority) (performed sampleStore preparedCalls).1
        (performed sampleStore preparedCalls).2.tables ∧
      (performed sampleStore preparedCalls).2.tables.backendRequests.map (·.record.action.request) =
        [processInput.request.requestId] ∧
      ((performed sampleStore preparedCalls).2.tables.executions.lookup sampleScope).map
        (·.plan.spec.request.requestId) = some processInput.request.requestId :=
  ⟨performed_runs preparedCalls sampleStore, by decide +kernel, by decide +kernel⟩

end Samples

end RssMdmAgent.JournalSnapshots
