import RssMdmAgent.JournalRuns

set_option autoImplicit false

/-! # Exclusive resources of admitted attempts -/

namespace RssMdmAgent.JournalResources
open ContractIdentity ContractPlan ProgressHistory ApplicationModel
open LifecycleModel LifecycleState LifecycleSteps JournalModel KeyedTable JournalStore
open JournalOperations JournalSteps JournalEffects JournalRuns TransitionRuns
open ProgramInstructions (ResourceNaming)

section Claims
variable {claims claims' : String → Option AttemptId} {id : AttemptId}

theorem insertClaim_ok {key : String} (h : insertClaim id claims key = .ok claims') :
    (∀ holder, claims key = some holder → holder = id) ∧
      claims' = fun other => if other = key then some id else claims other := by
  unfold insertClaim at h
  split at h
  · next holder held =>
    split at h
    · next same =>
      cases h
      refine ⟨fun other found => ?_, funext fun other => ?_⟩
      · rw [held] at found
        cases found
        exact same
      · split
        · next here => rw [here, held, same]
        · rfl
    · cases h
  · next free =>
    cases h
    refine ⟨fun holder held => by simp [free] at held, funext fun other => ?_⟩
    rw [Function.update_apply]

theorem foldlM_insertClaim {keys : List String} (h : keys.foldlM (insertClaim id) claims = .ok claims') :
    (∀ key ∈ keys, ∀ holder, claims key = some holder → holder = id) ∧
      claims' = fun key => if key ∈ keys then some id else claims key := by
  induction keys generalizing claims with
  | nil =>
    cases h
    simp
  | cons first rest ih =>
    rw [List.foldlM_cons] at h
    obtain ⟨middle, taken, h⟩ := bind_ok.mp h
    obtain ⟨free, rfl⟩ := insertClaim_ok taken
    obtain ⟨others, rfl⟩ := ih h
    constructor
    · intro key mem holder held
      rcases List.mem_cons.mp mem with rfl | mem
      · exact free holder held
      · by_cases same : key = first
        · subst same
          exact free holder held
        · exact others key mem holder (by simpa [same] using held)
    · funext key
      by_cases mem : key ∈ rest <;> by_cases same : key = first <;> simp [mem, same]

variable [ResourceNaming]

def Needs (plan : FrozenExecution) (key : String) : Prop :=
  ∃ keys, plan.spec.exclusiveResourceKeys = .ok keys ∧ key ∈ keys

theorem claim_ok {plan : FrozenExecution} (h : claim claims plan id = .ok claims') :
    (∀ key, Needs plan key → ∀ holder, claims key = some holder → holder = id) ∧
      (∀ key, Needs plan key → claims' key = some id) ∧
      ∀ key, ¬ Needs plan key → claims' key = claims key := by
  unfold claim at h
  split at h
  · cases h
  next keys named =>
  obtain ⟨free, rfl⟩ := foldlM_insertClaim h
  have mem : ∀ key, Needs plan key ↔ key ∈ keys := by
    intro key
    constructor
    · rintro ⟨keys', same, mem⟩
      cases named.symm.trans same
      exact mem
    · exact fun mem => ⟨keys, named, mem⟩
  simp only [mem]
  exact ⟨free, fun key mem => by simp [mem], fun key mem => by simp [mem]⟩

end Claims

section Invariant

structure Current (t : Tables) (scope : Scope) (row : ExecutionRow) (attempt : AttemptSnapshot) :
    Prop where
  found : t.executions.lookup scope = some row
  active : row.snapshot.attempt = some attempt

def Ended (t : Tables) (id : AttemptId) : Prop :=
  ∃ scope row attempt, Current t scope row attempt ∧ attempt.id = id ∧ Closed t row.plan attempt

structure Unsettled (labels : List Operation) (t : Tables) (id : AttemptId) : Prop where
  admitted : ∃ consumption, t.attempts id = some consumption
  open_ : ¬ Ended t id
  earlier : ∀ o ∈ labels, ¬ Ended o.store.tables id

variable [ResourceNaming]

def Uses (t : Tables) (id : AttemptId) (key : String) : Prop :=
  ∃ consumption row, t.attempts id = some consumption ∧
    t.executions.lookup consumption.scope = some row ∧ Needs row.plan key

/-- The claims are those of current attempts, and every unsettled attempt holds its keys. -/
structure Locked (labels : List Operation) (t : Tables) : Prop where
  admitted : ∀ scope row attempt, Current t scope row attempt →
    ∃ op, t.attempts attempt.id = some ⟨scope, op⟩
  owned : ∀ key id, t.claims key = some id →
    ∃ scope row attempt, Current t scope row attempt ∧ attempt.id = id ∧ Needs row.plan key
  recorded : ∀ id consumption, t.attempts id = some consumption →
    ∃ row, t.executions.lookup consumption.scope = some row
  held : ∀ scope row attempt key, Current t scope row attempt → Needs row.plan key →
    Unsettled labels t attempt.id → t.claims key = some attempt.id
  current : ∀ id key, Uses t id key → Unsettled labels t id →
    ∃ scope row attempt, Current t scope row attempt ∧ attempt.id = id ∧ Needs row.plan key

theorem Locked.consumed {labels : List Operation} {t : Tables} (locked : Locked labels t)
    {scope : Scope} {row : ExecutionRow} {a : AttemptSnapshot} (h : Current t scope row a) :
    ∃ consumption, t.attempts a.id = some consumption := by
  obtain ⟨op, admitted⟩ := locked.admitted _ _ _ h
  exact ⟨_, admitted⟩

theorem Locked.empty (authority : Authority) : Locked [] (Tables.empty authority) where
  admitted _ _ _ h := by cases h.found
  owned _ _ h := by cases h
  recorded _ _ h := by cases h
  held _ _ _ _ h := by cases h.found
  current _ _ h := by
    obtain ⟨_, _, admitted, -⟩ := h
    cases admitted

end Invariant

section Frames
variable {labels : List Operation} {o : Operation} {t t' : Tables}

theorem Current.of_lookup {scope : Scope} {row : ExecutionRow} {a : AttemptSnapshot}
    (h : Current t' scope row a) (same : t'.executions.lookup scope = t.executions.lookup scope) :
    Current t scope row a :=
  ⟨same ▸ h.found, h.active⟩

theorem Current.of_insert {scope other : Scope} {row found : ExecutionRow} {a : AttemptSnapshot}
    (same : t'.executions = t.executions.insert scope row) (h : Current t' other found a) :
    (other = scope ∧ found = row) ∨ (other ≠ scope ∧ Current t other found a) := by
  have lookup := h.found
  rw [same] at lookup
  rcases lookup_insert_cases lookup with ⟨rfl, rfl⟩ | ⟨different, lookup⟩
  · exact .inl ⟨rfl, rfl⟩
  · exact .inr ⟨different, lookup, h.active⟩

theorem Unsettled.before {id : AttemptId} (h : Unsettled (labels ++ [o]) t' id)
    (before : o.store.tables = t) (admitted : ∃ consumption, t.attempts id = some consumption) :
    Unsettled labels t id where
  admitted := admitted
  open_ := by
    rw [← before]
    exact h.earlier o (by simp)
  earlier o' mem := h.earlier o' (by simp [mem])

/-- A step that admits no attempt and gives keys back only at the end of their attempt. -/
structure Continued (t t' : Tables) : Prop where
  attempts : t'.attempts = t.attempts
  earlier : ∀ scope row' a', Current t' scope row' a' →
    ∃ row a, Current t scope row a ∧ a'.id = a.id ∧ row'.plan = row.plan
  later : ∀ scope row a, Current t scope row a →
    ∃ row' a', Current t' scope row' a' ∧ a'.id = a.id ∧ row'.plan = row.plan
  plans : ∀ scope row, t.executions.lookup scope = some row →
    ∃ row', t'.executions.lookup scope = some row' ∧ row'.plan = row.plan
  claims : ∀ key id, t'.claims key = some id → t.claims key = some id
  released : ∀ key id, t.claims key = some id → t'.claims key = some id ∨ Ended t' id

theorem Continued.same (executions : t'.executions = t.executions) (attempts : t'.attempts = t.attempts)
    (claims : ∀ key id, t'.claims key = some id → t.claims key = some id)
    (released : ∀ key id, t.claims key = some id → t'.claims key = some id ∨ Ended t' id) :
    Continued t t' where
  attempts := attempts
  earlier _ row' a' h := ⟨row', a', h.of_lookup (by rw [executions]), rfl, rfl⟩
  later _ row a h := ⟨row, a, h.of_lookup (by rw [executions]), rfl, rfl⟩
  plans _ row h := ⟨row, by rw [executions]; exact h, rfl⟩
  claims := claims
  released := released

theorem Continued.untouched (executions : t'.executions = t.executions)
    (attempts : t'.attempts = t.attempts) (claims : t'.claims = t.claims) : Continued t t' :=
  .same executions attempts (fun _ _ h => by rwa [claims] at h) fun _ _ h => .inl (by rwa [claims])

theorem Continued.opened {scope : Scope} {row : ExecutionRow}
    (fresh : t.executions.lookup scope = none) (idle : row.snapshot.attempt = none)
    (executions : t'.executions = t.executions.insert scope row) (attempts : t'.attempts = t.attempts)
    (claims : t'.claims = t.claims) : Continued t t' := by
  have kept : ∀ {other found}, t.executions.lookup other = some found →
      t'.executions.lookup other = some found := by
    intro other found h
    rw [executions, AList.lookup_insert_ne]
    · exact h
    · rintro rfl
      rw [h] at fresh
      cases fresh
  refine ⟨attempts, ?_, ?_, ?_, ?_, ?_⟩
  · intro other row' a' h
    rcases h.of_insert executions with ⟨-, rfl⟩ | ⟨-, h⟩
    · rw [h.active] at idle
      cases idle
    · exact ⟨row', a', h, rfl, rfl⟩
  · intro other row a h
    exact ⟨row, a, ⟨kept h.found, h.active⟩, rfl, rfl⟩
  · intro other row h
    exact ⟨row, kept h, rfl⟩
  · intro key id h
    rwa [claims] at h
  · intro key id h
    rw [claims]
    exact .inl h

theorem Continued.advanced {scope : Scope} {row : ExecutionRow} (row' : ExecutionRow)
    (found : t.executions.lookup scope = some row) (plan : row'.plan = row.plan)
    (continues : Continues row.snapshot.attempt row'.snapshot.attempt)
    (executions : t'.executions = t.executions.insert scope row') (attempts : t'.attempts = t.attempts)
    (claims : ∀ key id, t'.claims key = some id → t.claims key = some id)
    (released : ∀ key id, t.claims key = some id → t'.claims key = some id ∨ Ended t' id) :
    Continued t t' := by
  have kept : ∀ {other}, other ≠ scope → t'.executions.lookup other = t.executions.lookup other :=
    fun different => by rw [executions, AList.lookup_insert_ne different]
  have here : t'.executions.lookup scope = some row' := by rw [executions, AList.lookup_insert]
  refine ⟨attempts, ?_, ?_, ?_, claims, released⟩
  · intro other found' a' h
    rcases h.of_insert executions with ⟨rfl, rfl⟩ | ⟨-, h⟩
    · have active := h.active
      generalize old : row.snapshot.attempt = before at continues
      rw [active] at continues
      cases continues with
      | active same => exact ⟨row, _, ⟨found, old⟩, same.id, plan⟩
    · exact ⟨found', a', h, rfl, rfl⟩
  · intro other found' a h
    by_cases same : other = scope
    · subst same
      cases h.found.symm.trans found
      have active := h.active
      generalize new : row'.snapshot.attempt = after at continues
      rw [active] at continues
      cases continues with
      | active same => exact ⟨row', _, ⟨here, new⟩, same.id, plan⟩
    · exact ⟨found', a, ⟨by rw [kept same]; exact h.found, h.active⟩, rfl, rfl⟩
  · intro other found' h
    by_cases same : other = scope
    · subst same
      cases h.symm.trans found
      exact ⟨row', here, plan⟩
    · exact ⟨found', by rw [kept same]; exact h, rfl⟩

variable [ResourceNaming]

theorem Locked.continued (locked : Locked labels t) (before : o.store.tables = t)
    (h : Continued t t') : Locked (labels ++ [o]) t' := by
  constructor
  · intro scope row' a' current
    obtain ⟨row, a, current, same, -⟩ := h.earlier _ _ _ current
    rw [h.attempts, same]
    exact locked.admitted _ _ _ current
  · intro key id claimed
    obtain ⟨scope, row, a, current, named, needs⟩ := locked.owned key id (h.claims key id claimed)
    obtain ⟨row', a', current', same, plan⟩ := h.later _ _ _ current
    exact ⟨scope, row', a', current', same.trans named, by rwa [plan]⟩
  · intro id consumption admitted
    rw [h.attempts] at admitted
    obtain ⟨row, found⟩ := locked.recorded id consumption admitted
    obtain ⟨row', found', -⟩ := h.plans _ _ found
    exact ⟨row', found'⟩
  · intro scope row' a' key current needs unsettled
    obtain ⟨row, a, current, same, plan⟩ := h.earlier _ _ _ current
    rw [plan] at needs
    have unsettled' := unsettled
    rw [same] at unsettled' ⊢
    have held := locked.held _ _ _ key current needs
      (unsettled'.before before (locked.consumed current))
    exact (h.released key a.id held).resolve_right unsettled'.open_
  · rintro id key ⟨consumption, row', admitted, found', needs⟩ unsettled
    rw [h.attempts] at admitted
    obtain ⟨row, found⟩ := locked.recorded id consumption admitted
    obtain ⟨row'', found'', plan⟩ := h.plans _ _ found
    cases found'.symm.trans found''
    rw [plan] at needs
    obtain ⟨scope, row, a, current, named, needs⟩ := locked.current id key
      ⟨consumption, row, admitted, found, needs⟩ (unsettled.before before ⟨_, admitted⟩)
    obtain ⟨row', a', current', same, plan⟩ := h.later _ _ _ current
    exact ⟨scope, row', a', current', same.trans named, by rwa [plan]⟩

/-- An accepted begin command: the new attempt takes the keys of its plan, which are free. -/
structure Begun (t t' : Tables) (scope : Scope) (row row' : ExecutionRow) (attempt : AttemptSnapshot)
    (op : OperationRequestId) : Prop where
  found : t.executions.lookup scope = some row
  plan : row'.plan = row.plan
  active : row'.snapshot.attempt = some attempt
  fresh : t.attempts attempt.id = none
  executions : t'.executions = t.executions.insert scope row'
  attempts : t'.attempts = Function.update t.attempts attempt.id (some ⟨scope, op⟩)
  claimed : claim t.claims row.plan attempt.id = .ok t'.claims

theorem Locked.begun (locked : Locked labels t) (before : o.store.tables = t) {scope : Scope}
    {row row' : ExecutionRow} {attempt : AttemptSnapshot} {op : OperationRequestId}
    (h : Begun t t' scope row row' attempt op) : Locked (labels ++ [o]) t' := by
  obtain ⟨found, plan, active, fresh, executions, attempts, claimed⟩ := h
  obtain ⟨free, taken, others⟩ := claim_ok claimed
  have here : Current t' scope row' attempt := ⟨by rw [executions, AList.lookup_insert], active⟩
  have kept : ∀ {other}, other ≠ scope → t'.executions.lookup other = t.executions.lookup other :=
    fun different => by rw [executions, AList.lookup_insert_ne different]
  have known : ∀ {id consumption}, t.attempts id = some consumption →
      t'.attempts id = some consumption ∧ id ≠ attempt.id := by
    intro id consumption admitted
    have different : id ≠ attempt.id := by
      rintro rfl
      rw [fresh] at admitted
      cases admitted
    rw [attempts, Function.update_of_ne different]
    exact ⟨admitted, different⟩
  have consumed : ∀ {id consumption}, t'.attempts id = some consumption →
      (id = attempt.id ∧ consumption.scope = scope) ∨ t.attempts id = some consumption := by
    intro id consumption admitted
    by_cases same : id = attempt.id
    · rw [attempts, same, Function.update_self] at admitted
      cases admitted
      exact .inl ⟨same, rfl⟩
    · rw [attempts, Function.update_of_ne same] at admitted
      exact .inr admitted
  have rows : ∀ {other found'}, t.executions.lookup other = some found' →
      ∃ found'', t'.executions.lookup other = some found'' ∧ found''.plan = found'.plan := by
    intro other found' h
    by_cases same : other = scope
    · subst same
      cases h.symm.trans found
      exact ⟨row', here.found, plan⟩
    · exact ⟨found', by rw [kept same]; exact h, rfl⟩
  constructor
  · intro other found' a current
    rcases current.of_insert executions with ⟨rfl, rfl⟩ | ⟨-, current⟩
    · cases current.active.symm.trans active
      exact ⟨op, by rw [attempts, Function.update_self]⟩
    · obtain ⟨op', admitted⟩ := locked.admitted _ _ _ current
      exact ⟨op', (known admitted).1⟩
  · intro key id held
    by_cases needs : Needs row.plan key
    · rw [taken key needs] at held
      cases held
      exact ⟨scope, row', attempt, here, rfl, by rwa [plan]⟩
    · rw [others key needs] at held
      obtain ⟨other, found', a, current, named, needs'⟩ := locked.owned key id held
      have different : other ≠ scope := by
        rintro rfl
        cases current.found.symm.trans found
        exact needs needs'
      exact ⟨other, found', a, ⟨by rw [kept different]; exact current.found, current.active⟩, named, needs'⟩
  · intro id consumption admitted
    rcases consumed admitted with ⟨-, same⟩ | admitted
    · exact ⟨row', by rw [same]; exact here.found⟩
    · obtain ⟨found', h⟩ := locked.recorded id consumption admitted
      obtain ⟨found'', h, -⟩ := rows h
      exact ⟨found'', h⟩
  · intro other found' a key current needs unsettled
    rcases current.of_insert executions with ⟨rfl, rfl⟩ | ⟨-, current⟩
    · cases current.active.symm.trans active
      rw [plan] at needs
      exact taken key needs
    · obtain ⟨consumption, admitted⟩ := locked.consumed current
      have held := locked.held _ _ _ key current needs (unsettled.before before ⟨_, admitted⟩)
      have apart : ¬ Needs row.plan key := fun shared =>
        (known admitted).2 (free key shared a.id held)
      rw [others key apart]
      exact held
  · rintro id key ⟨consumption, found', admitted, lookup, needs⟩ unsettled
    rcases consumed admitted with ⟨rfl, same⟩ | admitted
    · rw [same, here.found] at lookup
      cases lookup
      exact ⟨scope, row', attempt, here, rfl, needs⟩
    · obtain ⟨found'', lookup'⟩ := locked.recorded id consumption admitted
      obtain ⟨_, lookup'', same⟩ := rows lookup'
      cases lookup.symm.trans lookup''
      rw [same] at needs
      have unsettled := unsettled.before before ⟨_, admitted⟩
      obtain ⟨other, found', a, current, rfl, needs⟩ :=
        locked.current id key ⟨consumption, found'', admitted, lookup', needs⟩ unsettled
      have different : other ≠ scope := by
        -- The replaced attempt would still hold the key, and the claim would have failed.
        rintro rfl
        cases current.found.symm.trans found
        exact (known admitted).2
          (free key needs a.id (locked.held _ _ _ key current needs unsettled))
      exact ⟨other, found', a, ⟨by rw [kept different]; exact current.found, current.active⟩, rfl,
        needs⟩

theorem settled_shrinks {plan : FrozenExecution} {next : Snapshot} {claims : String → Option AttemptId}
    (h : Settled t plan next claims) {key : String} {id : AttemptId} (held : claims key = some id) :
    t.claims key = some id := by
  cases h with
  | kept => exact held
  | released current closed =>
    unfold releaseClaims at held
    split at held
    · cases held
    · exact held

theorem settled_ended {plan : FrozenExecution} {next : Snapshot} {claims : String → Option AttemptId}
    (t' : Tables) (scope : Scope) (row : ExecutionRow) (h : Settled t plan next claims)
    (found : t'.executions.lookup scope = some row) (samePlan : row.plan = plan)
    (attempt : row.snapshot.attempt = next.attempt) (progress : t'.progress = t.progress)
    {key : String} {id : AttemptId} (held : t.claims key = some id) :
    claims key = some id ∨ Ended t' id := by
  cases h with
  | kept => exact .inl held
  | released current closed =>
    unfold releaseClaims
    split
    · next same =>
      rw [held] at same
      cases same
      refine .inr ⟨scope, row, _, ⟨found, by rw [attempt, current]⟩, rfl, ?_⟩
      rw [samePlan]
      exact closed.of_tables (by rw [progress])
    · exact .inl held

end Frames

section Runs
variable [ResourceNaming] {labels : List Operation} {o : Operation} {t t' : Tables}

inductive ClaimStep (t t' : Tables) : Prop where
  | continued (h : Continued t t')
  | begun (scope : Scope) (row row' : ExecutionRow) (attempt : AttemptSnapshot)
      (op : OperationRequestId) (h : Begun t t' scope row row' attempt op)

theorem transitioned_claims {limits : StoreLimits} {w : Write} {row : ExecutionRow}
    {current next : Execution} {input : Input} {receipt : Receipt}
    (h : Transitioned limits t w row current input next t' receipt) : ClaimStep t t' := by
  obtain ⟨attempts, claims, claims', audit, -, admits, settled, prepared⟩ := h.written
  obtain ⟨audit', rfl⟩ := prepared.tables
  have found := h.loaded.found
  have attempt : current.snapshot.attempt = row.snapshot.attempt := by rw [h.loaded.snapshot]
  rcases admits.inversion with ⟨ordinary, rfl, rfl⟩ | ⟨begin_, attempt', active, fresh, rfl, claimed⟩
  · rcases Evaluated.progress h.evaluated with ⟨impossible, -⟩ | ⟨-, advances⟩
    · rw [ordinary] at impossible
      cases impossible
    have continues := advances.attempt
    rw [attempt] at continues
    refine .continued (.advanced (nextRow row next.snapshot input.record) found rfl continues rfl rfl
      (fun key id => settled_shrinks settled) fun key id held => ?_)
    refine settled_ended _ w.intent.scope (nextRow row next.snapshot input.record) settled ?_ rfl rfl
      ?_ held
    · exact AList.lookup_insert _
    · rfl
  · rcases Evaluated.progress h.evaluated with ⟨-, fresh', begins⟩ | ⟨impossible, -⟩
    swap
    · rw [begin_] at impossible
      cases impossible
    have same : claims' = claims := by
      cases settled with
      | kept => rfl
      | released current closed =>
        -- A fresh attempt has not ended, so nothing of it is given back.
        obtain ⟨termination, ended, -⟩ := closed
        cases begins.active.symm.trans current
        rw [begins.termination] at ended
        cases ended
    subst same
    exact .begun w.intent.scope row (nextRow row next.snapshot input.record) attempt' w.op
      ⟨found, rfl, active, fresh, rfl, rfl, claimed⟩

theorem effect_claims [JournalNaming] {limits : StoreLimits} {host : JournalHost} {c : Call} {reply : Reply}
    (h : Effect limits host t c t' reply) : ClaimStep t t' := by
  cases h with
  | openedAgain started quiet prepared =>
    obtain ⟨audit, rfl⟩ := prepared.tables
    exact .continued (.untouched rfl rfl rfl)
  | opened started created fresh quiet reserved prepared =>
    obtain ⟨audit, rfl⟩ := prepared.tables
    obtain ⟨-, snapshot, -⟩ := restore_ok created
    exact .continued (.opened fresh (by rw [snapshot]; rfl) rfl rfl rfl)
  | refused started later loaded fresh refusal prepared =>
    obtain ⟨audit, rfl⟩ := prepared.tables
    exact .continued (.untouched rfl rfl rfl)
  | transitioned started later accepted => exact transitioned_claims accepted
  | interactionOpened started planned created fresh quiet prepared =>
    obtain ⟨audit, rfl⟩ := prepared.tables
    exact .continued (.untouched rfl rfl rfl)
  | interactionKept started later keyed quiet prepared =>
    obtain ⟨audit, rfl⟩ := prepared.tables
    obtain ⟨keys, rfl⟩ := insertInteractionKey_ok keyed
    exact .continued (.untouched rfl rfl rfl)
  | interactionMoved started later loaded keyed evaluated offered current quiet prepared =>
    obtain ⟨audit, rfl⟩ := prepared.tables
    obtain ⟨keys, rfl⟩ := insertInteractionKey_ok keyed
    exact .continued (.untouched rfl rfl rfl)
  | confirmed => exact .continued (.untouched rfl rfl rfl)
  | captured => exact .continued (.untouched rfl rfl rfl)
  | @progressed scope facts row current attempt claims loaded active bound runner valid grown settled =>
    refine .continued (.same rfl rfl (fun key id => settled_shrinks settled) ?_)
    intro key id held
    refine settled_ended _ scope row settled ?_ rfl ?_ ?_ held
    · exact loaded.found
    · rw [loaded.snapshot]
    · rfl
  | requested => exact .continued (.untouched rfl rfl rfl)

variable [JournalNaming] [RecordEncoding]

theorem operates_claims (h : Operates t o t') : ClaimStep t t' := by
  rcases h.effect with rfl | ⟨reply, effect⟩
  · exact .continued (.untouched rfl rfl rfl)
  · exact effect_claims effect

theorem runs_locked {authority : Authority} (run : Runs Operates (Tables.empty authority) labels t) :
    Locked labels t := by
  refine run.history Locked (Locked.empty authority) fun _ _ _ _ locked h => ?_
  cases operates_claims h with
  | continued step => exact locked.continued h.before step
  | begun _ _ _ _ _ step => exact locked.begun h.before step

end Runs

section Exclusion
variable [ResourceNaming] {t t' : Tables}

/-- What one operation may do to the claims of other attempts. -/
structure Respects (t t' : Tables) : Prop where
  /-- An attempt is admitted only if no other attempt holds a key of its plan. -/
  admission : ∀ id consumption key, t.attempts id = none → t'.attempts id = some consumption →
    Uses t' id key → ∀ holder, t.claims key = some holder → holder = id
  /-- A claim is given back only at the end of its attempt. -/
  removal : ∀ key id, t.claims key = some id → t'.claims key ≠ some id → Ended t' id

theorem ClaimStep.respects (h : ClaimStep t t') : Respects t t' := by
  cases h with
  | continued step =>
    refine ⟨fun id consumption _ fresh admitted => ?_, fun key id held lost =>
      (step.released key id held).resolve_left lost⟩
    rw [step.attempts, fresh] at admitted
    cases admitted
  | begun scope row row' attempt op step =>
    obtain ⟨free, taken, others⟩ := claim_ok step.claimed
    constructor
    · rintro id _ key fresh admitted ⟨consumption, found', consumed, lookup, needs⟩
      by_cases same : id = attempt.id
      · subst same
        rw [step.attempts, Function.update_self] at consumed
        cases consumed
        rw [step.executions, AList.lookup_insert] at lookup
        cases lookup
        rw [step.plan] at needs
        exact free key needs
      · rw [step.attempts, Function.update_of_ne same, fresh] at admitted
        cases admitted
    · intro key id held lost
      by_cases needs : Needs row.plan key
      · cases free key needs id held
        exact absurd (taken key needs) lost
      · rw [others key needs] at lost
        exact absurd held lost

/-- Exclusive resources are never held twice. -/
structure Exclusive [JournalNaming] [RecordEncoding] (labels : List Operation) (t : Tables) : Prop where
  single : ∀ x y key, Unsettled labels t x → Unsettled labels t y → Uses t x key → Uses t y key → x = y
  owned : ∀ key id, t.claims key = some id →
    ∃ scope row attempt, Current t scope row attempt ∧ attempt.id = id ∧ Needs row.plan key
  held : ∀ id key, Unsettled labels t id → Uses t id key → t.claims key = some id
  respected : ∀ o t', Operates t o t' → Respects t t'

theorem exclusive_resources [JournalNaming] [RecordEncoding] {authority : Authority}
    {labels : List Operation} (run : Runs Operates (Tables.empty authority) labels t) :
    Exclusive labels t := by
  have locked := runs_locked run
  have held : ∀ id key, Unsettled labels t id → Uses t id key → t.claims key = some id := by
    intro id key unsettled uses
    obtain ⟨scope, row, attempt, current, rfl, needs⟩ := locked.current id key uses unsettled
    exact locked.held scope row attempt key current needs unsettled
  refine ⟨fun x y key openX openY usesX usesY => ?_, locked.owned, held, fun o t' h =>
    (operates_claims h).respects⟩
  have both := (held x key openX usesX).symm.trans (held y key openY usesY)
  exact Option.some.inj both

end Exclusion

section Samples
open LifecycleRuns
attribute [local instance] sampleResources sampleNaming sampleEncoding

/-- The begun attempt of the sample run holds the resource of its plan. -/
theorem exclusive_resources_sample :
    (performed sampleStore sampleCalls).2.tables.claims "settings:display" = some firstAttempt ∧
      Exclusive (performed sampleStore sampleCalls).1 (performed sampleStore sampleCalls).2.tables :=
  ⟨by decide +kernel, exclusive_resources (performed_runs sampleCalls sampleStore)⟩

end Samples

end RssMdmAgent.JournalResources
