import RssMdmAgent.JournalPreparations
import RssMdmAgent.KeysetPaging
import Mathlib.Data.Prod.Lex
import Mathlib.Data.String.Basic

set_option autoImplicit false

/-! # Listing task history in pages -/

namespace RssMdmAgent.TaskHistory
open ContractIdentity ContractPlan ProgressHistory ApplicationModel BoundedArithmetic
open LifecycleModel LifecycleState LifecycleSteps JournalModel KeyedTable JournalStore
open JournalOperations JournalSteps JournalEffects JournalRuns JournalReceipts JournalSnapshots
open JournalPreparations TransitionRuns KeysetPaging
open ProgramInstructions (ResourceNaming)

structure TaskHistoryPosition where
  request : RequestId
  recordedAtUnixMs : Nat
  deriving DecidableEq, Repr

def TaskHistoryPosition.key (p : TaskHistoryPosition) : Nat ×ₗ String :=
  toLex (p.recordedAtUnixMs, p.request.value)

/-- Bounded discovery over the original preparation and execution tables. -/
structure TaskHistoryQuery where
  after : Option TaskHistoryPosition
  preparations : Nat
  receipts : Nat
  asOf : Nat
  limit : Nat
  deriving DecidableEq, Repr

inductive Lane where
  | preparation
  | execution
  deriving DecidableEq, Repr

structure HistoryRow where
  position : TaskHistoryPosition
  scope : Scope
  lane : Lane
  deriving DecidableEq, Repr

def HistoryRow.key (row : HistoryRow) : Nat ×ₗ String := row.position.key

def lastSequence (t : Tables) : Nat := (t.receipts.map (·.receipt.sequence)).foldr max 0

def taskWatermarks (s : Store) : Except JournalError (Nat × Nat) := do
  s.ensureCurrent
  return (s.tables.backendRequests.length, lastSequence s.tables)

section Pages
variable [RecordEncoding]

def recordedBy (limits : StoreLimits) (asOf : Nat) (record : JournalRecord) (recordedAt : Nat) : Bool :=
  RecordEncoding.size record ≤ limits.maxRecordBytes && recordedAt ≤ asOf

def preparationRow (limits : StoreLimits) (actor : ActorId) (asOf : Nat) (row : BackendRow) :
    Option HistoryRow :=
  if row.scope.actor == actor &&
      recordedBy limits asOf (.backendRequest row.record) row.record.recordedAtUnixMs then
    some ⟨⟨row.scope.requestId, row.record.recordedAtUnixMs⟩, row.scope, .preparation⟩
  else none

def firstReceipt (t : Tables) (row : ReceiptRow) : Bool :=
  !t.receipts.any fun first =>
    first.receipt.scope == row.receipt.scope && first.receipt.sequence < row.receipt.sequence

def preparedBy (t : Tables) (actor : ActorId) (scope : Scope) : Bool :=
  t.backendRequests.any fun b => b.scope == scope && b.scope.actor == actor

def executionRow (limits : StoreLimits) (t : Tables) (actor : ActorId) (watermark asOf : Nat)
    (row : ReceiptRow) : Option HistoryRow :=
  match t.executions.lookup row.receipt.scope with
  | none => none
  | some e =>
    if row.receipt.sequence ≤ watermark && firstReceipt t row &&
        !preparedBy t actor row.receipt.scope &&
        recordedBy limits asOf (.receipt row.receipt) row.receipt.occurredAtUnixMs then
      some ⟨⟨e.plan.spec.request.requestId, row.receipt.occurredAtUnixMs⟩, row.receipt.scope, .execution⟩
    else none

def historyRows (limits : StoreLimits) (t : Tables) (actor : ActorId) (query : TaskHistoryQuery) :
    List HistoryRow :=
  (t.backendRequests.take query.preparations).filterMap (preparationRow limits actor query.asOf) ++
    t.receipts.filterMap (executionRow limits t actor query.receipts query.asOf)

/-- A listed row is checked against its record before it is returned. -/
def historyPosition (s : Store) (host : JournalHost) (authority : Authority) (actor : ActorId)
    (row : HistoryRow) : Except JournalError TaskHistoryPosition :=
  match row.lane with
  | .preparation => do
    let scope : Scope := ⟨authority, actor, row.position.request⟩
    s.checkScope scope
    guarded (scope == row.scope) .corrupt
    JournalHost.allows host .readResult scope none
    match Tables.backendRequest s.tables row.scope with
    | none => .error .corrupt
    | some record => do
      guarded (record.action.request == row.position.request &&
        record.recordedAtUnixMs == row.position.recordedAtUnixMs) .corrupt
      return row.position
  | .execution =>
    match s.tables.executions.lookup row.scope,
        s.tables.receipts.find? (·.receipt.scope == row.scope) with
    | some e, some first => do
      guarded (inputAccepted s.limits e.plan.spec) .corrupt
      let scope := Scope.ofInput e.plan
      s.checkScope scope
      guarded (scope.requestId == row.position.request && scope == row.scope &&
        first.receipt.scope == scope &&
        first.receipt.occurredAtUnixMs == row.position.recordedAtUnixMs) .corrupt
      JournalHost.allows host .runnerFact scope none
      return row.position
    | _, _ => .error .corrupt

def taskHistoryPage (s : Store) (host : JournalHost) (authority : Authority) (actor : ActorId)
    (query : TaskHistoryQuery) : Except JournalError (List TaskHistoryPosition) := do
  guarded (1 ≤ query.limit && query.limit ≤ 128) .invalidInput
  s.ensureCurrent
  integer query.preparations
  integer query.receipts
  integer query.asOf
  query.after.forM fun p => integer p.recordedAtUnixMs
  (page HistoryRow.key (historyRows s.limits s.tables actor query)
    (query.after.map TaskHistoryPosition.key) query.limit).mapM (historyPosition s host authority actor)

end Pages

section Recording
variable {t t' : Tables} {o : Operation}

structure Recording (t : Tables) : Prop where
  numbered : t.receipts.map (·.receipt.sequence) = List.range' 1 t.receipts.length
  planned : ∀ row ∈ t.receipts, t.executions.lookup row.receipt.scope ≠ none

theorem byRequest_found {request : RequestId} {row : ExecutionRow}
    (h : Tables.byRequest t request = some row) : ∃ scope, t.executions.lookup scope = some row := by
  obtain ⟨entry, found, rfl⟩ := Option.map_eq_some_iff.mp h
  exact ⟨entry.1, lookup_of_mem_entries (List.mem_of_find?_eq_some found)⟩

theorem rows_remain {c : Call} {scope : Scope} (step : RowStep t t' c)
    (found : t.executions.lookup scope ≠ none) : t'.executions.lookup scope ≠ none := by
  cases step with
  | kept executions attempts => rwa [executions]
  | @opened op plan called fresh executions attempts =>
    have other : scope ≠ .ofInput plan := by
      rintro rfl
      exact found fresh
    rwa [executions, AList.lookup_insert_ne other]
  | @moved op other input row current next called loaded evaluated executions used attempted =>
    by_cases same : scope = other
    · rw [executions, same, AList.lookup_insert]
      exact Option.some_ne_none _
    · rwa [executions, AList.lookup_insert_ne same]

theorem rows_plan {c : Call} {scope : Scope} {row : ExecutionRow} (step : RowStep t t' c)
    (found : t.executions.lookup scope = some row) :
    ∃ row', t'.executions.lookup scope = some row' ∧ row'.plan = row.plan := by
  cases step with
  | kept executions attempts => exact ⟨row, by rw [executions, found], rfl⟩
  | @opened op plan called fresh executions attempts =>
    have other : scope ≠ .ofInput plan := by
      rintro rfl
      rw [fresh] at found
      cases found
    exact ⟨row, by rw [executions, AList.lookup_insert_ne other, found], rfl⟩
  | @moved op other input row' current next called loaded evaluated executions used attempted =>
    by_cases same : scope = other
    · cases same
      cases found.symm.trans loaded.found
      exact ⟨_, by rw [executions, AList.lookup_insert], nextRow_plan ..⟩
    · exact ⟨row, by rw [executions, AList.lookup_insert_ne same, found], rfl⟩

theorem firstReceipt_iff {row : ReceiptRow} : firstReceipt t row = true ↔
    ∀ other ∈ t.receipts, other.receipt.scope = row.receipt.scope →
      row.receipt.sequence ≤ other.receipt.sequence := by
  simp [firstReceipt, List.any_eq_false]

theorem lastSequence_eq (h : Recording t) : lastSequence t = t.receipts.length := by
  unfold lastSequence
  rw [h.numbered]
  generalize t.receipts.length = n
  have bounded : ∀ s n, (List.range' s n).foldr max 0 = if n = 0 then 0 else s + n - 1 := by
    intro s n
    induction n generalizing s with
    | zero => rfl
    | succ n ih =>
      rw [List.range'_succ, List.foldr_cons, ih]
      by_cases empty : n = 0 <;> simp [empty]
  rw [bounded]
  by_cases empty : n = 0 <;> simp [empty]

theorem sequence_le (h : Recording t) {row : ReceiptRow} (mem : row ∈ t.receipts) :
    row.receipt.sequence ≤ t.receipts.length := by
  have listed : row.receipt.sequence ∈ t.receipts.map (·.receipt.sequence) :=
    List.mem_map.mpr ⟨row, mem, rfl⟩
  rw [h.numbered, List.mem_range'_1] at listed
  omega

theorem backendRequest_of_mem {row : BackendRow} (distinct : (t.backendRequests.map (·.scope)).Nodup)
    (mem : row ∈ t.backendRequests) : Tables.backendRequest t row.scope = some row.record := by
  unfold Tables.backendRequest
  cases found : t.backendRequests.find? fun other => other.scope == row.scope with
  | none =>
    have absent := List.find?_eq_none.mp found row mem
    simp at absent
  | some other =>
    have named : other.scope = row.scope := by simpa using List.find?_some found
    rw [List.inj_on_of_nodup_map distinct (List.mem_of_find?_eq_some found) mem named]
    rfl

theorem preparedBy_iff {actor : ActorId} {scope : Scope} : preparedBy t actor scope = true ↔
    scope ∈ t.backendRequests.map (·.scope) ∧ scope.actor = actor := by
  simp only [preparedBy, List.any_eq_true, Bool.and_eq_true, beq_iff_eq, List.mem_map]
  constructor
  · rintro ⟨row, mem, rfl, own⟩
    exact ⟨⟨row, mem, rfl⟩, own⟩
  · rintro ⟨⟨row, mem, rfl⟩, own⟩
    exact ⟨row, mem, rfl, own⟩

theorem upsert_length (rows : List BackendRow) (scope : Scope) (next : BackendTasks.BackendRequest) :
    rows.length ≤ (upsertRequest rows scope next).length := by
  unfold upsertRequest
  split <;> simp

theorem mem_upsert {rows : List BackendRow} {scope : Scope} {next : BackendTasks.BackendRequest}
    {row : BackendRow} (mem : row ∈ upsertRequest rows scope next) :
    row ∈ rows ∨ row = ⟨scope, next⟩ := by
  unfold upsertRequest at mem
  split at mem
  · obtain ⟨old, stored, rfl⟩ := List.mem_map.mp mem
    split
    · exact .inr rfl
    · exact .inl stored
  · simpa using mem

variable [ResourceNaming] [JournalNaming]

/-- A recorded intent is about a stored execution. -/
theorem effect_planned {limits : StoreLimits} {host : JournalHost} {c : Call} {reply : Reply}
    {intent : Intent} (bound : ∀ key row, t.executions.lookup key = some row → Scope.ofInput row.plan = key)
    (h : Effect limits host t c t' reply) (meant : c.intent = some intent) :
    t'.executions.lookup intent.scope ≠ none := by
  cases h with
  | openedAgain started quiet prepared known =>
    obtain ⟨audit, rfl⟩ := prepared.tables
    cases meant
    obtain ⟨scope, found⟩ := byRequest_found known.1
    have named := bound scope _ found
    unfold Scope.ofInput at named ⊢
    rw [← known.2, named]
    change t.executions.lookup scope ≠ none
    rw [found]
    exact Option.some_ne_none _
  | opened started created fresh quiet reserved prepared =>
    obtain ⟨audit, rfl⟩ := prepared.tables
    cases meant
    change AList.lookup _ (AList.insert _ _ _) ≠ none
    rw [AList.lookup_insert]
    exact Option.some_ne_none _
  | refused started later loaded fresh refusal prepared =>
    obtain ⟨audit, rfl⟩ := prepared.tables
    cases meant
    change t.executions.lookup _ ≠ none
    rw [loaded.found]
    exact Option.some_ne_none _
  | transitioned started later accepted passed =>
    cases meant
    have found := accepted.loaded.found
    rw [later.meant, started.meant] at found
    apply rows_remain (transitioned_rows started later accepted)
    rw [found]
    exact Option.some_ne_none _
  | interactionOpened started planned created fresh quiet prepared =>
    obtain ⟨audit, rfl⟩ := prepared.tables
    cases meant
    change t.executions.lookup _ ≠ none
    rw [planned]
    exact Option.some_ne_none _
  | interactionKept started later keyed quiet prepared planned =>
    obtain ⟨audit, rfl⟩ := prepared.tables
    obtain ⟨keys, rfl⟩ := insertInteractionKey_ok keyed
    cases meant
    exact planned
  | interactionMoved started later loaded keyed evaluated offered current quiet prepared planned =>
    obtain ⟨audit, rfl⟩ := prepared.tables
    obtain ⟨keys, rfl⟩ := insertInteractionKey_ok keyed
    cases meant
    exact planned
  | confirmed | captured | progressed | requested => cases meant

variable [RecordEncoding]

theorem Recording.step (h : Recording t)
    (bound : ∀ key row, t.executions.lookup key = some row → Scope.ofInput row.plan = key)
    (operates : Operates t o t') : Recording t' := by
  have remains : ∀ row ∈ t.receipts, t'.executions.lookup row.receipt.scope ≠ none :=
    fun row mem => rows_remain (operates_rows operates) (h.planned row mem)
  rcases operates_recorded operates with ⟨-, receipts, -⟩ | ⟨reply, added, recorded, -⟩
  · exact ⟨by rw [receipts]; exact h.numbered, by rw [receipts]; exact remains⟩
  refine ⟨?_, fun row mem => ?_⟩
  · rw [recorded.appended, List.map_append, h.numbered, List.length_append, List.map_singleton,
      recorded.sequence, List.length_singleton, List.range'_concat, Nat.one_mul, Nat.add_comm 1]
  · rw [recorded.appended, List.mem_append, List.mem_singleton] at mem
    rcases mem with mem | rfl
    · exact remains row mem
    rcases operates.effect with rfl | ⟨reply', effect⟩
    · have grown := congrArg List.length recorded.appended
      simp at grown
    · rw [recorded.scope]
      exact effect_planned bound effect recorded.meant

theorem runs_recording {authority : Authority} {labels : List Operation}
    (run : Runs Operates (Tables.empty authority) labels t) : Recording t := by
  have both : Coherent t ∧ Recording t := by
    apply run.invariant fun t => Coherent t ∧ Recording t
    · exact ⟨.empty authority, rfl, fun _ mem => by cases mem⟩
    · exact fun _ _ _ h operates =>
        ⟨h.1.step operates, h.2.step (fun key row found => (h.1.rows key row found).bound) operates⟩
  exact both.2

end Recording

section Listings

structure Listing where
  tables : Tables
  query : TaskHistoryQuery
  yielded : List TaskHistoryPosition
  finished : Bool

def Listing.start (t : Tables) (asOf limit : Nat) : Listing where
  tables := t
  query := ⟨none, t.backendRequests.length, lastSequence t, asOf, limit⟩
  yielded := []
  finished := false

def Listing.read (l : Listing) (items : List TaskHistoryPosition) : Listing :=
  { l with
    query := { l.query with after := items.getLast?.or l.query.after }
    yielded := l.yielded ++ items
    finished := decide (items.length ≠ l.query.limit) }

inductive Turn where
  | other (o : Operation)
  | page (items : List TaskHistoryPosition)

def Turn.isPage : Turn → Bool
  | .other _ => false
  | .page _ => true

variable [ResourceNaming] [JournalNaming] [RecordEncoding]

/-- Others operate on the tables, and the reader follows its cursor. -/
inductive Lists (limits : StoreLimits) (authority : Authority) (actor : ActorId) :
    Listing → Turn → Listing → Prop where
  | other {l : Listing} {o : Operation} {t : Tables} (operates : Operates l.tables o t) :
      Lists limits authority actor l (.other o) { l with tables := t }
  | page {l : Listing} {s : Store} {host : JournalHost} {items : List TaskHistoryPosition}
      (open_ : s.tables = l.tables ∧ s.limits = limits) (more : l.finished = false)
      (answered : taskHistoryPage s host authority actor l.query = .ok items) :
      Lists limits authority actor l (.page items) (l.read items)

/-- The task records of an actor: its preparations, and executions that it has not prepared. -/
inductive TaskRecord (t : Tables) (actor : ActorId) : TaskHistoryPosition → Prop where
  | preparation {row : BackendRow} (stored : row ∈ t.backendRequests) (own : row.scope.actor = actor) :
      TaskRecord t actor ⟨row.scope.requestId, row.record.recordedAtUnixMs⟩
  | execution {scope : Scope} {row : ExecutionRow} {first : ReceiptRow}
      (opened : t.executions.lookup scope = some row) (unprepared : preparedBy t actor scope = false)
      (recorded : first ∈ t.receipts ∧ first.receipt.scope = scope) (earliest : ∀ other ∈ t.receipts,
        other.receipt.scope = scope → first.receipt.sequence ≤ other.receipt.sequence) :
      TaskRecord t actor ⟨row.plan.spec.request.requestId, first.receipt.occurredAtUnixMs⟩

def Readable (limits : StoreLimits) (t : Tables) : Prop :=
  (∀ row ∈ t.backendRequests, RecordEncoding.size (.backendRequest row.record) ≤ limits.maxRecordBytes) ∧
    ∀ row ∈ t.receipts, RecordEncoding.size (.receipt row.receipt) ≤ limits.maxRecordBytes

def Undisturbing (limits : StoreLimits) (actor : ActorId) (t : Tables) (o : Operation) : Prop :=
  ∀ scope expected next, o.call = .backendRequest scope expected next →
    RecordEncoding.size (.backendRequest next) ≤ limits.maxRecordBytes ∧
      (scope.actor = actor → t.executions.lookup scope ≠ none →
        scope ∈ t.backendRequests.map (·.scope))

end Listings

section Stability
variable [RecordEncoding] {limits : StoreLimits} {actor : ActorId} {t t' : Tables}

/-- The receipts up to the watermark, the plans and the preparations that the listing shows. -/
structure Steady (limits : StoreLimits) (actor : ActorId) (t t' : Tables) : Prop where
  grown : t.backendRequests.length ≤ t'.backendRequests.length
  preparations : ∀ asOf, (t'.backendRequests.take t.backendRequests.length).filterMap
    (preparationRow limits actor asOf) = t.backendRequests.filterMap (preparationRow limits actor asOf)
  readable : ∀ row ∈ t'.backendRequests,
    RecordEncoding.size (.backendRequest row.record) ≤ limits.maxRecordBytes
  receipts : ∃ more, t'.receipts = t.receipts ++ more ∧
    ∀ row ∈ more, t.receipts.length < row.receipt.sequence
  plans : ∀ scope row, t.executions.lookup scope = some row →
    ∃ row', t'.executions.lookup scope = some row' ∧ row'.plan = row.plan
  unprepared : ∀ scope, t.executions.lookup scope ≠ none →
    preparedBy t' actor scope = preparedBy t actor scope

theorem Steady.refl (readable : Readable limits t) : Steady limits actor t t where
  grown := Nat.le_refl _
  preparations asOf := by rw [List.take_length]
  readable := readable.1
  receipts := ⟨[], (List.append_nil _).symm, fun _ mem => by cases mem⟩
  plans scope row found := ⟨row, found, rfl⟩
  unprepared _ _ := rfl

/-- The history up to the watermarks of the first page stays as it was. -/
theorem Steady.history (h : Steady limits actor t t') (recording : Recording t)
    (query : TaskHistoryQuery) (preparations : query.preparations = t.backendRequests.length)
    (receipts : query.receipts = t.receipts.length) :
    historyRows limits t' actor query = historyRows limits t actor query := by
  unfold historyRows
  obtain ⟨more, appended, later⟩ := h.receipts
  have shown : t'.receipts.filterMap (executionRow limits t' actor query.receipts query.asOf) =
      t.receipts.filterMap (executionRow limits t actor query.receipts query.asOf) := by
    rw [appended, List.filterMap_append]
    have unshown : more.filterMap (executionRow limits t' actor query.receipts query.asOf) = [] := by
      apply List.filterMap_eq_nil_iff.mpr
      intro row mem
      have beyond := later row mem
      unfold executionRow
      split
      · rfl
      · rw [receipts, decide_eq_false (by omega)]
        rfl
    rw [unshown, List.append_nil]
    apply List.filterMap_congr
    intro row mem
    have planned := recording.planned row mem
    obtain ⟨e, found⟩ := Option.ne_none_iff_exists'.mp planned
    obtain ⟨e', found', plan⟩ := h.plans _ e found
    have first : firstReceipt t' row = firstReceipt t row := by
      unfold firstReceipt
      rw [appended, List.any_append]
      have after : (more.any fun first => first.receipt.scope == row.receipt.scope &&
          decide (first.receipt.sequence < row.receipt.sequence)) = false := by
        apply List.any_eq_false.mpr
        intro other mem'
        have beyond := later other mem'
        have within := sequence_le recording mem
        simp
        omega
      rw [after, Bool.or_false]
    unfold executionRow
    rw [found, found', first, h.unprepared _ planned]
    dsimp only
    rw [plan]
  rw [preparations, h.preparations, List.take_length, shown]

theorem preparationRow_rewritten {scope : Scope} {row : BackendRow} {next : BackendTasks.BackendRequest}
    {asOf : Nat} (named : row.scope = scope)
    (fits : RecordEncoding.size (.backendRequest row.record) ≤ limits.maxRecordBytes)
    (fits' : RecordEncoding.size (.backendRequest next) ≤ limits.maxRecordBytes)
    (recorded : next.recordedAtUnixMs = row.record.recordedAtUnixMs) :
    preparationRow limits actor asOf ⟨scope, next⟩ = preparationRow limits actor asOf row := by
  unfold preparationRow recordedBy
  dsimp only
  rw [named, recorded, decide_eq_true fits, decide_eq_true fits']

theorem upsert_rows {rows : List BackendRow} {scope : Scope} {next : BackendTasks.BackendRequest}
    {n asOf : Nat} (short : n ≤ rows.length)
    (same : ∀ row ∈ rows, row.scope = scope →
      preparationRow limits actor asOf ⟨scope, next⟩ = preparationRow limits actor asOf row) :
    ((upsertRequest rows scope next).take n).filterMap (preparationRow limits actor asOf) =
      (rows.take n).filterMap (preparationRow limits actor asOf) := by
  unfold upsertRequest
  split
  · rw [← List.map_take, List.filterMap_map]
    apply List.filterMap_congr
    intro row mem
    by_cases here : row.scope = scope
    · simp [here, same row (List.mem_of_mem_take mem) here]
    · simp [here]
  · rw [List.take_append_of_le_length short]

variable [ResourceNaming] [JournalNaming] {u : Tables} {o : Operation}

theorem Steady.step (h : Steady limits actor t t')
    (requests : OneTask t') (undisturbing : Undisturbing limits actor t o)
    (operates : Operates t' o u) : Steady limits actor t u := by
  have receipts : ∃ more, u.receipts = t.receipts ++ more ∧
      ∀ row ∈ more, t.receipts.length < row.receipt.sequence := by
    obtain ⟨more, appended, later⟩ := h.receipts
    rcases operates_recorded operates with ⟨-, receipts, -⟩ | ⟨reply, added, recorded, -⟩
    · exact ⟨more, receipts.trans appended, later⟩
    · refine ⟨more ++ [added], by rw [recorded.appended, appended, List.append_assoc], ?_⟩
      intro row mem
      rw [List.mem_append, List.mem_singleton] at mem
      rcases mem with mem | rfl
      · exact later row mem
      · rw [recorded.sequence, appended, List.length_append]
        omega
  have plans : ∀ scope row, t.executions.lookup scope = some row →
      ∃ row', u.executions.lookup scope = some row' ∧ row'.plan = row.plan := by
    intro scope row found
    obtain ⟨row', found', plan⟩ := h.plans scope row found
    obtain ⟨row'', found'', plan'⟩ := rows_plan (operates_rows operates) found'
    exact ⟨row'', found'', plan'.trans plan⟩
  rcases operates_preparations operates with same | ⟨scope, expected, next, called, accepted, rfl⟩
  · refine ⟨by rw [same]; exact h.grown, by rw [same]; exact h.preparations,
      by rw [same]; exact h.readable, receipts, plans, fun other found => ?_⟩
    rw [← h.unprepared other found]
    unfold preparedBy
    rw [same]
  obtain ⟨fits, unprepared⟩ := undisturbing scope expected next called
  obtain ⟨stored, accepted⟩ := acceptsRequest_ok accepted
  refine ⟨h.grown.trans (upsert_length ..), fun asOf => ?_, fun row mem => ?_, receipts, plans,
    fun other found => ?_⟩
  · rw [upsert_rows h.grown, h.preparations]
    intro row mem named
    apply preparationRow_rewritten named (h.readable row mem) fits
    have kept := backendRequest_of_mem requests.preparations mem
    rw [named, stored] at kept
    exact (accepted.recorded _ kept).1
  · rcases mem_upsert mem with mem | rfl
    · exact h.readable row mem
    · exact fits
  · rw [← h.unprepared other found]
    apply Bool.eq_iff_iff.mpr
    rw [preparedBy_iff, preparedBy_iff, upsertRequest_scopes]
    split
    · rfl
    · next fresh =>
      rw [List.mem_append, List.mem_singleton]
      constructor
      · rintro ⟨known | rfl, own⟩
        · exact ⟨known, own⟩
        · have known := unprepared own found
          have before := preparedBy_iff.mpr ⟨known, own⟩
          rw [← h.unprepared other found] at before
          exact preparedBy_iff.mp before
      · exact fun ⟨known, own⟩ => ⟨.inl known, own⟩

end Stability

section Rows
variable [RecordEncoding] {limits : StoreLimits} {actor : ActorId} {t : Tables} {query : TaskHistoryQuery}

theorem preparationRow_some {asOf : Nat} {row : BackendRow} {r : HistoryRow}
    (h : preparationRow limits actor asOf row = some r) :
    row.scope.actor = actor ∧
      r = ⟨⟨row.scope.requestId, row.record.recordedAtUnixMs⟩, row.scope, .preparation⟩ := by
  unfold preparationRow at h
  split at h
  · next listed =>
    rw [Bool.and_eq_true, beq_iff_eq] at listed
    exact ⟨listed.1, (Option.some.inj h).symm⟩
  · cases h

theorem executionRow_some {watermark asOf : Nat} {row : ReceiptRow} {r : HistoryRow}
    (h : executionRow limits t actor watermark asOf row = some r) :
    ∃ e, t.executions.lookup row.receipt.scope = some e ∧ firstReceipt t row = true ∧
      preparedBy t actor row.receipt.scope = false ∧
      r = ⟨⟨e.plan.spec.request.requestId, row.receipt.occurredAtUnixMs⟩, row.receipt.scope, .execution⟩ := by
  unfold executionRow at h
  split at h
  · cases h
  next e found =>
  split at h
  · next listed =>
    simp only [Bool.and_eq_true, Bool.not_eq_true'] at listed
    exact ⟨e, found, listed.1.1.2, listed.1.2, (Option.some.inj h).symm⟩
  · cases h

theorem history_record (bound : ∀ key row, t.executions.lookup key = some row →
    Scope.ofInput row.plan = key) {r : HistoryRow} (mem : r ∈ historyRows limits t actor query) :
    TaskRecord t actor r.position ∧ Reserves t r.scope ∧ r.position.request = r.scope.requestId := by
  rcases List.mem_append.mp mem with mem | mem
  · obtain ⟨row, stored, shown⟩ := List.mem_filterMap.mp mem
    obtain ⟨own, rfl⟩ := preparationRow_some shown
    have stored := List.mem_of_mem_take stored
    exact ⟨.preparation stored own, .inr (List.mem_map.mpr ⟨row, stored, rfl⟩), rfl⟩
  · obtain ⟨row, stored, shown⟩ := List.mem_filterMap.mp mem
    obtain ⟨e, found, first, unprepared, rfl⟩ := executionRow_some shown
    refine ⟨.execution found unprepared ⟨stored, rfl⟩ (firstReceipt_iff.mp first), .inl ?_, ?_⟩
    · dsimp only
      rw [found]
      exact Option.some_ne_none e
    · rw [← bound _ _ found]
      rfl

theorem record_history (query : TaskHistoryQuery) (recording : Recording t) (readable : Readable limits t)
    (preparations : query.preparations = t.backendRequests.length)
    (receipts : query.receipts = t.receipts.length) {p : TaskHistoryPosition}
    (record : TaskRecord t actor p) (dated : p.recordedAtUnixMs ≤ query.asOf) :
    ∃ r ∈ historyRows limits t actor query, r.position = p := by
  unfold historyRows
  rw [preparations, receipts, List.take_length]
  cases record with
  | @preparation row stored own =>
    refine ⟨⟨⟨row.scope.requestId, row.record.recordedAtUnixMs⟩, row.scope, .preparation⟩,
      List.mem_append_left _ (List.mem_filterMap.mpr ⟨row, stored, ?_⟩), rfl⟩
    simp [preparationRow, recordedBy, own, readable.1 row stored, dated]
  | @execution scope e first opened unprepared recorded earliest =>
    obtain ⟨stored, rfl⟩ := recorded
    refine ⟨⟨⟨e.plan.spec.request.requestId, first.receipt.occurredAtUnixMs⟩, first.receipt.scope,
      .execution⟩, List.mem_append_right _ (List.mem_filterMap.mpr ⟨first, stored, ?_⟩), rfl⟩
    simp [executionRow, recordedBy, opened, unprepared, firstReceipt_iff.mpr earliest,
      sequence_le recording stored, readable.2 first stored, dated]

theorem history_scopes (recording : Recording t) (requests : OneTask t) :
    (historyRows limits t actor query).Pairwise fun a b => a.scope ≠ b.scope := by
  unfold historyRows
  refine List.pairwise_append.mpr ⟨?_, ?_, ?_⟩
  · have distinct := requests.preparations
    unfold List.Nodup at distinct
    rw [List.pairwise_map] at distinct
    apply List.pairwise_filterMap.mpr
    refine (distinct.sublist (List.take_sublist ..)).imp fun different b shown b' shown' => ?_
    obtain ⟨-, rfl⟩ := preparationRow_some shown
    obtain ⟨-, rfl⟩ := preparationRow_some shown'
    exact different
  · have ascending : t.receipts.Pairwise fun a b => a.receipt.sequence < b.receipt.sequence := by
      have numbers : (t.receipts.map (·.receipt.sequence)).Pairwise (· < ·) := by
        rw [recording.numbered]
        exact List.pairwise_lt_range'
      rwa [List.pairwise_map] at numbers
    apply List.pairwise_filterMap.mpr
    refine ascending.imp_of_mem fun {a a'} stored _ earlier b shown b' shown' same => ?_
    obtain ⟨e, -, -, -, rfl⟩ := executionRow_some shown
    obtain ⟨e', -, first, -, rfl⟩ := executionRow_some shown'
    have later := firstReceipt_iff.mp first a stored same
    omega
  · intro a mem b mem' same
    obtain ⟨row, stored, shown⟩ := List.mem_filterMap.mp mem
    obtain ⟨own, rfl⟩ := preparationRow_some shown
    obtain ⟨row', -, shown'⟩ := List.mem_filterMap.mp mem'
    obtain ⟨e, -, -, unprepared, rfl⟩ := executionRow_some shown'
    dsimp only at same
    rw [← same, preparedBy_iff.mpr
      ⟨List.mem_map.mpr ⟨row, List.mem_of_mem_take stored, rfl⟩, own⟩] at unprepared
    cases unprepared

theorem history_distinct (limits : StoreLimits) (actor : ActorId) (query : TaskHistoryQuery)
    (bound : ∀ key row, t.executions.lookup key = some row → Scope.ofInput row.plan = key)
    (recording : Recording t) (requests : OneTask t) :
    ((historyRows limits t actor query).map HistoryRow.key).Nodup := by
  unfold List.Nodup
  rw [List.pairwise_map]
  refine (history_scopes recording requests).imp_of_mem fun {a b} memA memB different same => different ?_
  obtain ⟨-, reservesA, namedA⟩ := history_record bound memA
  obtain ⟨-, reservesB, namedB⟩ := history_record bound memB
  apply requests.single _ _ reservesA reservesB
  rw [← namedA, ← namedB]
  have keys : (a.position.recordedAtUnixMs, a.position.request.value) =
      (b.position.recordedAtUnixMs, b.position.request.value) := toLex.injective same
  exact Identifier.ext_value (Prod.mk.inj keys).2

end Rows

section Results

theorem mapM_ok {ε α β : Type} {f : α → Except ε β} {g : α → β} (sound : ∀ x y, f x = .ok y → y = g x) :
    ∀ {l : List α} {ys : List β}, l.mapM f = .ok ys → ys = l.map g
  | [], ys, h => by
    cases h
    rfl
  | x :: l, ys, h => by
    rw [List.mapM_cons] at h
    obtain ⟨y, head, h⟩ := bind_ok.mp h
    obtain ⟨rest, tail, h⟩ := bind_ok.mp h
    cases h
    rw [List.map_cons, sound x y head, mapM_ok sound tail]

variable [RecordEncoding] {s : Store} {host : JournalHost} {a : Authority} {actor : ActorId}

theorem historyPosition_ok {row : HistoryRow} {p : TaskHistoryPosition}
    (h : historyPosition s host a actor row = .ok p) : p = row.position := by
  unfold historyPosition at h
  split at h
  · obtain ⟨_, -, h⟩ := bind_ok.mp h
    obtain ⟨_, -, h⟩ := bind_ok.mp h
    obtain ⟨_, -, h⟩ := bind_ok.mp h
    split at h
    · cases h
    · obtain ⟨_, -, h⟩ := bind_ok.mp h
      cases h
      rfl
  · split at h
    · obtain ⟨_, -, h⟩ := bind_ok.mp h
      obtain ⟨_, -, h⟩ := bind_ok.mp h
      obtain ⟨_, -, h⟩ := bind_ok.mp h
      obtain ⟨_, -, h⟩ := bind_ok.mp h
      cases h
      rfl
    · cases h

theorem taskHistoryPage_ok {query : TaskHistoryQuery} {items : List TaskHistoryPosition}
    (h : taskHistoryPage s host a actor query = .ok items) : 1 ≤ query.limit ∧
      items = (page HistoryRow.key (historyRows s.limits s.tables actor query)
        (query.after.map TaskHistoryPosition.key) query.limit).map (·.position) := by
  obtain ⟨_, sized, h⟩ := bind_ok.mp h
  obtain ⟨_, -, h⟩ := bind_ok.mp h
  obtain ⟨_, -, h⟩ := bind_ok.mp h
  obtain ⟨_, -, h⟩ := bind_ok.mp h
  obtain ⟨_, -, h⟩ := bind_ok.mp h
  obtain ⟨_, -, h⟩ := bind_ok.mp h
  have sized := guarded_ok.mp sized
  simp only [Bool.and_eq_true, decide_eq_true_eq] at sized
  exact ⟨sized.1, mapM_ok (fun _ _ => historyPosition_ok) h⟩

variable [ResourceNaming] [JournalNaming] {limits : StoreLimits} {t : Tables} {asOf limit : Nat}
  {turns : List Turn} {l l' : Listing} {turn : Turn}

/-- A listing has read a prefix of the history of its first page. -/
structure Follows (limits : StoreLimits) (a : Authority) (actor : ActorId) (t : Tables)
    (asOf limit : Nat) (turns : List Turn) (l : Listing) : Prop where
  steady : Steady limits actor t l.tables
  reached : ∃ labels, Runs Operates (Tables.empty a) labels l.tables
  prefixed : ∃ read rest,
    descending HistoryRow.key (historyRows limits t actor (Listing.start t asOf limit).query) = read ++ rest ∧
    l.yielded = read.map (·.position) ∧
    l.query = { (Listing.start t asOf limit).query with after := (read.map (·.position)).getLast? } ∧
    (l.finished = true → rest = []) ∧
    turns.countP Turn.isPage * limit ≤ read.length + if l.finished then limit else 0

theorem Follows.start {labels : List Operation} (reached : Runs Operates (Tables.empty a) labels t)
    (readable : Readable limits t) : Follows limits a actor t asOf limit [] (.start t asOf limit) where
  steady := .refl readable
  reached := ⟨labels, reached⟩
  prefixed := ⟨[], _, rfl, rfl, rfl, (by intro done; cases done), by simp [Listing.start]⟩

theorem Follows.step {labels : List Operation} (h : Follows limits a actor t asOf limit turns l)
    (reached : Runs Operates (Tables.empty a) labels t) (step : Lists limits a actor l turn l')
    (undisturbed : ∀ o, turn = .other o → Undisturbing limits actor t o) :
    Follows limits a actor t asOf limit (turns ++ [turn]) l' := by
  obtain ⟨labels', earlier⟩ := h.reached
  obtain ⟨read, rest, sorted, yielded, query, finished, counted⟩ := h.prefixed
  cases step with
  | @other o u operates =>
    refine ⟨h.steady.step (store_coherent earlier).requests (undisturbed o rfl) operates,
      ⟨_, .next earlier operates⟩, read, rest, sorted, yielded, query, finished, ?_⟩
    rw [List.countP_append]
    exact counted
  | @page s host items open_ more answered =>
    obtain ⟨sized, items_⟩ := taskHistoryPage_ok answered
    have recording := runs_recording reached
    have coherent := store_coherent reached
    have distinct := history_distinct limits actor (Listing.start t asOf limit).query
      (fun key row found => (coherent.coherent.rows key row found).bound) recording coherent.requests
    have rows : historyRows s.limits s.tables actor l.query =
        historyRows limits t actor (Listing.start t asOf limit).query := by
      rw [open_.1, open_.2, query]
      exact h.steady.history recording _ rfl (lastSequence_eq recording)
    have after : l.query.after.map TaskHistoryPosition.key = cursor HistoryRow.key read := by
      rw [query]
      unfold cursor
      dsimp only
      rw [List.getLast?_map, Option.map_map]
      rfl
    have width : l.query.limit = limit := by rw [query]; rfl
    rw [rows, after, width, page_cursor distinct sorted] at items_
    refine ⟨h.steady, ⟨labels', earlier⟩, read ++ rest.take limit, rest.drop limit, ?_, ?_, ?_, ?_, ?_⟩
    · rw [sorted, List.append_assoc, List.take_append_drop]
    · change l.yielded ++ items = _
      rw [yielded, items_, List.map_append]
    · change { l.query with after := items.getLast?.or l.query.after } = _
      rw [items_, query, List.map_append, List.getLast?_append]
    · intro short
      have short : items.length ≠ l.query.limit := of_decide_eq_true short
      rw [width, items_, List.length_map, List.length_take] at short
      exact List.drop_of_length_le (by omega)
    · rw [more] at counted
      simp only [Bool.false_eq_true, ↓reduceIte, Nat.add_zero] at counted
      rw [List.countP_append, List.countP_singleton]
      change (_ + 1) * limit ≤ _
      rw [Nat.add_mul, Nat.one_mul, List.length_append, List.length_take]
      change _ ≤ _ + if decide (items.length ≠ l.query.limit) = true then limit else 0
      rw [items_, width, List.length_map, List.length_take]
      split
      · omega
      · next full =>
        simp at full
        omega

/-- Every task record of the first page is listed exactly once, the latest first. -/
structure Listed (t : Tables) (actor : ActorId) (asOf : Nat) (turns : List Turn) (l : Listing) : Prop where
  descending : l.yielded.Pairwise fun p q => q.key < p.key
  once : l.yielded.Nodup
  existing : ∀ p ∈ l.yielded, TaskRecord t actor p
  complete : l.finished = true → ∀ p, TaskRecord t actor p → p.recordedAtUnixMs ≤ asOf → p ∈ l.yielded
  /-- All pages but the last are full. -/
  ends : turns.countP Turn.isPage * l.query.limit ≤ l.yielded.length + l.query.limit

theorem Follows.listed {labels : List Operation} (h : Follows limits a actor t asOf limit turns l)
    (reached : Runs Operates (Tables.empty a) labels t) (readable : Readable limits t) :
    Listed t actor asOf turns l := by
  obtain ⟨read, rest, sorted, yielded, query, finished, counted⟩ := h.prefixed
  have recording := runs_recording reached
  have coherent := store_coherent reached
  have bound := fun key row found => (coherent.coherent.rows key row found).bound
  have strict := descending_strict (history_distinct limits actor (Listing.start t asOf limit).query
    bound recording coherent.requests)
  have descending : l.yielded.Pairwise fun p q => q.key < p.key := by
    rw [sorted, List.pairwise_append] at strict
    rw [yielded, List.pairwise_map]
    exact strict.1
  have listed : ∀ r, r ∈ historyRows limits t actor (Listing.start t asOf limit).query ↔
      r ∈ read ++ rest := by
    intro r
    rw [← sorted, mem_descending]
  refine ⟨descending, ?_, ?_, fun done p record dated => ?_, ?_⟩
  · exact descending.imp fun below same => absurd (same ▸ below) (lt_irrefl _)
  · intro p mem
    rw [yielded] at mem
    obtain ⟨r, here, rfl⟩ := List.mem_map.mp mem
    exact (history_record bound ((listed r).mpr (List.mem_append_left _ here))).1
  · obtain ⟨r, mem, rfl⟩ := record_history (Listing.start t asOf limit).query recording
      readable rfl (lastSequence_eq recording) record dated
    rw [listed, finished done, List.append_nil] at mem
    rw [yielded]
    exact List.mem_map.mpr ⟨r, mem, rfl⟩
  · have width : l.query.limit = limit := by rw [query]; rfl
    rw [width, yielded, List.length_map]
    split at counted <;> omega

/-- Following the cursor of a first page to the end yields every task record of that page once, as
long as nobody prepares an execution that it lists without a preparation. -/
theorem task_history_listed {labels : List Operation} {items : List TaskHistoryPosition} {l₀ : Listing}
    (reached : Runs Operates (Tables.empty a) labels t) (readable : Readable limits t)
    (first : Lists limits a actor (.start t asOf limit) (.page items) l₀)
    (run : Runs (Lists limits a actor) l₀ turns l)
    (undisturbed : ∀ o, .other o ∈ turns → Undisturbing limits actor t o) :
    Listed t actor asOf (.page items :: turns) l := by
  have opened : Follows limits a actor t asOf limit [.page items] l₀ :=
    (Follows.start reached readable).step reached first fun o same => by cases same
  have follows : Follows limits a actor t asOf limit (.page items :: turns) l := by
    induction run with
    | refl => exact opened
    | next earlier step ih =>
      have before := ih fun o mem => undisturbed o (List.mem_append_left _ mem)
      refine before.step reached step fun o same => undisturbed o ?_
      rw [← same]
      exact List.mem_append_right _ (List.mem_singleton_self _)
  exact follows.listed reached readable

end Results

section Samples
open LifecycleRuns
attribute [local instance] sampleResources sampleNaming sampleEncoding

def otherScope : Scope := { sampleScope with requestId := ⟨"zz", .refl true⟩ }

def historyCalls : List (Environment × Call) :=
  [preparation 1 otherScope,
    (sampleEnvironment 1, .openExecution (sampleOperation "open" (.refl true)) processPlan)]

def historyStore : Store := (performed roomyStore historyCalls).2

def sampleListing : Listing := .start historyStore.tables 10 1

def preparedPosition : TaskHistoryPosition := ⟨otherScope.requestId, 1⟩

def executedPosition : TaskHistoryPosition := ⟨sampleScope.requestId, 1⟩

abbrev SampleLists : Listing → Turn → Listing → Prop :=
  Lists roomyStore.limits roomyStore.authority sampleScope.actor

def historyOperation (call : Environment × Call) : Operation :=
  ⟨historyStore, call.1, call.2, (Store.call historyStore call.1 call.2).2⟩

def laterStore (call : Environment × Call) : Store := (Store.call historyStore call.1 call.2).1

def readSample (s : Store) (query : TaskHistoryQuery) :
    Except JournalError (List TaskHistoryPosition) :=
  taskHistoryPage s (sampleEnvironment 0).host roomyStore.authority sampleScope.actor query

theorem sample_reached : Runs Operates (Tables.empty roomyStore.authority)
    (performed roomyStore historyCalls).1 historyStore.tables :=
  performed_runs historyCalls roomyStore

theorem sample_readable (t : Tables) : Readable roomyStore.limits t :=
  ⟨fun _ _ => Nat.zero_le _, fun _ _ => Nat.zero_le _⟩

def readTwice (call : Environment × Call) (second : List TaskHistoryPosition) : Listing :=
  let first := sampleListing.read [preparedPosition]
  { first with tables := (laterStore call).tables }.read second

theorem sample_turns {call : Environment × Call} {second : List TaskHistoryPosition}
    (limits : (laterStore call).limits = roomyStore.limits)
    (answered : readSample (laterStore call) (sampleListing.read [preparedPosition]).query = .ok second) :
    Runs SampleLists (sampleListing.read [preparedPosition])
      [.other (historyOperation call), .page second] (readTwice call second) := by
  have operates : Operates historyStore.tables (historyOperation call) (laterStore call).tables :=
    ⟨rfl, _, rfl, rfl⟩
  have written : SampleLists (sampleListing.read [preparedPosition]) (.other (historyOperation call))
      { sampleListing.read [preparedPosition] with tables := (laterStore call).tables } :=
    .other operates
  have paged : SampleLists { sampleListing.read [preparedPosition] with
      tables := (laterStore call).tables } (.page second) (readTwice call second) :=
    .page ⟨rfl, limits⟩ rfl answered
  exact (Runs.one written).next paged

theorem sample_first : SampleLists sampleListing (.page [preparedPosition])
    (sampleListing.read [preparedPosition]) := by
  have answered : historyStore.limits = roomyStore.limits ∧
      readSample historyStore sampleListing.query = .ok [preparedPosition] := by decide +kernel
  exact .page (s := historyStore) ⟨rfl, answered.1⟩ rfl answered.2

def unrelatedCall : Environment × Call :=
  preparation 3 { sampleScope with requestId := ⟨"aa", .refl true⟩ }

theorem task_history_listed_sample :
    Listed historyStore.tables sampleScope.actor 10
      [.page [preparedPosition], .other (historyOperation unrelatedCall), .page [executedPosition]]
      (readTwice unrelatedCall [executedPosition]) := by
  have answered : (laterStore unrelatedCall).limits = roomyStore.limits ∧
      readSample (laterStore unrelatedCall) (sampleListing.read [preparedPosition]).query =
        .ok [executedPosition] ∧
      historyStore.tables.executions.lookup { sampleScope with requestId := ⟨"aa", by decide⟩ } = none := by
    decide +kernel
  refine task_history_listed sample_reached (sample_readable _) sample_first
    (sample_turns answered.1 answered.2.1) fun o mem => ?_
  have same : o = historyOperation unrelatedCall := by simpa using mem
  subst same
  intro scope expected next called
  cases called
  exact ⟨Nat.zero_le _, fun _ opened => absurd answered.2.2 opened⟩

def hidingCall : Environment × Call := preparation 3 sampleScope

/-- A preparation recorded between two pages hides the older execution of its scope. -/
theorem prepared_between_pages :
    SampleLists sampleListing (.page [preparedPosition]) (sampleListing.read [preparedPosition]) ∧
      Runs SampleLists (sampleListing.read [preparedPosition])
        [.other (historyOperation hidingCall), .page []] (readTwice hidingCall []) ∧
      (readTwice hidingCall []).finished = true ∧
      TaskRecord historyStore.tables sampleScope.actor executedPosition ∧
      executedPosition ∉ (readTwice hidingCall []).yielded := by
  have answered : (laterStore hidingCall).limits = roomyStore.limits ∧
      readSample (laterStore hidingCall) (sampleListing.read [preparedPosition]).query = .ok [] ∧
      (⟨executedPosition, sampleScope, .execution⟩ : HistoryRow) ∈
        historyRows roomyStore.limits historyStore.tables sampleScope.actor sampleListing.query := by
    decide +kernel
  have bound := fun key row found =>
    ((store_coherent sample_reached).coherent.rows key row found).bound
  exact ⟨sample_first, sample_turns answered.1 answered.2.1, rfl,
    (history_record bound answered.2.2).1, by decide⟩

end Samples

end RssMdmAgent.TaskHistory
