import RssMdmAgent.JournalFinality

set_option autoImplicit false

/-! # Material checkpoints and their proofs -/

namespace RssMdmAgent.JournalMaterial
open ContractIdentity ContractPlan ProgressHistory ApplicationModel
open LifecycleModel LifecycleState LifecycleSteps JournalModel KeyedTable JournalStore
open JournalOperations JournalSteps JournalEffects JournalRuns JournalReceipts JournalSnapshots
open JournalDelivery JournalFinality TransitionRuns
open ProgramInstructions (ResourceNaming)

structure Connection where
  store : Store
  owner : Nat
  external : Nat

/-- Checkpoint of one connection; it is neither persisted nor transferable. -/
structure MaterialCheckpoint where
  owner : Nat
  safety : Nat
  external : Nat
  receipt : Nat
  deriving DecidableEq, Repr

def materialCheckpoint (c : Connection) : Except JournalError MaterialCheckpoint := do
  c.store.ensureCurrent
  return ⟨c.owner, c.store.materialSafety, c.external, c.store.tables.receipts.length⟩

def materialProofCurrent (c : Connection) (expected : MaterialCheckpoint) : Except JournalError Bool := do
  let current ← materialCheckpoint c
  return current.owner == expected.owner && current.safety == expected.safety &&
    current.external == expected.external

section Changes
variable {t t' u : Tables}

/-- What unchanged safety keeps: no execution is new, and where a change would have been unsafe the
execution and its receipts stay. -/
structure Kept (t t' : Tables) : Prop where
  present : ∀ scope, t'.executions.lookup scope ≠ none → t.executions.lookup scope ≠ none
  row : ∀ scope row, unsafeChange t scope = true → t.executions.lookup scope = some row →
    t'.executions.lookup scope = some row
  receipts : ∀ scope row, unsafeChange t scope = true → t.executions.lookup scope = some row →
    t'.receipts.filter (·.receipt.scope == scope) = t.receipts.filter (·.receipt.scope == scope)
  confirmations : ∀ c ∈ t.confirmations, c ∈ t'.confirmations

theorem Kept.refl (t : Tables) : Kept t t :=
  ⟨fun _ h => h, fun _ _ _ h => h, fun _ _ _ _ => rfl, fun _ h => h⟩

theorem unsafeChange_of_row {scope : Scope} {row : ExecutionRow}
    (found : t.executions.lookup scope = some row) (found' : t'.executions.lookup scope = some row) :
    unsafeChange t' scope = unsafeChange t scope := by
  simp [unsafeChange, found, found']

theorem Kept.trans (first : Kept t t') (second : Kept t' u) : Kept t u := by
  have stays : ∀ scope row, unsafeChange t scope = true → t.executions.lookup scope = some row →
      unsafeChange t' scope = true ∧ t'.executions.lookup scope = some row := by
    intro scope row unsafe_ found
    have found' := first.row scope row unsafe_ found
    exact ⟨by rw [unsafeChange_of_row found found']; exact unsafe_, found'⟩
  refine ⟨fun scope h => first.present scope (second.present scope h), fun scope row unsafe_ found => ?_,
    fun scope row unsafe_ found => ?_, fun c h => second.confirmations c (first.confirmations c h)⟩
  · obtain ⟨unsafe', found'⟩ := stays scope row unsafe_ found
    exact second.row scope row unsafe' found'
  · obtain ⟨unsafe', found'⟩ := stays scope row unsafe_ found
    rw [second.receipts scope row unsafe' found', first.receipts scope row unsafe_ found]

theorem rows_kept {c : Call} (step : RowStep t t' c)
    (safe : ∀ intent, c.intent = some intent → unsafeChange t intent.scope = false) :
    (∀ scope, t'.executions.lookup scope ≠ none → t.executions.lookup scope ≠ none) ∧
      ∀ scope row, unsafeChange t scope = true → t.executions.lookup scope = some row →
        t'.executions.lookup scope = some row := by
  cases step with
  | kept executions attempts =>
    rw [executions]
    exact ⟨fun _ h => h, fun _ _ _ h => h⟩
  | opened called fresh executions attempts =>
    rw [called] at safe
    have opened := safe _ rfl
    simp [unsafeChange, fresh] at opened
  | @moved op scope input row current next called loaded evaluated executions used attempted =>
    rw [called] at safe
    have moved : unsafeChange t scope = false := safe _ rfl
    rw [executions]
    refine ⟨fun other h => ?_, fun other row' unsafe_ found => ?_⟩
    · by_cases same : other = scope
      · rw [same, loaded.found]
        exact Option.some_ne_none row
      · rwa [AList.lookup_insert_ne same] at h
    · have other : other ≠ scope := by
        rintro rfl
        rw [moved] at unsafe_
        cases unsafe_
      rw [AList.lookup_insert_ne other]
      exact found

variable [ResourceNaming] [JournalNaming]

theorem effect_confirmations {limits : StoreLimits} {host : JournalHost} {c : Call} {reply : Reply}
    (h : Effect limits host t c t' reply) : ∀ x ∈ t.confirmations, x ∈ t'.confirmations := by
  have same : ∀ {x}, x ∈ t.confirmations → x ∈ t.confirmations := fun h => h
  cases h with
  | openedAgain started quiet prepared =>
    obtain ⟨audit, rfl⟩ := prepared.tables
    exact fun _ => same
  | opened started created fresh quiet reserved prepared =>
    obtain ⟨audit, rfl⟩ := prepared.tables
    exact fun _ => same
  | refused started later loaded fresh refusal prepared =>
    obtain ⟨audit, rfl⟩ := prepared.tables
    exact fun _ => same
  | transitioned started later accepted =>
    obtain ⟨attempts, claims, claims', audit, -, -, -, prepared⟩ := accepted.written
    obtain ⟨audit', rfl⟩ := prepared.tables
    exact fun _ => same
  | interactionOpened started planned created fresh quiet prepared =>
    obtain ⟨audit, rfl⟩ := prepared.tables
    exact fun _ => same
  | interactionKept started later keyed quiet prepared =>
    obtain ⟨audit, rfl⟩ := prepared.tables
    obtain ⟨keys, rfl⟩ := insertInteractionKey_ok keyed
    exact fun _ => same
  | interactionMoved started later loaded keyed evaluated offered current quiet prepared =>
    obtain ⟨audit, rfl⟩ := prepared.tables
    obtain ⟨keys, rfl⟩ := insertInteractionKey_ok keyed
    exact fun _ => same
  | confirmed delivered named grown => exact fun x mem => (grown x).mpr (.inl mem)
  | captured => exact fun _ => same
  | progressed => exact fun _ => same
  | requested => exact fun _ => same

theorem operates_kept_safe [RecordEncoding] {o : Operation} (operates : Operates t o t')
    (safe : t' = t ∨ ∀ intent, o.call.intent = some intent → unsafeChange t intent.scope = false) :
    Kept t t' := by
  rcases safe with rfl | safe
  · exact .refl t'
  obtain ⟨present, row⟩ := rows_kept (operates_rows operates) safe
  refine ⟨present, row, fun scope row' unsafe_ found => ?_, ?_⟩
  · rcases operates_recorded operates with ⟨-, receipts, -⟩ | ⟨reply, added, recorded, -⟩
    · rw [receipts]
    · have other : added.receipt.scope ≠ scope := by
        rintro same
        have moved := safe _ recorded.meant
        rw [← recorded.scope, same, unsafe_] at moved
        cases moved
      rw [recorded.appended, List.filter_append]
      simp [other]
  · rcases operates.effect with rfl | ⟨reply, effect⟩
    · exact fun _ h => h
    · exact effect_confirmations effect

end Changes

section Runs
variable [ResourceNaming] [JournalNaming] [RecordEncoding]

inductive Move where
  | own (o : Operation)
  | other (o : Operation)
  | reopened

inductive Moves : Connection → Move → Connection → Prop where
  | own {c : Connection} {env : Environment} {call : Call} {s : Store}
      {result : Except JournalError Reply} (called : Store.call c.store env call = (s, result)) :
      Moves c (.own ⟨c.store, env, call, result⟩) { c with store := s }
  | other {c : Connection} {o : Operation} {t : Tables} (operates : Operates c.store.tables o t) :
      Moves c (.other o) { c with
        store := { c.store with tables := t }
        external := c.external + 1 }
  | reopened {c : Connection} {s : Store} (tables : s.tables = c.store.tables) :
      Moves c .reopened ⟨s, c.owner + 1, 0⟩

def Later (c d : Connection) : Prop :=
  c.owner < d.owner ∨ d.owner = c.owner ∧ (c.external < d.external ∨ d.external = c.external ∧
    (c.store.materialSafety < d.store.materialSafety ∨
      d.store.materialSafety = c.store.materialSafety ∧ d.store.limits = c.store.limits ∧
        Kept c.store.tables d.store.tables))

omit [ResourceNaming] [JournalNaming] [RecordEncoding] in
theorem Later.trans {c d e : Connection} (first : Later c d) (second : Later d e) : Later c e := by
  unfold Later at *
  rcases first with owner | ⟨owner, external | ⟨external, safety | ⟨safety, limits, kept⟩⟩⟩ <;>
    rcases second with owner' | ⟨owner', external' | ⟨external', safety' | ⟨safety', limits', kept'⟩⟩⟩
  all_goals first
    | exact .inl (by omega)
    | exact .inr ⟨by omega, .inl (by omega)⟩
    | exact .inr ⟨by omega, .inr ⟨by omega, .inl (by omega)⟩⟩
    | exact .inr ⟨by omega, .inr ⟨by omega, .inr ⟨by omega, limits'.trans limits, kept.trans kept'⟩⟩⟩

theorem Moves.later {c d : Connection} {m : Move} (h : Moves c m d) : Later c d := by
  cases h with
  | @own env call s result called =>
    refine .inr ⟨rfl, .inr ⟨rfl, ?_⟩⟩
    have facts := call_cases called
    rcases Nat.lt_or_eq_of_le facts.handled.safety with raised | same
    · exact .inl raised
    refine .inr ⟨same.symm, facts.handled.limits, ?_⟩
    apply operates_kept_safe (o := ⟨c.store, env, call, result⟩) ⟨rfl, s, called, rfl⟩
    by_cases unchanged : s.tables = c.store.tables
    · exact .inl unchanged
    · refine .inr fun intent meant => ?_
      by_contra unsafe_
      rw [Bool.not_eq_false] at unsafe_
      rcases facts.raised intent meant unsafe_ with kept | raised
      · exact unchanged kept
      · omega
  | other operates => exact .inr ⟨rfl, .inl (Nat.lt_succ_self _)⟩
  | reopened tables => exact .inl (Nat.lt_succ_self _)

omit [ResourceNaming] [JournalNaming] [RecordEncoding] in
theorem Later.refl (c : Connection) : Later c c :=
  .inr ⟨rfl, .inr ⟨rfl, .inr ⟨rfl, rfl, .refl _⟩⟩⟩

theorem runs_later {c d : Connection} {moves : List Move} (run : Runs Moves c moves d) : Later c d :=
  run.relates Later Later.refl Later.trans fun _ _ _ h => h.later

section Facts
variable {c d : Connection} {scope : Scope} {consumer : Identifier}

def Reclaimable (s : Store) (scope : Scope) (consumer : Identifier) : Prop :=
  ∃ row e, loadExecution s.limits s.tables scope = .ok (row, e) ∧
    materialSettled e (latestAdmission s.tables scope) = true ∧
    unconfirmed s.tables scope consumer = []

omit [ResourceNaming] [JournalNaming] in
theorem materialFactRow_ok {s : Store} {host : JournalHost} {fact : ServiceMaterialFact}
    (h : materialFactRow s host consumer scope = .ok fact) : ∃ row e,
      loadExecution s.limits s.tables scope = .ok (row, e) ∧ fact.input = row.plan ∧
      fact.reclaimable = (materialSettled e (latestAdmission s.tables scope) &&
        (unconfirmed s.tables scope consumer).isEmpty) := by
  obtain ⟨row, planned, h⟩ := bind_ok.mp h
  obtain ⟨_, -, h⟩ := bind_ok.mp h
  obtain ⟨_, -, h⟩ := bind_ok.mp h
  obtain ⟨_, -, h⟩ := bind_ok.mp h
  obtain ⟨e, restored, h⟩ := bind_ok.mp h
  obtain ⟨_, -, h⟩ := bind_ok.mp h
  cases h
  refine ⟨row, e, ?_, rfl, by simp⟩
  unfold loadExecution
  rw [planned]
  show (do let state ← loadState s.limits row; pure (row, state)) = _
  rw [restored]
  rfl

omit [ResourceNaming] [JournalNaming] in
theorem reclaimable_of_fact {s : Store} {host : JournalHost} {fact : ServiceMaterialFact}
    (h : materialFactRow s host consumer scope = .ok fact) :
    fact.reclaimable = true ↔ Reclaimable s scope consumer := by
  obtain ⟨row, e, loaded, -, reclaimable⟩ := materialFactRow_ok h
  rw [reclaimable, Bool.and_eq_true, List.isEmpty_iff]
  constructor
  · rintro ⟨settled, confirmed⟩
    exact ⟨row, e, loaded, settled, confirmed⟩
  · rintro ⟨row', e', loaded', settled, confirmed⟩
    cases loaded.symm.trans loaded'
    exact ⟨settled, confirmed⟩

omit [ResourceNaming] [JournalNaming] [RecordEncoding] in
theorem settled_idle {e : Execution} {admission : Option AdmissionStatus}
    (settled : materialSettled e admission = true) :
    e.snapshot.attempt.all (fun a => a.termination.isSome || a.assessment.isSome) = true := by
  cases found : e.snapshot.attempt with
  | none => rfl
  | some a =>
    rw [Option.all_some]
    by_contra running
    rw [Bool.not_eq_true, Bool.or_eq_false_iff] at running
    obtain ⟨unended, unassessed⟩ := running
    rw [Option.isSome_eq_false_iff, Option.isNone_iff_eq_none] at unended unassessed
    have effect : AttemptSnapshot.effectAssessment a = none := by
      simp [AttemptSnapshot.effectAssessment, unassessed]
    have phase : e.phase = .starting ∨ e.phase = .running ∨ e.phase = .outcomeUnknown := by
      unfold Execution.phase
      rw [found]
      cases dispatch : a.dispatch <;> simp [unended, unassessed, dispatch]
    unfold materialSettled at settled
    rcases phase with phase | phase | phase <;> simp [phase, found, effect] at settled

omit [ResourceNaming] [JournalNaming] in
theorem Reclaimable.unsafe_change {s : Store} (h : Reclaimable s scope consumer) :
    ∃ row, s.tables.executions.lookup scope = some row ∧ unsafeChange s.tables scope = true := by
  obtain ⟨row, e, loaded, settled, -⟩ := h
  have loaded := loadExecution_ok loaded
  have idle := settled_idle settled
  rw [loaded.snapshot] at idle
  exact ⟨row, loaded.found, by simpa [unsafeChange, loaded.found] using idle⟩

omit [ResourceNaming] [JournalNaming] in
theorem Reclaimable.kept {s s' : Store} (h : Reclaimable s scope consumer) (limits : s'.limits = s.limits)
    (kept : Kept s.tables s'.tables) : Reclaimable s' scope consumer := by
  obtain ⟨row, found, unsafe_⟩ := h.unsafe_change
  obtain ⟨row', e, loaded, settled, confirmed⟩ := h
  have found' := kept.row scope row unsafe_ found
  have receipts := kept.receipts scope row unsafe_ found
  refine ⟨row', e, ?_, ?_, ?_⟩
  · rw [← loaded]
    unfold loadExecution loadPlan
    rw [limits, found, found']
  · unfold latestAdmission at settled ⊢
    rw [receipts]
    exact settled
  · unfold unconfirmed at confirmed ⊢
    rw [List.filter_eq_nil_iff] at confirmed ⊢
    intro r mem
    obtain ⟨stored, delivered, rfl⟩ := List.mem_map.mp mem
    by_cases own : stored.receipt.scope = scope
    · have before : stored ∈ s.tables.receipts := by
        have here : stored ∈ s'.tables.receipts.filter (·.receipt.scope == scope) :=
          List.mem_filter.mpr ⟨delivered, beq_iff_eq.mpr own⟩
        rw [receipts] at here
        exact (List.mem_filter.mp here).1
      have seen := confirmed stored.receipt (List.mem_map.mpr ⟨stored, before, rfl⟩)
      simp only [own, beq_self_eq_true, Bool.true_and, Bool.not_eq_true', Bool.not_eq_false] at seen ⊢
      rw [List.contains_iff_mem] at seen ⊢
      exact kept.confirmations _ seen
    · simp [own]

end Facts

/-- What an accepted checkpoint still guarantees. -/
structure ProofSound (c d : Connection) : Prop where
  present : ∀ scope, d.store.tables.executions.lookup scope ≠ none →
    c.store.tables.executions.lookup scope ≠ none
  reclaimable : ∀ scope consumer, Reclaimable c.store scope consumer → Reclaimable d.store scope consumer
  facts : ∀ host host' scope consumer fact fact',
    materialFactRow c.store host consumer scope = .ok fact → fact.reclaimable = true →
    materialFactRow d.store host' consumer scope = .ok fact' →
    fact'.reclaimable = true ∧ fact'.input = fact.input
  /-- Reclaimable material belongs to no running attempt. -/
  idle : ∀ scope consumer, Reclaimable c.store scope consumer →
    ∃ row, d.store.tables.executions.lookup scope = some row ∧
      row.snapshot.attempt.all (fun a => a.termination.isSome || a.assessment.isSome) = true

end Runs

section Samples
open LifecycleRuns
attribute [local instance] sampleResources sampleNaming sampleEncoding

def confirmations (s : Store) : List (Environment × Call) :=
  s.tables.receipts.map fun row =>
    (sampleEnvironment 4, .confirm row.receipt.scope sampleConsumer row.receipt.eventId)

def settledStore : Store :=
  let s := (performed roomyStore undispatchedCalls).2
  (performed s (confirmations s)).2

def settledConnection : Connection := ⟨settledStore, 1, 0⟩

def sampleReclaimable (c : Connection) : Option Bool :=
  ((materialFactRow c.store (sampleEnvironment 0).host sampleConsumer sampleScope).toOption).map
    (·.reclaimable)

def settledCheckpoint : MaterialCheckpoint :=
  ⟨1, settledStore.materialSafety, 0, settledStore.tables.receipts.length⟩

end Samples

end RssMdmAgent.JournalMaterial
