import RssMdmAgent.JournalDelivery
import RssMdmAgent.JournalSnapshots

set_option autoImplicit false

/-! # Recorded admission decisions -/

namespace RssMdmAgent.JournalAdmissions
open ContractIdentity ContractPlan ProgressHistory ApplicationModel
open LifecycleModel LifecycleState LifecycleSteps JournalModel KeyedTable JournalStore
open JournalOperations JournalSteps JournalEffects JournalRuns JournalReceipts JournalSnapshots
open JournalDelivery TransitionRuns
open ProgramInstructions (ResourceNaming)

def unevaluated (outcome : Outcome) : Bool := outcome == .stale || outcome == .duplicate

def beginDecision (row : ReceiptRow) : Option AdmissionStatus :=
  if (begunAttempt row.intent).isSome && !unevaluated row.receipt.outcome then
    some (if row.receipt.outcome = .changed then .admitted else .denied)
  else none

def lastDecision (t : Tables) (scope : Scope) : Option AdmissionStatus :=
  (t.receipts.filter (·.receipt.scope == scope)).reverse.findSome? beginDecision

section Steps
variable [JournalNaming]

def Overtaken (o : Operation) : Prop :=
  ∃ op scope input row w w', o.call = .execution op scope input ∧ isBegin input.record = true ∧
    o.store.tables.executions.lookup scope = some row ∧
    input.record.expectedRevision < row.revision ∧
    GatePassed o.store.limits o.store.tables o.env.host row.plan input.record w w'

variable [ResourceNaming] {t t' : Tables} {limits : StoreLimits} {host : JournalHost} {c : Call}
  {reply : Reply}

omit [JournalNaming] [ResourceNaming] in
theorem begunAttempt_isSome {scope : Scope} {event : EventRecord} :
    (begunAttempt ⟨scope, .execution, .execution event⟩).isSome = isBegin event := by
  unfold begunAttempt isBegin
  dsimp only
  split
  · next same =>
    cases same
    rfl
  · next other =>
    split
    · exact absurd rfl (other _ _ _ _ _)
    · rfl

omit [JournalNaming] [ResourceNaming] in
theorem evaluateInput_kept {e : Execution} {input : Input} {now : Nat} {ev : Evaluation}
    (h : e.evaluateInput input now = .ok ev) (kept : ev.transition = none) :
    (∃ last, e.snapshot.lastEvent = some last ∧ last.id = input.record.id) ∨
      ev.outcome = .stale ∧ input.record.expectedRevision < e.snapshot.revision := by
  obtain ⟨directive, -, h⟩ := bind_ok.mp h
  split at h
  · next repeated =>
    obtain ⟨last, found, same⟩ := (Option.any_eq_true _ _).mp repeated
    exact .inl ⟨last, found, by simpa using same⟩
  split at h
  · next behind =>
    cases h
    exact .inr ⟨rfl, behind⟩
  split at h
  · cases h
  obtain ⟨snapshot, -, h⟩ := bind_ok.mp h
  obtain ⟨next, -, h⟩ := bind_ok.mp h
  obtain ⟨after, -, h⟩ := bind_ok.mp h
  cases h
  cases kept

omit [JournalNaming] [ResourceNaming] in
theorem prepared_row {base : Tables} {w : Write} {outcome : Outcome} {revision : Nat}
    {audit : AuditRecord} {receipt : Receipt} {row : ReceiptRow}
    (prepared : Prepared limits base w outcome revision audit t' receipt)
    (receipts : base.receipts = t.receipts) (appended : t'.receipts = t.receipts ++ [row]) :
    row.receipt.outcome = outcome ∧
      row.receipt.admission = audit.admission.map (admissionStatus outcome) ∧ row.intent = w.intent := by
  obtain ⟨audit', rfl⟩ := prepared.tables
  obtain rfl := prepared.made
  rw [show (base.recorded _ w.now).receipts = base.receipts ++ [_] from rfl, receipts,
    List.append_cancel_left_eq, List.singleton_inj] at appended
  rw [← appended]
  exact ⟨rfl, rfl, rfl⟩

omit [JournalNaming] [ResourceNaming] in
theorem beginDecision_other {row : ReceiptRow} (other : begunAttempt row.intent = none) :
    beginDecision row = none := by
  simp [beginDecision, other]

omit [JournalNaming] [ResourceNaming] in
theorem beginDecision_execution {row : ReceiptRow} {scope : Scope} {event : EventRecord}
    (meant : row.intent = ⟨scope, .execution, .execution event⟩) :
    beginDecision row = if isBegin event && !unevaluated row.receipt.outcome then
      some (if row.receipt.outcome = .changed then .admitted else .denied) else none := by
  unfold beginDecision
  rw [meant, begunAttempt_isSome]

omit [ResourceNaming] in
theorem refusal_decides {row : ExecutionRow} {current : Execution} {input : Input} {w w' : Write}
    {outcome : Outcome} {admission : Option Bool}
    (refusal : Refusal limits t host row current input w w' outcome admission)
    (fresh : ∀ last, current.snapshot.lastEvent = some last → last.id ≠ input.record.id)
    (ahead : isBegin input.record = true → GatePassed limits t host row.plan input.record w w' →
      current.snapshot.revision ≤ input.record.expectedRevision) :
    admission.map (admissionStatus outcome) =
      if isBegin input.record && !unevaluated outcome then
        some (if outcome = .changed then .admitted else .denied) else none := by
  cases refusal with
  | gate begins => simp [begins, unevaluated, admissionStatus]
  | lifecycle passed evaluated =>
    cases begins : isBegin input.record <;> simp [unevaluated, admissionStatus]
  | @unchanged evaluation passed evaluated kept =>
    cases begins : isBegin input.record with
    | false => simp
    | true =>
      exfalso
      rcases evaluateInput_kept evaluated kept with ⟨last, found, same⟩ | ⟨-, behind⟩
      · exact fresh last found same
      · exact absurd (ahead begins passed) (Nat.not_le.mpr behind)

theorem effect_decides {row : ReceiptRow} (coherent : Coherent t) (h : Effect limits host t c t' reply)
    (appended : t'.receipts = t.receipts ++ [row])
    (ahead : ∀ op scope input stored w w', c = .execution op scope input → isBegin input.record = true →
      t.executions.lookup scope = some stored →
      GatePassed limits t host stored.plan input.record w w' →
      stored.revision ≤ input.record.expectedRevision) : row.receipt.admission = beginDecision row := by
  have quiet : ∀ {admission : Option Bool} {outcome : Outcome}, admission = none →
      begunAttempt row.intent = none → row.receipt.admission = admission.map (admissionStatus outcome) →
      row.receipt.admission = beginDecision row := by
    rintro admission outcome rfl other same
    rw [same, beginDecision_other other]
    rfl
  cases h with
  | openedAgain started silent prepared =>
    obtain ⟨-, admission, meant⟩ := prepared_row prepared rfl appended
    exact quiet silent (by rw [meant, started.meant]; rfl) admission
  | opened started created fresh silent reserved prepared =>
    obtain ⟨-, admission, meant⟩ := prepared_row prepared rfl appended
    exact quiet silent (by rw [meant, started.meant]; rfl) admission
  | @refused op scope input w w' stored current outcome audit receipt _ started later loaded fresh
      refusal prepared =>
    obtain ⟨outcome', admission, meant⟩ := prepared_row prepared rfl appended
    rw [admission, beginDecision_execution (by rw [meant, later.meant, started.meant]), outcome']
    apply refusal_decides refusal
    · intro last found same
      rw [loaded.snapshot] at found
      exact (coherent.rows scope stored loaded.found).event last found (by rw [same]; exact fresh)
    · intro begins passed
      rw [loaded.snapshot, loaded.revision]
      exact ahead op scope input stored w w' rfl begins loaded.found passed
  | @transitioned op scope input w w' stored current next receipt _ started later accepted =>
    obtain ⟨attempts, claims, claims', audit, decided, -, -, prepared⟩ := accepted.written
    obtain ⟨outcome', admission, meant⟩ := prepared_row prepared rfl appended
    rw [admission, beginDecision_execution (by rw [meant, later.meant, started.meant]), outcome',
      decided]
    cases isBegin input.record <;> rfl
  | interactionOpened started planned created fresh silent prepared =>
    obtain ⟨-, admission, meant⟩ := prepared_row prepared rfl appended
    exact quiet silent (by rw [meant, started.meant]; rfl) admission
  | interactionKept started later keyed silent prepared =>
    obtain ⟨keys, rfl⟩ := insertInteractionKey_ok keyed
    obtain ⟨-, admission, meant⟩ := prepared_row prepared rfl appended
    exact quiet silent (by rw [meant, later.meant, started.meant]; rfl) admission
  | interactionMoved started later loaded keyed evaluated offered current silent prepared =>
    obtain ⟨keys, rfl⟩ := insertInteractionKey_ok keyed
    obtain ⟨-, admission, meant⟩ := prepared_row prepared rfl appended
    exact quiet silent (by rw [meant, later.meant, started.meant]; rfl) admission
  | confirmed | captured | progressed | requested => simp at appended

end Steps

section Runs
variable [ResourceNaming] [JournalNaming] [RecordEncoding] {labels : List Operation} {o : Operation}
  {t t' : Tables}

def Decided (t : Tables) : Prop := ∀ row ∈ t.receipts, row.receipt.admission = beginDecision row

theorem Decided.step (h : Decided t) (coherent : Coherent t) (operates : Operates t o t')
    (ahead : ¬ Overtaken o) : Decided t' := by
  rcases operates_recorded operates with ⟨-, receipts, -⟩ | ⟨reply, row, recorded, -⟩
  · unfold Decided
    rwa [receipts]
  have decided : row.receipt.admission = beginDecision row := by
    rcases operates.effect with rfl | ⟨reply', effect⟩
    · have := recorded.appended
      simp at this
    · refine effect_decides coherent effect recorded.appended ?_
      intro op scope input stored w w' called begins found passed
      by_contra behind
      refine ahead ⟨op, scope, input, stored, w, w', called, begins, ?_, Nat.not_le.mp behind, ?_⟩
      · rw [operates.before]
        exact found
      · rw [operates.before]
        exact passed
  intro row' mem
  rw [recorded.appended] at mem
  rcases List.mem_append.mp mem with mem | mem
  · exact h row' mem
  · rw [List.mem_singleton.mp mem]
    exact decided

omit [ResourceNaming] [JournalNaming] [RecordEncoding] in
theorem Decided.latest (h : Decided t) (scope : Scope) : latestAdmission t scope = lastDecision t scope := by
  unfold latestAdmission lastDecision
  have same : ∀ rows : List ReceiptRow, (∀ row ∈ rows, row ∈ t.receipts) →
      rows.findSome? (·.receipt.admission) = rows.findSome? beginDecision := by
    intro rows stored
    induction rows with
    | nil => rfl
    | cons row rest ih =>
      rw [List.findSome?_cons, List.findSome?_cons, h row (stored row (List.mem_cons_self ..)),
        ih fun row' mem => stored row' (List.mem_cons_of_mem _ mem)]
  apply same
  intro row mem
  exact List.mem_of_mem_filter (List.mem_reverse.mp mem)

def Idle (s : Snapshot) : Prop := s.attempt = none ∧ s.cancelRequested = false

/-- Only real decisions are recorded as admissions, and the projections read the last of them. -/
structure RealAdmissions (t : Tables) : Prop where
  silent : ∀ row ∈ t.receipts, row.receipt.outcome = .stale ∨ row.receipt.outcome = .duplicate →
    row.receipt.admission = none
  latest : ∀ scope, latestAdmission t scope = lastDecision t scope
  neverDispatched : ∀ scope s, Idle s →
    (deliveryTerminal s (latestAdmission t scope) = some .neverDispatched ↔
      lastDecision t scope = some .denied)
  admissionDenied : ∀ scope (e : Execution) pending, Idle e.snapshot →
    (taskPhase e (latestAdmission t scope) pending = .admissionDenied ↔
      lastDecision t scope = some .denied)
  reclaimable : ∀ scope (e : Execution), Idle e.snapshot →
    (materialSettled e (latestAdmission t scope) = true ↔ lastDecision t scope = some .denied)

section Projections
variable {s : Snapshot} {e : Execution} {admission : Option AdmissionStatus}

omit [ResourceNaming] [JournalNaming] [RecordEncoding]

theorem deliveryTerminal_idle (idle : Idle s) :
    deliveryTerminal s admission = some .neverDispatched ↔ admission = some .denied := by
  unfold deliveryTerminal Snapshot.neverDispatched Snapshot.noEffect
  rw [idle.1, idle.2]
  by_cases denied : admission = some .denied <;> simp [denied]

theorem phase_idle (idle : Idle e.snapshot) :
    e.phase = .received ∨ e.phase = .prepared ∨ e.phase = .waiting := by
  unfold Execution.phase
  rw [idle.1, idle.2]
  cases e.snapshot.preparation <;> simp

theorem taskPhase_idle {pending : Bool} (idle : Idle e.snapshot) :
    taskPhase e admission pending = .admissionDenied ↔ admission = some .denied := by
  unfold taskPhase
  simp only [idle.1, idle.2, Bool.false_and, Bool.false_eq_true, if_false, Option.isNone_none,
    Bool.not_false, Bool.true_and]
  rcases phase_idle idle with phase | phase | phase <;> rw [phase] <;>
    rcases admission with _ | _ | _ <;> cases pending <;> simp

theorem materialSettled_idle (idle : Idle e.snapshot) :
    materialSettled e admission = true ↔ admission = some .denied := by
  unfold materialSettled
  simp only [idle.1, idle.2]
  rcases phase_idle idle with phase | phase | phase <;> rw [phase] <;> simp

end Projections

/-- In every run without an overtaken begin command, only real decisions count as admissions. -/
theorem real_admissions {authority : Authority} (run : Runs Operates (Tables.empty authority) labels t)
    (ahead : ∀ o ∈ labels, ¬ Overtaken o) : RealAdmissions t := by
  have decided : Coherent t ∧ ((∀ o ∈ labels, ¬ Overtaken o) → Decided t) := by
    apply run.history fun labels t => Coherent t ∧ ((∀ o ∈ labels, ¬ Overtaken o) → Decided t)
    · exact ⟨.empty authority, fun _ row mem => by cases mem⟩
    · intro done t o t' h operates
      refine ⟨h.1.step operates, fun ahead => ?_⟩
      exact (h.2 fun o' mem => ahead o' (List.mem_append_left _ mem)).step h.1 operates
        (ahead o (List.mem_append_right _ (List.mem_singleton_self o)))
  have decided := decided.2 ahead
  refine ⟨fun row mem outcome => ?_, decided.latest, fun scope s idle => ?_,
    fun scope e pending idle => ?_, fun scope e idle => ?_⟩
  · rw [decided row mem]
    rcases outcome with outcome | outcome <;> simp [beginDecision, unevaluated, outcome]
  · rw [decided.latest]
    exact deliveryTerminal_idle idle
  · rw [decided.latest]
    exact taskPhase_idle idle
  · rw [decided.latest]
    exact materialSettled_idle idle

end Runs

section Samples
open LifecycleRuns
attribute [local instance] sampleResources sampleNaming sampleEncoding

def behind (o : Operation) : Bool :=
  match o.call with
  | .execution _ scope input => isBegin input.record &&
    (o.store.tables.executions.lookup scope).any fun row =>
      decide (input.record.expectedRevision < row.revision)
  | _ => false

theorem not_overtaken {labels : List Operation} (ahead : labels.all (!behind ·) = true) :
    ∀ o ∈ labels, ¬ Overtaken o := by
  rintro o mem ⟨op, scope, input, row, w, w', called, begins, found, late, -⟩
  have ahead := List.all_eq_true.mp ahead o mem
  simp [behind, called, begins, found, late] at ahead

theorem real_admissions_sample :
    RealAdmissions (performed roomyStore sampleCalls).2.tables ∧
      latestAdmission (performed roomyStore sampleCalls).2.tables sampleScope = some .admitted :=
  ⟨real_admissions (performed_runs sampleCalls roomyStore) (not_overtaken (by decide +kernel)),
    by decide +kernel⟩

def overtakenCalls : List (Environment × Call) :=
  sampleCalls ++ [sampleInput "late" (.refl true) 4
    (.command ⟨⟨"event-2", .refl true⟩, 1, .beginAttempt secondAttempt processRunner .real⟩)]

/-- An overtaken begin command is stored as a denial, over the admission that still stands. -/
theorem overtaken_recorded_denied :
    Runs Operates (Tables.empty roomyStore.authority) (performed roomyStore overtakenCalls).1
        (performed roomyStore overtakenCalls).2.tables ∧
      ((performed roomyStore overtakenCalls).2.tables.receipts.map fun row =>
          (row.receipt.outcome, row.receipt.admission)) =
        [(.changed, none), (.changed, none), (.changed, some .admitted), (.stale, some .denied)] ∧
      latestAdmission (performed roomyStore overtakenCalls).2.tables sampleScope = some .denied ∧
      lastDecision (performed roomyStore overtakenCalls).2.tables sampleScope = some .admitted :=
  ⟨performed_runs overtakenCalls roomyStore, by decide +kernel, by decide +kernel, by decide +kernel⟩

end Samples

end RssMdmAgent.JournalAdmissions
