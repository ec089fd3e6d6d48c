import RssMdmAgent.JournalSnapshots

set_option autoImplicit false

/-! # Receipt slots reserved for terminal records -/

namespace RssMdmAgent.JournalCapacity
open BoundedArithmetic ContractIdentity ContractPlan ProgressHistory ApplicationModel
open LifecycleModel LifecycleState LifecycleSteps JournalModel KeyedTable JournalStore
open JournalOperations JournalSteps JournalEffects JournalRuns JournalReceipts JournalSnapshots
open TransitionRuns
open ProgramInstructions (ResourceNaming)
open InteractionModel (Reference)
open InteractionState (Interaction)

/-- The records that an execution keeps a slot for. -/
inductive Obligation where
  | cancel
  | uncertainty
  | termination
  | initialAssessment
  | finalAssessment
  deriving DecidableEq, Repr

def holds (r : TerminalReserve) : Obligation → Bool
  | .cancel => r.cancel
  | .uncertainty => r.uncertainty
  | .termination => r.termination
  | .initialAssessment => r.initialAssessment
  | .finalAssessment => r.finalAssessment

/-- A change of the snapshot that records an obligation for the first time. -/
def Records (s s' : Snapshot) (obligation : Obligation) : Prop :=
  match obligation with
  | .cancel => s.cancelRequested = false ∧ s'.cancelRequested = true
  | .uncertainty => ∃ a a', s.attempt = some a ∧ s'.attempt = some a' ∧
    a.dispatch.isUnknown = false ∧ a'.dispatch.isUnknown = true
  | .termination => ∃ a a', s.attempt = some a ∧ s'.attempt = some a' ∧
    a.termination = none ∧ a'.termination.isSome = true
  | .initialAssessment => ∃ a a', s.attempt = some a ∧ s'.attempt = some a' ∧
    a.assessment = none ∧ a'.assessment.isSome = true
  | .finalAssessment => ∃ a a', s.attempt = some a ∧ s'.attempt = some a' ∧ ¬ Assessed a ∧ Assessed a'

def owed (s : Snapshot) : TerminalReserve :=
  match s.attempt with
  | none => if s.cancelRequested then .released else .full
  | some a =>
    if a.assessment.any fun o => settledAssessment o.observation then .released
    else ⟨!s.cancelRequested, !a.dispatch.isUnknown, a.termination.isNone, a.assessment.isNone, true⟩

section Reserves
variable {s s' : Snapshot} {r r' : TerminalReserve} {obligation : Obligation}

theorem toNat_le {a b : Bool} (h : a = true → b = true) : a.toNat ≤ b.toNat := by
  cases a <;> cases b <;> simp_all

theorem count_lt (shrinks : ∀ o, holds r' o = true → holds r o = true)
    (held : holds r obligation = true) (lost : holds r' obligation = false) : r'.count < r.count := by
  have cancel := toNat_le (shrinks .cancel)
  have uncertainty := toNat_le (shrinks .uncertainty)
  have termination := toNat_le (shrinks .termination)
  have initial := toNat_le (shrinks .initialAssessment)
  have final := toNat_le (shrinks .finalAssessment)
  unfold TerminalReserve.count
  cases obligation <;> simp only [holds] at held lost <;>
    simp only [held, lost, holds, Bool.toNat_true, Bool.toNat_false] at * <;> omega

theorem owed_settled {a : AttemptSnapshot} (found : s.attempt = some a) (settled : Assessed a) :
    owed s = .released := by
  unfold owed
  rw [found]
  exact if_pos settled

theorem owed_open {a : AttemptSnapshot} (found : s.attempt = some a) (open_ : ¬ Assessed a) :
    owed s = ⟨!s.cancelRequested, !a.dispatch.isUnknown, a.termination.isNone, a.assessment.isNone,
      true⟩ := by
  unfold owed
  rw [found]
  exact if_neg open_

theorem AttemptKept.assessed {a a' : AttemptSnapshot} (kept : AttemptKept a a') (settled : Assessed a) :
    Assessed a' := by
  unfold Assessed
  rw [kept.final settled]
  exact settled

theorem terminalReserve_advances {event : EventRecord} (ordinary : isBegin event = false)
    (advances : Advances s s') : terminalReserve s s' (owed s) event = owed s' := by
  have continued := advances.attempt
  have cancelled := advances.cancelRequested
  unfold terminalReserve
  rw [ordinary]
  generalize found : s.attempt = current at continued
  generalize found' : s'.attempt = next at continued
  cases continued with
  | idle =>
    simp only [owed, found, found', Option.any_none, Bool.false_and, Bool.false_eq_true, if_false]
    cases before : s.cancelRequested <;> cases after : s'.cancelRequested <;>
      simp_all [TerminalReserve.released, TerminalReserve.full]
  | @active a a' kept =>
    by_cases settled : Assessed a
    · have settled' := AttemptKept.assessed kept settled
      rw [owed_settled found' settled']
      simp only [Bool.false_eq_true, if_false]
      exact if_pos settled'
    by_cases settled' : Assessed a'
    · rw [owed_settled found' settled']
      simp only [Bool.false_eq_true, if_false]
      exact if_pos settled'
    rw [owed_open found settled, owed_open found' settled']
    have unsure := kept.unsure
    have ended : a.termination.isSome = true → a'.termination.isSome = true := by
      intro h
      obtain ⟨t, ended⟩ := Option.isSome_iff_exists.mp h
      rw [kept.ended t ended]
      rfl
    have assessed := kept.assessed
    unfold Assessed at settled'
    simp only [Option.any_some, Bool.false_eq_true, if_false, if_neg settled']
    cases c : s.cancelRequested <;> cases c' : s'.cancelRequested <;>
      cases u : a.dispatch.isUnknown <;> cases u' : a'.dispatch.isUnknown <;>
      cases e : a.termination <;> cases e' : a'.termination <;>
      cases i : a.assessment <;> cases i' : a'.assessment <;> simp_all

theorem records_lost (records : Records s s' obligation) : holds (owed s') obligation = false := by
  have settled : ∀ {a : AttemptSnapshot}, s'.attempt = some a → Assessed a →
      holds (owed s') obligation = false := by
    intro a found settled
    rw [owed_settled found settled]
    cases obligation <;> rfl
  cases obligation with
  | cancel =>
    have cancelled : s'.cancelRequested = true := records.2
    cases found : s'.attempt with
    | none => simp [owed, found, cancelled, TerminalReserve.released, holds]
    | some a =>
      by_cases final : Assessed a
      · exact settled found final
      · simp [owed_open found final, holds, cancelled]
  | uncertainty =>
    obtain ⟨a, a', -, found, -, unknown⟩ := records
    by_cases final : Assessed a'
    · exact settled found final
    · simp [owed_open found final, holds, unknown]
  | termination =>
    obtain ⟨a, a', -, found, -, ended⟩ := records
    by_cases final : Assessed a'
    · exact settled found final
    · simpa [owed_open found final, holds] using ended
  | initialAssessment =>
    obtain ⟨a, a', -, found, -, assessed⟩ := records
    by_cases final : Assessed a'
    · exact settled found final
    · simpa [owed_open found final, holds] using assessed
  | finalAssessment =>
    obtain ⟨a, a', -, found, -, final⟩ := records
    exact settled found final

theorem released_holds (o : Obligation) : holds .released o = false := by
  cases o <;> rfl

/-- Without a new attempt, nothing that was given back is owed again. -/
theorem owed_advances (advances : Advances s s') (o : Obligation) (h : holds (owed s') o = true) :
    holds (owed s) o = true := by
  have continued := advances.attempt
  have cancelled := advances.cancelRequested
  generalize found : s.attempt = current at continued
  generalize found' : s'.attempt = next at continued
  cases continued with
  | idle =>
    simp only [owed, found, found'] at h ⊢
    cases before : s.cancelRequested with
    | true =>
      rw [cancelled before, if_pos rfl, released_holds] at h
      cases h
    | false => cases o <;> rfl
  | @active a a' kept =>
    by_cases settled : Assessed a
    · rw [owed_settled found' (AttemptKept.assessed kept settled), released_holds] at h
      cases h
    by_cases settled' : Assessed a'
    · rw [owed_settled found' settled', released_holds] at h
      cases h
    rw [owed_open found' settled'] at h
    rw [owed_open found settled]
    cases o with
    | cancel =>
      simp only [holds, Bool.not_eq_true'] at h ⊢
      by_contra requested
      rw [cancelled (by simpa using requested)] at h
      cases h
    | uncertainty =>
      simp only [holds, Bool.not_eq_true'] at h ⊢
      by_contra unknown
      rw [kept.unsure (by simpa using unknown)] at h
      cases h
    | termination =>
      simp only [holds, Option.isNone_iff_eq_none] at h ⊢
      by_contra ended
      obtain ⟨t, ended⟩ := Option.ne_none_iff_exists'.mp ended
      rw [kept.ended t ended] at h
      cases h
    | initialAssessment =>
      simp only [holds, Option.isNone_iff_eq_none] at h ⊢
      by_contra assessed
      have := kept.assessed (Option.isSome_iff_ne_none.mpr assessed)
      rw [h] at this
      cases this
    | finalAssessment => rfl

end Reserves

section Slots
variable {t t' : Tables}

structure Reserved (t : Tables) : Prop where
  executions : ∀ scope row, t.executions.lookup scope = some row →
    row.reserve = owed row.snapshot ∧ row.revision ≤ t.receipts.length
  interactions : ∀ id row, t.interactions.lookup id = some row →
    row.reserve = if row.snapshot.status = .pending then 1 else 0

theorem Reserved.empty (authority : Authority) : Reserved (Tables.empty authority) where
  executions _ _ found := by cases found
  interactions _ _ found := by cases found

theorem Reserved.of_tables (h : Reserved t) (executions : t'.executions = t.executions)
    (interactions : t'.interactions = t.interactions) (grown : t.receipts.length ≤ t'.receipts.length) :
    Reserved t' where
  executions scope row found := by
    rw [executions] at found
    obtain ⟨reserve, revision⟩ := h.executions scope row found
    exact ⟨reserve, Nat.le_trans revision grown⟩
  interactions id row found := by
    rw [interactions] at found
    exact h.interactions id row found

theorem Reserved.execution {scope : Scope} {row : ExecutionRow} (h : Reserved t)
    (executions : t'.executions = t.executions.insert scope row)
    (interactions : t'.interactions = t.interactions) (grown : t.receipts.length ≤ t'.receipts.length)
    (reserve : row.reserve = owed row.snapshot) (revision : row.revision ≤ t'.receipts.length) :
    Reserved t' where
  executions other found stored := by
    rw [executions] at stored
    rcases lookup_insert_cases stored with ⟨rfl, rfl⟩ | ⟨-, stored⟩
    · exact ⟨reserve, revision⟩
    · obtain ⟨reserve, revision⟩ := h.executions other found stored
      exact ⟨reserve, Nat.le_trans revision grown⟩
  interactions id found stored := by
    rw [interactions] at stored
    exact h.interactions id found stored

theorem Reserved.interaction {id : Reference} {row : InteractionRow} (h : Reserved t)
    (executions : t'.executions = t.executions) (interactions : t'.interactions = t.interactions.insert id row)
    (grown : t.receipts.length ≤ t'.receipts.length)
    (reserve : row.reserve = if row.snapshot.status = .pending then 1 else 0) : Reserved t' where
  executions scope found stored := by
    rw [executions] at stored
    obtain ⟨reserve, revision⟩ := h.executions scope found stored
    exact ⟨reserve, Nat.le_trans revision grown⟩
  interactions other found stored := by
    rw [interactions] at stored
    rcases lookup_insert_cases stored with ⟨rfl, rfl⟩ | ⟨-, stored⟩
    · exact reserve
    · exact h.interactions other found stored

theorem interaction_restored {snapshot : InteractionModel.Snapshot} {limits : InteractionModel.Limits}
    {i : Interaction} (h : InteractionState.restore snapshot limits = .ok i) :
    i.snapshot = snapshot ∧ i.limits = limits := by
  unfold InteractionState.restore at h
  split at h
  · cases h
    exact ⟨rfl, rfl⟩
  · cases h

theorem proposed_terminal {snapshot : InteractionModel.Snapshot} {command : InteractionModel.Command}
    {now : Nat} {status : InteractionModel.Status} {outcome : InteractionModel.Outcome}
    (h : InteractionState.proposed snapshot command now = .ok (some (status, outcome))) :
    status ≠ .pending := by
  unfold InteractionState.proposed at h
  split at h
  · cases h
    simp
  split at h
  · cases h
  · cases h
    simp
  · split at h
    · cases h
      simp
    · cases h

theorem evaluate_terminal {i : Interaction} {command : InteractionModel.Command} {now : Nat}
    {evaluation : InteractionState.Evaluation} {transition : InteractionState.Transition}
    (evaluated : i.evaluate command now = .ok evaluation)
    (offered : evaluation.transition = some transition) :
    i.snapshot.status = .pending ∧ transition.next.snapshot.status ≠ .pending ∧
      transition.next.limits = i.limits := by
  unfold Interaction.evaluate at evaluated
  dsimp only at evaluated
  split at evaluated
  · cases evaluated
  split at evaluated
  · split at evaluated
    · cases evaluated
      cases offered
    split at evaluated
    · cases evaluated
    · cases evaluated
      cases offered
  next uncommitted =>
  have pending : i.snapshot.status = .pending := by
    unfold InteractionState.Status.command at uncommitted
    split at uncommitted
    · assumption
    · cases uncommitted
    · cases uncommitted
    · cases uncommitted
  obtain ⟨due, proposal, evaluated⟩ := bind_ok.mp evaluated
  split at evaluated
  · cases evaluated
    cases offered
  next status outcome =>
  obtain ⟨next, restored, evaluated⟩ := bind_ok.mp evaluated
  cases evaluated
  cases offered
  obtain ⟨snapshot, limits⟩ := interaction_restored restored
  refine ⟨pending, ?_, limits⟩
  rw [snapshot]
  exact proposed_terminal proposal

theorem prepared_capacity {limits : StoreLimits} {base : Tables} {w : Write} {outcome : Outcome}
    {revision : Nat} {audit : AuditRecord} {receipt : Receipt}
    (prepared : Prepared limits base w outcome revision audit t' receipt) :
    t'.receipts.length + t'.reserved ≤ limits.maxReceipts ∧
      t'.receipts.length = base.receipts.length + 1 := by
  have capacity := prepared.capacity
  obtain ⟨audit', rfl⟩ := prepared.tables
  have used : (base.recorded ⟨receipt, w.intent, audit'⟩ w.now).receipts.length =
      base.receipts.length + 1 := by
    simp [Tables.recorded]
  have reserved : (base.recorded ⟨receipt, w.intent, audit'⟩ w.now).reserved = base.reserved := rfl
  omega

variable [ResourceNaming]

structure SlotStep (limits : StoreLimits) (t t' : Tables) : Prop where
  reserved : Reserved t → Reserved t'
  used : t'.receipts.length + t'.reserved ≤ limits.maxReceipts ∨
    (t'.receipts = t.receipts ∧ t'.reserved = t.reserved)

theorem transitioned_slots {limits : StoreLimits} {w : Write} {row : ExecutionRow}
    {current next : Execution} {input : Input} {receipt : Receipt}
    (accepted : Transitioned limits t w row current input next t' receipt) : SlotStep limits t t' := by
  obtain ⟨attempts, claims, claims', audit, -, -, -, prepared⟩ := accepted.written
  obtain ⟨capacity, grown⟩ := prepared_capacity prepared
  have grown : t'.receipts.length = t.receipts.length + 1 := grown
  have loaded := accepted.loaded
  obtain ⟨-, revision, -⟩ := Evaluated.lastEvent accepted.evaluated
  refine ⟨fun h => ?_, .inl capacity⟩
  obtain ⟨reserve, bound⟩ := h.executions _ row loaded.found
  obtain ⟨audit', rfl⟩ := prepared.tables
  refine h.execution rfl rfl (by omega) ?_ ?_
  · show terminalReserve row.snapshot next.snapshot row.reserve input.record = owed next.snapshot
    rcases Evaluated.progress accepted.evaluated with ⟨begins, attempt, begun⟩ | ⟨ordinary, advances⟩
    · have open_ : ¬ Assessed attempt := by simp [Assessed, begun.assessment]
      rw [owed_open begun.active open_, begun.cancelRequested.2, begun.dispatch, begun.termination,
        begun.assessment]
      unfold terminalReserve
      rw [begins]
      rfl
    · rw [reserve, ← loaded.snapshot]
      exact terminalReserve_advances ordinary advances
  · show next.snapshot.revision ≤ _
    rw [revision, loaded.snapshot, loaded.revision, grown]
    exact Nat.succ_le_succ bound

variable [JournalNaming]

theorem effect_slots {limits : StoreLimits} {host : JournalHost} {c : Call} {reply : Reply}
    (h : Effect limits host t c t' reply) : SlotStep limits t t' := by
  cases h with
  | openedAgain started quiet prepared =>
    obtain ⟨capacity, grown⟩ := prepared_capacity prepared
    obtain ⟨audit, rfl⟩ := prepared.tables
    exact ⟨fun h => h.of_tables rfl rfl (by omega), .inl capacity⟩
  | @opened op plan w state audit receipt _ started created fresh quiet reserved prepared =>
    obtain ⟨capacity, grown⟩ := prepared_capacity prepared
    have grown : t'.receipts.length = t.receipts.length + 1 := grown
    obtain ⟨-, snapshot, -⟩ := restore_ok created
    obtain ⟨audit, rfl⟩ := prepared.tables
    refine ⟨fun h => h.execution rfl rfl (by omega) ?_ (Nat.zero_le _), .inl capacity⟩
    rw [snapshot]
    rfl
  | refused started later loaded fresh refusal prepared =>
    obtain ⟨capacity, grown⟩ := prepared_capacity prepared
    have grown : t'.receipts.length = t.receipts.length + 1 := grown
    obtain ⟨audit, rfl⟩ := prepared.tables
    exact ⟨fun h => h.of_tables rfl rfl (by omega), .inl capacity⟩
  | transitioned started later accepted => exact transitioned_slots accepted
  | @interactionOpened op scope spec w row state audit receipt _ started planned created fresh quiet
      prepared =>
    obtain ⟨capacity, grown⟩ := prepared_capacity prepared
    have grown : t'.receipts.length = t.receipts.length + 1 := grown
    obtain ⟨snapshot, -⟩ := interaction_restored created
    obtain ⟨audit, rfl⟩ := prepared.tables
    refine ⟨fun h => h.interaction rfl rfl (by omega) ?_, .inl capacity⟩
    rw [snapshot]
    rfl
  | interactionKept started later keyed quiet prepared =>
    obtain ⟨keys, rfl⟩ := insertInteractionKey_ok keyed
    obtain ⟨capacity, grown⟩ := prepared_capacity prepared
    have grown : t'.receipts.length = t.receipts.length + 1 := grown
    obtain ⟨audit, rfl⟩ := prepared.tables
    exact ⟨fun h => h.of_tables rfl rfl (by omega), .inl capacity⟩
  | interactionMoved started later loaded keyed evaluated offered current quiet prepared =>
    obtain ⟨keys, rfl⟩ := insertInteractionKey_ok keyed
    obtain ⟨capacity, grown⟩ := prepared_capacity prepared
    have grown : t'.receipts.length = t.receipts.length + 1 := grown
    obtain ⟨-, terminal, -⟩ := evaluate_terminal evaluated offered
    obtain ⟨audit, rfl⟩ := prepared.tables
    exact ⟨fun h => h.interaction rfl rfl (by omega) (if_neg terminal).symm, .inl capacity⟩
  | confirmed => exact ⟨fun h => h.of_tables rfl rfl (Nat.le_refl _), .inr ⟨rfl, rfl⟩⟩
  | captured => exact ⟨fun h => h.of_tables rfl rfl (Nat.le_refl _), .inr ⟨rfl, rfl⟩⟩
  | progressed => exact ⟨fun h => h.of_tables rfl rfl (Nat.le_refl _), .inr ⟨rfl, rfl⟩⟩
  | requested => exact ⟨fun h => h.of_tables rfl rfl (Nat.le_refl _), .inr ⟨rfl, rfl⟩⟩

end Slots

section Runs
variable [ResourceNaming] [JournalNaming] [RecordEncoding] {t t' : Tables} {o : Operation}
  {labels : List Operation}

structure Slots (limit : Nat) (t : Tables) : Prop where
  reserved : Reserved t
  room : t.receipts.length + t.reserved ≤ limit

theorem Slots.step {limit : Nat} (h : Slots limit t) (operates : Operates t o t')
    (within : o.store.limits.maxReceipts ≤ limit) : Slots limit t' := by
  rcases operates.effect with rfl | ⟨reply, effect⟩
  · exact h
  have step := effect_slots effect
  refine ⟨step.reserved h.reserved, ?_⟩
  rcases step.used with used | ⟨receipts, reserved⟩
  · exact Nat.le_trans used within
  · rw [receipts, reserved]
    exact h.room

theorem runs_slots {authority : Authority} {limit : Nat}
    (run : Runs Operates (Tables.empty authority) labels t)
    (within : ∀ o ∈ labels, o.store.limits.maxReceipts ≤ limit) : Slots limit t := by
  have slots : (∀ o ∈ labels, o.store.limits.maxReceipts ≤ limit) → Slots limit t := by
    apply run.history fun labels t =>
      (∀ o ∈ labels, o.store.limits.maxReceipts ≤ limit) → Slots limit t
    · exact fun _ => ⟨.empty authority, Nat.zero_le _⟩
    · intro done t o t' h operates within
      exact (h fun o' mem => within o' (List.mem_append_left _ mem)).step operates
        (within o (List.mem_append_right _ (List.mem_singleton_self o)))
  exact slots within

end Runs

section Errors
variable {s : Store} {env : Environment} {limits : StoreLimits} {t : Tables} {w : Write}

/-- A capacity error that has nothing to do with receipts. -/
inductive Exhausted (s : Store) (env : Environment) (now : Nat) : Prop where
  | database (fault : env.startFault = some .capacity ∨ env.fault = some .capacity) : Exhausted s env now
  | host {request : AccessRequest} (refused : env.host.authorize request = .error .capacity) :
      Exhausted s env now
  | clock (beyond : maxSigned < now) : Exhausted s env now
  | safety (full : checkedAdd s.materialSafety 1 = none) : Exhausted s env now

/-- The encoded records of a receipt exceed a bound of the store. -/
inductive Oversized [RecordEncoding] (limits : StoreLimits) (receipt : Receipt) (audit : AuditRecord) :
    Prop where
  | receipt (large : limits.maxRecordBytes < RecordEncoding.size (.receipt receipt)) :
      Oversized limits receipt audit
  | audit (large : limits.maxRecordBytes < RecordEncoding.size (.audit audit)) :
      Oversized limits receipt audit
  | event (refused : RecordEncoding.eventAccepted limits.input audit.event = false) :
      Oversized limits receipt audit

theorem guarded_error {ok : Bool} {error error' : JournalError} (h : guarded ok error = .error error') :
    ok = false ∧ error = error' := by
  cases ok with
  | true => cases h
  | false =>
    cases h
    exact ⟨rfl, rfl⟩

theorem raised_error {fault : Option JournalError} {error : JournalError}
    (h : raised fault = .error error) : fault = some error := by
  cases fault with
  | none => cases h
  | some other =>
    cases h
    rfl

theorem integer_error {value : Nat} {error : JournalError} (h : integer value = .error error) :
    maxSigned < value := by
  have := (guarded_error h).1
  simpa using this

def named (audit : AuditRecord) (receipt : Receipt) : AuditRecord :=
  { audit with event := { audit.event with eventId := some receipt.eventId } }

theorem prepare_capacity [RecordEncoding] {outcome : Outcome} {revision : Nat} {audit : AuditRecord}
    (room : t.receipts.length + t.reserved + 1 ≤ limits.maxReceipts)
    (h : w.prepare limits t outcome revision audit = .error .capacity) :
    Oversized limits (w.receipt t outcome revision audit)
      (named audit (w.receipt t outcome revision audit)) := by
  rcases bind_error.mp h with h | ⟨_, -, h⟩
  · have := (guarded_error h).1
    simp only [decide_eq_false_iff_not] at this
    exact absurd room this
  rcases bind_error.mp h with h | ⟨_, -, h⟩
  · cases (guarded_error h).2
  rcases bind_error.mp h with h | ⟨_, -, h⟩
  · exact .event (guarded_error h).1
  rcases bind_error.mp h with h | ⟨_, -, h⟩
  · exact .receipt (Nat.not_le.mp (of_decide_eq_false (guarded_error h).1))
  rcases bind_error.mp h with h | ⟨_, -, h⟩
  · exact .audit (Nat.not_le.mp (of_decide_eq_false (guarded_error h).1))
  · cases h

/-- A new recorded operation fails for its own capacity only in its body. -/
theorem perform_capacity {op : OperationRequestId} {intent : Intent} {access : Access}
    {body : Write → Except JournalError (Tables × CommitOutcome)} {now : Nat}
    (fresh : s.tables.receiptOf op = none) (clock : env.host.reliableNow = .ok now)
    (h : (s.perform env op intent access body).2 = .error .capacity) :
    Exhausted s env now ∨ body ⟨op, intent, now⟩ = .error .capacity := by
  unfold Store.perform Store.start at h
  cases started : (do raised env.startFault; s.knownReceipt env.host op intent access) with
  | error error =>
    rw [started] at h
    cases h
    rcases bind_error.mp started with failed | ⟨_, -, failed⟩
    · exact .inl (.database (.inl (raised_error failed)))
    rcases bind_error.mp failed with failed | ⟨_, -, failed⟩
    · cases (guarded_error failed).2
    rcases bind_error.mp failed with failed | ⟨_, -, failed⟩
    · cases (guarded_error failed).2
    rw [fresh] at failed
    rcases bind_error.mp failed with failed | ⟨_, -, failed⟩
    · exact .inl (.host failed)
    · cases failed
  | ok known =>
    rw [started] at h
    obtain ⟨_, -, started⟩ := bind_ok.mp started
    rcases knownReceipt_ok started with ⟨rfl, -⟩ | ⟨row, found, -⟩
    · dsimp only at h
      cases safety : s.raisedSafety intent.scope with
      | error error =>
        unfold Store.raisedSafety at safety
        split at safety
        · split at safety
          · next full => exact .inl (.safety full)
          · cases safety
        · cases safety
      | ok safety' =>
        rw [safety] at h
        cases time : s.startTime env.host with
        | error error =>
          rw [time] at h
          cases h
          rcases bind_error.mp time with failed | ⟨now', read, failed⟩
          · rw [clock] at failed
            cases failed
          cases clock.symm.trans read
          rcases bind_error.mp failed with failed | ⟨_, -, failed⟩
          · cases (guarded_error failed).2
          rcases bind_error.mp failed with failed | ⟨_, -, failed⟩
          · exact .inl (.clock (integer_error failed))
          · cases failed
        | ok now' =>
          have same : now' = now := by
            obtain ⟨read, same, time⟩ := bind_ok.mp time
            cases clock.symm.trans same
            obtain ⟨_, -, time⟩ := bind_ok.mp time
            obtain ⟨_, -, time⟩ := bind_ok.mp time
            cases time
            rfl
          subst same
          rw [time] at h
          dsimp only [Except.map, Store.commit] at h
          split at h
          · next error failed =>
            cases h
            rcases bind_error.mp failed with failed | ⟨_, -, failed⟩
            · exact .inl (.database (.inr (raised_error failed)))
            · exact .inr failed
          · split at h <;> cases h
    · rw [fresh] at found
      cases found

end Errors

section Discharges
variable [RecordEncoding] {o : Operation} {obligation : Obligation}

/-- A new operation whose input the lifecycle accepts, and that records a held obligation. -/
structure Discharge (o : Operation) (obligation : Obligation) where
  op : OperationRequestId
  scope : Scope
  input : Input
  row : ExecutionRow
  current : Execution
  now : Nat
  evaluation : Evaluation
  transition : Transition
  called : o.call = .execution op scope input
  fresh : o.store.tables.receiptOf op = none
  clock : o.env.host.reliableNow = .ok now
  loaded : loadExecution o.store.limits o.store.tables scope = .ok (row, current)
  evaluated : current.evaluateInput input now = .ok evaluation
  offered : evaluation.transition = some transition
  held : holds row.reserve obligation = true
  records : Records current.snapshot transition.next.snapshot obligation

namespace Discharge
variable (d : Discharge o obligation)

def write : Write := ⟨d.op, ⟨d.scope, .execution, .execution d.input.record⟩, d.now⟩

def audit : AuditRecord :=
  transitionAudit (inputAudit d.row.plan d.input.record d.now) d.input.record false
    d.evaluation.directive

def receipt : Receipt :=
  d.write.receipt o.store.tables .changed d.transition.next.snapshot.revision d.audit

theorem advances : isBegin d.input.record = false ∧
    Advances d.current.snapshot d.transition.next.snapshot := by
  obtain ⟨-, -, evaluated⟩ := evaluateInput_transition d.evaluated d.offered
  rcases Evaluated.progress evaluated with ⟨-, attempt, begins⟩ | ordinary
  · exfalso
    have records := d.records
    have active := begins.active
    cases obligation with
    | cancel =>
      have cancelled : d.transition.next.snapshot.cancelRequested = true := records.2
      rw [begins.cancelRequested.2] at cancelled
      cases cancelled
    | uncertainty =>
      obtain ⟨a, a', -, found, -, unknown⟩ := records
      cases active.symm.trans found
      rw [begins.dispatch] at unknown
      cases unknown
    | termination =>
      obtain ⟨a, a', -, found, -, ended⟩ := records
      cases active.symm.trans found
      rw [begins.termination] at ended
      cases ended
    | initialAssessment =>
      obtain ⟨a, a', -, found, -, assessed⟩ := records
      cases active.symm.trans found
      rw [begins.assessment] at assessed
      cases assessed
    | finalAssessment =>
      obtain ⟨a, a', -, found, -, final⟩ := records
      cases active.symm.trans found
      simp [Assessed, begins.assessment] at final
  · exact ordinary

end Discharge

omit [RecordEncoding] in
theorem passGate_ordinary [JournalNaming] {limits : StoreLimits} {t : Tables} {host : JournalHost}
    {plan : FrozenExecution} {event : EventRecord} {w : Write} {audit : AuditRecord}
    (ordinary : isBegin event = false) :
    passGate limits t host plan event w audit = .ok (.passed w audit false) := by
  unfold passGate
  split
  · cases ordinary
  · rfl

omit [RecordEncoding] in
theorem settle_capacity [ResourceNaming] {t : Tables} {plan : FrozenExecution} {next : Snapshot} :
    settle t plan next ≠ .error .capacity := by
  intro h
  unfold settle at h
  split at h
  · cases h
  · cases h
  split at h
  · cases h
  split at h
  · cases h
  rcases bind_error.mp h with h | ⟨_, -, h⟩
  · unfold attemptClosed at h
    split at h
    · cases h
    · unfold readProgress at h
      split at h
      · cases h
      · split at h <;> cases h
  · cases h

omit [RecordEncoding] in
theorem replace_reserve {t : Tables} {scope : Scope} {row : ExecutionRow}
    (found : t.executions.lookup scope = some row) (next : ExecutionRow) :
    Table.total (fun row => TerminalReserve.count row.reserve) (t.executions.insert scope next) +
        row.reserve.count =
      next.reserve.count + Table.total (fun row => TerminalReserve.count row.reserve) t.executions :=
  total_replace found

theorem discharge_room (d : Discharge o obligation) {limit : Nat} (slots : Slots limit o.store.tables)
    {t : Tables} (receipts : t.receipts = o.store.tables.receipts)
    (executions : t.executions = o.store.tables.executions.insert d.scope
      (nextRow d.row d.transition.next.snapshot d.input.record))
    (interactions : t.interactions = o.store.tables.interactions) :
    t.receipts.length + t.reserved + 1 ≤ limit := by
  have loaded := loadExecution_ok d.loaded
  obtain ⟨reserve, -⟩ := slots.reserved.executions d.scope d.row loaded.found
  obtain ⟨ordinary, advances⟩ := d.advances
  have snapshot : d.row.snapshot = d.current.snapshot := loaded.snapshot.symm
  have next : (nextRow d.row d.transition.next.snapshot d.input.record).reserve =
      owed d.transition.next.snapshot := by
    show terminalReserve d.row.snapshot d.transition.next.snapshot d.row.reserve d.input.record = _
    rw [reserve, snapshot]
    exact terminalReserve_advances ordinary advances
  have held := d.held
  rw [reserve, snapshot] at held
  have freed := count_lt (owed_advances advances) held (records_lost d.records)
  rw [← next, ← snapshot, ← reserve] at freed
  have replaced := replace_reserve loaded.found
    (nextRow d.row d.transition.next.snapshot d.input.record)
  have room := slots.room
  unfold Tables.reserved at room ⊢
  rw [receipts, executions, interactions]
  omega

omit [RecordEncoding] in
theorem map_error {α β : Type} {result : Except JournalError α} {wrap : α → β} {error : JournalError}
    (h : result.map wrap = .error error) : result = .error error := by
  cases result with
  | ok value => cases h
  | error other =>
    cases h
    rfl

omit [RecordEncoding] in
theorem boundedSnapshot_restored {limits : StoreLimits} {e : Execution}
    (validated : limits.validate = .ok ()) (same : e.limits = limits.lifecycle) :
    boundedSnapshot limits e.snapshot = .ok () := by
  have fits : e.snapshot.toJson.size ≤ e.limits.maxSnapshotBytes := by
    obtain ⟨_, -, checks⟩ := bind_ok.mp e.valid
    obtain ⟨_, -, checks⟩ := bind_ok.mp checks
    obtain ⟨_, -, checks⟩ := bind_ok.mp checks
    obtain ⟨_, -, checks⟩ := bind_ok.mp checks
    simpa using require_ok.mp checks
  have within : limits.lifecycle.maxSnapshotBytes ≤ limits.maxRecordBytes := by
    unfold StoreLimits.validate at validated
    split at validated
    · cases validated
    · omega
  rw [same] at fits
  exact guarded_ok.mpr (decide_eq_true (Nat.le_trans fits within))

omit [RecordEncoding] in
theorem maxReceipts_signed {limits : StoreLimits} (validated : limits.validate = .ok ()) :
    limits.maxReceipts ≤ maxSigned := by
  unfold StoreLimits.validate at validated
  split at validated
  · cases validated
  · omega

theorem loadState_limits {limits : StoreLimits} {t : Tables} {scope : Scope} {row : ExecutionRow}
    {e : Execution} (h : loadExecution limits t scope = .ok (row, e)) : e.limits = limits.lifecycle := by
  obtain ⟨row', -, h⟩ := bind_ok.mp h
  obtain ⟨state, restored, h⟩ := bind_ok.mp h
  cases h
  unfold loadState at restored
  split at restored
  · cases restored
  next state' same =>
  obtain ⟨_, -, restored⟩ := bind_ok.mp restored
  cases restored
  exact (restore_ok same).2.2

variable [ResourceNaming] [JournalNaming]

/-- A held obligation finds its slot: its record fails for capacity only outside the receipts. -/
theorem discharge_capacity (d : Discharge o obligation) {limit : Nat}
    (slots : Slots limit o.store.tables) (within : limit ≤ o.store.limits.maxReceipts)
    (validated : o.store.limits.validate = .ok ())
    (h : (Store.call o.store o.env o.call).2 = .error .capacity) :
    Exhausted o.store o.env d.now ∨
      Oversized o.store.limits d.receipt (named d.audit d.receipt) := by
  rw [d.called] at h
  have h := map_error h
  rcases perform_capacity d.fresh d.clock h with exhausted | h
  · exact .inl exhausted
  refine .inr ?_
  have loaded := loadExecution_ok d.loaded
  obtain ⟨ordinary, advances⟩ := d.advances
  obtain ⟨-, expected, evaluated⟩ := evaluateInput_transition d.evaluated d.offered
  unfold inputBody at h
  rcases bind_error.mp h with h | ⟨⟨row, current⟩, same, h⟩
  · rw [show loadExecution o.store.limits o.store.tables _ = _ from d.loaded] at h
    cases h
  cases d.loaded.symm.trans same
  rcases bind_error.mp h with h | ⟨_, -, h⟩
  · cases (guarded_error h).2
  rcases bind_error.mp h with h | ⟨gated, passed, h⟩
  · rw [passGate_ordinary ordinary] at h
    cases h
  rw [passGate_ordinary ordinary] at passed
  cases passed
  dsimp only [evaluateBody] at h
  rw [d.evaluated] at h
  dsimp only at h
  rw [d.offered] at h
  dsimp only at h
  unfold applyTransition at h
  rcases bind_error.mp h with h | ⟨t₁, admitted, h⟩
  · cases h
  cases admitted
  rcases bind_error.mp h with h | ⟨t₂, settled, h⟩
  · exact absurd h settle_capacity
  obtain ⟨claims, rfl, -⟩ := settle_ok settled
  rcases bind_error.mp h with h | ⟨_, -, h⟩
  · rw [boundedSnapshot_restored validated (evaluated.limits.trans (loadState_limits d.loaded))] at h
    cases h
  rcases bind_error.mp h with h | ⟨_, -, h⟩
  · -- every accepted input has its receipt, so the revision stays below the receipts
    obtain ⟨-, revision⟩ := slots.reserved.executions d.scope d.row loaded.found
    have beyond := integer_error h
    have next := (Evaluated.lastEvent evaluated).2.1
    rw [loaded.snapshot, loaded.revision] at next
    have signed := maxReceipts_signed validated
    have room := discharge_room d slots (t := { o.store.tables with
      executions := o.store.tables.executions.insert d.scope
        (nextRow d.row d.transition.next.snapshot d.input.record) }) rfl rfl rfl
    dsimp only at room
    omega
  rcases bind_error.mp h with h | ⟨_, -, h⟩
  · cases (guarded_error h).2
  rcases bind_error.mp h with h | ⟨_, -, h⟩
  · rw [loaded.snapshot] at h
    have oversized := fun room => prepare_capacity room h
    exact oversized (Nat.le_trans (discharge_room d slots rfl rfl rfl) within)
  · cases h

end Discharges

section Settlements
variable [RecordEncoding] [JournalNaming] {o : Operation}

/-- A new operation that the stored interaction answers with its terminal record. -/
structure Settlement (o : Operation) where
  op : OperationRequestId
  scope : Scope
  id : Reference
  command : InteractionModel.Command
  execution : ExecutionRow
  row : InteractionRow
  state : Interaction
  start : Nat
  now : Nat
  evaluation : InteractionState.Evaluation
  transition : InteractionState.Transition
  called : o.call = .interaction op scope id command
  fresh : o.store.tables.receiptOf op = none
  started : o.env.host.reliableNow = .ok start
  clock : o.env.host.refreshedNow = .ok now
  planned : loadPlan o.store.limits o.store.tables scope = .ok execution
  loaded : loadInteraction o.store.limits o.store.tables scope id = .ok (row, state)
  evaluated : state.evaluate command now = .ok evaluation
  offered : evaluation.transition = some transition

namespace Settlement
variable (d : Settlement o)

def audit : AuditRecord :=
  { planAudit d.execution.plan .proposed .interactionOpened d.now with
    reason := .interaction d.evaluation.outcome }

def receipt : Receipt :=
  (⟨d.op, ⟨d.scope, .interaction, .interaction d.id d.command⟩, d.now⟩ : Write).receipt o.store.tables
    (interactionOutcome d.evaluation.outcome) d.transition.next.snapshot.revision d.audit

end Settlement

omit [RecordEncoding] in
theorem loadInteraction_ok {limits : StoreLimits} {t : Tables} {scope : Scope} {id : Reference}
    {row : InteractionRow} {state : Interaction}
    (h : loadInteraction limits t scope id = .ok (row, state)) :
    t.interactions.lookup id = some row ∧ state.snapshot = row.snapshot ∧
      state.limits = limits.interaction := by
  unfold loadInteraction at h
  split at h
  · cases h
  next row' found =>
  split at h
  · cases h
  split at h
  · cases h
  next state' restored =>
  obtain ⟨_, -, h⟩ := bind_ok.mp h
  cases h
  obtain ⟨snapshot, limits⟩ := interaction_restored restored
  exact ⟨found, snapshot, limits⟩

omit [RecordEncoding] [JournalNaming] in
theorem interaction_fits {limits : StoreLimits} {i : Interaction} (validated : limits.validate = .ok ())
    (same : i.limits = limits.interaction) : i.snapshot.toJson.size ≤ limits.maxRecordBytes := by
  have fits : i.snapshot.toJson.size ≤ i.limits.maxSnapshotBytes := by
    obtain ⟨_, -, checks⟩ := bind_ok.mp i.valid
    obtain ⟨_, -, checks⟩ := bind_ok.mp checks
    obtain ⟨_, -, checks⟩ := bind_ok.mp checks
    obtain ⟨_, -, checks⟩ := bind_ok.mp checks
    obtain ⟨_, checks, -⟩ := bind_ok.mp checks
    unfold InteractionState.require at checks
    split at checks
    · next fits => simpa using fits
    · cases checks
  have within : limits.interaction.maxSnapshotBytes ≤ limits.maxRecordBytes := by
    unfold StoreLimits.validate at validated
    split at validated
    · cases validated
    · omega
  rw [same] at fits
  exact Nat.le_trans fits within

omit [RecordEncoding] [JournalNaming] in
theorem replace_interaction {t : Tables} {id : Reference} {row : InteractionRow}
    (found : t.interactions.lookup id = some row) (next : InteractionRow) :
    Table.total InteractionRow.reserve (t.interactions.insert id next) + row.reserve =
      next.reserve + Table.total InteractionRow.reserve t.interactions :=
  total_replace found

theorem settlement_room (d : Settlement o) {limit : Nat} (slots : Slots limit o.store.tables) {t : Tables}
    {next : InteractionRow} (receipts : t.receipts = o.store.tables.receipts)
    (executions : t.executions = o.store.tables.executions)
    (interactions : t.interactions = o.store.tables.interactions.insert d.id next)
    (released : next.reserve = 0) : t.receipts.length + t.reserved + 1 ≤ limit := by
  obtain ⟨found, snapshot, -⟩ := loadInteraction_ok d.loaded
  obtain ⟨pending, -, -⟩ := evaluate_terminal d.evaluated d.offered
  have held := slots.reserved.interactions d.id d.row found
  rw [← snapshot, if_pos pending] at held
  have replaced := replace_interaction found next
  have room := slots.room
  unfold Tables.reserved at room ⊢
  rw [receipts, executions, interactions]
  omega

omit [RecordEncoding] [JournalNaming] in
theorem authorizeInteraction_error {host : JournalHost} {scope : Scope} {plan : FrozenExecution}
    {state : Interaction} {command : InteractionModel.Command}
    (h : authorizeInteraction host scope plan state command = .error .capacity) :
    ∃ request, host.authorize request = .error .capacity := by
  unfold authorizeInteraction at h
  dsimp only at h
  split at h
  · rcases bind_error.mp h with h | ⟨_, -, h⟩
    · cases (guarded_error h).2
    rcases bind_error.mp h with h | ⟨_, -, h⟩
    · exact ⟨_, h⟩
    · exact ⟨_, h⟩
  · rcases bind_error.mp h with h | ⟨_, -, h⟩
    · cases h
    · exact ⟨_, h⟩

variable [ResourceNaming]

/-- The terminal record of an open interaction finds its slot. -/
theorem settlement_capacity (d : Settlement o) {limit : Nat} (slots : Slots limit o.store.tables)
    (within : limit ≤ o.store.limits.maxReceipts) (validated : o.store.limits.validate = .ok ())
    (h : (Store.call o.store o.env o.call).2 = .error .capacity) :
    Exhausted o.store o.env d.start ∨ Exhausted o.store o.env d.now ∨
      Oversized o.store.limits d.receipt (named d.audit d.receipt) := by
  rw [d.called] at h
  have h := map_error h
  rcases perform_capacity d.fresh d.started h with exhausted | h
  · exact .inl exhausted
  refine .inr ?_
  obtain ⟨found, snapshot, limits⟩ := loadInteraction_ok d.loaded
  obtain ⟨pending, -, sameLimits⟩ := evaluate_terminal d.evaluated d.offered
  unfold interactionBody at h
  rcases bind_error.mp h with h | ⟨plan, planned, h⟩
  · rw [show loadPlan o.store.limits o.store.tables _ = _ from d.planned] at h
    cases h
  rw [show loadPlan o.store.limits o.store.tables _ = _ from d.planned] at planned
  cases planned
  rcases bind_error.mp h with h | ⟨⟨row, state⟩, same, h⟩
  · rw [show loadInteraction o.store.limits o.store.tables _ _ = _ from d.loaded] at h
    cases h
  cases d.loaded.symm.trans same
  rcases bind_error.mp h with h | ⟨_, -, h⟩
  · obtain ⟨request, refused⟩ := authorizeInteraction_error h
    exact .inl (.host refused)
  rcases bind_error.mp h with h | ⟨w, refreshed, h⟩
  · rcases bind_error.mp h with h | ⟨now, read, h⟩
    · rw [d.clock] at h
      cases h
    cases d.clock.symm.trans read
    rcases bind_error.mp h with h | ⟨_, -, h⟩
    · cases (guarded_error h).2
    rcases bind_error.mp h with h | ⟨_, -, h⟩
    · exact .inl (.clock (integer_error h))
    · cases h
  obtain ⟨now, read, refreshed⟩ := bind_ok.mp refreshed
  cases d.clock.symm.trans read
  obtain ⟨_, -, refreshed⟩ := bind_ok.mp refreshed
  obtain ⟨_, -, refreshed⟩ := bind_ok.mp refreshed
  cases refreshed
  rcases bind_error.mp h with h | ⟨t₁, keyed, h⟩
  · unfold insertInteractionKey at h
    split at h
    · cases h
    · rcases bind_error.mp h with h | ⟨_, -, h⟩
      · cases (guarded_error h).2
      · cases h
  obtain ⟨keys, rfl⟩ := insertInteractionKey_ok keyed
  dsimp only at h
  rw [d.evaluated] at h
  dsimp only at h
  rw [d.offered] at h
  rcases bind_error.mp h with h | ⟨⟨t₂, revision⟩, moved, h⟩
  · rcases bind_error.mp h with h | ⟨_, -, h⟩
    · have fits := interaction_fits validated (sameLimits.trans limits)
      have beyond := (guarded_error h).1
      rw [decide_eq_true fits] at beyond
      cases beyond
    rcases bind_error.mp h with h | ⟨_, -, h⟩
    · cases (guarded_error h).2
    · cases h
  obtain ⟨_, -, moved⟩ := bind_ok.mp moved
  obtain ⟨_, -, moved⟩ := bind_ok.mp moved
  cases moved
  rcases bind_error.mp h with h | ⟨_, -, h⟩
  · have oversized := fun room => prepare_capacity room h
    exact .inr (oversized (Nat.le_trans (settlement_room d slots rfl rfl rfl rfl) within))
  · cases h

end Settlements

section Runs
variable [ResourceNaming] [JournalNaming] [RecordEncoding] {t : Tables} {labels : List Operation}

/-- Terminal records keep their slots: the receipts never crowd them out. -/
structure TerminalCapacity (limit : Nat) (t : Tables) : Prop where
  room : t.receipts.length + t.reserved ≤ limit
  /-- Every obligation that is not recorded yet is still held. -/
  held : ∀ scope row, t.executions.lookup scope = some row → row.reserve = owed row.snapshot
  pending : ∀ id row, t.interactions.lookup id = some row →
    row.reserve = if row.snapshot.status = .pending then 1 else 0
  obligations : ∀ o obligation (d : Discharge o obligation), o.store.tables = t →
    limit ≤ o.store.limits.maxReceipts → o.store.limits.validate = .ok () →
    (Store.call o.store o.env o.call).2 = .error .capacity →
    Exhausted o.store o.env d.now ∨ Oversized o.store.limits d.receipt (named d.audit d.receipt)
  interactions : ∀ o (d : Settlement o), o.store.tables = t →
    limit ≤ o.store.limits.maxReceipts → o.store.limits.validate = .ok () →
    (Store.call o.store o.env o.call).2 = .error .capacity →
    Exhausted o.store o.env d.start ∨ Exhausted o.store o.env d.now ∨
      Oversized o.store.limits d.receipt (named d.audit d.receipt)

/-- Over every run within the receipt bound, terminal records keep their slots. -/
theorem terminal_capacity {authority : Authority} {limit : Nat}
    (run : Runs Operates (Tables.empty authority) labels t)
    (within : ∀ o ∈ labels, o.store.limits.maxReceipts ≤ limit) : TerminalCapacity limit t := by
  have slots := runs_slots run within
  refine ⟨slots.room, fun scope row found => (slots.reserved.executions scope row found).1,
    slots.reserved.interactions, ?_, ?_⟩
  · rintro o obligation d rfl
    exact discharge_capacity d slots
  · rintro o d rfl
    exact settlement_capacity d slots

end Runs

section Samples
open LifecycleRuns
attribute [local instance] sampleResources sampleNaming sampleEncoding

theorem terminal_capacity_sample :
    TerminalCapacity 8 (performed sampleStore sampleCalls).2.tables ∧
      (performed sampleStore sampleCalls).2.tables.reserved = 5 :=
  ⟨terminal_capacity (performed_runs sampleCalls sampleStore) (by decide +kernel), by decide +kernel⟩

def cancelOperation (now : Nat) : Operation :=
  let s := (performed sampleStore sampleCalls).2
  let (env, call) := sampleInput "cancel" (.refl true) now (.command ⟨⟨"event-2", .refl true⟩, 2, .cancel⟩)
  ⟨s, env, call, (Store.call s env call).2⟩

/-- A held cancellation is refused for capacity where the clock exceeds the integers of the database. -/
theorem clock_exhausts_cancel :
    Runs Operates (Tables.empty sampleStore.authority) (performed sampleStore sampleCalls).1
        (performed sampleStore sampleCalls).2.tables ∧
      ((performed sampleStore sampleCalls).2.tables.executions.lookup sampleScope).map
        (fun row => (row.reserve.cancel, row.snapshot.cancelRequested)) = some (true, false) ∧
      (cancelOperation 4).result.toOption.isSome = true ∧
      (cancelOperation (maxSigned + 1)).result = .error .capacity :=
  ⟨performed_runs sampleCalls sampleStore, by decide +kernel, by decide +kernel, by decide +kernel⟩

end Samples

end RssMdmAgent.JournalCapacity
