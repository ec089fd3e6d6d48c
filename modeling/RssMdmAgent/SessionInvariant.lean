import RssMdmAgent.SessionSteps

set_option autoImplicit false

/-! # The invariant of a session and the steps that keep it -/

namespace RssMdmAgent.SessionInvariant
open BoundedJson OrderedRows SessionRecords SessionValidity SessionState BatchReview BatchCommit
open SessionOperations SessionSteps ReviewRules CommitRules HandoffRules
open ContractPlan (bind_ok)

def Live (s : SessionWorkspace) (command : Id) : Prop :=
  ∃ c d, s.commands.get command = some c ∧ isSettled c = false ∧ c.dispatch = some d ∧
    d.certainty = .submitted

/-- What holds between the rows of every reachable session. -/
structure Consistent (s : SessionWorkspace) : Prop where
  owner : ∀ c ∈ s.commands.entries, ∀ c' ∈ s.commands.entries, ownsTurn c = true → ownsTurn c' = true →
    c.commandId = c'.commandId
  recorded : ∀ k c d, s.commands.get k = some c → c.dispatch = some d → s.hasAttempt d.attemptId = true
  attempts : ∀ k k' c c' d d', s.commands.get k = some c → s.commands.get k' = some c' →
    c.dispatch = some d → c'.dispatch = some d' → d.attemptId = d'.attemptId → k = k'
  stage : ∀ k c, s.commands.get k = some c → isSettled c = false →
    some c.receipt.stageId = s.session.currentStageId
  running : ∀ k c, s.commands.get k = some c → c.state.name = .running → isSubmitted c.state = true
  pending : ∀ k i, s.interactions.get k = some i → i.status = .pending → Live s i.commandId
  active : ∀ k row, s.surfaces.get k = some row → row.status = .active →
    ∃ i, s.interactions.get row.interactionId = some i ∧ Live s i.commandId
  answered : ∀ k i response, s.interactions.get k = some i → i.status = .answered response →
    ∃ c, s.commands.get response = some c ∧ answers c i = true

theorem hasAttempt_append {s t : SessionWorkspace} {events : List Event} {a : Id}
    (same : t.events = s.events ++ events) (known : s.hasAttempt a = true) : t.hasAttempt a = true := by
  unfold SessionWorkspace.hasAttempt at known ⊢
  rw [same, List.any_append, known, Bool.true_or]

theorem asked_commandId {i i' : Interaction} (same : asked i = asked i') : i.commandId = i'.commandId := by
  cases i
  cases i'
  cases same
  rfl

theorem surfaceIdentity_interactionId {row row' : SurfaceState}
    (same : surfaceIdentity row = surfaceIdentity row') : row.interactionId = row'.interactionId := by
  cases row
  cases row'
  cases same
  rfl

/-! ## Commits -/

section Commit
variable [RecordHashing] {limits : Limits} {s : SessionWorkspace} {batch : SessionCommit}
  {accepting suspending : Bool} {r : Review} {pass : CommandPass} {k : Id}

/-- What the head of an accepted batch satisfies. -/
structure HeadChecked (s : SessionWorkspace) (batch : SessionCommit) (deliveryOnly suspending : Bool)
    (stage : ContextStage) : Prop where
  owner : batch.scope = s.session.scope
  scope : batch.session.scope = s.session.scope
  revision : batch.session.revision = s.session.revision + 1
  lastSequence : batch.session.lastSequence = s.session.lastSequence + batch.events.length
  status : deliveryOnly = true ∨ suspending = true ∨ batch.session.status = .active
  suspended : suspending = true → batch.session.status = s.session.status
  currentStageId : batch.session.currentStageId = s.session.currentStageId
  current : activeStage? s.session = some stage
  next : ∃ next, activeStage? batch.session = some next ∧ { next with binding := stage.binding } = stage ∧
    providerIdentity next.binding = providerIdentity stage.binding

omit [RecordHashing] in
theorem checkHead_ok {deliveryOnly : Bool} {stage : ContextStage}
    (h : checkHead s batch deliveryOnly suspending = .ok stage) :
    HeadChecked s batch deliveryOnly suspending stage := by
  unfold checkHead at h
  obtain ⟨_, first, h⟩ := bind_ok.mp h
  obtain ⟨_, second, h⟩ := bind_ok.mp h
  obtain ⟨next, found, h⟩ := bind_ok.mp h
  obtain ⟨stage', current, h⟩ := bind_ok.mp h
  obtain ⟨_, third, h⟩ := bind_ok.mp h
  cases h
  rw [refuse_ok] at first second third
  simp only [not_or, not_not, not_and] at first second third
  obtain ⟨scope, scope', revision, sequence, active, suspended⟩ := first
  refine ⟨scope.symm, scope'.trans scope.symm, revision, sequence, ?_, suspended, second.2.1,
    activeStage_ok.mp current, next, activeStage_ok.mp found, third.1, third.2.1⟩
  cases deliveryOnly with
  | true => exact .inl rfl
  | false =>
    cases suspending with
    | true => exact .inr (.inl rfl)
    | false => exact .inr (.inr (active rfl rfl))

theorem commit_head (done : Committed limits s batch accepting suspending r pass) :
    HeadChecked s batch (isDeliveryCommit s batch) suspending r.stage := checkHead_ok done.head

theorem commit_content (done : Committed limits s batch accepting suspending r pass)
    {o : CommandRecord} (found : s.commands.get k = some o) :
    ∃ c, (committed s batch).commands.get k = some c ∧ c.command = o.command ∧ c.receipt = o.receipt ∧
      (isSettled o = true → c = o) := by
  obtain ⟨c, stored, rfl | ⟨_, _, _, _, checked⟩⟩ := done.stored found
  · exact ⟨c, stored, rfl, rfl, fun _ => rfl⟩
  · obtain ⟨⟨receipt, command⟩, settled⟩ := checkHistory_kept checked.history
    exact ⟨c, stored, command.symm, receipt.symm, fun final => (settled final).symm⟩

theorem commit_interaction (done : Committed limits s batch accepting suspending r pass)
    {i : Interaction} (found : s.interactions.get k = some i) :
    ∃ i', (committed s batch).interactions.get k = some i' ∧ asked i' = asked i ∧
      (i.status ≠ .pending → i' = i) := by
  by_cases mem : k ∈ batch.interactions.map Interaction.interactionId
  · obtain ⟨row, placed, rfl⟩ := List.mem_map.mp mem
    obtain ⟨source, d, checked⟩ := done.interactions.checked row placed
    obtain ⟨identity, final⟩ := checked.kept i found
    exact ⟨row, Rows.get_setAll_mem done.interactions.distinct placed, identity.symm,
      fun settled => (final settled).symm⟩
  · exact ⟨i, (Rows.get_setAll_absent done.interactions.distinct mem).trans found, rfl, fun _ => rfl⟩

theorem commit_live (done : Committed limits s batch accepting suspending r pass) (live : Live s k) :
    Live (committed s batch) k ∨ ∃ c ∈ batch.commands, c.commandId = k ∧ isSettled c = true := by
  obtain ⟨o, d, found, unsettled, sent, submitted⟩ := live
  obtain ⟨c, stored, kept | ⟨_, lost, _⟩⟩ := done.dispatch found sent
  · obtain ⟨d', dispatched, _, certain⟩ := kept
    cases settled : isSettled c with
    | false => exact .inl ⟨c, d', stored, settled, dispatched, certain submitted⟩
    | true =>
      rcases done.origin stored with ⟨_, early⟩ | ⟨mem, names, _⟩
      · rw [found] at early
        cases early
        rw [unsettled] at settled
        cases settled
      · exact .inr ⟨c, mem, names, settled⟩
  · exact absurd submitted lost

omit [RecordHashing] in
theorem pending_open {t : SessionWorkspace} {i : Interaction} {j : Id}
    (found : t.interactions.get j = some i) (pending : i.status = .pending) :
    hasOpenWork t i.commandId = true := by
  unfold hasOpenWork
  rw [Bool.or_eq_true, List.any_eq_true]
  exact .inl ⟨i, Rows.mem_select.mpr ⟨Rows.get_mem found, by simp⟩, by simp [pending]⟩

omit [RecordHashing] in
theorem active_open {t : SessionWorkspace} {row : SurfaceState} {i : Interaction} {j : Id}
    (shown : t.surfaces.get j = some row) (active : row.status = .active)
    (found : t.interactions.get row.interactionId = some i) : hasOpenWork t i.commandId = true := by
  unfold hasOpenWork
  rw [Bool.or_eq_true, List.any_eq_true, List.any_eq_true]
  refine .inr ⟨row, List.mem_flatMap.mpr ⟨i, ?_, ?_⟩, by simp [active, found]⟩
  · exact Rows.mem_select.mpr ⟨Rows.get_mem found, by simp⟩
  · exact Rows.mem_select.mpr ⟨Rows.get_mem shown, by simp [Rows.get_key found]⟩

theorem commit_attempt (done : Committed limits s batch accepting suspending r pass)
    {c : CommandRecord} {d : DispatchAttempt} (found : (committed s batch).commands.get k = some c)
    (sent : c.dispatch = some d) :
    (∃ o d', s.commands.get k = some o ∧ o.dispatch = some d' ∧ d'.attemptId = d.attemptId) ∨
      (c ∈ batch.commands ∧ c.commandId = k ∧ startedAttempt s c = some d.attemptId ∧
        s.hasAttempt d.attemptId = false ∧ (committed s batch).hasAttempt d.attemptId = true) := by
  rcases done.origin found with ⟨_, early⟩ | ⟨mem, rfl, attempts, later, checked⟩
  · exact .inl ⟨c, d, early, sent, rfl⟩
  · have step := checked.attempt
    rw [sent] at step
    cases stored : (s.commands.get c.commandId).bind (·.dispatch) with
    | some before =>
      rw [stored] at step
      obtain ⟨o, found', sent'⟩ := Option.bind_eq_some_iff.mp stored
      cases step with
      | kept retains _ =>
        unfold DispatchAttempt.retains at retains
        simp only [Bool.and_eq_true, decide_eq_true_iff] at retains
        exact .inl ⟨o, before, found', sent', retains.1.1.1.1.1.1⟩
    | none =>
      rw [stored] at step
      cases step with
      | started _ unused _ =>
        rw [done.review.1] at unused
        refine .inr ⟨mem, rfl, by simp [startedAttempt, stored, sent], unused, ?_⟩
        obtain ⟨e, said, _, body⟩ := checkDispatchEvent_published sent (by simp [stored]) checked.event
        rw [done.review.2.1] at said
        obtain ⟨source, event⟩ := done.events e said
        have accepted : Event.accepts e = true := by
          have ok := done.rows (.event e) (by simp [SessionCommit.rows, said])
          exact (valid_accepts ok).1
        unfold SessionWorkspace.hasAttempt
        rw [List.any_eq_true]
        exact ⟨e, List.mem_append_right _ said, by simp [event.dispatch accepted body]⟩

omit [RecordHashing] in
theorem length_le_one {α : Type} {list : List α} (short : list.length ≤ 1) {a b : α} (left : a ∈ list)
    (right : b ∈ list) : a = b := by
  match list, short with
  | [], _ => cases left
  | [x], _ => rw [List.mem_singleton.mp left, List.mem_singleton.mp right]

omit [RecordHashing] in
theorem filterMap_inj {α β : Type} {f : α → Option β} {list : List α} (distinct : (list.filterMap f).Nodup)
    {a a' : α} {b : β} (left : a ∈ list) (right : a' ∈ list) (same : f a = some b) (same' : f a' = some b) :
    a = a' := by
  induction list with
  | nil => cases left
  | cons x rest ih =>
    have tail : (rest.filterMap f).Nodup := by
      rw [List.filterMap_cons] at distinct
      split at distinct
      · exact distinct
      · exact (List.nodup_cons.mp distinct).2
    have apart : ∀ y ∈ rest, f x = some b → f y ≠ some b := by
      intro y mem first second
      rw [List.filterMap_cons, first] at distinct
      exact (List.nodup_cons.mp distinct).1 (List.mem_filterMap.mpr ⟨y, mem, second⟩)
    rcases List.mem_cons.mp left with rfl | early <;> rcases List.mem_cons.mp right with rfl | late
    · rfl
    · exact absurd same' (apart a' late same)
    · exact absurd same (apart a early same')
    · exact ih tail early late

theorem commit_consistent (done : Committed limits s batch accepting suspending r pass)
    (before : Consistent s) : Consistent (committed s batch) := by
  have pending : ∀ k i, (committed s batch).interactions.get k = some i → i.status = .pending →
      Live (committed s batch) i.commandId := by
    intro k i found waits
    have live : Live (committed s batch) i.commandId ∨ Live s i.commandId := by
      rcases Rows.get_setAll_cases done.interactions.distinct found with ⟨mem, _⟩ | ⟨_, early⟩
      · obtain ⟨source, d, checked⟩ := done.interactions.checked i mem
        cases stored : s.interactions.get i.interactionId with
        | none =>
          obtain ⟨_, submitted, unsettled⟩ := checked.added stored
          exact .inl ⟨source, d, checked.found, unsettled, checked.dispatched, submitted⟩
        | some old =>
          obtain ⟨identity, final⟩ := checked.kept old stored
          have waited : old.status = .pending := by
            by_contra settled
            exact settled (final settled ▸ waits)
          exact .inr (asked_commandId identity ▸ before.pending _ old stored waited)
      · exact .inr (before.pending k i early waits)
    rcases live with live | live
    · exact live
    · rcases commit_live done live with live | ⟨c, mem, names, settled⟩
      · exact live
      · have shut := done.closed c mem settled
        rw [names, pending_open found waits] at shut
        cases shut
  have reopened : ∀ {j : Id} {row : SurfaceState} {i : Interaction},
      (committed s batch).surfaces.get j = some row → row.status = .active →
      s.interactions.get row.interactionId = some i → Live s i.commandId →
      ∃ i', (committed s batch).interactions.get row.interactionId = some i' ∧
        Live (committed s batch) i'.commandId := by
    intro j row i shown lit found live
    obtain ⟨i', found', identity, _⟩ := commit_interaction done found
    refine ⟨i', found', ?_⟩
    rw [asked_commandId identity]
    rcases commit_live done live with live | ⟨c, mem, names, settled⟩
    · exact live
    · have shut := done.closed c mem settled
      rw [names, ← asked_commandId identity, active_open shown lit found'] at shut
      cases shut
  refine ⟨?_, ?_, ?_, ?_, ?_, pending, ?_, ?_⟩
  · intro c mem c' mem' owns owns'
    have listed : ∀ c ∈ (committed s batch).commands.entries, ownsTurn c = true →
        c ∈ ((reviewed s batch).commandsInStates openStates).filter ownsTurn := by
      intro c mem owns
      refine List.mem_filter.mpr ⟨Rows.mem_select.mpr ⟨mem, ?_⟩, owns⟩
      unfold ownsTurn at owns
      simp only [Bool.and_eq_true, Bool.not_eq_true'] at owns
      simpa using unsettled_open.mp owns.2
    rw [length_le_one done.owner (listed c mem owns) (listed c' mem' owns')]
  · intro k c d found sent
    rcases commit_attempt done found sent with ⟨o, d', found', sent', same⟩ | ⟨_, _, _, _, known⟩
    · rw [← same]
      exact hasAttempt_append rfl (before.recorded k o d' found' sent')
    · exact known
  · intro k k' c c' d d' found found' sent sent' same
    rcases commit_attempt done found sent with ⟨o, e, stored, sent, names⟩ | ⟨mem, names, started, unused, _⟩
    · rcases commit_attempt done found' sent' with ⟨o', e', stored', sent', names'⟩ | ⟨_, _, _, unused, _⟩
      · exact before.attempts k k' o o' e e' stored stored' sent sent' (by rw [names, names', same])
      · rw [← same, ← names, before.recorded k o e stored sent] at unused
        cases unused
    · rcases commit_attempt done found' sent' with ⟨o', e', stored', sent', names'⟩ | ⟨mem', names', started', _, _⟩
      · rw [same, ← names', before.recorded k' o' e' stored' sent'] at unused
        cases unused
      · have distinct := done.commands.attemptsDistinct .nil
        rw [done.commands.attempts, List.nil_append, done.review.1] at distinct
        rw [← names, ← names', filterMap_inj distinct mem mem' started (same ▸ started')]
  · intro k c found unsettled
    change some c.receipt.stageId = batch.session.currentStageId
    rw [(commit_head done).currentStageId]
    rcases done.origin found with ⟨_, early⟩ | ⟨mem, _, _⟩
    · exact before.stage k c early unsettled
    · rw [← done.review.1]
      exact (done.commands.checked c mem).1
  · intro k c found runs
    rcases done.origin found with ⟨_, early⟩ | ⟨_, _, _, _, checked⟩
    · exact before.running k c early runs
    · have authority := checked.authority
      unfold checkAuthority at authority
      obtain ⟨_, -, submitted⟩ := bind_ok.mp authority
      rw [refuse_ok] at submitted
      by_contra uncertain
      exact submitted ⟨runs, by simpa using uncertain⟩
  · intro k row shown lit
    rcases Rows.get_setAll_cases done.surfaces.distinct shown with ⟨mem, _⟩ | ⟨_, early⟩
    · obtain ⟨interaction, checked⟩ := done.surfaces.checked row mem
      cases stored : s.surfaces.get row.surfaceInstanceId with
      | none =>
        obtain ⟨_, _, waits⟩ := checked.added stored
        exact ⟨interaction, checked.found, pending _ _ checked.found waits⟩
      | some old =>
        obtain ⟨identity, lit', _⟩ := checked.kept old stored
        obtain ⟨i, found, live⟩ := before.active _ old stored lit'
        rw [surfaceIdentity_interactionId identity] at found
        exact reopened shown lit found live
    · obtain ⟨i, found, live⟩ := before.active k row early lit
      exact reopened shown lit found live
  · intro k i response found status
    rcases Rows.get_setAll_cases done.interactions.distinct found with ⟨mem, _⟩ | ⟨_, early⟩
    · obtain ⟨source, d, checked⟩ := done.interactions.checked i mem
      exact checked.answered response status
    · obtain ⟨c, found, answer⟩ := before.answered k i response early status
      obtain ⟨c', found', command, receipt, _⟩ := commit_content done found
      refine ⟨c', found', ?_⟩
      unfold answers at answer ⊢
      rw [command, receipt]
      exact answer

end Commit

/-! ## Handoffs -/

section Handoff
variable {s : SessionWorkspace} {session : Session} {generation k : Id} {events : List Event}

def afterHandoff (generation : Id) (c : CommandRecord) : CommandRecord :=
  if isHandedOff c then handedOff generation c else c

/-- The three ways in which a handoff meets a command. -/
inductive HandoffStep (generation : Id) (c : CommandRecord) : CommandRecord → Prop where
  | kept (untouched : isSettled c = true ∨ (c.dispatch = none ∧ c.command.input.isQueueNext = true)) :
      HandoffStep generation c c
  | reconciled {d : DispatchAttempt} (sent : c.dispatch = some d) (unsettled : isSettled c = false) :
      HandoffStep generation c
        { c with state := .reconciliationRequired { d with observerGeneration := generation } }
  | invalidated (unsent : c.dispatch = none) (unsettled : isSettled c = false)
      (control : c.command.input.isQueueNext = false) :
      HandoffStep generation c { c with state := .invalidated staleFailure }

theorem handoffStep (generation : Id) (c : CommandRecord) :
    HandoffStep generation c (afterHandoff generation c) := by
  unfold afterHandoff isHandedOff handedOff
  cases settled : isSettled c with
  | true => exact .kept (.inl settled)
  | false =>
    cases sent : c.dispatch with
    | some d => exact .reconciled sent settled
    | none =>
      cases queued : c.command.input.isQueueNext with
      | true => exact .kept (.inr ⟨sent, queued⟩)
      | false => exact .invalidated sent settled queued

theorem HandoffStep.content {c c' : CommandRecord} (step : HandoffStep generation c c') :
    c'.command = c.command ∧ c'.receipt = c.receipt ∧ (isSettled c = true → c' = c) := by
  cases step with
  | kept => exact ⟨rfl, rfl, fun _ => rfl⟩
  | reconciled _ unsettled | invalidated _ unsettled =>
    exact ⟨rfl, rfl, fun settled => by rw [unsettled] at settled; cases settled⟩

theorem HandoffStep.dispatch {c c' : CommandRecord} {d' : DispatchAttempt}
    (step : HandoffStep generation c c') (sent : c'.dispatch = some d') :
    ∃ d, c.dispatch = some d ∧ d'.attemptId = d.attemptId ∧ d'.certainty = d.certainty ∧
      d'.nativeRunId = d.nativeRunId ∧ d'.nativeRequestId = d.nativeRequestId := by
  cases step with
  | kept => exact ⟨d', sent, rfl, rfl, rfl, rfl⟩
  | @reconciled d before =>
    cases sent
    exact ⟨d, before, rfl, rfl, rfl, rfl⟩
  | invalidated => cases sent

theorem HandoffStep.unsettled {c c' : CommandRecord} (step : HandoffStep generation c c')
    (opened : isSettled c' = false) : isSettled c = false := by
  cases step with
  | kept => exact opened
  | reconciled _ unsettled | invalidated _ unsettled => exact unsettled

theorem handoff_origin {c' : CommandRecord}
    (found : (handoffState s session generation events).commands.get k = some c') :
    ∃ c, s.commands.get k = some c ∧ HandoffStep generation c c' := by
  rw [handoffState_command] at found
  obtain ⟨c, stored, rfl⟩ := Option.map_eq_some_iff.mp found
  exact ⟨c, stored, handoffStep generation c⟩

theorem handoff_stored {c : CommandRecord} (found : s.commands.get k = some c) :
    ∃ c', (handoffState s session generation events).commands.get k = some c' ∧
      HandoffStep generation c c' :=
  ⟨afterHandoff generation c, by rw [handoffState_command, found]; rfl, handoffStep generation c⟩

theorem handoff_interaction {i' : Interaction}
    (found : (handoffState s session generation events).interactions.get k = some i') :
    ∃ i, s.interactions.get k = some i ∧ asked i' = asked i ∧ i'.status ≠ .pending ∧
      (i.status ≠ .pending → i' = i) ∧ (i.status = .pending → i'.status = .unavailable) := by
  rw [handoffState_interaction] at found
  obtain ⟨i, stored, rfl⟩ := Option.map_eq_some_iff.mp found
  refine ⟨i, stored, ?_⟩
  unfold isPending ended
  by_cases waits : i.status = .pending
  · simp [waits, asked]
  · simp [waits]

theorem handoff_surface {row' : SurfaceState}
    (found : (handoffState s session generation events).surfaces.get k = some row') :
    ∃ row, s.surfaces.get k = some row ∧ row'.status ≠ .active ∧
      (row.status ≠ .active → row' = row) ∧ (row.status = .active → row' = withdrawn row) := by
  rw [handoffState_surface] at found
  obtain ⟨row, stored, rfl⟩ := Option.map_eq_some_iff.mp found
  refine ⟨row, stored, ?_⟩
  unfold isActive
  by_cases lit : row.status = .active
  · simp [lit, withdrawn]
  · simp [lit]

theorem handoff_consistent (before : Consistent s)
    (stage : session.currentStageId = s.session.currentStageId) :
    Consistent (handoffState s session generation events) := by
  refine ⟨?_, ?_, ?_, ?_, ?_, ?_, ?_, ?_⟩
  · intro c mem c' mem' owns owns'
    have owned : ∀ c ∈ (handoffState s session generation events).commands.entries, ownsTurn c = true →
        ∃ o ∈ s.commands.entries, o.commandId = c.commandId ∧ ownsTurn o = true := by
      intro c mem owns
      obtain ⟨o, stored, step⟩ := handoff_origin (Rows.get_of_mem mem)
      refine ⟨o, Rows.get_mem stored, Rows.get_key stored, ?_⟩
      unfold ownsTurn at owns ⊢
      simp only [Bool.and_eq_true, Bool.not_eq_true'] at owns ⊢
      obtain ⟨d', sent⟩ := Option.isSome_iff_exists.mp owns.1.2
      obtain ⟨d, sent, _⟩ := step.dispatch sent
      exact ⟨⟨step.content.1 ▸ owns.1.1, by rw [sent]; rfl⟩, step.unsettled owns.2⟩
    obtain ⟨o, stored, same, owns⟩ := owned c mem owns
    obtain ⟨o', stored', same', owns'⟩ := owned c' mem' owns'
    rw [← same, ← same', before.owner o stored o' stored' owns owns']
  · intro k c d found sent
    obtain ⟨o, stored, step⟩ := handoff_origin found
    obtain ⟨d', sent', same, _⟩ := step.dispatch sent
    rw [same]
    exact hasAttempt_append rfl (before.recorded k o d' stored sent')
  · intro k k' c c' d d' found found' sent sent' same
    obtain ⟨o, stored, step⟩ := handoff_origin found
    obtain ⟨o', stored', step'⟩ := handoff_origin found'
    obtain ⟨e, sent, names, _⟩ := step.dispatch sent
    obtain ⟨e', sent', names', _⟩ := step'.dispatch sent'
    exact before.attempts k k' o o' e e' stored stored' sent sent' (by rw [← names, ← names', same])
  · intro k c found unsettled
    obtain ⟨o, stored, step⟩ := handoff_origin found
    change some c.receipt.stageId = session.currentStageId
    rw [stage, step.content.2.1]
    exact before.stage k o stored (step.unsettled unsettled)
  · intro k c found runs
    obtain ⟨o, stored, step⟩ := handoff_origin found
    cases step with
    | kept => exact before.running k c stored runs
    | reconciled | invalidated => cases runs
  · intro k i found waits
    obtain ⟨_, _, _, ends, _⟩ := handoff_interaction found
    exact absurd waits ends
  · intro k row found lit
    obtain ⟨_, _, dark, _⟩ := handoff_surface found
    exact absurd lit dark
  · intro k i response found status
    obtain ⟨i₀, stored, _, _, final, ends⟩ := handoff_interaction found
    have settled : i₀.status ≠ .pending := by
      intro waits
      rw [ends waits] at status
      cases status
    have same := final settled
    subst same
    obtain ⟨o, stored, answer⟩ := before.answered k i response stored status
    obtain ⟨c, found, step⟩ := handoff_stored stored
    refine ⟨c, found, ?_⟩
    unfold answers at answer ⊢
    rw [step.content.1, step.content.2.1]
    exact answer

end Handoff

/-! ## The other steps -/

theorem head_consistent {s : SessionWorkspace} {session : Session} (before : Consistent s)
    (stage : session.currentStageId = s.session.currentStageId) :
    Consistent { s with session := session } := by
  refine ⟨before.owner, before.recorded, before.attempts, fun k c found unsettled => ?_, before.running,
    before.pending, before.active, before.answered⟩
  change some c.receipt.stageId = session.currentStageId
  rw [stage]
  exact before.stage k c found unsettled

theorem retired_consistent {s : SessionWorkspace} {session : Session} {event : Event}
    (before : Consistent s) (stage : session.currentStageId = s.session.currentStageId) :
    Consistent { s with session := session, events := s.events ++ [event] } := by
  refine ⟨before.owner, fun k c d found sent => ?_, before.attempts, (head_consistent before stage).stage,
    before.running, before.pending, before.active, before.answered⟩
  exact hasAttempt_append rfl (before.recorded k c d found sent)

theorem activated_interaction {s : SessionWorkspace} {k : Id} {i' : Interaction}
    (found : (mapRows s.interactions closedInteraction).get k = some i') :
    ∃ i, s.interactions.get k = some i ∧ asked i' = asked i ∧ i'.status ≠ .pending ∧
      (i.status ≠ .pending → i' = i) ∧ (i.status = .pending → i'.status = .unavailable) := by
  have keeps : ∀ row : Interaction, (closedInteraction row).interactionId = row.interactionId := by
    intro row
    unfold closedInteraction
    split <;> rfl
  rw [get_mapRows keeps] at found
  obtain ⟨i, stored, rfl⟩ := Option.map_eq_some_iff.mp found
  refine ⟨i, stored, ?_⟩
  unfold closedInteraction
  by_cases waits : i.status = .pending
  · simp [waits, asked]
  · simp [waits]

theorem activated_surfaceRow {s : SessionWorkspace} {k : Id} {row' : SurfaceState}
    (found : (mapRows s.surfaces closedSurface).get k = some row') :
    ∃ row, s.surfaces.get k = some row ∧ row' = closedSurface row := by
  have keeps : ∀ row : SurfaceState, (closedSurface row).surfaceInstanceId = row.surfaceInstanceId := by
    intro row
    unfold closedSurface
    split <;> rfl
  rw [get_mapRows keeps] at found
  obtain ⟨row, stored, rfl⟩ := Option.map_eq_some_iff.mp found
  exact ⟨row, stored, rfl⟩

theorem activated_surface {s : SessionWorkspace} {k : Id} {row' : SurfaceState}
    (found : (mapRows s.surfaces closedSurface).get k = some row') :
    ∃ row, s.surfaces.get k = some row ∧ row'.status ≠ .active := by
  obtain ⟨row, stored, rfl⟩ := activated_surfaceRow found
  refine ⟨row, stored, ?_⟩
  unfold closedSurface
  split
  · simp
  · assumption

theorem activated_consistent {s : SessionWorkspace} {session : Session} {generations : List Id}
    (before : Consistent s) (settled : hasUnsettled s = false) :
    Consistent { s with
      session := session
      generations := generations
      interactions := mapRows s.interactions closedInteraction
      surfaces := mapRows s.surfaces closedSurface } := by
  refine ⟨before.owner, before.recorded, before.attempts, fun k c found unsettled => ?_, before.running,
    fun k i found waits => ?_, fun k row found lit => ?_, fun k i response found status => ?_⟩
  · have busy : hasUnsettled s = true := hasUnsettled_iff.mpr ⟨c, Rows.get_mem found, unsettled⟩
    rw [settled] at busy
    cases busy
  · obtain ⟨_, _, _, ends, _⟩ := activated_interaction found
    exact absurd waits ends
  · obtain ⟨_, _, dark⟩ := activated_surface found
    exact absurd lit dark
  · obtain ⟨i₀, stored, _, _, final, ends⟩ := activated_interaction found
    have closed : i₀.status ≠ .pending := by
      intro waits
      rw [ends waits] at status
      cases status
    have same := final closed
    subst same
    exact before.answered k i response stored status

/-! ## Runs -/

section Runs
variable [RecordHashing] [SurfaceCatalog] {s t : SessionWorkspace}

theorem commit_keeps {limits : Limits} {batch : SessionCommit} {accepting suspending : Bool}
    (h : reduceCommit limits s batch accepting suspending = .ok t) (before : Consistent s) : Consistent t := by
  obtain ⟨rfl, r, pass, done⟩ := reduceCommit_ok h
  exact commit_consistent done before

theorem quiet_keeps (step : Quiet s t) (before : Consistent s) : Consistent t := by
  cases step with
  | cancelled _ _ _ _ h => exact commit_keeps h before
  | handedOff h =>
    obtain ⟨_, status, binding, capabilities, events, _, rfl⟩ := reduceHandoff_ok h
    exact handoff_consistent before rfl
  | selected h =>
    obtain ⟨_, session, rfl, _, stage, _⟩ := selectConnection_ok h
    exact head_consistent before stage
  | activated h =>
    obtain ⟨_, settled, session, stage, _, rfl⟩ := activateStage_ok h
    exact activated_consistent before settled
  | retired h =>
    obtain ⟨_, _, event, _, rfl⟩ := retireSession_ok h
    exact retired_consistent before rfl

theorem quiet_run {R : SessionWorkspace → Prop} (steps : ∀ s t, Quiet s t → R s → R t)
    (run : Relation.ReflTransGen Quiet s t) (start : R s) : R t := by
  induction run with
  | refl => exact start
  | tail _ step ih => exact steps _ _ step ih

theorem applied_consistent {q : Request} (applied : Applied q s t) (before : Consistent s) : Consistent t := by
  cases applied with
  | kept same => exact same ▸ before
  | accepted _ h => exact commit_keeps h.commit before
  | committed _ h => exact commit_keeps h before
  | quiet run => exact quiet_run (fun _ _ step => quiet_keeps step) run before

def Reachable (labels : List Transition) (s : SessionWorkspace) : Prop :=
  ∃ session limits start, createState session limits = .ok start ∧ TransitionRuns.Runs Step start labels s

omit [SurfaceCatalog] in
theorem created_empty {session : Session} {limits : Limits} (h : createState session limits = .ok s) :
    s.session = session ∧ session.status = .active ∧ s.commands = .empty ∧ s.events = [] ∧
      s.interactions = .empty ∧ s.surfaces = .empty := by
  unfold createState at h
  obtain ⟨_, -, h⟩ := bind_ok.mp h
  obtain ⟨_, fresh, h⟩ := bind_ok.mp h
  cases h
  rw [refuse_ok] at fresh
  simp only [not_or, not_not] at fresh
  exact ⟨rfl, fresh.2.2, rfl, rfl, rfl, rfl⟩

omit [SurfaceCatalog] in
theorem created_consistent {session : Session} {limits : Limits}
    (h : createState session limits = .ok s) : Consistent s := by
  obtain ⟨_, _, commands, _, interactions, surfaces⟩ := created_empty h
  refine ⟨?_, ?_, ?_, ?_, ?_, ?_, ?_, ?_⟩
  · intro c mem
    rw [commands] at mem
    exact absurd mem List.not_mem_nil
  all_goals
    simp only [commands, interactions, surfaces, Rows.get_empty, reduceCtorEq, false_implies, implies_true]

theorem reachable_consistent {labels : List Transition} (reachable : Reachable labels s) :
    Consistent s := by
  obtain ⟨session, limits, start, created, run⟩ := reachable
  exact run.invariant Consistent (created_consistent created) fun _ _ _ before step =>
    applied_consistent (apply_cases step.2.2) before

def perform : SessionWorkspace → List Request → List Transition × SessionWorkspace
  | s, [] => ([], s)
  | s, request :: rest =>
    match request.apply s with
    | .ok t => (⟨s, request, t⟩ :: (perform t rest).1, (perform t rest).2)
    | .error _ => perform s rest

theorem perform_runs : ∀ (s : SessionWorkspace) (requests : List Request),
    TransitionRuns.Runs Step s (perform s requests).1 (perform s requests).2
  | _, [] => .refl
  | s, request :: rest => by
    unfold perform
    split
    · rename_i t applied
      rw [← List.singleton_append]
      exact (TransitionRuns.Runs.one ⟨rfl, rfl, applied⟩).trans (perform_runs t rest)
    · exact perform_runs s rest

end Runs

end RssMdmAgent.SessionInvariant
