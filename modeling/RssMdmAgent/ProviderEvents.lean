import RssMdmAgent.ProviderFacts

set_option autoImplicit false

/-! # Which provider events are carried through -/

namespace RssMdmAgent.ProviderEvents
open BoundedJson SessionRecords SessionValidity SessionState SessionShape SessionSchedule ProviderFacts

def isError : EventBody → Bool
  | .error _ => true
  | _ => false

section Bodies
variable {body : EventBody} {attempt : Option Id}

theorem subject_provider (provider : isProviderBody body = true) :
    EventBody.subject body = if isError body then .command else .attempt := by
  cases body <;> first | rfl | cases provider

theorem attemptOf_provider (provider : isProviderBody body = true) : attemptOf body attempt = attempt := by
  cases body <;> first | rfl | cases provider

theorem names_iff {e : Event} (provider : isProviderBody e.body = true) (command : e.commandId.isSome = true)
    (attempt : e.attemptId.isSome = true) : Event.names e = true ↔ isError e.body = false := by
  unfold Event.names
  rw [subject_provider provider, command]
  cases named : e.attemptId with
  | none =>
    rw [named] at attempt
    cases attempt
  | some id => cases isError e.body <;> simp

end Bodies

section Envelopes
variable {head session : Session} {stage current : ContextStage} {original record : CommandRecord} {dispatch d : DispatchAttempt}
  {agent : AdmittedSession} {o : ProviderObservation} {body : EventBody}

def Stable (scope : Namespace) (generation : Id) (command : Id) (body : EventBody) : Prop :=
  ∃ e : Event, e.scope = scope ∧ e.generation = generation ∧ e.commandId = some command ∧ e.body = body ∧
    Event.accepts e = true ∧ Event.context e = true

theorem event_accepts {e : Event} : Event.accepts e = true ↔ Namespace.accepts e.scope = true ∧ isId e.eventId = true ∧
    isCounter e.sequence = true ∧ isId e.generation = true ∧ e.commandId.all isId = true ∧ e.attemptId.all isId = true ∧
    Event.names e = true ∧ EventBody.accepts e.body = true := by
  unfold Event.accepts
  simp only [Bool.and_eq_true, and_assoc]

theorem context_of {e e' : Event} (provider : isProviderBody e.body = true) (body : e'.body = e.body) (scope : e'.scope = e.scope)
    (generation : e'.generation = e.generation) (h : Event.context e = true) : Event.context e' = true := by
  unfold Event.context at h ⊢
  rw [body, scope, generation]
  cases same : e.body <;> rw [same] at h provider <;> first | exact h | cases provider

theorem Stable.envelope {command : Id} {e : Event} (stable : Stable e.scope e.generation command body)
    (provider : isProviderBody body = true) (same : e.body = body) (named : e.commandId = some command)
    (attempt : ∃ id, e.attemptId = some id ∧ isId id = true) (id : isId e.eventId = true) :
    (Event.accepts e = true ∧ Event.context e = true) ↔ isError body = false ∧ isCounter e.sequence = true := by
  obtain ⟨f, scope, generation, command', body', accepted, context⟩ := stable
  obtain ⟨space, -, -, generated, commanded, -, -, bodied⟩ := event_accepts.mp accepted
  obtain ⟨attempted, present, wellformed⟩ := attempt
  have agree : Event.context e = true :=
    context_of (body' ▸ provider) (same.trans body'.symm) scope.symm generation.symm context
  rw [event_accepts, names_iff (same ▸ provider) (by rw [named]; rfl) (by rw [present]; rfl), ← scope, ← generation, same, named,
    ← command', present, ← body']
  constructor
  · rintro ⟨⟨-, -, counter, -, -, -, plain, -⟩, -⟩
    exact ⟨plain, counter⟩
  · rintro ⟨plain, counter⟩
    exact ⟨⟨space, id, counter, generated, commanded, wellformed, plain, bodied⟩, agree⟩

end Envelopes

/-! ## Facts -/

section Facts
variable {head : Session} {stage : ContextStage} {original : CommandRecord} {dispatch : DispatchAttempt}
  {agent : AdmittedSession} {o : ProviderObservation} {body : EventBody}

theorem rebound_eq (shaped : HeadShaped head) (current : activeStage? head = some stage) (binding : Binding) :
    rebound head binding = replaceStage head binding stage.capabilities := by
  have rows : ∀ row ∈ head.stages, (if head.currentStageId = some row.stageId then { row with binding } else row) =
      if head.currentStageId = some row.stageId then { row with binding, capabilities := stage.capabilities } else row := by
    intro row mem
    split
    · rename_i same
      rw [SessionHandoff.stage_unique shaped current mem same]
    · rfl
  unfold rebound replaceStage
  rw [List.map_congr_left rows]

theorem verification_id : isId "verify-observation" = true := by decide +kernel

theorem one_counter : isCounter 1 = true := by decide

variable [RecordHashing]

/-- A provider event about an open attempt of an admitted session. -/
structure Admitted (agent : AdmittedSession) (head : Session) (original : CommandRecord) (o : ProviderObservation)
    (stage : ContextStage) (dispatch : DispatchAttempt) : Prop where
  session : HeadShaped head
  recorded : RecordShaped agent.scope original
  accepted : CommandState.accepts original.state = true
  current : activeStage? head = some stage
  sent : original.dispatch = some dispatch
  bound : Binding.accepts o.binding = true
  admitted : admits agent head original o.resolution = true

theorem Admitted.facts (a : Admitted agent head original o stage dispatch) : head.status = .active ∧ isSettled original = false ∧
    head.scope = agent.scope ∧ providerIdentity stage.binding = providerIdentity agent.binding ∧
    o.commandId = original.command.commandId ∧ o.attemptId = dispatch.attemptId ∧
    providerIdentity o.binding = providerIdentity agent.binding := by
  have admitted := a.admitted
  unfold admits at admitted
  rw [a.current, a.sent] at admitted
  simp only [Bool.and_eq_true, decide_eq_true_eq, Bool.not_eq_true'] at admitted
  obtain ⟨⟨⟨⟨⟨⟨⟨⟨⟨⟨⟨active, unsettled⟩, scope⟩, -⟩, identity⟩, -⟩, -⟩, -⟩, command⟩, attempt⟩, same⟩, -⟩ := admitted
  exact ⟨active, unsettled, scope, identity, command, attempt, same⟩

theorem Admitted.attempt (a : Admitted agent head original o stage dispatch) : DispatchAttempt.accepts dispatch = true := by
  have state := a.accepted
  have sent := a.sent
  unfold CommandRecord.dispatch at sent
  cases same : original.state <;> rw [same] at sent state <;> cases sent <;> exact state

theorem Admitted.identity (a : Admitted agent head original o stage dispatch) :
    o.binding.generation = stage.binding.generation ∧ o.binding.config = stage.binding.config := by
  obtain ⟨-, -, -, stage', -, -, observed⟩ := a.facts
  have same := observed.trans stage'.symm
  unfold providerIdentity at same
  injection same
  exact ⟨‹_›, ‹_›⟩

/-- The records that are serialized when an event is verified fit the bounds. -/
structure Fitting (head : Session) (original : CommandRecord) (o : ProviderObservation) (stage : ContextStage)
    (dispatch : DispatchAttempt) : Prop where
  session : fits defaultLimits (Session.json head) = true
  recorded : fits defaultLimits (CommandRecord.json original) = true
  rebound : fits defaultLimits (Session.json (rebound head o.binding)) = true
  verified : ∀ row ∈ verification head stage original dispatch o.kind.status, fits defaultLimits row.json = true
  observed : fits defaultLimits (Reconciliation.json o.resolution) = true

theorem verification_valid (a : Admitted agent head original o stage dispatch) (kind : o.kind = .report (.event body))
    (provider : isProviderBody body = true) (stable : Stable head.scope stage.binding.generation o.commandId body) :
    (verification head stage original dispatch o.kind.status).all (valid defaultLimits) = true ↔
      isError body = false ∧
        ∀ row ∈ verification head stage original dispatch o.kind.status, fits defaultLimits row.json = true := by
  obtain ⟨-, -, -, -, command, -, -⟩ := a.facts
  have event : o.kind.status = .observed (.event body) →
      ((verification head stage original dispatch o.kind.status).all (valid defaultLimits) = true ↔
      isError body = false ∧
        ∀ row ∈ verification head stage original dispatch o.kind.status, fits defaultLimits row.json = true) := by
    intro status
    have envelope := stable.envelope (e := verificationEvent head stage original dispatch body) provider rfl (command ▸ rfl)
      ⟨_, rfl, accepts_attemptId a.attempt⟩ verification_id
    have counter : isCounter (verificationEvent head stage original dispatch body).sequence = true := one_counter
    rw [counter, and_iff_left rfl] at envelope
    rw [status]
    unfold verification
    rw [Option.all_some, valid_iff, ← envelope]
    simp only [Option.mem_def, Option.some.injEq, forall_eq']
    exact And.comm
  cases body with
  | terminal outcome =>
    rw [kind]
    unfold ObservationKind.status verification
    dsimp only
    have settled : RecordShaped agent.scope
        { original with state := .terminal { dispatch with certainty := .submitted } outcome } := a.recorded.of_content rfl rfl
    rw [Option.all_some, record_valid settled a.attempt]
    simp only [Option.mem_def, Option.some.injEq, forall_eq', isError, true_and]
    rfl
  | text | toolProposal | toolResult | error | cancelDispatched | surface => exact event (by rw [kind]; rfl)
  | commandAccepted | status | interactionPending | interactionAnswered | interactionExpired | interactionUnavailable
  | invalidated | dispatch | reconciled | sessionRebound | sessionRetired | acknowledged | cancelled
  | sessionRecoveryUnavailable | queuedCancelled | deliveryRequested | deliveryRecorded => cases provider

theorem session_valid {session : Session} (shaped : HeadShaped session) :
    valid defaultLimits (.session session) = true ↔ fits defaultLimits (Session.json session) = true := by
  rw [← SessionHandoff.session_fits shaped, validate_ok, valid_iff]

theorem observe_iff (a : Admitted agent head original o stage dispatch) (kind : o.kind = .report (.event body))
    (provider : isProviderBody body = true) (stable : Stable head.scope stage.binding.generation o.commandId body) :
    (observe agent head original o).isSome = true ↔ isError body = false ∧ Fitting head original o stage dispatch := by
  have session : valid defaultLimits (.session head) = true ↔ fits defaultLimits (Session.json head) = true :=
    session_valid a.session
  have recorded : valid defaultLimits (.commandRecord original) = true ↔ fits defaultLimits (CommandRecord.json original) = true :=
    record_valid a.recorded a.accepted
  have moved : valid defaultLimits (.session (rebound head o.binding)) = true ↔
      fits defaultLimits (Session.json (rebound head o.binding)) = true := by
    rw [rebound_eq a.session a.current]
    exact session_valid (SessionHandoff.replaceStage_shaped a.session a.current a.bound a.identity.2)
  have verified := verification_valid a kind provider stable
  unfold observe mint
  rw [a.current, a.sent]
  simp only [Option.isNone_some, Bool.false_eq_true, if_false]
  rw [apply_ite Option.isSome]
  simp only [Option.isSome_some, Option.isSome_none, Bool.if_false_right, Bool.and_true, decide_eq_true_eq, Bool.and_eq_true]
  rw [show o.resolution.binding = o.binding from rfl, show o.resolution.status = o.kind.status from rfl, session, recorded, moved,
    verified]
  constructor
  · rintro ⟨⟨⟨⟨⟨head, original⟩, -⟩, rebound⟩, plain, checked⟩, observed⟩
    exact ⟨plain, head, original, rebound, checked, observed⟩
  · rintro ⟨plain, fitting⟩
    exact ⟨⟨⟨⟨⟨fitting.session, fitting.recorded⟩, a.admitted⟩, fitting.rebound⟩, plain, fitting.verified⟩, fitting.observed⟩

theorem stable_of_emits (a : Admitted agent head original o stage dispatch) (emitted : emits agent.scope o body = true) :
    Stable head.scope stage.binding.generation o.commandId body := by
  obtain ⟨-, -, scope, -, -, -, -⟩ := a.facts
  obtain ⟨accepted, context⟩ := valid_accepts emitted
  exact ⟨adapterEnvelope agent.scope o body, scope.symm, a.identity.1, rfl, rfl, accepted, context⟩

end Facts

/-! ## Events of the host -/

def place (d : DispatchAttempt) (fact : Reconciliation) : Nat :=
  match fact.status with
  | .observed _ => 0
  | _ => if advanced d fact = d then 1 else 2

section Host
variable {head : Session} {stage current : ContextStage} {original record : CommandRecord} {dispatch d : DispatchAttempt}
  {agent : AdmittedSession} {o : ProviderObservation} {body : EventBody} {snapshot : SessionSnapshot} {names : Nat → Id}
  {now expiry : Nat}

def evidenceOf (head : Session) (stage : ContextStage) (original : CommandRecord) (o : ProviderObservation) :
    VerifiedProviderFact :=
  ⟨o.commandId, some ⟨head.scope, providerIdentity stage.binding, original, o.resolution⟩⟩

/-- The session and the command that the host reads are still those of a fact. -/
structure Applicable (snapshot : SessionSnapshot) (proof : VerifiedProviderFact) (fact : Reconciliation) (current : ContextStage)
    (record : CommandRecord) (d : DispatchAttempt) : Prop where
  found : snapshot.commands.find? (·.commandId = proof.commandId) = some record
  active : snapshot.session.status = .active
  unsettled : isSettled record = false
  stage : activeStage? snapshot.session = some current
  sent : record.dispatch = some d
  attempt : isId d.attemptId = true
  fact : providerFactFor proof snapshot.session record = some fact

theorem Admitted.applicable [RecordHashing] (a : Admitted agent head original o stage dispatch)
    (session : snapshot.session = head) (found : snapshot.commands.find? (·.commandId = o.commandId) = some original) :
    Applicable snapshot (evidenceOf head stage original o) o.resolution stage original dispatch := by
  obtain ⟨active, unsettled, -, -, -, -, -⟩ := a.facts
  refine ⟨found, session ▸ active, unsettled, session ▸ a.current, a.sent, accepts_attemptId a.attempt, ?_⟩
  have admitted := a.admitted
  unfold admits at admitted
  rw [a.current, a.sent] at admitted
  simp only [Bool.and_eq_true] at admitted
  have kept : DispatchAttempt.retains dispatch dispatch = true := by simp [DispatchAttempt.retains]
  unfold providerFactFor evidenceOf
  rw [session]
  dsimp only
  rw [a.current]
  dsimp only
  rw [a.sent]
  dsimp only
  rw [if_pos ⟨rfl, rfl, rfl, rfl, kept, admitted.2⟩]

def statusBodies (snapshot : SessionSnapshot) (record : CommandRecord) (d : DispatchAttempt) (fact : Reconciliation)
    (status : ReconciliationStatus) (now expiry : Nat) : List EventBody :=
  match status, status.resolution with
  | .observed observation, _ => observedBodies snapshot observation
  | _, some resolution => resolvedBodies snapshot record d fact resolution now expiry
  | _, none => []

/-- The event of a fact comes after those of its resolution. -/
theorem factBodies_place {proof : VerifiedProviderFact} (now expiry : Nat) (ready : Applicable snapshot proof o.resolution current record d)
    (kind : o.kind = .report (.event body)) (provider : isProviderBody body = true) :
    ∃ before after, factBodies snapshot proof now expiry = before ++ body :: after ∧ before.length = place d o.resolution ∧
      ∀ other ∈ before, other ≠ body := by
  have bodies : factBodies snapshot proof now expiry =
      if repeats record d o.kind.status then [] else statusBodies snapshot record d o.resolution o.kind.status now expiry := by
    unfold factBodies
    rw [ready.found]
    dsimp only
    rw [if_neg (by simp [ready.active, ready.unsettled]), ready.fact, ready.sent]
    rfl
  have observed : o.kind.status = .observed (.event body) → ∃ before after,
      factBodies snapshot proof now expiry = before ++ body :: after ∧ before.length = place d o.resolution ∧
        ∀ other ∈ before, other ≠ body := by
    intro status
    refine ⟨[], [], ?_, ?_, fun _ mem => absurd mem List.not_mem_nil⟩
    · rw [bodies, status]
      rfl
    · unfold place
      rw [show o.resolution.status = o.kind.status from rfl, status]
      rfl
  cases body with
  | terminal outcome =>
    have status : o.kind.status = .terminal outcome := by rw [kind]; rfl
    have same : o.resolution.status = .terminal outcome := status
    rw [status] at bodies
    refine ⟨.reconciled d .terminal :: if advanced d o.resolution = d then [] else [.dispatch (advanced d o.resolution)],
      settledBodies snapshot record.commandId, ?_, ?_, ?_⟩
    · rw [bodies]
      unfold statusBodies
      dsimp only [ReconciliationStatus.resolution]
      unfold resolvedBodies
      rw [same]
      simp [repeats, resolved, stateBodies, isSettled, CommandState.name]
    · unfold place
      rw [same]
      dsimp only
      split <;> rfl
    · intro other mem
      rcases List.mem_cons.mp mem with rfl | mem
      · exact EventBody.noConfusion
      · split at mem
        · cases mem
        · cases List.mem_singleton.mp mem
          exact EventBody.noConfusion
  | text | toolProposal | toolResult | error | cancelDispatched | surface => exact observed (by rw [kind]; rfl)
  | commandAccepted | status | interactionPending | interactionAnswered | interactionExpired | interactionUnavailable
  | invalidated | dispatch | reconciled | sessionRebound | sessionRetired | acknowledged | cancelled
  | sessionRecoveryUnavailable | queuedCancelled | deliveryRequested | deliveryRecorded => cases provider

theorem mem_eventsOf {session : Session} {command : Id} {attempt : Option Id} {bodies : List EventBody} {e : Event} :
    e ∈ eventsOf session stage command attempt names bodies ↔ ∃ i b, bodies[i]? = some b ∧
      e = passEvent session stage (names i) command (attemptOf b attempt) i b := by
  unfold eventsOf
  rw [List.mem_mapIdx]
  constructor
  · rintro ⟨i, inside, same⟩
    exact ⟨i, bodies[i], List.getElem?_eq_getElem inside, same.symm⟩
  · rintro ⟨i, b, found, same⟩
    obtain ⟨inside, rfl⟩ := List.getElem?_eq_some_iff.mp found
    exact ⟨i, inside, same.symm⟩

variable [RecordHashing]

def Appends (snapshot : SessionSnapshot) (proof : VerifiedProviderFact) (names : Nat → Id) (now expiry : Nat)
    (command : Id) (body : EventBody) : Prop :=
  ∃ e ∈ applyFact snapshot proof names now expiry, e.body = body ∧ e.commandId = some command ∧
    Event.accepts e = true ∧ Event.context e = true

/-- The host appends a valid event exactly if the body is no error and the counter has room for it. -/
theorem appends_iff (now expiry : Nat) (a : Admitted agent head original o stage dispatch) (kind : o.kind = .report (.event body))
    (provider : isProviderBody body = true) (stable : Stable head.scope stage.binding.generation o.commandId body)
    (ready : Applicable snapshot (evidenceOf head stage original o) o.resolution current record d)
    (named : ∀ i, isId (names i) = true) :
    Appends snapshot (evidenceOf head stage original o) names now expiry o.commandId body ↔
      isError body = false ∧ isCounter (snapshot.session.lastSequence + place d o.resolution + 1) = true := by
  obtain ⟨before, after, bodies, length, others⟩ := factBodies_place now expiry ready kind provider
  have command : record.commandId = o.commandId := by
    have same := List.find?_some ready.found
    exact of_decide_eq_true same
  have owner : snapshot.session.scope = head.scope ∧ current.binding.generation = stage.binding.generation := by
    have fact := ready.fact
    unfold providerFactFor evidenceOf at fact
    dsimp only at fact
    rw [ready.stage] at fact
    dsimp only at fact
    rw [a.sent, ready.sent] at fact
    dsimp only at fact
    split at fact
    · rename_i same
      obtain ⟨scope, binding, -⟩ := same
      unfold providerIdentity at binding
      injection binding
      exact ⟨scope.symm, Eq.symm ‹_›⟩
    · cases fact
  have events (e : Event) : e ∈ applyFact snapshot (evidenceOf head stage original o) names now expiry ↔
      ∃ i b, (before ++ body :: after)[i]? = some b ∧
        e = passEvent snapshot.session current (names i) o.commandId (attemptOf b (some d.attemptId)) i b := by
    unfold applyFact
    rw [ready.stage, ready.found]
    dsimp only
    rw [mem_eventsOf, bodies, command, ready.sent]
    rfl
  have valid (i : Nat) : (Event.accepts (passEvent snapshot.session current (names i) o.commandId (attemptOf body (some d.attemptId)) i body) = true ∧
      Event.context (passEvent snapshot.session current (names i) o.commandId (attemptOf body (some d.attemptId)) i body) = true) ↔
      isError body = false ∧ isCounter (snapshot.session.lastSequence + i + 1) = true := by
    have same : Stable snapshot.session.scope current.binding.generation o.commandId body := by
      rw [owner.1, owner.2]
      exact stable
    exact same.envelope (e := passEvent snapshot.session current (names i) o.commandId (attemptOf body (some d.attemptId)) i body)
      provider rfl rfl ⟨d.attemptId, attemptOf_provider provider, ready.attempt⟩ (named i)
  constructor
  · rintro ⟨e, mem, same, -, accepted, context⟩
    obtain ⟨i, b, found, rfl⟩ := (events e).mp mem
    cases same
    obtain ⟨plain, counter⟩ := (valid i).mp ⟨accepted, context⟩
    refine ⟨plain, ?_⟩
    have later : before.length ≤ i := by
      by_contra earlier
      rw [List.getElem?_append_left (Nat.lt_of_not_le earlier)] at found
      exact others _ (List.mem_of_getElem? found) rfl
    unfold isCounter at counter ⊢
    rw [decide_eq_true_eq] at counter ⊢
    omega
  · rintro ⟨plain, counter⟩
    have found : (before ++ body :: after)[before.length]? = some body := by simp
    obtain ⟨accepted, context⟩ := (valid before.length).mpr ⟨plain, length ▸ counter⟩
    exact ⟨_, (events _).mpr ⟨_, _, found, rfl⟩, rfl, rfl, accepted, context⟩

/-- A provider event is carried through exactly if it is no error, its records fit and the counter has room. -/
theorem carried_iff (a : Admitted agent head original o stage dispatch) (kind : o.kind = .report (.event body))
    (provider : isProviderBody body = true) (stable : Stable head.scope stage.binding.generation o.commandId body)
    (ready : Applicable snapshot (evidenceOf head stage original o) o.resolution current record d)
    (named : ∀ i, isId (names i) = true) :
    (∃ proof, observe agent head original o = some proof ∧ Appends snapshot proof names now expiry o.commandId body) ↔
      isError body = false ∧ Fitting head original o stage dispatch ∧
        snapshot.session.lastSequence + place d o.resolution + 1 ≤ maxSafeInteger := by
  have minted : ∀ proof, observe agent head original o = some proof → proof = evidenceOf head stage original o := by
    intro proof h
    unfold observe mint at h
    rw [a.current, a.sent] at h
    simp only [Option.isNone_some, Bool.false_eq_true, if_false] at h
    split at h
    · exact (Option.some.inj h).symm
    · cases h
  have observed := observe_iff a kind provider stable
  have appended := appends_iff now expiry a kind provider stable ready named
  constructor
  · rintro ⟨proof, h, appends⟩
    cases minted proof h
    obtain ⟨plain, fitting⟩ := observed.mp (Option.isSome_of_eq_some h)
    exact ⟨plain, fitting, of_decide_eq_true (appended.mp appends).2⟩
  · rintro ⟨plain, fitting, room⟩
    obtain ⟨proof, h⟩ := Option.isSome_iff_exists.mp (observed.mpr ⟨plain, fitting⟩)
    refine ⟨proof, h, ?_⟩
    cases minted proof h
    exact appended.mpr ⟨plain, decide_eq_true room⟩

end Host

section Samples
open SessionTurns
attribute [local instance] sampleHashing

def sampleAgent : AdmittedSession := ⟨sampleScope, sampleBinding⟩

def sampleHead : Session := { sampleSession with revision := 3, lastSequence := 4 }

def sampleRecord : CommandRecord := promptRecord "p1" 0 10 (.running (sampleAttempt "a1" .submitted))

def sampleObservation (body : EventBody) : ProviderObservation := ⟨"a1", "p1", sampleBinding, .report (.event body)⟩

def sampleSnapshot : SessionSnapshot := ⟨sampleHead, [sampleRecord], [], []⟩

def sampleProposal : EventBody := .toolProposal "x1" "read" .nil

def sampleFailure : EventBody := .error ⟨.unavailable, .never⟩

theorem sample_admitted (body : EventBody)
    (admitted : admits sampleAgent sampleHead sampleRecord (sampleObservation body).resolution = true) :
    Admitted sampleAgent sampleHead sampleRecord (sampleObservation body) sampleStage (sampleAttempt "a1" .submitted) := by
  have bound : Binding.accepts sampleBinding = true := by decide +kernel
  exact ⟨⟨by decide +kernel, by decide +kernel⟩, ⟨by decide +kernel, by decide +kernel, by decide +kernel, rfl, rfl⟩,
    by decide +kernel, rfl, rfl, bound, admitted⟩

theorem sample_carried : ∃ proof, observe sampleAgent sampleHead sampleRecord (sampleObservation sampleProposal) = some proof ∧
    Appends sampleSnapshot proof (fun _ => "e5") 40 40 "p1" sampleProposal := by
  have admitted := sample_admitted sampleProposal (by decide +kernel)
  have emitted : emits sampleScope (sampleObservation sampleProposal) sampleProposal = true := by decide +kernel
  have ready : Applicable sampleSnapshot (evidenceOf sampleHead sampleStage sampleRecord (sampleObservation sampleProposal)) _ _ _ _ :=
    admitted.applicable rfl rfl
  refine (carried_iff admitted rfl rfl (stable_of_emits admitted emitted) ready fun _ => by decide +kernel).mpr
    ⟨rfl, ⟨by decide +kernel, by decide +kernel, by decide +kernel, ?_, by decide +kernel⟩, by decide +kernel⟩
  intro row mem
  cases mem
  decide +kernel

/-- The failure that an adapter emits mints no fact. -/
theorem failure_dropped :
    Admitted sampleAgent sampleHead sampleRecord (sampleObservation sampleFailure) sampleStage (sampleAttempt "a1" .submitted) ∧
      emits sampleScope (sampleObservation sampleFailure) sampleFailure = true ∧
      observe sampleAgent sampleHead sampleRecord (sampleObservation sampleFailure) = none :=
  ⟨sample_admitted sampleFailure (by decide +kernel), by decide +kernel, by decide +kernel⟩

end Samples

end RssMdmAgent.ProviderEvents
