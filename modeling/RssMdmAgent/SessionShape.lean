import RssMdmAgent.SessionInvariant

set_option autoImplicit false

/-! # The schema of the stored rows -/

namespace RssMdmAgent.SessionShape
open BoundedJson OrderedRows SessionRecords SessionValidity SessionState BatchReview BatchCommit
open SessionOperations SessionSteps ReviewRules CommitRules HandoffRules SessionInvariant TransitionRuns
open ContractPlan (bind_ok)

def uncounted (session : Session) : Session := { session with revision := 0, lastSequence := 0 }

structure HeadShaped (session : Session) : Prop where
  accepted : Session.accepts (uncounted session) = true
  context : Session.context session = true

theorem session_accepts {session : Session} : Session.accepts session = true ↔
    Session.accepts (uncounted session) = true ∧ isCounter session.revision = true ∧
      isCounter session.lastSequence = true := by
  simp only [Session.accepts, uncounted, Bool.and_eq_true]
  have zero : isCounter 0 = true := by decide
  simp only [zero, and_true]
  tauto

theorem HeadShaped.of_valid [RecordHashing] {limits : Limits} {session : Session}
    (ok : valid limits (.session session) = true) : HeadShaped session :=
  ⟨(session_accepts.mp (valid_accepts ok).1).1, (valid_accepts ok).2⟩

theorem HeadShaped.scope {session : Session} (shaped : HeadShaped session) :
    Namespace.accepts session.scope = true := by
  have accepted := shaped.accepted
  unfold Session.accepts at accepted
  simp only [Bool.and_eq_true] at accepted
  exact accepted.1.1.1.1.1.1

theorem HeadShaped.stage {session : Session} {stage : ContextStage} (shaped : HeadShaped session)
    (mem : stage ∈ session.stages) : ContextStage.accepts stage = true := by
  have accepted := shaped.accepted
  unfold Session.accepts at accepted
  simp only [Bool.and_eq_true, List.all_eq_true] at accepted
  exact accepted.1.2 stage mem

theorem activeStage_mem {session : Session} {stage : ContextStage} (current : activeStage? session = some stage) :
    stage ∈ session.stages ∧ some stage.stageId = session.currentStageId :=
  ⟨List.mem_of_find?_eq_some current, by simpa using List.find?_some current⟩

def SurfaceShaped (row : SurfaceState) : Prop := SurfaceState.accepts { row with revision := 0 } = true

theorem surface_accepts {row : SurfaceState} : SurfaceState.accepts row = true ↔
    SurfaceShaped row ∧ isCounter row.revision = true := by
  have zero : isCounter 0 = true := by decide
  simp only [SurfaceShaped, SurfaceState.accepts, Bool.and_eq_true, zero]
  tauto

/-- The rows of a session satisfy the schema. -/
structure Shaped (s : SessionWorkspace) : Prop where
  head : HeadShaped s.session
  commands : ∀ k c, s.commands.get k = some c →
    isId c.commandId = true ∧ ∀ d, c.dispatch = some d → isId d.attemptId = true
  interactions : ∀ k i, s.interactions.get k = some i → isId i.interactionId = true ∧ isId i.commandId = true
  surfaces : ∀ k row, s.surfaces.get k = some row → row.scope = s.session.scope ∧ SurfaceShaped row

theorem accepts_attemptId {d : DispatchAttempt} (accepted : DispatchAttempt.accepts d = true) :
    isId d.attemptId = true := by
  unfold DispatchAttempt.accepts at accepted
  simp only [Bool.and_eq_true, List.all_cons] at accepted
  exact accepted.1.1.1.1.2.1

theorem accepts_commandId {c : CommandRecord} (accepted : CommandRecord.accepts c = true) :
    isId c.commandId = true ∧ ∀ d, c.dispatch = some d → isId d.attemptId = true := by
  unfold CommandRecord.accepts Command.accepts at accepted
  simp only [Bool.and_eq_true] at accepted
  refine ⟨accepted.1.1.1.1.2, fun d sent => ?_⟩
  have dispatched := accepted.2
  unfold CommandRecord.dispatch at sent
  cases state : c.state <;> rw [state] at sent dispatched <;> cases sent <;>
    exact accepts_attemptId dispatched

theorem accepts_interactionId {i : Interaction} (accepted : Interaction.accepts i = true) :
    isId i.interactionId = true ∧ isId i.commandId = true := by
  unfold Interaction.accepts at accepted
  simp only [Bool.and_eq_true] at accepted
  exact ⟨accepted.1.1.1.1.1.1.2, accepted.1.1.1.1.1.2⟩

section Steps
variable [RecordHashing] {limits : Limits} {s t : SessionWorkspace}

theorem commit_shaped {batch : SessionCommit} {accepting suspending : Bool} {r : Review} {pass : CommandPass}
    (done : Committed limits s batch accepting suspending r pass) (before : Shaped s) :
    Shaped (committed s batch) := by
  have head := commit_head done
  have listed : ∀ row ∈ batch.rows, row.accepts = true := fun row mem => (valid_accepts (done.rows row mem)).1
  refine ⟨.of_valid (done.rows _ List.mem_cons_self), fun k c found => ?_, fun k i found => ?_,
    fun k row found => ?_⟩
  · rcases done.origin found with ⟨_, early⟩ | ⟨mem, _, _⟩
    · exact before.commands k c early
    · exact accepts_commandId (listed (.commandRecord c) (by simp [SessionCommit.rows, mem]))
  · rcases Rows.get_setAll_cases done.interactions.distinct found with ⟨mem, _⟩ | ⟨_, early⟩
    · exact accepts_interactionId (listed (.interaction i) (by simp [SessionCommit.rows, mem]))
    · exact before.interactions k i early
  · change row.scope = batch.session.scope ∧ _
    rw [head.scope]
    rcases Rows.get_setAll_cases done.surfaces.distinct found with ⟨mem, _⟩ | ⟨_, early⟩
    · obtain ⟨interaction, checked⟩ := done.surfaces.checked row mem
      have scope := checked.scope
      rw [done.review.2.1, head.owner] at scope
      exact ⟨scope, (surface_accepts.mp (listed (.surface row) (by simp [SessionCommit.rows, mem]))).1⟩
    · exact before.surfaces k row early

omit [RecordHashing] in
theorem handoff_shaped {session : Session} {generation : Id} {events : List Event} (before : Shaped s)
    (head : HeadShaped session) (scope : session.scope = s.session.scope) :
    Shaped (handoffState s session generation events) := by
  refine ⟨head, fun k c found => ?_, fun k i found => ?_, fun k row found => ?_⟩
  · obtain ⟨o, stored, step⟩ := handoff_origin found
    obtain ⟨named, sent⟩ := before.commands k o stored
    refine ⟨?_, fun d dispatched => ?_⟩
    · unfold CommandRecord.commandId at named ⊢
      rwa [step.content.1]
    · obtain ⟨d', sent', same, _⟩ := step.dispatch dispatched
      rw [same]
      exact sent d' sent'
  · obtain ⟨i', stored, same, _⟩ := handoff_interaction found
    have named := before.interactions k i' stored
    cases i
    cases i'
    cases same
    exact named
  · obtain ⟨row', stored, _, kept, changed⟩ := handoff_surface found
    obtain ⟨owner, shaped⟩ := before.surfaces k row' stored
    change row.scope = session.scope ∧ _
    rw [scope, ← owner]
    by_cases lit : row'.status = .active
    · rw [changed lit]
      exact ⟨rfl, shaped⟩
    · rw [kept lit]
      exact ⟨rfl, shaped⟩

theorem reduceHandoff_valid {input : RecoveryUnavailable} {restored : Option VerifiedProviderSession}
    (h : reduceHandoff limits s input restored = .ok t) : valid limits (.session t.session) = true := by
  unfold reduceHandoff at h
  obtain ⟨_, -, h⟩ := bind_ok.mp h
  obtain ⟨_, -, h⟩ := bind_ok.mp h
  obtain ⟨_, -, h⟩ := bind_ok.mp h
  obtain ⟨_, -, h⟩ := bind_ok.mp h
  obtain ⟨_, -, h⟩ := bind_ok.mp h
  obtain ⟨_, -, h⟩ := bind_ok.mp h
  obtain ⟨stage, -, h⟩ := bind_ok.mp h
  obtain ⟨_, -, h⟩ := bind_ok.mp h
  obtain ⟨pass, -, h⟩ := bind_ok.mp h
  obtain ⟨_, checked, h⟩ := bind_ok.mp h
  cases h
  exact valid_iff.mpr (validate_ok.mp (guarded_ok.mp checked))

omit [RecordHashing] in
theorem selectConnection_shaped {connectionId : Id} {revision : Nat} {freshContext : Bool}
    (h : selectConnection s connectionId revision freshContext = .ok t) (before : Shaped s) : Shaped t := by
  unfold selectConnection at h
  obtain ⟨_, named, h⟩ := bind_ok.mp h
  obtain ⟨_, -, h⟩ := bind_ok.mp h
  obtain ⟨_, -, h⟩ := bind_ok.mp h
  obtain ⟨_, -, h⟩ := bind_ok.mp h
  rw [refuse_ok, Bool.not_eq_false] at named
  split at h
  · cases h
    exact before
  · cases h
    refine ⟨?_, before.commands, before.interactions, fun k row found => ?_⟩
    · obtain ⟨accepted, context⟩ := before.head
      have selected : HeadShaped
          { s.session with selectedConnectionId := some connectionId, revision := revision + 1 } := by
        refine ⟨?_, context⟩
        simp only [Session.accepts, uncounted, Bool.and_eq_true, Option.all_some] at accepted ⊢
        exact ⟨⟨⟨⟨accepted.1.1.1.1, named⟩, accepted.1.1.2⟩, accepted.1.2⟩, accepted.2⟩
      split
      · exact ⟨selected.accepted, selected.context⟩
      · exact selected
    · obtain ⟨scope, shaped⟩ := before.surfaces k row found
      refine ⟨?_, shaped⟩
      rw [scope]
      split <;> rfl

theorem activateStage_shaped {input : StageActivation} (h : activateStage s input = .ok t) (before : Shaped s) :
    Shaped t := by
  unfold activateStage at h
  obtain ⟨_, -, h⟩ := bind_ok.mp h
  obtain ⟨_, -, h⟩ := bind_ok.mp h
  obtain ⟨_, -, h⟩ := bind_ok.mp h
  obtain ⟨_, -, h⟩ := bind_ok.mp h
  obtain ⟨_, -, h⟩ := bind_ok.mp h
  obtain ⟨_, -, h⟩ := bind_ok.mp h
  obtain ⟨_, -, h⟩ := bind_ok.mp h
  obtain ⟨session, started, h⟩ := bind_ok.mp h
  obtain ⟨_, checked, h⟩ := bind_ok.mp h
  cases h
  have scope : session.scope = s.session.scope := by
    unfold startStage at started
    split at started
    · cases started
    · cases started
      rfl
  refine ⟨.of_valid (valid_iff.mpr (validate_ok.mp (guarded_ok.mp checked))), before.commands,
    fun k i found => ?_, fun k row found => ?_⟩
  · obtain ⟨i', stored, same, _⟩ := activated_interaction found
    have named := before.interactions k i' stored
    cases i
    cases i'
    cases same
    exact named
  · obtain ⟨row', stored, same⟩ := activated_surfaceRow found
    obtain ⟨owner, shaped⟩ := before.surfaces k row' stored
    change row.scope = session.scope ∧ _
    rw [scope, ← owner, same]
    unfold closedSurface
    split
    · exact ⟨rfl, shaped⟩
    · exact ⟨rfl, shaped⟩

theorem retireSession_shaped {revision : Nat} {generation : Id} (h : retireSession limits s revision generation = .ok t)
    (before : Shaped s) : Shaped t := by
  obtain ⟨_, _, event, _, rfl⟩ := retireSession_ok h
  exact ⟨⟨before.head.accepted, before.head.context⟩, before.commands, before.interactions, before.surfaces⟩

variable [SurfaceCatalog]

theorem quiet_shaped (step : Quiet s t) (before : Shaped s) : Shaped t := by
  cases step with
  | cancelled _ _ _ _ h =>
    obtain ⟨rfl, r, pass, done⟩ := reduceCommit_ok h
    exact commit_shaped done before
  | handedOff h =>
    have head := HeadShaped.of_valid (reduceHandoff_valid h)
    obtain ⟨_, status, binding, capabilities, events, _, rfl⟩ := reduceHandoff_ok h
    exact handoff_shaped before head rfl
  | selected h => exact selectConnection_shaped h before
  | activated h => exact activateStage_shaped h before
  | retired h => exact retireSession_shaped h before

theorem applied_shaped {q : Request} (applied : Applied q s t) (before : Shaped s) : Shaped t := by
  cases applied with
  | kept same => exact same ▸ before
  | accepted _ h =>
    obtain ⟨rfl, r, pass, done⟩ := reduceCommit_ok h.commit
    exact commit_shaped done before
  | committed _ h =>
    obtain ⟨rfl, r, pass, done⟩ := reduceCommit_ok h
    exact commit_shaped done before
  | quiet run => exact quiet_run (fun _ _ step => quiet_shaped step) run before

theorem reachable_shaped {labels : List Transition} (reachable : Reachable labels s) : Shaped s := by
  obtain ⟨session, limits, start, created, run⟩ := reachable
  refine run.invariant Shaped ?_ fun _ _ _ before step => applied_shaped (apply_cases step.2.2) before
  obtain ⟨head, _, commands, _, interactions, surfaces⟩ := created_empty created
  have ok : valid limits (.session session) = true := by
    unfold createState at created
    obtain ⟨_, ok, -⟩ := bind_ok.mp created
    rwa [refuse_ok, Bool.not_eq_false] at ok
  refine ⟨head ▸ .of_valid ok, ?_, ?_, ?_⟩
  all_goals simp only [commands, interactions, surfaces, Rows.get_empty, reduceCtorEq, false_implies, implies_true]

/-! ## Stored commands -/

structure RecordShaped (scope : Namespace) (c : CommandRecord) : Prop where
  command : Command.accepts c.command = true
  receipt : Receipt.accepts c.receipt = true
  context : CommandRecord.context c = true
  owner : c.receipt.scope = scope ∧ c.command.sessionId = scope.sessionId

omit [SurfaceCatalog] in
theorem RecordShaped.of_content {scope : Namespace} {c c' : CommandRecord} (shaped : RecordShaped scope c)
    (command : c'.command = c.command) (receipt : c'.receipt = c.receipt) : RecordShaped scope c' := by
  obtain ⟨accepted, named, context, owner⟩ := shaped
  refine ⟨command ▸ accepted, receipt ▸ named, ?_, ?_⟩
  · unfold CommandRecord.context at context ⊢
    rw [command, receipt]
    exact context
  · rw [command, receipt]
    exact owner

def Recorded (s : SessionWorkspace) : Prop :=
  ∀ k c, s.commands.get k = some c → RecordShaped s.session.scope c

omit [SurfaceCatalog] in
theorem commit_recorded {batch : SessionCommit} {accepting suspending : Bool} {r : Review} {pass : CommandPass}
    (done : Committed limits s batch accepting suspending r pass) (before : Recorded s) :
    Recorded (committed s batch) := by
  have head := commit_head done
  intro k c found
  change RecordShaped batch.session.scope c
  rw [head.scope]
  rcases done.origin found with ⟨_, early⟩ | ⟨mem, _, _⟩
  · exact before k c early
  · have ok := valid_accepts (done.rows (.commandRecord c) (by simp [SessionCommit.rows, mem]))
    have accepted : CommandRecord.accepts c = true := ok.1
    unfold CommandRecord.accepts at accepted
    simp only [Bool.and_eq_true] at accepted
    have owner := (done.commands.checked c mem).2.1
    rw [done.review.2.1, head.owner] at owner
    exact ⟨accepted.1.1, accepted.1.2, ok.2, owner⟩

theorem quiet_recorded (step : Quiet s t) (before : Recorded s) : Recorded t := by
  cases step with
  | cancelled _ _ _ _ h =>
    obtain ⟨rfl, r, pass, done⟩ := reduceCommit_ok h
    exact commit_recorded done before
  | handedOff h =>
    obtain ⟨_, status, binding, capabilities, events, _, rfl⟩ := reduceHandoff_ok h
    intro k c found
    obtain ⟨o, stored, step⟩ := handoff_origin found
    exact (before k o stored).of_content step.content.1 step.content.2.1
  | selected h =>
    obtain ⟨_, session, rfl, scope, _⟩ := selectConnection_ok h
    intro k c found
    change RecordShaped session.scope c
    rw [scope]
    exact before k c found
  | activated h =>
    obtain ⟨_, _, session, stage, started, rfl⟩ := activateStage_ok h
    intro k c found
    unfold startStage at started
    split at started
    · cases started
    · cases started
      exact before k c found
  | retired h =>
    obtain ⟨_, _, event, _, rfl⟩ := retireSession_ok h
    exact before

theorem applied_recorded {q : Request} (applied : Applied q s t) (before : Recorded s) : Recorded t := by
  cases applied with
  | kept same => exact same ▸ before
  | accepted _ h =>
    obtain ⟨rfl, r, pass, done⟩ := reduceCommit_ok h.commit
    exact commit_recorded done before
  | committed _ h =>
    obtain ⟨rfl, r, pass, done⟩ := reduceCommit_ok h
    exact commit_recorded done before
  | quiet run => exact quiet_run (fun _ _ step => quiet_recorded step) run before

theorem reachable_recorded {labels : List Transition} (reachable : Reachable labels s) : Recorded s := by
  obtain ⟨session, limits, start, created, run⟩ := reachable
  refine run.invariant Recorded ?_ fun _ _ _ before step => applied_recorded (apply_cases step.2.2) before
  intro k c found
  rw [(created_empty created).2.2.1, Rows.get_empty] at found
  cases found

end Steps

end RssMdmAgent.SessionShape
