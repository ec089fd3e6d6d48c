import RssMdmAgent.SessionOperations

set_option autoImplicit false

/-! # What a handoff, a selection and an activation do to the rows -/

namespace RssMdmAgent.HandoffRules
open BoundedJson OrderedRows SessionRecords SessionValidity SessionState BatchReview BatchCommit
open SessionOperations
open ContractPlan (bind_ok)

/-! ## Handed-off rows -/

def isHandedOff (c : CommandRecord) : Bool :=
  !isSettled c && (c.dispatch.isSome || !c.command.input.isQueueNext)

def handedOff (generation : Id) (c : CommandRecord) : CommandRecord :=
  match c.dispatch with
  | some d => { c with state := .reconciliationRequired { d with observerGeneration := generation } }
  | none => { c with state := .invalidated staleFailure }

@[simp] theorem handedOff_commandId {generation : Id} {c : CommandRecord} :
    (handedOff generation c).commandId = c.commandId := by
  unfold handedOff
  split <;> rfl

def isPending (i : Interaction) : Bool := i.status = .pending

def ended (i : Interaction) : Interaction := { i with status := .unavailable }

def isActive (s : SurfaceState) : Bool := s.status = .active

/-- The rows that a handoff leaves. -/
def handoffState (s : SessionWorkspace) (session : Session) (generation : Id) (events : List Event) :
    SessionWorkspace where
  session := session
  generations := addGeneration s.generations generation
  commands := s.commands.setAll ((s.commands.select isHandedOff).map (handedOff generation))
  events := s.events ++ events
  interactions := s.interactions.setAll ((s.interactions.select isPending).map ended)
  deliveries := s.deliveries
  surfaces := s.surfaces.setAll ((s.surfaces.select isActive).map withdrawn)

section Handoff
variable {s t : SessionWorkspace} {session : Session} {generation k : Id} {events : List Event}

theorem handoffState_command : (handoffState s session generation events).commands.get k =
    (s.commands.get k).map fun c => if isHandedOff c then handedOff generation c else c :=
  Rows.get_setAll_select fun _ => handedOff_commandId

theorem handoffState_interaction : (handoffState s session generation events).interactions.get k =
    (s.interactions.get k).map fun i => if isPending i then ended i else i :=
  Rows.get_setAll_select fun _ => rfl

theorem handoffState_surface : (handoffState s session generation events).surfaces.get k =
    (s.surfaces.get k).map fun row => if isActive row then withdrawn row else row :=
  Rows.get_setAll_select fun _ => rfl

end Handoff

/-! ## The passes -/

theorem foldlM_view {π ρ ν ε : Type} {step : π → ρ → Except ε π} (view : π → ν) (effect : ν → ρ → ν)
    (steps : ∀ p row p', step p row = .ok p' → view p' = effect (view p) row) :
    ∀ {list : List ρ} {p p' : π}, list.foldlM step p = .ok p' → view p' = list.foldl effect (view p)
  | [], _, _, h => by
    cases h
    rfl
  | row :: rest, p, p', h => by
    rw [List.foldlM_cons] at h
    obtain ⟨middle, first, h⟩ := bind_ok.mp h
    rw [foldlM_view view effect steps h, steps p row middle first, List.foldl_cons]

def rewriteCommand (generation : Id) (copy : SessionWorkspace) (c : CommandRecord) : SessionWorkspace :=
  { copy with
    commands := if isHandedOff c then copy.commands.set (handedOff generation c) else copy.commands }

def endInteraction (copy : SessionWorkspace) (row : Interaction) : SessionWorkspace :=
  { copy with interactions := if isPending row then copy.interactions.set (ended row) else copy.interactions }

def withdrawSurface (copy : SessionWorkspace) (row : SurfaceState) : SessionWorkspace :=
  { copy with surfaces := if isActive row then copy.surfaces.set (withdrawn row) else copy.surfaces }

theorem rewriteCommand_foldl {generation : Id} : ∀ (list : List CommandRecord) (copy : SessionWorkspace),
    list.foldl (rewriteCommand generation) copy = { copy with
      commands := copy.commands.setAll ((list.filter isHandedOff).map (handedOff generation)) }
  | [], _ => rfl
  | c :: rest, copy => by
    rw [List.foldl_cons, rewriteCommand_foldl rest, List.filter_cons]
    unfold rewriteCommand
    split <;> rfl

theorem endInteraction_foldl : ∀ (list : List Interaction) (copy : SessionWorkspace),
    list.foldl endInteraction copy = { copy with
      interactions := copy.interactions.setAll ((list.filter isPending).map ended) }
  | [], _ => rfl
  | row :: rest, copy => by
    rw [List.foldl_cons, endInteraction_foldl rest, List.filter_cons]
    unfold endInteraction
    split <;> rfl

theorem withdrawSurface_foldl : ∀ (list : List SurfaceState) (copy : SessionWorkspace),
    list.foldl withdrawSurface copy = { copy with
      surfaces := copy.surfaces.setAll ((list.filter isActive).map withdrawn) }
  | [], _ => rfl
  | row :: rest, copy => by
    rw [List.foldl_cons, withdrawSurface_foldl rest, List.filter_cons]
    unfold withdrawSurface
    split <;> rfl

section Passes
variable [RecordHashing] {limits : Limits} {s t : SessionWorkspace} {input : RecoveryUnavailable}
  {generation : Id} {pass later : HandoffPass}

theorem handoffCommand_copy {c : CommandRecord}
    (h : handoffCommand limits s input generation pass c = .ok later) :
    later.copy = rewriteCommand generation pass.copy c := by
  unfold handoffCommand at h
  unfold rewriteCommand isHandedOff handedOff
  split at h
  · rename_i settled
    cases h
    simp [settled]
  · rename_i unsettled
    split at h
    · rename_i d dispatched
      obtain ⟨events, -, h⟩ := bind_ok.mp h
      cases h
      simp [unsettled, dispatched]
    · rename_i undispatched
      split at h
      · rename_i queued
        cases h
        simp [undispatched, queued]
      · rename_i control
        obtain ⟨events, -, h⟩ := bind_ok.mp h
        cases h
        simp [unsettled, undispatched, control]

theorem handoffCommands_copy {list : List CommandRecord}
    (h : list.foldlM (handoffCommand limits s input generation) pass = .ok later) :
    later.copy = { pass.copy with
      commands := pass.copy.commands.setAll ((list.filter isHandedOff).map (handedOff generation)) } := by
  rw [foldlM_view HandoffPass.copy (rewriteCommand generation) (fun p c p' step => handoffCommand_copy step) h,
    rewriteCommand_foldl]

theorem handoffInteraction_copy {row : Interaction}
    (h : handoffInteraction limits s input generation pass row = .ok later) :
    later.copy = endInteraction pass.copy row := by
  unfold handoffInteraction at h
  unfold endInteraction isPending
  split at h
  · rename_i closed
    cases h
    simp [closed]
  · rename_i pending
    obtain ⟨attempt, -, h⟩ := bind_ok.mp h
    obtain ⟨events, -, h⟩ := bind_ok.mp h
    cases h
    simp only [not_not] at pending
    simp [pending, ended]

theorem handoffInteractions_copy {list : List Interaction}
    (h : list.foldlM (handoffInteraction limits s input generation) pass = .ok later) :
    later.copy = { pass.copy with
      interactions := pass.copy.interactions.setAll ((list.filter isPending).map ended) } := by
  rw [foldlM_view HandoffPass.copy endInteraction (fun p row p' step => handoffInteraction_copy step) h,
    endInteraction_foldl]

theorem handoffSurface_copy {row : SurfaceState}
    (h : handoffSurface limits s input generation pass row = .ok later) :
    later.copy = withdrawSurface pass.copy row := by
  unfold handoffSurface at h
  unfold withdrawSurface isActive
  split at h
  · rename_i closed
    cases h
    simp [closed]
  · rename_i active
    obtain ⟨_, -, h⟩ := bind_ok.mp h
    split at h
    · cases h
    · obtain ⟨attempt, -, h⟩ := bind_ok.mp h
      obtain ⟨events, -, h⟩ := bind_ok.mp h
      cases h
      simp only [not_not] at active
      simp [active]

theorem handoffSurfaces_copy {list : List SurfaceState}
    (h : list.foldlM (handoffSurface limits s input generation) pass = .ok later) :
    later.copy = { pass.copy with
      surfaces := pass.copy.surfaces.setAll ((list.filter isActive).map withdrawn) } := by
  rw [foldlM_view HandoffPass.copy withdrawSurface (fun p row p' step => handoffSurface_copy step) h,
    withdrawSurface_foldl]

omit [RecordHashing] in
theorem select_handedOff {rows : Rows CommandRecord.commandId} :
    (rows.select fun c => openStates.contains c.state.name).filter isHandedOff =
      rows.select isHandedOff := by
  unfold Rows.select
  rw [List.filter_filter]
  apply List.filter_congr
  intro c _
  cases handed : isHandedOff c with
  | false => rfl
  | true =>
    unfold isHandedOff at handed
    simp only [Bool.and_eq_true, Bool.not_eq_true'] at handed
    simpa using unsettled_open.mp handed.1

theorem handoffRows_copy {first : EventBody}
    (h : handoffRows limits s input generation first = .ok pass) :
    pass.copy = { s with
      commands := s.commands.setAll ((s.commands.select isHandedOff).map (handedOff generation))
      interactions := s.interactions.setAll ((s.interactions.select isPending).map ended)
      surfaces := s.surfaces.setAll ((s.surfaces.select isActive).map withdrawn) } := by
  unfold handoffRows at h
  obtain ⟨events, -, h⟩ := bind_ok.mp h
  obtain ⟨first, commands, h⟩ := bind_ok.mp h
  obtain ⟨second, interactions, h⟩ := bind_ok.mp h
  have commands := handoffCommands_copy commands
  have interactions := handoffInteractions_copy interactions
  have surfaces := handoffSurfaces_copy h
  unfold SessionWorkspace.commandsInStates at commands
  rw [select_handedOff] at commands
  rw [surfaces, interactions, commands]
  rfl

def handoffSession (s : SessionWorkspace) (status : SessionStatus) (binding : Binding)
    (capabilities : Capabilities) (count : Nat) : Session :=
  replaceStage { s.session with
    status := status
    revision := s.session.revision + 1
    lastSequence := s.session.lastSequence + count } binding capabilities

theorem reduceHandoff_ok {restored : Option VerifiedProviderSession}
    (h : reduceHandoff limits s input restored = .ok t) :
    s.session.status ≠ .retired ∧ ∃ status binding capabilities events, status ≠ .retired ∧
      t = handoffState s (handoffSession s status binding capabilities events.length) binding.generation
        events := by
  unfold reduceHandoff at h
  obtain ⟨_, -, h⟩ := bind_ok.mp h
  obtain ⟨_, alive, h⟩ := bind_ok.mp h
  obtain ⟨_, -, h⟩ := bind_ok.mp h
  obtain ⟨_, -, h⟩ := bind_ok.mp h
  obtain ⟨_, -, h⟩ := bind_ok.mp h
  obtain ⟨_, -, h⟩ := bind_ok.mp h
  obtain ⟨stage, -, h⟩ := bind_ok.mp h
  obtain ⟨_, -, h⟩ := bind_ok.mp h
  obtain ⟨pass, rows, h⟩ := bind_ok.mp h
  obtain ⟨_, -, h⟩ := bind_ok.mp h
  cases h
  rw [refuse_ok] at alive
  rw [handoffRows_copy rows]
  refine ⟨alive, if restored.isSome = true then .active else .recoveryRequired, _, _, pass.events, ?_, rfl⟩
  split <;> decide

end Passes

/-! ## Retirement, selection and activation -/

section Others
variable [RecordHashing] {limits : Limits} {s t : SessionWorkspace} {k : Id}

theorem retireSession_ok {revision : Nat} {generation : Id}
    (h : retireSession limits s revision generation = .ok t) :
    s.session.status = .active ∧ hasUnsettled s = false ∧
      ∃ event, event.body = .sessionRetired ∧
        t = { s with
          session := { s.session with
            status := .retired
            revision := s.session.revision + 1
            lastSequence := s.session.lastSequence + 1 }
          events := s.events ++ [event] } := by
  unfold retireSession at h
  obtain ⟨_, current, h⟩ := bind_ok.mp h
  obtain ⟨_, settled, h⟩ := bind_ok.mp h
  obtain ⟨key, -, h⟩ := bind_ok.mp h
  obtain ⟨_, -, h⟩ := bind_ok.mp h
  obtain ⟨_, -, h⟩ := bind_ok.mp h
  cases h
  unfold checkState at current
  obtain ⟨_, active, current⟩ := bind_ok.mp current
  obtain ⟨stage, -, current⟩ := bind_ok.mp current
  obtain ⟨_, -, current⟩ := bind_ok.mp current
  rw [refuse_ok, not_not] at active current
  rw [refuse_ok, not_or, Bool.not_eq_true] at settled
  subst current
  exact ⟨active, settled.1, _, rfl, rfl⟩

omit [RecordHashing] in
theorem selectConnection_ok {connectionId : Id} {revision : Nat} {freshContext : Bool}
    (h : selectConnection s connectionId revision freshContext = .ok t) :
    s.session.status ≠ .retired ∧ ∃ session : Session, t = { s with session := session } ∧
      session.scope = s.session.scope ∧ session.currentStageId = s.session.currentStageId ∧
      session.stages = s.session.stages ∧ session.status ≠ .retired ∧
      (session.status = s.session.status ∨ session.status = .active) := by
  unfold selectConnection at h
  obtain ⟨_, -, h⟩ := bind_ok.mp h
  obtain ⟨_, alive, h⟩ := bind_ok.mp h
  obtain ⟨_, -, h⟩ := bind_ok.mp h
  obtain ⟨_, -, h⟩ := bind_ok.mp h
  rw [refuse_ok] at alive
  refine ⟨alive, ?_⟩
  split at h
  · cases h
    exact ⟨_, rfl, rfl, rfl, rfl, alive, .inl rfl⟩
  · cases h
    refine ⟨_, rfl, ?_⟩
    split <;> simp [alive]

omit [RecordHashing] in
theorem get_mapRows {ρ : Type} {key : ρ → Id} {rows : Rows key} {change : ρ → ρ}
    (keeps : ∀ row, key (change row) = key row) :
    (mapRows rows change).get k = (rows.get k).map change := by
  have all : mapRows rows change = rows.setAll ((rows.select fun _ => true).map change) := by
    unfold mapRows Rows.setAll Rows.select
    rw [List.foldl_map, List.filter_true]
  rw [all, Rows.get_setAll_select keeps]
  simp

theorem activateStage_ok {input : StageActivation} (h : activateStage s input = .ok t) :
    s.session.status ≠ .retired ∧ hasUnsettled s = false ∧
      ∃ session stage, startStage
          { s.session with status := .active, revision := s.session.revision + 1 } stage = .ok session ∧
        t = { s with
          session := session
          generations := addGeneration s.generations input.opened.binding.generation
          interactions := mapRows s.interactions closedInteraction
          surfaces := mapRows s.surfaces closedSurface } := by
  unfold activateStage at h
  obtain ⟨_, -, h⟩ := bind_ok.mp h
  obtain ⟨_, -, h⟩ := bind_ok.mp h
  obtain ⟨_, alive, h⟩ := bind_ok.mp h
  obtain ⟨_, -, h⟩ := bind_ok.mp h
  obtain ⟨_, -, h⟩ := bind_ok.mp h
  obtain ⟨_, settled, h⟩ := bind_ok.mp h
  obtain ⟨_, -, h⟩ := bind_ok.mp h
  obtain ⟨session, started, h⟩ := bind_ok.mp h
  obtain ⟨_, -, h⟩ := bind_ok.mp h
  cases h
  rw [refuse_ok] at alive
  rw [refuse_ok, Bool.not_eq_true] at settled
  exact ⟨alive, settled, session, _, started, rfl⟩

end Others

end RssMdmAgent.HandoffRules
