import RssMdmAgent.SessionSettlement
import RssMdmAgent.SessionShape

set_option autoImplicit false

/-! # When a handoff succeeds -/

namespace RssMdmAgent.SessionHandoff
open BoundedJson OrderedRows SessionRecords SessionValidity SessionState BatchReview BatchCommit
open SessionOperations SessionSteps ReviewRules CommitRules HandoffRules SessionInvariant SessionShape
open TransitionRuns
open ContractPlan (bind_ok)

/-! ## The derived records -/

structure Part where
  commandId : Option Id
  attemptId : Option Id
  body : EventBody
  label : String

def commandPart (c : CommandRecord) : Option Part :=
  if isHandedOff c then
    match c.dispatch with
    | some d => some ⟨some c.commandId, some d.attemptId, .status .reconciliationRequired,
        s!"command-{c.commandId}"⟩
    | none => some ⟨some c.commandId, none, .invalidated staleFailure, s!"command-{c.commandId}"⟩
  else none

def attemptFor (s : SessionWorkspace) (command : Id) : Option Id :=
  ((s.commands.get command).bind (·.dispatch)).map (·.attemptId)

def interactionPart (s : SessionWorkspace) (i : Interaction) : Option Part :=
  if isPending i then
    some ⟨some i.commandId, attemptFor s i.commandId, .interactionUnavailable i.interactionId,
      s!"interaction-{i.interactionId}"⟩
  else none

def surfacePart (s : SessionWorkspace) (row : SurfaceState) : Option Part :=
  if isActive row then
    let command := (s.interactions.get row.interactionId).map (·.commandId)
    some ⟨command, command.bind (attemptFor s), .surface (withdrawn row), s!"surface-{row.surfaceInstanceId}"⟩
  else none

def handoffParts (s : SessionWorkspace) (first : EventBody) : List Part :=
  ⟨none, none, first, "rebind"⟩ :: ((s.commandsInStates openStates).filterMap commandPart ++
    s.interactions.entries.filterMap (interactionPart s) ++ s.surfaces.entries.filterMap (surfacePart s))

/-! ## The rows that a handoff leaves -/

def handedCommands (s : SessionWorkspace) (generation : Id) : Rows CommandRecord.commandId :=
  s.commands.setAll ((s.commands.select isHandedOff).map (handedOff generation))

def handedInteractions (s : SessionWorkspace) : Rows Interaction.interactionId :=
  s.interactions.setAll ((s.interactions.select isPending).map ended)

def handedSurfaces (s : SessionWorkspace) : Rows SurfaceState.surfaceInstanceId :=
  s.surfaces.setAll ((s.surfaces.select isActive).map withdrawn)

def handedRows (s : SessionWorkspace) (generation : Id) : SessionWorkspace :=
  { s with
    commands := handedCommands s generation
    interactions := handedInteractions s
    surfaces := handedSurfaces s }

section Derived
variable [RecordHashing] (limits : Limits) (s : SessionWorkspace) (input : RecoveryUnavailable)
  (generation : Id)

/-- The event of a part under its sequence number. -/
def partEvent (index : Nat) (part : Part) : Event where
  scope := input.scope
  eventId := RecordHashing.eventId input.eventId part.label
  sequence := s.session.lastSequence + index + 1
  generation := generation
  commandId := part.commandId
  attemptId := part.attemptId
  body := part.body

def handoffEvents (first : EventBody) : List Event :=
  (handoffParts s first).mapIdx (partEvent s input generation)

def checkRow (part : Part) : Except Failure Unit :=
  match part.body with
  | .surface row => guarded (validate limits (.surface row))
  | _ => .ok ()

def publish (events : List Event) (part : Part) : Except Failure (List Event) := do
  checkRow limits part
  append limits s input generation events part.commandId part.attemptId part.body part.label

def partEvents (index : Nat) (parts : List Part) : List Event :=
  parts.mapIdx fun i part => partEvent s input generation (index + i) part

def Publishable (index : Nat) (part : Part) : Prop :=
  checkRow limits part = .ok () ∧
    validate limits (.event (partEvent s input generation index part)) = .ok () ∧
    s.hasEvent (partEvent s input generation index part).eventId = false

variable {limits s input generation}

theorem publish_ok {events later : List Event} {part : Part} :
    publish limits s input generation events part = .ok later ↔
      Publishable limits s input generation events.length part ∧
        later = events ++ [partEvent s input generation events.length part] := by
  unfold publish append Publishable
  have same : derivedEvent s input generation events part.commandId part.attemptId part.body part.label =
      partEvent s input generation events.length part := rfl
  rw [same]
  constructor
  · intro h
    obtain ⟨_, row, h⟩ := bind_ok.mp h
    obtain ⟨_, event, h⟩ := bind_ok.mp h
    obtain ⟨_, fresh, h⟩ := bind_ok.mp h
    cases h
    rw [guarded_ok] at event
    rw [refuse_ok, Bool.not_eq_true] at fresh
    exact ⟨⟨row, event, fresh⟩, rfl⟩
  · rintro ⟨⟨row, event, fresh⟩, rfl⟩
    refine bind_ok.mpr ⟨(), row, bind_ok.mpr ⟨(), guarded_ok.mpr event, bind_ok.mpr ⟨(), ?_, rfl⟩⟩⟩
    rw [refuse_ok, Bool.not_eq_true]
    exact fresh

theorem publishAll_ok : ∀ {parts : List Part} {events later : List Event},
    parts.foldlM (publish limits s input generation) events = .ok later ↔
      (∀ i part, parts[i]? = some part → Publishable limits s input generation (events.length + i) part) ∧
        later = events ++ partEvents s input generation events.length parts
  | [], events, later => by
    simp only [List.foldlM_nil, partEvents, List.mapIdx_nil, List.append_nil]
    constructor
    · intro h
      cases h
      exact ⟨by simp, rfl⟩
    · rintro ⟨_, rfl⟩
      rfl
  | part :: rest, events, later => by
    rw [List.foldlM_cons, bind_ok]
    have tail : partEvents s input generation (events.length + 1) rest =
        rest.mapIdx fun i part => partEvent s input generation (events.length + (i + 1)) part := by
      unfold partEvents
      congr 1
      funext i part
      rw [Nat.add_right_comm, Nat.add_assoc]
    constructor
    · rintro ⟨middle, first, h⟩
      obtain ⟨publishable, rfl⟩ := publish_ok.mp first
      obtain ⟨others, rfl⟩ := publishAll_ok.mp h
      rw [List.length_append, List.length_singleton] at others ⊢
      refine ⟨fun i other found => ?_, ?_⟩
      · cases i with
        | zero =>
          cases found
          exact publishable
        | succ i =>
          have later := others i other found
          rwa [Nat.add_right_comm, Nat.add_assoc] at later
      · rw [tail, partEvents, List.mapIdx_cons, List.append_assoc]
        rfl
    · rintro ⟨publishable, rfl⟩
      refine ⟨events ++ [partEvent s input generation events.length part],
        publish_ok.mpr ⟨publishable 0 part rfl, rfl⟩, publishAll_ok.mpr ⟨fun i other found => ?_, ?_⟩⟩
      · rw [List.length_append, List.length_singleton, Nat.add_right_comm, Nat.add_assoc]
        exact publishable (i + 1) other found
      · rw [List.length_append, List.length_singleton, tail, partEvents, List.mapIdx_cons, List.append_assoc]
        rfl

end Derived

/-! ## The passes publish the parts -/

section Passes
variable [RecordHashing] {limits : Limits} {s : SessionWorkspace} {input : RecoveryUnavailable}
  {generation : Id}

def publishPart (limits : Limits) (s : SessionWorkspace) (input : RecoveryUnavailable) (generation : Id)
    (events : List Event) : Option Part → Except Failure (List Event)
  | none => .ok events
  | some part => publish limits s input generation events part

theorem foldlM_publish {ρ : Type} {step : HandoffPass → ρ → Except Failure HandoffPass}
    {part : ρ → Option Part} {effect : SessionWorkspace → ρ → SessionWorkspace} {I : SessionWorkspace → Prop} :
    ∀ {list : List ρ} {copy : SessionWorkspace} {events : List Event},
    (∀ copy events row, row ∈ list → I copy → step ⟨copy, events⟩ row =
      (publishPart limits s input generation events (part row)).map fun events => ⟨effect copy row, events⟩) →
    (∀ copy row, I copy → I (effect copy row)) → I copy →
    list.foldlM step ⟨copy, events⟩ = ((list.filterMap part).foldlM (publish limits s input generation)
      events).map fun events => ⟨list.foldl effect copy, events⟩
  | [], _, _, _, _, _ => rfl
  | row :: rest, copy, events, steps, keeps, holds => by
    have later : ∀ events, rest.foldlM step ⟨effect copy row, events⟩ =
        ((rest.filterMap part).foldlM (publish limits s input generation) events).map fun events =>
          ⟨rest.foldl effect (effect copy row), events⟩ := fun events =>
      foldlM_publish (fun copy events other mem => steps copy events other (List.mem_cons_of_mem _ mem)) keeps
        (keeps copy row holds)
    rw [List.foldlM_cons, steps copy events row List.mem_cons_self holds, List.filterMap_cons, List.foldl_cons]
    cases part row with
    | none => exact later events
    | some chosen =>
      rw [List.foldlM_cons]
      dsimp only [publishPart]
      cases publish limits s input generation events chosen with
      | error e => rfl
      | ok events => exact later events

theorem handoffCommand_publishes (copy : SessionWorkspace) (events : List Event) (c : CommandRecord) :
    handoffCommand limits s input generation ⟨copy, events⟩ c =
      (publishPart limits s input generation events (commandPart c)).map fun events =>
        ⟨rewriteCommand generation copy c, events⟩ := by
  unfold handoffCommand commandPart rewriteCommand isHandedOff handedOff
  cases isSettled c with
  | true => rfl
  | false =>
    cases c.dispatch with
    | some d =>
      simp only [Bool.false_eq_true, if_false, Bool.not_false, Option.isSome_some, Bool.true_or, Bool.and_self,
        if_true, publishPart, publish, checkRow]
      rfl
    | none =>
      cases c.command.input.isQueueNext with
      | true => rfl
      | false =>
        simp only [Bool.false_eq_true, if_false, Bool.not_false, Option.isSome_none, Bool.or_true, Bool.and_self,
          if_true, publishPart, publish, checkRow]
        rfl

omit [RecordHashing] in
theorem attemptOf_live {copy : SessionWorkspace} {k : Id} (live : Live s k)
    (commands : copy.commands = handedCommands s generation) :
    ∃ a, attemptOf copy k = .ok a ∧ attemptFor s k = some a := by
  obtain ⟨c, d, found, unsettled, sent, _⟩ := live
  refine ⟨d.attemptId, ?_, by simp [attemptFor, found, sent]⟩
  have handed : isHandedOff c = true := by simp [isHandedOff, unsettled, sent]
  have after : copy.commands.get k = some (handedOff generation c) := by
    rw [commands, handedCommands, Rows.get_setAll_select fun _ => handedOff_commandId, found, Option.map_some, if_pos handed]
  have rewritten : handedOff generation c =
      { c with state := .reconciliationRequired { d with observerGeneration := generation } } := by
    unfold handedOff
    rw [sent]
  unfold attemptOf
  rw [after, rewritten]
  rfl

theorem handoffInteraction_publishes (consistent : Consistent s) {copy : SessionWorkspace}
    (commands : copy.commands = handedCommands s generation)
    (events : List Event) {row : Interaction} (mem : row ∈ s.interactions.entries) :
    handoffInteraction limits s input generation ⟨copy, events⟩ row =
      (publishPart limits s input generation events (interactionPart s row)).map fun events =>
        ⟨endInteraction copy row, events⟩ := by
  unfold handoffInteraction interactionPart endInteraction isPending
  by_cases pending : row.status = .pending
  · obtain ⟨a, attempt, stored⟩ := attemptOf_live (consistent.pending _ row (Rows.get_of_mem mem) pending) commands
    simp only [pending, ne_eq, not_true_eq_false, if_false, decide_true, if_true, attempt, stored, publishPart,
      publish, checkRow]
    rfl
  · simp only [pending, ne_eq, not_false_eq_true, if_true, decide_false, Bool.false_eq_true, if_false, publishPart]
    rfl

theorem handoffSurface_publishes (consistent : Consistent s) {copy : SessionWorkspace}
    (commands : copy.commands = handedCommands s generation)
    (interactions : copy.interactions = handedInteractions s)
    (events : List Event) {row : SurfaceState} (mem : row ∈ s.surfaces.entries) :
    handoffSurface limits s input generation ⟨copy, events⟩ row =
      (publishPart limits s input generation events (surfacePart s row)).map fun events =>
        ⟨withdrawSurface copy row, events⟩ := by
  unfold handoffSurface surfacePart withdrawSurface isActive
  by_cases active : row.status = .active
  · obtain ⟨i, found, live⟩ := consistent.active _ row (Rows.get_of_mem mem) active
    obtain ⟨a, attempt, stored⟩ := attemptOf_live live commands
    have kept : (handedInteractions s).get row.interactionId =
        (s.interactions.get row.interactionId).map fun i => if isPending i then ended i else i :=
      Rows.get_setAll_select fun _ => rfl
    have after : copy.interactions.get row.interactionId = some (if isPending i then ended i else i) := by
      rw [interactions, kept, found, Option.map_some]
    have same : (if isPending i then ended i else i).commandId = i.commandId := by
      split <;> rfl
    simp only [active, ne_eq, not_true_eq_false, if_false, decide_true, if_true, after, same, attempt, found,
      Option.map_some, Option.bind_some, stored, publishPart, publish, checkRow]
    cases guarded (validate limits (.surface (withdrawn row))) <;> rfl
  · simp only [active, ne_eq, not_false_eq_true, if_true, decide_false, Bool.false_eq_true, if_false, publishPart]
    rfl

theorem handoffRows_publishes (consistent : Consistent s) {first : EventBody} (plain : surfaceOf first = none) :
    handoffRows limits s input generation first =
      ((handoffParts s first).foldlM (publish limits s input generation) []).map fun events =>
        ⟨handedRows s generation, events⟩ := by
  have head : publish limits s input generation [] ⟨none, none, first, "rebind"⟩ =
      append limits s input generation [] none none first "rebind" := by
    unfold publish checkRow
    cases first <;> first | rfl | cases plain
  have commands : ∀ events, (s.commandsInStates openStates).foldlM (handoffCommand limits s input generation)
      ⟨s, events⟩ = (((s.commandsInStates openStates).filterMap commandPart).foldlM
        (publish limits s input generation) events).map fun events =>
          ⟨{ s with commands := handedCommands s generation }, events⟩ := by
    intro events
    rw [foldlM_publish (I := fun _ => True) (fun copy events c _ _ => handoffCommand_publishes copy events c)
      (fun _ _ _ => trivial) trivial, rewriteCommand_foldl, SessionWorkspace.commandsInStates, select_handedOff]
    rfl
  have interactions : ∀ events, s.interactions.entries.foldlM (handoffInteraction limits s input generation)
      ⟨{ s with commands := handedCommands s generation }, events⟩ =
        ((s.interactions.entries.filterMap (interactionPart s)).foldlM (publish limits s input generation)
          events).map fun events =>
          ⟨{ s with
            commands := handedCommands s generation
            interactions := handedInteractions s }, events⟩ := by
    intro events
    rw [foldlM_publish (I := fun copy => copy.commands = handedCommands s generation)
      (fun copy events row mem commands => handoffInteraction_publishes consistent commands events mem)
      (fun _ _ commands => commands) rfl, endInteraction_foldl]
    rfl
  have surfaces : ∀ events, s.surfaces.entries.foldlM (handoffSurface limits s input generation)
      ⟨{ s with
        commands := handedCommands s generation
        interactions := handedInteractions s }, events⟩ =
        ((s.surfaces.entries.filterMap (surfacePart s)).foldlM (publish limits s input generation)
          events).map fun events => ⟨handedRows s generation, events⟩ := by
    intro events
    rw [foldlM_publish (I := fun copy => copy.commands = handedCommands s generation ∧
        copy.interactions = handedInteractions s)
      (fun copy events row mem rows => handoffSurface_publishes consistent rows.1 rows.2 events mem)
      (fun _ _ rows => rows) ⟨rfl, rfl⟩, withdrawSurface_foldl]
    rfl
  unfold handoffRows handoffParts
  rw [List.foldlM_cons, head]
  cases append limits s input generation [] none none first "rebind" with
  | error e => rfl
  | ok events =>
    change ((s.commandsInStates openStates).foldlM (handoffCommand limits s input generation) ⟨s, events⟩ >>= _) =
      Except.map _ (List.foldlM _ events (_ ++ _ ++ _))
    rw [commands events, List.foldlM_append, List.foldlM_append]
    cases ((s.commandsInStates openStates).filterMap commandPart).foldlM (publish limits s input generation)
        events with
    | error e => rfl
    | ok events =>
      change (s.interactions.entries.foldlM (handoffInteraction limits s input generation) ⟨_, events⟩ >>= _) =
        Except.map _ ((s.interactions.entries.filterMap (interactionPart s)).foldlM _ events >>= _)
      rw [interactions events]
      cases (s.interactions.entries.filterMap (interactionPart s)).foldlM (publish limits s input generation)
          events with
      | error e => rfl
      | ok events => exact surfaces events

end Passes

/-! ## The schema of the derived records -/

/-- What a part satisfies whatever the limits are. -/
structure PartShaped (scope : Namespace) (part : Part) : Prop where
  command : part.commandId.all isId = true
  attempt : part.attemptId.all isId = true
  named : (match EventBody.subject part.body with
    | .session => part.commandId.isNone && part.attemptId.isNone
    | .command => part.commandId.isSome && part.attemptId.isNone
    | .attempt => part.commandId.isSome && part.attemptId.isSome) = true
  body : match part.body with
    | .surface row => row.scope = scope ∧ row.status = .invalidated ∧ SurfaceShaped row
    | .commandAccepted _ => False
    | body => EventBody.accepts body = true

def rowFits (limits : Limits) (part : Part) : Prop :=
  match part.body with
  | .surface row => fits limits (SurfaceState.json row) = true
  | _ => True

theorem attemptFor_live {s : SessionWorkspace} {k : Id} (shaped : Shaped s) (live : Live s k) :
    ∃ a, attemptFor s k = some a ∧ isId a = true ∧ isId k = true := by
  obtain ⟨c, d, found, _, sent, _⟩ := live
  obtain ⟨named, attempts⟩ := shaped.commands k c found
  rw [Rows.get_key found] at named
  exact ⟨d.attemptId, by simp [attemptFor, found, sent], attempts d sent, named⟩

theorem commandPart_shaped {s : SessionWorkspace} {c : CommandRecord} {part : Part} (shaped : Shaped s)
    (mem : c ∈ s.commands.entries) (published : commandPart c = some part) :
    PartShaped s.session.scope part := by
  obtain ⟨named, attempts⟩ := shaped.commands _ c (Rows.get_of_mem mem)
  unfold commandPart at published
  split at published
  · split at published
    · rename_i d sent
      cases published
      exact ⟨named, attempts d sent, rfl, rfl⟩
    · cases published
      exact ⟨named, rfl, rfl, rfl⟩
  · cases published

theorem interactionPart_shaped {s : SessionWorkspace} {i : Interaction} {part : Part} (shaped : Shaped s)
    (consistent : Consistent s) (mem : i ∈ s.interactions.entries) (published : interactionPart s i = some part) :
    PartShaped s.session.scope part := by
  obtain ⟨named, command⟩ := shaped.interactions _ i (Rows.get_of_mem mem)
  unfold interactionPart isPending at published
  split at published
  · rename_i pending
    obtain ⟨a, stored, attempt, _⟩ := attemptFor_live shaped
      (consistent.pending _ i (Rows.get_of_mem mem) (by simpa using pending))
    cases published
    refine ⟨command, ?_, ?_, named⟩
    · rw [stored]
      exact attempt
    · rw [stored]
      rfl
  · cases published

theorem surfacePart_shaped {s : SessionWorkspace} {row : SurfaceState} {part : Part} (shaped : Shaped s)
    (consistent : Consistent s) (mem : row ∈ s.surfaces.entries) (published : surfacePart s row = some part) :
    PartShaped s.session.scope part := by
  obtain ⟨scope, accepted⟩ := shaped.surfaces _ row (Rows.get_of_mem mem)
  unfold surfacePart isActive at published
  split at published
  · rename_i active
    obtain ⟨i, found, live⟩ := consistent.active _ row (Rows.get_of_mem mem) (by simpa using active)
    obtain ⟨a, stored, attempt, named⟩ := attemptFor_live shaped live
    rw [found] at published
    cases published
    refine ⟨named, ?_, ?_, scope, rfl, accepted⟩
    · rw [Option.map_some, Option.bind_some, stored]
      exact attempt
    · rw [Option.map_some, Option.bind_some, stored]
      rfl
  · cases published

structure Opening (first : EventBody) : Prop where
  subject : EventBody.subject first = .session
  accepted : EventBody.accepts first = true

theorem parts_shaped {s : SessionWorkspace} {first : EventBody} {part : Part} (shaped : Shaped s)
    (consistent : Consistent s) (opening : Opening first) (mem : part ∈ handoffParts s first) :
    PartShaped s.session.scope part := by
  unfold handoffParts at mem
  rcases List.mem_cons.mp mem with rfl | mem
  · obtain ⟨subject, accepted⟩ := opening
    refine ⟨rfl, rfl, by rw [subject]; rfl, ?_⟩
    cases first <;> first | exact accepted | cases subject
  · rcases List.mem_append.mp mem with mem | mem
    · rcases List.mem_append.mp mem with mem | mem
      · obtain ⟨c, listed, published⟩ := List.mem_filterMap.mp mem
        exact commandPart_shaped shaped (Rows.mem_select.mp listed).1 published
      · obtain ⟨i, listed, published⟩ := List.mem_filterMap.mp mem
        exact interactionPart_shaped shaped consistent listed published
    · obtain ⟨row, listed, published⟩ := List.mem_filterMap.mp mem
      exact surfacePart_shaped shaped consistent listed published

section Fitting
variable [RecordHashing] {limits : Limits} {s : SessionWorkspace} {input : RecoveryUnavailable}
  {generation : Id} {first : EventBody}

def DigestsNamed : Prop := ∀ seed label, isId (RecordHashing.eventId seed label) = true

def FreshName (s : SessionWorkspace) (name : Id) : Prop :=
  ∀ label, s.hasEvent (RecordHashing.eventId name label) = false

theorem checkRow_ok {scope : Namespace} {part : Part} (shaped : PartShaped scope part) :
    checkRow limits part = .ok () ↔ rowFits limits part := by
  have body := shaped.body
  unfold checkRow rowFits
  split
  · rename_i row same
    rw [same] at body
    rw [guarded_ok, validate_ok]
    refine ⟨And.left, fun fitting => ⟨fitting, surface_accepts.mpr ⟨body.2.2, ?_⟩, rfl⟩⟩
    unfold SurfaceState.json at fitting
    have counter : row.revision ≤ maxSafeInteger := by
      refine fits_counter limits "revision" fitting ?_
      simp
    simpa [isCounter] using counter
  · simp

/-- A derived event passes its validation exactly when it fits the bounds. -/
theorem publishable_iff {index : Nat} {part : Part} (shaped : PartShaped s.session.scope part)
    (digests : DigestsNamed) (fresh : FreshName s input.eventId) (scope : input.scope = s.session.scope)
    (owner : Namespace.accepts s.session.scope = true) (named : isId generation = true) :
    Publishable limits s input generation index part ↔
      rowFits limits part ∧ fits limits (Event.json (partEvent s input generation index part)) = true := by
  have event : ∀ fitting : fits limits (Event.json (partEvent s input generation index part)) = true,
      rowFits limits part → Event.accepts (partEvent s input generation index part) = true ∧
        Event.context (partEvent s input generation index part) = true := by
    intro fitting row
    have counter : s.session.lastSequence + index + 1 ≤ maxSafeInteger := by
      unfold Event.json at fitting
      refine fits_counter limits "sequence" fitting ?_
      simp [partEvent]
    have sequence : isCounter (s.session.lastSequence + index + 1) = true := by simpa [isCounter] using counter
    have bodies : EventBody.accepts part.body = true ∧
        Event.context (partEvent s input generation index part) = true := by
      have body := shaped.body
      have checked := (checkRow_ok shaped).mpr row
      unfold checkRow at checked
      unfold Event.context partEvent
      cases part with
      | mk commandId attemptId form label =>
        cases form
        case surface row =>
          dsimp only at body checked ⊢
          rw [guarded_ok, validate_ok] at checked
          refine ⟨checked.2.1, ?_⟩
          rw [scope, body.1, body.2.1]
          simp
        case commandAccepted command => exact body.elim
        all_goals exact ⟨body, rfl⟩
    refine ⟨?_, bodies.2⟩
    simp only [Event.accepts, partEvent, Bool.and_eq_true]
    rw [scope]
    exact ⟨⟨⟨⟨⟨⟨⟨owner, digests _ _⟩, sequence⟩, named⟩, shaped.command⟩, shaped.attempt⟩, shaped.named⟩, bodies.1⟩
  unfold Publishable
  rw [checkRow_ok shaped, validate_ok]
  constructor
  · rintro ⟨row, ⟨fitting, _⟩, _⟩
    exact ⟨row, fitting⟩
  · rintro ⟨row, fitting⟩
    obtain ⟨accepted, context⟩ := event fitting row
    exact ⟨row, ⟨fitting, accepted, context⟩, fresh _⟩

end Fitting

/-! ## The head -/

section Head
variable {session : Session} {stage : ContextStage}

theorem stage_unique (shaped : HeadShaped session) (current : activeStage? session = some stage)
    {row : ContextStage} (mem : row ∈ session.stages) (same : session.currentStageId = some row.stageId) :
    row = stage := by
  have context := shaped.context
  unfold Session.context at context
  simp only [Bool.and_eq_true, decide_eq_true_iff] at context
  obtain ⟨stored, named⟩ := activeStage_mem current
  refine List.inj_on_of_nodup_map context.1.2 mem stored ?_
  rw [same] at named
  exact (Option.some.inj named).symm

theorem headShaped_iff : HeadShaped session ↔ Namespace.accepts session.scope = true ∧
    session.selectedConnectionId.all isId = true ∧ session.currentStageId.all isId = true ∧
    (∀ row ∈ session.stages, ContextStage.accepts row = true) ∧ session.stages.length ≤ 128 ∧
    session.currentStageId = session.stages.getLast?.map (·.stageId) ∧
    (session.stages.map (·.stageId)).Nodup ∧
    ∀ row ∈ session.stages, row.connectionId = row.binding.config.id ∧ 1 ≤ row.configRevision := by
  have zero : isCounter 0 = true := by decide
  constructor
  · rintro ⟨schema, context⟩
    simp only [Session.accepts, uncounted, Session.context, Bool.and_eq_true, List.all_eq_true,
      decide_eq_true_iff] at schema context
    obtain ⟨⟨⟨⟨⟨⟨scope, _⟩, _⟩, selected⟩, named⟩, stages⟩, bound⟩ := schema
    exact ⟨scope, selected, named, stages, of_decide_eq_true bound, context.1.1, context.1.2, context.2⟩
  · rintro ⟨scope, selected, named, stages, bound, last, distinct, configs⟩
    constructor
    · simp only [Session.accepts, uncounted, Bool.and_eq_true, List.all_eq_true]
      exact ⟨⟨⟨⟨⟨⟨scope, zero⟩, zero⟩, selected⟩, named⟩, stages⟩, decide_eq_true bound⟩
    · simp only [Session.context, Bool.and_eq_true, List.all_eq_true, decide_eq_true_iff]
      exact ⟨⟨last, distinct⟩, configs⟩

theorem replaceStage_shaped (shaped : HeadShaped session) (current : activeStage? session = some stage)
    {binding : Binding} {capabilities : Capabilities} (accepted : Binding.accepts binding = true)
    (config : binding.config = stage.binding.config) : HeadShaped (replaceStage session binding capabilities) := by
  have unique : ∀ row ∈ session.stages, session.currentStageId = some row.stageId → row = stage :=
    fun row mem same => stage_unique shaped current mem same
  rw [headShaped_iff] at shaped ⊢
  obtain ⟨scope, selected, named, stages, bound, last, distinct, configs⟩ := shaped
  have ids : (replaceStage session binding capabilities).stages.map (·.stageId) =
      session.stages.map (·.stageId) := by
    unfold replaceStage
    rw [List.map_map]
    apply List.map_congr_left
    intro row _
    dsimp only [Function.comp]
    split <;> rfl
  refine ⟨scope, selected, named, fun row mem => ?_, ?_, ?_, ids ▸ distinct, fun row mem => ?_⟩
  · obtain ⟨old, stored, rfl⟩ := List.mem_map.mp mem
    have kept := stages old stored
    split
    · simp only [ContextStage.accepts, Bool.and_eq_true] at kept ⊢
      exact ⟨kept.1, accepted⟩
    · exact kept
  · unfold replaceStage
    rw [List.length_map]
    exact bound
  · rw [← List.getLast?_map, ids, List.getLast?_map]
    exact last
  · obtain ⟨old, stored, rfl⟩ := List.mem_map.mp mem
    have kept := configs old stored
    split
    · rename_i same
      have here := unique old stored same
      subst here
      exact ⟨by rw [kept.1, ← config], kept.2⟩
    · exact kept

variable [RecordHashing] {limits : Limits}

theorem session_fits (shaped : HeadShaped session) :
    validate limits (.session session) = .ok () ↔ fits limits (Session.json session) = true := by
  rw [validate_ok]
  refine ⟨And.left, fun fitting => ⟨fitting, session_accepts.mpr ⟨shaped.accepted, ?_, ?_⟩, shaped.context⟩⟩
  all_goals unfold Session.json at fitting
  · have counter : session.revision ≤ maxSafeInteger := by
      refine fits_counter limits "revision" fitting ?_
      simp
    simpa [isCounter] using counter
  · have counter : session.lastSequence ≤ maxSafeInteger := by
      refine fits_counter limits "lastSequence" fitting ?_
      simp
    simpa [isCounter] using counter

end Head

/-! ## The whole handoff -/

/-- A provider session that was restored from the current binding of this session. -/
structure Restorable (s : SessionWorkspace) (stage : ContextStage) (v : VerifiedProviderSession) : Prop where
  restores : v.restores s.session = true
  fresh : v.binding.generation ∉ s.generations
  continues : stage.capabilities.continuation = .acrossProcesses
  accepted : Binding.accepts v.binding = true
  config : v.binding.config = stage.binding.config

/-- The current revision, generation and namespace and a new name. -/
structure Current [RecordHashing] (s : SessionWorkspace) (stage : ContextStage) (input : RecoveryUnavailable) : Prop where
  scope : input.scope = s.session.scope
  revision : input.expectedRevision = s.session.revision
  generation : input.expectedGeneration = stage.binding.generation
  named : isId input.eventId = true
  fresh : FreshName s input.eventId

def handoffBinding (stage : ContextStage) (restored : Option VerifiedProviderSession) : Binding :=
  (restored.map (·.binding)).getD stage.binding

def openingBody (stage : ContextStage) (restored : Option VerifiedProviderSession) : EventBody :=
  match restored with
  | some _ => .sessionRebound stage.binding.generation
  | none => .sessionRecoveryUnavailable

def handoffHead (s : SessionWorkspace) (stage : ContextStage) (restored : Option VerifiedProviderSession) : Session :=
  handoffSession s (if restored.isSome then .active else .recoveryRequired) (handoffBinding stage restored)
    ((restored.map (·.capabilities)).getD stage.capabilities) (handoffParts s (openingBody stage restored)).length

/-- Every record that the handoff derives from the state fits the bounds. -/
structure HandoffFits [RecordHashing] (limits : Limits) (s : SessionWorkspace) (stage : ContextStage)
    (input : RecoveryUnavailable) (restored : Option VerifiedProviderSession) : Prop where
  surfaces : ∀ row ∈ s.surfaces.entries, row.status = .active →
    fits limits (SurfaceState.json (withdrawn row)) = true
  events : ∀ e ∈ handoffEvents s input (handoffBinding stage restored).generation (openingBody stage restored),
    fits limits (Event.json e) = true
  head : fits limits (Session.json (handoffHead s stage restored)) = true

section Handoff
variable [RecordHashing] {limits : Limits} {s t : SessionWorkspace} {stage : ContextStage}
  {input : RecoveryUnavailable} {restored : Option VerifiedProviderSession}

omit [RecordHashing] in
theorem rowFits_iff {first : EventBody} (plain : surfaceOf first = none) :
    (∀ part ∈ handoffParts s first, rowFits limits part) ↔ ∀ row ∈ s.surfaces.entries, row.status = .active →
      fits limits (SurfaceState.json (withdrawn row)) = true := by
  constructor
  · intro all row mem active
    have published : surfacePart s row = some ⟨(s.interactions.get row.interactionId).map (·.commandId),
        ((s.interactions.get row.interactionId).map (·.commandId)).bind (attemptFor s), .surface (withdrawn row),
        s!"surface-{row.surfaceInstanceId}"⟩ := by simp [surfacePart, isActive, active]
    exact all _ (List.mem_cons_of_mem _ (List.mem_append_right _ (List.mem_filterMap.mpr ⟨row, mem, published⟩)))
  · intro all part mem
    unfold rowFits
    split
    · rename_i row body
      unfold handoffParts at mem
      rcases List.mem_cons.mp mem with rfl | mem
      · dsimp only at body
        rw [body] at plain
        cases plain
      · rcases List.mem_append.mp mem with mem | mem
        · rcases List.mem_append.mp mem with mem | mem
          · obtain ⟨c, _, published⟩ := List.mem_filterMap.mp mem
            unfold commandPart at published
            split at published
            · split at published <;> cases published <;> cases body
            · cases published
          · obtain ⟨i, _, published⟩ := List.mem_filterMap.mp mem
            unfold interactionPart at published
            split at published <;> cases published
            cases body
        · obtain ⟨shown, listed, published⟩ := List.mem_filterMap.mp mem
          unfold surfacePart isActive at published
          split at published
          · rename_i active
            cases published
            cases body
            exact all shown listed (by simpa using active)
          · cases published
    · trivial

theorem handoff_gates (current : Current s stage input) (alive : s.session.status ≠ .retired)
    (active : activeStage? s.session = some stage) (shaped : Shaped s)
    (valid : ∀ v, restored = some v → Restorable s stage v) :
    reduceHandoff limits s input restored = (do
      let pass ← handoffRows limits s input (handoffBinding stage restored).generation (openingBody stage restored)
      let session := handoffSession s (if restored.isSome then .active else .recoveryRequired)
        (handoffBinding stage restored) ((restored.map (·.capabilities)).getD stage.capabilities) pass.events.length
      guarded (validate limits (.session session))
      return { pass.copy with
        session := session
        generations := addGeneration s.generations (handoffBinding stage restored).generation
        events := s.events ++ pass.events }) := by
  have named : refuse (isId input.eventId = false) (fail .invalidInput) = .ok () :=
    refuse_ok.mpr (by simp [current.named])
  have living : refuse (s.session.status = .retired) (fail .sessionGone) = .ok () := refuse_ok.mpr alive
  have checked : checkState (awake s) input.expectedRevision input.expectedGeneration = .ok () := by
    have found : activeStage (awake s).session = .ok stage := activeStage_ok.mpr active
    unfold checkState
    refine bind_ok.mpr ⟨(), refuse_ok.mpr (by simp [awake]), bind_ok.mpr ⟨stage, found, bind_ok.mpr ⟨(), ?_, ?_⟩⟩⟩
    · exact refuse_ok.mpr (by simp [current.generation])
    · exact refuse_ok.mpr (by simp [awake, current.revision])
  have scope : sameNamespace input.scope s.session.scope = .ok true := by
    unfold sameNamespace namespaceKey
    rw [current.scope, if_pos shaped.head.scope]
    simp [bind, Except.bind, pure, Except.pure]
  have restores : refuse (restored.any (fun v => !v.restores s.session) = true) (fail .permissionDenied) = .ok () := by
    rw [refuse_ok, Option.any_eq_true]
    rintro ⟨v, same, denied⟩
    rw [(valid v same).restores] at denied
    cases denied
  have found : activeStage s.session = .ok stage := activeStage_ok.mpr active
  have live : refuse (restored.any (fun v => decide (v.binding.generation ∈ s.generations) ||
      decide (stage.capabilities.continuation ≠ .acrossProcesses)) = true) (fail .staleBinding) = .ok () := by
    rw [refuse_ok, Option.any_eq_true]
    rintro ⟨v, same, stale⟩
    simp [(valid v same).fresh, (valid v same).continues] at stale
  unfold reduceHandoff
  rw [named, living, checked, scope, restores, found]
  change (refuse _ _ >>= _) = _
  rw [live]
  rfl

omit [RecordHashing] in
theorem handoffBinding_shaped (active : activeStage? s.session = some stage) (shaped : Shaped s)
    (valid : ∀ v, restored = some v → Restorable s stage v) :
    Binding.accepts (handoffBinding stage restored) = true ∧
      (handoffBinding stage restored).config = stage.binding.config := by
  cases restored with
  | none =>
    have accepted := shaped.head.stage (activeStage_mem active).1
    unfold ContextStage.accepts at accepted
    rw [Bool.and_eq_true] at accepted
    exact ⟨accepted.2, rfl⟩
  | some v => exact ⟨(valid v rfl).accepted, (valid v rfl).config⟩

omit [RecordHashing] in
theorem accepts_generation {binding : Binding} (accepted : Binding.accepts binding = true) :
    isId binding.generation = true := by
  unfold Binding.accepts at accepted
  simp only [Bool.and_eq_true, List.all_cons] at accepted
  exact accepted.1.1.1.2.2.2.1

omit [RecordHashing] in
theorem openingBody_opens (active : activeStage? s.session = some stage) (shaped : Shaped s) :
    Opening (openingBody stage restored) ∧ surfaceOf (openingBody stage restored) = none := by
  have accepted := shaped.head.stage (activeStage_mem active).1
  unfold ContextStage.accepts at accepted
  rw [Bool.and_eq_true] at accepted
  cases restored with
  | none => exact ⟨⟨rfl, rfl⟩, rfl⟩
  | some v => exact ⟨⟨rfl, accepts_generation accepted.2⟩, rfl⟩

/-- With the current coordinates a handoff succeeds exactly when its records fit. -/
theorem reduceHandoff_iff (consistent : Consistent s) (shaped : Shaped s) (digests : DigestsNamed)
    (alive : s.session.status ≠ .retired) (active : activeStage? s.session = some stage)
    (current : Current s stage input) (valid : ∀ v, restored = some v → Restorable s stage v) :
    (∃ t, reduceHandoff limits s input restored = .ok t) ↔ HandoffFits limits s stage input restored := by
  obtain ⟨accepted, config⟩ := handoffBinding_shaped active shaped valid
  obtain ⟨opening, plain⟩ : Opening (openingBody stage restored) ∧ surfaceOf (openingBody stage restored) = none :=
    openingBody_opens active shaped
  have publishable : ∀ i part, (handoffParts s (openingBody stage restored))[i]? = some part →
      (Publishable limits s input (handoffBinding stage restored).generation i part ↔ rowFits limits part ∧
        fits limits (Event.json (partEvent s input (handoffBinding stage restored).generation i part)) = true) :=
    fun i part found => publishable_iff (parts_shaped shaped consistent opening (List.mem_of_getElem? found))
      digests current.fresh current.scope shaped.head.scope (accepts_generation accepted)
  have numbered : partEvents s input (handoffBinding stage restored).generation 0
      (handoffParts s (openingBody stage restored)) =
        handoffEvents s input (handoffBinding stage restored).generation (openingBody stage restored) := by
    unfold partEvents handoffEvents
    simp only [Nat.zero_add]
  have counted : (handoffEvents s input (handoffBinding stage restored).generation
      (openingBody stage restored)).length = (handoffParts s (openingBody stage restored)).length :=
    List.length_mapIdx
  have head : HeadShaped (handoffHead s stage restored) := by
    unfold handoffHead handoffSession
    refine replaceStage_shaped ?_ ?_ accepted config
    · exact ⟨shaped.head.accepted, shaped.head.context⟩
    · exact active
  rw [handoff_gates current alive active shaped valid, handoffRows_publishes consistent plain]
  constructor
  · rintro ⟨t, h⟩
    obtain ⟨pass, rows, h⟩ := bind_ok.mp h
    obtain ⟨_, checked, _⟩ := bind_ok.mp h
    cases published : (handoffParts s (openingBody stage restored)).foldlM
        (publish limits s input (handoffBinding stage restored).generation) [] with
    | error e =>
      rw [published] at rows
      cases rows
    | ok events =>
      rw [published] at rows
      cases rows
      obtain ⟨all, rfl⟩ := publishAll_ok.mp published
      simp only [List.length_nil, Nat.zero_add, List.nil_append] at all checked
      rw [numbered, counted, guarded_ok] at checked
      refine ⟨(rowFits_iff plain).mp fun part mem => ?_, fun e mem => ?_, (session_fits head).mp checked⟩
      · obtain ⟨i, found⟩ := List.getElem?_of_mem mem
        exact ((publishable i part found).mp (all i part found)).1
      · obtain ⟨i, bound, rfl⟩ := List.mem_mapIdx.mp mem
        have found : (handoffParts s (openingBody stage restored))[i]? = some _ := List.getElem?_eq_getElem bound
        exact ((publishable i _ found).mp (all i _ found)).2
  · rintro ⟨surfaces, events, fitting⟩
    have all : ∀ i part, (handoffParts s (openingBody stage restored))[i]? = some part →
        Publishable limits s input (handoffBinding stage restored).generation (0 + i) part := by
      intro i part found
      rw [Nat.zero_add]
      refine (publishable i part found).mpr
        ⟨(rowFits_iff plain).mpr surfaces part (List.mem_of_getElem? found), events _ ?_⟩
      obtain ⟨bound, rfl⟩ := List.getElem?_eq_some_iff.mp found
      exact List.mem_mapIdx.mpr ⟨i, bound, rfl⟩
    have published : (handoffParts s (openingBody stage restored)).foldlM
        (publish limits s input (handoffBinding stage restored).generation) [] =
          .ok (partEvents s input (handoffBinding stage restored).generation 0
            (handoffParts s (openingBody stage restored))) := publishAll_ok.mpr ⟨all, rfl⟩
    rw [published]
    have checked : guarded (validate limits (.session (handoffHead s stage restored))) = .ok () :=
      guarded_ok.mpr ((session_fits head).mpr fitting)
    unfold handoffHead at checked
    rw [← counted, ← numbered] at checked
    refine ⟨_, bind_ok.mpr ⟨_, rfl, bind_ok.mpr ⟨(), checked, rfl⟩⟩⟩

end Handoff

/-! ## What a handoff leaves -/

/-- Dispatched work awaits reconciliation, undispatched controls are invalidated, and no question and no
surface stays open. -/
structure Recovered (s t : SessionWorkspace) : Prop where
  dispatched : ∀ k c, t.commands.get k = some c → isSettled c = false → c.dispatch ≠ none →
    c.state.name = .reconciliationRequired
  controls : ∀ k c, s.commands.get k = some c → isSettled c = false → c.dispatch = none →
    c.command.input.isQueueNext = false → ∃ c', t.commands.get k = some c' ∧ c'.state.name = .invalidated
  questions : ∀ k i, s.interactions.get k = some i → i.status = .pending →
    ∃ i', t.interactions.get k = some i' ∧ i'.status = .unavailable
  answered : ∀ k i, t.interactions.get k = some i → i.status ≠ .pending
  surfaces : ∀ k row, s.surfaces.get k = some row → row.status = .active →
    ∃ row', t.surfaces.get k = some row' ∧ row'.status = .invalidated
  shown : ∀ k row, t.surfaces.get k = some row → row.status ≠ .active

theorem handoff_recovered {s : SessionWorkspace} {session : Session} {generation : Id} {events : List Event} :
    Recovered s (handoffState s session generation events) := by
  refine ⟨fun k c found opened sent => ?_, fun k c found opened unsent control => ?_,
    fun k i found waits => ?_, fun k i found => ?_, fun k row found active => ?_, fun k row found => ?_⟩
  · obtain ⟨o, stored, step⟩ := handoff_origin found
    cases step with
    | kept untouched =>
      rcases untouched with settled | ⟨unsent, _⟩
      · rw [settled] at opened
        cases opened
      · exact absurd unsent sent
    | reconciled => rfl
    | invalidated => cases opened
  · obtain ⟨c', found', step⟩ : ∃ c', (handoffState s session generation events).commands.get k = some c' ∧
        HandoffStep generation c c' := handoff_stored found
    refine ⟨c', found', ?_⟩
    cases step with
    | kept untouched =>
      rcases untouched with settled | ⟨_, queued⟩
      · rw [settled] at opened
        cases opened
      · rw [control] at queued
        cases queued
    | reconciled sent =>
      rw [unsent] at sent
      cases sent
    | invalidated => rfl
  · rw [handoffState_interaction, found, Option.map_some]
    exact ⟨_, rfl, by simp [isPending, waits, ended]⟩
  · obtain ⟨_, _, _, closed, _⟩ := handoff_interaction found
    exact closed
  · rw [handoffState_surface, found, Option.map_some]
    exact ⟨_, rfl, by simp [isActive, active, withdrawn]⟩
  · obtain ⟨_, _, dark, _⟩ := handoff_surface found
    exact dark

section Recovery
variable [RecordHashing] [SurfaceCatalog] {s : SessionWorkspace} {labels : List Transition}

end Recovery

section Samples
open SessionTurns SessionSettlement
attribute [local instance] sampleHashing sampleCatalog

def runningBinding : Binding := { sampleBinding with nativeRunId := some "n1" }

def runningAttempt : DispatchAttempt :=
  { sampleAttempt "a1" .submitted with nativeRunId := some "n1" }

def runningRequest : Request :=
  recordRequest 2 3 30 (promptRecord "p1" 0 10 (.dispatching runningAttempt)) "a1"
    [.reconciled (sampleAttempt "a1" .intent) .submitted, .dispatch runningAttempt]
    [⟨"p1", some ⟨sampleScope, sampleBinding,
      promptRecord "p1" 0 10 (.dispatching (sampleAttempt "a1" .intent)),
      ⟨"p1", "a1", runningBinding, .submitted⟩⟩⟩]

/-- The rows of one open turn: its question, or the surface of its question. -/
def openRequest (revision : Nat) (body : EventBody) (interactions : List Interaction)
    (surfaces : List SurfaceState) : Request :=
  ⟨defaultLimits, .commit {
    scope := sampleScope
    expectedRevision := revision
    expectedGeneration := "g1"
    session := { sampleSession with
      revision := revision + 1
      lastSequence := revision + 3 }
    commands := []
    events := [⟨sampleScope, sampleEvent (revision + 3), revision + 3, "g1",
      some "p1", some "a1", body⟩]
    interactions := interactions
    deliveries := []
    surfaces := surfaces
    providerFacts := []
    nowMs := some 40 }⟩

def sampleSurface : SurfaceState where
  scope := sampleScope
  generation := "g1"
  nativeRunId := "n1"
  surfaceId := "f1"
  surfaceInstanceId := "i1"
  revision := 0
  interactionId := "q1"
  sourceComponentId := "c1"
  eventName := "e"
  catalogId := "c"
  catalogVersion := "1"
  status := .active
  messages := [.cons "rows" (.list (List.replicate 40 (.int 1000000000000000))) .nil]

def surfaceRequests : List Request :=
  firstRequests ++ [runningRequest,
    openRequest 3 (.interactionPending "q1" .nil 4000)
      [⟨sampleScope, "q1", "p1", "g1", some "n1", 4000, .pending, "k1", .nil⟩] [],
    openRequest 4 (.surface sampleSurface) [] [sampleSurface]]

def recoveryInput : RecoveryUnavailable := ⟨sampleScope, 5, "g1", "recovery"⟩

def tightLimits : Limits := { defaultLimits with maxBytes := 1285 }

def tightRequests : List Request := surfaceRequests.map fun request => { request with limits := tightLimits }

theorem sampleDigests : DigestsNamed := by
  intro seed label
  unfold RecordHashing.eventId sampleHashing
  dsimp only
  split <;> decide +kernel

theorem sampleCurrent {requests : List Request} (revision : (perform sampleStart requests).2.session.revision = 5)
    (scope : (perform sampleStart requests).2.session.scope = sampleScope)
    (fresh : ((perform sampleStart requests).2.events.all fun e => e.eventId.length < 64) = true) :
    Current (perform sampleStart requests).2 sampleStage recoveryInput := by
  refine ⟨scope.symm, revision.symm, rfl, by decide +kernel, fun label => ?_⟩
  have digest : (RecordHashing.eventId "recovery" label).length = 64 := by
    unfold RecordHashing.eventId sampleHashing
    dsimp only
    split <;> decide +kernel
  unfold SessionWorkspace.hasEvent
  rw [List.any_eq_false]
  intro e mem same
  have short : e.eventId.length < 64 := of_decide_eq_true (List.all_eq_true.mp fresh e mem)
  have long : e.eventId.length = 64 := (congrArg String.length (of_decide_eq_true same)).trans digest
  rw [long] at short
  exact absurd short (by decide)

end Samples

end RssMdmAgent.SessionHandoff
