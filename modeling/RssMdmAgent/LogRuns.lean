import RssMdmAgent.EventLog

set_option autoImplicit false

/-! # The log of every reachable session -/

namespace RssMdmAgent.LogRuns
open BoundedJson OrderedRows SessionRecords SessionValidity SessionState BatchReview BatchCommit
open SessionOperations SessionSteps ReviewRules CommitRules HandoffRules SessionInvariant SessionHandoff EventLog
open TransitionRuns
open ContractPlan (bind_ok)

/-! ## The labels of a handoff -/

def DigestsDistinct [RecordHashing] : Prop := ∀ seed, Function.Injective (RecordHashing.eventId seed)

theorem labels_nodup {ρ : Type} {key : ρ → Id} {part : ρ → Option Part} {start : String}
    (labelled : ∀ row p, part row = some p → p.label = start ++ key row) : ∀ {list : List ρ},
    (list.map key).Nodup → ((list.filterMap part).map (·.label)).Nodup
  | [], _ => .nil
  | row :: rest, distinct => by
    obtain ⟨absent, distinct⟩ := List.nodup_cons.mp distinct
    have tail := labels_nodup labelled distinct
    rw [List.filterMap_cons]
    cases made : part row with
    | none => exact tail
    | some p =>
      refine List.nodup_cons.mpr ⟨fun mem => ?_, tail⟩
      obtain ⟨p', listed, same⟩ := List.mem_map.mp mem
      obtain ⟨row', mem, made'⟩ := List.mem_filterMap.mp listed
      have labels : p'.label = p.label := same
      rw [labelled row p made, labelled row' p' made'] at labels
      have keys : key row' = key row := (String.append_right_inj start).mp labels
      exact absent (keys ▸ List.mem_map_of_mem mem)

theorem label_head {ρ : Type} {key : ρ → Id} {part : ρ → Option Part} {start : String}
    (labelled : ∀ row p, part row = some p → p.label = start ++ key row) {list : List ρ} {first : Char}
    (head : start.toList.head? = some first) {label : String} (mem : label ∈ (list.filterMap part).map (·.label)) :
    label.toList.head? = some first := by
  obtain ⟨p, listed, rfl⟩ := List.mem_map.mp mem
  obtain ⟨row, _, made⟩ := List.mem_filterMap.mp listed
  rw [labelled row p made, String.toList_append, List.head?_append, head]
  rfl

theorem handoffLabels_nodup (s : SessionWorkspace) (first : EventBody) :
    ((handoffParts s first).map (·.label)).Nodup := by
  have commands : ∀ c p, commandPart c = some p → p.label = "command-" ++ c.commandId := by
    intro c p made
    unfold commandPart at made
    split at made
    · split at made <;> cases made <;> simp [toString]
    · cases made
  have interactions : ∀ i p, interactionPart s i = some p → p.label = "interaction-" ++ i.interactionId := by
    intro i p made
    unfold interactionPart at made
    split at made
    · cases made
      simp [toString]
    · cases made
  have surfaces : ∀ row p, surfacePart s row = some p → p.label = "surface-" ++ row.surfaceInstanceId := by
    intro row p made
    unfold surfacePart at made
    split at made
    · cases made
      simp [toString]
    · cases made
  have selected : ((s.commandsInStates openStates).map (·.commandId)).Nodup :=
    s.commands.distinct.sublist (List.filter_sublist.map _)
  unfold handoffParts
  rw [List.map_cons, List.map_append, List.map_append, List.nodup_cons, List.nodup_append, List.nodup_append]
  have fromCommand : ∀ {label}, label ∈ ((s.commandsInStates openStates).filterMap commandPart).map (·.label) →
      label.toList.head? = some 'c' := label_head commands rfl
  have fromInteraction : ∀ {label}, label ∈ (s.interactions.entries.filterMap (interactionPart s)).map (·.label) →
      label.toList.head? = some 'i' := label_head interactions rfl
  have fromSurface : ∀ {label}, label ∈ (s.surfaces.entries.filterMap (surfacePart s)).map (·.label) →
      label.toList.head? = some 's' := label_head surfaces rfl
  have rebind : ("rebind" : String).toList.head? = some 'r' := rfl
  refine ⟨fun mem => ?_, ⟨labels_nodup commands selected, labels_nodup interactions s.interactions.distinct,
    fun a left b right same => ?_⟩, labels_nodup surfaces s.surfaces.distinct, fun a left b right same => ?_⟩
  · rcases List.mem_append.mp mem with mem | mem
    · rcases List.mem_append.mp mem with mem | mem
      · exact absurd (rebind.symm.trans (fromCommand mem)) (by decide)
      · exact absurd (rebind.symm.trans (fromInteraction mem)) (by decide)
    · exact absurd (rebind.symm.trans (fromSurface mem)) (by decide)
  · subst same
    exact absurd ((fromCommand left).symm.trans (fromInteraction right)) (by decide)
  · subst same
    rcases List.mem_append.mp left with left | left
    · exact absurd ((fromCommand left).symm.trans (fromSurface right)) (by decide)
    · exact absurd ((fromInteraction left).symm.trans (fromSurface right)) (by decide)

/-! ## Handoffs -/

section Handoff
variable [RecordHashing] {limits : Limits} {s t : SessionWorkspace} {input : RecoveryUnavailable}
  {generation k : Id} {first : EventBody} {session : Session} {e : Event}

/-- The log and the head of a handoff. -/
structure HandsOff (s t : SessionWorkspace) (input : RecoveryUnavailable) (first : EventBody) (generation : Id)
    (session : Session) : Prop where
  surface : surfaceOf first = none
  status : statusOf first = none
  result : t = handoffState s session generation (handoffEvents s input generation first)
  counted : session.lastSequence = s.session.lastSequence + (handoffEvents s input generation first).length
  fresh : ∀ e ∈ handoffEvents s input generation first, s.hasEvent e.eventId = false

theorem mem_handoffEvents : e ∈ handoffEvents s input generation first ↔
    ∃ index part, (handoffParts s first)[index]? = some part ∧ e = partEvent s input generation index part := by
  unfold handoffEvents
  rw [List.mem_iff_getElem?]
  constructor
  · rintro ⟨index, found⟩
    rw [List.getElem?_mapIdx] at found
    obtain ⟨part, listed, same⟩ := Option.map_eq_some_iff.mp found
    exact ⟨index, part, listed, same.symm⟩
  · rintro ⟨index, part, listed, rfl⟩
    exact ⟨index, by rw [List.getElem?_mapIdx, listed, Option.map_some]⟩

theorem handoffRows_events {pass : HandoffPass} (consistent : Consistent s) (surface : surfaceOf first = none)
    (rows : handoffRows limits s input generation first = .ok pass) :
    pass = ⟨handedRows s generation, handoffEvents s input generation first⟩ ∧
      ∀ e ∈ handoffEvents s input generation first, s.hasEvent e.eventId = false := by
  rw [handoffRows_publishes consistent surface] at rows
  cases published : (handoffParts s first).foldlM (publish limits s input generation) [] with
  | error failure =>
    rw [published] at rows
    cases rows
  | ok events =>
    rw [published] at rows
    cases rows
    obtain ⟨publishable, rfl⟩ := publishAll_ok.mp published
    have same : [] ++ partEvents s input generation ([] : List Event).length (handoffParts s first) =
        handoffEvents s input generation first := by
      simp only [partEvents, handoffEvents, List.nil_append, List.length_nil, Nat.zero_add]
    rw [same]
    refine ⟨rfl, fun e mem => ?_⟩
    obtain ⟨index, part, listed, rfl⟩ := mem_handoffEvents.mp mem
    have checked := (publishable index part listed).2.2
    rwa [List.length_nil, Nat.zero_add] at checked

theorem reduceHandoff_events {restored : Option VerifiedProviderSession} (consistent : Consistent s)
    (h : reduceHandoff limits s input restored = .ok t) :
    ∃ first generation session, HandsOff s t input first generation session := by
  unfold reduceHandoff at h
  obtain ⟨_, -, h⟩ := bind_ok.mp h
  obtain ⟨_, -, h⟩ := bind_ok.mp h
  obtain ⟨_, -, h⟩ := bind_ok.mp h
  obtain ⟨_, -, h⟩ := bind_ok.mp h
  obtain ⟨_, -, h⟩ := bind_ok.mp h
  obtain ⟨_, -, h⟩ := bind_ok.mp h
  obtain ⟨stage, -, h⟩ := bind_ok.mp h
  obtain ⟨_, -, h⟩ := bind_ok.mp h
  obtain ⟨pass, rows, h⟩ := bind_ok.mp h
  obtain ⟨_, -, h⟩ := bind_ok.mp h
  cases h
  obtain ⟨rfl, fresh⟩ := handoffRows_events consistent (by cases restored <;> rfl) rows
  exact ⟨_, _, _, by cases restored <;> rfl, by cases restored <;> rfl, rfl, rfl, fresh⟩

theorem handoff_appends (hands : HandsOff s t input first generation session) :
    Appends s t (handoffEvents s input generation first) := by
  have result := hands.result
  subst result
  refine ⟨rfl, hands.counted, fun index e found => ?_⟩
  unfold handoffEvents at found
  rw [List.getElem?_mapIdx] at found
  obtain ⟨part, _, rfl⟩ := Option.map_eq_some_iff.mp found
  rfl

theorem handoff_extends (digests : DigestsDistinct) (hands : HandsOff s t input first generation session) :
    Extends s t (handoffEvents s input generation first) := by
  obtain ⟨log, counted, placed⟩ := handoff_appends hands
  refine ⟨log, counted, placed, ?_, hands.fresh⟩
  have ids : (handoffEvents s input generation first).map (·.eventId) =
      ((handoffParts s first).map (·.label)).map (RecordHashing.eventId input.eventId) := by
    unfold handoffEvents
    apply List.ext_getElem?
    intro index
    simp only [List.getElem?_map, List.getElem?_mapIdx, Option.map_map]
    rfl
  rw [ids]
  exact (handoffLabels_nodup s first).map (digests input.eventId)

/-! The parts of one command -/

theorem handoff_silent {part : Part} {index : Nat} {v : Option CommandView}
    (body : (∃ id, part.body = .interactionUnavailable id) ∨ ∃ row, part.body = .surface row) :
    viewAfter v (partEvent s input generation index part) = v := by
  unfold viewAfter partEvent
  rcases body with ⟨id, body⟩ | ⟨row, body⟩
  · rw [body]
    cases v <;> rfl
  · rw [body]
    cases v <;> rfl

theorem handoff_view {c : CommandRecord} {part : Part} {index : Nat} (published : commandPart c = some part) :
    viewAfter (some (viewOf c)) (partEvent s input generation index part) =
        some (viewOf (handedOff generation c)) ∧
      viewAfter (some (viewOf (handedOff generation c))) (partEvent s input generation index part) =
        some (viewOf (handedOff generation c)) := by
  unfold commandPart at published
  split at published
  · rename_i handed
    have unsettled : endingOf c.state = none := by
      unfold isHandedOff at handed
      rw [Bool.and_eq_true, Bool.not_eq_true'] at handed
      exact endingOf_none.mpr handed.1
    split at published
    · rename_i d sent
      cases published
      have after : viewOf (handedOff generation c) =
          ⟨c.command, .reconciliationRequired, some { d with observerGeneration := generation }, none⟩ := by
        unfold handedOff
        rw [sent]
        rfl
      have before : viewOf c = ⟨c.command, c.state.name, some d, none⟩ := by
        unfold viewOf
        rw [sent, unsettled]
      rw [after, before]
      exact ⟨rfl, rfl⟩
    · rename_i unsent
      cases published
      have after : viewOf (handedOff generation c) =
          ⟨c.command, .invalidated, none, some (.invalidated staleFailure)⟩ := by
        unfold handedOff
        rw [unsent]
        rfl
      have before : viewOf c = ⟨c.command, c.state.name, none, none⟩ := by
        unfold viewOf
        rw [unsent, unsettled]
      rw [after, before]
      exact ⟨rfl, rfl⟩
  · cases published

omit [RecordHashing] in
theorem commandPart_none {c : CommandRecord} : commandPart c = none ↔ isHandedOff c = false := by
  unfold commandPart
  cases handed : isHandedOff c with
  | false => simp
  | true => cases sent : c.dispatch <;> simp

omit [RecordHashing] in
theorem commandPart_named {c : CommandRecord} {part : Part} (published : commandPart c = some part) :
    part.commandId = some c.commandId ∧ surfaceOf part.body = none ∧ statusOf part.body = none := by
  unfold commandPart at published
  split at published
  · split at published <;> cases published <;> exact ⟨rfl, rfl, rfl⟩
  · cases published

omit [RecordHashing] in
theorem mem_handoffParts {part : Part} : part ∈ handoffParts s first ↔ part = ⟨none, none, first, "rebind"⟩ ∨
    (∃ c, s.commands.get c.commandId = some c ∧ commandPart c = some part) ∨
    (∃ i, s.interactions.get i.interactionId = some i ∧ interactionPart s i = some part) ∨
    ∃ row, s.surfaces.get row.surfaceInstanceId = some row ∧ surfacePart s row = some part := by
  unfold handoffParts
  rw [List.mem_cons, List.mem_append, List.mem_append, List.mem_filterMap, List.mem_filterMap, List.mem_filterMap,
    or_assoc]
  refine or_congr_right (or_congr ?_ (or_congr ?_ ?_))
  · refine exists_congr fun c => and_congr_left fun published => ?_
    have handed : isHandedOff c = true := by
      by_contra kept
      rw [commandPart_none.mpr (Bool.eq_false_of_not_eq_true kept)] at published
      cases published
    unfold isHandedOff at handed
    rw [Bool.and_eq_true, Bool.not_eq_true'] at handed
    constructor
    · exact fun listed => Rows.get_of_mem (Rows.mem_select.mp listed).1
    · exact fun found => Rows.mem_select.mpr ⟨Rows.get_mem found, by simpa using unsettled_open.mp handed.1⟩
  · exact exists_congr fun i => and_congr_left fun _ => ⟨Rows.get_of_mem, Rows.get_mem⟩
  · exact exists_congr fun row => and_congr_left fun _ => ⟨Rows.get_of_mem, Rows.get_mem⟩

theorem handoffEvents_named (mem : e ∈ handoffEvents s input generation first) (names : e.commandId = some k) :
    (∃ c part index, s.commands.get k = some c ∧ commandPart c = some part ∧
      e = partEvent s input generation index part) ∨ ∀ v, viewAfter v e = v := by
  obtain ⟨index, part, listed, rfl⟩ := mem_handoffEvents.mp mem
  rcases mem_handoffParts.mp (List.mem_of_getElem? listed) with rfl | ⟨c, found, published⟩ | ⟨i, _, published⟩ |
    ⟨row, _, published⟩
  · cases names
  · have owner := (commandPart_named published).1.symm.trans names
    rw [Option.some.inj owner] at found
    exact .inl ⟨c, part, index, found, published, rfl⟩
  · refine .inr fun v => handoff_silent (.inl ?_)
    unfold interactionPart at published
    split at published <;> cases published
    exact ⟨_, rfl⟩
  · refine .inr fun v => handoff_silent (.inr ?_)
    unfold surfacePart at published
    split at published <;> cases published
    exact ⟨_, rfl⟩

theorem handoff_commands {p : Replica} (hands : HandsOff s t input first generation session)
    (before : p.commands k = (s.commands.get k).map viewOf) :
    ((handoffEvents s input generation first).foldl Replica.apply p).commands k =
      (t.commands.get k).map viewOf := by
  rw [foldl_commands, before, hands.result, handoffState_command]
  have named : ∀ e ∈ (handoffEvents s input generation first).filter (fun e => e.commandId = some k),
      (∃ c part index, s.commands.get k = some c ∧ commandPart c = some part ∧
        e = partEvent s input generation index part) ∨ ∀ v, viewAfter v e = v := by
    intro e selected
    obtain ⟨mem, names⟩ := List.mem_filter.mp selected
    exact handoffEvents_named mem (of_decide_eq_true names)
  cases stored : s.commands.get k with
  | none =>
    apply foldl_keeps (fun v => v = none) _ rfl
    rintro v rfl e mem
    rcases named e mem with ⟨c, _, _, found, _⟩ | silent
    · rw [stored] at found
      cases found
    · exact silent none
  | some c =>
    rw [Option.map_some, Option.map_some, Option.map_some]
    cases handed : isHandedOff c with
    | false =>
      apply foldl_keeps (fun v => v = some (viewOf c)) _ rfl
      rintro v rfl e mem
      rcases named e mem with ⟨c', part, _, found, published, _⟩ | silent
      · cases stored.symm.trans found
        rw [commandPart_none.mpr handed] at published
        cases published
      · exact silent _
    | true =>
      rw [if_pos rfl]
      obtain ⟨part, published⟩ : ∃ part, commandPart c = some part := by
        refine Option.ne_none_iff_exists'.mp fun none => ?_
        rw [commandPart_none.mp none] at handed
        cases handed
      have steps : ∀ v, v = some (viewOf c) ∨ v = some (viewOf (handedOff generation c)) →
          ∀ e ∈ (handoffEvents s input generation first).filter (fun e => e.commandId = some k),
            viewAfter v e = v ∨ viewAfter v e = some (viewOf (handedOff generation c)) := by
        intro v right e mem
        rcases named e mem with ⟨c', part, index, found, published, rfl⟩ | silent
        · cases stored.symm.trans found
          right
          rcases right with rfl | rfl
          · exact (handoff_view published).1
          · exact (handoff_view published).2
        · exact .inl (silent v)
      apply foldl_reaches (fun v => v = some (viewOf c) ∨ v = some (viewOf (handedOff generation c)))
        (fun v => v = some (viewOf (handedOff generation c)))
      · intro v right e mem
        rcases steps v right e mem with kept | turned
        · rw [kept]
          exact right
        · exact .inr turned
      · intro v right now e mem
        rcases steps v right e mem with kept | turned
        · exact kept.trans now
        · exact turned
      · exact .inl rfl
      · have listed : part ∈ handoffParts s first :=
          mem_handoffParts.mpr (.inr (.inl ⟨c, Rows.get_of_mem (Rows.get_mem stored), published⟩))
        obtain ⟨index, listed⟩ := List.mem_iff_getElem?.mp listed
        have names : part.commandId = some k := by rw [(commandPart_named published).1, Rows.get_key stored]
        refine .inr ⟨partEvent s input generation index part, List.mem_filter.mpr
          ⟨mem_handoffEvents.mpr ⟨index, part, listed, rfl⟩, decide_eq_true names⟩, fun v right => ?_⟩
        rcases right with rfl | rfl
        · exact (handoff_view published).1
        · exact (handoff_view published).2

theorem handoff_interactions {p : Replica} (hands : HandsOff s t input first generation session)
    (before : p.interactions k = (s.interactions.get k).map (·.status)) :
    ((handoffEvents s input generation first).foldl Replica.apply p).interactions k =
      (t.interactions.get k).map (·.status) := by
  rw [hands.result, handoffState_interaction, Option.map_map]
  apply foldl_interactions
  · intro e mem set body
    obtain ⟨index, part, listed, rfl⟩ := mem_handoffEvents.mp mem
    change statusOf part.body = _ at body
    rcases mem_handoffParts.mp (List.mem_of_getElem? listed) with rfl | ⟨c, _, published⟩ | ⟨i, found, published⟩ |
      ⟨row, _, published⟩
    · rw [hands.status] at body
      cases body
    · rw [(commandPart_named published).2.2] at body
      cases body
    · unfold interactionPart at published
      split at published
      · rename_i waits
        cases published
        cases body
        rw [found]
        simp [waits, ended]
      · cases published
    · unfold surfacePart at published
      split at published <;> cases published
      cases body
  · cases stored : s.interactions.get k with
    | none => exact .inl (by rw [before, stored]; rfl)
    | some i =>
      cases waits : isPending i with
      | false => exact .inl (by rw [before, stored]; simp [waits])
      | true =>
        have same := Rows.get_key stored
        subst same
        have published : interactionPart s i = some ⟨some i.commandId, attemptFor s i.commandId,
            .interactionUnavailable i.interactionId, s!"interaction-{i.interactionId}"⟩ := by
          unfold interactionPart
          rw [if_pos waits]
        obtain ⟨index, listed⟩ := List.mem_iff_getElem?.mp
          (mem_handoffParts.mpr (.inr (.inr (.inl ⟨i, stored, published⟩))) : _ ∈ handoffParts s first)
        exact .inr ⟨_, mem_handoffEvents.mpr ⟨index, _, listed, rfl⟩, _, rfl⟩

theorem handoff_surfaces {p : Replica} (hands : HandsOff s t input first generation session)
    (before : p.surfaces k = s.surfaces.get k) :
    ((handoffEvents s input generation first).foldl Replica.apply p).surfaces k = t.surfaces.get k := by
  rw [hands.result, handoffState_surface]
  apply foldl_surfaces
  · intro e mem row body same
    subst same
    obtain ⟨index, part, listed, rfl⟩ := mem_handoffEvents.mp mem
    change surfaceOf part.body = _ at body
    rcases mem_handoffParts.mp (List.mem_of_getElem? listed) with rfl | ⟨c, _, published⟩ | ⟨i, _, published⟩ |
      ⟨old, found, published⟩
    · rw [hands.surface] at body
      cases body
    · rw [(commandPart_named published).2.1] at body
      cases body
    · unfold interactionPart at published
      split at published <;> cases published
      cases body
    · unfold surfacePart at published
      split at published
      · rename_i lit
        cases published
        cases body
        change Option.map _ (s.surfaces.get old.surfaceInstanceId) = _
        rw [found, Option.map_some, if_pos lit]
      · cases published
  · cases stored : s.surfaces.get k with
    | none => exact .inl (by rw [before, stored]; rfl)
    | some row =>
      cases lit : isActive row with
      | false => exact .inl (by rw [before, stored]; simp [lit])
      | true =>
        have same := Rows.get_key stored
        subst same
        obtain ⟨part, published, body⟩ : ∃ part, surfacePart s row = some part ∧ part.body = .surface (withdrawn row) := by
          unfold surfacePart
          rw [if_pos lit]
          exact ⟨_, rfl, rfl⟩
        obtain ⟨index, listed⟩ := List.mem_iff_getElem?.mp
          (mem_handoffParts.mpr (.inr (.inr (.inr ⟨row, stored, published⟩))) : part ∈ handoffParts s first)
        refine .inr ⟨_, mem_handoffEvents.mpr ⟨index, _, listed, rfl⟩, withdrawn row, ?_, rfl⟩
        change surfaceOf part.body = _
        rw [body]
        rfl

end Handoff

/-! ## The steps of a log -/

section Steps
variable [RecordHashing] {limits : Limits} {s t : SessionWorkspace}

def retirementId (scope : Namespace) (revision : Nat) : Id :=
  RecordHashing.eventId ("[" ++ ",".intercalate ([scope.tenantId, scope.principalId, scope.authorityId,
    scope.sessionId].map fun part => "\"" ++ part ++ "\"") ++ "]") s!"retire-{revision}"

structure Faithful (s : SessionWorkspace) : Prop where
  consistent : Consistent s
  numbered : Numbered s
  told : Told s

theorem retireSession_log {revision : Nat} {generation : Id}
    (h : retireSession limits s revision generation = .ok t) :
    ∃ event, event.eventId = retirementId s.session.scope revision ∧ Appends s t [event] ∧
      (Told s → Told t) := by
  unfold retireSession at h
  obtain ⟨_, -, h⟩ := bind_ok.mp h
  obtain ⟨_, -, h⟩ := bind_ok.mp h
  obtain ⟨key, named, h⟩ := bind_ok.mp h
  obtain ⟨_, -, h⟩ := bind_ok.mp h
  obtain ⟨_, -, h⟩ := bind_ok.mp h
  cases h
  unfold namespaceKey at named
  split at named
  · cases named
    refine ⟨_, rfl, ⟨rfl, rfl, fun index e found => ?_⟩, fun told => ?_⟩
    · cases index with
      | zero =>
        cases found
        rfl
      | succ index => cases found
    · exact told.extend rfl (fun _ _ before => before) (fun _ _ before => before) fun _ _ before => before
  · cases named

omit [RecordHashing] in
theorem selectConnection_log {connectionId : Id} {revision : Nat} {freshContext : Bool}
    (h : selectConnection s connectionId revision freshContext = .ok t) :
    ∃ session, t = { s with session := session } ∧ session.lastSequence = s.session.lastSequence := by
  unfold selectConnection at h
  obtain ⟨_, -, h⟩ := bind_ok.mp h
  obtain ⟨_, -, h⟩ := bind_ok.mp h
  obtain ⟨_, -, h⟩ := bind_ok.mp h
  obtain ⟨_, -, h⟩ := bind_ok.mp h
  split at h
  · cases h
    exact ⟨s.session, rfl, rfl⟩
  · cases h
    refine ⟨_, rfl, ?_⟩
    split <;> rfl

omit [RecordHashing] in
theorem settled_closed (consistent : Consistent s) (settled : hasUnsettled s = false) :
    (∀ k i, s.interactions.get k = some i → closedInteraction i = i) ∧
      ∀ k row, s.surfaces.get k = some row → closedSurface row = row := by
  have idle : ∀ command, ¬Live s command := by
    rintro command ⟨c, d, found, unsettled, _⟩
    have busy : hasUnsettled s = true := hasUnsettled_iff.mpr ⟨c, Rows.get_mem found, unsettled⟩
    rw [settled] at busy
    cases busy
  refine ⟨fun k i found => if_neg fun waits => idle _ (consistent.pending k i found waits),
    fun k row found => if_neg fun lit => ?_⟩
  obtain ⟨i, _, live⟩ := consistent.active k row found lit
  exact idle _ live

omit [RecordHashing] in
theorem startStage_log {head session : Session} {stage : ContextStage} (started : startStage head stage = .ok session)
    (same : head.lastSequence = s.session.lastSequence) : session.lastSequence = s.session.lastSequence := by
  unfold startStage at started
  split at started
  · cases started
  · cases started
    exact same

theorem activateStage_log {input : StageActivation} (h : activateStage s input = .ok t) (before : Faithful s) :
    t.events = s.events ∧ t.session.lastSequence = s.session.lastSequence ∧ Told t := by
  obtain ⟨_, settled, session, stage, started, rfl⟩ := activateStage_ok h
  obtain ⟨interactions, surfaces⟩ := settled_closed before.consistent settled
  refine ⟨rfl, startStage_log started rfl, before.told.extend
    (show s.events = s.events ++ ([] : List Event) from (List.append_nil _).symm) (fun _ _ same => same)
    (fun p k same => ?_) fun p k same => ?_⟩
  · rw [List.foldl_nil, same, get_mapRows fun row => by unfold closedInteraction; split <;> rfl]
    cases found : s.interactions.get k with
    | none => rfl
    | some i => rw [Option.map_some, Option.map_some, interactions k i found]; rfl
  · rw [List.foldl_nil, same, get_mapRows fun row => by unfold closedSurface; split <;> rfl]
    cases found : s.surfaces.get k with
    | none => rfl
    | some row => rw [Option.map_some, surfaces k row found]

end Steps

section Runs
variable [RecordHashing] [SurfaceCatalog] {s t : SessionWorkspace}

/-- The steps that every operation is made of, with the conditions that its own checks leave out. -/
inductive LogStep (s t : SessionWorkspace) : Prop where
  | committed {limits : Limits} {batch : SessionCommit} {accepting suspending : Bool}
      (backed : backsBatch s batch = true) (h : reduceCommit limits s batch accepting suspending = .ok t)
  | handedOff {limits : Limits} {input : RecoveryUnavailable} {restored : Option VerifiedProviderSession}
      (h : reduceHandoff limits s input restored = .ok t)
  | selected {connectionId : Id} {revision : Nat} {freshContext : Bool}
      (h : selectConnection s connectionId revision freshContext = .ok t)
  | activated {input : StageActivation} (h : activateStage s input = .ok t)
  | retired {limits : Limits} {revision : Nat} {generation : Id}
      (unused : s.hasEvent (retirementId s.session.scope revision) = false)
      (h : retireSession limits s revision generation = .ok t)

theorem LogStep.keeps (digests : DigestsDistinct) (step : LogStep s t) (before : Faithful s) : Faithful t := by
  obtain ⟨consistent, numbered, told⟩ := before
  cases step with
  | committed backed h =>
    obtain ⟨rfl, r, pass, done⟩ := reduceCommit_ok h
    have said := commit_published done h
    exact ⟨commit_consistent done consistent, numbered.extend (commit_extends done said),
      commit_told done said backed told⟩
  | handedOff h =>
    obtain ⟨first, generation, session, hands⟩ := reduceHandoff_events consistent h
    have grows := handoff_extends digests hands
    exact ⟨quiet_keeps (.handedOff h) consistent, numbered.extend grows, told.extend grows.log
      (fun _ _ => handoff_commands hands) (fun _ _ => handoff_interactions hands) fun _ _ => handoff_surfaces hands⟩
  | selected h =>
    have after := quiet_keeps (.selected h) consistent
    obtain ⟨session, rfl, counted⟩ := selectConnection_log h
    exact ⟨after, numbered.extend (.nil rfl counted), told⟩
  | activated h =>
    obtain ⟨log, counted, after⟩ := activateStage_log h ⟨consistent, numbered, told⟩
    exact ⟨quiet_keeps (.activated h) consistent, numbered.extend (.nil log counted), after⟩
  | retired unused h =>
    obtain ⟨event, name, appends, after⟩ := retireSession_log h
    have grows : Extends s t [event] := by
      refine ⟨appends.log, appends.counted, appends.placed, by simp, fun e mem => ?_⟩
      rw [List.mem_singleton.mp mem, name]
      exact unused
    exact ⟨quiet_keeps (.retired h) consistent, numbered.extend grows, after told⟩

def Backed (s : SessionWorkspace) (q : Request) : Bool :=
  match q.operation with
  | .commit batch => backsBatch s batch
  | .retire revision _ => !s.hasEvent (retirementId s.session.scope revision)
  | _ => true

omit [SurfaceCatalog] in
theorem answerEvents_backed {input : AcceptCommand} {batch : SessionCommit} :
    ∀ {rows : List Interaction} {index : Nat} {events : List Event}, answerEvents s input index rows = .ok events →
    ∀ e ∈ events, backsEvent s batch e = true
  | [], _, _, h, e, mem => by
    cases h
    exact absurd mem List.not_mem_nil
  | row :: rest, index, events, h, e, mem => by
    unfold answerEvents at h
    split at h
    · cases h
    · obtain ⟨later, others, h⟩ := bind_ok.mp h
      cases h
      rcases List.mem_cons.mp mem with rfl | mem
      · rfl
      · exact answerEvents_backed others e mem

theorem acceptance_step {limits : Limits} {input : AcceptCommand} {suspending : Bool} {stage : ContextStage}
    {interactions : List Interaction} {answered : List Event}
    (accepted : Accepted limits s input suspending t stage interactions answered) : LogStep s t := by
  refine .committed (List.all_eq_true.mpr fun e mem => ?_) accepted.commit
  rcases List.mem_cons.mp mem with rfl | mem
  · rfl
  · exact answerEvents_backed accepted.said e mem

omit [SurfaceCatalog] in
theorem cancellation_backed {input : SessionSuspension} {generation : Id} {cancel target : CommandRecord} :
    backsBatch s (cancellationBatch input generation s cancel target) = true := by
  unfold backsBatch cancellationBatch
  simp [backsEvent, CommandRecord.commandId, endingOf, announced]

theorem cancelQueued_steps {limits : Limits} {input : SessionSuspension} {generation : Id}
    {target : CommandRecord} (h : cancelQueued limits input generation s target = .ok t) :
    Relation.ReflTransGen LogStep s t := by
  unfold cancelQueued at h
  split at h
  · cases h
    exact .refl
  · obtain ⟨⟨middle, receipt⟩, accepted, h⟩ := bind_ok.mp h
    dsimp only at h
    split at h
    · cases h
    · have closing : LogStep middle t := .committed cancellation_backed h
      rcases reduceAcceptance_ok accepted with rfl | ⟨stage, interactions, answered, accepted⟩
      · exact .single closing
      · exact .tail (.single (acceptance_step accepted)) closing

theorem suspendSession_steps {limits : Limits} {input : SessionSuspension}
    (h : suspendSession limits s input = .ok t) : Relation.ReflTransGen LogStep s t := by
  unfold suspendSession at h
  obtain ⟨_, -, h⟩ := bind_ok.mp h
  obtain ⟨_, -, h⟩ := bind_ok.mp h
  obtain ⟨_, -, h⟩ := bind_ok.mp h
  split at h
  · cases h
    exact .refl
  · obtain ⟨stage, -, h⟩ := bind_ok.mp h
    obtain ⟨_, -, h⟩ := bind_ok.mp h
    obtain ⟨next, cancelled, h⟩ := bind_ok.mp h
    have cancelled := foldlM_chain (fun _ _ _ step => cancelQueued_steps step) cancelled
    split at h
    · exact cancelled.tail (.handedOff h)
    · cases h
      exact cancelled

/-- Every operation whose events are backed is made of such steps. -/
theorem request_steps {q : Request} (backed : Backed s q = true) (h : q.apply s = .ok t) :
    Relation.ReflTransGen LogStep s t := by
  unfold Request.apply at h
  unfold Backed at backed
  cases named : q.operation with
  | accept input =>
    rw [named] at h
    dsimp only at h
    unfold acceptCommand at h
    cases accepted : reduceAcceptance q.limits s input false with
    | error e =>
      rw [accepted] at h
      cases h
    | ok result =>
      obtain ⟨next, receipt⟩ := result
      rw [accepted] at h
      cases h
      rcases reduceAcceptance_ok accepted with rfl | ⟨stage, interactions, answered, accepted⟩
      · exact .refl
      · exact .single (acceptance_step accepted)
  | commit batch =>
    rw [named] at h backed
    exact .single (.committed backed h)
  | rebind input restored =>
    rw [named] at h
    exact .single (.handedOff h)
  | recoverUnavailable input =>
    rw [named] at h
    exact .single (.handedOff h)
  | suspend input =>
    rw [named] at h
    exact suspendSession_steps h
  | select connectionId revision freshContext =>
    rw [named] at h
    exact .single (.selected h)
  | activate input =>
    rw [named] at h
    exact .single (.activated h)
  | retire revision generation =>
    rw [named] at h backed
    exact .single (.retired (by simpa using backed) h)

theorem request_keeps {q : Request} (digests : DigestsDistinct) (backed : Backed s q = true)
    (h : q.apply s = .ok t) (before : Faithful s) : Faithful t := by
  have steps := request_steps backed h
  clear h backed
  induction steps with
  | refl => exact before
  | tail _ step ih => exact step.keeps digests ih

omit [SurfaceCatalog] in
theorem created_faithful {session : Session} {limits : Limits} (h : createState session limits = .ok s) :
    Faithful s := by
  have consistent := created_consistent h
  unfold createState at h
  obtain ⟨_, -, h⟩ := bind_ok.mp h
  obtain ⟨_, fresh, h⟩ := bind_ok.mp h
  cases h
  rw [refuse_ok] at fresh
  simp only [not_or, not_not] at fresh
  refine ⟨consistent, ⟨fresh.2.1, fun index e found => by simp at found, .nil⟩, ?_⟩
  rfl

/-- What backs an event of a batch: the record of its command after the batch says the same, and a
published resolution is the one of a verified fact. -/
structure Backing (s t : SessionWorkspace) (batch : SessionCommit) (e : Event) : Prop where
  told : ∃ c, t.commands.get c.commandId = some c ∧ e.commandId = some c.commandId ∧ Tells c e
  resolved : ∀ attempt resolution, e.body = .reconciled attempt resolution →
    ∃ proof ∈ batch.providerFacts, e.commandId = some proof.commandId ∧
      ∃ record fact, s.commands.get proof.commandId = some record ∧
        providerFactFor proof s.session record = some fact ∧ fact.status.resolution = some resolution

theorem commit_backing {limits : Limits} {batch : SessionCommit} (backed : backsBatch s batch = true)
    (h : commitSession limits s batch = .ok t) {e : Event} (mem : e ∈ batch.events) : Backing s t batch e := by
  obtain ⟨rfl, r, pass, done⟩ := reduceCommit_ok h
  have said := commit_published done h
  obtain ⟨c, found, judged⟩ := reviewEvents_judged said.events e mem
  refine ⟨⟨c, found, judged.names, commit_tells done backed mem found judged⟩, fun attempt resolution body => ?_⟩
  obtain ⟨_, _, attempts, later, checked⟩ := commit_member done found (judged.present (by rw [body]; rfl))
  obtain ⟨proof, listed, owner, record, fact, stored, verified, named, _⟩ :=
    commit_resolution done backed mem judged.names body checked rfl
  exact ⟨proof, listed, owner ▸ judged.names, record, fact, owner ▸ stored, verified, named⟩

/-- The log of every run whose requests are backed counts its events and tells the stored rows, and every
event of an accepted batch is backed. -/
theorem log_faithful {labels : List Transition} (digests : DigestsDistinct) (reachable : Reachable labels s)
    (backed : ∀ label ∈ labels, Backed label.before label.request = true) :
    Numbered s ∧ Told s ∧ ∀ label ∈ labels, ∀ batch, label.request.operation = .commit batch →
      ∀ e ∈ batch.events, Backing label.before label.after batch e := by
  obtain ⟨session, limits, start, created, run⟩ := reachable
  have faithful : (∀ label ∈ labels, Backed label.before label.request = true) → Faithful s := by
    apply run.history (fun labels s => (∀ label ∈ labels, Backed label.before label.request = true) → Faithful s)
    · exact fun _ => created_faithful created
    · rintro done t label u ih ⟨rfl, rfl, h⟩ backed
      have before := ih fun label mem => backed label (List.mem_append_left _ mem)
      exact request_keeps digests (backed label (List.mem_append_right _ (List.mem_singleton_self label))) h before
  obtain ⟨_, numbered, told⟩ := faithful backed
  refine ⟨numbered, told, fun label mem batch named e listed => ?_⟩
  obtain ⟨t, u, rfl, rfl, h⟩ := run.step_of_mem mem
  have backs := backed label mem
  unfold Backed at backs
  unfold Request.apply at h
  rw [named] at h backs
  exact commit_backing backs h listed

/-! What every operation appends -/

theorem commit_appends {limits : Limits} {batch : SessionCommit} {accepting suspending : Bool}
    (h : reduceCommit limits s batch accepting suspending = .ok t) : Appends s t batch.events := by
  obtain ⟨rfl, r, pass, done⟩ := reduceCommit_ok h
  exact (commit_extends done (commit_published done h)).appends

theorem quiet_appends (consistent : Consistent s) (step : Quiet s t) : ∃ events, Appends s t events := by
  cases step with
  | cancelled _ _ _ _ h => exact ⟨_, commit_appends h⟩
  | handedOff h =>
    obtain ⟨first, generation, session, hands⟩ := reduceHandoff_events consistent h
    exact ⟨_, handoff_appends hands⟩
  | selected h =>
    obtain ⟨session, rfl, counted⟩ := selectConnection_log h
    exact ⟨[], .nil rfl counted⟩
  | activated h =>
    obtain ⟨_, _, session, stage, started, rfl⟩ := activateStage_ok h
    exact ⟨[], .nil rfl (startStage_log started rfl)⟩
  | retired h =>
    obtain ⟨event, _, appends, _⟩ := retireSession_log h
    exact ⟨[event], appends⟩

theorem request_appends {q : Request} (consistent : Consistent s) (h : q.apply s = .ok t) :
    ∃ events, Appends s t events := by
  cases apply_cases h with
  | kept same =>
    subst same
    exact ⟨[], .nil rfl rfl⟩
  | accepted _ accepted => exact ⟨_, commit_appends accepted.commit⟩
  | committed _ commit => exact ⟨_, commit_appends commit⟩
  | quiet run =>
    have kept : ∀ u, Relation.ReflTransGen Quiet s u → Consistent u ∧ ∃ events, Appends s u events := by
      intro u run
      induction run with
      | refl => exact ⟨consistent, [], .nil rfl rfl⟩
      | tail _ step ih =>
        obtain ⟨consistent, events, appends⟩ := ih
        obtain ⟨later, more⟩ := quiet_appends consistent step
        exact ⟨quiet_keeps step consistent, events ++ later, appends.trans more⟩
    exact (kept t run).2

end Runs

section Samples
open SessionTurns SessionSettlement
attribute [local instance] sampleCatalog

def loggedId : Id → String → Id
  | _, "rebind" => "cbaa1e50c40b8b76c1ed8fe2ec5a6621dde100382769c303d009b383ed5076e2"
  | _, "command-p1" => "f028fd03fe9cbd61ef77cf67507bff18730995a26ddd8c0ca196f9e1e0be415a"
  | _, label => "x" ++ label

@[reducible] def loggedHashing : RecordHashing := ⟨sampleHashing.fingerprint, loggedId, fun _ _ => ""⟩

attribute [local instance] loggedHashing

theorem loggedDigests : DigestsDistinct := by
  intro seed label label' same
  have apart : ∀ label : String, "cbaa1e50c40b8b76c1ed8fe2ec5a6621dde100382769c303d009b383ed5076e2" ≠ "x" ++ label ∧
      "f028fd03fe9cbd61ef77cf67507bff18730995a26ddd8c0ca196f9e1e0be415a" ≠ "x" ++ label := by
    intro label
    have head : ("x" ++ label).toList.head? = some 'x' := by
      rw [String.toList_append, List.head?_append]
      rfl
    constructor <;> intro same <;> rw [← same] at head <;> exact absurd head (by decide)
  change loggedId seed label = loggedId seed label' at same
  unfold loggedId at same
  split at same <;> split at same <;> first
    | rfl
    | exact absurd same (by decide)
    | exact absurd same (apart _).1
    | exact absurd same (apart _).2
    | exact absurd same.symm (apart _).1
    | exact absurd same.symm (apart _).2
    | exact (String.append_right_inj "x").mp same

def loggedRequests : List Request :=
  firstRequests ++ [submittedRequest, ⟨defaultLimits, .recoverUnavailable ⟨sampleScope, 3, "g1", "recovery"⟩⟩]

theorem loggedReachable (requests : List Request) :
    Reachable (perform sampleStart requests).1 (perform sampleStart requests).2 :=
  ⟨sampleSession, defaultLimits, sampleStart, by decide +kernel, perform_runs sampleStart requests⟩

theorem log_faithful_sample : (Numbered (perform sampleStart loggedRequests).2 ∧
    Told (perform sampleStart loggedRequests).2) ∧ (perform sampleStart loggedRequests).2.events.length = 7 := by
  have log : (∀ label ∈ (perform sampleStart loggedRequests).1, Backed label.before label.request = true) ∧
      (perform sampleStart loggedRequests).2.events.length = 7 := by decide +kernel
  obtain ⟨numbered, told, _⟩ := log_faithful loggedDigests (loggedReachable loggedRequests) log.1
  exact ⟨⟨numbered, told⟩, log.2⟩

def unbackedRequest : Request :=
  recordRequest 1 1 20 (promptRecord "p1" 0 10 (.dispatching (sampleAttempt "a1" .intent))) "a1"
    [.dispatch (sampleAttempt "a1" .intent), .status .dispatching, .acknowledged .steer] []

/-- An accepted batch leaves an acknowledgement in the log of a prompt that is being dispatched. -/
theorem log_unbacked : DigestsDistinct ∧
    Reachable (perform sampleStart [promptRequest "p1" "e1" 0 10, unbackedRequest]).1
      (perform sampleStart [promptRequest "p1" "e1" 0 10, unbackedRequest]).2 ∧
    ((perform sampleStart [promptRequest "p1" "e1" 0 10, unbackedRequest]).2.commands.get "p1").map
      (·.state.name) = some .dispatching ∧
    ¬Told (perform sampleStart [promptRequest "p1" "e1" 0 10, unbackedRequest]).2 := by
  have log : ((perform sampleStart [promptRequest "p1" "e1" 0 10, unbackedRequest]).2.commands.get "p1").map
        (·.state.name) = some .dispatching ∧
      ((replay (perform sampleStart [promptRequest "p1" "e1" 0 10, unbackedRequest]).2.events).commands "p1").map
        (·.name) = some .acknowledged ∧
      ((Replica.of (perform sampleStart [promptRequest "p1" "e1" 0 10, unbackedRequest]).2).commands "p1").map
        (·.name) = some .dispatching := by decide +kernel
  obtain ⟨stored, replayed, view⟩ := log
  refine ⟨loggedDigests, loggedReachable _, stored, fun told => ?_⟩
  rw [told, view] at replayed
  cases replayed

end Samples

end RssMdmAgent.LogRuns
