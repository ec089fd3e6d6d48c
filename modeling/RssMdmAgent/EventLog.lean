import RssMdmAgent.SessionHandoff

set_option autoImplicit false

/-! # The event log of a session and what it tells -/

namespace RssMdmAgent.EventLog
open BoundedJson OrderedRows SessionRecords SessionValidity SessionState BatchReview BatchCommit
open SessionOperations SessionSteps ReviewRules CommitRules HandoffRules SessionInvariant SessionHandoff
open ContractPlan (bind_ok)

/-! ## Folds -/

theorem foldl_reaches {α β : Type} {step : α → β → α} (P Q : α → Prop) {list : List β}
    (safe : ∀ a, P a → ∀ b ∈ list, P (step a b)) (stays : ∀ a, P a → Q a → ∀ b ∈ list, Q (step a b))
    {start : α} (holds : P start) (reached : Q start ∨ ∃ b ∈ list, ∀ a, P a → Q (step a b)) :
    Q (list.foldl step start) := by
  induction list generalizing start with
  | nil =>
    rcases reached with now | ⟨_, mem, _⟩
    · exact now
    · exact absurd mem List.not_mem_nil
  | cons b rest ih =>
    rw [List.foldl_cons]
    apply ih (fun a safeA c mem => safe a safeA c (List.mem_cons_of_mem _ mem))
      (fun a safeA now c mem => stays a safeA now c (List.mem_cons_of_mem _ mem))
      (safe start holds b List.mem_cons_self)
    rcases reached with now | ⟨c, mem, sets⟩
    · exact .inl (stays start holds now b List.mem_cons_self)
    · rcases List.mem_cons.mp mem with rfl | mem
      · exact .inl (sets start holds)
      · exact .inr ⟨c, mem, sets⟩

theorem foldl_keeps {α β : Type} {step : α → β → α} (P : α → Prop) {list : List β}
    (safe : ∀ a, P a → ∀ b ∈ list, P (step a b)) {start : α} (holds : P start) : P (list.foldl step start) :=
  foldl_reaches (fun _ => True) P (fun _ _ _ _ => trivial) (fun a _ now b mem => safe a now b mem) trivial
    (.inl holds)

/-! ## What the events tell -/

/-- How a command was settled. -/
inductive Ending where
  | terminal (outcome : Outcome)
  | invalidated (failure : Failure)
  | acknowledged (acknowledgement : Acknowledgement)
  | queuedCancelled (targetCommandId : Id)
  | cancelled (cancelledBy : Id)
  deriving DecidableEq

def Ending.name : Ending → StateName
  | .terminal _ => .terminal
  | .invalidated _ => .invalidated
  | .acknowledged _ | .queuedCancelled _ => .acknowledged
  | .cancelled _ => .cancelled

def endingOf : CommandState → Option Ending
  | .terminal _ outcome => some (.terminal outcome)
  | .invalidated failure => some (.invalidated failure)
  | .acknowledged _ acknowledgement => some (.acknowledged acknowledgement)
  | .queuedCancelled target => some (.queuedCancelled target)
  | .cancelled cancelledBy => some (.cancelled cancelledBy)
  | .accepted | .dispatching _ | .running _ | .reconciliationRequired _ => none

/-- The ending that an event announces. -/
def announced : EventBody → Option Ending
  | .terminal outcome => some (.terminal outcome)
  | .invalidated failure => some (.invalidated failure)
  | .acknowledged acknowledgement => some (.acknowledged acknowledgement)
  | .queuedCancelled target => some (.queuedCancelled target)
  | .cancelled cancelledBy => some (.cancelled cancelledBy)
  | _ => none

def isFinal (name : StateName) : Bool := [.terminal, .invalidated, .acknowledged, .cancelled].contains name

theorem endingOf_name {state : CommandState} {ending : Ending} (ends : endingOf state = some ending) :
    state.name = ending.name := by
  cases state <;> simp only [endingOf, reduceCtorEq, Option.some.injEq] at ends <;> subst ends <;> rfl

theorem endingOf_none {state : CommandState} : endingOf state = none ↔ isFinal state.name = false := by
  cases state <;> simp [endingOf, isFinal, CommandState.name]

/-- One command as the log tells it. -/
structure CommandView where
  command : Command
  name : StateName
  dispatch : Option DispatchAttempt
  ending : Option Ending
  deriving DecidableEq

def viewOf (c : CommandRecord) : CommandView := ⟨c.command, c.state.name, c.dispatch, endingOf c.state⟩

/-- One event of a known command. A status is observed by the generation of its event, and an attempt
that was not submitted is taken back. -/
def CommandView.apply (v : CommandView) (e : Event) : CommandView :=
  match announced e.body with
  | some ending =>
    { v with
      name := ending.name
      ending := some ending }
  | none =>
    match e.body with
    | .status state =>
      { v with
        name := state.name
        dispatch := v.dispatch.map fun d => { d with observerGeneration := e.generation } }
    | .dispatch attempt => { v with dispatch := some attempt }
    | .reconciled _ .notSubmitted =>
      { v with
        name := if isFinal v.name then v.name else .accepted
        dispatch := none }
    | _ => v

def statusOf : EventBody → Option (Id × InteractionStatus)
  | .interactionPending id _ _ => some (id, .pending)
  | .interactionAnswered id response => some (id, .answered response)
  | .interactionExpired id => some (id, .expired)
  | .interactionUnavailable id => some (id, .unavailable)
  | _ => none

structure Replica where
  commands : Id → Option CommandView
  interactions : Id → Option InteractionStatus
  surfaces : Id → Option SurfaceState

def Replica.empty : Replica := ⟨fun _ => none, fun _ => none, fun _ => none⟩

def acceptedView (command : Command) : CommandView :=
  ⟨command, .accepted, none, none⟩

def viewAfter (v : Option CommandView) (e : Event) : Option CommandView :=
  match e.body with
  | .commandAccepted command => some (acceptedView command)
  | _ => v.map (·.apply e)

def Replica.apply (p : Replica) (e : Event) : Replica where
  commands k := if e.commandId = some k then viewAfter (p.commands k) e else p.commands k
  interactions k :=
    match statusOf e.body with
    | some (id, status) => if id = k then some status else p.interactions k
    | none => p.interactions k
  surfaces k :=
    match surfaceOf e.body with
    | some row => if row.surfaceInstanceId = k then some row else p.surfaces k
    | none => p.surfaces k

def replay (events : List Event) : Replica := events.foldl Replica.apply .empty

def Replica.of (s : SessionWorkspace) : Replica where
  commands k := (s.commands.get k).map viewOf
  interactions k := (s.interactions.get k).map (·.status)
  surfaces k := s.surfaces.get k

/-! ## The place of an event -/

def Placed (s : SessionWorkspace) (events : List Event) : Prop :=
  ∀ index e, events[index]? = some e → e.sequence = s.session.lastSequence + index + 1

structure Numbered (s : SessionWorkspace) : Prop where
  counted : s.session.lastSequence = s.events.length
  placed : ∀ index e, s.events[index]? = some e → e.sequence = index + 1
  distinct : (s.events.map (·.eventId)).Nodup

/-- A later log is the earlier one with events at the next places and under new ids. -/
structure Extends (s t : SessionWorkspace) (events : List Event) : Prop where
  log : t.events = s.events ++ events
  counted : t.session.lastSequence = s.session.lastSequence + events.length
  placed : Placed s events
  distinct : (events.map (·.eventId)).Nodup
  fresh : ∀ e ∈ events, s.hasEvent e.eventId = false

structure Appends (s t : SessionWorkspace) (events : List Event) : Prop where
  log : t.events = s.events ++ events
  counted : t.session.lastSequence = s.session.lastSequence + events.length
  placed : Placed s events

theorem Appends.nil {s t : SessionWorkspace} (log : t.events = s.events)
    (counted : t.session.lastSequence = s.session.lastSequence) : Appends s t [] :=
  ⟨by simp [log], by simp [counted], fun index e found => by simp at found⟩

theorem Extends.appends {s t : SessionWorkspace} {events : List Event} (grows : Extends s t events) :
    Appends s t events := ⟨grows.log, grows.counted, grows.placed⟩

theorem Appends.trans {s t u : SessionWorkspace} {events later : List Event} (first : Appends s t events)
    (second : Appends t u later) : Appends s u (events ++ later) := by
  refine ⟨?_, ?_, fun index e found => ?_⟩
  · rw [second.log, first.log, List.append_assoc]
  · rw [second.counted, first.counted, List.length_append, Nat.add_assoc]
  · rw [List.getElem?_append] at found
    split at found
    · exact first.placed index e found
    · have place := second.placed _ e found
      rw [first.counted] at place
      omega

structure Sequenced (s : SessionWorkspace) : Prop where
  counted : s.session.lastSequence = s.events.length
  placed : ∀ index e, s.events[index]? = some e → e.sequence = index + 1

theorem Sequenced.append {s t : SessionWorkspace} {events : List Event} (sequenced : Sequenced s)
    (appends : Appends s t events) : Sequenced t := by
  refine ⟨?_, fun index e found => ?_⟩
  · rw [appends.counted, appends.log, List.length_append, sequenced.counted]
  · rw [appends.log, List.getElem?_append] at found
    split at found
    · exact sequenced.placed index e found
    · have place := appends.placed _ e found
      rw [sequenced.counted] at place
      omega

theorem hasEvent_iff {s : SessionWorkspace} {id : Id} :
    s.hasEvent id = true ↔ id ∈ s.events.map (·.eventId) := by
  simp [SessionWorkspace.hasEvent]

theorem Extends.nil {s t : SessionWorkspace} (log : t.events = s.events)
    (counted : t.session.lastSequence = s.session.lastSequence) : Extends s t [] :=
  ⟨by simp [log], by simp [counted], fun index e found => by simp at found, .nil, by simp⟩

theorem Numbered.extend {s t : SessionWorkspace} {events : List Event} (numbered : Numbered s)
    (grows : Extends s t events) : Numbered t := by
  obtain ⟨counted, placed⟩ := Sequenced.append ⟨numbered.counted, numbered.placed⟩ grows.appends
  refine ⟨counted, placed, ?_⟩
  · rw [grows.log, List.map_append, List.nodup_append]
    refine ⟨numbered.distinct, grows.distinct, fun id early id' late same => ?_⟩
    subst same
    obtain ⟨e, mem, rfl⟩ := List.mem_map.mp late
    have known := hasEvent_iff.mpr early
    rw [grows.fresh e mem] at known
    cases known

/-! ## The events of a commit -/

section Reviews
variable {r : Review} {copy next : SessionWorkspace} {commandIds : List Id}

theorem reviewEvents_places : ∀ {events : List Event} {index : Nat} {ids : List Id} {u : Unit},
    reviewEvents r copy commandIds index ids events = .ok u →
    (∀ i e, events[i]? = some e → e.sequence = r.state.session.lastSequence + index + i + 1) ∧
      (events.map (·.eventId)).Nodup ∧ ∀ e ∈ events, e.eventId ∉ ids ∧ r.state.hasEvent e.eventId = false
  | [], _, _, _, _ => ⟨fun i e found => by simp at found, .nil, by simp⟩
  | first :: rest, index, ids, _, h => by
    unfold reviewEvents at h
    obtain ⟨_, checked, h⟩ := bind_ok.mp h
    obtain ⟨places, distinct, fresh⟩ := reviewEvents_places h
    unfold checkEvent at checked
    obtain ⟨_, head, -⟩ := bind_ok.mp checked
    rw [refuse_ok] at head
    simp only [not_or, not_not, Bool.not_eq_true] at head
    obtain ⟨-, -, sequence, single, unused⟩ := head
    refine ⟨fun i e found => ?_, List.nodup_cons.mpr ⟨fun mem => ?_, distinct⟩, fun e mem => ?_⟩
    · cases i with
      | zero =>
        cases found
        exact sequence
      | succ i =>
        rw [List.getElem?_cons_succ] at found
        have place := places i e found
        omega
    · obtain ⟨e, mem, same⟩ := List.mem_map.mp mem
      exact (fresh e mem).1 (by simp [same])
    · rcases List.mem_cons.mp mem with rfl | mem
      · exact ⟨single, unused⟩
      · exact ⟨fun known => (fresh e mem).1 (List.mem_append_left _ known), (fresh e mem).2⟩

def Said (r : Review) (old : Option Interaction) (row : Interaction) : Prop :=
  old.map (fun i => interactionName i.status) = some (interactionName row.status) ∨
    ∃ e ∈ r.batch.events, interactionOf e.body = some (row.interactionId, interactionName row.status)

theorem checkInteraction_said {ids : List Id} {row : Interaction} {u : Unit}
    (h : checkInteraction r copy ids row = .ok u) : Said r (copy.interactions.get row.interactionId) row := by
  unfold checkInteraction at h
  obtain ⟨_, -, h⟩ := bind_ok.mp h
  split at h
  · cases h
  · rename_i source d _
    obtain ⟨_, -, h⟩ := bind_ok.mp h
    obtain ⟨_, change, h⟩ := bind_ok.mp h
    obtain ⟨_, -, h⟩ := bind_ok.mp h
    obtain ⟨_, -, h⟩ := bind_ok.mp h
    obtain ⟨_, -, said⟩ := bind_ok.mp h
    rw [refuse_ok] at said
    unfold checkInteractionChange at change
    cases stored : copy.interactions.get row.interactionId with
    | none =>
      rw [stored] at change
      dsimp only at change
      unfold checkInteractionAdded at change
      obtain ⟨_, pending, change⟩ := bind_ok.mp change
      rw [refuse_ok] at pending
      simp only [not_or, not_not] at pending
      split at change
      · rename_i e only
        have mem : e ∈ r.batch.events.filter fun e => (interactionOf e.body).any (·.1 = row.interactionId) := by
          rw [only]
          exact List.mem_singleton_self e
        obtain ⟨mem, names⟩ := List.mem_filter.mp mem
        refine .inr ⟨e, mem, ?_⟩
        split at change
        · rename_i id request expires body
          rw [body] at names ⊢
          simp only [interactionOf, Option.any_some, decide_eq_true_iff] at names
          rw [pending.1, interactionOf, names]
          rfl
        · cases change
      · cases change
    | some old =>
      rw [stored] at said
      by_cases same : interactionName old.status = interactionName row.status
      · exact .inl (by simp [same])
      · right
        by_contra silent
        apply said
        refine ⟨by simpa using same, ?_⟩
        rw [List.any_eq_false]
        intro e mem names
        rw [Bool.and_eq_true, decide_eq_true_iff, decide_eq_true_iff] at names
        exact silent ⟨e, mem, names.2⟩

theorem reviewInteractions_said : ∀ {rows : List Interaction} {ids : List Id} {copy next : SessionWorkspace},
    reviewInteractions r ids rows copy = .ok next → (rows.map (·.interactionId)).Nodup →
    ∀ row ∈ rows, Said r (copy.interactions.get row.interactionId) row
  | [], _, _, _, _, _, _, mem => absurd mem List.not_mem_nil
  | first :: rest, ids, copy, next, h, distinct, row, mem => by
    unfold reviewInteractions at h
    obtain ⟨_, checked, h⟩ := bind_ok.mp h
    obtain ⟨absent, distinct⟩ := List.nodup_cons.mp distinct
    rcases List.mem_cons.mp mem with rfl | mem
    · exact checkInteraction_said checked
    · have said := reviewInteractions_said h distinct row mem
      rwa [show (copy.interactions.set first).get row.interactionId = copy.interactions.get row.interactionId from
        Rows.get_set_ne fun same => absent (List.mem_map.mpr ⟨row, mem, same⟩)] at said

theorem interactionOf_status {body : EventBody} {id : Id} {status : InteractionStatus}
    (sets : statusOf body = some (id, status)) : interactionOf body = some (id, interactionName status) := by
  cases body <;> simp_all [statusOf, interactionOf] <;> (obtain ⟨rfl, rfl⟩ := sets; rfl)

theorem statusOf_named {body : EventBody} {id : Id} {name : InteractionName}
    (names : interactionOf body = some (id, name)) :
    ∃ status, statusOf body = some (id, status) ∧ interactionName status = name := by
  cases body <;> simp_all [statusOf, interactionOf] <;> (obtain ⟨rfl, rfl⟩ := names; rfl)

theorem checkInteractionEvent_status {e : Event} {id : Id} {status : InteractionStatus}
    (h : checkInteractionEvent r copy e = .ok ()) (sets : statusOf e.body = some (id, status)) :
    ∃ row, copy.interactions.get id = some row ∧ row.status = status := by
  unfold checkInteractionEvent at h
  rw [interactionOf_status sets] at h
  dsimp only at h
  split at h
  · cases h
  · rename_i row found
    obtain ⟨_, names, said⟩ := bind_ok.mp h
    rw [refuse_ok] at names
    simp only [not_or, not_not] at names
    refine ⟨row, found, ?_⟩
    clear h
    cases body : e.body <;> rw [body] at said sets <;> simp only [statusOf, reduceCtorEq, Option.some.injEq,
      Prod.mk.injEq] at sets
    all_goals obtain ⟨rfl, rfl⟩ := sets
    all_goals first
      | (dsimp only at said; rw [refuse_ok, not_not] at said; exact said)
      | (have name := names.2.2; revert name; cases row.status <;> simp [interactionName])

end Reviews

section Commit
variable [RecordHashing] {limits : Limits} {s t : SessionWorkspace} {batch : SessionCommit}
  {accepting suspending : Bool} {r : Review} {pass : CommandPass} {k : Id}

def Shown (batch : SessionCommit) (row : SurfaceState) : Prop :=
  ∃ command, (batch.events.filter fun e => (surfaceOf e.body).any
    (·.surfaceInstanceId = row.surfaceInstanceId)).map (fun e => (e.commandId, e.body)) =
      [(command, .surface row)]

theorem reviewSurfaces_shown [SurfaceCatalog] : ∀ {rows : List SurfaceState} {ids : List Id}
    {copy next : SessionWorkspace}, reviewSurfaces limits r ids rows copy = .ok next →
    ∀ row ∈ rows, Shown r.batch row
  | [], _, _, _, _, _, mem => absurd mem List.not_mem_nil
  | first :: rest, ids, copy, next, h, row, mem => by
    unfold reviewSurfaces at h
    obtain ⟨_, checked, h⟩ := bind_ok.mp h
    rcases List.mem_cons.mp mem with rfl | mem
    · unfold checkSurface at checked
      obtain ⟨_, -, checked⟩ := bind_ok.mp checked
      split at checked
      · cases checked
      · obtain ⟨_, -, checked⟩ := bind_ok.mp checked
        obtain ⟨_, -, checked⟩ := bind_ok.mp checked
        obtain ⟨_, shown, -⟩ := bind_ok.mp checked
        rw [refuse_ok, not_not] at shown
        exact ⟨_, shown⟩
    · exact reviewSurfaces_shown h row mem

omit [RecordHashing] in
theorem Shown.said {row : SurfaceState} (shown : Shown batch row) :
    (∃ e ∈ batch.events, surfaceOf e.body = some row) ∧
      ∀ e ∈ batch.events, ∀ row', surfaceOf e.body = some row' →
        row'.surfaceInstanceId = row.surfaceInstanceId → row' = row := by
  obtain ⟨command, only⟩ := shown
  refine ⟨?_, fun e mem row' body same => ?_⟩
  · have mem : (command, EventBody.surface row) ∈ (batch.events.filter fun e => (surfaceOf e.body).any
        (·.surfaceInstanceId = row.surfaceInstanceId)).map (fun e => (e.commandId, e.body)) := by
      rw [only]
      exact List.mem_singleton_self _
    obtain ⟨e, selected, same⟩ := List.mem_map.mp mem
    refine ⟨e, (List.mem_filter.mp selected).1, ?_⟩
    rw [(Prod.mk.inj same).2]
    rfl
  · have mem : (e.commandId, e.body) ∈ (batch.events.filter fun e => (surfaceOf e.body).any
        (·.surfaceInstanceId = row.surfaceInstanceId)).map (fun e => (e.commandId, e.body)) :=
      List.mem_map_of_mem (List.mem_filter.mpr ⟨mem, by simp [body, same]⟩)
    rw [only] at mem
    have said := (Prod.mk.inj (List.mem_singleton.mp mem)).2
    rw [said] at body
    exact (Option.some.inj body).symm

/-- What a successful commit has checked about its events. -/
structure Published (s : SessionWorkspace) (batch : SessionCommit) (r : Review) : Prop where
  events : reviewEvents r (reviewed s batch) (batch.commands.map (·.commandId)) 0 [] batch.events = .ok ()
  interactions : ∀ row ∈ batch.interactions, Said r (s.interactions.get row.interactionId) row
  named : ∀ e ∈ batch.events, ∀ id status, statusOf e.body = some (id, status) →
    ∃ row, (committed s batch).interactions.get id = some row ∧ row.status = status
  surfaces : ∀ row ∈ batch.surfaces, Shown batch row
  listed : ∀ e ∈ batch.events, ∀ row, surfaceOf e.body = some row →
    row.surfaceInstanceId ∈ batch.surfaces.map (·.surfaceInstanceId)

theorem commit_published [SurfaceCatalog] (done : Committed limits s batch accepting suspending r pass)
    (h : reduceCommit limits s batch accepting suspending = .ok t) : Published s batch r := by
  unfold reduceCommit at h
  obtain ⟨_, -, h⟩ := bind_ok.mp h
  obtain ⟨_, -, h⟩ := bind_ok.mp h
  obtain ⟨stage, head, h⟩ := bind_ok.mp h
  obtain ⟨facts, found, h⟩ := bind_ok.mp h
  have whole : r = ⟨s, batch, stage, facts, accepting⟩ := by
    have review := done.review
    have stages := head.symm.trans done.head
    have proofs := found.symm.trans done.facts
    cases r
    simp_all
  subst whole
  obtain ⟨pass', records, h⟩ := bind_ok.mp h
  have ids : pass'.commandIds = batch.commands.map (·.commandId) := (reviewCommands_ok records).ids
  have records := (reviewCommands_ok records).commands
  obtain ⟨_, -, h⟩ := bind_ok.mp h
  obtain ⟨_, -, h⟩ := bind_ok.mp h
  obtain ⟨_, -, h⟩ := bind_ok.mp h
  obtain ⟨_, -, h⟩ := bind_ok.mp h
  obtain ⟨_, events, h⟩ := bind_ok.mp h
  obtain ⟨asking, interactions, h⟩ := bind_ok.mp h
  obtain ⟨_, named, h⟩ := bind_ok.mp h
  obtain ⟨sending, deliveries, h⟩ := bind_ok.mp h
  obtain ⟨showing, surfaces, h⟩ := bind_ok.mp h
  obtain ⟨_, listed, -⟩ := bind_ok.mp h
  rw [records, ids] at events
  rw [records] at interactions
  have asked := reviewInteractions_ok interactions
  have said := reviewInteractions_said interactions asked.distinct
  have result := asked.result
  subst result
  refine ⟨events, said, fun e mem id status sets => ?_, reviewSurfaces_shown surfaces, fun e mem row body => ?_⟩
  · exact checkInteractionEvent_status (forM_ok named e mem) sets
  · rw [refuse_ok, Bool.not_eq_true, List.any_eq_false] at listed
    by_contra absent
    exact listed e mem (by simpa [body] using absent)

theorem commit_extends [SurfaceCatalog] (done : Committed limits s batch accepting suspending r pass)
    (said : Published s batch r) : Extends s (committed s batch) batch.events := by
  obtain ⟨places, distinct, fresh⟩ := reviewEvents_places said.events
  rw [done.review.1] at places fresh
  exact ⟨rfl, (commit_head done).lastSequence, fun i e found => by simpa using places i e found, distinct,
    fun e mem => (fresh e mem).2⟩

end Commit

/-! ## The events of one command -/

section Views
variable {c o : CommandRecord} {events : List Event} {v : CommandView} {e : Event}

/-- What an event may tell about a command that is left as this record. -/
structure Tells (c : CommandRecord) (e : Event) : Prop where
  accepted : ∀ command, e.body = .commandAccepted command → c.state = .accepted ∧ command = c.command
  ending : ∀ ending, announced e.body = some ending → endingOf c.state = some ending
  status : ∀ state, e.body = .status state → state.name = c.state.name ∧
    ∀ d, c.dispatch = some d → d.observerGeneration = e.generation
  dispatch : ∀ attempt, e.body = .dispatch attempt → c.dispatch = some attempt
  withdrawn : ∀ attempt, e.body = .reconciled attempt .notSubmitted → c.dispatch = none

theorem unsent_accepted (unsent : c.dispatch = none) (unsettled : isFinal c.state.name = false) :
    c.state = .accepted := by
  cases state : c.state <;>
    simp_all [CommandRecord.dispatch, CommandState.dispatch, CommandState.name, isFinal]

/-- The four ways in which an event meets a view. -/
inductive ViewStep (v : CommandView) (e : Event) : CommandView → Prop where
  | ended {ending : Ending} (announces : announced e.body = some ending) :
      ViewStep v e { v with
        name := ending.name
        ending := some ending }
  | moved {state : ActiveState} (body : e.body = .status state) :
      ViewStep v e { v with
        name := state.name
        dispatch := v.dispatch.map fun d => { d with observerGeneration := e.generation } }
  | sent {attempt : DispatchAttempt} (body : e.body = .dispatch attempt) :
      ViewStep v e { v with dispatch := some attempt }
  | withdrawn {attempt : DispatchAttempt} (body : e.body = .reconciled attempt .notSubmitted) :
      ViewStep v e { v with
        name := if isFinal v.name then v.name else .accepted
        dispatch := none }
  | kept (silent : announced e.body = none) (status : ∀ state, e.body ≠ .status state)
      (dispatch : ∀ attempt, e.body ≠ .dispatch attempt)
      (reconciled : ∀ attempt, e.body ≠ .reconciled attempt .notSubmitted) : ViewStep v e v

theorem apply_step (v : CommandView) (e : Event) : ViewStep v e (v.apply e) := by
  unfold CommandView.apply
  split
  · rename_i ending announces
    exact .ended announces
  · rename_i silent
    split
    · rename_i state body
      exact .moved body
    · rename_i attempt body
      exact .sent body
    · rename_i attempt body
      exact .withdrawn body
    · rename_i status dispatch reconciled
      exact .kept silent status dispatch reconciled

theorem observed_same (told : Tells c e) {state : ActiveState} (body : e.body = .status state) :
    c.dispatch.map (fun d => { d with observerGeneration := e.generation }) = c.dispatch := by
  cases sent : c.dispatch with
  | none => rfl
  | some d => simp [← (told.status state body).2 d sent]

theorem told_same (told : Tells c e) : (viewOf c).apply e = viewOf c := by
  have step := apply_step (viewOf c) e
  generalize (viewOf c).apply e = after at step
  cases step with
  | @ended ending announces =>
    have ends := told.ending ending announces
    simp [viewOf, ends, endingOf_name ends]
  | @moved state body =>
    simp [viewOf, (told.status state body).1, observed_same told body]
  | @sent attempt body => simp [viewOf, told.dispatch attempt body]
  | @withdrawn attempt body =>
    have unsent := told.withdrawn attempt body
    cases settled : isFinal c.state.name with
    | true => simp [viewOf, unsent, settled]
    | false => simp [viewOf, unsent, unsent_accepted unsent settled, CommandState.name, isFinal]
  | kept => rfl

def Moves (c : CommandRecord) (e : Event) : Prop :=
  (∃ state, e.body = .status state) ∨ (∃ ending, announced e.body = some ending) ∨
    (c.state = .accepted ∧ ∃ attempt, e.body = .reconciled attempt .notSubmitted)

theorem apply_name (told : Tells c e) (unsettled : isFinal v.name = false ∨ v.name = c.state.name) :
    (isFinal (v.apply e).name = false ∨ (v.apply e).name = c.state.name) ∧
      (v.name = c.state.name ∨ Moves c e → (v.apply e).name = c.state.name) := by
  have step := apply_step v e
  generalize v.apply e = after at step
  cases step with
  | @ended ending announces =>
    have name := (endingOf_name (told.ending ending announces)).symm
    exact ⟨.inr name, fun _ => name⟩
  | @moved state body =>
    have name := (told.status state body).1
    exact ⟨.inr name, fun _ => name⟩
  | @sent attempt body =>
    refine ⟨unsettled, fun moved => ?_⟩
    rcases moved with same | moved
    · exact same
    · simp [Moves, body, announced] at moved
  | @withdrawn attempt body =>
    have unsent := told.withdrawn attempt body
    cases settled : isFinal v.name with
    | true =>
      have same : v.name = c.state.name := by simpa [settled] using unsettled
      exact ⟨.inr same, fun _ => same⟩
    | false =>
      refine ⟨.inl rfl, fun moved => ?_⟩
      have accepted : c.state = .accepted := by
        rcases moved with same | moved
        · exact unsent_accepted unsent (same ▸ settled)
        · simp only [Moves, body, announced, reduceCtorEq, exists_false, false_or] at moved
          exact moved.1
      rw [accepted]
      rfl
  | kept silent status dispatch reconciled =>
    refine ⟨unsettled, fun moved => ?_⟩
    rcases moved with same | ⟨state, body⟩ | ⟨ending, announces⟩ | ⟨_, attempt, body⟩
    · exact same
    · exact absurd body (status state)
    · rw [silent] at announces
      cases announces
    · exact absurd body (reconciled attempt)

theorem apply_dispatch (told : Tells c e) (right : v.dispatch = c.dispatch) : (v.apply e).dispatch = c.dispatch := by
  have step := apply_step v e
  generalize v.apply e = after at step
  cases step with
  | ended | kept => exact right
  | @moved state body =>
    change v.dispatch.map _ = _
    rw [right, observed_same told body]
  | @sent attempt body => exact (told.dispatch attempt body).symm
  | @withdrawn attempt body => exact (told.withdrawn attempt body).symm

theorem apply_ending (told : Tells c e) (right : v.ending = endingOf c.state) :
    (v.apply e).ending = endingOf c.state := by
  have step := apply_step v e
  generalize v.apply e = after at step
  cases step with
  | @ended ending announces => exact (told.ending ending announces).symm
  | moved | sent | withdrawn | kept => exact right

theorem apply_command (v : CommandView) (e : Event) : (v.apply e).command = v.command := by
  have step := apply_step v e
  generalize v.apply e = after at step
  cases step <;> rfl

/-- The events of a command that is not settled yet turn its view into the one of the record they leave. -/
theorem told_view (content : o.command = c.command) (unsettled : isSettled o = false)
    (told : ∀ e ∈ events, Tells c e)
    (ends : ∀ ending, endingOf c.state = some ending → ∃ e ∈ events, announced e.body = some ending)
    (moves : o.state.name = c.state.name ∨ ∃ e ∈ events, Moves c e)
    (sends : o.dispatch = c.dispatch ∨ ∃ e ∈ events, (∃ d, e.body = .dispatch d) ∨
      ∃ d, e.body = .reconciled d .notSubmitted) :
    events.foldl CommandView.apply (viewOf o) = viewOf c := by
  have command : (events.foldl CommandView.apply (viewOf o)).command = c.command :=
    foldl_keeps (fun v : CommandView => v.command = c.command) (fun v same e _ => (apply_command v e).trans same) content
  have name : (events.foldl CommandView.apply (viewOf o)).name = c.state.name := by
    have before : isFinal (viewOf o).name = false := unsettled
    apply foldl_reaches (fun v : CommandView => isFinal v.name = false ∨ v.name = c.state.name)
      (fun v => v.name = c.state.name)
      (fun v safe e mem => (apply_name (told e mem) safe).1)
      (fun v safe now e mem => (apply_name (told e mem) safe).2 (.inl now)) (.inl before)
    rcases moves with same | ⟨e, mem, moved⟩
    · exact .inl same
    · exact .inr ⟨e, mem, fun v safe => (apply_name (told e mem) safe).2 (.inr moved)⟩
  have dispatch : (events.foldl CommandView.apply (viewOf o)).dispatch = c.dispatch := by
    apply foldl_reaches (fun _ => True) (fun v : CommandView => v.dispatch = c.dispatch) (fun _ _ _ _ => trivial)
      (fun v _ right e mem => apply_dispatch (told e mem) right) trivial
    rcases sends with same | ⟨e, mem, ⟨d, body⟩ | ⟨d, body⟩⟩
    · exact .inl same
    · refine .inr ⟨e, mem, fun v _ => ?_⟩
      simp [CommandView.apply, body, announced, (told e mem).dispatch d body]
    · refine .inr ⟨e, mem, fun v _ => ?_⟩
      simp [CommandView.apply, body, announced, (told e mem).withdrawn d body]
  have ending : (events.foldl CommandView.apply (viewOf o)).ending = endingOf c.state := by
    apply foldl_reaches (fun _ => True) (fun v : CommandView => v.ending = endingOf c.state) (fun _ _ _ _ => trivial)
      (fun v _ right e mem => apply_ending (told e mem) right) trivial
    cases final : endingOf c.state with
    | none =>
      have before : endingOf o.state = none := endingOf_none.mpr unsettled
      exact .inl before
    | some ending =>
      obtain ⟨e, mem, announces⟩ := ends ending final
      exact .inr ⟨e, mem, fun v _ => by simp [CommandView.apply, announces]⟩
  generalize events.foldl CommandView.apply (viewOf o) = v at command name dispatch ending
  obtain ⟨_, _, _, _⟩ := v
  subst command name dispatch ending
  rfl

end Views

/-! ## The replay of a commit -/

section Replay
variable {events : List Event} {p : Replica} {k : Id} {v : CommandView}

theorem foldl_commands : ∀ {p : Replica}, (events.foldl Replica.apply p).commands k =
    (events.filter fun e => e.commandId = some k).foldl viewAfter (p.commands k) := by
  induction events with
  | nil => exact rfl
  | cons e rest ih =>
    intro p
    rw [List.foldl_cons, ih, List.filter_cons]
    by_cases names : e.commandId = some k
    · simp [Replica.apply, names]
    · simp [Replica.apply, names]

theorem foldl_views (silent : ∀ e ∈ events, isCommandAccepted e.body = false) : ∀ {v : CommandView},
    events.foldl viewAfter (some v) = some (events.foldl CommandView.apply v) := by
  induction events with
  | nil => exact rfl
  | cons e rest ih =>
    intro v
    have first : viewAfter (some v) e = some (v.apply e) := by
      have other := silent e List.mem_cons_self
      unfold viewAfter
      cases body : e.body <;> first | rfl | (rw [body] at other; cases other)
    rw [List.foldl_cons, List.foldl_cons, first]
    exact ih fun e mem => silent e (List.mem_cons_of_mem _ mem)

theorem foldl_interactions {status : Option InteractionStatus}
    (agree : ∀ e ∈ events, ∀ set, statusOf e.body = some (k, set) → status = some set)
    (reached : p.interactions k = status ∨ ∃ e ∈ events, ∃ set, statusOf e.body = some (k, set)) :
    (events.foldl Replica.apply p).interactions k = status := by
  have sets : ∀ (p : Replica), ∀ e ∈ events, ∀ set, statusOf e.body = some (k, set) →
      (p.apply e).interactions k = status := by
    intro p e mem set body
    simp [Replica.apply, body, agree e mem set body]
  apply foldl_reaches (fun _ => True) (fun p : Replica => p.interactions k = status) (fun _ _ _ _ => trivial) _
    trivial
  · rcases reached with now | ⟨e, mem, set, body⟩
    · exact .inl now
    · exact .inr ⟨e, mem, fun p _ => sets p e mem set body⟩
  · intro p _ now e mem
    cases body : statusOf e.body with
    | none => simpa [Replica.apply, body] using now
    | some named =>
      obtain ⟨id, set⟩ := named
      by_cases same : id = k
      · subst same
        exact sets p e mem set body
      · simpa [Replica.apply, body, same] using now

theorem foldl_surfaces {content : Option SurfaceState}
    (agree : ∀ e ∈ events, ∀ row, surfaceOf e.body = some row → row.surfaceInstanceId = k → content = some row)
    (reached : p.surfaces k = content ∨ ∃ e ∈ events, ∃ row, surfaceOf e.body = some row ∧
      row.surfaceInstanceId = k) :
    (events.foldl Replica.apply p).surfaces k = content := by
  have sets : ∀ (p : Replica), ∀ e ∈ events, ∀ row, surfaceOf e.body = some row → row.surfaceInstanceId = k →
      (p.apply e).surfaces k = content := by
    intro p e mem row body same
    simp [Replica.apply, body, same, agree e mem row body same]
  apply foldl_reaches (fun _ => True) (fun p : Replica => p.surfaces k = content) (fun _ _ _ _ => trivial) _ trivial
  · rcases reached with now | ⟨e, mem, row, body, same⟩
    · exact .inl now
    · exact .inr ⟨e, mem, fun p _ => sets p e mem row body same⟩
  · intro p _ now e mem
    cases body : surfaceOf e.body with
    | none => simpa [Replica.apply, body] using now
    | some row =>
      by_cases same : row.surfaceInstanceId = k
      · exact sets p e mem row body same
      · simpa [Replica.apply, body, same] using now

end Replay

/-- An event of a kind that is not compared with the record of its command: a reconciled event needs a
verified fact that resolves the attempt, and an acknowledgement or a cancellation is the one of a record
of the same batch. -/
def backsEvent (s : SessionWorkspace) (batch : SessionCommit) (e : Event) : Bool :=
  match e.body with
  | .reconciled .. => batch.providerFacts.any fun proof => e.commandId = some proof.commandId &&
      ((s.commands.get proof.commandId).bind (providerFactFor proof s.session)).any fun fact =>
        fact.status.resolution.isSome
  | .acknowledged _ | .queuedCancelled _ | .cancelled _ => batch.commands.any fun c =>
      e.commandId = some c.commandId && endingOf c.state = announced e.body
  | _ => true

def backsBatch (s : SessionWorkspace) (batch : SessionCommit) : Bool := batch.events.all (backsEvent s batch)

section Judged
variable {r : Review} {copy : SessionWorkspace} {commandIds : List Id} {c : CommandRecord} {e : Event}

structure Judged (r : Review) (commandIds : List Id) (c : CommandRecord) (e : Event) : Prop where
  names : e.commandId = some c.commandId
  generation : e.generation = r.batch.expectedGeneration
  present : needsCommand e.body = true → c.commandId ∈ commandIds
  body : checkBody r commandIds c (r.state.commands.get c.commandId) e = .ok ()

theorem reviewEvents_judged : ∀ {events : List Event} {index : Nat} {ids : List Id} {u : Unit},
    reviewEvents r copy commandIds index ids events = .ok u →
    ∀ e ∈ events, ∃ c, copy.commands.get c.commandId = some c ∧ Judged r commandIds c e
  | [], _, _, _, _, _, mem => absurd mem List.not_mem_nil
  | first :: rest, _, _, _, h, e, mem => by
    unfold reviewEvents at h
    obtain ⟨_, checked, h⟩ := bind_ok.mp h
    rcases List.mem_cons.mp mem with rfl | mem
    · unfold checkEvent at checked
      obtain ⟨_, head, checked⟩ := bind_ok.mp checked
      rw [refuse_ok] at head
      simp only [not_or, not_not] at head
      split at checked
      · cases checked
      · rename_i c found
        obtain ⟨id, names, found⟩ := Option.bind_eq_some_iff.mp found
        have same := Rows.get_key found
        subst same
        obtain ⟨_, -, checked⟩ := bind_ok.mp checked
        obtain ⟨_, -, checked⟩ := bind_ok.mp checked
        obtain ⟨_, -, checked⟩ := bind_ok.mp checked
        obtain ⟨_, present, body⟩ := bind_ok.mp checked
        rw [refuse_ok] at present
        refine ⟨c, found, names, head.2.1, fun needs => ?_, body⟩
        by_contra absent
        exact present ⟨needs, absent⟩
    · exact reviewEvents_judged h e mem

end Judged

section Facts
variable {s : SessionWorkspace} {k : Id} {fact : Reconciliation}

theorem collectFacts_kept : ∀ {proofs : List VerifiedProviderFact} {known facts : List (Id × Reconciliation)},
    collectFacts s proofs known = .ok facts → known.lookup k = some fact → facts.lookup k = some fact
  | [], _, _, h, found => by
    cases h
    exact found
  | proof :: rest, known, facts, h, found => by
    unfold collectFacts at h
    split at h
    · cases h
    · obtain ⟨_, -, h⟩ := bind_ok.mp h
      apply collectFacts_kept h
      rw [List.lookup_append, found]
      rfl

theorem collectFacts_lookup : ∀ {proofs : List VerifiedProviderFact} {known facts : List (Id × Reconciliation)},
    collectFacts s proofs known = .ok facts → ∀ proof ∈ proofs,
    (s.commands.get proof.commandId).bind (providerFactFor proof s.session) = some fact →
    facts.lookup proof.commandId = some fact
  | [], _, _, _, _, mem, _ => absurd mem List.not_mem_nil
  | first :: rest, known, facts, h, proof, mem, verified => by
    unfold collectFacts at h
    rcases List.mem_cons.mp mem with rfl | mem
    · rw [verified] at h
      obtain ⟨_, single, h⟩ := bind_ok.mp h
      rw [refuse_ok, Bool.not_eq_true, List.any_eq_false] at single
      apply collectFacts_kept h
      have absent : known.lookup proof.commandId = none := by
        rw [List.lookup_eq_none_iff]
        intro pair mem
        exact bne_iff_ne.mpr fun same => single pair mem (decide_eq_true same.symm)
      rw [List.lookup_append, absent]
      simp
    · split at h
      · cases h
      · obtain ⟨_, -, h⟩ := bind_ok.mp h
        exact collectFacts_lookup h proof mem verified

end Facts

section Commit
variable [RecordHashing] {limits : Limits} {s : SessionWorkspace} {batch : SessionCommit}
  {accepting suspending : Bool} {r : Review} {pass : CommandPass} {k : Id} {c o : CommandRecord} {e : Event}

theorem commit_member (done : Committed limits s batch accepting suspending r pass)
    (found : (committed s batch).commands.get k = some c) (mem : k ∈ batch.commands.map (·.commandId)) :
    c ∈ batch.commands ∧ c.commandId = k ∧ Reviews r c (s.commands.get k) := by
  rcases done.origin found with ⟨absent, _⟩ | reviewed
  · exact absurd mem absent
  · exact reviewed

theorem commit_resolution (done : Committed limits s batch accepting suspending r pass)
    (backed : backsBatch s batch = true) (mem : e ∈ batch.events) (names : e.commandId = some k)
    {attempt : DispatchAttempt} {resolution : Resolution} (body : e.body = .reconciled attempt resolution)
    {attempts later : List Id} (checked : Checked r c (s.commands.get k) attempts later)
    (same : c.commandId = k) :
    ∃ proof ∈ batch.providerFacts, proof.commandId = k ∧ ∃ record fact, s.commands.get k = some record ∧
      providerFactFor proof s.session record = some fact ∧ fact.status.resolution = some resolution ∧
      r.resolution k = some fact := by
  have backs := List.all_eq_true.mp backed e mem
  unfold backsEvent at backs
  rw [body] at backs
  obtain ⟨proof, listed, backs⟩ := List.any_eq_true.mp backs
  rw [Bool.and_eq_true, decide_eq_true_iff, names] at backs
  obtain ⟨owner, backs⟩ := backs
  cases owner
  obtain ⟨fact, verified, resolves⟩ := (Option.any_eq_true _ _).mp backs
  obtain ⟨record, stored, provider⟩ := Option.bind_eq_some_iff.mp verified
  obtain ⟨resolution', named⟩ := Option.isSome_iff_exists.mp resolves
  have known : r.resolution proof.commandId = some fact := collectFacts_lookup done.facts proof listed verified
  obtain ⟨_, d, _, _, resolved⟩ := checkChange_resolved (same ▸ known) named checked.change
  have said : EventBody.reconciled attempt resolution ∈ (r.batch.events.filter fun e =>
      e.commandId = some c.commandId && isReconciled e.body).map (·.body) := by
    refine List.mem_map.mpr ⟨e, List.mem_filter.mpr ⟨?_, ?_⟩, body⟩
    · rw [done.review.2.1]
      exact mem
    · simp [names, same, body, isReconciled]
  rw [resolved.published] at said
  cases List.mem_singleton.mp said
  exact ⟨proof, listed, rfl, record, fact, stored, provider, named, known⟩

/-- The events of a backed batch tell nothing but the records that the batch leaves. -/
theorem commit_tells (done : Committed limits s batch accepting suspending r pass)
    (backed : backsBatch s batch = true) (mem : e ∈ batch.events)
    (found : (committed s batch).commands.get c.commandId = some c)
    (judged : Judged r (batch.commands.map (·.commandId)) c e) : Tells c e := by
  have member : needsCommand e.body = true → c ∈ batch.commands ∧ Reviews r c (s.commands.get c.commandId) :=
    fun needs => ⟨(commit_member done found (judged.present needs)).1,
      (commit_member done found (judged.present needs)).2.2⟩
  have checked := judged.body
  unfold checkBody at checked
  refine ⟨fun command body => ?_, fun ending announces => ?_, fun state body => ?_, fun attempt body => ?_,
    fun attempt body => ?_⟩
  · rw [body] at checked
    dsimp only at checked
    rw [refuse_ok] at checked
    simp only [not_or, not_not] at checked
    obtain ⟨-, -, name, same, -⟩ := checked
    refine ⟨?_, same⟩
    cases state : c.state <;> rw [state] at name <;> first | rfl | cases name
  · have backs := List.all_eq_true.mp backed e mem
    unfold backsEvent at backs
    cases body : e.body <;> rw [body] at checked backs announces <;>
      simp only [announced, reduceCtorEq, Option.some.injEq] at announces
    all_goals subst announces
    case terminal outcome =>
      dsimp only at checked
      rw [refuse_ok] at checked
      simp only [not_or, not_not] at checked
      have ends := checked.1
      cases state : c.state <;> rw [state] at ends <;> simp only [outcomeOf, reduceCtorEq, Option.some.injEq] at ends
      rw [ends]
      rfl
    case invalidated failure =>
      dsimp only at checked
      rw [refuse_ok, not_not] at checked
      rw [checked]
      rfl
    all_goals
      obtain ⟨c', listed, backs⟩ := List.any_eq_true.mp backs
      rw [Bool.and_eq_true, decide_eq_true_iff, decide_eq_true_iff, judged.names] at backs
      obtain ⟨owner, ends⟩ := backs
      have stored : (committed s batch).commands.get c'.commandId = some c' :=
        Rows.get_setAll_mem done.commands.distinct listed
      rw [← Option.some.inj owner, found] at stored
      cases stored
      exact ends
  · rw [body] at checked
    dsimp only at checked
    rw [refuse_ok, not_not] at checked
    refine ⟨checked, fun d sent => ?_⟩
    obtain ⟨_, attempts, later, reviewed⟩ := member (by rw [body]; rfl)
    have observer := reviewed.observer
    unfold checkObserver at observer
    rw [sent] at observer
    dsimp only at observer
    rw [refuse_ok] at observer
    simp only [not_or, not_not] at observer
    rw [observer.1, judged.generation]
  · rw [body] at checked
    dsimp only at checked
    rwa [refuse_ok, not_not] at checked
  · obtain ⟨_, attempts, later, reviewed⟩ := member (by rw [body]; rfl)
    obtain ⟨_, _, _, record, fact, _, _, named, known⟩ :=
      commit_resolution done backed mem judged.names body reviewed rfl
    obtain ⟨error, status⟩ := notSubmitted_status named
    obtain ⟨_, d, _, _, resolved⟩ := checkChange_resolved known named reviewed.change
    exact (resolved.withdrawn error status).2.1

omit [RecordHashing] in
/-- A record that the batch settles is announced by an event of its command. -/
theorem checked_ends {attempts later : List Id} (checked : Checked r c (some o) attempts later)
    (unsettled : isSettled o = false) {ending : Ending} (ends : endingOf c.state = some ending) :
    ∃ e ∈ r.batch.events, e.commandId = some c.commandId ∧ announced e.body = some ending := by
  have moved : (some o).map (fun o => o.state.name) ≠ some c.state.name := by
    intro same
    have final : isFinal c.state.name = false := Option.some.inj same ▸ unsettled
    rw [endingOf_none.mpr final] at ends
    cases ends
  have settlement := checked.settlement
  unfold checkSettlement at settlement
  rw [if_neg moved] at settlement
  have announces : ∀ {body : EventBody}, r.batch.announces c.commandId body = true →
      announced body = some ending →
      ∃ e ∈ r.batch.events, e.commandId = some c.commandId ∧ announced e.body = some ending := by
    intro body said names
    obtain ⟨e, mem, same⟩ := List.any_eq_true.mp said
    rw [Bool.and_eq_true, decide_eq_true_iff, decide_eq_true_iff] at same
    exact ⟨e, mem, same.1, same.2 ▸ names⟩
  cases state : c.state with
  | accepted | dispatching | running | reconciliationRequired =>
    rw [state] at ends
    cases ends
  | terminal d outcome =>
    rw [state] at settlement ends
    cases ends
    dsimp only at settlement
    unfold checkTerminal at settlement
    rw [refuse_ok] at settlement
    simp only [not_or, Bool.not_eq_false] at settlement
    obtain ⟨e, mem, same⟩ := List.any_eq_true.mp settlement.2.2.2
    simp only [Bool.and_eq_true, decide_eq_true_iff] at same
    exact ⟨e, mem, same.1.1.1, by rw [same.2]; rfl⟩
  | invalidated failure =>
    rw [state] at settlement ends
    cases ends
    dsimp only at settlement
    unfold checkInvalidated at settlement
    rw [refuse_ok] at settlement
    simp only [not_or, Bool.not_eq_false] at settlement
    exact announces settlement.2.2.2 rfl
  | cancelled cancelledBy =>
    rw [state] at settlement ends
    cases ends
    dsimp only at settlement
    unfold checkCancelled at settlement
    rw [refuse_ok] at settlement
    simp only [not_or, Bool.not_eq_false] at settlement
    exact announces settlement.2.2.2 rfl
  | acknowledged d acknowledgement =>
    rw [state] at settlement ends
    cases ends
    dsimp only at settlement
    unfold checkAcknowledged at settlement
    rw [refuse_ok] at settlement
    simp only [not_or, Bool.not_eq_false] at settlement
    exact announces settlement.2.2.2.2 rfl
  | queuedCancelled target =>
    rw [state] at settlement ends
    cases ends
    dsimp only at settlement
    unfold checkQueuedCancelled at settlement
    split at settlement
    · rw [refuse_ok] at settlement
      simp only [not_or, Bool.not_eq_false] at settlement
      exact announces settlement.2.2.2.2 rfl
    · cases settlement

end Commit

section Commit
variable [RecordHashing] {limits : Limits} {s : SessionWorkspace} {batch : SessionCommit}
  {accepting suspending : Bool} {r : Review} {pass : CommandPass} {k : Id} {c o : CommandRecord} {e : Event}
  {p : Replica}

omit [RecordHashing] in
theorem mem_reconciled {d : DispatchAttempt} {resolution : Resolution}
    (published : (r.batch.events.filter fun e => e.commandId = some k && isReconciled e.body).map (·.body) =
      [.reconciled d resolution]) :
    ∃ e ∈ r.batch.events, e.commandId = some k ∧ e.body = .reconciled d resolution := by
  have mem : EventBody.reconciled d resolution ∈ (r.batch.events.filter fun e =>
      e.commandId = some k && isReconciled e.body).map (·.body) := by
    rw [published]
    exact List.mem_singleton_self _
  obtain ⟨e, selected, body⟩ := List.mem_map.mp mem
  obtain ⟨mem, names⟩ := List.mem_filter.mp selected
  rw [Bool.and_eq_true, decide_eq_true_iff] at names
  exact ⟨e, mem, names.1, body⟩

omit [RecordHashing] in
theorem checked_withdrawn {attempts later : List Id} (checked : Checked r c (some o) attempts later)
    (rejected : (r.resolution c.commandId).bind (·.status.resolution) = some .notSubmitted) :
    ∃ e ∈ r.batch.events, e.commandId = some c.commandId ∧ ∃ d, e.body = .reconciled d .notSubmitted := by
  obtain ⟨fact, known, named⟩ := Option.bind_eq_some_iff.mp rejected
  obtain ⟨_, d, _, _, resolved⟩ := checkChange_resolved known named checked.change
  obtain ⟨e, mem, names, body⟩ := mem_reconciled resolved.published
  exact ⟨e, mem, names, d, body⟩

omit [RecordHashing] in
theorem checked_moves {attempts later : List Id} (checked : Checked r c (some o) attempts later)
    (unsettled : isSettled o = false) :
    o.state.name = c.state.name ∨ ∃ e ∈ r.batch.events, e.commandId = some c.commandId ∧ Moves c e := by
  by_cases same : o.state.name = c.state.name
  · exact .inl same
  right
  cases final : endingOf c.state with
  | some ending =>
    obtain ⟨e, mem, names, announces⟩ := checked_ends checked unsettled final
    exact ⟨e, mem, names, .inr (.inl ⟨ending, announces⟩)⟩
  | none =>
    have opened : isSettled c = false := endingOf_none.mp final
    have published := checked.published
    unfold checkStateEvent at published
    rw [refuse_ok] at published
    by_cases withdrawn : c.state.name = .accepted ∧
        (r.resolution c.commandId).bind (·.status.resolution) = some .notSubmitted
    · obtain ⟨e, mem, names, d, body⟩ := checked_withdrawn checked withdrawn.2
      refine ⟨e, mem, names, .inr (.inr ⟨?_, d, body⟩)⟩
      have name := withdrawn.1
      cases state : c.state <;> rw [state] at name <;> first | rfl | cases name
    · have said : r.batch.events.any (publishesState c (some o)) = true := by
        by_contra silent
        exact published ⟨by simpa using same, opened, withdrawn, Bool.eq_false_of_not_eq_true silent⟩
      obtain ⟨e, mem, publishes⟩ := List.any_eq_true.mp said
      unfold publishesState at publishes
      rw [Bool.and_eq_true, decide_eq_true_iff] at publishes
      refine ⟨e, mem, publishes.1, .inl ?_⟩
      have body := publishes.2
      split at body
      · cases body
      · rename_i state _
        exact ⟨state, by assumption⟩
      · cases body

omit [RecordHashing] in
theorem checked_sends {attempts later : List Id} (checked : Checked r c (some o) attempts later) :
    o.dispatch = c.dispatch ∨ ∃ e ∈ r.batch.events, e.commandId = some c.commandId ∧
      ((∃ d, e.body = .dispatch d) ∨ ∃ d, e.body = .reconciled d .notSubmitted) := by
  by_cases same : o.dispatch = c.dispatch
  · exact .inl same
  right
  cases sent : c.dispatch with
  | some d =>
    obtain ⟨e, mem, names, body⟩ := checkDispatchEvent_published sent (by simpa [sent] using same) checked.event
    exact ⟨e, mem, names, .inl ⟨d, body⟩⟩
  | none =>
    have step := checked.attempt
    rw [Option.bind_some, sent] at step
    generalize before : o.dispatch = stored at step
    cases step with
    | withdrawn rejected =>
      obtain ⟨e, mem, names, body⟩ := checked_withdrawn checked rejected
      exact ⟨e, mem, names, .inr body⟩
    | idle => exact absurd (before.trans sent.symm) same

omit [RecordHashing] in
theorem checked_added {attempts later : List Id} (checked : Checked r c none attempts later)
    (unknown : r.resolution c.commandId = none) :
    c.state = .accepted ∧ ∃ e ∈ r.batch.events, e.commandId = some c.commandId ∧
      e.body = .commandAccepted c.command := by
  obtain ⟨_, accepted⟩ := checkHistory_added checked.history
  refine ⟨accepted, ?_⟩
  have published := checked.published
  unfold checkStateEvent at published
  rw [refuse_ok] at published
  have said : r.batch.events.any (publishesState c none) = true := by
    by_contra silent
    refine published ⟨by simp, by simp [isSettled, accepted, CommandState.name], ?_,
      Bool.eq_false_of_not_eq_true silent⟩
    simp [unknown]
  obtain ⟨e, mem, publishes⟩ := List.any_eq_true.mp said
  unfold publishesState at publishes
  rw [Bool.and_eq_true, decide_eq_true_iff] at publishes
  refine ⟨e, mem, publishes.1, ?_⟩
  have body := publishes.2
  split at body
  · rename_i command said
    rw [Bool.and_eq_true, decide_eq_true_iff] at body
    rw [said, body.2]
  · rename_i state _
    rw [decide_eq_true_iff, accepted] at body
    cases state <;> cases body
  · cases body

theorem judged_known (done : Committed limits s batch accepting suspending r pass) {commandIds : List Id}
    (judged : Judged r commandIds c e) (stored : s.commands.get c.commandId = some o) :
    isCommandAccepted e.body = false := by
  have checked := judged.body
  unfold checkBody at checked
  cases body : e.body <;> first | rfl | skip
  rw [body] at checked
  dsimp only at checked
  rw [refuse_ok, done.review.1, stored] at checked
  simp at checked

/-- The events of a backed batch turn the view of every command into the one of the record it leaves. -/
theorem commit_commands (done : Committed limits s batch accepting suspending r pass) (said : Published s batch r)
    (backed : backsBatch s batch = true) (before : p.commands k = (s.commands.get k).map viewOf) :
    (batch.events.foldl Replica.apply p).commands k = ((committed s batch).commands.get k).map viewOf := by
  rw [foldl_commands, before]
  have own : ∀ e ∈ batch.events.filter (fun e => e.commandId = some k), e ∈ batch.events ∧
      ∃ c, c.commandId = k ∧ (committed s batch).commands.get k = some c ∧
        Judged r (batch.commands.map (·.commandId)) c e ∧ Tells c e := by
    intro e selected
    obtain ⟨mem, names⟩ := List.mem_filter.mp selected
    rw [decide_eq_true_iff] at names
    obtain ⟨c, found, judged⟩ := reviewEvents_judged said.events e mem
    have same : c.commandId = k := Option.some.inj (judged.names.symm.trans names)
    subst same
    exact ⟨mem, c, rfl, found, judged, commit_tells done backed mem found judged⟩
  have events : r.batch.events = batch.events := by rw [done.review.2.1]
  have selected : ∀ {c : CommandRecord} {P : Event → Prop}, c.commandId = k →
      (∃ e ∈ r.batch.events, e.commandId = some c.commandId ∧ P e) →
      ∃ e ∈ batch.events.filter (fun e => e.commandId = some k), P e := by
    rintro c P same ⟨e, mem, names, holds⟩
    exact ⟨e, List.mem_filter.mpr ⟨events ▸ mem, by simp [names, same]⟩, holds⟩
  generalize batch.events.filter (fun e => e.commandId = some k) = listed at own selected
  cases stored : s.commands.get k with
  | some o =>
    obtain ⟨c, found, from'⟩ := done.stored stored
    have told : ∀ e ∈ listed, Tells c e := by
      intro e mem
      obtain ⟨_, c', _, found', _, tells⟩ := own e mem
      cases found.symm.trans found'
      exact tells
    have silent : ∀ e ∈ listed, isCommandAccepted e.body = false := by
      intro e mem
      obtain ⟨_, c', same, _, judged, _⟩ := own e mem
      exact judged_known done judged (same ▸ stored)
    rw [Option.map_some, foldl_views silent, found, Option.map_some]
    have kept : c = o → listed.foldl CommandView.apply (viewOf o) = viewOf c := by
      intro same
      subst same
      apply foldl_keeps (fun v : CommandView => v = viewOf c) _ rfl
      intro v right e mem
      rw [right, told_same (told e mem)]
    rcases from' with same | ⟨_, same, attempts, later, checked⟩
    · rw [kept same]
    · obtain ⟨⟨_, content⟩, settled⟩ := checkHistory_kept checked.history
      cases final : isSettled o with
      | true => rw [kept (settled final).symm]
      | false =>
        rw [told_view content final told (fun ending ends => selected same (checked_ends checked final ends))
          ((checked_moves checked final).imp_right (selected same))
          ((checked_sends checked).imp_right (selected same))]
  | none =>
    cases found : (committed s batch).commands.get k with
    | none =>
      have empty : listed = [] := by
        rw [List.eq_nil_iff_forall_not_mem]
        intro e mem
        obtain ⟨_, c, _, found', _⟩ := own e mem
        rw [found] at found'
        cases found'
      rw [empty]
      rfl
    | some c =>
      rcases done.origin found with ⟨_, old⟩ | ⟨_, same, attempts, later, checked⟩
      · rw [stored] at old
        cases old
      · rw [stored] at checked
        have unknown : r.resolution c.commandId = none := by
          by_contra known
          obtain ⟨fact, known⟩ := Option.ne_none_iff_exists'.mp known
          obtain ⟨first, last, split, _⟩ := List.lookup_eq_some_iff.mp known
          have mem : (c.commandId, fact) ∈ r.facts := by
            rw [split]
            simp
          rcases lookup_collected done.facts _ _ mem with early | ⟨_, _, _, record, held, _⟩
          · cases early
          · rw [same, stored] at held
            cases held
        obtain ⟨accepted, announced⟩ := checked_added checked unknown
        have view : viewOf c = acceptedView c.command := by
          simp [viewOf, acceptedView, accepted, CommandState.name, CommandRecord.dispatch, CommandState.dispatch,
            endingOf]
        have step : ∀ e ∈ listed, Tells c e := by
          intro e mem
          obtain ⟨_, c', _, found', _, tells⟩ := own e mem
          cases found.symm.trans found'
          exact tells
        have accepts : ∀ v, ∀ e ∈ listed, ∀ command, e.body = .commandAccepted command →
            viewAfter v e = some (viewOf c) := by
          intro v e mem command body
          unfold viewAfter
          rw [body, view, ((step e mem).accepted command body).2]
        have other : ∀ (v : Option CommandView), ∀ e ∈ listed, (v = none ∨ v = some (viewOf c)) →
            viewAfter v e = v ∨ viewAfter v e = some (viewOf c) := by
          intro v e mem right
          cases body : e.body with
          | commandAccepted command => exact .inr (accepts v e mem command body)
          | _ =>
            left
            unfold viewAfter
            rw [body]
            rcases right with rfl | rfl
            · rfl
            · exact congrArg some (told_same (step e mem))
        rw [Option.map_none, Option.map_some]
        apply foldl_reaches (fun v => v = none ∨ v = some (viewOf c)) (fun v => v = some (viewOf c))
        · intro v right e mem
          rcases other v e mem right with kept | sets
          · rw [kept]
            exact right
          · exact .inr sets
        · intro v right now e mem
          rcases other v e mem right with kept | sets
          · rw [kept]
            exact now
          · exact sets
        · exact .inl rfl
        · obtain ⟨e, mem, body⟩ := selected same announced
          exact .inr ⟨e, mem, fun v _ => accepts v e mem _ body⟩

/-! ## Interactions and surfaces -/

theorem commit_interactions (done : Committed limits s batch accepting suspending r pass)
    (said : Published s batch r) (before : p.interactions k = (s.interactions.get k).map (·.status)) :
    (batch.events.foldl Replica.apply p).interactions k =
      ((committed s batch).interactions.get k).map (·.status) := by
  apply foldl_interactions
  · intro e mem status body
    obtain ⟨row, found, same⟩ := said.named e mem k status body
    rw [found, Option.map_some, same]
  · by_cases same : (s.interactions.get k).map (·.status) =
        ((committed s batch).interactions.get k).map (·.status)
    · exact .inl (before.trans same)
    right
    have mem : k ∈ batch.interactions.map (·.interactionId) := by
      by_contra absent
      exact same (by rw [committed, Rows.get_setAll_absent done.interactions.distinct absent])
    obtain ⟨row, listed, rfl⟩ := List.mem_map.mp mem
    have after : (committed s batch).interactions.get row.interactionId = some row :=
      Rows.get_setAll_mem done.interactions.distinct listed
    rcases said.interactions row listed with kept | ⟨e, mem, names⟩
    · obtain ⟨old, stored, name⟩ := Option.map_eq_some_iff.mp kept
      obtain ⟨source, d, checked⟩ := done.interactions.checked row listed
      obtain ⟨asked, final⟩ := checked.kept old stored
      refine absurd ?_ same
      rw [stored, after]
      by_cases pending : old.status = .pending
      · rw [pending] at name
        rw [Option.map_some, Option.map_some, pending]
        cases status : row.status <;> rw [status] at name <;> first | rfl | cases name
      · rw [final pending]
    · rw [done.review.2.1] at mem
      obtain ⟨status, body, _⟩ := statusOf_named names
      exact ⟨e, mem, status, body⟩

theorem commit_surfaces [SurfaceCatalog] (done : Committed limits s batch accepting suspending r pass)
    (said : Published s batch r) (before : p.surfaces k = s.surfaces.get k) :
    (batch.events.foldl Replica.apply p).surfaces k = (committed s batch).surfaces.get k := by
  apply foldl_surfaces
  · intro e mem row body same
    obtain ⟨stored, listed, names⟩ := List.mem_map.mp (said.listed e mem row body)
    have whole := (said.surfaces stored listed).said.2 e mem row body names.symm
    subst whole
    rw [← same]
    exact Rows.get_setAll_mem done.surfaces.distinct listed
  · by_cases mem : k ∈ batch.surfaces.map (·.surfaceInstanceId)
    · obtain ⟨row, listed, same⟩ := List.mem_map.mp mem
      obtain ⟨e, mem, body⟩ := (said.surfaces row listed).said.1
      exact .inr ⟨e, mem, row, body, same⟩
    · exact .inl (by rw [before, committed, Rows.get_setAll_absent done.surfaces.distinct mem])

def Told (s : SessionWorkspace) : Prop := replay s.events = Replica.of s

omit [RecordHashing] in
theorem Told.extend {s t : SessionWorkspace} {events : List Event} (told : Told s) (log : t.events = s.events ++ events)
    (commands : ∀ p k, p.commands k = (s.commands.get k).map viewOf →
      (events.foldl Replica.apply p).commands k = (t.commands.get k).map viewOf)
    (interactions : ∀ p k, p.interactions k = (s.interactions.get k).map (·.status) →
      (events.foldl Replica.apply p).interactions k = (t.interactions.get k).map (·.status))
    (surfaces : ∀ p k, p.surfaces k = s.surfaces.get k →
      (events.foldl Replica.apply p).surfaces k = t.surfaces.get k) : Told t := by
  unfold Told replay
  rw [log, List.foldl_append]
  change events.foldl Replica.apply (replay s.events) = _
  rw [told]
  have commands := fun k => commands (Replica.of s) k rfl
  have interactions := fun k => interactions (Replica.of s) k rfl
  have surfaces := fun k => surfaces (Replica.of s) k rfl
  generalize events.foldl Replica.apply (Replica.of s) = after at commands interactions surfaces
  obtain ⟨_, _, _⟩ := after
  unfold Replica.of
  congr 1
  · exact funext commands
  · exact funext interactions
  · exact funext surfaces

theorem commit_told [SurfaceCatalog] (done : Committed limits s batch accepting suspending r pass)
    (said : Published s batch r) (backed : backsBatch s batch = true) (before : Told s) :
    Told (committed s batch) :=
  before.extend rfl (fun _ _ => commit_commands done said backed) (fun _ _ => commit_interactions done said)
    fun _ _ => commit_surfaces done said

end Commit

end RssMdmAgent.EventLog
