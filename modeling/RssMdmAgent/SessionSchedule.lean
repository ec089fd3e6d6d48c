import RssMdmAgent.SessionHandoff
import Mathlib.Data.List.Sort

set_option autoImplicit false

/-! # The scheduler of a session and the commits it builds -/

namespace RssMdmAgent.SessionSchedule
open BoundedJson OrderedRows SessionRecords SessionValidity SessionState BatchReview BatchCommit
open SessionOperations SessionSteps ReviewRules CommitRules HandoffRules SessionInvariant SessionShape
open SessionSettlement SessionHandoff TransitionRuns
open ContractPlan (bind_ok)

/-! ## The scheduler -/

/-- What the host keeps about a session besides the store. -/
structure Runtime where
  retryAfter : List (Id × Nat)
  controlBurst : Nat
  inFlight : Nat
  closing : Bool
  callerAvailable : Bool
  deriving DecidableEq, Repr

structure Readings where
  retry : Nat
  expiry : Nat
  commit : Nat
  safe : isCounter commit = true

structure Names where
  first : Id
  second : Id
  attempt : Id
  deriving DecidableEq, Repr

def isOrdinary (c : CommandRecord) : Bool := c.command.input.isQueueNext

def pendingCommands (commands : List CommandRecord) : List CommandRecord :=
  (commands.filter fun c => c.state.name = .accepted).insertionSort fun a b =>
    a.receipt.acceptedRevision ≤ b.receipt.acceptedRevision

def isOccupied (commands : List CommandRecord) : Bool :=
  commands.any fun c => isOrdinary c && c.dispatch.isSome && !isSettled c

def ordinaryCommand (runtime : Runtime) (readings : Readings) (commands : List CommandRecord) :
    Option CommandRecord :=
  ((pendingCommands commands).find? isOrdinary).filter fun head =>
    (runtime.retryAfter.lookup head.commandId).getD 0 ≤ readings.retry

def controlCommand (commands : List CommandRecord) : Option CommandRecord :=
  (pendingCommands commands).find? fun c => !isOrdinary c

def candidate (runtime : Runtime) (readings : Readings) (commands : List CommandRecord) : Option CommandRecord :=
  let ordinary := ordinaryCommand runtime readings commands
  let control := controlCommand commands
  if control.isSome && (runtime.controlBurst < 8 || isOccupied commands || ordinary.isNone) then control
  else if !isOccupied commands && !runtime.closing && runtime.callerAvailable then ordinary
  else control

def selected (runtime : Runtime) (readings : Readings) (commands : List CommandRecord) : Option CommandRecord :=
  (candidate runtime readings commands).filter fun c =>
    runtime.inFlight < 16 && !(isOrdinary c && (runtime.closing || !runtime.callerAvailable))

def queuedTarget (commands : List CommandRecord) (c : CommandRecord) : Option CommandRecord :=
  match c.command.input with
  | .cancel target _ _ =>
    (commands.find? (·.commandId = target)).filter fun row => row.state.name = .accepted && isOrdinary row
  | _ => none

inductive Action where
  | expire (record : CommandRecord)
  | stale (record : CommandRecord)
  | cancelQueued (record target : CommandRecord)
  | dispatch (record : CommandRecord)

def chooseAction (stage : ContextStage) (readings : Readings) (commands : List CommandRecord)
    (c : CommandRecord) : Action :=
  if c.command.expiresAtMs < readings.expiry then .expire c
  else if controlIsStale stage commands c.command then .stale c
  else
    match queuedTarget commands c with
    | some target => .cancelQueued c target
    | none => .dispatch c

/-- A control carries the coordinates of the current turn, a steer only its run. -/
def attemptOfPass (stage : ContextStage) (names : Names) (c : CommandRecord) : DispatchAttempt where
  nativeSessionId := stage.binding.nativeSessionId
  nativeRunId := if isOrdinary c then none else stage.binding.nativeRunId
  nativeRequestId := if isOrdinary c || c.command.input.isPrompt then none else stage.binding.nativeRequestId
  certainty := .intent
  attemptId := names.attempt
  originGeneration := stage.binding.generation
  observerGeneration := stage.binding.generation
  correlationId := none
  nativeThreadId := stage.binding.nativeThreadId

def expiredFailure : Failure := ⟨.expired, .never⟩

def Action.commands (stage : ContextStage) (names : Names) : Action → List CommandRecord
  | .expire c => [{ c with state := .invalidated expiredFailure }]
  | .stale c => [{ c with state := .invalidated staleFailure }]
  | .cancelQueued c target =>
    [{ c with state := .queuedCancelled target.commandId }, { target with state := .cancelled c.commandId }]
  | .dispatch c => [{ c with state := .dispatching (attemptOfPass stage names c) }]

def passEvent (session : Session) (stage : ContextStage) (eventId command : Id) (attempt : Option Id)
    (offset : Nat) (body : EventBody) : Event where
  scope := session.scope
  eventId := eventId
  sequence := session.lastSequence + offset + 1
  generation := stage.binding.generation
  commandId := some command
  attemptId := attempt
  body := body

/-- The events that an action publishes. -/
def Action.events (session : Session) (stage : ContextStage) (names : Names) : Action → List Event
  | .expire c => [passEvent session stage names.first c.commandId none 0 (.invalidated expiredFailure)]
  | .stale c => [passEvent session stage names.first c.commandId none 0 (.invalidated staleFailure)]
  | .cancelQueued c target =>
    [passEvent session stage names.first c.commandId none 0 (.queuedCancelled target.commandId),
      passEvent session stage names.second target.commandId none 1 (.cancelled c.commandId)]
  | .dispatch c =>
    [passEvent session stage names.first c.commandId (some names.attempt) 0
        (.dispatch (attemptOfPass stage names c)),
      passEvent session stage names.second c.commandId (some names.attempt) 1 (.status .dispatching)]

def nextHead (session : Session) (events : List Event) : Session :=
  { session with
    revision := session.revision + 1
    lastSequence := session.lastSequence + events.length }

/-- A commit of the host that changes only commands. -/
def hostCommit (session : Session) (stage : ContextStage) (commands : List CommandRecord) (events : List Event)
    (now : Nat) : SessionCommit where
  scope := session.scope
  expectedRevision := session.revision
  expectedGeneration := stage.binding.generation
  session := nextHead session events
  commands := commands
  events := events
  interactions := []
  deliveries := []
  surfaces := []
  providerFacts := []
  nowMs := some now

/-- One pass over a session: what it does, if anything. -/
def scheduledAction (s : SessionWorkspace) (runtime : Runtime) (readings : Readings) :
    Option (ContextStage × Action) :=
  if s.session.status ≠ .active then none
  else
    match activeStage? s.session, selected runtime readings s.commands.entries with
    | some stage, some c => some (stage, chooseAction stage readings s.commands.entries c)
    | _, _ => none

def schedule (s : SessionWorkspace) (runtime : Runtime) (readings : Readings) (names : Names) :
    Option SessionCommit :=
  (scheduledAction s runtime readings).map fun (stage, action) =>
    hostCommit s.session stage (action.commands stage names) (action.events s.session stage names)
      readings.commit

/-! ## Commits of commands alone -/

theorem accepted_state {c : CommandRecord} (named : c.state.name = .accepted) : c.state = .accepted := by
  cases state : c.state <;> rw [state] at named <;> first | rfl | cases named

theorem forM_const {check : Event → Except Failure Unit} : ∀ {events : List Event},
    (∀ e ∈ events, check e = .ok ()) → events.forM check = .ok ()
  | [], _ => rfl
  | e :: rest, all => by
    change (check e >>= fun _ => rest.forM check) = .ok ()
    rw [all e List.mem_cons_self]
    exact forM_const fun other mem => all other (List.mem_cons_of_mem _ mem)

section Plain
variable [RecordHashing] [SurfaceCatalog] {limits : Limits} {s : SessionWorkspace} {stage : ContextStage}
  {commands : List CommandRecord} {events : List Event} {now : Nat}

def hostReview (s : SessionWorkspace) (stage : ContextStage) (commands : List CommandRecord)
    (events : List Event) (now : Nat) : Review :=
  ⟨s, hostCommit s.session stage commands events now, stage, [], false⟩

/-- The checks that remain for a commit of commands alone. -/
structure HostReviewed (s : SessionWorkspace) (r : Review) (commands : List CommandRecord) (events : List Event)
    (pass : CommandPass) : Prop where
  records : reviewCommands r commands ⟨s.commands, [], []⟩ = .ok pass
  owner : (({ s with commands := pass.commands }.commandsInStates openStates).filter ownsTurn).length ≤ 1
  said : reviewEvents r { s with commands := pass.commands } pass.commandIds 0 [] events = .ok ()
  closed : ∀ c ∈ commands, isSettled c = true →
    hasOpenWork { s with commands := pass.commands, events := s.events ++ events } c.commandId = false

theorem hostCommit_iff (status : s.session.status = .active) (active : activeStage? s.session = some stage)
    (plain : ∀ e ∈ events, interactionOf e.body = none ∧ surfaceOf e.body = none) :
    (∃ t, commitSession limits s (hostCommit s.session stage commands events now) = .ok t) ↔
      (∀ row ∈ (hostCommit s.session stage commands events now).rows, valid limits row = true) ∧
        ∃ pass, HostReviewed s (hostReview s stage commands events now) commands events pass := by
  have found : activeStage s.session = .ok stage := activeStage_ok.mpr active
  have foundNext : activeStage (nextHead s.session events) = .ok stage := activeStage_ok.mpr active
  have current : checkState s s.session.revision stage.binding.generation = .ok () := by
    unfold checkState
    refine bind_ok.mpr ⟨(), refuse_ok.mpr (by simp [status]), bind_ok.mpr ⟨stage, found, bind_ok.mpr ⟨(), ?_, ?_⟩⟩⟩
    · exact refuse_ok.mpr (by simp)
    · exact refuse_ok.mpr (by simp)
  have head : checkHead s (hostCommit s.session stage commands events now) false false = .ok stage := by
    unfold checkHead
    refine bind_ok.mpr ⟨(), refuse_ok.mpr ?_, bind_ok.mpr ⟨(), refuse_ok.mpr ?_, bind_ok.mpr ⟨stage, foundNext,
      bind_ok.mpr ⟨stage, found, bind_ok.mpr ⟨(), refuse_ok.mpr ?_, rfl⟩⟩⟩⟩⟩
    · simp [hostCommit, nextHead, status]
    · simp [hostCommit, nextHead]
    · simp
  have coordinates : ∀ r copy, checkCoordinates r copy stage.binding stage.binding = .ok () := by
    intro r copy
    unfold checkCoordinates
    rw [if_pos ⟨rfl, rfl⟩]
  have interactions : ∀ r copy, events.forM (checkInteractionEvent r copy) = .ok () := by
    intro r copy
    refine forM_const fun e mem => ?_
    unfold checkInteractionEvent
    rw [(plain e mem).1]
  have surfaces : (events.any fun e => (surfaceOf e.body).any fun s =>
      s.surfaceInstanceId ∉ ([] : List SurfaceState).map (·.surfaceInstanceId)) = false := by
    rw [List.any_eq_false]
    intro e mem
    rw [(plain e mem).2]
    decide
  constructor
  · rintro ⟨t, h⟩
    unfold commitSession reduceCommit at h
    obtain ⟨_, -, h⟩ := bind_ok.mp h
    obtain ⟨_, rows, h⟩ := bind_ok.mp h
    obtain ⟨stage', head', h⟩ := bind_ok.mp h
    have same : stage' = stage := Except.ok.inj (head'.symm.trans head)
    subst same
    obtain ⟨facts, collected, h⟩ := bind_ok.mp h
    cases collected
    obtain ⟨pass, records, h⟩ := bind_ok.mp h
    obtain ⟨_, -, h⟩ := bind_ok.mp h
    obtain ⟨_, owner, h⟩ := bind_ok.mp h
    obtain ⟨_, -, h⟩ := bind_ok.mp h
    obtain ⟨_, -, h⟩ := bind_ok.mp h
    obtain ⟨_, said, h⟩ := bind_ok.mp h
    obtain ⟨asking, asked, h⟩ := bind_ok.mp h
    cases asked
    obtain ⟨_, -, h⟩ := bind_ok.mp h
    obtain ⟨sending, sent, h⟩ := bind_ok.mp h
    cases sent
    obtain ⟨showing, shown, h⟩ := bind_ok.mp h
    cases shown
    obtain ⟨_, -, h⟩ := bind_ok.mp h
    obtain ⟨_, closed, h⟩ := bind_ok.mp h
    rw [refuse_ok, Bool.not_eq_false, List.all_eq_true] at rows
    rw [refuse_ok, Nat.not_lt] at owner
    rw [refuse_ok, Bool.not_eq_true, List.any_eq_false] at closed
    refine ⟨rows, pass, records, owner, said, fun c mem settled => ?_⟩
    have shut := closed c mem
    rw [settled, Bool.true_and, Bool.not_eq_true] at shut
    exact shut
  · rintro ⟨rows, pass, reviewed⟩
    refine ⟨{ s with
      session := nextHead s.session events
      commands := pass.commands
      events := s.events ++ events }, ?_⟩
    unfold commitSession reduceCommit
    refine bind_ok.mpr ⟨(), current, bind_ok.mpr ⟨(), refuse_ok.mpr ?_, bind_ok.mpr ⟨stage, head,
      bind_ok.mpr ⟨[], rfl, bind_ok.mpr ⟨pass, reviewed.records, bind_ok.mpr ⟨(), refuse_ok.mpr (by simp),
      bind_ok.mpr ⟨(), refuse_ok.mpr (Nat.not_lt.mpr reviewed.owner), bind_ok.mpr ⟨stage, foundNext,
      bind_ok.mpr ⟨(), coordinates _ _, bind_ok.mpr ⟨(), reviewed.said, bind_ok.mpr ⟨_, rfl,
      bind_ok.mpr ⟨(), interactions _ _, bind_ok.mpr ⟨_, rfl, bind_ok.mpr ⟨_, rfl,
      bind_ok.mpr ⟨(), refuse_ok.mpr ?_, bind_ok.mpr ⟨(), refuse_ok.mpr ?_,
      bind_ok.mpr ⟨(), rfl, rfl⟩⟩⟩⟩⟩⟩⟩⟩⟩⟩⟩⟩⟩⟩⟩⟩⟩
    · rw [Bool.not_eq_false, List.all_eq_true]
      exact rows
    · rw [Bool.not_eq_true]
      exact surfaces
    · rw [Bool.not_eq_true, List.any_eq_false]
      intro c mem
      rw [Bool.and_eq_true, not_and, Bool.not_eq_true]
      exact reviewed.closed c mem

end Plain

/-! ## The schema of the written records -/

structure Names.Fresh (s : SessionWorkspace) (names : Names) : Prop where
  first : isId names.first = true ∧ s.hasEvent names.first = false
  second : isId names.second = true ∧ s.hasEvent names.second = false
  attempt : isId names.attempt = true ∧ s.hasAttempt names.attempt = false
  distinct : names.first ≠ names.second

structure ActionFits (limits : Limits) (s : SessionWorkspace) (stage : ContextStage) (names : Names)
    (action : Action) : Prop where
  head : fits limits (Session.json (nextHead s.session (action.events s.session stage names))) = true
  commands : ∀ c ∈ action.commands stage names, fits limits (CommandRecord.json c) = true
  events : ∀ e ∈ action.events s.session stage names, fits limits (Event.json e) = true

/-- An action handles a stored accepted command, and cancels a stored accepted prompt. -/
inductive Handles (s : SessionWorkspace) : Action → Prop where
  | expire {c : CommandRecord} (mem : c ∈ s.commands.entries) (state : c.state = .accepted) : Handles s (.expire c)
  | stale {c : CommandRecord} (mem : c ∈ s.commands.entries) (state : c.state = .accepted) : Handles s (.stale c)
  | cancelQueued {c target : CommandRecord} {run : Option Id} {generation : Id} (mem : c ∈ s.commands.entries)
      (state : c.state = .accepted) (input : c.command.input = .cancel target.commandId generation run)
      (stored : target ∈ s.commands.entries) (queued : target.state = .accepted)
      (ordinary : target.command.input.isQueueNext = true) : Handles s (.cancelQueued c target)
  | dispatch {c : CommandRecord} (mem : c ∈ s.commands.entries) (state : c.state = .accepted) :
      Handles s (.dispatch c)

section Schema
variable [RecordHashing] {limits : Limits} {s : SessionWorkspace} {stage : ContextStage} {names : Names}

theorem record_valid {scope : Namespace} {c : CommandRecord} (shaped : RecordShaped scope c)
    (state : CommandState.accepts c.state = true) :
    valid limits (.commandRecord c) = true ↔ fits limits (CommandRecord.json c) = true := by
  rw [valid_iff]
  refine ⟨And.left, fun fitting => ⟨fitting, ?_, shaped.context⟩⟩
  change CommandRecord.accepts c = true
  unfold CommandRecord.accepts
  rw [shaped.command, shaped.receipt, state]
  rfl

theorem event_valid {eventId command : Id} {attempt : Option Id} {offset : Nat} {body : EventBody}
    (shaped : Shaped s) (active : activeStage? s.session = some stage) (named : isId eventId = true)
    (owner : isId command = true) (attempted : attempt.all isId = true)
    (subject : EventBody.subject body = if attempt.isSome then .attempt else .command)
    (accepted : EventBody.accepts body = true)
    (context : surfaceOf body = none ∧ isCommandAccepted body = false) :
    valid limits (.event (passEvent s.session stage eventId command attempt offset body)) = true ↔
      fits limits (Event.json (passEvent s.session stage eventId command attempt offset body)) = true := by
  rw [valid_iff]
  refine ⟨And.left, fun fitting => ⟨fitting, ?_, ?_⟩⟩
  · have counter : s.session.lastSequence + offset + 1 ≤ maxSafeInteger := by
      change fits limits (Event.json _) = true at fitting
      unfold Event.json at fitting
      refine fits_counter limits "sequence" fitting ?_
      simp [passEvent]
    have sequence : isCounter (s.session.lastSequence + offset + 1) = true := by simpa [isCounter] using counter
    have generation : isId stage.binding.generation = true := by
      have staged := shaped.head.stage (activeStage_mem active).1
      unfold ContextStage.accepts at staged
      rw [Bool.and_eq_true] at staged
      exact accepts_generation staged.2
    have named' : Event.names (passEvent s.session stage eventId command attempt offset body) = true := by
      unfold Event.names passEvent
      dsimp only
      rw [subject]
      cases attempt <;> rfl
    change Event.accepts _ = true
    simp only [Event.accepts, Bool.and_eq_true]
    exact ⟨⟨⟨⟨⟨⟨⟨shaped.head.scope, named⟩, sequence⟩, generation⟩, owner⟩, attempted⟩, named'⟩, accepted⟩
  · change Event.context _ = true
    unfold Event.context passEvent
    dsimp only
    cases body
    case commandAccepted => cases context.2
    case surface => cases context.1
    all_goals rfl

omit [RecordHashing] in
theorem attemptOfPass_accepts (shaped : Shaped s) (active : activeStage? s.session = some stage)
    (fresh : names.Fresh s) (c : CommandRecord) : DispatchAttempt.accepts (attemptOfPass stage names c) = true := by
  have staged := shaped.head.stage (activeStage_mem active).1
  unfold ContextStage.accepts Binding.accepts at staged
  simp only [Bool.and_eq_true, List.all_cons] at staged
  obtain ⟨_, ⟨⟨⟨_, _, _, generation, native, _⟩, run⟩, request⟩, thread⟩ := staged
  have picked : ∀ (chosen : Bool) (id : Option Id), id.all isId = true →
      (if chosen then none else id).all isId = true := by
    intro chosen id named
    cases chosen
    · exact named
    · rfl
  simp only [DispatchAttempt.accepts, attemptOfPass, Bool.and_eq_true, List.all_cons, List.all_nil]
  exact ⟨⟨⟨⟨⟨native, fresh.attempt.1, generation, generation, trivial⟩, picked _ _ run⟩, picked _ _ request⟩, rfl⟩, thread⟩

/-- A host commit is well formed exactly when its records fit the bounds. -/
theorem action_valid {action : Action} {now : Nat} (handles : Handles s action) (shaped : Shaped s)
    (recorded : Recorded s) (active : activeStage? s.session = some stage) (fresh : names.Fresh s) :
    (∀ row ∈ (hostCommit s.session stage (action.commands stage names) (action.events s.session stage names)
      now).rows, valid limits row = true) ↔ ActionFits limits s stage names action := by
  have stored : ∀ c ∈ s.commands.entries, isId c.commandId = true ∧ RecordShaped s.session.scope c :=
    fun c mem => ⟨(shaped.commands _ c (Rows.get_of_mem mem)).1, recorded _ c (Rows.get_of_mem mem)⟩
  have head : valid limits (.session (nextHead s.session (action.events s.session stage names))) = true ↔
      fits limits (Session.json (nextHead s.session (action.events s.session stage names))) = true := by
    have next : HeadShaped (nextHead s.session (action.events s.session stage names)) :=
      ⟨shaped.head.accepted, shaped.head.context⟩
    rw [← session_fits next, valid_iff, validate_ok]
  have commands : ∀ c ∈ action.commands stage names,
      (valid limits (.commandRecord c) = true ↔ fits limits (CommandRecord.json c) = true) := by
    intro c mem
    cases handles with
    | expire kept | stale kept =>
      rw [List.mem_singleton.mp mem]
      exact record_valid ((stored _ kept).2.of_content rfl rfl) rfl
    | cancelQueued kept _ _ target =>
      rcases List.mem_cons.mp mem with rfl | mem
      · exact record_valid ((stored _ kept).2.of_content rfl rfl) (stored _ target).1
      · rw [List.mem_singleton.mp mem]
        exact record_valid ((stored _ target).2.of_content rfl rfl) (stored _ kept).1
    | dispatch kept =>
      rw [List.mem_singleton.mp mem]
      exact record_valid ((stored _ kept).2.of_content rfl rfl) (attemptOfPass_accepts shaped active fresh _)
  have events : ∀ e ∈ action.events s.session stage names,
      (valid limits (.event e) = true ↔ fits limits (Event.json e) = true) := by
    intro e mem
    cases handles with
    | expire kept | stale kept =>
      rw [List.mem_singleton.mp mem]
      exact event_valid shaped active fresh.first.1 (stored _ kept).1 rfl rfl rfl ⟨rfl, rfl⟩
    | cancelQueued kept _ _ target =>
      rcases List.mem_cons.mp mem with rfl | mem
      · exact event_valid shaped active fresh.first.1 (stored _ kept).1 rfl rfl (stored _ target).1 ⟨rfl, rfl⟩
      · rw [List.mem_singleton.mp mem]
        exact event_valid shaped active fresh.second.1 (stored _ target).1 rfl rfl (stored _ kept).1 ⟨rfl, rfl⟩
    | dispatch kept =>
      rcases List.mem_cons.mp mem with rfl | mem
      · exact event_valid shaped active fresh.first.1 (stored _ kept).1 fresh.attempt.1 rfl
          (attemptOfPass_accepts shaped active fresh _) ⟨rfl, rfl⟩
      · rw [List.mem_singleton.mp mem]
        exact event_valid shaped active fresh.second.1 (stored _ kept).1 fresh.attempt.1 rfl rfl ⟨rfl, rfl⟩
  have listed : ∀ row, row ∈ (hostCommit s.session stage (action.commands stage names)
      (action.events s.session stage names) now).rows ↔
        row = .session (nextHead s.session (action.events s.session stage names)) ∨
          (∃ c ∈ action.commands stage names, row = .commandRecord c) ∨
          ∃ e ∈ action.events s.session stage names, row = .event e := by
    intro row
    simp [SessionCommit.rows, hostCommit, eq_comm]
  constructor
  · intro all
    exact ⟨head.mp (all _ ((listed _).mpr (.inl rfl))),
      fun c mem => (commands c mem).mp (all _ ((listed _).mpr (.inr (.inl ⟨c, mem, rfl⟩)))),
      fun e mem => (events e mem).mp (all _ ((listed _).mpr (.inr (.inr ⟨e, mem, rfl⟩))))⟩
  · rintro ⟨fitting, records, said⟩ row mem
    rcases (listed row).mp mem with rfl | ⟨c, written, rfl⟩ | ⟨e, written, rfl⟩
    · exact head.mpr fitting
    · exact (commands c written).mpr (records c written)
    · exact (events e written).mpr (said e written)

end Schema

/-! ## The review of one pass -/

section Review
variable [RecordHashing] [SurfaceCatalog] {s : SessionWorkspace} {stage : ContextStage} {names : Names}
  {readings : Readings}

omit [RecordHashing] [SurfaceCatalog] in
theorem owners_length {t : SessionWorkspace} (owner : ∀ c ∈ t.commands.entries, ∀ c' ∈ t.commands.entries,
    ownsTurn c = true → ownsTurn c' = true → c.commandId = c'.commandId) :
    ((t.commandsInStates openStates).filter ownsTurn).length ≤ 1 := by
  have same : ∀ c ∈ (t.commandsInStates openStates).filter ownsTurn,
      ∀ c' ∈ (t.commandsInStates openStates).filter ownsTurn, c = c' := by
    intro c mem c' mem'
    obtain ⟨listed, owns⟩ := List.mem_filter.mp mem
    obtain ⟨listed', owns'⟩ := List.mem_filter.mp mem'
    have stored := (Rows.mem_select.mp listed).1
    have stored' := (Rows.mem_select.mp listed').1
    exact List.inj_on_of_nodup_map t.commands.distinct stored stored' (owner c stored c' stored' owns owns')
  have distinct : ((t.commandsInStates openStates).filter ownsTurn).Nodup :=
    (t.commands.distinct.of_map.filter _).filter _
  match listed : (t.commandsInStates openStates).filter ownsTurn with
  | [] => exact Nat.zero_le _
  | [c] => exact Nat.le_refl _
  | c :: c' :: rest =>
    rw [listed] at same distinct
    have equal := same c List.mem_cons_self c' (List.mem_cons_of_mem _ List.mem_cons_self)
    rw [equal] at distinct
    exact absurd List.mem_cons_self (List.nodup_cons.mp distinct).1

omit [RecordHashing] [SurfaceCatalog] in
theorem unsent_closed (consistent : Consistent s) {c : CommandRecord} (mem : c ∈ s.commands.entries)
    (unsent : c.dispatch = none) {copy : SessionWorkspace} (interactions : copy.interactions = s.interactions)
    (surfaces : copy.surfaces = s.surfaces) : hasOpenWork copy c.commandId = false := by
  have dead : ¬Live s c.commandId := by
    rintro ⟨c', d, found, _, sent, _⟩
    rw [Rows.get_of_mem mem] at found
    cases found
    rw [unsent] at sent
    cases sent
  by_contra openWork
  rw [Bool.not_eq_false] at openWork
  unfold hasOpenWork at openWork
  rw [Bool.or_eq_true, List.any_eq_true, List.any_eq_true] at openWork
  rcases openWork with ⟨i, listed, waits⟩ | ⟨row, listed, shown⟩
  · obtain ⟨stored, names⟩ := Rows.mem_select.mp listed
    rw [interactions] at stored
    apply dead
    rw [← of_decide_eq_true names]
    exact consistent.pending _ i (Rows.get_of_mem stored) (of_decide_eq_true waits)
  · obtain ⟨i, asked, placed⟩ := List.mem_flatMap.mp listed
    have stored := (Rows.mem_select.mp placed).1
    rw [surfaces] at stored
    rw [Bool.and_eq_true, interactions] at shown
    obtain ⟨i', found, live⟩ := consistent.active _ row (Rows.get_of_mem stored) (of_decide_eq_true shown.1)
    rw [found] at shown
    apply dead
    rw [← of_decide_eq_true shown.2]
    exact live

omit [RecordHashing] [SurfaceCatalog] in
theorem owner_set (consistent : Consistent s) {c' : CommandRecord}
    (alone : ownsTurn c' = true → ∀ o ∈ s.commands.entries, o.commandId ≠ c'.commandId → ownsTurn o = false) :
    ((({ s with commands := s.commands.set c' } : SessionWorkspace).commandsInStates openStates).filter
      ownsTurn).length ≤ 1 := by
  apply owners_length
  intro a mem b mem' owns owns'
  rcases Rows.mem_set.mp mem with rfl | ⟨stored, differ⟩ <;>
    rcases Rows.mem_set.mp mem' with rfl | ⟨stored', differ'⟩
  · rfl
  · rw [alone owns b stored' differ'] at owns'
    cases owns'
  · rw [alone owns' a stored differ] at owns
    cases owns
  · exact consistent.owner a stored b stored' owns owns'

omit [SurfaceCatalog] in
theorem reviewCommand_stored (c c' : CommandRecord) {r : Review} {start pass : CommandPass}
    (state : r.state = s) (scope : r.batch.scope = s.session.scope) (consistent : Consistent s)
    (recorded : Recorded s) (mem : c ∈ s.commands.entries) (opened : isSettled c = false)
    (command : c'.command = c.command) (receipt : c'.receipt = c.receipt)
    (fresh : c.commandId ∉ start.commandIds) :
    reviewCommand r start c' = .ok pass ↔ ∃ attempts, checkCommand r c' (some c) start.attemptIds = .ok attempts ∧
      pass = ⟨start.commands.set c', start.commandIds ++ [c.commandId], attempts⟩ := by
  have named : c'.commandId = c.commandId := by
    unfold CommandRecord.commandId
    rw [command]
  have stage := consistent.stage _ c (Rows.get_of_mem mem) opened
  have owner := (recorded _ c (Rows.get_of_mem mem)).owner
  have stored : r.state.commands.get c'.commandId = some c := by
    rw [state, named]
    exact Rows.get_of_mem mem
  unfold reviewCommand
  rw [stored, named, receipt, command, state, scope]
  constructor
  · intro h
    obtain ⟨_, -, h⟩ := bind_ok.mp h
    obtain ⟨_, -, h⟩ := bind_ok.mp h
    obtain ⟨_, -, h⟩ := bind_ok.mp h
    obtain ⟨attempts, checked, h⟩ := bind_ok.mp h
    cases h
    exact ⟨attempts, checked, rfl⟩
  · rintro ⟨attempts, checked, rfl⟩
    refine bind_ok.mpr ⟨(), refuse_ok.mpr (not_not.mpr stage), bind_ok.mpr ⟨(), refuse_ok.mpr fresh,
      bind_ok.mpr ⟨(), refuse_ok.mpr ?_, bind_ok.mpr ⟨attempts, checked, rfl⟩⟩⟩⟩
    simp [owner]

omit [RecordHashing] [SurfaceCatalog] in
theorem reviewCommands_one {r : Review} {c : CommandRecord} {start pass : CommandPass} :
    reviewCommands r [c] start = .ok pass ↔ reviewCommand r start c = .ok pass := by
  unfold reviewCommands
  rw [bind_ok]
  constructor
  · rintro ⟨middle, first, h⟩
    cases h
    exact first
  · intro first
    exact ⟨pass, first, rfl⟩

omit [SurfaceCatalog] in
theorem single_reviewed (c c' : CommandRecord) {events : List Event} {now : Nat} (consistent : Consistent s)
    (recorded : Recorded s) (mem : c ∈ s.commands.entries) (state : c.state = .accepted)
    (command : c'.command = c.command) (receipt : c'.receipt = c.receipt)
    (alone : ∀ attempts, checkCommand (hostReview s stage [c'] events now) c' (some c) [] = .ok attempts →
      ownsTurn c' = true → ∀ o ∈ s.commands.entries, o.commandId ≠ c.commandId → ownsTurn o = false) :
    (∃ pass, HostReviewed s (hostReview s stage [c'] events now) [c'] events pass) ↔
      (∃ attempts, checkCommand (hostReview s stage [c'] events now) c' (some c) [] = .ok attempts) ∧
        reviewEvents (hostReview s stage [c'] events now) { s with commands := s.commands.set c' } [c.commandId]
          0 [] events = .ok () := by
  have named : c'.commandId = c.commandId := by
    unfold CommandRecord.commandId
    rw [command]
  have opened : isSettled c = false := by
    unfold isSettled
    rw [state]
    decide
  have unsent : c.dispatch = none := by
    unfold CommandRecord.dispatch
    rw [state]
    rfl
  have review : ∀ pass, reviewCommands (hostReview s stage [c'] events now) [c'] ⟨s.commands, [], []⟩ = .ok pass ↔
      ∃ attempts, checkCommand (hostReview s stage [c'] events now) c' (some c) [] = .ok attempts ∧
        pass = ⟨s.commands.set c', [c.commandId], attempts⟩ := by
    intro pass
    rw [reviewCommands_one, reviewCommand_stored c c' rfl rfl consistent recorded mem opened command receipt
      List.not_mem_nil]
    exact Iff.rfl
  constructor
  · rintro ⟨pass, records, owner, said, closed⟩
    obtain ⟨attempts, checked, rfl⟩ := (review pass).mp records
    exact ⟨⟨attempts, checked⟩, said⟩
  · rintro ⟨⟨attempts, checked⟩, said⟩
    refine ⟨_, (review _).mpr ⟨attempts, checked, rfl⟩, owner_set consistent ?_, said, fun other listed _ => ?_⟩
    · rw [named]
      exact alone _ checked
    · rw [List.mem_singleton.mp listed, named]
      exact unsent_closed consistent mem unsent rfl rfl

omit [RecordHashing] [SurfaceCatalog] in
theorem passEvent_checked (r : Review) (copy : SessionWorkspace) (commandIds ids : List Id) (index : Nat)
    (source : CommandRecord) (eventId : Id) (attempt : Option Id) (body : EventBody)
    (state : r.state = s) (scope : r.batch.scope = s.session.scope)
    (generation : r.batch.expectedGeneration = stage.binding.generation) (unused : eventId ∉ ids)
    (fresh : s.hasEvent eventId = false) (found : copy.commands.get source.commandId = some source)
    (listed : source.commandId ∈ commandIds) (output : isLiveOutput body = false)
    (delivery : ∀ source e, e.body = body → checkDeliveryBody r source e = .ok ()) :
    checkEvent r copy commandIds index ids
        (passEvent s.session stage eventId source.commandId attempt index body) = .ok () ↔
      checkAttemptId r source (s.commands.get source.commandId)
          (passEvent s.session stage eventId source.commandId attempt index body) = .ok () ∧
        checkBody r commandIds source (s.commands.get source.commandId)
          (passEvent s.session stage eventId source.commandId attempt index body) = .ok () := by
  unfold checkEvent
  have first : ((passEvent s.session stage eventId source.commandId attempt index body).commandId.bind
      copy.commands.get) = some source := found
  rw [bind_ok, first, state]
  dsimp only
  constructor
  · rintro ⟨_, -, h⟩
    obtain ⟨_, -, h⟩ := bind_ok.mp h
    obtain ⟨_, attempted, h⟩ := bind_ok.mp h
    obtain ⟨_, -, h⟩ := bind_ok.mp h
    obtain ⟨_, -, h⟩ := bind_ok.mp h
    exact ⟨attempted, h⟩
  · rintro ⟨attempted, body'⟩
    refine ⟨(), refuse_ok.mpr ?_, bind_ok.mpr ⟨(), delivery _ _ rfl, bind_ok.mpr ⟨(), attempted,
      bind_ok.mpr ⟨(), refuse_ok.mpr ?_, bind_ok.mpr ⟨(), refuse_ok.mpr ?_, body'⟩⟩⟩⟩⟩
    · simp [passEvent, scope, generation, unused, fresh]
    · simp [passEvent, output]
    · simp [listed]

/-! ## Invalidations -/

omit [RecordHashing] [SurfaceCatalog] in
theorem resolution_none {r : Review} (facts : r.facts = []) (command : Id) : r.resolution command = none := by
  unfold Review.resolution
  rw [facts]
  rfl

omit [RecordHashing] [SurfaceCatalog] in
/-- An accepted command that is settled without a dispatch needs only its evidence. -/
theorem settled_checked {r : Review} {c : CommandRecord} {next : CommandState} {attempts later : List Id}
    (facts : r.facts = []) (state : c.state = .accepted) (unsent : next.dispatch = none)
    (settled : next.name ∈ [.invalidated, .cancelled, .acknowledged]) :
    checkCommand r { c with state := next } (some c) attempts = .ok later ↔
      checkSettlement r { c with state := next } (some c) = .ok () ∧ attempts = later := by
  obtain ⟨command, receipt, before⟩ := c
  subst state
  have resolution := resolution_none facts
  have named : next.name ≠ .terminal ∧ next.name ≠ .running := by
    simp only [List.mem_cons, List.not_mem_nil, or_false] at settled
    rcases settled with name | name | name <;> rw [name] <;> decide
  have history : checkHistory r ⟨command, receipt, next⟩ (some ⟨command, receipt, .accepted⟩) = .ok () := by
    simp [checkHistory, isSettled, CommandState.name, refuse, bind, Except.bind]
  have observer : checkObserver r ⟨command, receipt, next⟩ = .ok () := by
    unfold checkObserver CommandRecord.dispatch
    rw [unsent]
  have change : checkChange r ⟨command, receipt, next⟩ (some ⟨command, receipt, .accepted⟩) = .ok () := by
    have allowed : next.name ∈ allowedChanges .accepted := by
      simp only [List.mem_cons, List.not_mem_nil, or_false] at settled
      rcases settled with name | name | name <;> rw [name] <;> decide
    unfold checkChange
    rw [resolution]
    exact refuse_ok.mpr fun other => other.2 allowed
  have attempt : checkAttempt r ⟨command, receipt, next⟩ (some ⟨command, receipt, .accepted⟩) attempts =
      .ok attempts := by
    unfold checkAttempt CommandRecord.dispatch
    rw [unsent]
    rfl
  have published : checkDispatchEvent r ⟨command, receipt, next⟩ (some ⟨command, receipt, .accepted⟩) = .ok () := by
    unfold checkDispatchEvent CommandRecord.dispatch
    rw [unsent]
  have authority : checkAuthority r ⟨command, receipt, next⟩ (some ⟨command, receipt, .accepted⟩) = .ok () := by
    simp [checkAuthority, isSubmitted, unsent, named, refuse, bind, Except.bind]
  have announced : checkStateEvent r ⟨command, receipt, next⟩ (some ⟨command, receipt, .accepted⟩) = .ok () := by
    have closed : isSettled ⟨command, receipt, next⟩ = true := by
      unfold isSettled
      simp only [List.mem_cons, List.not_mem_nil, or_false] at settled
      rcases settled with name | name | name <;> rw [name] <;> decide
    unfold checkStateEvent
    rw [closed]
    exact refuse_ok.mpr (by simp)
  unfold checkCommand
  rw [history, observer, change, attempt, published, authority, announced]
  constructor
  · intro h
    obtain ⟨_, -, h⟩ := bind_ok.mp h
    obtain ⟨_, -, h⟩ := bind_ok.mp h
    obtain ⟨_, -, h⟩ := bind_ok.mp h
    obtain ⟨_, same, h⟩ := bind_ok.mp h
    obtain ⟨_, -, h⟩ := bind_ok.mp h
    obtain ⟨_, -, h⟩ := bind_ok.mp h
    obtain ⟨_, evidence, h⟩ := bind_ok.mp h
    cases same
    cases h
    exact ⟨evidence, rfl⟩
  · rintro ⟨evidence, rfl⟩
    rw [evidence]
    rfl

omit [RecordHashing] [SurfaceCatalog] in
theorem invalidated_checked {r : Review} {c : CommandRecord} {failure : Failure} {attempts : List Id}
    (facts : r.facts = []) (state : c.state = .accepted) (retry : failure.retry = .never)
    (code : failure.code ∈ [.expired, .staleBinding, .unavailable])
    (said : r.batch.announces c.commandId (.invalidated failure) = true) :
    (∃ later, checkCommand r { c with state := .invalidated failure } (some c) attempts = .ok later) ↔
      (failure.code = .expired ∧ r.batch.now.any (dispatchDeadline r.state c < ·) = true) ∨
        (failure.code = .staleBinding ∧ controlIsStale r.stage (staleRecords r c) c.command = true) := by
  have evidence : checkSettlement r { c with state := .invalidated failure } (some c) = .ok () ↔
      (failure.code = .expired ∧ r.batch.now.any (dispatchDeadline r.state c < ·) = true) ∨
        (failure.code = .staleBinding ∧ controlIsStale r.stage (staleRecords r c) c.command = true) := by
    have reviewed : checkSettlement r { c with state := .invalidated failure } (some c) =
        checkInvalidated r { c with state := .invalidated failure } (some c) failure := by
      unfold checkSettlement
      rw [if_neg (by simp [state, CommandState.name])]
    have named : r.batch.announces (CommandRecord.commandId { c with state := .invalidated failure })
        (.invalidated failure) = true := said
    rw [reviewed, checkInvalidated, refuse_ok, resolution_none facts, named, Option.map_some, state]
    simp only [retry, code, not_true_eq_false, ne_eq, false_or, Option.bind_none, reduceCtorEq, not_false_eq_true,
      true_and, CommandState.name, or_false, not_not, Bool.true_eq_false]
    exact Iff.rfl
  rw [← evidence]
  constructor
  · rintro ⟨later, checked⟩
    exact ((settled_checked facts state rfl (by simp [CommandState.name])).mp checked).1
  · intro settled
    exact ⟨attempts, (settled_checked facts state rfl (by simp [CommandState.name])).mpr ⟨settled, rfl⟩⟩

omit [RecordHashing] [SurfaceCatalog] in
/-- The scheduler and the reducer find the same controls stale. -/
theorem stale_agree {r : Review} {c : CommandRecord} :
    controlIsStale r.stage (staleRecords r c) c.command =
      controlIsStale r.stage r.state.commands.entries c.command := by
  unfold controlIsStale staleRecords
  cases input : c.command.input with
  | prompt text policy target history =>
    dsimp only
    rw [List.append_nil, SessionWorkspace.commandsInStates, Rows.select, List.any_filter]
    congr 3
    apply List.any_congr rfl
    intro row
    cases row.state <;> simp [CommandState.name]
  | cancel target generation run =>
    dsimp only
    have same : (r.state.commandsInStates [.running] ++ (r.state.commands.get target).toList).find?
        (·.commandId = target) = r.state.commands.entries.find? (·.commandId = target) := by
      change _ = r.state.commands.get target
      cases found : r.state.commands.get target with
      | none =>
        rw [Option.toList_none, List.append_nil, List.find?_eq_none]
        intro row listed named
        have stored := (Rows.mem_select.mp listed).1
        rw [← of_decide_eq_true named, Rows.get_of_mem stored] at found
        cases found
      | some row =>
        have listed : row ∈ r.state.commandsInStates [.running] ++ [row] :=
          List.mem_append_right _ (List.mem_singleton_self _)
        have named := Rows.get_key found
        cases first : (r.state.commandsInStates [.running] ++ [row]).find? (·.commandId = target) with
        | none => exact absurd (decide_eq_true named) (List.find?_eq_none.mp first row listed)
        | some other =>
          have here : other.commandId = target := by simpa using List.find?_some first
          rw [Option.toList_some, first]
          rcases List.mem_append.mp (List.mem_of_find?_eq_some first) with early | late
          · have stored := Rows.get_of_mem (Rows.mem_select.mp early).1
            rw [here, found] at stored
            exact stored.symm
          · rw [List.mem_singleton.mp late]
    rw [same]
  | respond => rfl

omit [SurfaceCatalog] in
theorem invalidated_reviewed (consistent : Consistent s) (recorded : Recorded s) (fresh : names.Fresh s)
    {c : CommandRecord} {failure : Failure} {now : Nat} (safe : isCounter now = true) (mem : c ∈ s.commands.entries)
    (state : c.state = .accepted) (retry : failure.retry = .never)
    (code : failure.code ∈ [.expired, .staleBinding, .unavailable]) :
    (∃ pass, HostReviewed s (hostReview s stage [{ c with state := .invalidated failure }]
        [passEvent s.session stage names.first c.commandId none 0 (.invalidated failure)] now)
      [{ c with state := .invalidated failure }]
      [passEvent s.session stage names.first c.commandId none 0 (.invalidated failure)] pass) ↔
      (failure.code = .expired ∧ dispatchDeadline s c < now) ∨
        (failure.code = .staleBinding ∧ controlIsStale stage s.commands.entries c.command = true) := by
  rw [single_reviewed c { c with state := .invalidated failure } consistent recorded mem state rfl rfl
    fun _ _ owns => by simp [ownsTurn, isSettled, CommandState.name] at owns]
  rw [invalidated_checked rfl state retry code (by simp [SessionCommit.announces, hostReview, hostCommit, passEvent]),
    stale_agree]
  have clock : (hostReview s stage [{ c with state := .invalidated failure }]
      [passEvent s.session stage names.first c.commandId none 0 (.invalidated failure)] now).batch.now =
        some now := by simp [hostReview, hostCommit, SessionCommit.now, Option.filter, safe]
  have said : reviewEvents (hostReview s stage [{ c with state := .invalidated failure }]
      [passEvent s.session stage names.first c.commandId none 0 (.invalidated failure)] now)
      { s with commands := s.commands.set { c with state := .invalidated failure } } [c.commandId] 0 []
      [passEvent s.session stage names.first c.commandId none 0 (.invalidated failure)] = .ok () := by
    unfold reviewEvents
    refine bind_ok.mpr ⟨(), ?_, rfl⟩
    exact (passEvent_checked _ _ _ _ _ { c with state := .invalidated failure } _ _ _ rfl rfl rfl List.not_mem_nil
      fresh.first.2 Rows.get_set_self (List.mem_singleton_self _) rfl fun _ _ same => by
        unfold checkDeliveryBody
        rw [same]).mpr ⟨rfl, by simp [checkBody, passEvent, refuse]⟩
  rw [clock, said, Option.any_some, decide_eq_true_iff]
  simp only [hostReview, and_true]

/-! ## First dispatches -/

/-- The reducer lets a first dispatch of an accepted command go. -/
structure DispatchOpen (s : SessionWorkspace) (stage : ContextStage) (now : Nat) (c : CommandRecord) : Prop where
  after : c.receipt.acceptedAtMs ≤ now
  before : now ≤ dispatchDeadline s c
  /-- No other prompt of any policy is under way when a queued one starts. -/
  free : isOrdinary c = true → ∀ o ∈ s.commands.entries, o.commandId ≠ c.commandId →
    o.command.input.isPrompt = true → o.dispatch.isSome = true → isSettled o = true
  /-- A steer joins the submitted turn of the session. -/
  joins : ∀ text target history, c.command.input = .prompt text .steer target history →
    stage.capabilities.steer = .supported ∧ ∃ o ∈ s.commands.entries, o.command.input.isQueueNext = true ∧
      isSettled o = false ∧ ∃ d, o.dispatch = some d ∧ d.certainty = .submitted ∧ d.nativeRunId = target

omit [RecordHashing] [SurfaceCatalog] in
theorem otherDispatched_iff {r : Review} {c : CommandRecord} : otherDispatched r c = false ↔
    ∀ o ∈ r.state.commands.entries, o.commandId ≠ c.commandId → o.command.input.isPrompt = true →
      o.dispatch.isSome = true → isSettled o = true := by
  unfold otherDispatched SessionWorkspace.commandsInStates
  rw [List.any_eq_false]
  constructor
  · intro none o mem differ prompt sent
    by_contra unsettled
    rw [Bool.not_eq_true] at unsettled
    apply none o (Rows.mem_select.mpr ⟨mem, List.contains_iff_mem.mpr (unsettled_open.mp unsettled)⟩)
    simp [differ, prompt, sent, unsettled]
  · intro all o listed other
    have mem := (Rows.mem_select.mp listed).1
    simp only [Bool.and_eq_true, decide_eq_true_eq, Bool.not_eq_true'] at other
    obtain ⟨⟨⟨differ, prompt⟩, sent⟩, unsettled⟩ := other
    rw [all o mem differ prompt sent] at unsettled
    cases unsettled

omit [RecordHashing] [SurfaceCatalog] in
theorem steerTarget_iff {r : Review} {target : Option Id} : steerTarget r target = true ↔
    ∃ o ∈ r.state.commands.entries, o.command.input.isQueueNext = true ∧ isSettled o = false ∧
      ∃ d, o.dispatch = some d ∧ d.certainty = .submitted ∧ d.nativeRunId = target := by
  unfold steerTarget SessionWorkspace.commandsInStates
  simp only [List.any_eq_true, Bool.and_eq_true, Bool.not_eq_true', Option.any_eq_true, decide_eq_true_eq]
  constructor
  · rintro ⟨o, listed, ⟨ordinary, unsettled⟩, d, sent, submitted, run⟩
    exact ⟨o, (Rows.mem_select.mp listed).1, ordinary, unsettled, d, sent, submitted, run⟩
  · rintro ⟨o, mem, ordinary, unsettled, d, sent, submitted, run⟩
    exact ⟨o, Rows.mem_select.mpr ⟨mem, List.contains_iff_mem.mpr (unsettled_open.mp unsettled)⟩,
      ⟨ordinary, unsettled⟩, d, sent, submitted, run⟩

omit [RecordHashing] [SurfaceCatalog] in
theorem steer_current {commands : List CommandRecord} {c : CommandRecord} {text : String}
    {target : Option Id} {history : Option HistoryPreview} (input : c.command.input = .prompt text .steer target history)
    (current : controlIsStale stage commands c.command = false) : target = stage.binding.nativeRunId := by
  unfold controlIsStale at current
  rw [input] at current
  by_contra differ
  simp [differ] at current

omit [RecordHashing] [SurfaceCatalog] in
/-- The first dispatch of the pass against its rules. -/
theorem firstDispatch_ok {r : Review} {c : CommandRecord} {now : Nat} (state : c.state = .accepted)
    (staged : r.stage = stage) (generation : r.batch.expectedGeneration = stage.binding.generation)
    (clock : r.batch.now = some now) (fresh : r.state.hasAttempt names.attempt = false)
    (current : controlIsStale stage r.state.commands.entries c.command = false) :
    checkFirstDispatch r { c with state := .dispatching (attemptOfPass stage names c) } (some c) []
        (attemptOfPass stage names c) = .ok () ↔ DispatchOpen r.state stage now c := by
  obtain ⟨command, receipt, before⟩ := c
  subst state
  unfold checkFirstDispatch
  rw [bind_ok, clock]
  have first : ¬(some StateName.accepted ≠ some .accepted ∨ StateName.dispatching ≠ .dispatching ∨
      Certainty.intent ≠ .intent ∨ stage.binding.generation ≠ r.batch.expectedGeneration ∨
      stage.binding.nativeSessionId ≠ r.stage.binding.nativeSessionId ∨ names.attempt ∈ ([] : List Id) ∨
      r.state.hasAttempt names.attempt = true) := by
    simp [generation, staged, fresh]
  have deadline : dispatchDeadline r.state
      ⟨command, receipt, .dispatching (attemptOfPass stage names ⟨command, receipt, .accepted⟩)⟩ =
        dispatchDeadline r.state ⟨command, receipt, .accepted⟩ := rfl
  dsimp only
  constructor
  · rintro ⟨_, -, h⟩
    obtain ⟨_, after, h⟩ := bind_ok.mp h
    obtain ⟨_, early, h⟩ := bind_ok.mp h
    rw [refuse_ok, Nat.not_lt] at after early
    rw [deadline] at early
    cases input : command.input with
    | prompt text policy target history =>
      cases policy with
      | queueNext =>
        rw [input] at h
        rw [refuse_ok, Bool.not_eq_true, otherDispatched_iff] at h
        refine ⟨after, early, fun _ => h, fun _ _ _ other => ?_⟩
        rw [input] at other
        cases other
      | steer =>
        rw [input] at h
        simp only [refuse_ok, not_or, not_not, Bool.not_eq_false, staged] at h
        refine ⟨after, early, fun ordinary => ?_, fun _ _ _ other => ?_⟩
        · rw [isOrdinary, input] at ordinary
          cases ordinary
        · rw [input] at other
          cases other
          exact ⟨h.1, steerTarget_iff.mp h.2.2.2⟩
    | cancel | respond =>
      refine ⟨after, early, fun ordinary => ?_, fun _ _ _ other => ?_⟩
      · rw [isOrdinary, input] at ordinary
        cases ordinary
      · rw [input] at other
        cases other
  · rintro ⟨after, early, free, joins⟩
    refine ⟨(), refuse_ok.mpr first, bind_ok.mpr ⟨(), refuse_ok.mpr (Nat.not_lt.mpr after),
      bind_ok.mpr ⟨(), refuse_ok.mpr (Nat.not_lt.mpr early), ?_⟩⟩⟩
    cases input : command.input with
    | prompt text policy target history =>
      cases policy with
      | queueNext =>
        rw [refuse_ok, Bool.not_eq_true, otherDispatched_iff]
        exact free (by rw [isOrdinary, input]; rfl)
      | steer =>
        obtain ⟨supported, turn⟩ := joins _ _ _ input
        have same := steer_current (c := ⟨command, receipt, .accepted⟩) input current
        have run : (attemptOfPass stage names ⟨command, receipt, .accepted⟩).nativeRunId = target := by
          rw [same]
          simp [attemptOfPass, isOrdinary, input, Input.isQueueNext]
        simp only [refuse_ok, not_or, not_not, Bool.not_eq_false, staged]
        exact ⟨supported, same, run, steerTarget_iff.mpr turn⟩
    | cancel => rfl
    | respond => rfl

omit [RecordHashing] [SurfaceCatalog] in
/-- Nothing but the rules of a first dispatch restrains the record of a dispatch. -/
theorem dispatched_checked {c : CommandRecord} {now : Nat} (safe : isCounter now = true) (fresh : names.Fresh s)
    (state : c.state = .accepted) (current : controlIsStale stage s.commands.entries c.command = false) :
    (∃ attempts, checkCommand (hostReview s stage (Action.commands stage names (.dispatch c))
        (Action.events s.session stage names (.dispatch c)) now)
        { c with state := .dispatching (attemptOfPass stage names c) } (some c) [] = .ok attempts) ↔
      DispatchOpen s stage now c := by
  set r := hostReview s stage (Action.commands stage names (.dispatch c))
    (Action.events s.session stage names (.dispatch c)) now
  set d := attemptOfPass stage names c
  have clock : r.batch.now = some now := by simp [r, hostReview, hostCommit, SessionCommit.now, Option.filter, safe]
  have rules := firstDispatch_ok (r := r) state rfl rfl clock fresh.attempt.2 current
  have resolution := resolution_none (r := r) rfl
  obtain ⟨command, receipt, before⟩ := c
  subst state
  have history : checkHistory r ⟨command, receipt, .dispatching d⟩ (some ⟨command, receipt, .accepted⟩) = .ok () := by
    simp [checkHistory, isSettled, CommandState.name, refuse, bind, Except.bind]
  have observer : checkObserver r ⟨command, receipt, .dispatching d⟩ = .ok () := by
    unfold checkObserver
    exact refuse_ok.mpr (by simp [d, r, attemptOfPass, hostReview, hostCommit])
  have change : checkChange r ⟨command, receipt, .dispatching d⟩ (some ⟨command, receipt, .accepted⟩) = .ok () := by
    simp [checkChange, resolution, CommandState.name, allowedChanges, refuse]
  have published : checkDispatchEvent r ⟨command, receipt, .dispatching d⟩
      (some ⟨command, receipt, .accepted⟩) = .ok () := by
    unfold checkDispatchEvent
    refine bind_ok.mpr ⟨(), refuse_ok.mpr ?_, refuse_ok.mpr (by simp [d, attemptOfPass])⟩
    simp [r, hostReview, hostCommit, Action.events, passEvent, CommandRecord.commandId, isDispatch]
    exact fun _ => rfl
  have authority : checkAuthority r ⟨command, receipt, .dispatching d⟩ (some ⟨command, receipt, .accepted⟩) =
      .ok () := by
    simp [checkAuthority, CommandState.name, isSubmitted, CommandState.dispatch, refuse, bind, Except.bind, d,
      attemptOfPass]
  have settlement : checkSettlement r ⟨command, receipt, .dispatching d⟩ (some ⟨command, receipt, .accepted⟩) =
      .ok () := by simp [checkSettlement, CommandState.name]
  have announced : checkStateEvent r ⟨command, receipt, .dispatching d⟩ (some ⟨command, receipt, .accepted⟩) =
      .ok () := by
    unfold checkStateEvent
    refine refuse_ok.mpr ?_
    simp [r, hostReview, hostCommit, Action.events, passEvent, CommandRecord.commandId, publishesState,
      CommandState.name]
    exact fun _ => rfl
  have attempt : checkAttempt r ⟨command, receipt, .dispatching d⟩ (some ⟨command, receipt, .accepted⟩) [] =
      (do
        checkFirstDispatch r ⟨command, receipt, .dispatching d⟩ (some ⟨command, receipt, .accepted⟩) [] d
        return [d.attemptId]) := rfl
  refine Iff.trans ?_ rules
  unfold checkCommand
  rw [history, observer, change, published, authority, settlement, announced, attempt]
  constructor
  · rintro ⟨later, h⟩
    obtain ⟨_, -, h⟩ := bind_ok.mp h
    obtain ⟨_, -, h⟩ := bind_ok.mp h
    obtain ⟨_, -, h⟩ := bind_ok.mp h
    obtain ⟨_, tried, h⟩ := bind_ok.mp h
    obtain ⟨_, first, -⟩ := bind_ok.mp tried
    exact first
  · intro first
    have allowed : checkFirstDispatch r ⟨command, receipt, .dispatching d⟩ (some ⟨command, receipt, .accepted⟩) [] d =
      .ok () := first
    rw [allowed]
    exact ⟨[d.attemptId], rfl⟩

omit [SurfaceCatalog] in
/-- The commit that dispatches an accepted command. -/
theorem dispatched_reviewed (consistent : Consistent s) (recorded : Recorded s) (fresh : names.Fresh s)
    {c : CommandRecord} {now : Nat} (safe : isCounter now = true) (mem : c ∈ s.commands.entries)
    (state : c.state = .accepted) (current : controlIsStale stage s.commands.entries c.command = false) :
    (∃ pass, HostReviewed s (hostReview s stage (Action.commands stage names (.dispatch c))
        (Action.events s.session stage names (.dispatch c)) now)
      (Action.commands stage names (.dispatch c)) (Action.events s.session stage names (.dispatch c)) pass) ↔
      DispatchOpen s stage now c := by
  have checked : (∃ attempts, checkCommand (hostReview s stage (Action.commands stage names (.dispatch c))
        (Action.events s.session stage names (.dispatch c)) now)
        { c with state := .dispatching (attemptOfPass stage names c) } (some c) [] = .ok attempts) ↔
      DispatchOpen s stage now c := dispatched_checked safe fresh state current
  have alone : ∀ attempts, checkCommand (hostReview s stage (Action.commands stage names (.dispatch c))
        (Action.events s.session stage names (.dispatch c)) now)
        { c with state := .dispatching (attemptOfPass stage names c) } (some c) [] = .ok attempts →
      ownsTurn { c with state := .dispatching (attemptOfPass stage names c) } = true →
      ∀ o ∈ s.commands.entries, o.commandId ≠ c.commandId → ownsTurn o = false := by
    intro attempts accepted owns o stored differ
    have free := (checked.mp ⟨attempts, accepted⟩).free
    by_contra other
    simp only [ownsTurn, Bool.not_eq_false, Bool.and_eq_true, Bool.not_eq_true'] at owns other
    have settled := free owns.1.1 o stored differ (by
      cases input : o.command.input <;> rw [input] at other <;> first | rfl | cases other.1.1) other.1.2
    rw [settled] at other
    cases other.2
  refine (single_reviewed c { c with state := .dispatching (attemptOfPass stage names c) } consistent recorded mem
    state rfl rfl alone).trans ?_
  refine (and_iff_left ?_).trans checked
  set c' : CommandRecord := { c with state := .dispatching (attemptOfPass stage names c) }
  have kept : (s.commands.set c').get c'.commandId = some c' := Rows.get_set_self
  have observed : ∀ eventId index body, checkAttemptId (hostReview s stage
      (Action.commands stage names (.dispatch c)) (Action.events s.session stage names (.dispatch c)) now) c'
      (s.commands.get c'.commandId)
      (passEvent s.session stage eventId c'.commandId (some names.attempt) index body) = .ok () := by
    intro eventId index body
    unfold checkAttemptId
    refine refuse_ok.mpr ?_
    simp [attemptOfPass, hostReview, hostCommit]
  unfold reviewEvents
  refine bind_ok.mpr ⟨(), ?_, bind_ok.mpr ⟨(), ?_, rfl⟩⟩
  · refine (passEvent_checked _ _ _ _ _ c' _ _ _ rfl rfl rfl List.not_mem_nil fresh.first.2 kept
      (List.mem_singleton_self _) rfl fun _ _ same => ?_).mpr ⟨observed _ _ _, ?_⟩
    · unfold checkDeliveryBody
      rw [same]
    · exact refuse_ok.mpr (by simp [c', CommandRecord.dispatch, CommandState.dispatch])
  · refine (passEvent_checked _ _ _ _ _ c' _ _ _ rfl rfl rfl ?_ fresh.second.2 kept
      (List.mem_singleton_self _) rfl fun _ _ same => ?_).mpr ⟨observed _ _ _, ?_⟩
    · exact fun listed => fresh.distinct (List.mem_singleton.mp listed).symm
    · unfold checkDeliveryBody
      rw [same]
    · exact refuse_ok.mpr (by simp [c', CommandState.name, ActiveState.name])

/-! ## Local cancellations -/

omit [SurfaceCatalog] in
/-- The commit that withdraws a queued prompt together with its cancellation is always accepted. -/
theorem cancelled_reviewed (consistent : Consistent s) (recorded : Recorded s) (fresh : names.Fresh s)
    {c target : CommandRecord} {run : Option Id} {generation : Id} {now : Nat} (mem : c ∈ s.commands.entries)
    (state : c.state = .accepted) (input : c.command.input = .cancel target.commandId generation run)
    (stored : target ∈ s.commands.entries) (queued : target.state = .accepted)
    (ordinary : target.command.input.isQueueNext = true)
    (current : controlIsStale stage s.commands.entries c.command = false) :
    ∃ pass, HostReviewed s (hostReview s stage (Action.commands stage names (.cancelQueued c target))
        (Action.events s.session stage names (.cancelQueued c target)) now)
      (Action.commands stage names (.cancelQueued c target))
      (Action.events s.session stage names (.cancelQueued c target)) pass := by
  set r := hostReview s stage (Action.commands stage names (.cancelQueued c target))
    (Action.events s.session stage names (.cancelQueued c target)) now
  set c' : CommandRecord := { c with state := .queuedCancelled target.commandId }
  set t' : CommandRecord := { target with state := .cancelled c.commandId }
  have differ : target.commandId ≠ c.commandId := by
    intro same
    have equal := List.inj_on_of_nodup_map s.commands.distinct stored mem same
    rw [equal, input] at ordinary
    cases ordinary
  have apart : c.command.commandId ≠ target.command.commandId := Ne.symm differ
  have owned : generation = stage.binding.generation := by
    unfold controlIsStale at current
    rw [input] at current
    by_contra other
    simp [other] at current
  have resolution := resolution_none (r := r) rfl
  have unsent : ∀ {o : CommandRecord}, o.state = .accepted → o.dispatch = none ∧ isSettled o = false := by
    intro o accepted
    unfold CommandRecord.dispatch isSettled
    rw [accepted]
    exact ⟨rfl, rfl⟩
  have withdrawn : checkCommand r c' (some c) [] = .ok [] := by
    refine (settled_checked rfl state rfl (by simp [CommandState.name])).mpr ⟨?_, rfl⟩
    unfold checkSettlement
    rw [if_neg (by simp [state, CommandState.name])]
    dsimp only [checkQueuedCancelled]
    rw [input]
    exact refuse_ok.mpr (by
      simp [r, state, CommandState.name, hostReview, hostCommit, Action.commands, Action.events, passEvent,
        SessionCommit.announces, owned, CommandRecord.commandId, apart])
  have cancelled : checkCommand r t' (some target) [] = .ok [] := by
    refine (settled_checked rfl queued rfl (by simp [CommandState.name])).mpr ⟨?_, rfl⟩
    unfold checkSettlement
    rw [if_neg (by simp [queued, CommandState.name])]
    exact refuse_ok.mpr (by
      simp [r, queued, CommandState.name, hostReview, hostCommit, Action.commands, Action.events, passEvent,
        SessionCommit.announces, CommandRecord.commandId, ordinary])
  have first : reviewCommand r ⟨s.commands, [], []⟩ c' = .ok ⟨s.commands.set c', [c.commandId], []⟩ :=
    (reviewCommand_stored c c' rfl rfl consistent recorded mem (unsent state).2 rfl rfl List.not_mem_nil).mpr
      ⟨[], withdrawn, rfl⟩
  have second : reviewCommand r ⟨s.commands.set c', [c.commandId], []⟩ t' =
      .ok ⟨(s.commands.set c').set t', [c.commandId, target.commandId], []⟩ :=
    (reviewCommand_stored target t' rfl rfl consistent recorded stored (unsent queued).2 rfl rfl
      (by simpa using differ)).mpr ⟨[], cancelled, rfl⟩
  refine ⟨⟨(s.commands.set c').set t', [c.commandId, target.commandId], []⟩, ?_, ?_, ?_, ?_⟩
  · exact bind_ok.mpr ⟨_, first, bind_ok.mpr ⟨_, second, rfl⟩⟩
  · apply owners_length
    have kept : ∀ o ∈ ((s.commands.set c').set t').entries, ownsTurn o = true → o ∈ s.commands.entries := by
      intro o listed owns
      rcases Rows.mem_set.mp listed with rfl | ⟨listed, -⟩
      · simp [ownsTurn, t', isSettled, CommandState.name] at owns
      · rcases Rows.mem_set.mp listed with rfl | ⟨listed, -⟩
        · simp [ownsTurn, c', isSettled, CommandState.name] at owns
        · exact listed
    exact fun a mem b other owns owns' =>
      consistent.owner a (kept a mem owns) b (kept b other owns') owns owns'
  · have kept : ((s.commands.set c').set t').get c'.commandId = some c' := by
      have other : c'.commandId ≠ t'.commandId := Ne.symm differ
      rw [Rows.get_set_ne other, Rows.get_set_self]
    unfold reviewEvents
    refine bind_ok.mpr ⟨(), ?_, bind_ok.mpr ⟨(), ?_, rfl⟩⟩
    · exact (passEvent_checked _ _ _ _ _ c' _ _ _ rfl rfl rfl List.not_mem_nil fresh.first.2 kept
        List.mem_cons_self rfl fun _ _ same => by
          unfold checkDeliveryBody
          rw [same]).mpr ⟨rfl, by simp [checkBody, passEvent]⟩
    · exact (passEvent_checked _ _ _ _ _ t' _ _ _ rfl rfl rfl
        (fun listed => fresh.distinct (List.mem_singleton.mp listed).symm) fresh.second.2 Rows.get_set_self
        (List.mem_cons_of_mem _ List.mem_cons_self) rfl fun _ _ same => by
          unfold checkDeliveryBody
          rw [same]).mpr ⟨rfl, by simp [checkBody, passEvent]⟩
  · intro o listed _
    rcases List.mem_cons.mp listed with rfl | listed
    · exact unsent_closed consistent mem (unsent state).1 rfl rfl
    · rw [List.mem_singleton.mp listed]
      exact unsent_closed consistent stored (unsent queued).1 rfl rfl

/-! ## The scheduler against the reducer -/

omit [RecordHashing] [SurfaceCatalog] in
theorem pending_accepted {commands : List CommandRecord} {c : CommandRecord} (mem : c ∈ pendingCommands commands) :
    c ∈ commands ∧ c.state = .accepted := by
  unfold pendingCommands at mem
  rw [List.mem_insertionSort, List.mem_filter, decide_eq_true_eq] at mem
  exact ⟨mem.1, accepted_state mem.2⟩

omit [RecordHashing] [SurfaceCatalog] in
theorem selected_accepted {runtime : Runtime} {commands : List CommandRecord} {c : CommandRecord}
    (chosen : selected runtime readings commands = some c) : c ∈ commands ∧ c.state = .accepted := by
  have ordinary : ∀ o, ordinaryCommand runtime readings commands = some o → o ∈ commands ∧ o.state = .accepted := by
    intro o head
    exact pending_accepted (List.mem_of_find?_eq_some (Option.filter_eq_some_iff.mp head).1)
  have control : ∀ o, controlCommand commands = some o → o ∈ commands ∧ o.state = .accepted := by
    intro o first
    exact pending_accepted (List.mem_of_find?_eq_some first)
  have candidates := (Option.filter_eq_some_iff.mp chosen).1
  unfold candidate at candidates
  dsimp only at candidates
  split at candidates
  · exact control c candidates
  · split at candidates
    · exact ordinary c candidates
    · exact control c candidates

structure PassOpen (s : SessionWorkspace) (stage : ContextStage) (readings : Readings) (c : CommandRecord) :
    Prop where
  expired : c.command.expiresAtMs < readings.expiry → dispatchDeadline s c < readings.commit
  ready : readings.expiry ≤ c.command.expiresAtMs → controlIsStale stage s.commands.entries c.command = false →
    queuedTarget s.commands.entries c = none → DispatchOpen s stage readings.commit c

/-- The commit of a pass is accepted exactly when it fits and its command is ripe. -/
theorem pass_iff {limits : Limits} {labels : List Transition} {c : CommandRecord} (reachable : Reachable labels s)
    (fresh : names.Fresh s) (status : s.session.status = .active) (active : activeStage? s.session = some stage)
    (mem : c ∈ s.commands.entries) (state : c.state = .accepted) :
    (∃ t, commitSession limits s (hostCommit s.session stage
        ((chooseAction stage readings s.commands.entries c).commands stage names)
        ((chooseAction stage readings s.commands.entries c).events s.session stage names) readings.commit) =
      .ok t) ↔
      ActionFits limits s stage names (chooseAction stage readings s.commands.entries c) ∧
        PassOpen s stage readings c := by
  have consistent := reachable_consistent reachable
  have shaped := reachable_shaped reachable
  have recorded := reachable_recorded reachable
  have plain : ∀ action : Action, ∀ e ∈ action.events s.session stage names,
      interactionOf e.body = none ∧ surfaceOf e.body = none := by
    intro action e listed
    cases action <;> simp only [Action.events, List.mem_cons, List.not_mem_nil, or_false] at listed
    case cancelQueued | dispatch => rcases listed with rfl | rfl <;> exact ⟨rfl, rfl⟩
    all_goals
      rw [listed]
      exact ⟨rfl, rfl⟩
  rw [hostCommit_iff status active (plain _)]
  by_cases late : c.command.expiresAtMs < readings.expiry
  · have action : chooseAction stage readings s.commands.entries c = .expire c := by
      unfold chooseAction
      rw [if_pos late]
    rw [action, action_valid (.expire mem state) shaped recorded active fresh]
    refine and_congr_right' ((invalidated_reviewed consistent recorded fresh readings.safe mem state rfl
      (by decide)).trans ?_)
    constructor
    · rintro (⟨_, past⟩ | ⟨other, _⟩)
      · exact ⟨fun _ => past, fun early => absurd late (Nat.not_lt.mpr early)⟩
      · cases other
    · intro passes
      exact .inl ⟨rfl, passes.expired late⟩
  · cases stale : controlIsStale stage s.commands.entries c.command with
    | true =>
      have action : chooseAction stage readings s.commands.entries c = .stale c := by
        unfold chooseAction
        rw [if_neg late, if_pos stale]
      rw [action, action_valid (.stale mem state) shaped recorded active fresh]
      refine and_congr_right' ((invalidated_reviewed consistent recorded fresh readings.safe mem state rfl
        (by decide)).trans ?_)
      refine iff_of_true (.inr ⟨rfl, stale⟩) ⟨fun past => absurd past late, fun _ current => ?_⟩
      rw [stale] at current
      cases current
    | false =>
      cases target : queuedTarget s.commands.entries c with
      | some row =>
        have action : chooseAction stage readings s.commands.entries c = .cancelQueued c row := by
          unfold chooseAction
          rw [if_neg late, if_neg (by simp [stale]), target]
        have queued := target
        unfold queuedTarget at queued
        cases input : c.command.input with
        | prompt | respond =>
          rw [input] at queued
          cases queued
        | cancel targetId generation run =>
          rw [input] at queued
          obtain ⟨found, kind⟩ := Option.filter_eq_some_iff.mp queued
          have stored := List.mem_of_find?_eq_some found
          have named : row.commandId = targetId := by simpa using List.find?_some found
          rw [Bool.and_eq_true, decide_eq_true_eq] at kind
          rw [← named] at input
          have waiting := accepted_state kind.1
          rw [action, action_valid (.cancelQueued mem state input stored waiting kind.2) shaped recorded active fresh]
          refine and_congr_right' (iff_of_true (cancelled_reviewed consistent recorded fresh mem state input stored
            waiting kind.2 stale) ⟨fun past => absurd past late, fun _ _ none => ?_⟩)
          rw [target] at none
          cases none
      | none =>
        have action : chooseAction stage readings s.commands.entries c = .dispatch c := by
          unfold chooseAction
          rw [if_neg late, if_neg (by simp [stale]), target]
        rw [action, action_valid (.dispatch mem state) shaped recorded active fresh]
        refine and_congr_right' ((dispatched_reviewed consistent recorded fresh readings.safe mem state stale).trans ?_)
        exact ⟨fun ripe => ⟨fun past => absurd past late, fun _ _ _ => ripe⟩,
          fun passes => passes.ready (Nat.not_lt.mp late) stale target⟩

/-- The reducer accepts what the scheduler builds exactly when the selected command is ripe. -/
theorem schedule_iff {limits : Limits} {labels : List Transition} {runtime : Runtime}
    (reachable : Reachable labels s) (fresh : names.Fresh s) :
    (∀ batch, schedule s runtime readings names = some batch → ∃ t, commitSession limits s batch = .ok t) ↔
      ∀ stage c, s.session.status = .active → activeStage? s.session = some stage →
        selected runtime readings s.commands.entries = some c →
          ActionFits limits s stage names (chooseAction stage readings s.commands.entries c) ∧
            PassOpen s stage readings c := by
  constructor
  · intro all stage c status active chosen
    obtain ⟨mem, state⟩ := selected_accepted chosen
    apply (pass_iff reachable fresh status active mem state).mp
    apply all
    unfold schedule scheduledAction
    rw [if_neg (by simp [status]), active, chosen]
    rfl
  · intro ripe batch built
    unfold schedule at built
    obtain ⟨⟨stage, action⟩, handled, rfl⟩ := Option.map_eq_some_iff.mp built
    unfold scheduledAction at handled
    split at handled
    · cases handled
    · rename_i status
      rw [not_not] at status
      split at handled
      · rename_i stage' c active chosen
        cases handled
        obtain ⟨mem, state⟩ := selected_accepted chosen
        exact (pass_iff reachable fresh status active mem state).mpr (ripe _ c status active chosen)
      · cases handled

end Review

/-! ## A pass over a new prompt and one over a prompt that was put back -/

section Samples
open SessionTurns
attribute [local instance] sampleHashing sampleCatalog

def idleRuntime : Runtime := ⟨[], 0, 0, false, true⟩

def readingsAt (now : Nat) (safe : isCounter now = true) : Readings := ⟨now, now, now, safe⟩

def sampleNames : Names := ⟨"x1", "x2", "a9"⟩

def waitingRequests : List Request := [promptRequest "p1" "e1" 0 10]

theorem schedule_iff_sample :
    (schedule (perform sampleStart waitingRequests).2 idleRuntime (readingsAt 20 rfl) sampleNames).isSome = true ∧
      ∀ batch, schedule (perform sampleStart waitingRequests).2 idleRuntime (readingsAt 20 rfl) sampleNames = some batch →
        ∃ t, commitSession defaultLimits (perform sampleStart waitingRequests).2 batch = .ok t := by
  obtain ⟨s, start⟩ : ∃ s, s = (perform sampleStart waitingRequests).2 := ⟨_, rfl⟩
  have reachable : Reachable (perform sampleStart waitingRequests).1 s := start ▸ sampleReachable waitingRequests
  rw [← start]
  have state : (schedule s idleRuntime (readingsAt 20 rfl) sampleNames).isSome = true ∧ (s.hasEvent "x1" = false ∧ s.hasEvent "x2" = false ∧ s.hasAttempt "a9" = false) ∧
      activeStage? s.session = some sampleStage ∧
      s.commands.entries = [promptRecord "p1" 0 10 .accepted] ∧
      dispatchDeadline s (promptRecord "p1" 0 10 .accepted) = 5000 ∧
      fits defaultLimits (Session.json (nextHead s.session
        (Action.events s.session sampleStage sampleNames (.dispatch (promptRecord "p1" 0 10 .accepted))))) = true ∧
      (∀ c ∈ Action.commands sampleStage sampleNames (.dispatch (promptRecord "p1" 0 10 .accepted)),
        fits defaultLimits (CommandRecord.json c) = true) ∧
      ∀ e ∈ Action.events s.session sampleStage sampleNames (.dispatch (promptRecord "p1" 0 10 .accepted)),
        fits defaultLimits (Event.json e) = true := by
    rw [start]
    decide +kernel
  obtain ⟨passes, ⟨first, second, attempt⟩, active, stored, deadline, head, records, events⟩ := state
  have fresh : sampleNames.Fresh s := ⟨⟨by decide, first⟩, ⟨by decide, second⟩, ⟨by decide, attempt⟩, by decide⟩
  refine ⟨passes, (schedule_iff reachable fresh).mpr fun stage c _ staged chosen => ?_⟩
  cases active.symm.trans staged
  have only : c = promptRecord "p1" 0 10 .accepted := by
    have mem := (selected_accepted chosen).1
    rw [stored] at mem
    exact List.mem_singleton.mp mem
  subst only
  rw [stored]
  refine ⟨⟨head, records, events⟩, fun late => absurd late (by decide), fun _ _ _ => ⟨by decide, ?_, ?_, ?_⟩⟩
  · rw [deadline]
    decide
  · intro _ o mem differ
    rw [stored] at mem
    rw [List.mem_singleton.mp mem] at differ
    exact absurd rfl differ
  · intro _ _ _ steer
    cases steer

/-- A prompt that was not sent is put back; after its retry window the scheduler still dispatches it. -/
theorem schedule_refused :
    Reachable (perform sampleStart (firstRequests ++ [notSentRequest])).1
        (perform sampleStart (firstRequests ++ [notSentRequest])).2 ∧
      sampleNames.Fresh (perform sampleStart (firstRequests ++ [notSentRequest])).2 ∧
      (schedule (perform sampleStart (firstRequests ++ [notSentRequest])).2 idleRuntime (readingsAt 200 rfl)
          sampleNames).map
        (commitSession defaultLimits (perform sampleStart (firstRequests ++ [notSentRequest])).2) =
          some (.error (fail .expired)) := by
  set s := (perform sampleStart (firstRequests ++ [notSentRequest])).2 with start
  have state : (s.hasEvent "x1" = false ∧ s.hasEvent "x2" = false ∧ s.hasAttempt "a9" = false) ∧
      (schedule s idleRuntime (readingsAt 200 rfl) sampleNames).map (commitSession defaultLimits s) =
        some (.error (fail .expired)) := by
    rw [start]
    decide +kernel
  obtain ⟨⟨first, second, attempt⟩, refused⟩ := state
  exact ⟨sampleReachable _, ⟨⟨by decide, first⟩, ⟨by decide, second⟩, ⟨by decide, attempt⟩, by decide⟩, refused⟩

end Samples

end RssMdmAgent.SessionSchedule
