import RssMdmAgent.SessionTurns

set_option autoImplicit false

/-! # Settled work is final and leaves nothing open -/

namespace RssMdmAgent.SessionSettlement
open BoundedJson OrderedRows SessionRecords SessionValidity SessionState BatchReview BatchCommit
open SessionOperations SessionSteps ReviewRules CommitRules HandoffRules SessionInvariant TransitionRuns
open ContractPlan (bind_ok)

/-! ## What every step preserves -/

structure Preserved (s t : SessionWorkspace) : Prop where
  commands : ∀ k o, s.commands.get k = some o → ∃ c, t.commands.get k = some c ∧
    c.command = o.command ∧ c.receipt = o.receipt ∧ (isSettled o = true → c = o)
  interactions : ∀ k i, s.interactions.get k = some i → ∃ i', t.interactions.get k = some i' ∧
    asked i' = asked i ∧ (i.status ≠ .pending → i' = i)

theorem Preserved.of_rows {s t : SessionWorkspace} (commands : t.commands = s.commands)
    (interactions : t.interactions = s.interactions) : Preserved s t := by
  refine ⟨fun k o found => ?_, fun k i found => ?_⟩
  · rw [← commands] at found
    exact ⟨o, found, rfl, rfl, fun _ => rfl⟩
  · rw [← interactions] at found
    exact ⟨i, found, rfl, fun _ => rfl⟩

theorem Preserved.refl (s : SessionWorkspace) : Preserved s s := .of_rows rfl rfl

theorem Preserved.trans {s t u : SessionWorkspace} (first : Preserved s t) (second : Preserved t u) :
    Preserved s u := by
  refine ⟨fun k o found => ?_, fun k i found => ?_⟩
  · obtain ⟨c, found', command, receipt, final⟩ := first.commands k o found
    obtain ⟨c', found'', command', receipt', final'⟩ := second.commands k c found'
    refine ⟨c', found'', command'.trans command, receipt'.trans receipt, fun settled => ?_⟩
    have same := final settled
    subst same
    exact final' settled
  · obtain ⟨i', found', same, final⟩ := first.interactions k i found
    obtain ⟨i'', found'', same', final'⟩ := second.interactions k i' found'
    refine ⟨i'', found'', same'.trans same, fun closed => ?_⟩
    have kept := final closed
    subst kept
    exact final' closed

def AsksNothing (s t : SessionWorkspace) : Prop :=
  ∀ k, s.interactions.get k = none → t.interactions.get k = none

def Responded (s : SessionWorkspace) : Prop :=
  ∀ k c question generation run answer reference, s.commands.get k = some c →
    c.command.input = .respond question generation run answer reference →
    ∃ i, s.interactions.get question = some i ∧ i.status = .answered k

theorem Responded.keeps {s t : SessionWorkspace} (before : Responded s) (preserved : Preserved s t)
    {k question generation : Id} {run : Option Id} {answer : JsonMembers}
    {reference : Option SurfaceReference} {o c : CommandRecord} (stored : s.commands.get k = some o)
    (found : t.commands.get k = some c) (responds : c.command.input = .respond question generation run answer
      reference) : ∃ i, t.interactions.get question = some i ∧ i.status = .answered k := by
  obtain ⟨c', found', command, _⟩ := preserved.commands k o stored
  rw [found] at found'
  cases found'
  rw [command] at responds
  obtain ⟨i, asked, status⟩ := before k o question generation run answer reference stored responds
  obtain ⟨i', asked', _, final⟩ := preserved.interactions question i asked
  have same := final (by simp [status])
  subst same
  exact ⟨i', asked', status⟩

/-- The response of an answered question named the active revision of its surface. -/
def Fenced (t : SessionWorkspace) (i : Interaction) (response : Id) : Prop :=
  ∃ c question generation run answer reference, t.commands.get response = some c ∧
    c.command.input = .respond question generation run answer reference ∧
    ((t.surfacesForInteraction i.interactionId ≠ [] ∨ reference ≠ none) →
      ∃ named surface, reference = some named ∧ t.surfaces.get named.instanceId = some surface ∧
        surface.status = .active ∧ surface.interactionId = i.interactionId ∧
        surface.revision = named.revision)

def AnswersFenced (s t : SessionWorkspace) : Prop :=
  ∀ k i response, t.interactions.get k = some i → i.status = .answered response →
    s.interactions.get k = some i ∨
      ((∃ i', s.interactions.get k = some i' ∧ i'.status = .pending ∧ asked i' = asked i) ∧
        Fenced t i response)

/-! ## Commits -/

section Commit
variable [RecordHashing] {limits : Limits} {s : SessionWorkspace} {batch : SessionCommit}
  {accepting suspending : Bool} {r : Review} {pass : CommandPass}

theorem commit_preserved (done : Committed limits s batch accepting suspending r pass) :
    Preserved s (committed s batch) :=
  ⟨fun _ _ found => commit_content done found, fun _ _ found => commit_interaction done found⟩

theorem commit_asks (done : Committed limits s batch accepting suspending r pass) {k : Id} {i : Interaction}
    (absent : s.interactions.get k = none) (found : (committed s batch).interactions.get k = some i) :
    i.status = .pending := by
  rcases Rows.get_setAll_cases done.interactions.distinct found with ⟨mem, rfl⟩ | ⟨_, early⟩
  · obtain ⟨source, d, checked⟩ := done.interactions.checked i mem
    exact (checked.added absent).1
  · rw [absent] at early
    cases early

theorem commit_added (done : Committed limits s batch accepting suspending r pass) {k : Id}
    {c : CommandRecord} (absent : s.commands.get k = none)
    (found : (committed s batch).commands.get k = some c) : c ∈ batch.commands ∧ accepting = true := by
  rcases done.origin found with ⟨_, early⟩ | ⟨mem, _, attempts, later, checked⟩
  · rw [absent] at early
    cases early
  · rw [absent] at checked
    have added := checkHistory_added checked.history
    rw [done.review.2.2] at added
    exact ⟨mem, added.1⟩

omit [RecordHashing] in
theorem checkFence_ok {copy : SessionWorkspace} {i : Interaction} {response : Id}
    (status : i.status = .answered response) (h : checkFence copy i = .ok ()) : Fenced copy i response := by
  unfold checkFence at h
  rw [status] at h
  dsimp only at h
  split at h
  · rename_i question generation run answer reference response
    obtain ⟨c, found, responds⟩ := Option.map_eq_some_iff.mp response
    refine ⟨c, question, generation, run, answer, reference, found, responds, fun shown => ?_⟩
    rw [refuse_ok, not_and] at h
    have fenced := h (by simpa [Option.isSome_iff_ne_none] using shown)
    rw [Bool.not_eq_false, Option.any_eq_true] at fenced
    obtain ⟨named, rfl, fenced⟩ := fenced
    obtain ⟨surface, placed, fenced⟩ := (Option.any_eq_true _ _).mp fenced
    simp only [Bool.and_eq_true, decide_eq_true_iff] at fenced
    exact ⟨named, surface, rfl, placed, fenced.1.1, fenced.1.2, fenced.2⟩
  · cases h

theorem commit_fenced (done : Committed limits s batch accepting suspending r pass) :
    AnswersFenced s (committed s batch) := by
  intro k i response found status
  rcases Rows.get_setAll_cases done.interactions.distinct found with ⟨mem, rfl⟩ | ⟨_, early⟩
  · obtain ⟨source, d, checked⟩ := done.interactions.checked i mem
    cases stored : s.interactions.get i.interactionId with
    | none =>
      have waits := (checked.added stored).1
      rw [status] at waits
      cases waits
    | some old =>
      obtain ⟨identity, final⟩ := checked.kept old stored
      by_cases waited : old.status = .pending
      · exact .inr ⟨⟨old, rfl, waited, identity⟩, checkFence_ok status (done.fence i mem)⟩
      · exact .inl (by rw [final waited])
  · exact .inl early

theorem commit_responded (done : Committed limits s batch accepting suspending r pass) (before : Responded s)
    (controls : accepting = true → ∀ c ∈ batch.commands, isCancel c.command.input = true) :
    Responded (committed s batch) := by
  intro k c question generation run answer reference found responds
  cases stored : s.commands.get k with
  | some o => exact before.keeps (commit_preserved done) stored found responds
  | none =>
    obtain ⟨mem, accepts⟩ := commit_added done stored found
    have cancels := controls accepts c mem
    rw [responds] at cancels
    cases cancels

end Commit

/-! ## The other steps -/

theorem handoff_preserved {s : SessionWorkspace} {session : Session} {generation : Id} {events : List Event} :
    Preserved s (handoffState s session generation events) := by
  refine ⟨fun k o found => ?_, fun k i found => ?_⟩
  · obtain ⟨c, found', step⟩ : ∃ c, (handoffState s session generation events).commands.get k = some c ∧
        HandoffStep generation o c := handoff_stored found
    exact ⟨c, found', step.content⟩
  · have after : (handoffState s session generation events).interactions.get k =
        some (if isPending i then ended i else i) := by
      rw [handoffState_interaction, found]
      rfl
    obtain ⟨i', stored, same, _, final, _⟩ := handoff_interaction after
    rw [found] at stored
    cases stored
    exact ⟨_, after, same, final⟩

theorem activated_preserved {s t : SessionWorkspace} (commands : t.commands = s.commands)
    (interactions : t.interactions = mapRows s.interactions closedInteraction) : Preserved s t := by
  refine ⟨(Preserved.of_rows (s := s) (t := { s with commands := t.commands }) commands rfl).commands,
    fun k i found => ?_⟩
  have keeps : ∀ row : Interaction, (closedInteraction row).interactionId = row.interactionId := by
    intro row
    unfold closedInteraction
    split <;> rfl
  have after : t.interactions.get k = some (closedInteraction i) := by
    rw [interactions, get_mapRows keeps, found]
    rfl
  have closed := after
  rw [interactions] at closed
  obtain ⟨i', stored, same, _, final, _⟩ := activated_interaction closed
  rw [found] at stored
  cases stored
  exact ⟨_, after, same, final⟩

/-- What a quiet step leaves of the questions and the responses. -/
structure QuietEffect (s t : SessionWorkspace) : Prop where
  preserved : Preserved s t
  silent : AsksNothing s t
  answers : ∀ k i response, t.interactions.get k = some i → i.status = .answered response →
    s.interactions.get k = some i
  responded : Responded s → Responded t

theorem QuietEffect.refl (s : SessionWorkspace) : QuietEffect s s :=
  ⟨.refl s, fun _ => id, fun _ _ _ found _ => found, id⟩

theorem QuietEffect.trans {s t u : SessionWorkspace} (first : QuietEffect s t) (second : QuietEffect t u) :
    QuietEffect s u :=
  ⟨first.preserved.trans second.preserved, fun k absent => second.silent k (first.silent k absent),
    fun k i response found status => first.answers k i response (second.answers k i response found status) status,
    fun before => second.responded (first.responded before)⟩

theorem QuietEffect.of_commands {s t : SessionWorkspace} (preserved : Preserved s t)
    (silent : AsksNothing s t)
    (answers : ∀ k i response, t.interactions.get k = some i → i.status = .answered response →
      s.interactions.get k = some i)
    (commands : ∀ k, s.commands.get k = none → t.commands.get k = none) : QuietEffect s t := by
  refine ⟨preserved, silent, answers, fun before k c question generation run answer reference found responds => ?_⟩
  cases stored : s.commands.get k with
  | some o => exact before.keeps preserved stored found responds
  | none =>
    rw [commands k stored] at found
    cases found

section Quiet
variable [RecordHashing] [SurfaceCatalog] {s t : SessionWorkspace}

theorem quiet_effect (step : Quiet s t) : QuietEffect s t := by
  cases step with
  | cancelled facts interactions surfaces controls h =>
    obtain ⟨after, r, pass, done⟩ := reduceCommit_ok h
    have same : t.interactions = s.interactions := by
      rw [after]
      unfold committed Rows.setAll
      rw [interactions, List.foldl_nil]
    subst after
    refine ⟨commit_preserved done, fun k absent => ?_, fun k i response found _ => ?_,
      fun before => commit_responded done before controls⟩
    · rw [same, absent]
    · rwa [same] at found
  | handedOff h =>
    obtain ⟨_, status, binding, capabilities, events, _, rfl⟩ := reduceHandoff_ok h
    refine .of_commands handoff_preserved (fun k absent => ?_) (fun k i response found status => ?_)
      fun k absent => ?_
    · rw [handoffState_interaction, absent]
      rfl
    · obtain ⟨i', stored, _, _, final, ends⟩ := handoff_interaction found
      have closed : i'.status ≠ .pending := by
        intro waits
        rw [ends waits] at status
        cases status
      have same := final closed
      subst same
      exact stored
    · rw [handoffState_command, absent]
      rfl
  | selected h =>
    obtain ⟨_, session, rfl, _⟩ := selectConnection_ok h
    exact .of_commands (.of_rows rfl rfl) (fun _ => id) (fun _ _ _ found _ => found) fun _ => id
  | activated h =>
    obtain ⟨_, _, session, stage, _, rfl⟩ := activateStage_ok h
    refine .of_commands (activated_preserved rfl rfl) (fun k absent => ?_) (fun k i response found status => ?_)
      fun _ => id
    · cases found : (mapRows s.interactions closedInteraction).get k with
      | none => rfl
      | some i =>
        obtain ⟨i', stored, _⟩ := activated_interaction found
        rw [absent] at stored
        cases stored
    · obtain ⟨i', stored, _, _, final, ends⟩ := activated_interaction found
      have closed : i'.status ≠ .pending := by
        intro waits
        rw [ends waits] at status
        cases status
      have same := final closed
      subst same
      exact stored
  | retired h =>
    obtain ⟨_, _, event, _, rfl⟩ := retireSession_ok h
    exact .of_commands (.of_rows rfl rfl) (fun _ => id) (fun _ _ _ found _ => found) fun _ => id

theorem quiet_effects (run : Relation.ReflTransGen Quiet s t) : QuietEffect s t := by
  induction run with
  | refl => exact .refl s
  | tail _ step ih => exact ih.trans (quiet_effect step)

theorem applied_preserved {q : Request} (applied : Applied q s t) : Preserved s t := by
  cases applied with
  | kept same => exact same ▸ .refl s
  | accepted _ h =>
    obtain ⟨rfl, r, pass, done⟩ := reduceCommit_ok h.commit
    exact commit_preserved done
  | committed _ h =>
    obtain ⟨rfl, r, pass, done⟩ := reduceCommit_ok h
    exact commit_preserved done
  | quiet run => exact (quiet_effects run).preserved

theorem applied_asks {q : Request} (applied : Applied q s t) {k : Id} {i : Interaction}
    (absent : s.interactions.get k = none) (found : t.interactions.get k = some i) : i.status = .pending := by
  cases applied with
  | kept same =>
    rw [same, absent] at found
    cases found
  | accepted _ h =>
    obtain ⟨rfl, r, pass, done⟩ := reduceCommit_ok h.commit
    exact commit_asks done absent found
  | committed _ h =>
    obtain ⟨rfl, r, pass, done⟩ := reduceCommit_ok h
    exact commit_asks done absent found
  | quiet run =>
    rw [(quiet_effects run).silent k absent] at found
    cases found

theorem applied_fenced {q : Request} (applied : Applied q s t) : AnswersFenced s t := by
  cases applied with
  | kept same => exact fun k i response found _ => .inl (same ▸ found)
  | accepted _ h =>
    obtain ⟨rfl, r, pass, done⟩ := reduceCommit_ok h.commit
    exact commit_fenced done
  | committed _ h =>
    obtain ⟨rfl, r, pass, done⟩ := reduceCommit_ok h
    exact commit_fenced done
  | quiet run => exact fun k i response found status => .inl ((quiet_effects run).answers k i response found status)

omit [RecordHashing] [SurfaceCatalog] in
theorem acceptedInteractions_respond {input : AcceptCommand} {interactions : List Interaction}
    {question generation : Id} {run : Option Id} {answer : JsonMembers} {reference : Option SurfaceReference}
    (h : acceptedInteractions s input = .ok interactions)
    (responds : input.command.input = .respond question generation run answer reference) :
    ∃ i, interactions = [i] ∧ i.interactionId = question ∧ i.status = .answered input.command.commandId := by
  unfold acceptedInteractions at h
  rw [responds] at h
  obtain ⟨i, answered, h⟩ := bind_ok.mp h
  cases h
  unfold answerInteraction at answered
  obtain ⟨_, -, answered⟩ := bind_ok.mp answered
  split at answered
  · cases answered
  · rename_i asked found
    obtain ⟨_, -, answered⟩ := bind_ok.mp answered
    obtain ⟨_, -, answered⟩ := bind_ok.mp answered
    obtain ⟨_, -, answered⟩ := bind_ok.mp answered
    obtain ⟨_, -, answered⟩ := bind_ok.mp answered
    cases answered
    have named : asked.interactionId = question := Rows.get_key found
    exact ⟨_, rfl, named, rfl⟩

theorem accepted_responded {limits : Limits} {input : AcceptCommand} {suspending : Bool}
    {stage : ContextStage} {interactions : List Interaction} {answered : List Event}
    (h : Accepted limits s input suspending t stage interactions answered) (before : Responded s) :
    Responded t := by
  obtain ⟨rfl, r, pass, done⟩ := reduceCommit_ok h.commit
  intro k c question generation run answer reference found responds
  cases stored : s.commands.get k with
  | some o => exact before.keeps (commit_preserved done) stored found responds
  | none =>
    obtain ⟨mem, _⟩ := commit_added done stored found
    have names := Rows.get_key found
    rw [List.mem_singleton.mp mem] at responds names
    obtain ⟨i, rfl, rfl, status⟩ := acceptedInteractions_respond h.asked responds
    exact ⟨i, Rows.get_setAll_mem done.interactions.distinct List.mem_cons_self, names ▸ status⟩

theorem applied_responded {q : Request} (applied : Applied q s t) (before : Responded s) : Responded t := by
  cases applied with
  | kept same => exact same ▸ before
  | accepted _ h => exact accepted_responded h before
  | committed _ h =>
    obtain ⟨rfl, r, pass, done⟩ := reduceCommit_ok h
    exact commit_responded done before fun accepts => by cases accepts
  | quiet run => exact (quiet_effects run).responded before

end Quiet

/-! ## Retired sessions -/

/-- Only deliveries and the records of their receipts differ. -/
structure DeliveryOnly (s t : SessionWorkspace) : Prop where
  retired : t.session.status = .retired
  head : ∃ revision lastSequence,
    t.session = { s.session with revision := revision, lastSequence := lastSequence }
  generations : t.generations = s.generations
  commands : t.commands = s.commands
  interactions : t.interactions = s.interactions
  surfaces : t.surfaces = s.surfaces
  events : ∃ events, t.events = s.events ++ events ∧ ∀ e ∈ events, isDeliveryRecorded e.body = true
  deliveries : ∀ k, t.deliveries.has k = s.deliveries.has k

theorem DeliveryOnly.refl {s : SessionWorkspace} (retired : s.session.status = .retired) : DeliveryOnly s s :=
  ⟨retired, ⟨_, _, rfl⟩, rfl, rfl, rfl, rfl, ⟨[], (List.append_nil _).symm, by simp⟩, fun _ => rfl⟩

theorem DeliveryOnly.trans {s t u : SessionWorkspace} (first : DeliveryOnly s t) (second : DeliveryOnly t u) :
    DeliveryOnly s u := by
  obtain ⟨revision, lastSequence, head⟩ := second.head
  obtain ⟨_, _, head'⟩ := first.head
  obtain ⟨events, said, recorded⟩ := first.events
  obtain ⟨events', said', recorded'⟩ := second.events
  refine ⟨second.retired, ⟨revision, lastSequence, by rw [head, head']⟩,
    second.generations.trans first.generations, second.commands.trans first.commands,
    second.interactions.trans first.interactions, second.surfaces.trans first.surfaces,
    ⟨events ++ events', by rw [said', said, List.append_assoc], fun e mem => ?_⟩,
    fun k => (second.deliveries k).trans (first.deliveries k)⟩
  rcases List.mem_append.mp mem with early | late
  · exact recorded e early
  · exact recorded' e late

section Retired
variable [RecordHashing] [SurfaceCatalog] {s t : SessionWorkspace}

omit [RecordHashing] [SurfaceCatalog] in
theorem checkState_active {revision : Nat} {generation : Id} {u : Unit}
    (h : checkState s revision generation = .ok u) : s.session.status = .active := by
  unfold checkState at h
  obtain ⟨_, active, -⟩ := bind_ok.mp h
  rwa [refuse_ok, not_not] at active

theorem retired_commit {limits : Limits} {batch : SessionCommit} (retired : s.session.status = .retired)
    (h : commitSession limits s batch = .ok t) : DeliveryOnly s t := by
  obtain ⟨rfl, r, pass, done⟩ := reduceCommit_ok h
  have only : isDeliveryCommit s batch = true := by
    by_contra other
    have current := done.current
    rw [Bool.eq_false_of_not_eq_true other] at current
    have active : s.session.status = .active := checkState_active current
    rw [retired] at active
    cases active
  unfold isDeliveryCommit at only
  simp only [Bool.and_eq_true, List.isEmpty_iff, decide_eq_true_iff] at only
  obtain ⟨⟨⟨⟨⟨⟨⟨-, commands⟩, interactions⟩, surfaces⟩, -⟩, events⟩, known⟩, head⟩ := only
  have status : batch.session.status = s.session.status := by rw [← head]
  refine ⟨status.trans retired, ⟨batch.session.revision, batch.session.lastSequence, ?_⟩, rfl, ?_, ?_, ?_,
    ⟨batch.events, rfl, List.all_eq_true.mp events⟩, fun k => ?_⟩
  · change batch.session = _
    rw [← head]
  · simp [committed, Rows.setAll, commands]
  · simp [committed, Rows.setAll, interactions]
  · simp [committed, Rows.setAll, surfaces]
  · exact Rows.has_setAll _ _ (List.all_eq_true.mp known)

theorem retired_step {q : Request} (retired : s.session.status = .retired) (h : q.apply s = .ok t) :
    DeliveryOnly s t := by
  have quiet : ∀ {u : SessionWorkspace}, u.session.status ≠ .retired → u = s → DeliveryOnly s t :=
    fun alive same => absurd retired (same ▸ alive)
  unfold Request.apply at h
  split at h
  · rename_i input _
    unfold acceptCommand at h
    cases accepted : reduceAcceptance q.limits s input false with
    | error e =>
      rw [accepted] at h
      cases h
    | ok result =>
      obtain ⟨next, receipt⟩ := result
      rw [accepted] at h
      cases h
      rcases reduceAcceptance_ok accepted with same | ⟨stage, interactions, answered, accepted⟩
      · rw [same]
        exact .refl retired
      · have suspended := accepted.opened (by simp [retired])
        cases suspended
  · exact retired_commit retired h
  · exact quiet (reduceHandoff_ok h).1 rfl
  · exact quiet (reduceHandoff_ok h).1 rfl
  · unfold suspendSession at h
    obtain ⟨_, -, h⟩ := bind_ok.mp h
    obtain ⟨_, -, h⟩ := bind_ok.mp h
    obtain ⟨_, -, h⟩ := bind_ok.mp h
    rw [if_pos (.inl retired)] at h
    cases h
    exact .refl retired
  · exact quiet (selectConnection_ok h).1 rfl
  · exact quiet (activateStage_ok h).1 rfl
  · exact quiet (by rw [(retireSession_ok h).1]; decide) rfl

theorem retired_run {labels : List Transition} (retired : s.session.status = .retired)
    (run : Runs Step s labels t) : DeliveryOnly s t :=
  run.invariant (DeliveryOnly s) (.refl retired) fun _ _ _ before step =>
    before.trans (retired_step before.retired step.2.2)

end Retired

/-! ## Reachable sessions -/

section Reachable
variable [RecordHashing] [SurfaceCatalog] {s t : SessionWorkspace} {labels later : List Transition}

def NothingOpen (s : SessionWorkspace) : Prop :=
  ∀ k c, s.commands.get k = some c → isSettled c = true →
    (∀ j i, s.interactions.get j = some i → i.commandId = k → i.status ≠ .pending) ∧
    ∀ j row, s.surfaces.get j = some row → row.status = .active →
      ∀ i, s.interactions.get row.interactionId = some i → i.commandId ≠ k

def AnsweredOnce (s : SessionWorkspace) : Prop :=
  ∀ k i response, s.interactions.get k = some i → i.status = .answered response →
    (∃ c, s.commands.get response = some c ∧ answers c i = true) ∧
    ∀ other c generation run answer reference, s.commands.get other = some c →
      c.command.input = .respond k generation run answer reference → other = response

omit [RecordHashing] [SurfaceCatalog] in
theorem consistent_nothingOpen (consistent : Consistent s) : NothingOpen s := by
  intro k c found settled
  have dead : ¬Live s k := by
    rintro ⟨c', _, found', unsettled, _⟩
    rw [found] at found'
    cases found'
    rw [settled] at unsettled
    cases unsettled
  refine ⟨fun j i asked names waits => dead ?_, fun j row shown lit i asked names => dead ?_⟩
  · rw [← names]
    exact consistent.pending j i asked waits
  · obtain ⟨i', asked', live⟩ := consistent.active j row shown lit
    rw [asked] at asked'
    cases asked'
    rwa [← names]

theorem reachable_responded (reachable : Reachable labels s) : Responded s := by
  obtain ⟨session, limits, start, created, run⟩ := reachable
  refine run.invariant Responded ?_ fun _ _ _ before step => applied_responded (apply_cases step.2.2) before
  intro k c question generation run answer reference found
  rw [(created_empty created).2.2.1, Rows.get_empty] at found
  cases found

theorem reachable_answeredOnce (reachable : Reachable labels s) : AnsweredOnce s := by
  intro k i response found status
  refine ⟨(reachable_consistent reachable).answered k i response found status, ?_⟩
  intro other c generation run answer reference stored responds
  obtain ⟨i', found', status'⟩ := reachable_responded reachable other c k generation run answer reference stored
    responds
  rw [found] at found'
  cases found'
  rw [status] at status'
  cases status'
  rfl

/-- Settled records, command content and receipts never change, a settled command leaves nothing open, every
question waits first and is closed once, an answer is one accepted response within the deadline and behind
the surface fence, and a retired session only records deliveries. -/
theorem settled_final (reachable : Reachable labels s) :
    NothingOpen s ∧ AnsweredOnce s ∧
      ∀ later t, Runs Step s later t → Preserved s t ∧
        (∀ label ∈ later, (∀ k i, label.before.interactions.get k = none →
            label.after.interactions.get k = some i → i.status = .pending) ∧
          AnswersFenced label.before label.after) ∧
        (s.session.status = .retired → DeliveryOnly s t) := by
  refine ⟨consistent_nothingOpen (reachable_consistent reachable), reachable_answeredOnce reachable, ?_⟩
  intro later t run
  refine ⟨?_, fun label mem => ?_, fun retired => retired_run retired run⟩
  · exact run.relates Preserved .refl (fun first second => first.trans second) fun _ _ _ step =>
      applied_preserved (apply_cases step.2.2)
  · obtain ⟨u, v, rfl, rfl, applied⟩ := run.step_of_mem mem
    have applied := apply_cases applied
    exact ⟨fun k i absent found => applied_asks applied absent found, applied_fenced applied⟩

end Reachable

section Samples
open SessionTurns
attribute [local instance] sampleHashing sampleCatalog

/-- The provider reports that the first attempt was submitted. -/
def submittedRequest : Request :=
  recordRequest 2 3 30 (promptRecord "p1" 0 10 (.dispatching (sampleAttempt "a1" .submitted)))
    "a1" [.reconciled (sampleAttempt "a1" .intent) .submitted,
      .dispatch (sampleAttempt "a1" .submitted)]
    [⟨"p1", some ⟨sampleScope, sampleBinding,
      promptRecord "p1" 0 10 (.dispatching (sampleAttempt "a1" .intent)),
      ⟨"p1", "a1", sampleBinding, .submitted⟩⟩⟩]

/-- The turn asks a question. -/
def questionRequest : Request :=
  ⟨defaultLimits, .commit {
    scope := sampleScope
    expectedRevision := 3
    expectedGeneration := "g1"
    session := { sampleSession with
      revision := 4
      lastSequence := 6 }
    commands := []
    events := [⟨sampleScope, "e6", 6, "g1", some "p1", some "a1",
      .interactionPending "q1" .nil 4000⟩]
    interactions := [⟨sampleScope, "q1", "p1", "g1", none, 4000, .pending, "k1", .nil⟩]
    deliveries := []
    surfaces := []
    providerFacts := []
    nowMs := some 40 }⟩

def responseRequest : Request :=
  ⟨defaultLimits, .accept {
    scope := sampleScope
    command := ⟨"s", "r1", 5000, .respond "q1" "g1" none .nil none⟩
    expectedRevision := 4
    expectedGeneration := "g1"
    nowMs := 50
    retention := ⟨100, 10000⟩
    eventId := "r1-accepted" }⟩

def answeringRequests : List Request :=
  firstRequests ++ [submittedRequest, questionRequest, responseRequest]

theorem settled_final_sample :
    (NothingOpen (perform sampleStart answeringRequests).2 ∧
      AnsweredOnce (perform sampleStart answeringRequests).2) ∧
      ((perform sampleStart answeringRequests).2.interactions.get "q1").map (·.status) =
        some (.answered "r1") :=
  ⟨⟨(settled_final (sampleReachable answeringRequests)).1,
    (settled_final (sampleReachable answeringRequests)).2.1⟩, by decide +kernel⟩

end Samples

end RssMdmAgent.SessionSettlement
