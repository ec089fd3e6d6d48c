import RssMdmAgent.SessionInvariant

set_option autoImplicit false

/-! # One turn owner, and no attempt is sent again -/

namespace RssMdmAgent.SessionTurns
open BoundedJson OrderedRows SessionRecords SessionValidity SessionState BatchReview BatchCommit
open SessionOperations SessionSteps ReviewRules CommitRules HandoffRules SessionInvariant TransitionRuns

def attemptAt (s : SessionWorkspace) (command : Id) : Option Id :=
  ((s.commands.get command).bind (·.dispatch)).map (·.attemptId)

def newAttempt (before : SessionWorkspace) (c : CommandRecord) : Option (Id × Id) :=
  c.dispatch.bind fun d =>
    if attemptAt before c.commandId = some d.attemptId then none else some (c.commandId, d.attemptId)

def introduced (label : Transition) : List (Id × Id) :=
  label.after.commands.entries.filterMap (newAttempt label.before)

def NotSubmitted (label : Transition) (command attempt : Id) : Prop :=
  ∃ batch, label.request.operation = .commit batch ∧ Withdraws label.before batch command attempt

def OneOwner (s : SessionWorkspace) : Prop :=
  ∀ c ∈ s.commands.entries, ∀ c' ∈ s.commands.entries, ownsTurn c = true → ownsTurn c' = true → c = c'

theorem attemptAt_some {s : SessionWorkspace} {k a : Id} (h : attemptAt s k = some a) :
    ∃ c d, s.commands.get k = some c ∧ c.dispatch = some d ∧ d.attemptId = a := by
  unfold attemptAt at h
  obtain ⟨d, sent, same⟩ := Option.map_eq_some_iff.mp h
  obtain ⟨c, found, sent⟩ := Option.bind_eq_some_iff.mp sent
  exact ⟨c, d, found, sent, same⟩

theorem attemptAt_of {s : SessionWorkspace} {k : Id} {c : CommandRecord} {d : DispatchAttempt}
    (found : s.commands.get k = some c) (sent : c.dispatch = some d) : attemptAt s k = some d.attemptId := by
  simp [attemptAt, found, sent]

theorem mem_introduced {label : Transition} {k a : Id} (mem : (k, a) ∈ introduced label) :
    attemptAt label.after k = some a ∧ attemptAt label.before k ≠ some a := by
  obtain ⟨c, stored, new⟩ := List.mem_filterMap.mp mem
  unfold newAttempt at new
  obtain ⟨d, sent, new⟩ := Option.bind_eq_some_iff.mp new
  split at new
  · cases new
  · rename_i differ
    cases new
    exact ⟨attemptAt_of (Rows.get_of_mem stored) sent, differ⟩

/-! ## Fresh attempts -/

structure Fresh (s t : SessionWorkspace) : Prop where
  remembered : ∀ a, s.hasAttempt a = true → t.hasAttempt a = true
  fresh : ∀ k a, attemptAt t k = some a →
    attemptAt s k = some a ∨ (s.hasAttempt a = false ∧ t.hasAttempt a = true)

theorem Fresh.refl (s : SessionWorkspace) : Fresh s s := ⟨fun _ => id, fun _ _ => .inl⟩

theorem Fresh.trans {s t u : SessionWorkspace} (first : Fresh s t) (second : Fresh t u) : Fresh s u := by
  refine ⟨fun a known => second.remembered a (first.remembered a known), fun k a now => ?_⟩
  rcases second.fresh k a now with early | ⟨unknown, known⟩
  · rcases first.fresh k a early with early | ⟨unknown, known⟩
    · exact .inl early
    · exact .inr ⟨unknown, second.remembered a known⟩
  · refine .inr ⟨?_, known⟩
    by_contra early
    rw [first.remembered a (by simpa using early)] at unknown
    cases unknown

def DispatchesStay (s t : SessionWorkspace) : Prop :=
  ∀ k c d, s.commands.get k = some c → c.dispatch = some d → ∃ c' d', t.commands.get k = some c' ∧
    c'.dispatch = some d' ∧ d'.attemptId = d.attemptId ∧
    (d.certainty = .submitted → d'.certainty = .submitted)

theorem DispatchesStay.trans {s t u : SessionWorkspace} (first : DispatchesStay s t)
    (second : DispatchesStay t u) : DispatchesStay s u := by
  intro k c d found sent
  obtain ⟨c', d', found, sent, same, certain⟩ := first k c d found sent
  obtain ⟨c'', d'', found, sent, same', certain'⟩ := second k c' d' found sent
  exact ⟨c'', d'', found, sent, same'.trans same, fun h => certain' (certain h)⟩

theorem DispatchesStay.of_commands {s t : SessionWorkspace} (same : t.commands = s.commands) :
    DispatchesStay s t := by
  intro k c d found sent
  rw [← same] at found
  exact ⟨c, d, found, sent, rfl, id⟩

theorem Fresh.of_commands {s t : SessionWorkspace} {events : List Event} (same : t.commands = s.commands)
    (said : t.events = s.events ++ events) : Fresh s t := by
  refine ⟨fun a => hasAttempt_append said, fun k a now => .inl ?_⟩
  unfold attemptAt at now ⊢
  rwa [← same]

section Steps
variable [RecordHashing] {limits : Limits} {s t : SessionWorkspace} {batch : SessionCommit}
  {accepting suspending : Bool} {r : Review} {pass : CommandPass}

theorem commit_fresh (done : Committed limits s batch accepting suspending r pass) :
    Fresh s (committed s batch) := by
  refine ⟨fun a => hasAttempt_append rfl, fun k a now => ?_⟩
  obtain ⟨c, d, found, sent, rfl⟩ := attemptAt_some now
  rcases commit_attempt done found sent with ⟨o, d', found', sent', same⟩ | ⟨_, _, _, unknown, known⟩
  · rw [← same]
    exact .inl (attemptAt_of found' sent')
  · exact .inr ⟨unknown, known⟩

theorem commit_stays (done : Committed limits s batch accepting suspending r pass)
    (silent : batch.providerFacts = []) : DispatchesStay s (committed s batch) := by
  intro k c d found sent
  obtain ⟨c', found', ⟨d', sent', same, certain⟩ | ⟨_, _, proof, mem, _⟩⟩ := done.dispatch found sent
  · exact ⟨c', d', found', sent', same, certain⟩
  · rw [silent] at mem
    cases mem

omit [RecordHashing] in
theorem handoff_stays {session : Session} {generation : Id} {events : List Event} :
    DispatchesStay s (handoffState s session generation events) := by
  intro k c d found sent
  obtain ⟨c', found', step⟩ : ∃ c', (handoffState s session generation events).commands.get k = some c' ∧
      HandoffStep generation c c' := handoff_stored found
  cases step with
  | kept => exact ⟨c, d, found', sent, rfl, id⟩
  | reconciled sent' =>
    rw [sent] at sent'
    cases sent'
    exact ⟨_, _, found', rfl, rfl, id⟩
  | invalidated unsent =>
    rw [sent] at unsent
    cases unsent

omit [RecordHashing] in
theorem handoff_fresh {session : Session} {generation : Id} {events : List Event} :
    Fresh s (handoffState s session generation events) := by
  refine ⟨fun a => hasAttempt_append rfl, fun k a now => .inl ?_⟩
  obtain ⟨c, d, found, sent, rfl⟩ := attemptAt_some now
  obtain ⟨o, stored, step⟩ := handoff_origin found
  obtain ⟨d', sent', same, _⟩ := step.dispatch sent
  rw [same]
  exact attemptAt_of stored sent'

variable [SurfaceCatalog]

theorem quiet_step (step : Quiet s t) : Fresh s t ∧ DispatchesStay s t := by
  cases step with
  | cancelled facts _ _ _ h =>
    obtain ⟨rfl, r, pass, done⟩ := reduceCommit_ok h
    exact ⟨commit_fresh done, commit_stays done facts⟩
  | handedOff h =>
    obtain ⟨_, status, binding, capabilities, events, _, rfl⟩ := reduceHandoff_ok h
    exact ⟨handoff_fresh, handoff_stays⟩
  | selected h =>
    obtain ⟨_, session, rfl, _⟩ := selectConnection_ok h
    exact ⟨.of_commands rfl (List.append_nil _).symm, .of_commands rfl⟩
  | activated h =>
    obtain ⟨_, _, session, stage, _, rfl⟩ := activateStage_ok h
    exact ⟨.of_commands rfl (List.append_nil _).symm, .of_commands rfl⟩
  | retired h =>
    obtain ⟨_, _, event, _, rfl⟩ := retireSession_ok h
    exact ⟨.of_commands rfl rfl, .of_commands rfl⟩

theorem quiet_steps (run : Relation.ReflTransGen Quiet s t) : Fresh s t ∧ DispatchesStay s t := by
  induction run with
  | refl => exact ⟨.refl s, .of_commands rfl⟩
  | tail _ step ih =>
    obtain ⟨fresh, stay⟩ := quiet_step step
    exact ⟨ih.1.trans fresh, ih.2.trans stay⟩

theorem applied_fresh {q : Request} (applied : Applied q s t) : Fresh s t := by
  cases applied with
  | kept same => exact same ▸ .refl s
  | accepted _ h =>
    obtain ⟨rfl, r, pass, done⟩ := reduceCommit_ok h.commit
    exact commit_fresh done
  | committed _ h =>
    obtain ⟨rfl, r, pass, done⟩ := reduceCommit_ok h
    exact commit_fresh done
  | quiet run => exact (quiet_steps run).1

theorem applied_dispatch {q : Request} (applied : Applied q s t) {k : Id} {c : CommandRecord}
    {d : DispatchAttempt} (found : s.commands.get k = some c) (sent : c.dispatch = some d) :
    (∃ c' d', t.commands.get k = some c' ∧ c'.dispatch = some d' ∧ d'.attemptId = d.attemptId ∧
        (d.certainty = .submitted → d'.certainty = .submitted)) ∨
      (attemptAt t k = none ∧ d.certainty ≠ .submitted ∧
        ∃ batch, q.operation = .commit batch ∧ Withdraws s batch k d.attemptId) := by
  cases applied with
  | kept same => exact .inl ⟨c, d, same ▸ found, sent, rfl, id⟩
  | accepted _ h =>
    obtain ⟨rfl, r, pass, done⟩ := reduceCommit_ok h.commit
    exact .inl (commit_stays done rfl k c d found sent)
  | committed named h =>
    obtain ⟨rfl, r, pass, done⟩ := reduceCommit_ok h
    obtain ⟨c', found', ⟨d', kept⟩ | ⟨lost, uncertain, withdraws⟩⟩ := done.dispatch found sent
    · exact .inl ⟨c', d', found', kept⟩
    · exact .inr ⟨by simp [attemptAt, found', lost], uncertain, _, named, withdraws⟩
  | quiet run => exact .inl ((quiet_steps run).2 k c d found sent)

end Steps

/-! ## Histories -/

section Histories
variable [RecordHashing] [SurfaceCatalog] {s t : SessionWorkspace} {labels later : List Transition}

omit [RecordHashing] [SurfaceCatalog] in
theorem introduced_nodup {label : Transition} (after : Consistent label.after) :
    ((introduced label).map Prod.snd).Nodup := by
  unfold introduced
  rw [List.map_filterMap, List.Nodup, List.pairwise_filterMap]
  refine label.after.commands.distinct.of_map.imp_of_mem fun {c c'} mem mem' apart a new a' new' same => ?_
  have named : ∀ c ∈ label.after.commands.entries, ∀ a,
      (newAttempt label.before c).map Prod.snd = some a → ∃ d, c.dispatch = some d ∧ d.attemptId = a := by
    intro c _ a new
    obtain ⟨pair, chosen, rfl⟩ := Option.map_eq_some_iff.mp new
    unfold newAttempt at chosen
    obtain ⟨d, sent, chosen⟩ := Option.bind_eq_some_iff.mp chosen
    split at chosen
    · cases chosen
    · cases chosen
      exact ⟨d, sent, rfl⟩
  obtain ⟨d, sent, rfl⟩ := named c mem a new
  obtain ⟨d', sent', rfl⟩ := named c' mem' a' new'
  have key := after.attempts _ _ c c' d d' (Rows.get_of_mem mem) (Rows.get_of_mem mem') sent sent' same
  exact apart (List.inj_on_of_nodup_map label.after.commands.distinct mem mem' key)

theorem introduced_once {start : SessionWorkspace} (run : Runs Step start labels s)
    (consistent : Consistent start) :
    ((labels.flatMap introduced).map Prod.snd).Nodup ∧
      (∀ a ∈ (labels.flatMap introduced).map Prod.snd, s.hasAttempt a = true) ∧ Consistent s := by
  refine run.history (fun labels s => ((labels.flatMap introduced).map Prod.snd).Nodup ∧
    (∀ a ∈ (labels.flatMap introduced).map Prod.snd, s.hasAttempt a = true) ∧ Consistent s)
    ⟨.nil, nofun, consistent⟩ ?_
  rintro done _ label _ ⟨nodup, remembered, before⟩ ⟨rfl, rfl, applied⟩
  have applied := apply_cases applied
  have after := applied_consistent applied before
  have fresh := applied_fresh applied
  have new : ∀ a ∈ (introduced label).map Prod.snd,
      label.before.hasAttempt a = false ∧ label.after.hasAttempt a = true := by
    intro a mem
    obtain ⟨⟨k, a⟩, chosen, rfl⟩ := List.mem_map.mp mem
    obtain ⟨now, different⟩ := mem_introduced chosen
    exact (fresh.fresh k a now).resolve_left different
  rw [List.flatMap_append, List.map_append, List.flatMap_singleton]
  refine ⟨List.nodup_append.mpr ⟨nodup, introduced_nodup after, fun a early b late same => ?_⟩,
    fun a mem => ?_, after⟩
  · have known := remembered a early
    rw [same, (new b late).1] at known
    cases known
  · rcases List.mem_append.mp mem with early | late
    · exact fresh.remembered a (remembered a early)
    · exact (new a late).2

theorem submitted_kept (run : Runs Step s later t) {k : Id} {c : CommandRecord} {d : DispatchAttempt}
    (found : s.commands.get k = some c) (sent : c.dispatch = some d) (submitted : d.certainty = .submitted) :
    (∃ c' d', t.commands.get k = some c' ∧ c'.dispatch = some d' ∧ d'.attemptId = d.attemptId ∧
        d'.certainty = .submitted) ∧ ∀ label ∈ later, ∀ b, (k, b) ∉ introduced label := by
  refine run.history (fun later t => (∃ c' d', t.commands.get k = some c' ∧ c'.dispatch = some d' ∧
    d'.attemptId = d.attemptId ∧ d'.certainty = .submitted) ∧ ∀ label ∈ later, ∀ b, (k, b) ∉ introduced label)
    ⟨⟨c, d, found, sent, rfl, submitted⟩, fun _ mem => absurd mem List.not_mem_nil⟩ ?_
  rintro done _ label _ ⟨⟨c', d', found, sent, same, submitted⟩, others⟩ ⟨rfl, rfl, applied⟩
  rcases applied_dispatch (apply_cases applied) found sent with kept | ⟨_, uncertain, _⟩
  · obtain ⟨c'', d'', found'', sent'', same', certain⟩ := kept
    refine ⟨⟨c'', d'', found'', sent'', same'.trans same, certain submitted⟩, fun other mem b new => ?_⟩
    rcases List.mem_append.mp mem with early | late
    · exact others other early b new
    · rw [List.mem_singleton.mp late] at new
      obtain ⟨now, different⟩ := mem_introduced new
      rw [attemptAt_of found'' sent''] at now
      rw [attemptAt_of found sent, ← same', now] at different
      exact different rfl
  · exact absurd submitted uncertain

theorem attempt_kept (run : Runs Step s later t) {k a : Id} (now : attemptAt s k = some a) :
    attemptAt t k = some a ∨ ∃ label ∈ later, NotSubmitted label k a := by
  refine run.history (fun later t => attemptAt t k = some a ∨ ∃ label ∈ later, NotSubmitted label k a)
    (.inl now) ?_
  rintro done _ label _ kept ⟨rfl, rfl, applied⟩
  rcases kept with now | ⟨label', mem, withdrawn⟩
  · obtain ⟨c, d, found, sent, rfl⟩ := attemptAt_some now
    rcases applied_dispatch (apply_cases applied) found sent with kept | ⟨_, _, batch, named, withdraws⟩
    · obtain ⟨c', d', found', sent', same, _⟩ := kept
      rw [← same]
      exact .inl (attemptAt_of found' sent')
    · exact .inr ⟨label, List.mem_append_right _ (List.mem_singleton_self _), batch, named, withdraws⟩
  · exact .inr ⟨label', List.mem_append_left _ mem, withdrawn⟩

theorem second_attempt {before after : List Transition} {label : Transition}
    (run : Runs Step s (before ++ label :: after) t) {k a b : Id} (now : attemptAt s k = some a)
    (second : (k, b) ∈ introduced label) : ∃ earlier ∈ before, NotSubmitted earlier k a := by
  rw [← List.singleton_append, ← List.append_assoc] at run
  obtain ⟨middle, reached, _⟩ := run.split
  obtain ⟨previous, earlier, ⟨rfl, rfl, applied⟩⟩ := reached.last
  rcases attempt_kept earlier now with held | withdrawn
  · obtain ⟨started, different⟩ := mem_introduced second
    obtain ⟨c, d, found, sent, rfl⟩ := attemptAt_some held
    rcases applied_dispatch (apply_cases applied) found sent with kept | ⟨lost, _⟩
    · obtain ⟨c', d', found', sent', same, _⟩ := kept
      rw [attemptAt_of found' sent', same] at started
      exact absurd (held.trans started) different
    · rw [lost] at started
      cases started
  · exact withdrawn

/-- One owner of the turn, every attempt introduced once, a submitted attempt for ever, and another
attempt only after a verified fact that the previous one was not submitted. -/
theorem one_turn_no_resend (reachable : Reachable labels s) :
    OneOwner s ∧ ((labels.flatMap introduced).map Prod.snd).Nodup ∧
      ∀ later t, Runs Step s later t → ∀ k c d, s.commands.get k = some c → c.dispatch = some d →
        (d.certainty = .submitted →
          (∃ c' d', t.commands.get k = some c' ∧ c'.dispatch = some d' ∧ d'.attemptId = d.attemptId ∧
            d'.certainty = .submitted) ∧ ∀ label ∈ later, ∀ b, (k, b) ∉ introduced label) ∧
        ∀ before label after b, later = before ++ label :: after → (k, b) ∈ introduced label →
          ∃ earlier ∈ before, NotSubmitted earlier k d.attemptId := by
  obtain ⟨session, limits, start, created, run⟩ := id reachable
  have consistent := reachable_consistent reachable
  refine ⟨fun c mem c' mem' owns owns' => ?_, (introduced_once run (created_consistent created)).1, ?_⟩
  · exact List.inj_on_of_nodup_map s.commands.distinct mem mem'
      (consistent.owner c mem c' mem' owns owns')
  · intro later t run k c d found sent
    refine ⟨submitted_kept run found sent, fun before label after b split second => ?_⟩
    subst split
    exact second_attempt run (attemptAt_of found sent) second

end Histories

section Samples

/-- The digests of the sample records. -/
@[reducible] def sampleHashing : RecordHashing where
  fingerprint command :=
    match command.commandId with
    | "p1" => "7d85bc4e5b5c07463a3e04e85b58ddd752f520b1369e1be33483ae67afcd75aa"
    | "p2" => "ebdb5a57097d5c0376048353a6176eee751068249eec75b21e9b05528f0a0f70"
    | "r1" => "37bf0ec0b6c48d437611c7ff71090f0c6ba8cada502f3887b73097c5630c955a"
    | _ => "889472b95be78c3436c10a930dd392d65d0d15a0894ddf116a04b09f3e4eaf80"
  eventId seed label :=
    match seed, label with
    | "r1-accepted", "answer-0" => "9a35c1208a5a437a7bf8089b7d8a120c263e1b55dcaf7f31ed86d4b4f03b7085"
    | "recovery", "rebind" => "cbaa1e50c40b8b76c1ed8fe2ec5a6621dde100382769c303d009b383ed5076e2"
    | "recovery", "command-p1" => "f028fd03fe9cbd61ef77cf67507bff18730995a26ddd8c0ca196f9e1e0be415a"
    | "recovery", "interaction-q1" => "b10c2b8ba715b1b7cf287c281edbe8a551e74756a5663cb796e0a4faae2108f3"
    | "recovery", "surface-i1" => "c0c8b5ac8c6b58aa6a4a819af3787396be19cf3fb682abab9de49c881b85b1e9"
    | _, _ => "439083f38956ba51ece90631552c6ea23c5c29570d3d5710e408e77e01ba7375"
  deliveryFingerprint _ _ := ""

@[reducible] def sampleCatalog : SurfaceCatalog := ⟨fun _ => true⟩

attribute [local instance] sampleHashing sampleCatalog

def sampleScope : Namespace := ⟨"t", "u", "a", "s"⟩

def sampleBinding : Binding where
  provider := "p"
  providerVersion := "1"
  adapterVersion := "1"
  generation := "g1"
  nativeSessionId := "n"
  config := ⟨"c", "1"⟩
  nativeRunId := none
  nativeRequestId := none
  workspaceId := "w"
  nativeThreadId := none

def sampleStage : ContextStage where
  stageId := "g1"
  connectionId := "c"
  configRevision := 1
  binding := sampleBinding
  capabilities := ⟨.acrossProcesses, .requestOnly, .disabled, .supported, .unsupported, .unsupported,
    .unsupported, .supported, .unsupported⟩

def sampleSession : Session := ⟨sampleScope, 0, 0, .active, some "c", some "g1", [sampleStage], false, none⟩

def sampleStart : SessionWorkspace := ⟨sampleSession, ["g1"], .empty, [], .empty, .empty, .empty⟩

/-- The name of an event under its sequence number. -/
def sampleEvent : Nat → Id
  | 1 => "e1"
  | 2 => "e2"
  | 3 => "e3"
  | 4 => "e4"
  | 5 => "e5"
  | 6 => "e6"
  | 7 => "e7"
  | 8 => "e8"
  | 9 => "e9"
  | _ => "e0"

def sampleCommand (command : Id) : Command := ⟨"s", command, 5000, .prompt "" .queueNext none none⟩

/-- The acceptance of a queued prompt at a revision. -/
def promptRequest (command event : Id) (revision now : Nat) : Request :=
  ⟨defaultLimits, .accept {
    scope := sampleScope
    command := sampleCommand command
    expectedRevision := revision
    expectedGeneration := "g1"
    nowMs := now
    retention := ⟨100, 10000⟩
    eventId := event }⟩

def promptRecord (command : Id) (revision now : Nat) (state : CommandState) : CommandRecord where
  command := sampleCommand command
  receipt := ⟨sampleScope, command, sampleHashing.fingerprint (sampleCommand command), now, now + 100,
    now + 10000, revision + 1, "g1"⟩
  state := state

def sampleAttempt (attempt : Id) (certainty : Certainty) : DispatchAttempt :=
  ⟨"n", none, none, certainty, attempt, "g1", "g1", none, none⟩

/-- A commit of one record with the events of its attempt. -/
def recordRequest (revision sequence now : Nat) (record : CommandRecord) (attempt : Id)
    (bodies : List EventBody) (facts : List VerifiedProviderFact) : Request :=
  ⟨defaultLimits, .commit {
    scope := sampleScope
    expectedRevision := revision
    expectedGeneration := "g1"
    session := { sampleSession with
      revision := revision + 1
      lastSequence := sequence + bodies.length }
    commands := [record]
    events := bodies.mapIdx fun index body => {
      scope := sampleScope
      eventId := sampleEvent (sequence + index + 1)
      sequence := sequence + index + 1
      generation := "g1"
      commandId := some record.commandId
      attemptId := some attempt
      body := body }
    interactions := []
    deliveries := []
    surfaces := []
    providerFacts := facts
    nowMs := some now }⟩

def dispatchRequest (revision sequence now : Nat) (attempt : Id) : Request :=
  recordRequest revision sequence now
    (promptRecord "p1" 0 10 (.dispatching (sampleAttempt attempt .intent))) attempt
    [.dispatch (sampleAttempt attempt .intent), .status .dispatching] []

def notSentRequest : Request :=
  recordRequest 2 3 30 (promptRecord "p1" 0 10 .accepted) "a1"
    [.reconciled (sampleAttempt "a1" .intent) .notSubmitted]
    [⟨"p1", some ⟨sampleScope, sampleBinding,
      promptRecord "p1" 0 10 (.dispatching (sampleAttempt "a1" .intent)),
      ⟨"p1", "a1", sampleBinding, .notSubmitted none⟩⟩⟩]

def firstRequests : List Request := [promptRequest "p1" "e1" 0 10, dispatchRequest 1 1 20 "a1"]

def secondRequests : List Request := [notSentRequest, dispatchRequest 3 4 40 "a2"]

theorem sampleReachable (requests : List Request) :
    Reachable (perform sampleStart requests).1 (perform sampleStart requests).2 :=
  ⟨sampleSession, defaultLimits, sampleStart, by decide +kernel, perform_runs sampleStart requests⟩

theorem one_turn_no_resend_sample :
    OneOwner (perform sampleStart firstRequests).2 ∧
      ((perform sampleStart firstRequests).1.flatMap introduced = [("p1", "a1")] ∧
        (perform (perform sampleStart firstRequests).2 secondRequests).1.map introduced =
          [[], [("p1", "a2")]]) ∧
      ∀ c d, (perform sampleStart firstRequests).2.commands.get "p1" = some c → c.dispatch = some d →
        ∀ before label after b,
          (perform (perform sampleStart firstRequests).2 secondRequests).1 = before ++ label :: after →
          ("p1", b) ∈ introduced label → ∃ earlier ∈ before, NotSubmitted earlier "p1" d.attemptId := by
  obtain ⟨owner, _, attempts⟩ := one_turn_no_resend (sampleReachable firstRequests)
  refine ⟨owner, by decide +kernel, fun c d found sent => ?_⟩
  exact (attempts _ _ (perform_runs _ secondRequests) "p1" c d found sent).2

end Samples

end RssMdmAgent.SessionTurns
