import RssMdmAgent.ReviewRules

set_option autoImplicit false

/-! # What an accepted batch does to the rows -/

namespace RssMdmAgent.CommitRules
open BoundedJson OrderedRows SessionRecords SessionValidity SessionState BatchReview BatchCommit ReviewRules
open ContractPlan (bind_ok)

/-! ## Events -/

section Events
variable {r : Review} {copy : SessionWorkspace} {commandIds : List Id} {u : Unit}

/-- What an event of an accepted batch satisfies. -/
structure EventChecked (r : Review) (copy : SessionWorkspace) (commandIds : List Id) (e : Event)
    (source : CommandRecord) : Prop where
  generation : e.generation = r.batch.expectedGeneration
  fresh : r.state.hasEvent e.eventId = false
  found : e.commandId = some source.commandId ∧ copy.commands.get source.commandId = some source
  attempt : checkAttemptId r source (r.state.commands.get source.commandId) e = .ok ()
  body : checkBody r commandIds source (r.state.commands.get source.commandId) e = .ok ()

theorem checkEvent_ok {index : Nat} {ids : List Id} {e : Event}
    (h : checkEvent r copy commandIds index ids e = .ok u) :
    ∃ source, EventChecked r copy commandIds e source := by
  unfold checkEvent at h
  obtain ⟨_, head, h⟩ := bind_ok.mp h
  rw [refuse_ok] at head
  simp only [not_or, not_not, Bool.not_eq_true] at head
  obtain ⟨-, generation, -, -, fresh⟩ := head
  split at h
  · cases h
  · rename_i source found
    obtain ⟨id, named, found⟩ := Option.bind_eq_some_iff.mp found
    have same := Rows.get_key found
    subst same
    obtain ⟨_, -, h⟩ := bind_ok.mp h
    obtain ⟨_, attempt, h⟩ := bind_ok.mp h
    obtain ⟨_, -, h⟩ := bind_ok.mp h
    obtain ⟨_, -, body⟩ := bind_ok.mp h
    exact ⟨source, generation, fresh, ⟨named, found⟩, attempt, body⟩

theorem reviewEvents_ok : ∀ {events : List Event} {index : Nat} {ids : List Id},
    reviewEvents r copy commandIds index ids events = .ok u →
    ∀ e ∈ events, ∃ source, EventChecked r copy commandIds e source
  | [], _, _, _, _, mem => nomatch mem
  | first :: rest, _, _, h, e, mem => by
    unfold reviewEvents at h
    obtain ⟨_, checked, h⟩ := bind_ok.mp h
    rcases List.mem_cons.mp mem with rfl | mem
    · exact checkEvent_ok checked
    · exact reviewEvents_ok h e mem

theorem EventChecked.dispatch {e : Event} {source : CommandRecord} {d : DispatchAttempt}
    (checked : EventChecked r copy commandIds e source) (accepted : Event.accepts e = true)
    (body : e.body = .dispatch d) : e.attemptId = some d.attemptId := by
  have sent : source.dispatch = some d := by
    have h := checked.body
    unfold checkBody at h
    rw [body] at h
    dsimp only at h
    rwa [refuse_ok, not_not] at h
  have named : Event.names e = true := by
    unfold Event.accepts at accepted
    simp only [Bool.and_eq_true] at accepted
    exact accepted.1.2
  unfold Event.names at named
  rw [body] at named
  simp only [EventBody.subject, Bool.and_eq_true, Option.isSome_iff_exists] at named
  obtain ⟨-, a, named⟩ := named
  have h := checked.attempt
  unfold checkAttemptId at h
  rw [named, sent] at h
  dsimp only [Option.some_or] at h
  rw [refuse_ok, not_or, not_not] at h
  rw [named, h.1]

end Events

/-! ## Interactions -/

section Interactions
variable {r : Review} {u : Unit}

def asked (i : Interaction) : Interaction := { i with status := .pending }

/-- What an interaction of an accepted batch satisfies. -/
structure InteractionChecked (r : Review) (copy : SessionWorkspace) (row : Interaction)
    (source : CommandRecord) (d : DispatchAttempt) : Prop where
  found : copy.commands.get row.commandId = some source
  dispatched : source.dispatch = some d
  generation : row.generation = r.batch.expectedGeneration
  kept : ∀ old, copy.interactions.get row.interactionId = some old →
    asked old = asked row ∧ (old.status ≠ .pending → old = row)
  added : copy.interactions.get row.interactionId = none →
    row.status = .pending ∧ d.certainty = .submitted ∧ isSettled source = false
  answered : ∀ response, row.status = .answered response →
    ∃ c, copy.commands.get response = some c ∧ answers c row = true

theorem checkInteraction_ok {copy : SessionWorkspace} {ids : List Id} {row : Interaction}
    (h : checkInteraction r copy ids row = .ok u) :
    row.interactionId ∉ ids ∧ ∃ source d, InteractionChecked r copy row source d := by
  unfold checkInteraction at h
  obtain ⟨_, single, h⟩ := bind_ok.mp h
  rw [refuse_ok] at single
  refine ⟨single, ?_⟩
  split at h
  · cases h
  · rename_i source d found
    obtain ⟨source', found, dispatched⟩ := Option.bind_eq_some_iff.mp found
    obtain ⟨d', dispatched, same⟩ := Option.map_eq_some_iff.mp dispatched
    cases same
    obtain ⟨_, scope, h⟩ := bind_ok.mp h
    obtain ⟨_, change, h⟩ := bind_ok.mp h
    obtain ⟨_, -, h⟩ := bind_ok.mp h
    obtain ⟨_, -, h⟩ := bind_ok.mp h
    obtain ⟨_, answered, -⟩ := bind_ok.mp h
    rw [refuse_ok] at scope
    simp only [not_or, not_not] at scope
    unfold checkInteractionChange at change
    unfold checkAnswer at answered
    refine ⟨source, d, found, dispatched, scope.2.1, fun old stored => ?_, fun missing => ?_,
      fun response status => ?_⟩
    · rw [stored] at change
      dsimp only at change
      unfold checkInteractionKept at change
      obtain ⟨_, identity, final⟩ := bind_ok.mp change
      rw [refuse_ok, not_not] at identity
      rw [refuse_ok] at final
      refine ⟨identity, fun settled => ?_⟩
      by_contra differ
      exact final ⟨settled, differ⟩
    · rw [missing] at change
      dsimp only at change
      unfold checkInteractionAdded at change
      obtain ⟨_, added, -⟩ := bind_ok.mp change
      rw [refuse_ok] at added
      simp only [not_or, not_not] at added
      refine ⟨added.1, added.2.1, unsettled_open.mpr ?_⟩
      have live := added.2.2
      simp only [List.mem_cons, List.not_mem_nil, or_false] at live
      rcases live with live | live <;> rw [live] <;> decide
    · rw [status] at answered
      dsimp only at answered
      rwa [refuse_ok, Bool.not_eq_false, Option.any_eq_true] at answered

/-- What a list of interactions does to the rows. -/
structure Interacted (r : Review) (rows : List Interaction) (ids : List Id)
    (copy next : SessionWorkspace) : Prop where
  result : next = { copy with interactions := copy.interactions.setAll rows }
  fresh : ∀ row ∈ rows, row.interactionId ∉ ids
  distinct : (rows.map (·.interactionId)).Nodup
  checked : ∀ row ∈ rows, ∃ source d, InteractionChecked r copy row source d

theorem reviewInteractions_ok : ∀ {rows : List Interaction} {ids : List Id} {copy next : SessionWorkspace},
    reviewInteractions r ids rows copy = .ok next → Interacted r rows ids copy next
  | [], _, copy, next, h => by
    cases h
    exact ⟨rfl, by simp, .nil, by simp⟩
  | row :: rows, ids, copy, next, h => by
    unfold reviewInteractions at h
    obtain ⟨_, checked, h⟩ := bind_ok.mp h
    obtain ⟨single, source, d, checked⟩ := checkInteraction_ok checked
    have rest := reviewInteractions_ok h
    have absent : ∀ other ∈ rows, other.interactionId ≠ row.interactionId := by
      intro other mem same
      exact rest.fresh other mem (by simp [same])
    refine ⟨rest.result, fun other mem => ?_, List.nodup_cons.mpr ⟨fun mem => ?_, rest.distinct⟩,
      fun other mem => ?_⟩
    · rcases List.mem_cons.mp mem with rfl | mem
      · exact single
      · exact fun known => rest.fresh other mem (List.mem_append_left _ known)
    · obtain ⟨other, mem, same⟩ := List.mem_map.mp mem
      exact absent other mem same
    · rcases List.mem_cons.mp mem with rfl | mem
      · exact ⟨source, d, checked⟩
      · obtain ⟨source, d, later⟩ := rest.checked other mem
        have same : (copy.interactions.set row).get other.interactionId =
            copy.interactions.get other.interactionId := Rows.get_set_ne (absent other mem)
        refine ⟨source, d, later.found, later.dispatched, later.generation, ?_, ?_, later.answered⟩
        · rw [← same]
          exact later.kept
        · rw [← same]
          exact later.added

end Interactions

/-! ## Deliveries -/

theorem reviewDeliveries_ok [RecordHashing] {limits : Limits} {r : Review} :
    ∀ {rows : List Delivery} {ids : List Id} {copy next : SessionWorkspace},
    reviewDeliveries limits r ids rows copy = .ok next →
    next = { copy with deliveries := copy.deliveries.setAll rows }
  | [], _, copy, next, h => by
    cases h
    rfl
  | row :: rows, ids, copy, next, h => by
    unfold reviewDeliveries at h
    obtain ⟨_, -, h⟩ := bind_ok.mp h
    have rest := reviewDeliveries_ok h
    exact rest

/-! ## Surfaces -/

section Surfaces
variable [RecordHashing] [SurfaceCatalog] {limits : Limits} {r : Review} {u : Unit}

/-- What a surface of an accepted batch satisfies. -/
structure SurfaceChecked (limits : Limits) (r : Review) (copy : SessionWorkspace) (row : SurfaceState)
    (interaction : Interaction) : Prop where
  accepted : valid limits (.surface row) = true
  scope : row.scope = r.batch.scope
  found : copy.interactions.get row.interactionId = some interaction
  kept : ∀ old, copy.surfaces.get row.surfaceInstanceId = some old →
    surfaceIdentity old = surfaceIdentity row ∧ old.status = .active ∧ row.revision = old.revision + 1
  added : copy.surfaces.get row.surfaceInstanceId = none →
    row.status = .active ∧ row.revision = 0 ∧ interaction.status = .pending

theorem checkSurface_ok {copy : SessionWorkspace} {ids : List Id} {row : SurfaceState}
    (h : checkSurface limits r copy ids row = .ok u) :
    row.surfaceInstanceId ∉ ids ∧ ∃ interaction, SurfaceChecked limits r copy row interaction := by
  unfold checkSurface at h
  obtain ⟨_, accepted, h⟩ := bind_ok.mp h
  rw [refuse_ok, not_or, Bool.not_eq_false] at accepted
  split at h
  · cases h
  · rename_i interaction found
    obtain ⟨_, head, h⟩ := bind_ok.mp h
    obtain ⟨_, row', -⟩ := bind_ok.mp h
    rw [refuse_ok] at head
    simp only [not_or, not_not] at head
    unfold checkSurfaceRow at row'
    refine ⟨head.1, interaction, accepted.1, head.2.1, found, fun old stored => ?_, fun missing => ?_⟩
    · rw [stored] at row'
      dsimp only at row'
      obtain ⟨_, identity, revision⟩ := bind_ok.mp row'
      rw [refuse_ok, not_not] at identity
      rw [refuse_ok, not_or, not_not, not_not] at revision
      exact ⟨identity, revision⟩
    · rw [missing] at row'
      dsimp only at row'
      rw [refuse_ok] at row'
      simpa only [not_or, not_not] using row'

/-- What a list of surfaces does to the rows. -/
structure Surfaced (limits : Limits) (r : Review) (rows : List SurfaceState) (ids : List Id)
    (copy next : SessionWorkspace) : Prop where
  result : next = { copy with surfaces := copy.surfaces.setAll rows }
  fresh : ∀ row ∈ rows, row.surfaceInstanceId ∉ ids
  distinct : (rows.map (·.surfaceInstanceId)).Nodup
  checked : ∀ row ∈ rows, ∃ interaction, SurfaceChecked limits r copy row interaction

theorem reviewSurfaces_ok : ∀ {rows : List SurfaceState} {ids : List Id} {copy next : SessionWorkspace},
    reviewSurfaces limits r ids rows copy = .ok next → Surfaced limits r rows ids copy next
  | [], _, copy, next, h => by
    cases h
    exact ⟨rfl, by simp, .nil, by simp⟩
  | row :: rows, ids, copy, next, h => by
    unfold reviewSurfaces at h
    obtain ⟨_, checked, h⟩ := bind_ok.mp h
    obtain ⟨single, interaction, checked⟩ := checkSurface_ok checked
    have rest := reviewSurfaces_ok h
    have absent : ∀ other ∈ rows, other.surfaceInstanceId ≠ row.surfaceInstanceId := by
      intro other mem same
      exact rest.fresh other mem (by simp [same])
    refine ⟨rest.result, fun other mem => ?_, List.nodup_cons.mpr ⟨fun mem => ?_, rest.distinct⟩,
      fun other mem => ?_⟩
    · rcases List.mem_cons.mp mem with rfl | mem
      · exact single
      · exact fun known => rest.fresh other mem (List.mem_append_left _ known)
    · obtain ⟨other, mem, same⟩ := List.mem_map.mp mem
      exact absent other mem same
    · rcases List.mem_cons.mp mem with rfl | mem
      · exact ⟨interaction, checked⟩
      · obtain ⟨interaction, later⟩ := rest.checked other mem
        have same : (copy.surfaces.set row).get other.surfaceInstanceId =
            copy.surfaces.get other.surfaceInstanceId := Rows.get_set_ne (absent other mem)
        refine ⟨interaction, later.accepted, later.scope, later.found, ?_, ?_⟩
        · rw [← same]
          exact later.kept
        · rw [← same]
          exact later.added

end Surfaces

/-! ## The whole commit -/

theorem forM_ok {α : Type} {check : α → Except Failure Unit} : ∀ {list : List α} {u : Unit},
    list.forM check = .ok u → ∀ a ∈ list, check a = .ok ()
  | [], _, _, _, mem => nomatch mem
  | first :: rest, _, h, a, mem => by
    change (check first >>= fun _ => rest.forM check) = .ok _ at h
    obtain ⟨_, checked, h⟩ := bind_ok.mp h
    rcases List.mem_cons.mp mem with rfl | mem
    · exact checked
    · exact forM_ok h a mem

section Commit
variable [RecordHashing] {limits : Limits} {state next : SessionWorkspace} {batch : SessionCommit}
  {accepting suspending : Bool}

/-- The rows that a commit leaves. -/
def committed (state : SessionWorkspace) (batch : SessionCommit) : SessionWorkspace where
  session := batch.session
  generations := state.generations
  commands := state.commands.setAll batch.commands
  events := state.events ++ batch.events
  interactions := state.interactions.setAll batch.interactions
  deliveries := state.deliveries.setAll batch.deliveries
  surfaces := state.surfaces.setAll batch.surfaces

def reviewed (state : SessionWorkspace) (batch : SessionCommit) : SessionWorkspace :=
  { state with commands := state.commands.setAll batch.commands }

def published (state : SessionWorkspace) (batch : SessionCommit) : SessionWorkspace :=
  { reviewed state batch with events := state.events ++ batch.events }

def delivered (state : SessionWorkspace) (batch : SessionCommit) : SessionWorkspace :=
  { published state batch with
    interactions := state.interactions.setAll batch.interactions
    deliveries := state.deliveries.setAll batch.deliveries }

/-- Everything that a successful commit has checked. -/
structure Committed (limits : Limits) (state : SessionWorkspace) (batch : SessionCommit)
    (accepting suspending : Bool) (r : Review) (pass : CommandPass) : Prop where
  review : r.state = state ∧ r.batch = batch ∧ r.accepting = accepting
  current : checkState (if isDeliveryCommit state batch || suspending then awake state else state)
    batch.expectedRevision batch.expectedGeneration = .ok ()
  rows : ∀ row ∈ batch.rows, valid limits row = true
  head : checkHead state batch (isDeliveryCommit state batch) suspending = .ok r.stage
  facts : collectFacts state batch.providerFacts [] = .ok r.facts
  commands : Reviewed r batch.commands ⟨state.commands, [], []⟩ pass
  owner : (((reviewed state batch).commandsInStates openStates).filter ownsTurn).length ≤ 1
  events : ∀ e ∈ batch.events, ∃ source, EventChecked r (reviewed state batch) pass.commandIds e source
  interactions : Interacted r batch.interactions [] (published state batch)
    { published state batch with interactions := state.interactions.setAll batch.interactions }
  surfaces : Surfaced limits r batch.surfaces [] (delivered state batch)
    { delivered state batch with surfaces := state.surfaces.setAll batch.surfaces }
  closed : ∀ c ∈ batch.commands, isSettled c = true → hasOpenWork (committed state batch) c.commandId = false
  fence : ∀ i ∈ batch.interactions, checkFence (committed state batch) i = .ok ()

theorem reduceCommit_ok [SurfaceCatalog]
    (h : reduceCommit limits state batch accepting suspending = .ok next) :
    next = committed state batch ∧
      ∃ r pass, Committed limits state batch accepting suspending r pass := by
  unfold reduceCommit at h
  obtain ⟨_, current, h⟩ := bind_ok.mp h
  obtain ⟨_, rows, h⟩ := bind_ok.mp h
  obtain ⟨stage, head, h⟩ := bind_ok.mp h
  obtain ⟨facts, collected, h⟩ := bind_ok.mp h
  obtain ⟨pass, records, h⟩ := bind_ok.mp h
  have records := reviewCommands_ok records
  obtain ⟨_, -, h⟩ := bind_ok.mp h
  obtain ⟨_, owner, h⟩ := bind_ok.mp h
  obtain ⟨_, -, h⟩ := bind_ok.mp h
  obtain ⟨_, -, h⟩ := bind_ok.mp h
  obtain ⟨_, events, h⟩ := bind_ok.mp h
  obtain ⟨asking, interactions, h⟩ := bind_ok.mp h
  obtain ⟨_, -, h⟩ := bind_ok.mp h
  obtain ⟨sending, deliveries, h⟩ := bind_ok.mp h
  obtain ⟨showing, surfaces, h⟩ := bind_ok.mp h
  obtain ⟨_, -, h⟩ := bind_ok.mp h
  obtain ⟨_, closed, h⟩ := bind_ok.mp h
  obtain ⟨_, fence, h⟩ := bind_ok.mp h
  cases h
  have interactions := reviewInteractions_ok interactions
  have asked := interactions.result
  rw [records.commands] at owner events interactions asked
  subst asked
  have sent := reviewDeliveries_ok deliveries
  subst sent
  have surfaces := reviewSurfaces_ok surfaces
  have shown := surfaces.result
  subst shown
  rw [refuse_ok, Bool.not_eq_false, List.all_eq_true] at rows
  rw [refuse_ok] at owner closed
  refine ⟨rfl, ⟨state, batch, stage, facts, accepting⟩, pass, ⟨rfl, rfl, rfl⟩, current, rows, head,
    collected, records, by simpa [reviewed] using owner, reviewEvents_ok events, interactions, surfaces, ?_,
    forM_ok fence⟩
  intro c mem settled
  by_contra openWork
  apply closed
  rw [List.any_eq_true]
  refine ⟨c, mem, ?_⟩
  rw [settled, Bool.true_and]
  exact Bool.eq_true_of_not_eq_false openWork

/-! ## The stored records -/

section Records
variable {r : Review} {pass : CommandPass} {k : Id} {c o : CommandRecord}

def Reviews (r : Review) (c : CommandRecord) (old : Option CommandRecord) : Prop :=
  ∃ attempts later, Checked r c old attempts later

theorem Committed.checked (done : Committed limits state batch accepting suspending r pass)
    (mem : c ∈ batch.commands) : Reviews r c (state.commands.get c.commandId) := by
  have reviewed := (done.commands.checked c mem).2.2
  rw [done.review.1] at reviewed
  exact reviewed

theorem Committed.stored (done : Committed limits state batch accepting suspending r pass)
    (found : state.commands.get k = some o) : ∃ c, (committed state batch).commands.get k = some c ∧
      (c = o ∨ (c ∈ batch.commands ∧ c.commandId = k ∧ Reviews r c (some o))) := by
  by_cases mem : k ∈ batch.commands.map CommandRecord.commandId
  · obtain ⟨c, placed, rfl⟩ := List.mem_map.mp mem
    refine ⟨c, Rows.get_setAll_mem done.commands.distinct placed, .inr ⟨placed, rfl, ?_⟩⟩
    rw [← found]
    exact done.checked placed
  · exact ⟨o, (Rows.get_setAll_absent done.commands.distinct mem).trans found, .inl rfl⟩

theorem Committed.origin (done : Committed limits state batch accepting suspending r pass)
    (found : (committed state batch).commands.get k = some c) :
    (k ∉ batch.commands.map CommandRecord.commandId ∧ state.commands.get k = some c) ∨
      (c ∈ batch.commands ∧ c.commandId = k ∧ Reviews r c (state.commands.get k)) := by
  rcases Rows.get_setAll_cases done.commands.distinct found with ⟨mem, rfl⟩ | kept
  · exact .inr ⟨mem, rfl, done.checked mem⟩
  · exact .inl kept

omit [RecordHashing] in
theorem lookup_collected : ∀ {proofs : List VerifiedProviderFact} {known facts : List (Id × Reconciliation)},
    collectFacts state proofs known = .ok facts → ∀ id fact, (id, fact) ∈ facts → (id, fact) ∈ known ∨
      ∃ proof ∈ proofs, proof.commandId = id ∧ ∃ record, state.commands.get id = some record ∧
        providerFactFor proof state.session record = some fact
  | [], _, _, h, id, fact, mem => by
    cases h
    exact .inl mem
  | proof :: rest, known, facts, h, id, fact, mem => by
    unfold collectFacts at h
    split at h
    · cases h
    · rename_i observation verified
      obtain ⟨record, found, verified⟩ := Option.bind_eq_some_iff.mp verified
      obtain ⟨_, -, h⟩ := bind_ok.mp h
      rcases lookup_collected h id fact mem with early | ⟨proof', mem, rest⟩
      · rcases List.mem_append.mp early with early | late
        · exact .inl early
        · cases List.mem_singleton.mp late
          exact .inr ⟨proof, List.mem_cons_self, rfl, record, found, verified⟩
      · exact .inr ⟨proof', List.mem_cons_of_mem _ mem, rest⟩

def Withdraws (state : SessionWorkspace) (batch : SessionCommit) (command attempt : Id) : Prop :=
  ∃ proof ∈ batch.providerFacts, proof.commandId = command ∧ ∃ record fact error,
    state.commands.get command = some record ∧ providerFactFor proof state.session record = some fact ∧
    fact.status = .notSubmitted error ∧ fact.attemptId = attempt

omit [RecordHashing] in
theorem notSubmitted_status {fact : Reconciliation}
    (named : fact.status.resolution = some .notSubmitted) : ∃ error, fact.status = .notSubmitted error := by
  cases status : fact.status <;> simp_all [ReconciliationStatus.resolution]

theorem Committed.dispatch (done : Committed limits state batch accepting suspending r pass)
    (found : state.commands.get k = some o) {d : DispatchAttempt} (sent : o.dispatch = some d) :
    ∃ c, (committed state batch).commands.get k = some c ∧
      ((∃ d', c.dispatch = some d' ∧ d'.attemptId = d.attemptId ∧
          (d.certainty = .submitted → d'.certainty = .submitted)) ∨
        (c.dispatch = none ∧ d.certainty ≠ .submitted ∧ Withdraws state batch k d.attemptId)) := by
  obtain ⟨c, stored, same | ⟨mem, rfl, attempts, later, checked⟩⟩ := done.stored found
  · exact ⟨c, stored, .inl ⟨d, by rw [same, sent], rfl, id⟩⟩
  · refine ⟨c, stored, ?_⟩
    have step := checked.attempt
    rw [Option.bind_some, sent] at step
    generalize dispatched : c.dispatch = after at step
    cases step with
    | @kept _ after retains submitted =>
      refine .inl ⟨after, rfl, ?_, submitted⟩
      unfold DispatchAttempt.retains at retains
      simp only [Bool.and_eq_true, decide_eq_true_iff] at retains
      exact retains.1.1.1.1.1.1.symm
    | withdrawn rejected =>
      right
      obtain ⟨fact, resolved, named⟩ := Option.bind_eq_some_iff.mp rejected
      obtain ⟨error, status⟩ := notSubmitted_status named
      obtain ⟨o', d', same, sent', resolves⟩ := checkChange_resolved resolved named checked.change
      cases same
      rw [sent] at sent'
      cases sent'
      refine ⟨rfl, (resolves.withdrawn error status).1, ?_⟩
      have mem : (c.commandId, fact) ∈ r.facts := by
        unfold Review.resolution at resolved
        obtain ⟨before, after, split, -⟩ := List.lookup_eq_some_iff.mp resolved
        rw [split]
        simp
      rcases lookup_collected done.facts _ _ mem with early | ⟨proof, mem, names, record, stored, verified⟩
      · cases early
      · exact ⟨proof, mem, names, record, fact, error, stored, verified, status, resolves.attempt⟩

end Records

end Commit

end RssMdmAgent.CommitRules
