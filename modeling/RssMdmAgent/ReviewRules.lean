import RssMdmAgent.BatchCommit

set_option autoImplicit false

/-! # What an accepted record or row of a batch is known to satisfy -/

namespace RssMdmAgent.ReviewRules
open BoundedJson OrderedRows SessionRecords SessionValidity SessionState BatchReview BatchCommit
open ContractPlan (bind_ok)

/-! ## Commands -/

section Commands
variable {r : Review} {c : CommandRecord} {old : Option CommandRecord} {attempts later : List Id} {u : Unit}

theorem checkHistory_kept {o : CommandRecord} (h : checkHistory r c (some o) = .ok u) :
    (o.receipt = c.receipt ∧ o.command = c.command) ∧ (isSettled o = true → o = c) := by
  unfold checkHistory at h
  obtain ⟨_, content, h⟩ := bind_ok.mp h
  rw [refuse_ok] at content h
  refine ⟨⟨?_, ?_⟩, fun settled => ?_⟩ <;> by_contra differ
  · exact content (.inl differ)
  · exact content (.inr differ)
  · exact h ⟨settled, differ⟩

theorem checkHistory_added (h : checkHistory r c none = .ok u) :
    r.accepting = true ∧ c.state = .accepted := by
  unfold checkHistory at h
  rw [refuse_ok, not_or, not_or, Bool.not_eq_false, not_not] at h
  refine ⟨h.1, ?_⟩
  have accepted := h.2.1
  cases state : c.state <;> simp_all [CommandState.name]

/-- The evidence with which a fact other than an observation resolves an attempt. -/
structure Resolves (r : Review) (c : CommandRecord) (fact : Reconciliation) (resolution : Resolution)
    (o : CommandRecord) (d : DispatchAttempt) : Prop where
  unsettled : isSettled o = false
  attempt : fact.attemptId = d.attemptId
  identity : providerIdentity fact.binding = providerIdentity r.stage.binding
  coordinates : matchesCoordinates d fact.binding = true
  published : (r.batch.events.filter fun e => e.commandId = some c.commandId && isReconciled e.body).map
    (·.body) = [.reconciled d resolution]
  withdrawn : ∀ error, fact.status = .notSubmitted error → d.certainty ≠ .submitted ∧ c.dispatch = none ∧
    ∃ now, r.batch.now = some now ∧
      c.state.name = if retryEligible c now error then .accepted else .invalidated
  named : (∀ error, fact.status ≠ .notSubmitted error) → c.state.name = resolvedName resolution

theorem checkResolution_ok {fact : Reconciliation} {resolution : Resolution}
    (named : fact.status.resolution = some resolution)
    (h : checkResolution r c old fact resolution = .ok u) :
    ∃ o d, old = some o ∧ o.dispatch = some d ∧ Resolves r c fact resolution o d := by
  unfold checkResolution at h
  obtain ⟨_, -, h⟩ := bind_ok.mp h
  split at h
  · rename_i o d found dispatched
    obtain ⟨_, evidence, h⟩ := bind_ok.mp h
    obtain ⟨_, published, h⟩ := bind_ok.mp h
    rw [refuse_ok] at evidence published
    simp only [not_or, not_not, Bool.not_eq_true, Bool.not_eq_false] at evidence published
    obtain ⟨unsettled, attempt, identity, -, -, coordinates⟩ := evidence
    refine ⟨o, d, rfl, dispatched, unsettled, attempt, identity, coordinates, published, ?_, ?_⟩
    · intro error status
      rw [status] at h
      dsimp only at h
      split at h
      · cases h
      · rename_i now clock
        obtain ⟨_, certainty, h⟩ := bind_ok.mp h
        rw [refuse_ok] at certainty h
        simp only [not_or, not_not] at h
        exact ⟨certainty, h.2, now, clock, h.1⟩
    · intro other
      cases status : fact.status with
      | notSubmitted error => exact absurd status (other error)
      | terminal outcome =>
        rw [status] at h named
        cases named
        dsimp only at h
        rw [refuse_ok, not_or, not_not] at h
        exact h.1
      | observed observation =>
        rw [status] at named
        cases named
      | running | submitted | unknown _ | acknowledged _ =>
        rw [status] at h
        dsimp only at h
        rw [refuse_ok, not_not] at h
        exact h
  · cases h

theorem checkChange_resolved {fact : Reconciliation} {resolution : Resolution}
    (found : r.resolution c.commandId = some fact) (named : fact.status.resolution = some resolution)
    (h : checkChange r c old = .ok u) :
    ∃ o d, old = some o ∧ o.dispatch = some d ∧ Resolves r c fact resolution o d := by
  unfold checkChange at h
  rw [found, Option.bind_some, named, Option.map_some] at h
  exact checkResolution_ok named h

/-- How the dispatch of a reviewed record relates to the stored one. -/
inductive AttemptStep (r : Review) (c : CommandRecord) (attempts : List Id) :
    Option DispatchAttempt → Option DispatchAttempt → List Id → Prop where
  | kept {before after : DispatchAttempt} (retains : DispatchAttempt.retains before after = true)
      (submitted : before.certainty = .submitted → after.certainty = .submitted) :
      AttemptStep r c attempts (some before) (some after) attempts
  | started {d : DispatchAttempt} (fresh : d.attemptId ∉ attempts)
      (unused : r.state.hasAttempt d.attemptId = false) (intent : d.certainty = .intent) :
      AttemptStep r c attempts none (some d) (attempts ++ [d.attemptId])
  | withdrawn {before : DispatchAttempt}
      (rejected : (r.resolution c.commandId).bind (·.status.resolution) = some .notSubmitted) :
      AttemptStep r c attempts (some before) none attempts
  | idle : AttemptStep r c attempts none none attempts

theorem checkAttempt_ok (h : checkAttempt r c old attempts = .ok later) :
    AttemptStep r c attempts (old.bind (·.dispatch)) c.dispatch later := by
  unfold checkAttempt at h
  split at h
  · rename_i before after stored sent
    obtain ⟨_, -, h⟩ := bind_ok.mp h
    obtain ⟨_, retains, h⟩ := bind_ok.mp h
    obtain ⟨_, submitted, h⟩ := bind_ok.mp h
    obtain ⟨_, -, h⟩ := bind_ok.mp h
    cases h
    rw [refuse_ok] at retains submitted
    rw [stored, sent]
    refine .kept (by simpa using retains) fun certain => ?_
    by_contra changed
    exact submitted ⟨certain, changed⟩
  · rename_i d stored sent
    obtain ⟨_, started, h⟩ := bind_ok.mp h
    cases h
    unfold checkFirstDispatch at started
    obtain ⟨_, first, -⟩ := bind_ok.mp started
    rw [refuse_ok] at first
    simp only [not_or, not_not, Bool.not_eq_true] at first
    obtain ⟨-, -, intent, -, -, fresh, unused⟩ := first
    rw [stored, sent]
    exact .started fresh unused intent
  · rename_i before stored sent
    obtain ⟨_, rejected, h⟩ := bind_ok.mp h
    cases h
    rw [refuse_ok, not_not] at rejected
    rw [stored, sent]
    exact .withdrawn rejected
  · rename_i stored sent
    cases h
    rw [stored, sent]
    exact .idle

theorem checkDispatchEvent_published {d : DispatchAttempt} (sent : c.dispatch = some d)
    (changed : old.bind (·.dispatch) ≠ some d) (h : checkDispatchEvent r c old = .ok u) :
    ∃ e ∈ r.batch.events, e.commandId = some c.commandId ∧ e.body = .dispatch d := by
  unfold checkDispatchEvent at h
  rw [sent] at h
  dsimp only at h
  obtain ⟨_, published, -⟩ := bind_ok.mp h
  rw [refuse_ok] at published
  have only : ((r.batch.events.filter fun e => e.commandId = some c.commandId && isDispatch e.body).map
      (·.body)) = [.dispatch d] := by
    by_contra differ
    exact published ⟨changed, differ⟩
  have mem : EventBody.dispatch d ∈ ((r.batch.events.filter fun e =>
      e.commandId = some c.commandId && isDispatch e.body).map (·.body)) := by
    rw [only]
    exact List.mem_singleton_self _
  obtain ⟨e, selected, body⟩ := List.mem_map.mp mem
  obtain ⟨mem, names⟩ := List.mem_filter.mp selected
  rw [Bool.and_eq_true, decide_eq_true_iff] at names
  exact ⟨e, mem, names.1, body⟩

/-- What a record that passed all checks satisfies. -/
structure Checked (r : Review) (c : CommandRecord) (old : Option CommandRecord) (attempts later : List Id) :
    Prop where
  history : checkHistory r c old = .ok ()
  observer : checkObserver r c = .ok ()
  change : checkChange r c old = .ok ()
  attempt : AttemptStep r c attempts (old.bind (·.dispatch)) c.dispatch later
  event : checkDispatchEvent r c old = .ok ()
  authority : checkAuthority r c old = .ok ()
  settlement : checkSettlement r c old = .ok ()
  published : checkStateEvent r c old = .ok ()

theorem checkCommand_ok (h : checkCommand r c old attempts = .ok later) :
    Checked r c old attempts later := by
  unfold checkCommand at h
  obtain ⟨_, history, h⟩ := bind_ok.mp h
  obtain ⟨_, observer, h⟩ := bind_ok.mp h
  obtain ⟨_, change, h⟩ := bind_ok.mp h
  obtain ⟨_, attempt, h⟩ := bind_ok.mp h
  obtain ⟨_, event, h⟩ := bind_ok.mp h
  obtain ⟨_, authority, h⟩ := bind_ok.mp h
  obtain ⟨_, settlement, h⟩ := bind_ok.mp h
  obtain ⟨_, published, h⟩ := bind_ok.mp h
  cases h
  exact ⟨history, observer, change, checkAttempt_ok attempt, event, authority, settlement, published⟩

end Commands

/-! ## The records of one batch -/

def startedAttempt (state : SessionWorkspace) (c : CommandRecord) : Option Id :=
  match (state.commands.get c.commandId).bind (·.dispatch), c.dispatch with
  | none, some d => some d.attemptId
  | _, _ => none

theorem AttemptStep.later_eq {r : Review} {c : CommandRecord} {attempts later : List Id}
    (h : AttemptStep r c attempts ((r.state.commands.get c.commandId).bind (·.dispatch)) c.dispatch later) :
    later = attempts ++ (startedAttempt r.state c).toList ∧
      ∀ a, startedAttempt r.state c = some a → a ∉ attempts ∧ r.state.hasAttempt a = false := by
  unfold startedAttempt
  generalize (r.state.commands.get c.commandId).bind (·.dispatch) = before at h
  generalize c.dispatch = after at h
  cases h with
  | started fresh unused _ =>
    refine ⟨rfl, fun a same => ?_⟩
    cases same
    exact ⟨fresh, unused⟩
  | kept | withdrawn | idle => exact ⟨by simp, fun a same => by cases same⟩

/-- The outcome of the review of a list of records. -/
structure Reviewed (r : Review) (cs : List CommandRecord) (start pass : CommandPass) : Prop where
  commands : pass.commands = start.commands.setAll cs
  ids : pass.commandIds = start.commandIds ++ cs.map (·.commandId)
  fresh : ∀ c ∈ cs, c.commandId ∉ start.commandIds
  distinct : (cs.map (·.commandId)).Nodup
  attempts : pass.attemptIds = start.attemptIds ++ cs.filterMap (startedAttempt r.state)
  attemptsDistinct : start.attemptIds.Nodup → pass.attemptIds.Nodup
  checked : ∀ c ∈ cs, some c.receipt.stageId = r.state.session.currentStageId ∧
    (c.receipt.scope = r.batch.scope ∧ c.command.sessionId = r.batch.scope.sessionId) ∧
    ∃ attempts later, Checked r c (r.state.commands.get c.commandId) attempts later

theorem reviewCommands_ok {r : Review} : ∀ {cs : List CommandRecord} {start pass : CommandPass},
    reviewCommands r cs start = .ok pass → Reviewed r cs start pass
  | [], start, pass, h => by
    cases h
    exact ⟨rfl, by simp, by simp, .nil, by simp, id, by simp⟩
  | c :: cs, start, pass, h => by
    unfold reviewCommands at h
    obtain ⟨middle, first, h⟩ := bind_ok.mp h
    have rest := reviewCommands_ok h
    unfold reviewCommand at first
    obtain ⟨_, stage, first⟩ := bind_ok.mp first
    obtain ⟨_, single, first⟩ := bind_ok.mp first
    obtain ⟨_, scope, first⟩ := bind_ok.mp first
    obtain ⟨later, checked, first⟩ := bind_ok.mp first
    cases first
    rw [refuse_ok, not_not] at stage
    rw [refuse_ok] at single
    rw [refuse_ok, not_or, not_not, not_not] at scope
    have done := checkCommand_ok checked
    obtain ⟨extended, started⟩ := done.attempt.later_eq
    have absent : c.commandId ∉ cs.map (·.commandId) := by
      intro mem
      obtain ⟨other, mem, same⟩ := List.mem_map.mp mem
      exact rest.fresh other mem (by simp [same])
    refine ⟨?_, ?_, ?_, List.nodup_cons.mpr ⟨absent, rest.distinct⟩, ?_, ?_, ?_⟩
    · exact rest.commands
    · rw [rest.ids]
      simp
    · intro other mem
      rcases List.mem_cons.mp mem with rfl | mem
      · exact single
      · exact fun known => rest.fresh other mem (List.mem_append_left _ known)
    · rw [rest.attempts, extended, List.filterMap_cons]
      cases startedAttempt r.state c <;> simp
    · intro nodup
      apply rest.attemptsDistinct
      rw [extended]
      cases new : startedAttempt r.state c with
      | none => simpa using nodup
      | some a =>
        have unused := (started a new).1
        simp only [Option.toList_some, List.nodup_append, List.nodup_cons, List.not_mem_nil,
          not_false_iff, List.nodup_nil, and_self, true_and]
        refine ⟨nodup, ?_⟩
        rintro b mem a' same rfl
        rw [List.mem_singleton] at same
        exact unused (same ▸ mem)
    · intro other mem
      rcases List.mem_cons.mp mem with rfl | mem
      · exact ⟨stage, scope, _, _, done⟩
      · exact rest.checked other mem

end RssMdmAgent.ReviewRules
