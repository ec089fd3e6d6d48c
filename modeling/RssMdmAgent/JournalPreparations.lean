import RssMdmAgent.JournalSnapshots

set_option autoImplicit false

/-! # What the writes of one preparation keep -/

namespace RssMdmAgent.JournalPreparations
open BoundedArithmetic ContractIdentity ContractPlan BackendTasks JournalModel JournalStore
open JournalOperations JournalSteps JournalEffects JournalRuns JournalSnapshots TransitionRuns
open ProgramInstructions (ResourceNaming)
open LifecycleModel (VersionedRef)

/-- The checks that every accepted write has passed. -/
structure AcceptedRequest (scope : Scope) (expected : Option BackendRequest) (next : BackendRequest) :
    Prop where
  state : next.state ∈ nextStates (expected.map (·.state))
  gate : next.validProductGate = true
  manual : next.trigger ≠ .automatic
  request : next.action.request = scope.requestId
  revision : next.revision = (expected.map fun p => saturatingAdd p.revision 1).getD 1
  recorded : ∀ p, expected = some p → next.recordedAtUnixMs = p.recordedAtUnixMs ∧
    next.retryOf = p.retryOf ∧ next.retryExpectedRevision = p.retryExpectedRevision
  continues : ∀ p, expected = some p → continuesRequest p next = true

theorem acceptsRequest_ok {scope : Scope} {previous expected : Option BackendRequest}
    {next : BackendRequest} (h : acceptsRequest scope previous expected next = .ok ()) :
    previous = expected ∧ AcceptedRequest scope expected next := by
  obtain ⟨_, -, h⟩ := bind_ok.mp h
  obtain ⟨_, shaped, h⟩ := bind_ok.mp h
  obtain ⟨_, numbered, h⟩ := bind_ok.mp h
  obtain ⟨_, stored, h⟩ := bind_ok.mp h
  obtain ⟨_, recorded, h⟩ := bind_ok.mp h
  obtain ⟨_, -, h⟩ := bind_ok.mp h
  obtain ⟨_, -, h⟩ := bind_ok.mp h
  obtain ⟨_, -, continues⟩ := bind_ok.mp h
  have shaped := guarded_ok.mp shaped
  have numbered := guarded_ok.mp numbered
  have recorded := guarded_ok.mp recorded
  have continues := guarded_ok.mp continues
  simp only [Bool.and_eq_true, List.contains_iff_mem, bne_iff_ne, beq_iff_eq] at shaped numbered
  refine ⟨beq_iff_eq.mp (guarded_ok.mp stored), shaped.1.1.1.1, shaped.1.1.1.2, shaped.1.2, numbered.1,
    numbered.2, ?_, ?_⟩
  · rintro p rfl
    simp only [Option.all_some, Bool.and_eq_true, beq_iff_eq] at recorded
    exact ⟨recorded.1.1.symm, recorded.1.2.symm, recorded.2.symm⟩
  · rintro p rfl
    exact continues

def Rewrites (scope : Scope) (previous : Option BackendRequest) (next : BackendRequest)
    (stored : Option BackendRequest) : Prop :=
  acceptsRequest scope previous previous next = .ok () ∧ stored = some next

section Journal
variable {t t' : Tables} {o : Operation}

theorem upsertRequest_find (rows : List BackendRow) (scope other : Scope) (next : BackendRequest) :
    (upsertRequest rows scope next).find? (fun row => row.scope == other) =
      if other = scope then some ⟨scope, next⟩ else rows.find? fun row => row.scope == other := by
  unfold upsertRequest
  split
  · next known =>
    have named : (fun row : BackendRow => row.scope == other) ∘
        (fun row => if row.scope = scope then (⟨scope, next⟩ : BackendRow) else row) =
          fun row => row.scope == other := by
      funext row
      by_cases here : row.scope = scope <;> simp [here]
    rw [List.find?_map, named]
    cases found : rows.find? fun row => row.scope == other with
    | none =>
      have other_ : other ≠ scope := by
        rintro rfl
        obtain ⟨row, mem, same⟩ := List.any_eq_true.mp known
        exact List.find?_eq_none.mp found row mem same
      rw [if_neg other_, Option.map_none]
    | some row =>
      have named : row.scope = other := by simpa using List.find?_some found
      by_cases same : other = scope <;> simp [named, same]
  · next unknown =>
    have absent : rows.find? (fun row => row.scope == scope) = none := by simpa using unknown
    rw [List.find?_append]
    by_cases same : other = scope
    · rw [same, absent]
      simp
    · simp [same, Ne.symm same]

theorem backendRequest_upsert (t : Tables) (scope other : Scope) (next : BackendRequest) :
    Tables.backendRequest { t with backendRequests := upsertRequest t.backendRequests scope next } other =
      if other = scope then some next else Tables.backendRequest t other := by
  unfold Tables.backendRequest
  rw [upsertRequest_find]
  split <;> rfl

variable [ResourceNaming] [JournalNaming]

theorem effect_preparations {limits : StoreLimits} {host : JournalHost} {c : Call} {reply : Reply}
    (h : Effect limits host t c t' reply) : t'.backendRequests = t.backendRequests ∨
      ∃ scope expected next, c = .backendRequest scope expected next ∧
        acceptsRequest scope (Tables.backendRequest t scope) expected next = .ok () ∧
        t' = { t with backendRequests := upsertRequest t.backendRequests scope next } := by
  cases h with
  | @requested scope expected next reserved accepted => exact .inr ⟨scope, expected, next, rfl, accepted, rfl⟩
  | openedAgain started quiet prepared | opened started created fresh quiet reserved prepared
  | refused started later loaded fresh refusal prepared
  | interactionOpened started planned created fresh quiet prepared =>
    obtain ⟨audit, rfl⟩ := prepared.tables
    exact .inl rfl
  | transitioned started later accepted =>
    obtain ⟨attempts, claims, claims', audit, -, -, -, prepared⟩ := accepted.written
    obtain ⟨audit', rfl⟩ := prepared.tables
    exact .inl rfl
  | interactionKept started later keyed quiet prepared
  | interactionMoved started later loaded keyed evaluated offered current quiet prepared =>
    obtain ⟨audit, rfl⟩ := prepared.tables
    obtain ⟨keys, rfl⟩ := insertInteractionKey_ok keyed
    exact .inl rfl
  | confirmed | captured | progressed => exact .inl rfl

variable [RecordEncoding]

theorem operates_preparations (h : Operates t o t') : t'.backendRequests = t.backendRequests ∨
    ∃ scope expected next, o.call = .backendRequest scope expected next ∧
      acceptsRequest scope (Tables.backendRequest t scope) expected next = .ok () ∧
      t' = { t with backendRequests := upsertRequest t.backendRequests scope next } := by
  rcases h.effect with rfl | ⟨reply, effect⟩
  · exact .inl rfl
  · exact effect_preparations effect

theorem runs_rewrites {authority : Authority} {labels : List Operation}
    (run : Runs Operates (Tables.empty authority) labels t) (scope : Scope) :
    ∃ writes, Runs (Rewrites scope) none writes (Tables.backendRequest t scope) := by
  apply run.invariant fun t => ∃ writes, Runs (Rewrites scope) none writes (Tables.backendRequest t scope)
  · exact ⟨[], .refl⟩
  · rintro t o t' ⟨writes, earlier⟩ operates
    rcases operates_preparations operates with same | ⟨other, expected, next, -, accepted, rfl⟩
    · exact ⟨writes, by unfold Tables.backendRequest at earlier ⊢; rwa [same]⟩
    rw [backendRequest_upsert]
    by_cases here : scope = other
    · cases here
      rw [if_pos rfl]
      have accepted' := accepted
      rw [← (acceptsRequest_ok accepted).1] at accepted'
      exact ⟨writes ++ [next], .next earlier ⟨accepted', rfl⟩⟩
    · rw [if_neg here]
      exact ⟨writes, earlier⟩

end Journal

section Chains

def unfrozenState : BackendRequestState → Bool
  | .draft | .awaitingConfirmation => true
  | _ => false

def terminalState : BackendRequestState → Bool
  | .observed | .cancelled | .failed => true
  | _ => false

def proceedingState : BackendRequestState → Bool
  | .ready | .submitting | .observed => true
  | _ => false

def unfrozenChoice : PreparedAction → PreparedAction
  | .policy address definition revision choice _ _ _ _ access expires =>
    .policy address definition revision { choice with parameters := "" } "" "" none none access expires
  | action => action.choice

def parameters : PreparedAction → Option Content
  | .policy _ _ _ choice _ _ _ _ _ _ => some choice.parameters
  | _ => none

def unsubmitted : PreparedAction → Bool
  | .policy _ _ _ _ _ _ none none _ _ => true
  | _ => false

/-- What a write keeps of every earlier write. -/
structure Preserves (w v : BackendRequest) : Prop where
  closed : unfrozenState v.state = false
  trigger : v.trigger = w.trigger
  recorded : v.recordedAtUnixMs = w.recordedAtUnixMs ∧ v.retryOf = w.retryOf ∧
    v.retryExpectedRevision = w.retryExpectedRevision
  choice : unfrozenChoice v.action = unfrozenChoice w.action
  parameters : w.state ≠ .draft → parameters v.action = parameters w.action
  frozen : unfrozenState w.state = false →
    v.action.choice = w.action.choice ∧ v.risk = w.risk ∧ v.confirmation = w.confirmation
  reclassified : v.risk = w.risk ∨ unsubmitted w.action = true

theorem unfrozenChoice_of_choice {a b : PreparedAction} (h : a.choice = b.choice) :
    unfrozenChoice a = unfrozenChoice b ∧ parameters a = parameters b := by
  have through : ∀ a : PreparedAction, unfrozenChoice a = unfrozenChoice a.choice ∧
      parameters a = parameters a.choice := by
    intro a
    cases a <;> exact ⟨rfl, rfl⟩
  rw [(through a).1, (through a).2, h, ← (through b).1, ← (through b).2]
  exact ⟨rfl, rfl⟩

theorem sameChoice_choice {a b : PreparedAction} (h : a.sameChoice b = true) : a.choice = b.choice := by
  unfold PreparedAction.sameChoice at h
  simp only [Bool.and_eq_true, decide_eq_true_eq] at h
  exact h.1

theorem preparesCall_keeps {p next : BackendRequest} (h : p.preparesCall next = true) :
    unfrozenState p.state = true ∧ next.state = .ready ∧ unsubmitted p.action = true ∧
      unfrozenChoice next.action = unfrozenChoice p.action ∧
      (p.state ≠ .draft → parameters next.action = parameters p.action) := by
  unfold BackendRequest.preparesCall at h
  simp only [Bool.and_eq_true, Bool.or_eq_true, beq_iff_eq] at h
  obtain ⟨⟨opened, ready⟩, h⟩ := h
  have unfrozen : unfrozenState p.state = true := by
    rcases opened with opened | opened <;> rw [opened] <;> rfl
  refine ⟨unfrozen, ready, ?_⟩
  generalize p.action = action at h ⊢
  generalize next.action = action' at h ⊢
  split at h
  · simp only [Bool.and_eq_true, Bool.or_eq_true, beq_iff_eq] at h
    have same := sameChoice_choice h.2
    simp only [PreparedAction.choice, PreparedAction.policy.injEq] at same
    obtain ⟨rfl, rfl, rfl, chosen, -, -, -, -, rfl, rfl⟩ := same
    refine ⟨rfl, ?_, fun drafted => ?_⟩
    · have erased := congrArg (fun choice : PolicyChoice => { choice with parameters := "" }) chosen
      dsimp only at erased
      simp only [unfrozenChoice, erased]
    · rcases h.1 with draft | same
      · exact absurd draft drafted
      · simp [parameters, same]
  · cases h

theorem AcceptedRequest.preserves {scope : Scope} {p next : BackendRequest}
    (h : AcceptedRequest scope (some p) next) : Preserves p next := by
  have continues := h.continues p rfl
  unfold continuesRequest at continues
  simp only [Bool.and_eq_true, Bool.or_eq_true, beq_iff_eq] at continues
  obtain ⟨⟨⟨chosen, trigger⟩, risk⟩, confirmed⟩ := continues
  have closed : unfrozenState next.state = false := by
    have follows := h.state
    rw [Option.map_some] at follows
    generalize next.state = state at follows
    cases before : p.state <;> rw [before] at follows <;> simp [nextStates] at follows
    all_goals
      rcases follows with rfl | rfl | rfl | rfl <;> rfl
  refine ⟨closed, trigger.symm, h.recorded p rfl, ?_, fun drafted => ?_, fun frozen => ?_, ?_⟩
  · rcases chosen with same | prepares
    · exact (unfrozenChoice_of_choice (sameChoice_choice same)).1.symm
    · exact (preparesCall_keeps prepares).2.2.2.1
  · rcases chosen with same | prepares
    · exact (unfrozenChoice_of_choice (sameChoice_choice same)).2.symm
    · exact (preparesCall_keeps prepares).2.2.2.2 drafted
  · have unprepared : p.preparesCall next ≠ true := by
      intro prepares
      rw [(preparesCall_keeps prepares).1] at frozen
      cases frozen
    refine ⟨?_, ?_, ?_⟩
    · exact (sameChoice_choice (chosen.resolve_right unprepared)).symm
    · exact (risk.resolve_right unprepared).symm
    · rcases confirmed with same | ⟨⟨⟨opened, -⟩, -⟩, -⟩
      · exact same.symm
      · rcases opened with opened | opened <;> rw [opened] at frozen <;> cases frozen
  · rcases risk with same | prepares
    · exact .inl same.symm
    · exact .inr (preparesCall_keeps prepares).2.2.1

theorem Preserves.trans {w v u : BackendRequest} (first : Preserves w v) (second : Preserves v u) :
    Preserves w u := by
  obtain ⟨chosen, risk, confirmation⟩ := second.frozen first.closed
  refine ⟨second.closed, second.trigger.trans first.trigger, ?_, second.choice.trans first.choice,
    fun drafted => ?_, fun frozen => ?_, ?_⟩
  · obtain ⟨recorded, retried, expected⟩ := second.recorded
    rw [recorded, retried, expected]
    exact first.recorded
  · rw [(unfrozenChoice_of_choice chosen).2]
    exact first.parameters drafted
  · rw [chosen, risk, confirmation]
    exact first.frozen frozen
  · rw [risk]
    exact first.reclassified

/-- Every record so far is valid, is kept by the later ones and is counted by its revision. -/
structure Chain (scope : Scope) (writes : List BackendRequest) (last : BackendRequest) : Prop where
  last : writes.getLast? = some last
  valid : ∀ w ∈ writes, w.validProductGate = true ∧ w.action.request = scope.requestId
  kept : writes.Pairwise Preserves
  final : writes.Pairwise fun w _ => terminalState w.state = false
  revision : ∀ i w, writes[i]? = some w → w.revision = min (i + 1) maxWord

theorem terminal_final {p : BackendRequestState} {next : BackendRequestState}
    (h : next ∈ nextStates (some p)) : terminalState p = false := by
  cases p <;> first | rfl | cases h

theorem Chain.first {scope : Scope} {next : BackendRequest} (h : AcceptedRequest scope none next) :
    Chain scope [next] next := by
  refine ⟨rfl, ?_, List.pairwise_singleton .., List.pairwise_singleton .., ?_⟩
  · intro w mem
    rw [List.mem_singleton.mp mem]
    exact ⟨h.gate, h.request⟩
  · intro i w found
    cases i with
    | zero =>
      cases found
      exact h.revision
    | succ i => cases found

theorem Chain.next {scope : Scope} {writes : List BackendRequest} {p next : BackendRequest}
    (h : Chain scope writes p) (accepted : AcceptedRequest scope (some p) next) :
    Chain scope (writes ++ [next]) next := by
  obtain ⟨earlier, split⟩ := List.getLast?_eq_some_iff.mp h.last
  have kept : ∀ w ∈ writes, Preserves w next := by
    intro w mem
    rw [split, List.mem_append, List.mem_singleton] at mem
    rcases mem with mem | rfl
    · have before := h.kept
      rw [split, List.pairwise_append] at before
      exact (before.2.2 w mem p (List.mem_singleton_self p)).trans accepted.preserves
    · exact accepted.preserves
  have open_ : ∀ w ∈ writes, terminalState w.state = false := by
    intro w mem
    rw [split, List.mem_append, List.mem_singleton] at mem
    rcases mem with mem | rfl
    · have before := h.final
      rw [split, List.pairwise_append] at before
      exact before.2.2 w mem p (List.mem_singleton_self p)
    · exact terminal_final accepted.state
  refine ⟨List.getLast?_concat, fun w mem => ?_, ?_, ?_, fun i w found => ?_⟩
  · rw [List.mem_append, List.mem_singleton] at mem
    rcases mem with mem | rfl
    · exact h.valid w mem
    · exact ⟨accepted.gate, accepted.request⟩
  · refine List.pairwise_append.mpr ⟨h.kept, List.pairwise_singleton .., fun w mem v last => ?_⟩
    rw [List.mem_singleton.mp last]
    exact kept w mem
  · exact List.pairwise_append.mpr
      ⟨h.final, List.pairwise_singleton .., fun w mem _ _ => open_ w mem⟩
  · by_cases within : i < writes.length
    · rw [List.getElem?_append_left within] at found
      exact h.revision i w found
    · rw [List.getElem?_append_right (by omega)] at found
      obtain ⟨index, rfl⟩ : i = writes.length ∧ w = next := by
        cases past : i - writes.length with
        | zero =>
          rw [past] at found
          cases found
          exact ⟨by omega, rfl⟩
        | succ n =>
          rw [past] at found
          cases found
      have stored : writes[writes.length - 1]? = some p := by
        rw [← List.getLast?_eq_getElem?]
        exact h.last
      have counted := h.revision _ _ stored
      have revision := accepted.revision
      rw [Option.map_some, Option.getD_some, counted] at revision
      rw [revision]
      unfold saturatingAdd
      have occupied : writes ≠ [] := by
        rintro rfl
        cases h.last
      have := List.length_pos_iff.mpr occupied
      omega

def Chained (scope : Scope) (writes : List BackendRequest) : Option BackendRequest → Prop
  | none => writes = []
  | some last => Chain scope writes last

theorem runs_chain {scope : Scope} {writes : List BackendRequest} {stored : Option BackendRequest}
    (run : Runs (Rewrites scope) none writes stored) : Chained scope writes stored := by
  apply run.history (Chained scope)
  · rfl
  · rintro writes stored next after h ⟨accepted, rfl⟩
    have accepted := (acceptsRequest_ok accepted).2
    cases stored with
    | none =>
      cases h
      exact Chain.first accepted
    | some last => exact Chain.next h accepted

def Answered (r : BackendRequest) (osSession : OsSessionRef) : Prop :=
  ∃ risk answer, r.risk = some risk ∧ risk.level = .two ∧ r.confirmation = some answer ∧
    answer.answers osSession risk r.action = true

def Unconfirmed (r : BackendRequest) : Prop :=
  ∃ risk, r.risk = some risk ∧ risk.level = .one ∧ r.confirmation = none

/-- What holds along the writes of one scope. -/
structure ConfirmationKept (scope : Scope) (writes : List BackendRequest) : Prop where
  confirmed : ∀ w ∈ writes, ∀ context osSession config conversation toolCall,
    w.trigger = .ai context osSession config conversation toolCall → proceedingState w.state = true →
    Answered w osSession ∨ Unconfirmed w
  /-- Only the write that freezes an unsubmitted call may give it a risk without confirmation. -/
  awaited : writes.Pairwise fun w v =>
    w.state = .awaitingConfirmation → proceedingState v.state = true →
    ∃ context osSession config conversation toolCall,
      w.trigger = .ai context osSession config conversation toolCall ∧
      (∃ risk, w.risk = some risk ∧ risk.level = .two) ∧
      (Answered v osSession ∨ (Unconfirmed v ∧ unsubmitted w.action = true))
  final : writes.Pairwise fun w _ => terminalState w.state = false
  revision : ∀ i w, writes[i]? = some w → w.revision = min (i + 1) maxWord
  request : ∀ w ∈ writes, w.action.request = scope.requestId
  kept : writes.Pairwise Preserves

theorem gate_confirmed {w : BackendRequest} {context : NativeContextRef} {osSession : OsSessionRef}
    {config : VersionedRef} {conversation toolCall : Identifier} (gate : w.validProductGate = true)
    (trigger : w.trigger = .ai context osSession config conversation toolCall)
    (proceeds : proceedingState w.state = true) : Answered w osSession ∨ Unconfirmed w := by
  have closed : w.state ≠ .draft := by
    intro draft
    rw [draft] at proceeds
    cases proceeds
  have running : (w.state == .cancelled || w.state == .failed) = false := by
    cases state : w.state <;> rw [state] at proceeds <;> first | rfl | cases proceeds
  unfold BackendRequest.validProductGate at gate
  dsimp only at gate
  rw [if_neg closed, trigger, running] at gate
  dsimp only at gate
  split at gate
  · cases gate
  next risk found =>
  split at gate
  · cases gate
  split at gate
  · next level =>
    rw [Bool.and_eq_true, Option.isNone_iff_eq_none] at gate
    exact .inr ⟨risk, found, level, gate.1⟩
  · next level =>
    split at gate
    · rw [Bool.false_or, beq_iff_eq] at gate
      rw [gate] at proceeds
      cases proceeds
    · next answer confirmed =>
      rw [Bool.and_eq_true] at gate
      exact .inl ⟨risk, answer, found, level, confirmed, gate.1⟩
  · cases gate
  · cases gate

theorem gate_awaiting {w : BackendRequest} (gate : w.validProductGate = true)
    (awaiting : w.state = .awaitingConfirmation) :
    ∃ context osSession config conversation toolCall,
      w.trigger = .ai context osSession config conversation toolCall ∧
      ∃ risk, w.risk = some risk ∧ risk.level = .two := by
  unfold BackendRequest.validProductGate at gate
  dsimp only at gate
  rw [awaiting, if_neg (by decide)] at gate
  cases trigger : w.trigger with
  | automatic =>
    rw [trigger] at gate
    cases gate
  | human osSession =>
    rw [trigger] at gate
    simp at gate
  | ai context osSession config conversation toolCall =>
    rw [trigger] at gate
    refine ⟨context, osSession, config, conversation, toolCall, rfl, ?_⟩
    cases found : w.risk with
    | none =>
      rw [found] at gate
      cases gate
    | some risk =>
      rw [found] at gate
      dsimp only at gate
      split at gate
      · cases gate
      cases level : risk.level with
      | two => exact ⟨risk, rfl, level⟩
      | zero | one | three =>
        rw [level] at gate
        simp at gate

theorem Chain.confirmationKept {scope : Scope} {writes : List BackendRequest} {last : BackendRequest}
    (h : Chain scope writes last) : ConfirmationKept scope writes where
  confirmed w mem context osSession config conversation toolCall trigger proceeds :=
    gate_confirmed (h.valid w mem).1 trigger proceeds
  awaited := by
    have valid : writes.Pairwise fun w v =>
        Preserves w v ∧ w.validProductGate = true ∧ v.validProductGate = true := by
      refine h.kept.imp_of_mem fun memW memV kept => ⟨kept, (h.valid _ memW).1, (h.valid _ memV).1⟩
    refine valid.imp fun {w v} h awaiting proceeds => ?_
    obtain ⟨kept, gateW, gateV⟩ := h
    obtain ⟨context, osSession, config, conversation, toolCall, trigger, risk, found, level⟩ :=
      gate_awaiting gateW awaiting
    refine ⟨context, osSession, config, conversation, toolCall, trigger, ⟨risk, found, level⟩, ?_⟩
    rcases gate_confirmed gateV (kept.trigger.trans trigger) proceeds with answered | unconfirmed
    · exact .inl answered
    · refine .inr ⟨unconfirmed, kept.reclassified.resolve_left fun same => ?_⟩
      obtain ⟨risk', found', level', -⟩ := unconfirmed
      rw [same, found] at found'
      cases found'
      rw [level] at level'
      cases level'
  final := h.final
  revision := h.revision
  request w mem := (h.valid w mem).2
  kept := h.kept

end Chains

section Results
variable [ResourceNaming] [JournalNaming] [RecordEncoding]

/-- The record of every scope is the last of writes that keep its confirmation. -/
theorem confirmation_kept {authority : Authority} {labels : List Operation} {t : Tables}
    (run : Runs Operates (Tables.empty authority) labels t) (scope : Scope) :
    ∃ writes, Runs (Rewrites scope) none writes (Tables.backendRequest t scope) ∧
      ConfirmationKept scope writes := by
  obtain ⟨writes, run⟩ := runs_rewrites run scope
  refine ⟨writes, run, ?_⟩
  have chained := runs_chain run
  cases stored : Tables.backendRequest t scope with
  | none =>
    rw [stored] at chained
    cases chained
    refine ⟨?_, .nil, .nil, ?_, ?_, .nil⟩
    · intro w mem
      cases mem
    · intro i w found
      cases found
    · intro w mem
      cases mem
  | some last =>
    rw [stored] at chained
    exact chained.confirmationKept

end Results

section Samples
open LifecycleRuns
attribute [local instance] sampleResources sampleNaming sampleEncoding

/-- A policy call of an assistant that awaits its confirmation. -/
def awaitingRequest : BackendRequest :=
  let osSession : OsSessionRef :=
    ⟨⟨"device", .refl true⟩, ⟨.macos, ⟨"account", .refl true⟩⟩, ⟨"session", .refl true⟩⟩
  { preparedRequest sampleScope.requestId with
    action := .policy none ⟨⟨"policy", .refl true⟩, ⟨"1", .refl true⟩⟩ 1
      ⟨sampleScope.requestId, ⟨"policy", .refl true⟩, "parameters"⟩ "task" "presentation" none none
      .device 60000
    trigger := .ai ⟨⟨"context", .refl true⟩, ⟨"generation", .refl true⟩⟩ osSession
      ⟨⟨"config", .refl true⟩, ⟨"1", .refl true⟩⟩ ⟨"conversation", .refl true⟩ ⟨"call", .refl true⟩
    risk := some ⟨.two, .policy ⟨⟨"policy", .refl true⟩, ⟨"1", .refl true⟩⟩, 60000⟩
    state := .awaitingConfirmation }

def reclassifiedRequest : BackendRequest :=
  { awaitingRequest with
    risk := some ⟨.one, .policy ⟨⟨"policy", .refl true⟩, ⟨"2", .refl true⟩⟩, 60000⟩
    revision := 2
    state := .ready }

def reclassifyingCalls : List (Environment × Call) :=
  [(sampleEnvironment 1, .backendRequest sampleScope none awaitingRequest),
    (sampleEnvironment 2, .backendRequest sampleScope (some awaitingRequest) reclassifiedRequest)]

theorem confirmation_kept_sample :
    (∃ writes, Runs (Rewrites sampleScope) none writes
        (Tables.backendRequest (performed roomyStore reclassifyingCalls).2.tables sampleScope) ∧
        ConfirmationKept sampleScope writes) ∧
      Tables.backendRequest (performed roomyStore reclassifyingCalls).2.tables sampleScope =
        some reclassifiedRequest :=
  ⟨confirmation_kept (performed_runs reclassifyingCalls roomyStore) sampleScope, by decide +kernel⟩

/-- An awaiting call becomes ready without a confirmation. -/
theorem awaiting_ready_unconfirmed :
    awaitingRequest.state = .awaitingConfirmation ∧ awaitingRequest.risk.map (·.level) = some .two ∧
      (performed roomyStore reclassifyingCalls).1.map (·.result) = [.ok .done, .ok .done] ∧
      ((Tables.backendRequest (performed roomyStore reclassifyingCalls).2.tables sampleScope).map
        fun r => (r.state, r.confirmation)) = some (.ready, none) :=
  ⟨rfl, rfl, by decide +kernel, by decide +kernel⟩

end Samples

end RssMdmAgent.JournalPreparations
