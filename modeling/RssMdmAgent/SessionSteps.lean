import RssMdmAgent.CommitRules
import RssMdmAgent.HandoffRules

set_option autoImplicit false

/-! # Every operation is a commit or a sequence of quiet steps -/

namespace RssMdmAgent.SessionSteps
open BoundedJson OrderedRows SessionRecords SessionValidity SessionState BatchReview BatchCommit
open SessionOperations
open ContractPlan (bind_ok)

variable [RecordHashing] [SurfaceCatalog]

/-- Steps that no provider fact and no answer takes part in. -/
inductive Quiet (s t : SessionWorkspace) : Prop where
  | cancelled {limits : Limits} {batch : SessionCommit} {accepting : Bool}
      (facts : batch.providerFacts = []) (interactions : batch.interactions = [])
      (surfaces : batch.surfaces = [])
      (controls : accepting = true → ∀ c ∈ batch.commands, isCancel c.command.input = true)
      (h : reduceCommit limits s batch accepting true = .ok t)
  | handedOff {limits : Limits} {input : RecoveryUnavailable} {restored : Option VerifiedProviderSession}
      (h : reduceHandoff limits s input restored = .ok t)
  | selected {connectionId : Id} {revision : Nat} {freshContext : Bool}
      (h : selectConnection s connectionId revision freshContext = .ok t)
  | activated {input : StageActivation} (h : activateStage s input = .ok t)
  | retired {limits : Limits} {revision : Nat} {generation : Id}
      (h : retireSession limits s revision generation = .ok t)

/-- A fresh acceptance is the commit of its batch. -/
structure Accepted (limits : Limits) (s : SessionWorkspace) (input : AcceptCommand) (suspending : Bool)
    (t : SessionWorkspace) (stage : ContextStage) (interactions : List Interaction) (answered : List Event) :
    Prop where
  fresh : s.commands.get input.command.commandId = none
  opened : s.session.status ≠ .active → suspending = true
  current : activeStage s.session = .ok stage
  asked : acceptedInteractions s input = .ok interactions
  said : answerEvents s input 0 interactions = .ok answered
  commit : reduceCommit limits s (acceptanceBatch s stage input interactions answered) true suspending = .ok t

theorem reduceAcceptance_ok {limits : Limits} {s t : SessionWorkspace} {input : AcceptCommand}
    {suspending : Bool} {receipt : Receipt}
    (h : reduceAcceptance limits s input suspending = .ok (t, receipt)) :
    t = s ∨ ∃ stage interactions answered, Accepted limits s input suspending t stage interactions answered := by
  unfold reduceAcceptance at h
  obtain ⟨_, -, h⟩ := bind_ok.mp h
  obtain ⟨_, -, h⟩ := bind_ok.mp h
  obtain ⟨_, -, h⟩ := bind_ok.mp h
  obtain ⟨_, -, h⟩ := bind_ok.mp h
  obtain ⟨_, -, h⟩ := bind_ok.mp h
  split at h
  · obtain ⟨_, -, h⟩ := bind_ok.mp h
    obtain ⟨_, -, h⟩ := bind_ok.mp h
    cases h
    exact .inl rfl
  · rename_i fresh
    unfold acceptFresh at h
    obtain ⟨_, opened, h⟩ := bind_ok.mp h
    obtain ⟨_, -, h⟩ := bind_ok.mp h
    obtain ⟨_, -, h⟩ := bind_ok.mp h
    obtain ⟨_, -, h⟩ := bind_ok.mp h
    obtain ⟨_, -, h⟩ := bind_ok.mp h
    obtain ⟨stage, current, h⟩ := bind_ok.mp h
    obtain ⟨interactions, asked, h⟩ := bind_ok.mp h
    obtain ⟨answered, said, h⟩ := bind_ok.mp h
    obtain ⟨next, commit, h⟩ := bind_ok.mp h
    cases h
    rw [refuse_ok] at opened
    refine .inr ⟨stage, interactions, answered, fresh, fun inactive => ?_, current, asked, said, commit⟩
    by_contra awake
    exact opened ⟨inactive, fun suspended => awake suspended.1⟩

/-- The effect of one operation. -/
inductive Applied (q : Request) (s t : SessionWorkspace) : Prop where
  | kept (same : t = s)
  | accepted {input : AcceptCommand} {stage : ContextStage} {interactions : List Interaction}
      {answered : List Event} (named : q.operation = .accept input)
      (h : Accepted q.limits s input false t stage interactions answered)
  | committed {batch : SessionCommit} (named : q.operation = .commit batch)
      (h : reduceCommit q.limits s batch false false = .ok t)
  | quiet (h : Relation.ReflTransGen Quiet s t)

omit [RecordHashing] [SurfaceCatalog] in
theorem foldlM_chain {π ρ ε : Type} {step : π → ρ → Except ε π} {R : π → π → Prop}
    (steps : ∀ p row p', step p row = .ok p' → Relation.ReflTransGen R p p') :
    ∀ {list : List ρ} {p p' : π}, list.foldlM step p = .ok p' → Relation.ReflTransGen R p p'
  | [], _, _, h => by
    cases h
    exact .refl
  | row :: rest, p, p', h => by
    rw [List.foldlM_cons] at h
    obtain ⟨middle, first, h⟩ := bind_ok.mp h
    exact (steps p row middle first).trans (foldlM_chain steps h)

theorem cancelQueued_quiet {limits : Limits} {input : SessionSuspension} {generation : Id}
    {next later : SessionWorkspace} {target : CommandRecord}
    (h : cancelQueued limits input generation next target = .ok later) :
    Relation.ReflTransGen Quiet next later := by
  unfold cancelQueued at h
  split at h
  · cases h
    exact .refl
  · obtain ⟨⟨middle, receipt⟩, accepted, h⟩ := bind_ok.mp h
    dsimp only at h
    split at h
    · cases h
    · rename_i cancel found
      refine .tail ?_ (.cancelled rfl rfl rfl (fun accepting => by cases accepting) h)
      rcases reduceAcceptance_ok accepted with rfl | ⟨stage, interactions, answered, accepted⟩
      · exact .refl
      · have none := accepted.asked
        cases none
        refine .single (.cancelled rfl rfl rfl (fun _ c mem => ?_) accepted.commit)
        rw [List.mem_singleton.mp mem]
        rfl

theorem suspendSession_quiet {limits : Limits} {s t : SessionWorkspace} {input : SessionSuspension}
    (h : suspendSession limits s input = .ok t) : Relation.ReflTransGen Quiet s t := by
  unfold suspendSession at h
  obtain ⟨_, -, h⟩ := bind_ok.mp h
  obtain ⟨_, -, h⟩ := bind_ok.mp h
  obtain ⟨_, -, h⟩ := bind_ok.mp h
  split at h
  · cases h
    exact .refl
  · obtain ⟨stage, -, h⟩ := bind_ok.mp h
    obtain ⟨_, -, h⟩ := bind_ok.mp h
    obtain ⟨next, cancelled, h⟩ := bind_ok.mp h
    have cancelled := foldlM_chain (fun _ _ _ step => cancelQueued_quiet step) cancelled
    split at h
    · exact cancelled.tail (.handedOff h)
    · cases h
      exact cancelled

theorem apply_cases {q : Request} {s t : SessionWorkspace} (h : q.apply s = .ok t) : Applied q s t := by
  unfold Request.apply at h
  split at h
  · rename_i input named
    unfold acceptCommand at h
    cases accepted : reduceAcceptance q.limits s input false with
    | error e =>
      rw [accepted] at h
      cases h
    | ok result =>
      obtain ⟨next, receipt⟩ := result
      rw [accepted] at h
      cases h
      rcases reduceAcceptance_ok accepted with same | ⟨stage, interactions, answered, accepted⟩
      · exact .kept same
      · exact .accepted named accepted
  · rename_i batch named
    exact .committed named h
  · exact .quiet (.single (.handedOff h))
  · exact .quiet (.single (.handedOff h))
  · exact .quiet (suspendSession_quiet h)
  · exact .quiet (.single (.selected h))
  · exact .quiet (.single (.activated h))
  · exact .quiet (.single (.retired h))

end RssMdmAgent.SessionSteps
