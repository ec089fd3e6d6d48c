import RssMdmAgent.SessionFences

set_option autoImplicit false

/-! # What passes the fence of a login session -/

namespace RssMdmAgent.SessionFences
open TransitionRuns

def fencedFor (record : BackendRequest) : Option (SessionKey × ContextRef) :=
  match record.action, record.trigger with
  | .policy (.user sessionBinding) none, .human login | .policy (.user sessionBinding) none, .ai login _ =>
    some (login.scope, sessionBinding)
  | .other, .ai login context => some (login.scope, context)
  | _, _ => none

def exclusive (contexts : Contexts) (record : BackendRequest) : Bool :=
  match record.action, record.trigger with
  | .other, .ai login context => contexts.all fun row => row.2.context ≠ context || row.2.scope = login.scope
  | _, _ => true

section Lookups
variable {core : Core} {now later : Nat} {record : BackendRequest} {scope : SessionKey} {ref : ContextRef}
  {admission : Option (SessionKey × Nat)}

theorem mem_of_find {p : String × NativeContext → Bool} {row : String × NativeContext} {contexts : Contexts}
    (h : contexts.find? p = some row) : row ∈ contexts ∧ p row = true :=
  ⟨List.mem_of_find?_eq_some h, List.find?_some h⟩

def Live (core : Core) (now : Nat) (scope : SessionKey) (ref : ContextRef) : Prop :=
  ∃ row ∈ core.contexts, row.2.scope = scope ∧ row.2.context = ref ∧ core.fences scope = row.2.epoch ∧
    now < row.2.session.expiresAt

theorem requireOriginContext_ok {subject session : Id} (h : requireOriginContext core now subject session ref = .ok ()) :
    ∃ row ∈ core.contexts, row.2.context = ref ∧ row.2.scope.binding = session ∧
      core.fences row.2.scope = row.2.epoch ∧ now < row.2.session.expiresAt := by
  unfold requireOriginContext at h
  split at h
  · cases h
  rename_i key bound found
  split at h
  · cases h
  rename_i current
  split at h
  · cases h
  rename_i live
  obtain ⟨mem, same⟩ := mem_of_find found
  simp only [Bool.and_eq_true, decide_eq_true_eq] at same
  exact ⟨_, mem, same.2, same.1.2, not_not.mp current, Nat.lt_of_not_le live⟩

theorem policyContext_ok {login : OsSession} {runId : Option Id} {bound : Option NativeContext}
    (trigger : record.trigger = .human login ∨ ∃ context, record.trigger = .ai login context)
    (action : record.action = .policy (.user ref) runId) (h : policyContext core now record = .ok bound) :
    ∃ row ∈ core.contexts, bound = some row.2 ∧ row.2.scope = login.scope ∧ row.2.context = ref ∧
      core.fences login.scope = row.2.epoch ∧ now < row.2.session.expiresAt := by
  unfold policyContext at h
  split at h
  · cases h
  rcases trigger with trigger | ⟨context, trigger⟩
  all_goals
    rw [trigger] at h
    dsimp only at h
    split at h
    · cases h
    rw [action] at h
    dsimp only at h
    split at h
    · cases h
    rename_i key current found
    split at h
    · cases h
    rename_i epoch
    split at h
    · cases h
    rename_i live
    obtain ⟨mem, same⟩ := mem_of_find found
    simp only [Bool.and_eq_true, decide_eq_true_eq] at same
    exact ⟨_, mem, (Except.ok.inj h).symm, same.1, same.2, not_not.mp epoch, Nat.lt_of_not_le live⟩

theorem currentPolicyContext_ok {bound : Option NativeContext} (h : currentPolicyContext core now later record = .ok bound) :
    policyContext core now record = .ok bound := by
  unfold currentPolicyContext at h
  split at h
  · cases h
  rename_i found
  split at h
  · cases h
  · exact found.trans h

/-- The fence of a record is that of its own session, at the epoch of a context that it names. -/
theorem policyFence_exact (fenced : fencedFor record = some (scope, ref)) (alone : exclusive core.contexts record = true)
    (h : policyFence core now later record = .ok admission) :
    ∃ row ∈ core.contexts, admission = some (scope, row.2.epoch) ∧ row.2.scope = scope ∧ row.2.context = ref ∧
      Live core now scope ref := by
  unfold fencedFor at fenced
  unfold exclusive at alone
  unfold policyFence at h
  have policy {login : OsSession} (trigger : record.trigger = .human login ∨ ∃ context, record.trigger = .ai login context)
      (action : record.action = .policy (.user ref) none) (named : login.scope = scope) :
      ∃ row ∈ core.contexts, admission = some (scope, row.2.epoch) ∧ row.2.scope = scope ∧ row.2.context = ref ∧
        Live core now scope ref := by
    rw [action] at h
    dsimp only at h
    split at h
    · cases h
    rename_i context found
    obtain ⟨row, mem, rfl, owner, same, epoch, live⟩ := policyContext_ok trigger action (currentPolicyContext_ok found)
    cases h
    subst named
    refine ⟨row, mem, ?_, owner, same, row, mem, owner, same, epoch, live⟩
    rw [Option.map_some, owner]
  split at fenced
  · rename_i action trigger
    cases fenced
    exact policy (.inl trigger) action rfl
  · rename_i action trigger
    cases fenced
    exact policy (.inr ⟨_, trigger⟩) action rfl
  · rename_i login context action trigger
    cases fenced
    rw [action, trigger] at alone h
    dsimp only at alone h
    have owned : ∀ row ∈ core.contexts, row.2.context = ref → row.2.scope = login.scope := by
      intro row mem named
      simpa [named] using List.all_eq_true.mp alone row mem
    split at h
    · cases h
    rename_i required
    obtain ⟨first, stored, named, -, epoch, live⟩ := requireOriginContext_ok required
    split at h
    · cases h
    rename_i found
    obtain ⟨mem, same⟩ := mem_of_find found
    cases h
    have context := of_decide_eq_true same
    refine ⟨_, mem, ?_, owned _ mem context, context, first, stored, owned _ stored named, named, ?_, live⟩
    · rw [← owned _ mem context]
    · rw [← owned _ stored named]
      exact epoch
  · cases fenced

end Lookups

/-! ## Runs -/

def LastBound (labels : List Label) (scope : SessionKey) (ref : ContextRef) : Prop :=
  ∃ before caller value expected now after, labels = before ++ .bound caller value expected now ref :: after ∧
    caller.scope = scope ∧ .revoked scope ∉ after

structure Sound (labels : List Label) (fences : SessionKey → Nat) (scope : SessionKey) (epoch : Nat) (ref : ContextRef) :
    Prop where
  bounded : epoch ≤ fences scope
  current : epoch = fences scope → LastBound labels scope ref

section Steps
variable {labels : List Label} {label : Label} {s t : System} {scope : SessionKey} {epoch : Nat} {ref : ContextRef}

theorem LastBound.append (bound : LastBound labels scope ref) (quiet : label ≠ .revoked scope) :
    LastBound (labels ++ [label]) scope ref := by
  obtain ⟨before, caller, value, expected, now, after, rfl, owner, silent⟩ := bound
  refine ⟨before, caller, value, expected, now, after ++ [label], by simp, owner, fun mem => ?_⟩
  rcases List.mem_append.mp mem with mem | mem
  · exact silent mem
  · exact quiet (List.mem_singleton.mp mem).symm

/-- Only a revoke moves a fence, and only that of its session. -/
theorem step_fences (h : Step s label t) : t.core.fences = match label with
    | .revoked key => Function.update s.core.fences key (s.core.fences key + 1)
    | _ => s.core.fences := by
  unfold Step System.perform at h
  cases label with
  | call key | host revoked stopping =>
    cases h
    rfl
  | revoked key | rejected key =>
    dsimp only at h
    split at h
    · cases h
      rfl
    · cases h
  | bound caller value expected now context =>
    dsimp only at h
    split at h
    case isFalse => cases h
    split at h
    · rename_i core issued same
      split at h
      · cases h
        unfold bindContext at same
        repeat' split at same
        all_goals cases same
        rfl
      · cases h
    · cases h
  | fence record now later =>
    dsimp only at h
    split at h
    case isFalse => cases h
    split at h <;> cases h <;> rfl
  | letIn =>
    dsimp only at h
    split at h
    · cases h
      rfl
    · split at h <;> cases h <;> rfl
    · cases h
  | finish =>
    dsimp only at h
    split at h <;> cases h
    rfl

theorem Sound.step (sound : Sound labels s.core.fences scope epoch ref) (h : Step s label t) :
    Sound (labels ++ [label]) t.core.fences scope epoch ref := by
  have quiet (same : t.core.fences scope = s.core.fences scope) (other : label ≠ .revoked scope) :
      Sound (labels ++ [label]) t.core.fences scope epoch ref :=
    ⟨same ▸ sound.bounded, fun current => (sound.current (current.trans same)).append other⟩
  have fences := step_fences h
  cases label with
  | revoked key =>
    dsimp only at fences
    by_cases same : scope = key
    · subst same
      have moved : t.core.fences scope = s.core.fences scope + 1 := by rw [fences, Function.update_self]
      have bounded := sound.bounded
      exact ⟨by omega, fun current => by omega⟩
    · apply quiet
      · rw [fences, Function.update_of_ne same]
      · intro equal
        cases equal
        exact same rfl
  | call | rejected | bound | fence | letIn | finish | host => exact quiet (congrFun fences scope) Label.noConfusion

theorem mem_insertContext {key : String} {bound : NativeContext} {row : String × NativeContext} {contexts : Contexts}
    (mem : row ∈ insertContext key bound contexts) : row = (key, bound) ∨ row ∈ contexts := by
  induction contexts with
  | nil => exact .inl (List.mem_singleton.mp mem)
  | cons head rest ih =>
    obtain ⟨other, old⟩ := head
    unfold insertContext at mem
    split at mem
    · exact (List.mem_cons.mp mem).imp_right (List.mem_cons_of_mem _)
    split at mem
    · exact List.mem_cons.mp mem
    · rcases List.mem_cons.mp mem with rfl | mem
      · exact .inr List.mem_cons_self
      · exact (ih mem).imp_right (List.mem_cons_of_mem _)

theorem bindContext_ok {core core' : Core} {caller : Caller} {value : NativeSession} {expected : Option Id} {now : Nat}
    (h : bindContext core now caller value expected = .ok (core', ref)) : core.fences caller.scope = caller.fenceEpoch ∧
      core' = { core with contexts := insertContext (peerKey caller) ⟨value, caller.scope, caller.fenceEpoch, ref⟩ core.contexts } := by
  unfold bindContext at h
  split at h
  · cases h
  split at h
  · cases h
  split at h
  · cases h
  split at h
  · cases h
  rename_i current
  split at h
  · cases h
  · cases h
    exact ⟨not_not.mp current, rfl⟩

def Pending (labels : List Label) (s : System) (record : BackendRequest) (admission : Option (SessionKey × Nat)) : Prop :=
  ∀ scope ref, fencedFor record = some (scope, ref) →
    ∃ epoch, admission = some (scope, epoch) ∧ Sound labels s.core.fences scope epoch ref

structure Guarded (labels : List Label) (s : System) : Prop where
  rows : ∀ row ∈ s.core.contexts, Sound labels s.core.fences row.2.scope row.2.epoch row.2.context
  fenced : ∀ record admission, s.phase = .fenced record admission → Pending labels s record admission
  delivering : ∀ record admission, s.phase = .delivering record admission → Pending labels s record admission ∧
    ∀ key epoch, admission = some (key, epoch) → epoch = s.core.fences key

def meets (s : System) : Label → Bool
  | .fence record _ _ => exclusive s.core.contexts record
  | _ => true

def System.performAlone (s : System) (label : Label) : Option System := if meets s label then s.perform label else none

def ExclusiveStep (s : System) (label : Label) (t : System) : Prop := s.performAlone label = some t

theorem exclusiveStep_iff : ExclusiveStep s label t ↔ Step s label t ∧ meets s label = true := by
  unfold ExclusiveStep System.performAlone Step
  split
  · rename_i alone
    simp [alone]
  · rename_i shared
    simp [shared]

theorem Pending.step {record : BackendRequest} {admission : Option (SessionKey × Nat)} (pending : Pending labels s record admission)
    (h : Step s label t) : Pending (labels ++ [label]) t record admission := by
  intro scope ref fenced
  obtain ⟨epoch, same, sound⟩ := pending scope ref fenced
  exact ⟨epoch, same, sound.step h⟩

theorem Guarded.quiet (g : Guarded labels s) (h : Step s label t) (contexts : t.core.contexts = s.core.contexts)
    (phase : t.phase = s.phase) (held : ∀ key, label = .revoked key → s.phase.holds = false) : Guarded (labels ++ [label]) t := by
  refine ⟨fun row mem => (g.rows row (contexts ▸ mem)).step h, fun record admission same => ?_, fun record admission same => ?_⟩
  · exact (g.fenced record admission (phase ▸ same)).step h
  · obtain ⟨pending, current⟩ := g.delivering record admission (phase ▸ same)
    refine ⟨pending.step h, fun key epoch named => ?_⟩
    have fences := step_fences h
    cases label with
    | revoked other =>
      have free := held other rfl
      have before : s.phase = .delivering record admission := phase ▸ same
      rw [before, named] at free
      cases free
    | call | rejected | bound | fence | letIn | finish | host => exact (current key epoch named).trans (congrFun fences key).symm

theorem step_guarded (g : Guarded labels s) (h : ExclusiveStep s label t) : Guarded (labels ++ [label]) t := by
  obtain ⟨h, alone⟩ := exclusiveStep_iff.mp h
  have step := h
  unfold Step System.perform at h
  cases label with
  | call key | host revoked stopping =>
    cases h
    exact g.quiet step rfl rfl fun _ => Label.noConfusion
  | revoked key =>
    dsimp only at h
    split at h
    · rename_i ready
      cases h
      exact g.quiet step rfl rfl fun _ _ => ready.2.1
    · cases h
  | rejected key =>
    dsimp only at h
    split at h
    · cases h
      exact g.quiet step rfl rfl fun _ => Label.noConfusion
    · cases h
  | bound caller value expected now context =>
    dsimp only at h
    split at h
    case isFalse => cases h
    rename_i idle
    split at h
    case h_2 => cases h
    rename_i core issued same
    split at h
    case isFalse => cases h
    rename_i agreed
    cases h
    subst agreed
    obtain ⟨current, rfl⟩ := bindContext_ok same
    refine ⟨fun row mem => ?_, fun record admission phase => ?_, fun record admission phase => ?_⟩
    · rcases mem_insertContext mem with rfl | mem
      · refine ⟨Nat.le_of_eq current.symm, fun _ => ?_⟩
        exact ⟨labels, caller, value, expected, now, [], rfl, rfl, List.not_mem_nil⟩
      · exact (g.rows row mem).step step
    all_goals
      have other : s.phase = _ := phase
      rw [idle] at other
      cases other
  | fence record now later =>
    dsimp only at h
    split at h
    case isFalse => cases h
    rename_i idle
    split at h
    · rename_i admission found
      cases h
      refine ⟨fun row mem => (g.rows row mem).step step, fun record' admission' phase => ?_, fun record' admission' phase => ?_⟩
      · cases phase
        intro scope ref fenced
        obtain ⟨row, mem, same, owner, named, -⟩ := policyFence_exact fenced alone found
        refine ⟨row.2.epoch, same, ?_⟩
        have sound := (g.rows row mem).step step
        rwa [owner, named] at sound
      · cases phase
    · cases h
      exact g.quiet step rfl rfl fun _ => Label.noConfusion
  | letIn =>
    dsimp only at h
    split at h
    · rename_i record phase
      cases h
      refine ⟨fun row mem => (g.rows row mem).step step, fun record' admission' phase' => ?_, fun record' admission' phase' => ?_⟩
      · cases phase'
      · cases phase'
        refine ⟨(g.fenced record none phase).step step, fun key epoch same => ?_⟩
        cases same
    · rename_i record key epoch phase
      split at h
      · rename_i current
        cases h
        refine ⟨fun row mem => (g.rows row mem).step step, fun record' admission' phase' => ?_, fun record' admission' phase' => ?_⟩
        · cases phase'
        · cases phase'
          refine ⟨(g.fenced record _ phase).step step, fun key' epoch' same => ?_⟩
          cases same
          exact current.symm
      · cases h
        refine ⟨fun row mem => (g.rows row mem).step step, fun record' admission' phase' => ?_, fun record' admission' phase' => ?_⟩
        all_goals cases phase'
    · cases h
  | finish =>
    dsimp only at h
    split at h
    · cases h
      refine ⟨fun row mem => (g.rows row mem).step step, fun record' admission' phase' => ?_, fun record' admission' phase' => ?_⟩
      all_goals cases phase'
    · cases h

theorem run_guarded {device : Id} {platform : Platform} (run : Runs ExclusiveStep (.start device platform) labels s) :
    Guarded labels s := by
  apply run.history Guarded
  · exact ⟨fun _ mem => absurd mem List.not_mem_nil, fun _ _ => Phase.noConfusion, fun _ _ => Phase.noConfusion⟩
  · exact fun _ _ _ _ g h => step_guarded g h

/-- A delivery that holds the fences ends before any revoke returns. -/
theorem held_until_finish {key : SessionKey} {u : System} (held : s.phase.holds = true) (run : Runs Step s labels t)
    (revoked : Step t (.revoked key) u) : .finish ∈ labels := by
  have kept : .finish ∈ labels ∨ t.phase.holds = true := by
    apply run.history fun labels t => .finish ∈ labels ∨ t.phase.holds = true
    · exact .inr held
    intro done t label u before h
    rcases before with ended | holds
    · exact .inl (List.mem_append_left _ ended)
    unfold Step System.perform at h
    cases label with
    | finish => exact .inl (List.mem_append_right _ List.mem_cons_self)
    | call key | host revoked stopping =>
      cases h
      exact .inr holds
    | revoked key | rejected key =>
      dsimp only at h
      split at h
      · cases h
        exact .inr holds
      · cases h
    | bound caller value expected now context | fence record now later =>
      dsimp only at h
      split at h
      · rename_i idle
        rw [idle] at holds
        cases holds
      · cases h
    | letIn =>
      dsimp only at h
      split at h
      · rename_i phase
        rw [phase] at holds
        cases holds
      · rename_i phase
        rw [phase] at holds
        cases holds
      · cases h
  refine kept.resolve_right fun holds => ?_
  unfold Step System.perform at revoked
  dsimp only at revoked
  split at revoked
  · rename_i ready
    rw [ready.2.1] at holds
    cases holds
  · cases revoked

end Steps

section Claims

def offerOf (subject session : Id) (context : ContextRef) : BackendRequest :=
  ⟨.ai ⟨"d", .macos, subject, session⟩ context, .other, 100⟩

def bindOf (subject : String) (binding : Id) (epoch : Nat) : Label :=
  .bound ⟨subject, 1, binding, epoch⟩ ⟨none, "g", 100⟩ none 1 ⟨"g", "g"⟩

def revokeOf (subject : String) (binding : Id) : List Label := [.call ⟨subject, binding⟩, .revoked ⟨subject, binding⟩]

def submitOf (subject session : Id) : List Label := [.fence (offerOf subject session ⟨"g", "g"⟩) 2 2, .letIn]

end Claims

end RssMdmAgent.SessionFences
