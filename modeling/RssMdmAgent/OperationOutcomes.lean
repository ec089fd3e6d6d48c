import RssMdmAgent.OperationExecution

set_option autoImplicit false

/-! # An unknown outcome blocks every event but a refresh -/

namespace RssMdmAgent.OperationExecution
open TransitionRuns

section Merges
variable {scope : OperationScope} {e m : Execution} {snapshot : Option OperationSnapshot} {queried fresh : Bool}

theorem merge_cases (h : e.merge scope snapshot queried = some (m, fresh)) :
    ∃ next, snapshot = some next ∧ next.scope = scope ∧
      ((next.revision < e.snapshot.revision ∧ m = e ∧ fresh = false) ∨
        (e.snapshot.revision ≤ next.revision ∧ fresh = true ∧
          m = { e with snapshot := next, unknown := e.unknown && !e.clears next queried })) := by
  unfold Execution.merge at h
  split at h
  · cases h
  rename_i next
  split at h
  · cases h
  rename_i same
  refine ⟨next, rfl, not_not.mp same, ?_⟩
  split at h
  · rename_i stale
    cases h
    exact .inl ⟨stale, rfl, rfl⟩
  · rename_i current
    cases h
    exact .inr ⟨Nat.le_of_not_lt current, rfl, rfl⟩

theorem clears_iff {next : OperationSnapshot} : e.clears next queried = true ↔
    queried = true ∧ e.unknownRevision < next.revision ∧ e.busy = false ∧ e.unknown = true ∧ next.phase ≠ .unknown := by
  unfold Execution.clears
  simp only [Bool.and_eq_true, Bool.not_eq_true', decide_eq_true_eq]
  tauto

end Merges

def Execution.Unknown (e : Execution) (r : Int) : Prop :=
  e.unknown = true ∧ r ≤ e.unknownRevision ∧ e.unknownRevision ≤ e.snapshot.revision

structure Blocked (r : Int) (s : System) : Prop where
  execution : ∃ e, s.execution = some e ∧ e.Unknown r
  pending : ∀ act ∈ s.pending, act.generation = s.generation → act.kind = .refresh

/-- What ends an unknown outcome: a query of a later revision, the end of a refresh, or new drafts. -/
def Releases (scope : OperationScope) (r : Int) : Label → Prop
  | .observe _ snapshot queried => queried = true ∧
      ∃ next, snapshot = some next ∧ next.scope = scope ∧ r < next.revision ∧ next.phase ≠ .unknown
  | .reply act outcome => act.kind = .refresh ∧ (outcome = .rejected ∨
      ∃ next, outcome = .snapshot (some next) ∧ next.scope = scope ∧ r ≤ next.revision ∧ next.phase ≠ .unknown)
  | .clear => True
  | _ => False

def Sends : Label → Prop
  | .act _ kind _ _ _ => kind ≠ .refresh
  | _ => False

structure Serial (s : System) : Prop where
  past : ∀ act ∈ s.pending, act.generation ≤ s.generation
  busy : ∀ act ∈ s.pending, act.generation = s.generation → ∃ e, s.execution = some e ∧ e.busy = true
  one : (s.pending.filter fun act => decide (act.generation = s.generation)).length ≤ 1

section Executions
variable {scope : OperationScope} {e : Execution} {r : Int}

theorem unknown_setUnknown (late : r ≤ e.snapshot.revision) : (e.setUnknown true).Unknown r :=
  ⟨rfl, late, Int.le_refl _⟩

theorem Execution.Unknown.merge {m : Execution} {snapshot : Option OperationSnapshot} {queried fresh : Bool}
    (unknown : e.Unknown r) (h : e.merge scope snapshot queried = some (m, fresh)) :
    m.Unknown r ∨ (queried = true ∧ ∃ next, snapshot = some next ∧ next.scope = scope ∧ r < next.revision ∧ next.phase ≠ .unknown) := by
  obtain ⟨next, rfl, same, ⟨-, rfl, -⟩ | ⟨later, -, rfl⟩⟩ := merge_cases h
  · exact .inl unknown
  · obtain ⟨flag, since, before⟩ := unknown
    cases clears : e.clears next queried with
    | false =>
      refine .inl ⟨?_, since, ?_⟩
      · rw [flag]
        rfl
      · dsimp only
        omega
    | true =>
      obtain ⟨asked, greater, -, -, phase⟩ := clears_iff.mp clears
      exact .inr ⟨asked, next, rfl, same, by omega, phase⟩

theorem Execution.Unknown.settle (scope : OperationScope) (outcome : Outcome) (unknown : e.Unknown r) :
    (e.settle scope .refresh outcome).Unknown r ∨ outcome = .rejected ∨
      ∃ next, outcome = .snapshot (some next) ∧ next.scope = scope ∧ r ≤ next.revision ∧ next.phase ≠ .unknown := by
  have late : r ≤ e.snapshot.revision := Int.le_trans unknown.2.1 unknown.2.2
  have failed : e.fail .refresh = e.setUnknown true := by
    unfold Execution.fail
    rw [unknown.1]
    rfl
  cases outcome with
  | rejected => exact .inr (.inl rfl)
  | failed =>
    refine .inl ?_
    show (e.fail .refresh).Unknown r
    rw [failed]
    exact unknown_setUnknown late
  | snapshot snapshot =>
    unfold Execution.settle
    dsimp only
    split
    · rename_i merged h
      obtain ⟨next, rfl, same, ⟨-, -, impossible⟩ | ⟨later, -, rfl⟩⟩ := merge_cases h
      · cases impossible
      · by_cases phase : next.phase = .unknown
        · refine .inl ?_
          show (Execution.setUnknown _ (decide (next.phase = .unknown))).Unknown r
          rw [decide_eq_true phase]
          exact unknown_setUnknown (by dsimp only; omega)
        · exact .inr (.inr ⟨next, rfl, same, by omega, phase⟩)
    · refine .inl ?_
      show (e.fail .refresh).Unknown r
      rw [failed]
      exact unknown_setUnknown late

theorem sends_refresh {disposed : Bool} {form : Form} {now : Int} {kind : EventKind} {answer : Option String}
    (sent : sends e disposed form now kind answer = true) : e.busy = false ∧ (e.unknown = true → kind = .refresh) := by
  unfold sends can at sent
  simp only [Bool.and_eq_true, Bool.or_eq_true, Bool.not_eq_true', decide_eq_true_eq] at sent
  obtain ⟨⟨⟨⟨⟨⟨⟨-, idle⟩, -⟩, -⟩, -⟩, known⟩, -⟩, -⟩ := sent
  refine ⟨idle, fun unknown => ?_⟩
  rcases known with refresh | ⟨⟨⟨known, -⟩, -⟩, -⟩
  · exact refresh
  · rw [unknown] at known
    cases known

end Executions

section Steps
variable {scope : OperationScope} {s t : System} {label : Label} {r : Int} {c : Controller}

theorem create_cases {initial : OperationSnapshot} (h : s.create scope initial = some t) :
    ∃ first m fresh, (s.execution.getD ⟨initial, false, false, -1⟩).merge scope (some first) false = some (m, fresh) ∧
      t = { s with execution := some m, controllers := s.controllers ++ [⟨s.generation, false⟩] } := by
  unfold System.create at h
  split at h
  · cases h
  obtain ⟨⟨m, fresh⟩, merged, rfl⟩ := Option.map_eq_some_iff.mp h
  exact ⟨_, m, fresh, merged, rfl⟩

theorem act_cases {kind : EventKind} {answer : Option String} {form : Form} {now : Int}
    (h : s.act c kind answer form now = some t) : c.generation = s.generation ∧ ∃ e, s.execution = some e ∧
      sends e c.disposed form now kind answer = true ∧
      t = { s with execution := some { e with busy := true }, pending := s.pending ++ [⟨c.generation, kind⟩] } := by
  unfold System.act System.shared at h
  obtain ⟨e, shared, h⟩ := Option.bind_eq_some_iff.mp h
  split at shared
  · rename_i same
    split at h
    · rename_i sent
      cases h
      exact ⟨same, e, shared, sent, rfl⟩
    · cases h
  · cases shared

theorem reply_cases {act : Pending} {outcome : Outcome} (h : s.reply scope act outcome = some t) : act ∈ s.pending ∧
    ((act.generation = s.generation ∧ t = { s with
        pending := s.pending.erase act, execution := s.execution.map fun e => e.settle scope act.kind outcome }) ∨
      (act.generation ≠ s.generation ∧ t = { s with pending := s.pending.erase act })) := by
  unfold System.reply at h
  split at h
  · rename_i mem
    refine ⟨mem, ?_⟩
    dsimp only at h
    split at h
    · rename_i same
      cases h
      exact .inl ⟨same, rfl⟩
    · rename_i differ
      cases h
      exact .inr ⟨differ, rfl⟩
  · cases h

theorem observe_cases (scope : OperationScope) (s : System) (c : Controller) (snapshot : Option OperationSnapshot) (queried : Bool) :
    s.observe scope c snapshot queried = s ∨
    ∃ e, s.execution = some e ∧ ((∃ m fresh, e.merge scope snapshot queried = some (m, fresh) ∧
        s.observe scope c snapshot queried = { s with execution := some m }) ∨
      (e.merge scope snapshot queried = none ∧ s.observe scope c snapshot queried = { s with execution := some (e.setUnknown true) })) := by
  unfold System.observe
  split
  · exact .inl rfl
  split
  · exact .inl rfl
  cases shared : s.execution with
  | none =>
    refine .inl ?_
    rw [Option.map_none, ← shared]
  | some e =>
    refine .inr ⟨e, rfl, ?_⟩
    rw [Option.map_some]
    cases merged : e.merge scope snapshot queried with
    | none => exact .inr ⟨rfl, rfl⟩
    | some pair => exact .inl ⟨pair.1, pair.2, rfl, rfl⟩

theorem update_cases (scope : OperationScope) (s : System) (c : Controller) (snapshot : Option OperationSnapshot) :
    s.update scope c snapshot = s ∨
    ∃ e m fresh, s.execution = some e ∧ e.merge scope snapshot false = some (m, fresh) ∧
      s.update scope c snapshot = { s with execution := some m } := by
  unfold System.update
  split
  · exact .inl rfl
  split
  · exact .inl rfl
  cases shared : s.execution with
  | none =>
    refine .inl ?_
    rw [Option.map_none, ← shared]
  | some e =>
    cases merged : e.merge scope snapshot false with
    | none =>
      refine .inl ?_
      rw [Option.map_some, merged, Option.map_none, Option.getD_none, ← shared]
    | some pair =>
      refine .inr ⟨e, pair.1, pair.2, rfl, merged, ?_⟩
      rw [Option.map_some, merged]
      rfl

theorem invalidate_cases (s : System) (c : Controller) : s.invalidate c = s ∨
    ∃ e, s.execution = some e ∧ s.invalidate c = { s with execution := some (e.setUnknown true) } := by
  unfold System.invalidate
  split
  · exact .inl rfl
  split
  · exact .inl rfl
  cases shared : s.execution with
  | none =>
    refine .inl ?_
    rw [Option.map_none, ← shared]
  | some e => exact .inr ⟨e, rfl, rfl⟩

end Steps

section Runs
variable {scope : OperationScope} {s t : System} {label : Label} {r : Int}

theorem Blocked.replace {m : Execution} (blocked : Blocked r s) (unknown : m.Unknown r) :
    Blocked r { s with execution := some m } := ⟨⟨m, rfl, unknown⟩, blocked.pending⟩

/-- While an outcome is unknown a step ends it, or keeps it and sends no event but a refresh. -/
theorem blocked_step (blocked : Blocked r s) (h : Step scope s label t) :
    Releases scope r label ∨ (Blocked r t ∧ ¬ Sends label) := by
  obtain ⟨e, shared, unknown⟩ := blocked.execution
  cases label with
  | create initial =>
    obtain ⟨first, m, fresh, merged, rfl⟩ := create_cases h
    rw [shared, Option.getD_some] at merged
    rcases unknown.merge merged with still | ⟨asked, -⟩
    · exact .inr ⟨⟨⟨m, rfl, still⟩, blocked.pending⟩, not_false⟩
    · cases asked
  | act i kind answer form now =>
    obtain ⟨c, -, h⟩ := Option.bind_eq_some_iff.mp h
    obtain ⟨-, e', same, sent, rfl⟩ := act_cases h
    cases shared.symm.trans same
    have refresh := (sends_refresh sent).2 unknown.1
    refine .inr ⟨⟨⟨_, rfl, unknown⟩, fun act mem current => ?_⟩, fun other => other refresh⟩
    rcases List.mem_append.mp mem with old | new
    · exact blocked.pending act old current
    · cases List.mem_singleton.mp new
      exact refresh
  | reply act outcome =>
    obtain ⟨mem, ⟨current, rfl⟩ | ⟨differ, rfl⟩⟩ := reply_cases h
    · have refresh := blocked.pending act mem current
      rw [shared, Option.map_some, refresh]
      rcases unknown.settle scope outcome with still | told
      · exact .inr ⟨⟨⟨_, rfl, still⟩, fun other kept => blocked.pending other (List.mem_of_mem_erase kept)⟩, not_false⟩
      · exact .inl ⟨refresh, told⟩
    · exact .inr ⟨⟨⟨e, shared, unknown⟩, fun other kept => blocked.pending other (List.mem_of_mem_erase kept)⟩, not_false⟩
  | observe i snapshot queried =>
    obtain ⟨c, -, rfl⟩ := Option.map_eq_some_iff.mp h
    rcases observe_cases scope s c snapshot queried with
      same | ⟨e', same, ⟨m, fresh, merged, after⟩ | ⟨-, after⟩⟩
    · rw [same]
      exact .inr ⟨blocked, not_false⟩
    · cases shared.symm.trans same
      rcases unknown.merge merged with still | told
      · rw [after]
        exact .inr ⟨blocked.replace still, not_false⟩
      · exact .inl told
    · cases shared.symm.trans same
      rw [after]
      exact .inr ⟨blocked.replace (unknown_setUnknown (Int.le_trans unknown.2.1 unknown.2.2)), not_false⟩
  | update i snapshot =>
    obtain ⟨c, -, rfl⟩ := Option.map_eq_some_iff.mp h
    rcases update_cases scope s c snapshot with same | ⟨e', m, fresh, same, merged, after⟩
    · rw [same]
      exact .inr ⟨blocked, not_false⟩
    · cases shared.symm.trans same
      rw [after]
      rcases unknown.merge merged with still | ⟨asked, -⟩
      · exact .inr ⟨blocked.replace still, not_false⟩
      · cases asked
  | invalidate i =>
    obtain ⟨c, -, rfl⟩ := Option.map_eq_some_iff.mp h
    rcases invalidate_cases s c with same | ⟨e', same, after⟩
    · rw [same]
      exact .inr ⟨blocked, not_false⟩
    · cases shared.symm.trans same
      rw [after]
      exact .inr ⟨blocked.replace (unknown_setUnknown (Int.le_trans unknown.2.1 unknown.2.2)), not_false⟩
  | dispose i =>
    obtain ⟨c, -, rfl⟩ := Option.map_eq_some_iff.mp h
    exact .inr ⟨⟨⟨e, shared, unknown⟩, blocked.pending⟩, not_false⟩
  | clear => exact .inl trivial

theorem Blocked.run {labels : List Label} (blocked : Blocked r s) (run : Runs (Step scope) s labels t)
    (kept : ∀ label ∈ labels, ¬ Releases scope r label) : Blocked r t ∧ ∀ label ∈ labels, ¬ Sends label := by
  induction run with
  | refl => exact ⟨blocked, fun _ mem => absurd mem List.not_mem_nil⟩
  | next _ h ih =>
    obtain ⟨before, quiet⟩ := ih fun label mem => kept label (List.mem_append_left _ mem)
    rcases blocked_step before h with released | ⟨after, silent⟩
    · exact absurd released (kept _ (List.mem_append_right _ (List.mem_singleton.mpr rfl)))
    · refine ⟨after, fun label mem => ?_⟩
      rcases List.mem_append.mp mem with old | new
      · exact quiet label old
      · cases List.mem_singleton.mp new
        exact silent

theorem Serial.keep {m : Execution} (serial : Serial s)
    (busy : ∀ e, s.execution = some e → e.busy = true → m.busy = true) : Serial { s with execution := some m } := by
  refine ⟨serial.past, fun act mem current => ?_, serial.one⟩
  obtain ⟨e, shared, flag⟩ := serial.busy act mem current
  exact ⟨m, rfl, busy e shared flag⟩

theorem merge_busy {e m : Execution} {snapshot : Option OperationSnapshot} {queried fresh : Bool}
    (h : e.merge scope snapshot queried = some (m, fresh)) : m.busy = e.busy := by
  obtain ⟨next, -, -, ⟨-, rfl, -⟩ | ⟨-, -, rfl⟩⟩ := merge_cases h <;> rfl

theorem Serial.erase (serial : Serial s) {act : Pending} :
    ((s.pending.erase act).filter fun other => decide (other.generation = s.generation)).length ≤ 1 :=
  Nat.le_trans (List.erase_sublist.filter _).length_le serial.one

theorem others_past (serial : Serial s) {act : Pending} (mem : act ∈ s.pending) (current : act.generation = s.generation) :
    ∀ other ∈ s.pending.erase act, other.generation ≠ s.generation := by
  intro other kept same
  have one := serial.one
  have perm := (List.perm_cons_erase mem).filter fun other => decide (other.generation = s.generation)
  have length := perm.length_eq
  rw [List.filter_cons, if_pos (decide_eq_true current), List.length_cons] at length
  have present : other ∈ (s.pending.erase act).filter fun other => decide (other.generation = s.generation) :=
    List.mem_filter.mpr ⟨kept, decide_eq_true same⟩
  have some := List.length_pos_of_mem present
  omega

theorem step_serial (serial : Serial s) (h : Step scope s label t) : Serial t := by
  cases label with
  | create initial =>
    obtain ⟨first, m, fresh, merged, rfl⟩ := create_cases h
    refine ⟨serial.past, fun act mem current => ?_, serial.one⟩
    obtain ⟨e, shared, flag⟩ := serial.busy act mem current
    rw [shared, Option.getD_some] at merged
    exact ⟨m, rfl, (merge_busy merged).trans flag⟩
  | act i kind answer form now =>
    obtain ⟨c, -, h⟩ := Option.bind_eq_some_iff.mp h
    obtain ⟨same, e, shared, sent, rfl⟩ := act_cases h
    have none : ∀ act ∈ s.pending, act.generation ≠ s.generation := by
      intro act mem current
      obtain ⟨e', shared', busy⟩ := serial.busy act mem current
      cases shared.symm.trans shared'
      rw [(sends_refresh sent).1] at busy
      cases busy
    refine ⟨fun act mem => ?_, fun act mem current => ⟨_, rfl, rfl⟩, ?_⟩
    · rcases List.mem_append.mp mem with old | new
      · exact serial.past act old
      · cases List.mem_singleton.mp new
        exact Nat.le_of_eq same
    · have empty : s.pending.filter (fun act => decide (act.generation = s.generation)) = [] := by
        rw [List.filter_eq_nil_iff]
        exact fun act mem => by simpa using none act mem
      rw [List.filter_append, empty, List.nil_append]
      exact List.length_filter_le _ _
  | reply act outcome =>
    obtain ⟨mem, ⟨current, rfl⟩ | ⟨differ, rfl⟩⟩ := reply_cases h
    · refine ⟨fun other kept => serial.past other (List.mem_of_mem_erase kept), ?_, serial.erase⟩
      intro other kept same
      have absent := others_past serial mem current other kept
      exact absurd same absent
    · exact ⟨fun other kept => serial.past other (List.mem_of_mem_erase kept),
        fun other kept => serial.busy other (List.mem_of_mem_erase kept), serial.erase⟩
  | observe i snapshot queried =>
    obtain ⟨c, -, rfl⟩ := Option.map_eq_some_iff.mp h
    rcases observe_cases scope s c snapshot queried with same | ⟨e, shared, ⟨m, fresh, merged, after⟩ | ⟨-, after⟩⟩
    · rwa [same]
    · rw [after]
      refine serial.keep fun e' shared' flag => ?_
      cases shared.symm.trans shared'
      exact (merge_busy merged).trans flag
    · rw [after]
      refine serial.keep fun e' shared' flag => ?_
      cases shared.symm.trans shared'
      exact flag
  | update i snapshot =>
    obtain ⟨c, -, rfl⟩ := Option.map_eq_some_iff.mp h
    rcases update_cases scope s c snapshot with same | ⟨e, m, fresh, shared, merged, after⟩
    · rwa [same]
    · rw [after]
      refine serial.keep fun e' shared' flag => ?_
      cases shared.symm.trans shared'
      exact (merge_busy merged).trans flag
  | invalidate i =>
    obtain ⟨c, -, rfl⟩ := Option.map_eq_some_iff.mp h
    rcases invalidate_cases s c with same | ⟨e, shared, after⟩
    · rwa [same]
    · rw [after]
      refine serial.keep fun e' shared' flag => ?_
      cases shared.symm.trans shared'
      exact flag
  | dispose i =>
    obtain ⟨c, -, rfl⟩ := Option.map_eq_some_iff.mp h
    exact ⟨serial.past, serial.busy, serial.one⟩
  | clear =>
    cases h
    refine ⟨fun act mem => Nat.le_trans (serial.past act mem) (Nat.le_succ _), fun act mem current => ?_, ?_⟩
    · have past := serial.past act mem
      dsimp only [System.clear] at current
      omega
    · have empty : s.clear.pending.filter (fun act => decide (act.generation = s.clear.generation)) = [] := by
        rw [List.filter_eq_nil_iff]
        intro act mem
        have past := serial.past act mem
        show ¬ decide (act.generation = s.generation + 1) = true
        rw [decide_eq_true_eq]
        omega
      rw [empty]
      exact Nat.zero_le 1

theorem run_serial {labels : List Label} (run : Runs (Step scope) .empty labels s) : Serial s := by
  apply run.invariant Serial
  · exact ⟨fun _ mem => absurd mem List.not_mem_nil, fun _ mem => absurd mem List.not_mem_nil, Nat.zero_le 1⟩
  · exact fun _ _ _ serial h => step_serial serial h

theorem settle_unknown {e : Execution} {kind : EventKind} {outcome : Outcome}
    (unknown : (e.settle scope kind outcome).unknown = true) :
    (e.settle scope kind outcome).Unknown (e.settle scope kind outcome).unknownRevision := by
  have since (m : Execution) (value : Bool) (set : (m.setUnknown value).unknown = true) :
      (m.setUnknown value).unknownRevision ≤ (m.setUnknown value).snapshot.revision := by
    have flag : value = true := set
    rw [flag]
    exact Int.le_refl _
  refine ⟨unknown, Int.le_refl _, ?_⟩
  unfold Execution.settle at unknown ⊢
  dsimp only at unknown ⊢
  cases outcome with
  | rejected => cases unknown
  | failed => exact since e _ unknown
  | snapshot snapshot =>
    dsimp only at unknown ⊢
    split
    · rename_i merged h
      rw [h] at unknown
      exact since merged _ unknown
    · rename_i failed
      split at unknown
      · rename_i merged h
        exact absurd h (failed merged)
      · exact since e _ unknown

theorem reply_blocked {act : Pending} {outcome : Outcome} {e : Execution} (serial : Serial s)
    (h : Step scope s (.reply act outcome) t) (current : act.generation = s.generation) (found : t.execution = some e)
    (unknown : e.unknown = true) : Blocked e.unknownRevision t := by
  obtain ⟨mem, ⟨-, rfl⟩ | ⟨differ, -⟩⟩ := reply_cases h
  · obtain ⟨old, shared, -⟩ := serial.busy act mem current
    dsimp only at found
    rw [shared, Option.map_some, Option.some.injEq] at found
    subst found
    refine ⟨⟨_, by rw [shared, Option.map_some], settle_unknown unknown⟩, fun other kept same => ?_⟩
    exact absurd same (others_past serial mem current other kept)
  · exact absurd current differ

end Runs

def Foreign (scope : OperationScope) (snapshot : Option OperationSnapshot) : Prop :=
  ∀ next, snapshot = some next → next.scope ≠ scope

def Stale (scope : OperationScope) (e : Execution) (snapshot : Option OperationSnapshot) : Prop :=
  ∃ next, snapshot = some next ∧ next.scope = scope ∧ next.revision < e.snapshot.revision

section Refused
variable {scope : OperationScope} {s t : System} {e : Execution} {snapshot : Option OperationSnapshot} {queried : Bool}

theorem merge_foreign (foreign : Foreign scope snapshot) : e.merge scope snapshot queried = none := by
  cases merged : e.merge scope snapshot queried with
  | none => rfl
  | some pair =>
    obtain ⟨m, fresh⟩ := pair
    obtain ⟨next, some, same, -⟩ := merge_cases merged
    exact absurd same (foreign next some)

theorem merge_stale (stale : Stale scope e snapshot) : e.merge scope snapshot queried = some (e, false) := by
  obtain ⟨next, rfl, same, before⟩ := stale
  unfold Execution.merge
  dsimp only
  rw [if_neg (not_not.mpr same), if_pos before]

theorem observe_stale {c : Controller} (shared : s.execution = some e) (stale : Stale scope e snapshot) :
    s.observe scope c snapshot queried = s := by
  rcases observe_cases scope s c snapshot queried with same | ⟨e', shared', ⟨m, fresh, merged, after⟩ | ⟨merged, -⟩⟩
  · exact same
  all_goals
    cases shared.symm.trans shared'
    rw [merge_stale stale] at merged
    cases merged
  rw [after, ← shared]

theorem observe_foreign {c : Controller} (shared : s.execution = some e) (foreign : Foreign scope snapshot) :
    s.observe scope c snapshot queried = s ∨
      s.observe scope c snapshot queried = { s with execution := some (e.setUnknown true) } := by
  rcases observe_cases scope s c snapshot queried with same | ⟨e', shared', ⟨m, fresh, merged, -⟩ | ⟨-, after⟩⟩
  · exact .inl same
  · rw [merge_foreign foreign] at merged
    cases merged
  · cases shared.symm.trans shared'
    exact .inr after

theorem update_refused {c : Controller} (shared : s.execution = some e)
    (refused : Stale scope e snapshot ∨ Foreign scope snapshot) : s.update scope c snapshot = s := by
  rcases update_cases scope s c snapshot with same | ⟨e', m, fresh, shared', merged, after⟩
  · exact same
  cases shared.symm.trans shared'
  rcases refused with stale | foreign
  · rw [merge_stale stale] at merged
    cases merged
    rw [after, ← shared]
  · rw [merge_foreign foreign] at merged
    cases merged

theorem settle_refused {kind : EventKind} (refused : Stale scope e snapshot ∨ Foreign scope snapshot) :
    e.settle scope kind (.snapshot snapshot) = { e.fail kind with busy := false } := by
  unfold Execution.settle
  dsimp only
  rcases refused with stale | foreign
  · rw [merge_stale stale]
  · rw [merge_foreign foreign]

end Refused

section Claim
variable {scope : OperationScope}

/-- After an event whose outcome is unknown only refreshes are sent until a later query or the end of a refresh, and
a stale or foreign snapshot is never merged. -/
theorem unknown_outcome_blocks :
    (∀ labels s act outcome t e later u, Runs (Step scope) .empty labels s → Step scope s (.reply act outcome) t →
      act.generation = s.generation → act.kind ≠ .refresh → t.execution = some e → e.unknown = true →
      Runs (Step scope) t later u → (∀ label ∈ later, ¬ Releases scope e.unknownRevision label) →
      ∀ label ∈ later, ¬ Sends label) ∧
    (∀ (s : System) e c snapshot queried, s.execution = some e → Stale scope e snapshot →
      s.observe scope c snapshot queried = s ∧ s.update scope c snapshot = s) ∧
    (∀ (s : System) e c snapshot queried, s.execution = some e → Foreign scope snapshot → s.update scope c snapshot = s ∧
      (s.observe scope c snapshot queried = s ∨
        s.observe scope c snapshot queried = { s with execution := some (e.setUnknown true) })) ∧
    ∀ (e : Execution) kind snapshot, Stale scope e snapshot ∨ Foreign scope snapshot →
      e.settle scope kind (.snapshot snapshot) = { e.fail kind with busy := false } := by
  refine ⟨?_, ?_, ?_, ?_⟩
  · intro labels s act outcome t e later u run h current _ found unknown rest kept
    exact ((reply_blocked (run_serial run) h current found unknown).run rest kept).2
  · exact fun s e c snapshot queried shared stale => ⟨observe_stale shared stale, update_refused shared (.inl stale)⟩
  · exact fun s e c snapshot queried shared foreign =>
      ⟨update_refused shared (.inr foreign), observe_foreign shared foreign⟩
  · exact fun e kind snapshot refused => settle_refused refused

end Claim

section Sample

def sampleScope : OperationScope := ⟨"authority", "tenant", "principal", "session", "target", "operation"⟩

def sampleSnapshot (revision : Nat) : OperationSnapshot where
  scope := sampleScope
  revision := revision
  baseline := "baseline"
  phase := .ready
  allowed := [.submit, .cancel, .refresh]
  interaction := none
  expiresAtMs := none
  form := ""

def sampleForm : Form := ⟨false, false, false, "baseline", true⟩

def sampleLabels : List Label :=
  [.create (sampleSnapshot 0), .act 0 .submit none sampleForm 0, .reply ⟨0, .submit⟩ .failed, .act 0 .refresh none sampleForm 0,
    .reply ⟨0, .refresh⟩ (.snapshot (some (sampleSnapshot 0))), .act 0 .submit none sampleForm 0]

theorem sample_run {labels : List Label} {s t : System} (h : labels.foldlM (System.perform sampleScope) s = some t) :
    Runs (Step sampleScope) s labels t := by
  have run := Runs.of_foldlM (System.perform sampleScope) id (fun s label t step => show Step sampleScope s label t from step) labels h
  rwa [List.map_id] at run

def sampleSubmitted : System := ⟨0, some ⟨sampleSnapshot 0, true, false, -1⟩, [⟨0, false⟩], [⟨0, .submit⟩]⟩

def sampleLost : System := ⟨0, some ⟨sampleSnapshot 0, false, true, 0⟩, [⟨0, false⟩], []⟩

theorem sampleLost_step : Step sampleScope sampleSubmitted (.reply ⟨0, .submit⟩ .failed) sampleLost := by
  unfold Step
  decide +kernel

/-- A submission follows an unknown outcome although no query was observed, and a foreign snapshot marks the execution. -/
theorem refresh_resubmits :
    (∃ s t u e, Runs (Step sampleScope) .empty (sampleLabels.take 2) s ∧ Step sampleScope s (.reply ⟨0, .submit⟩ .failed) t ∧
      t.execution = some e ∧ e.unknown = true ∧ e.unknownRevision = 0 ∧ Runs (Step sampleScope) t (sampleLabels.drop 3) u ∧
      ∃ label ∈ sampleLabels.drop 3, Sends label) ∧
    ∃ (s : System) (snapshot : OperationSnapshot), snapshot.scope ≠ sampleScope ∧
      (s.observe sampleScope ⟨0, false⟩ (some snapshot) true).execution ≠ s.execution := by
  constructor
  · refine ⟨sampleSubmitted, sampleLost, ⟨0, some ⟨sampleSnapshot 0, true, false, 0⟩, [⟨0, false⟩], [⟨0, .submit⟩]⟩,
      ⟨sampleSnapshot 0, false, true, 0⟩, sample_run (by decide +kernel), sampleLost_step, rfl, rfl, rfl,
      sample_run (by decide +kernel), .act 0 .submit none sampleForm 0, ?_, ?_⟩
    · exact List.mem_cons_of_mem _ (List.mem_cons_of_mem _ List.mem_cons_self)
    · show EventKind.submit ≠ .refresh
      decide
  · refine ⟨⟨0, some ⟨sampleSnapshot 0, false, false, -1⟩, [⟨0, false⟩], []⟩,
      { sampleSnapshot 1 with scope := { sampleScope with target := "other" } }, by decide, ?_⟩
    decide +kernel

/-- A lost receipt of the sample leaves only the refresh that follows. -/
theorem sample_blocks : ¬ Sends (.act 0 .refresh none sampleForm 0) := by
  have first : Runs (Step sampleScope) .empty (sampleLabels.take 2) sampleSubmitted := sample_run (by decide +kernel)
  have rest : Runs (Step sampleScope) sampleLost [.act 0 .refresh none sampleForm 0]
      ⟨0, some ⟨sampleSnapshot 0, true, true, 0⟩, [⟨0, false⟩], [⟨0, .refresh⟩]⟩ := sample_run (by decide +kernel)
  refine unknown_outcome_blocks.1 _ _ ⟨0, .submit⟩ .failed _ _ _ _ first sampleLost_step rfl (by decide) rfl rfl rest ?_ _
    (List.mem_singleton.mpr rfl)
  intro label mem
  cases List.mem_singleton.mp mem
  exact not_false

end Sample

end RssMdmAgent.OperationExecution
