import RssMdmAgent.TransferControls

set_option autoImplicit false

/-! # What stays true of content controls -/

namespace RssMdmAgent.ContentTransfers
open OrderedRows TransitionRuns

/-! ## Replays -/

section Replays
variable {s t : System} {r : Transfers} {io : Access → Bool} {c c' : Command} {a : Act} {earlier : List Act} {v w : Consumer}
  {task attempt : Uuid}

def Transfers.Open (r : Transfers) (task attempt : Uuid) : Prop :=
  ∀ v ∈ r.selected task attempt, v.cancelled = false ∧ v.retired = false

instance (r : Transfers) (task attempt : Uuid) : Decidable (r.Open task attempt) :=
  inferInstanceAs (Decidable (∀ v ∈ r.selected task attempt, v.cancelled = false ∧ v.retired = false))

def Act.Accepts (a : Act) (c : Command) : Prop :=
  a.call = .control c ∧ a.before.transfers.recorded c = [] ∧ ∃ confirmed, a.reply = .ok confirmed

def Command.Repeats (c c' : Command) : Prop :=
  c'.ownerRevision = c.ownerRevision ∧ c'.pause = c.pause ∧ c'.revisions.Perm c.revisions

structure Recorded (r : Transfers) (c : Command) : Prop where
  records : ∀ v ∈ r.selected c.task c.attempt, ∃ record, v.control c.id = some record ∧ record.pause = c.pause ∧
    record.ownerRevision = c.ownerRevision ∧ (v.key, record.expected) ∈ c.revisions
  some : r.selected c.task c.attempt ≠ []
  all : c.revisions.length = (r.selected c.task c.attempt).length

theorem selected_length {r q : Transfers}
    (same : ∀ k : Identity, k.task = task → k.attempt = attempt → (r.consumers.has k = q.consumers.has k)) :
    (r.selected task attempt).length = (q.selected task attempt).length := by
  have mem : ∀ (p : Transfers) (k : Identity), k ∈ (p.selected task attempt).map Consumer.identity ↔
      p.consumers.has k = true ∧ k.task = task ∧ k.attempt = attempt := by
    intro p k
    rw [List.mem_map, Rows.has_iff]
    constructor
    · rintro ⟨v, listed, rfl⟩
      obtain ⟨stored, mine⟩ := mem_selected.mp listed
      exact ⟨⟨v, Rows.get_of_mem stored⟩, mine⟩
    · rintro ⟨⟨v, found⟩, mine⟩
      have named := Rows.get_key found
      subst named
      exact ⟨v, mem_selected.mpr ⟨Rows.get_mem found, mine⟩, rfl⟩
  have perm : ((r.selected task attempt).map Consumer.identity).Perm ((q.selected task attempt).map Consumer.identity) := by
    refine (List.perm_ext_iff_of_nodup those_distinct those_distinct).mpr fun k => ?_
    change k ∈ (r.selected task attempt).map Consumer.identity ↔ k ∈ (q.selected task attempt).map Consumer.identity
    rw [mem, mem]
    constructor
    · rintro ⟨found, rfl, rfl⟩
      exact ⟨same k rfl rfl ▸ found, rfl, rfl⟩
    · rintro ⟨found, rfl, rfl⟩
      exact ⟨same k rfl rfl ▸ found, rfl, rfl⟩
  simpa using perm.length_eq

theorem mem_selected_get : v ∈ r.selected task attempt ↔ r.consumers.get v.identity = some v ∧ v.task = task ∧ v.attempt = attempt := by
  rw [mem_selected, Rows.get_iff]
  simp

theorem accept_control {other : Bool} {durable : Option Nat} (new : v.control c.id = none) :
    (v.accept c other durable).control c.id =
      some ⟨c.id, c.pause, v.revision, c.ownerRevision, !c.pause || other || durable.isSome⟩ := by
  unfold Consumer.control at new ⊢
  simp only [Consumer.accept, List.find?_append, new]
  simp

theorem accept_control_old {id : String} {other : Bool} {durable : Option Nat} {record : Control} (old : v.control id = some record) :
    (v.accept c other durable).control id = some record := by
  unfold Consumer.control at old ⊢
  simp only [Consumer.accept, List.find?_append, old, Option.some_or]

theorem settle_control {id : String} {bytes : Nat} {complete : Bool} :
    (v.settle bytes complete).control id = (v.control id).map Control.confirm := by
  unfold Consumer.control Consumer.settle
  dsimp only
  rw [List.find?_map]
  congr 2
  funext record
  unfold Control.confirm
  dsimp only [Function.comp]
  split <;> rfl

theorem confirm_fields (record : Control) : record.confirm.pause = record.pause ∧
    record.confirm.ownerRevision = record.ownerRevision ∧ record.confirm.expected = record.expected := by
  unfold Control.confirm
  split <;> exact ⟨rfl, rfl, rfl⟩

theorem accepts_recorded (accepts : a.Accepts c) : Recorded a.after.transfers c := by
  obtain ⟨called, unseen, confirmed, told⟩ := accepts
  have cases := control_cases a.before.transfers a.io c a.before.disk
  have after : a.after.transfers = (a.before.transfers.control a.io a.before.disk c).1 := by
    rw [Act.after, called]
    rfl
  have reply : (a.before.transfers.control a.io a.before.disk c).2.2 = .ok confirmed := by
    rw [← told, Act.reply, called]
    rfl
  rw [after]
  generalize a.before.transfers.control a.io a.before.disk c = result at cases reply
  obtain ⟨r, d, answer⟩ := result
  cases cases with
  | refused => cases reply
  | replayed _ seen => simp [unseen] at seen
  | accepted values confirmed' new some all able flushed related recorded =>
    have rows := selected_related related
    have length : (a.before.transfers.selected c.task c.attempt).length =
        ((a.before.transfers.putAll values).selected c.task c.attempt).length := by
      apply selected_length
      intro k _ _
      rcases rows k with ⟨v, -, w, -, before, found, -⟩ | ⟨-, same⟩
      · unfold Rows.has
        rw [before, found]
        rfl
      · unfold Rows.has
        rw [same]
    refine ⟨fun w mem => ?_, ?_, all.trans length⟩
    · obtain ⟨now, mine⟩ := mem_selected_get.mp mem
      rcases rows w.identity with ⟨v, listed, w', -, -, found, listed', -, durable, rfl, -⟩ | ⟨unlisted, same⟩
      · have same := now.symm.trans found
        cases same
        exact ⟨_, accept_control (new v listed), rfl, rfl, listed'⟩
      · have before : a.before.transfers.consumers.get w.identity = Option.some w := same.symm.trans now
        exact absurd (List.mem_map_of_mem (mem_selected_get.mpr ⟨before, mine⟩)) unlisted
    · rw [List.ne_nil_iff_length_pos] at some ⊢
      change 0 < ((a.before.transfers.putAll values).selected c.task c.attempt).length
      omega

theorem Recorded.has_controls (recorded : Recorded r c) (mem : v ∈ r.selected c.task c.attempt) : v.controls ≠ [] := by
  obtain ⟨record, found, -⟩ := recorded.records v mem
  intro none
  rw [Consumer.control, none] at found
  cases found

theorem record_row {call : Call} {record : Control} (step : RowStep s t call (some v) (some w)) (going : w.cancelled = false)
    (found : v.control c.id = some record) : w.identity = v.identity ∧ ∃ later, w.control c.id = some later ∧
      later.pause = record.pause ∧ later.ownerRevision = record.ownerRevision ∧ later.expected = record.expected := by
  cases step with
  | same => exact ⟨rfl, record, found, rfl, rfl, rfl⟩
  | changed change =>
    cases change with
    | accepted _ _ _ accepted =>
      obtain ⟨-, -, durable, rfl, -⟩ := accepted
      exact ⟨rfl, record, accept_control_old found, rfl, rfl, rfl⟩
    | settled complete =>
      refine ⟨rfl, record.confirm, ?_, confirm_fields record⟩
      rw [settle_control, found]
      rfl
    | cancelled => cases going
    | retired => cases going

/-- No row of an attempt with records comes or goes while the attempt is open. -/
theorem open_row (recorded : Recorded s.transfers c) (before : s.transfers.Open c.task c.attempt)
    (now : t.transfers.Open c.task c.attempt) (step : Step s a t) (fits : a.Fits earlier)
    (good : Good s) {k : Identity} (task : k.task = c.task) (attempt : k.attempt = c.attempt) :
    (s.transfers.consumers.get k = none ∧ t.transfers.consumers.get k = none) ∨
      ∃ v w, s.transfers.consumers.get k = some v ∧ t.transfers.consumers.get k = some w ∧ v ∈ s.transfers.selected c.task c.attempt ∧
        w.cancelled = false ∧ RowStep s t a.call (some v) (some w) := by
  have row : RowStep s t a.call (s.transfers.consumers.get k) (t.transfers.consumers.get k) := by
    rw [step_perform step]
    exact perform_row good.orderly.coherent a.io a.call k
  have mine : ∀ {q : Transfers} {v : Consumer}, q.consumers.get k = some v → v ∈ q.selected c.task c.attempt := by
    intro q v found
    have named := Rows.get_key found
    subst named
    exact mem_selected.mpr ⟨Rows.get_mem found, task, attempt⟩
  cases found : s.transfers.consumers.get k with
  | none =>
    cases later : t.transfers.consumers.get k with
    | none => exact .inl ⟨rfl, rfl⟩
    | some w =>
      rw [found, later] at row
      exfalso
      cases row with
      | @created identity cache total resumable named =>
        have same : identity = k := Rows.get_key later
        subst same
        have old := step_fits step fits
        rw [named] at old
        obtain ⟨v, mem⟩ := List.exists_mem_of_ne_nil _ recorded.some
        obtain ⟨stored, mine⟩ := mem_selected.mp mem
        exact recorded.has_controls mem ((old found).1 v stored (mine.1.trans task.symm) (mine.2.trans attempt.symm)
          (before v mem).1)
  | some v =>
    have listed := mine found
    cases later : t.transfers.consumers.get k with
    | none =>
      rw [found, later] at row
      exfalso
      cases row with
      | evicted retired =>
        have open' := (before v listed).2
        rw [retired] at open'
        cases open'
    | some w =>
      rw [found, later] at row
      exact .inr ⟨v, w, rfl, rfl, listed, (now w (mine later)).1, row⟩

theorem Recorded.step (recorded : Recorded s.transfers c) (before : s.transfers.Open c.task c.attempt)
    (now : t.transfers.Open c.task c.attempt) (step : Step s a t) (fits : a.Fits earlier) (good : Good s) :
    Recorded t.transfers c := by
  have rows := fun {k : Identity} => open_row (k := k) recorded before now step fits good
  have length : (s.transfers.selected c.task c.attempt).length = (t.transfers.selected c.task c.attempt).length := by
    apply selected_length
    intro k task attempt
    unfold Rows.has
    rcases rows task attempt with ⟨found, later⟩ | ⟨v, w, found, later, -⟩
    · rw [found, later]
    · rw [found, later]
      rfl
  refine ⟨fun w mem => ?_, ?_, recorded.all.trans length⟩
  · obtain ⟨later, mine⟩ := mem_selected_get.mp mem
    rcases @rows w.identity mine.1 mine.2 with ⟨-, none⟩ | ⟨v, w', found, same, listed, going, row⟩
    · rw [later] at none
      cases none
    · rw [later] at same
      cases same
      obtain ⟨record, old, pause, owner, entry⟩ := recorded.records v listed
      obtain ⟨named, record', new, pause', owner', expected'⟩ := record_row row going old
      refine ⟨record', new, pause'.trans pause, owner'.trans owner, ?_⟩
      rw [expected', show w.key = v.key from congrArg Identity.key named]
      exact entry
  · have some := recorded.some
    rw [List.ne_nil_iff_length_pos] at some ⊢
    omega

def Consumer.entry (v : Consumer) (id : String) : String × Nat := (v.key, ((v.control id).map (·.expected)).getD 0)

theorem replay_ok {list : List Consumer}
    (all : ∀ v ∈ list, ∃ record, v.control c.id = some record ∧ c.repeats v.key record = true) :
    c.replay list = .ok (list.all fun v => (v.control c.id).any (·.confirmed)) := by
  induction list with
  | nil => rfl
  | cons v rest ih =>
    obtain ⟨⟨record, found, repeats⟩, later⟩ := List.forall_mem_cons.mp all
    simp only [Command.replay, found, repeats, if_true, ih later, List.all_cons, Option.any_some]
    rfl

theorem replay_cases (list : List Consumer) : c.replay list = .error .conflict ∨
    ∀ v ∈ list, ∃ record, v.control c.id = some record ∧ c.repeats v.key record = true := by
  induction list with
  | nil => exact .inr fun v mem => nomatch mem
  | cons v rest ih =>
    cases found : v.control c.id with
    | none => exact .inl (by simp [Command.replay, found])
    | some record =>
      cases repeats : c.repeats v.key record with
      | false => exact .inl (by simp [Command.replay, found, repeats])
      | true =>
        rcases ih with conflict | all
        · exact .inl (by simp [Command.replay, found, repeats, conflict, Except.map])
        · exact .inr (List.forall_mem_cons.mpr ⟨⟨record, found, repeats⟩, all⟩)

theorem repeats_iff {key : String} {record : Control} : c.repeats key record = true ↔
    record.ownerRevision = c.ownerRevision ∧ record.pause = c.pause ∧ (key, record.expected) ∈ c.revisions := by
  simp [Command.repeats, and_assoc]

theorem entries_perm (id : String) (listed : ∀ v ∈ r.selected task attempt, v.entry id ∈ c.revisions)
    (all : c.revisions.length = (r.selected task attempt).length) :
    c.revisions.Perm ((r.selected task attempt).map (·.entry id)) := by
  have distinct : ((r.selected task attempt).map (·.entry id)).Nodup := by
    refine List.Nodup.of_map Prod.fst ?_
    rw [List.map_map]
    exact selected_keys
  have sub : (r.selected task attempt).map (·.entry id) ⊆ c.revisions := by
    intro e mem
    obtain ⟨v, placed, rfl⟩ := List.mem_map.mp mem
    exact listed v placed
  exact ((List.subperm_of_subset distinct sub).perm_of_length_le (by simp [all])).symm

theorem entry_of {id : String} {record : Control} (found : v.control id = some record) :
    v.entry id = (v.key, record.expected) := by
  rw [Consumer.entry, found]
  rfl

/-- A recorded control answers what it recorded, and refuses any other content under its identifier. -/
theorem Recorded.replay (recorded : Recorded r c) (io : Access → Bool) (d : Disk) (task : c'.task = c.task)
    (attempt : c'.attempt = c.attempt) (id : c'.id = c.id) :
    (c.Repeats c' → r.control io d c' =
      (r, d, .ok ((r.selected c.task c.attempt).all fun v => (v.control c.id).any (·.confirmed)))) ∧
      (¬c.Repeats c' → r.control io d c' = (r, d, .error .conflict)) := by
  have full : r.recorded c' = r.selected c.task c.attempt := by
    rw [Transfers.recorded, task, attempt, id, List.filter_eq_self]
    intro v mem
    obtain ⟨record, found, -⟩ := recorded.records v mem
    rw [found]
    rfl
  have seen : 0 < (r.recorded c').length := by
    rw [full]
    exact List.length_pos_iff.mpr recorded.some
  have told : r.control io d c' = (r, d, if c'.revisions.length ≠ (r.selected c.task c.attempt).length then .error .conflict
      else c'.replay (r.selected c.task c.attempt)) := by
    unfold Transfers.control
    rw [if_pos seen, full, task, attempt]
    simp
  have perm : c.revisions.Perm ((r.selected c.task c.attempt).map (·.entry c.id)) := by
    refine entries_perm c.id (fun v mem => ?_) recorded.all
    obtain ⟨record, found, -, -, listed⟩ := recorded.records v mem
    rw [entry_of found]
    exact listed
  rw [told]
  constructor
  · rintro ⟨owner, pause, same⟩
    rw [if_neg (by rw [same.length_eq, recorded.all]; simp), replay_ok fun v mem => ?_, id]
    obtain ⟨record, found, pause', owner', listed⟩ := recorded.records v mem
    rw [id]
    exact ⟨record, found, repeats_iff.mpr ⟨owner'.trans owner.symm, pause'.trans pause.symm, same.mem_iff.mpr listed⟩⟩
  · intro other
    split
    · rfl
    rename_i length
    rcases replay_cases (c := c') (r.selected c.task c.attempt) with conflict | all
    · rw [conflict]
    · exfalso
      apply other
      obtain ⟨first, mem⟩ := List.exists_mem_of_ne_nil _ recorded.some
      obtain ⟨record, found, pause, owner, -⟩ := recorded.records first mem
      obtain ⟨record', found', repeats⟩ := all first mem
      rw [id, found] at found'
      cases found'
      obtain ⟨owner', pause', -⟩ := repeats_iff.mp repeats
      refine ⟨owner'.symm.trans owner, pause'.symm.trans pause, ?_⟩
      refine (entries_perm c.id (fun v mem => ?_) (not_ne_iff.mp length)).trans perm.symm
      obtain ⟨record, found, repeats⟩ := all v mem
      rw [id] at found
      rw [entry_of found]
      exact (repeats_iff.mp repeats).2.2

end Replays

/-! ## Confirmed pauses -/

section Pauses
variable {s t : System} {acts : List Act} {a : Act} {earlier : List Act} {v w : Consumer} {c : Command}

def Act.Backs (a : Act) (v : Consumer) : Prop :=
  a.after.disk.Safe v.cache ∨ a.before.transfers.shared v.task v.cache = true

def Act.Confirms (a : Act) (k : Identity) (id : String) : Prop :=
  ∃ w, a.after.transfers.consumers.get k = some w ∧ w.Confirms id true

def Backed (acts : List Act) (s : Transfers) : Prop :=
  ∀ v ∈ s.consumers.entries, ∀ id, v.Confirms id true → ∃ a ∈ acts, a.Confirms v.identity id ∧ a.Backs v

theorem accept_confirms {id : String} {other : Bool} {durable : Option Nat} (confirms : (v.accept c other durable).Confirms id true) :
    v.Confirms id true ∨ other = true ∨ durable.isSome = true := by
  obtain ⟨r, mem, rfl, pause, confirmed⟩ := confirms
  rcases List.mem_append.mp mem with old | new
  · exact .inl ⟨r, old, rfl, pause, confirmed⟩
  · rw [List.mem_singleton.mp new] at pause confirmed
    have paused : c.pause = true := pause
    have flag : (!c.pause || other || durable.isSome) = true := confirmed
    rw [paused] at flag
    exact .inr (by simpa using flag)

theorem Backed.step (backed : Backed acts s.transfers) (good : Good s) (step : Step s a t) :
    Backed (acts ++ [a]) t.transfers := by
  intro w mem id confirms
  have now := Rows.get_of_mem mem
  have before : a.before = s := step.1
  have after : a.after = t := step.2
  have here : a.Confirms w.identity id := ⟨w, after ▸ now, confirms⟩
  -- A consumer that had confirmed the pause keeps its earlier call.
  have kept : ∀ v, s.transfers.consumers.get w.identity = some v → v.Confirms id true → v.cache = w.cache →
      v.task = w.task → ∃ b ∈ acts ++ [a], b.Confirms w.identity id ∧ b.Backs w := by
    intro v found old cache task
    obtain ⟨b, early, confirms, backs⟩ := backed v (Rows.get_mem found) id old
    rw [Rows.get_key found] at confirms
    refine ⟨b, List.mem_append_left _ early, confirms, ?_⟩
    unfold Act.Backs at backs ⊢
    rwa [← cache, ← task]
  have row : RowStep s t a.call (s.transfers.consumers.get w.identity) (t.transfers.consumers.get w.identity) := by
    rw [step_perform step]
    exact perform_row good.orderly.coherent a.io a.call _
  rw [now] at row
  generalize found : s.transfers.consumers.get w.identity = old at row
  generalize a.call = call at row
  cases row with
  | same => exact kept w found confirms rfl rfl
  | created =>
    obtain ⟨r, mem, -⟩ := confirms
    cases mem
  | @changed v _ change =>
    cases change with
    | accepted mine _ _ accepted =>
      obtain ⟨-, -, durable, rfl, safe⟩ := accepted
      rcases accept_confirms confirms with old | other | some
      · exact kept v found old rfl rfl
      · refine ⟨a, by simp, here, .inr ?_⟩
        rw [before]
        exact (show v.task = _ from mine.1) ▸ other
      · refine ⟨a, by simp, here, .inl ?_⟩
        rw [after]
        exact safe some
    | settled complete left same =>
      refine ⟨a, by simp, here, .inl ?_⟩
      rw [after, same]
      exact good.left _ _ left
    | cancelled => exact kept v found confirms rfl rfl
    | retired => exact kept v found confirms rfl rfl

theorem answer_confirms (called : a.call = .control c) (sure : a.reply = .ok true) :
    ∀ v ∈ a.after.transfers.selected c.task c.attempt, v.Confirms c.id c.pause := by
  have cases := control_cases a.before.transfers a.io c a.before.disk
  have after : a.after.transfers = (a.before.transfers.control a.io a.before.disk c).1 := by
    rw [Act.after, called]
    rfl
  have reply : (a.before.transfers.control a.io a.before.disk c).2.2 = .ok true := by
    rw [← sure, Act.reply, called]
    rfl
  rw [after]
  generalize a.before.transfers.control a.io a.before.disk c = result at cases reply
  obtain ⟨r, d, answer⟩ := result
  cases cases with
  | refused => cases reply
  | replayed confirmed seen same all answer =>
    cases reply
    intro v mem
    rcases replay_cases (c := c) (a.before.transfers.selected c.task c.attempt) with conflict | records
    · rw [answer] at conflict
      cases conflict
    · have told := replay_ok records
      rw [answer, Except.ok.injEq, eq_comm, List.all_eq_true] at told
      obtain ⟨record, found, repeats⟩ := records v mem
      have confirmed := told v mem
      rw [found] at confirmed
      exact ⟨record, List.mem_of_find?_eq_some found, by simpa using List.find?_some found, (repeats_iff.mp repeats).2.1, confirmed⟩
  | accepted values confirmed new some all able flushed related recorded =>
    cases reply
    intro w mem
    rcases selected_related related w.identity with
      ⟨v, listed, w', placed, -, found, -⟩ | ⟨unlisted, same⟩
    · obtain ⟨now, -⟩ := mem_selected_get.mp mem
      have same := now.symm.trans found
      cases same
      exact recorded rfl w placed
    · obtain ⟨now, mine⟩ := mem_selected_get.mp mem
      have before : a.before.transfers.consumers.get w.identity = Option.some w := same.symm.trans now
      exact absurd (List.mem_map_of_mem (mem_selected_get.mpr ⟨before, mine⟩)) unlisted

end Pauses

/-! ## Cancelled consumers, revisions and resumption -/

section Ends
variable {s t : System} {acts : List Act} {a : Act} {v w : Consumer} {c : Command} {io : Access → Bool}

def Ended (acts : List Act) (s : Transfers) : Prop :=
  ∀ a ∈ acts, ∀ v ∈ a.before.transfers.consumers.entries, v.cancelled = true →
    ∀ w, s.consumers.get v.identity = some w → w.cancelled = true

theorem Ended.step (ended : Ended acts s.transfers) (good : Good s) (step : Step s a t) (fits : a.Fits acts) :
    Ended (acts ++ [a]) t.transfers := by
  intro b mem v stored cancelled w now
  have row : RowStep s t a.call (s.transfers.consumers.get v.identity) (t.transfers.consumers.get v.identity) := by
    rw [step_perform step]
    exact perform_row good.orderly.coherent a.io a.call _
  rw [now] at row
  have before : a.before = s := step.1
  -- The consumer that the last call found under this key is cancelled.
  have old : ∀ u, s.transfers.consumers.get v.identity = some u → u.cancelled = true := by
    intro u found
    rcases List.mem_append.mp mem with early | last
    · exact ended b early v stored cancelled u found
    · rw [List.mem_singleton.mp last, before] at stored
      rw [Rows.get_of_mem stored] at found
      cases found
      exact cancelled
  generalize found : s.transfers.consumers.get v.identity = under at row
  cases row with
  | same => exact old w found
  | @created identity _ _ _ named =>
    exfalso
    have same : identity = v.identity := Rows.get_key now
    subst same
    have fresh := step_fits step fits
    rw [named] at fresh
    have absent := (fresh found).2
    rcases List.mem_append.mp mem with early | last
    · have gone := absent b early
      rw [Rows.get_of_mem stored] at gone
      cases gone
    · rw [List.mem_singleton.mp last, before] at stored
      rw [Rows.get_of_mem stored] at found
      cases found
  | @changed u _ change =>
    have ended := old u found
    generalize a.call = call at change
    cases change with
    | accepted _ _ _ accepted =>
      obtain ⟨-, -, durable, rfl, -⟩ := accepted
      exact ended
    | settled => exact ended
    | cancelled => rfl
    | retired => rfl

theorem accepts_raises (accepts : a.Accepts c) (k : Identity) :
    (∃ v w, v ∈ a.before.transfers.selected c.task c.attempt ∧ a.before.transfers.consumers.get k = some v ∧
        a.after.transfers.consumers.get k = some w ∧ w.revision = v.revision + 1) ∨
      (¬(k.task = c.task ∧ k.attempt = c.attempt) ∧ a.after.transfers.consumers.get k = a.before.transfers.consumers.get k) ∨
      (a.before.transfers.consumers.get k = none ∧ a.after.transfers.consumers.get k = none) := by
  obtain ⟨called, unseen, confirmed, told⟩ := accepts
  have cases := control_cases a.before.transfers a.io c a.before.disk
  have after : a.after.transfers = (a.before.transfers.control a.io a.before.disk c).1 := by
    rw [Act.after, called]
    rfl
  have reply : (a.before.transfers.control a.io a.before.disk c).2.2 = .ok confirmed := by
    rw [← told, Act.reply, called]
    rfl
  rw [after]
  generalize a.before.transfers.control a.io a.before.disk c = result at cases reply
  obtain ⟨r, d, answer⟩ := result
  cases cases with
  | refused => cases reply
  | replayed _ seen => simp [unseen] at seen
  | accepted values confirmed' new some all able flushed related recorded =>
    rcases selected_related related k with
      ⟨v, listed, w, -, before, found, -, -, durable, rfl, -⟩ | ⟨unlisted, same⟩
    · exact .inl ⟨v, _, listed, before, found, rfl⟩
    · right
      cases before : a.before.transfers.consumers.get k with
      | none => exact .inr ⟨rfl, same.trans before⟩
      | some v =>
        refine .inl ⟨fun mine => unlisted ?_, same.trans before⟩
        have named := Rows.get_key before
        subst named
        exact List.mem_map_of_mem (mem_selected.mpr ⟨Rows.get_mem before, mine⟩)

def Transfers.resume (r : Transfers) (task attempt : Uuid) (id : String) (ownerRevision : Nat) : Command :=
  ⟨task, attempt, id, ownerRevision, (r.observations task attempt).map fun o => (o.key, o.revision), false⟩

theorem resume_each {r : Transfers} {list : List Consumer} {d : Disk} (index : Nat) (working : ∀ access, io access = true)
    (running : c.pause = false) (new : ∀ v ∈ list, v.control c.id = none) (named : ∀ v ∈ list, (v.key, v.revision) ∈ c.revisions)
    (room : ∀ v ∈ list, v.controls.length < 128) (small : ∀ v ∈ list, v.revision + 1 < 2 ^ 64) :
    ∃ values, r.controlEach io c list index d = (d, .ok (values, true)) := by
  induction list generalizing index with
  | nil => exact ⟨[], rfl⟩
  | cons v rest ih =>
    obtain ⟨new, news⟩ := List.forall_mem_cons.mp new
    obtain ⟨name, names⟩ := List.forall_mem_cons.mp named
    obtain ⟨free, frees⟩ := List.forall_mem_cons.mp room
    obtain ⟨low, lows⟩ := List.forall_mem_cons.mp small
    obtain ⟨values, later⟩ := ih (index + 1) news names frees lows
    have one : r.controlOne io c index d v = (d, .ok (v.accept c (r.shared c.task v.cache) none, true)) := by
      unfold Transfers.controlOne
      rw [new]
      dsimp only
      rw [if_neg (by simpa using name), if_neg (by omega), if_neg (by omega)]
      simp [running]
    refine ⟨v.accept c (r.shared c.task v.cache) none :: values, ?_⟩
    unfold Transfers.controlEach
    rw [one]
    simp only [working, if_true, later, Bool.true_and]

theorem control_new {r : Transfers} {d e : Disk} {values : List Consumer} {confirmed : Bool} (unseen : r.recorded c = [])
    (fits : ¬(r.selected c.task c.attempt = [] ∨ c.revisions.length ≠ (r.selected c.task c.attempt).length ∨
      ((r.selected c.task c.attempt).any fun w => !w.resumable || w.cancelled) = true))
    (working : ∀ access, io access = true)
    (each : r.controlEach io c (r.selected c.task c.attempt) 0 d = (e, .ok (values, confirmed))) :
    r.control io d c = (r.putAll values, e, .ok confirmed) := by
  unfold Transfers.control
  rw [unseen, if_neg (by simp), if_neg fits, if_neg (by simp [working]), each]
  simp only [working, if_true]

/-- A paused attempt that is open is resumed by a new control with its current revisions. -/
theorem resumes {task attempt : Uuid} {id : String} (good : Orderly s.transfers) (open' : s.transfers.Open task attempt)
    (mem : v ∈ s.transfers.selected task attempt) (paused : v.paused = true)
    (new : ∀ w ∈ s.transfers.selected task attempt, w.control id = none) (working : ∀ access, io access = true)
    (ownerRevision : Nat) (d : Disk) :
    ∃ values, s.transfers.control io d (s.transfers.resume task attempt id ownerRevision) =
      (s.transfers.putAll values, d, .ok true) := by
  obtain ⟨stored, mine⟩ := mem_selected.mp mem
  have sound := good.sound v stored
  have others : ∀ w ∈ s.transfers.selected task attempt, w.Sound ∧ Together v w := by
    intro w listed
    obtain ⟨stored', mine'⟩ := mem_selected.mp listed
    exact ⟨good.sound w stored', good.together v stored w stored' (mine.1.trans mine'.1.symm) (mine.2.trans mine'.2.symm)
      (open' v mem).1 (open' w listed).1⟩
  have short : ∀ w ∈ s.transfers.selected task attempt, w.controls.length < 128 := by
    intro w listed
    have same := (others w listed).2.length
    have room := sound.room paused
    omega
  have small : ∀ w ∈ s.transfers.selected task attempt, w.revision + 1 < 2 ^ 64 := by
    intro w listed
    have counted := (others w listed).1.counted
    have low := short w listed
    omega
  have named : ∀ w ∈ s.transfers.selected task attempt,
      (w.key, w.revision) ∈ (s.transfers.resume task attempt id ownerRevision).revisions := by
    intro w listed
    simp only [Transfers.resume, Transfers.observations, List.map_map]
    exact List.mem_map.mpr ⟨w, listed, rfl⟩
  obtain ⟨values, each⟩ := @resume_each _ _ s.transfers _ d 0 working rfl new named short small
  have unseen : s.transfers.recorded (s.transfers.resume task attempt id ownerRevision) = [] := by
    rw [Transfers.recorded, List.filter_eq_nil_iff]
    intro w listed
    have fresh : w.control (s.transfers.resume task attempt id ownerRevision).id = none := new w listed
    rw [fresh]
    simp
  have able : (s.transfers.selected task attempt).any (fun w => !w.resumable || w.cancelled) = false := by
    rw [List.any_eq_false]
    intro w listed
    simp [(others w listed).2.resumable (sound.started paused), (open' w listed).1]
  have some : s.transfers.selected task attempt ≠ [] := List.ne_nil_of_mem mem
  have all : (s.transfers.resume task attempt id ownerRevision).revisions.length = (s.transfers.selected task attempt).length := by
    simp [Transfers.resume, Transfers.observations]
  have fits : ¬(s.transfers.selected task attempt = [] ∨
      (s.transfers.resume task attempt id ownerRevision).revisions.length ≠ (s.transfers.selected task attempt).length ∨
      ((s.transfers.selected task attempt).any fun w => !w.resumable || w.cancelled) = true) := by
    rw [able]
    simp [some, all]
  exact ⟨values, control_new unseen fits working each⟩

end Ends

/-! ## Consistent and reversible controls -/

section Runs
variable {s t : System} {acts : List Act} {a : Act} {c : Command}

theorem accepts_paused (accepts : a.Accepts c) : ∀ w ∈ a.after.transfers.selected c.task c.attempt, w.paused = c.pause := by
  obtain ⟨called, unseen, confirmed, told⟩ := accepts
  have cases := control_cases a.before.transfers a.io c a.before.disk
  have after : a.after.transfers = (a.before.transfers.control a.io a.before.disk c).1 := by
    rw [Act.after, called]
    rfl
  have reply : (a.before.transfers.control a.io a.before.disk c).2.2 = .ok confirmed := by
    rw [← told, Act.reply, called]
    rfl
  rw [after]
  generalize a.before.transfers.control a.io a.before.disk c = result at cases reply
  obtain ⟨r, d, answer⟩ := result
  cases cases with
  | refused => cases reply
  | replayed _ seen => simp [unseen] at seen
  | accepted values confirmed' new some all able flushed related recorded =>
    intro w mem
    obtain ⟨now, mine⟩ := mem_selected_get.mp mem
    rcases selected_related related w.identity with ⟨v, -, w', -, -, found, -, -, durable, rfl, -⟩ | ⟨unlisted, same⟩
    · have same := now.symm.trans found
      cases same
      rfl
    · have before : a.before.transfers.consumers.get w.identity = Option.some w := same.symm.trans now
      exact absurd (List.mem_map_of_mem (mem_selected_get.mpr ⟨before, mine⟩)) unlisted

/-- What is promised of content controls after the calls of a run. -/
structure Consistent (acts : List Act) (s : System) : Prop where
  replays : ∀ earlier a later c, acts = earlier ++ a :: later → a.Accepts c →
    (∀ b ∈ later, b.before.transfers.Open c.task c.attempt) → s.transfers.Open c.task c.attempt →
    ∀ io c', c'.task = c.task → c'.attempt = c.attempt → c'.id = c.id →
      (c.Repeats c' → ∃ confirmed, s.transfers.receipt c.task c.attempt c.id = some confirmed ∧
        s.transfers.control io s.disk c' = (s.transfers, s.disk, .ok confirmed)) ∧
      (¬c.Repeats c' → s.transfers.control io s.disk c' = (s.transfers, s.disk, .error .conflict))
  raises : ∀ a ∈ acts, ∀ c, a.Accepts c → ∀ v ∈ a.before.transfers.selected c.task c.attempt,
    ∃ w, a.after.transfers.consumers.get v.identity = some w ∧ w.revision = v.revision + 1
  confirms : ∀ earlier a later c, acts = earlier ++ a :: later → a.call = .control c → c.pause = true → a.reply = .ok true →
    ∀ v ∈ a.after.transfers.selected c.task c.attempt, ∃ b ∈ earlier ++ [a], b.Confirms v.identity c.id ∧ b.Backs v
  resumes : ∀ task attempt, s.transfers.Open task attempt → (∃ v ∈ s.transfers.selected task attempt, v.paused = true) →
    ∀ io id ownerRevision, (∀ access, io access = true) → (∀ v ∈ s.transfers.selected task attempt, v.control id = none) →
      let a : Act := ⟨s, .control (s.transfers.resume task attempt id ownerRevision), io⟩
      a.reply = .ok true ∧ ∀ w ∈ a.after.transfers.selected task attempt, w.paused = false
  ended : ∀ a ∈ acts, ∀ v ∈ a.before.transfers.consumers.entries, v.cancelled = true ∨ v.retired = true →
    ∀ w, s.transfers.consumers.get v.identity = some w → ∀ cache, w.active cache = false
  coherent : ∀ a ∈ acts, a.after.transfers.Coherent

theorem Backed.run (good : Good s) (backed : Backed [] s.transfers) (run : Runs Step s acts t) (fits : Fitting acts) :
    Backed acts t.transfers := by
  refine (run.history (fun done t => Fitting done → Good t ∧ Backed done t.transfers) (fun _ => ⟨good, backed⟩) ?_ fits).2
  intro done t a u before step fits
  obtain ⟨good, backed⟩ := before fits.front
  exact ⟨good.step step fits.last, backed.step good step⟩

theorem Ended.run (good : Good s) (run : Runs Step s acts t) (fits : Fitting acts) : Ended acts t.transfers := by
  refine (run.history (fun done t => Fitting done → Good t ∧ Ended done t.transfers)
    (fun _ => ⟨good, fun _ mem => nomatch mem⟩) ?_ fits).2
  intro done t a u before step fits
  obtain ⟨good, ended⟩ := before fits.front
  exact ⟨good.step step fits.last, ended.step good step fits.last⟩

theorem Fitting.before {earlier later : List Act} (fits : Fitting (earlier ++ later)) : Fitting earlier := by
  intro before a after same
  apply fits before a (after ++ later)
  rw [same, List.append_assoc, List.cons_append]

theorem Recorded.run {later : List Act} (before : List Act) (good : Good s) (recorded : Recorded s.transfers c)
    (run : Runs Step s later t) (fits : Fitting (before ++ later))
    (open' : ∀ b ∈ later, b.before.transfers.Open c.task c.attempt) (now : t.transfers.Open c.task c.attempt) :
    Recorded t.transfers c := by
  have all := run.history (fun done t => Fitting (before ++ done) → (∀ b ∈ done, b.before.transfers.Open c.task c.attempt) →
    t.transfers.Open c.task c.attempt → Good t ∧ Recorded t.transfers c) (fun _ _ _ => ⟨good, recorded⟩) ?_
  · exact (all fits open' now).2
  intro done t a u earlier step fits open' now
  rw [← List.append_assoc] at fits
  have here : t.transfers.Open c.task c.attempt := step.1 ▸ open' a (by simp)
  obtain ⟨good, recorded⟩ := earlier fits.front (fun b mem => open' b (by simp [mem])) here
  exact ⟨good.step step fits.last, recorded.step here now step fits.last good⟩

theorem Recorded.receipt {r : Transfers} (recorded : Recorded r c) (sound : ∀ v ∈ r.consumers.entries, v.Sound) :
    r.receipt c.task c.attempt c.id =
      Option.some ((r.selected c.task c.attempt).all fun v => (v.control c.id).any (·.confirmed)) := by
  have each : ∀ v ∈ r.selected c.task c.attempt,
      (v.controls.any fun record => decide (record.id = c.id) && record.confirmed) = (v.control c.id).any (·.confirmed) := by
    intro v mem
    obtain ⟨record, found, -⟩ := recorded.records v mem
    have placed := List.mem_of_find?_eq_some found
    have named : record.id = c.id := by simpa using List.find?_some found
    rw [found, Option.any_some, Bool.eq_iff_iff, List.any_eq_true]
    constructor
    · rintro ⟨other, mem', sure⟩
      rw [Bool.and_eq_true, decide_eq_true_eq] at sure
      have same : other = record := List.inj_on_of_nodup_map (sound v (mem_selected.mp mem).1).distinct mem' placed
        (sure.1.trans named.symm)
      rw [← same]
      exact sure.2
    · intro sure
      exact ⟨record, placed, by simp [named, sure]⟩
  have seen : ((r.selected c.task c.attempt).isEmpty || (r.selected c.task c.attempt).any fun v => (v.control c.id).isNone) =
      false := by
    rw [Bool.or_eq_false_iff, List.any_eq_false]
    refine ⟨by simpa using recorded.some, fun v mem => ?_⟩
    obtain ⟨record, found, -⟩ := recorded.records v mem
    rw [found]
    simp
  unfold Transfers.receipt
  dsimp only
  rw [seen]
  simp only [Bool.false_eq_true, if_false, Option.some.injEq]
  rw [Bool.eq_iff_iff, List.all_eq_true, List.all_eq_true]
  constructor
  · exact fun all v mem => each v mem ▸ all v mem
  · exact fun all v mem => (each v mem).symm ▸ all v mem

/-- In a run whose calls all fit, controls stay consistent and reversible. -/
theorem controls_consistent {limit : Nat} (run : Runs Step (.start limit) acts s) (fits : Fitting acts) :
    Consistent acts s := by
  have good := (Good.start limit).run run fits
  refine ⟨?_, ?_, ?_, ?_, ?_, ?_⟩
  · rintro earlier a later c rfl accepts during now io c' task attempt id
    obtain ⟨middle, last, first, step, rest⟩ := run.around
    have before := (Good.start limit).run first fits.before
    have fits' : Fitting ((earlier ++ [a]) ++ later) := by simpa using fits
    have after := before.step step fits'.before.last
    have recorded : Recorded last.transfers c := step.2 ▸ accepts_recorded accepts
    have kept := recorded.run (earlier ++ [a]) after rest fits' during now
    obtain ⟨same, other⟩ := kept.replay io s.disk task attempt id
    exact ⟨fun repeats => ⟨_, kept.receipt good.orderly.sound, same repeats⟩, other⟩
  · intro a _ c accepts v mem
    rcases accepts_raises accepts v.identity with ⟨u, w, -, before, after, raised⟩ | ⟨apart, -⟩ | ⟨none, -⟩
    · rw [Rows.get_of_mem (mem_selected.mp mem).1] at before
      cases before
      exact ⟨w, after, raised⟩
    · exact absurd (mem_selected.mp mem).2 apart
    · rw [Rows.get_of_mem (mem_selected.mp mem).1] at none
      cases none
  · rintro earlier a later c rfl called pause sure v mem
    obtain ⟨middle, last, first, step, rest⟩ := run.around
    have fits' : Fitting ((earlier ++ [a]) ++ later) := by simpa using fits
    have backed := Backed.run (Good.start limit) (fun _ mem => nomatch mem) (first.next step) fits'.before
    rw [← step.2] at backed
    have confirms := answer_confirms called sure v mem
    rw [pause] at confirms
    exact backed v (mem_selected.mp mem).1 c.id confirms
  · rintro task attempt open' ⟨v, mem, paused⟩ io id ownerRevision working new
    obtain ⟨values, told⟩ := resumes good.orderly open' mem paused new working ownerRevision s.disk
    have reply : (Act.mk s (.control (s.transfers.resume task attempt id ownerRevision)) io).reply = .ok true := by
      simp [Act.reply, System.perform, told]
    refine ⟨reply, accepts_paused ⟨rfl, ?_, true, reply⟩⟩
    rw [Transfers.recorded, List.filter_eq_nil_iff]
    intro w listed
    have fresh : w.control (s.transfers.resume task attempt id ownerRevision).id = none := new w listed
    rw [fresh]
    simp
  · intro a mem v stored gone w now cache
    have cancelled : v.cancelled = true := by
      rcases gone with cancelled | retired
      · exact cancelled
      · obtain ⟨earlier, later, rfl⟩ := List.append_of_mem mem
        obtain ⟨middle, last, first, step, rest⟩ := run.around
        have before := (Good.start limit).run first fits.before
        rw [step.1] at stored
        exact (before.orderly.sound v stored).retired retired
    have ended := Ended.run (Good.start limit) run fits a mem v stored cancelled w now
    unfold Consumer.active
    rw [ended]
    simp
  · intro a mem
    obtain ⟨earlier, later, rfl⟩ := List.append_of_mem mem
    obtain ⟨middle, last, first, step, rest⟩ := run.around
    have fits' : Fitting ((earlier ++ [a]) ++ later) := by simpa using fits
    have after := (Good.start limit).run (first.next step) fits'.before
    rw [step.2]
    exact after.orderly.coherent

end Runs

section Sample

def working : Access → Bool := fun _ => true

def System.acts (s : System) : List Call → List Act
  | [] => []
  | call :: rest => ⟨s, call, working⟩ :: ((s.perform working call).1.acts rest)

def System.after (s : System) : List Call → System
  | [] => s
  | call :: rest => (s.perform working call).1.after rest

theorem acts_run (s : System) (calls : List Call) : Runs Step s (s.acts calls) (s.after calls) := by
  induction calls generalizing s with
  | nil => exact .refl
  | cons call rest ih => exact (Runs.one ⟨rfl, rfl⟩).trans (ih _)

theorem acts_append (s : System) (first second : List Call) :
    s.acts (first ++ second) = s.acts first ++ (s.after first).acts second := by
  induction first generalizing s with
  | nil => rfl
  | cons call rest ih => exact congrArg (Act.mk s call working :: ·) (ih _)

def sampleCache : String := String.ofList (List.replicate 64 'a')

def samplePause : Command := ⟨1, 1, "pause", 0, [("0/installer", 0)], true⟩

def sampleStart : List Call :=
  [.attach ⟨1, 1, "0/installer"⟩ sampleCache (some 10) true, .lease sampleCache, .append 10]

def sampleLater : List Call :=
  [.finish, .complete, .attach ⟨1, 1, "native/0"⟩ (String.ofList (List.replicate 64 'b')) none false]

theorem late_source_blocks : ∃ acts s, Runs Step (.start 64) acts s ∧ ¬Consistent acts s := by
  refine ⟨_, _, acts_run (.start 64) (sampleStart ++ .control samplePause :: sampleLater), fun all => ?_⟩
  rw [acts_append] at all
  have accepted : (Act.mk ((System.start 64).after sampleStart) (.control samplePause) working).Accepts samplePause :=
    ⟨rfl, by decide +kernel, false, by rfl⟩
  obtain ⟨same, -⟩ := all.replays _ _ _ samplePause rfl accepted (by decide +kernel) (by decide +kernel) working samplePause
    rfl rfl rfl
  obtain ⟨confirmed, -, told⟩ := same ⟨rfl, rfl, .refl _⟩
  have refused : (((System.start 64).after (sampleStart ++ .control samplePause :: sampleLater)).transfers.control working
      ((System.start 64).after (sampleStart ++ .control samplePause :: sampleLater)).disk samplePause).2.2 =
      .error .conflict := by rfl
  rw [told] at refused
  cases refused

def FitsAfter (earlier : List Act) : List Act → Prop
  | [] => True
  | a :: rest => a.Fits earlier ∧ FitsAfter (earlier ++ [a]) rest

theorem FitsAfter.fitting {earlier acts : List Act} (fits : FitsAfter earlier acts) :
    ∀ front a rest, acts = front ++ a :: rest → a.Fits (earlier ++ front) := by
  induction acts generalizing earlier with
  | nil =>
    intro front a rest same
    cases front <;> cases same
  | cons first later ih =>
    intro front a rest same
    cases front with
    | nil =>
      cases same
      simpa using fits.1
    | cons head front =>
      obtain ⟨rfl, rfl⟩ := List.cons.inj same
      simpa using ih fits.2 front a rest rfl

def sampleResumed : List Call :=
  sampleStart ++ [.control samplePause, .stop, .paused, .control ⟨1, 1, "resume", 1, [("0/installer", 1)], false⟩]

theorem controls_consistent_sample :
    Consistent ((System.start 64).acts sampleResumed) ((System.start 64).after sampleResumed) := by
  have fits : FitsAfter [] ((System.start 64).acts sampleResumed) := by
    refine ⟨fun _ => ⟨?_, ?_⟩, trivial, trivial, fun _ _ => ?_, trivial, trivial, fun pause => ?_, trivial⟩
    · exact fun v mem => nomatch mem
    · exact fun b mem => nomatch mem
    · decide +kernel
    · cases pause
  exact controls_consistent (acts_run (.start 64) sampleResumed) fun front a rest same => fits.fitting front a rest same

end Sample

end RssMdmAgent.ContentTransfers
