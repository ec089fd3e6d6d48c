import RssMdmAgent.CollectedMaintenance
import RssMdmAgent.TransitionRuns

set_option autoImplicit false

/-! # Runs of commits, captures and maintenance on one namespace -/

namespace RssMdmAgent.CollectedRuns
open OrderedRows CollectedValues ProjectionStore CollectedSnapshots CollectedMaintenance TransitionRuns

section Steps
variable {V R : Type} (e : Encoding V) (r : Redactor V)

inductive Op (V R : Type) where
  | commit (values : List (String × Record V R)) (remove : List String)
  | capture (values : List (CollectedData V)) (extra : List (String × Record V R))
  | maintain (w : World R)

def transact (d : Data V R) : Except Error (CollectedStore (Record V R)) → Except Error Unit × Data V R
  | .ok store => (.ok (), { d with store })
  | .error f => (.error f, d)

def perform (op : Op V R) (d : Data V R) : Except Error Unit × Data V R :=
  match op with
  | .commit values remove => transact d (d.store.commit (Record.size e) values remove)
  | .capture values extra => transact d (snapshots e r d.store values extra)
  | .maintain w => (maintain e w).run.run d

/-- The batch an operation commits: what it writes and what it removes. -/
def batchOf (op : Op V R) (d : Data V R) : List (String × Record V R) × List String :=
  match op with
  | .commit values remove => (values, remove)
  | .capture values extra =>
    match collect e r d.store values extra with
    | .ok b => (b.writes.entries, b.remove)
    | .error _ => ([], [])
  | .maintain _ => ([], [])

structure Trace (V R : Type) where
  data : Data V R
  clock : Nat
  stamp : String → Option Nat

def Trace.advance (t : Trace V R) (op : Op V R) : Trace V R where
  data := (perform e r op t.data).2
  clock := t.clock + 1
  stamp := match (perform e r op t.data).1 with
    | .ok () => fun key => if key ∈ (batchOf e r op t.data).1.map Prod.fst then some t.clock else t.stamp key
    | .error _ => t.stamp

def Trace.start (d : Data V R) : Trace V R := ⟨d, 0, fun _ => none⟩

def Trace.row (t : Trace V R) (key : String) : Option (String × Record V R) :=
  t.data.store.table.get (t.data.store.space ++ key)

def Trace.present (t : Trace V R) (key : String) : Prop := ∃ row, t.row key = some row

def Op.Fine (t : Trace V R) : Op V R → Prop
  | .commit values _ => ∀ value ∈ values, hasPrefix "latest/" value.1 = false ∧ hasPrefix "result/" value.1 = false ∧
      ∀ request, value.1 = inputKey request → ¬ t.present (resultKey request)
  | .capture values extra => Proper values extra ∧
      ∀ value ∈ values, (∃ material ∈ extra, material.1 = projectedKey value.query.id) ∨ ¬ t.present (projectedKey value.query.id)
  | .maintain _ => True

structure Holds (t : Trace V R) : Prop where
  finished : ∀ request, t.present (resultKey request) → ¬ t.present (inputKey request)
  paired : ∀ id, t.present (latestKey id) → t.present (projectedKey id) →
    t.stamp (latestKey id) = t.stamp (projectedKey id)

/-- What holds of every operation. -/
structure Sound (t : Trace V R) (op : Op V R) : Prop where
  quotas : (∀ w, op ≠ .maintain w) → (perform e r op t.data).1 = .ok () →
    ((t.advance e r op).data.store.own (t.advance e r op).data.store.table).length ≤ t.data.store.records ∧
    bodies (Record.size e) ((t.advance e r op).data.store.own (t.advance e r op).data.store.table) ≤ t.data.store.bytes
  removed : (∀ w, op ≠ .maintain w) → ∀ key row, t.data.store.table.get key = some row →
    (t.advance e r op).data.store.table.get key = none →
    key ∈ (batchOf e r op t.data).2.map (t.data.store.space ++ ·) ∨
    (t.data.store.evictable key = true ∧ key ∉ (batchOf e r op t.data).1.map fun value => t.data.store.space ++ value.1)
  failed : (∀ w, op ≠ .maintain w) → ∀ f, (perform e r op t.data).1 = .error f → (t.advance e r op).data = t.data
  receipt : ∀ request, (t.advance e r op).present (resultKey request) → ¬ t.present (resultKey request) →
    (∃ values extra, op = .capture values extra ∧ ∃ value ∈ values, value.request = some request) ∧
    (perform e r op t.data).1 = .ok () ∧
    (∀ value ∈ (batchOf e r op t.data).1, (t.advance e r op).present value.1) ∧
    ¬ (t.advance e r op).present (inputKey request)
  fresh : ∀ id before p after q, hasPrefix "projected:" id = false → t.row (latestKey id) = some (before, .collected p) →
    (t.advance e r op).row (latestKey id) = some (after, .collected q) → notLater p.collectedAt q.collectedAt = true

end Steps

section Effects
variable {V R : Type} {e : Encoding V} {r : Redactor V} {t : Trace V R} {op : Op V R} {d : Data V R}
  {values : List (CollectedData V)} {extra : List (String × Record V R)}

theorem transact_ok {x : Except Error (CollectedStore (Record V R))} (ok : (transact d x).1 = .ok ()) :
    x = .ok (transact d x).2.store := by
  cases x with
  | ok store => rfl
  | error f => cases ok

theorem transact_error {x : Except Error (CollectedStore (Record V R))} {f : Error} (failed : (transact d x).1 = .error f) :
    (transact d x).2 = d := by
  cases x with
  | ok store => cases failed
  | error f => rfl

theorem perform_ok (transaction : ∀ w, op ≠ .maintain w) (ok : (perform e r op d).1 = .ok ()) :
    ∃ rows, rows.Perm (batchOf e r op d).1 ∧
      Committed d.store (Record.size e) rows (batchOf e r op d).2 (perform e r op d).2.store := by
  cases op with
  | commit values remove => exact ⟨values, .refl _, commit_committed (transact_ok ok)⟩
  | capture values extra =>
    obtain ⟨b, collected, committed⟩ := snapshots_committed (transact_ok ok)
    unfold batchOf
    simp only [collected]
    exact ⟨_, List.perm_insertionSort _ _, committed⟩
  | maintain w => exact absurd rfl (transaction w)

theorem perform_error (transaction : ∀ w, op ≠ .maintain w) {f : Error} (failed : (perform e r op d).1 = .error f) :
    (perform e r op d).2 = d := by
  cases op with
  | commit values remove => exact transact_error failed
  | capture values extra => exact transact_error failed
  | maintain w => exact absurd rfl (transaction w)

def Trace.batch (e : Encoding V) (r : Redactor V) (t : Trace V R) (op : Op V R) : List (String × Record V R) × List String :=
  match (perform e r op t.data).1 with
  | .ok () => batchOf e r op t.data
  | .error _ => ([], [])

/-- How an operation changes the namespace. -/
structure Moves (e : Encoding V) (r : Redactor V) (t : Trace V R) (op : Op V R) : Prop where
  space : (t.advance e r op).data.store.space = t.data.store.space
  limits : (t.advance e r op).data.store.bytes = t.data.store.bytes ∧ (t.advance e r op).data.store.records = t.data.store.records
  stamp : ∀ key, (t.advance e r op).stamp key = if key ∈ (t.batch e r op).1.map Prod.fst then some t.clock else t.stamp key
  written : ∀ value ∈ (t.batch e r op).1, ∃ row, (t.advance e r op).row value.1 = some row ∧ row.2 = value.2
  kept : ∀ key row, key ∉ (t.batch e r op).1.map Prod.fst → (t.advance e r op).row key = some row →
    t.row key = some row ∧ key ∉ (t.batch e r op).2
  small : (∀ row ∈ t.data.store.own t.data.store.table, row.2.size e ≤ t.data.store.bytes) →
    ∀ row ∈ (t.advance e r op).data.store.own (t.advance e r op).data.store.table, row.2.size e ≤ t.data.store.bytes

theorem le_bodies {β : Type} {size : β → Nat} {rows : List (String × β)} {row : String × β} (mem : row ∈ rows) :
    size row.2 ≤ bodies size rows :=
  List.single_le_sum (fun _ _ => Nat.zero_le _) _ (List.mem_map_of_mem (f := fun row => size row.2) mem)

theorem moves_of_shrinks (shrunk : Shrinks t.data (perform e r op t.data).2) (none : t.batch e r op = ([], []))
    (stamp : (t.advance e r op).stamp = t.stamp) : Moves e r t op := by
  refine ⟨shrunk.space, shrunk.limits, fun key => ?_, ?_, fun key row _ found => ?_, fun small row mem => ?_⟩
  · rw [none, stamp]
    simp
  · rw [none]
    simp
  · rw [none]
    refine ⟨?_, by simp⟩
    obtain ⟨mem, same⟩ := Rows.get_iff.mp found
    refine Rows.get_iff.mpr ⟨shrunk.rows row mem, same.trans ?_⟩
    exact congrArg (· ++ key) shrunk.space
  · obtain ⟨mem, own⟩ := Rows.mem_select.mp mem
    refine small row (Rows.mem_select.mpr ⟨shrunk.rows row mem, ?_⟩)
    unfold CollectedStore.within at own ⊢
    rwa [← show (t.advance e r op).data.store.space = t.data.store.space from shrunk.space]

theorem advance_moves : Moves e r t op := by
  by_cases transaction : ∀ w, op ≠ .maintain w
  · cases outcome : (perform e r op t.data).1 with
    | error f =>
      have same := perform_error transaction outcome
      have none : t.batch e r op = ([], []) := by
        unfold Trace.batch
        rw [outcome]
      have shrunk : Shrinks t.data (perform e r op t.data).2 := by
        rw [same]
        exact Shrinks.refl _
      refine moves_of_shrinks shrunk none ?_
      unfold Trace.advance
      simp only [outcome]
    | ok =>
      obtain ⟨rows, sorted, committed⟩ := perform_ok transaction outcome
      have batch : t.batch e r op = batchOf e r op t.data := by
        unfold Trace.batch
        rw [outcome]
      have keys : ∀ key, key ∈ (batchOf e r op t.data).1.map Prod.fst ↔
          t.data.store.space ++ key ∈ rows.map fun value => t.data.store.space ++ value.1 := by
        intro key
        rw [← (sorted.map Prod.fst).mem_iff]
        simp only [List.mem_map]
        constructor
        · rintro ⟨value, mem, rfl⟩
          exact ⟨value, mem, rfl⟩
        · rintro ⟨value, mem, same⟩
          exact ⟨value, mem, append_right_injective same⟩
      refine ⟨committed.space, committed.limits, fun key => ?_, fun value mem => ?_, fun key row outside found => ?_,
        fun _ row mem => ?_⟩
      · rw [batch]
        unfold Trace.advance
        simp only [outcome]
      · rw [batch] at mem
        refine ⟨(t.data.store.space ++ value.1, value.2), ?_, rfl⟩
        show (perform e r op t.data).2.store.table.get ((perform e r op t.data).2.store.space ++ value.1) = some _
        rw [committed.space]
        exact committed.written value (sorted.mem_iff.mpr mem)
      · rw [batch] at outside ⊢
        change (perform e r op t.data).2.store.table.get ((perform e r op t.data).2.store.space ++ key) = some row at found
        rw [committed.space] at found
        obtain ⟨before, stays⟩ := committed.kept _ row found fun listed => outside ((keys key).mpr listed)
        exact ⟨before, fun removed => stays (List.mem_map_of_mem removed)⟩
      · exact Nat.le_trans (le_bodies mem) (committed.limits.1 ▸ committed.bytes)
  · obtain ⟨w, rfl⟩ := not_forall_not.mp transaction
    have none : t.batch e r (.maintain w) = ([], []) := by
      unfold Trace.batch batchOf
      split <;> rfl
    refine moves_of_shrinks (maintain_shrinks t.data) none ?_
    unfold Trace.advance batchOf
    simp only
    split
    · funext key
      simp
    · rfl

structure Steady (e : Encoding V) (t : Trace V R) : Prop where
  holds : Holds t
  plain : ∀ id, t.present (projectedKey id) → hasPrefix "projected:" id = false
  small : ∀ row ∈ t.data.store.own t.data.store.table, row.2.size e ≤ t.data.store.bytes

/-- The batch of a fine operation: results and latest values are those of a capture, which brings their projections and
removes the inputs of its results. -/
structure FineBatch (e : Encoding V) (r : Redactor V) (t : Trace V R) (op : Op V R) : Prop where
  result : ∀ request, resultKey request ∈ (t.batch e r op).1.map Prod.fst →
    (∃ values extra, op = .capture values extra ∧ ∃ value ∈ values, value.request = some request) ∧
    inputKey request ∈ (t.batch e r op).2
  input : ∀ request, inputKey request ∈ (t.batch e r op).1.map Prod.fst → ¬ t.present (resultKey request) ∧
    ∀ values extra, op ≠ .capture values extra
  beside : ∀ id, projectedKey id ∈ (t.batch e r op).1.map Prod.fst → hasPrefix "projected:" id = false ∧
    latestKey id ∈ (t.batch e r op).1.map Prod.fst
  along : ∀ id, hasPrefix "projected:" id = false → latestKey id ∈ (t.batch e r op).1.map Prod.fst →
    projectedKey id ∈ (t.batch e r op).1.map Prod.fst ∨ ¬ t.present (projectedKey id)
  newer : ∀ id, hasPrefix "projected:" id = false → ∀ row ∈ (t.batch e r op).1, row.1 = latestKey id →
    ∃ v previous, row.2 = .collected v ∧ latest e t.data.store (latestKey id) = .ok previous ∧
      ∀ p, previous = some p → notLater p.collectedAt v.collectedAt = true

theorem hasPrefix_latest (id : String) : hasPrefix "latest/" (latestKey id) = true := hasPrefix_append _ _

theorem hasPrefix_result (request : String) : hasPrefix "result/" (resultKey request) = true := hasPrefix_append _ _

theorem hasPrefix_input (request : String) : hasPrefix "input/" (inputKey request) = true := hasPrefix_append _ _

theorem Proper.key_cases (proper : Proper values extra) {row : String × Record V R} (mem : row ∈ extra) :
    (∃ value ∈ values, row.1 = projectedKey value.query.id) ∨
      (∀ id, row.1 ≠ latestKey id) ∧ (∀ id, row.1 ≠ resultKey id) ∧ ∀ id, row.1 ≠ inputKey id := by
  refine (proper.materials row mem).imp_right fun ⟨latest, result, input⟩ => ⟨?_, ?_, ?_⟩
  · intro id same
    rw [same, hasPrefix_latest] at latest
    cases latest
  · intro id same
    rw [same, hasPrefix_result] at result
    cases result
  · intro id same
    rw [same, hasPrefix_input] at input
    cases input

theorem has_iff_mem {table : Table (Record V R)} {key : String} : table.has key = true ↔ key ∈ table.entries.map Prod.fst := by
  rw [Rows.has_iff, List.mem_map]
  constructor
  · rintro ⟨row, found⟩
    exact ⟨row, Rows.get_mem found, Rows.get_key found⟩
  · rintro ⟨row, mem, rfl⟩
    exact ⟨row, Rows.get_of_mem mem⟩

theorem fineBatch_empty (none : t.batch e r op = ([], [])) : FineBatch e r t op := by
  constructor <;> simp [none]

theorem fineBatch_commit {rows : List (String × Record V R)} {remove : List String}
    (fine : Op.Fine t (.commit rows remove)) (batch : t.batch e r (.commit rows remove) = (rows, remove)) :
    FineBatch e r t (.commit rows remove) := by
  have keys : ∀ key ∈ rows.map Prod.fst, hasPrefix "latest/" key = false ∧ hasPrefix "result/" key = false := by
    intro key listed
    obtain ⟨row, mem, rfl⟩ := List.mem_map.mp listed
    exact ⟨(fine row mem).1, (fine row mem).2.1⟩
  have latest : ∀ id, latestKey id ∉ rows.map Prod.fst := by
    intro id mem
    have := (keys _ mem).1
    rw [hasPrefix_latest] at this
    cases this
  have result : ∀ request, resultKey request ∉ rows.map Prod.fst := by
    intro request mem
    have := (keys _ mem).2
    rw [hasPrefix_result] at this
    cases this
  rw [show rows = (t.batch e r (.commit rows remove)).1 by rw [batch]] at latest result
  refine ⟨fun request mem => absurd mem (result request), fun request mem => ⟨?_, fun _ _ same => by cases same⟩,
    fun id mem => ?_, fun id _ mem => absurd mem (latest id), fun id _ row mem same => ?_⟩
  · rw [batch] at mem
    obtain ⟨row, mem, named⟩ := List.mem_map.mp mem
    exact (fine row mem).2.2 request named
  · rw [projectedKey_eq] at mem
    exact absurd mem (latest _)
  · exact absurd (List.mem_map.mpr ⟨row, mem, same⟩) (latest id)

theorem fineBatch_capture {b : Batch V R} (fine : Op.Fine t (.capture values extra))
    (collected : collect e r t.data.store values extra = .ok b)
    (batch : t.batch e r (.capture values extra) = (b.writes.entries, b.remove)) :
    FineBatch e r t (.capture values extra) := by
  obtain ⟨proper, brings⟩ := fine
  have c := collect_captured proper collected
  have plainRow : ∀ id, hasPrefix "projected:" id = false → ∀ row ∈ b.writes.entries, row.1 = latestKey id →
      ∃ value ∈ values, value.query.id = id ∧ FromValue e r t.data.store value row := by
    intro id plain row mem named
    rcases c.source row mem with ⟨value, owner, wrote⟩ | material
    · rcases fromValue_query wrote with same | ⟨request, _, same⟩
      · exact ⟨value, owner, append_right_injective (same.symm.trans named), wrote⟩
      · exact absurd (named.symm.trans same) (latest_ne_result _ _)
    · rcases Proper.key_cases proper material with ⟨value, _, same⟩ | ⟨other, _⟩
      · rw [projectedKey_eq, named] at same
        rw [append_right_injective same, hasPrefix_append] at plain
        cases plain
      · exact absurd named (other id)
  constructor <;> simp only [batch]
  · intro request mem
    obtain ⟨row, mem, named⟩ := List.mem_map.mp mem
    rcases c.source row mem with ⟨value, owner, wrote⟩ | material
    · rcases fromValue_query wrote with same | ⟨other, asked, same⟩
      · exact absurd (same.symm.trans named) (latest_ne_result _ _)
      · rw [append_right_injective (same.symm.trans named)] at asked
        exact ⟨⟨values, extra, rfl, value, owner, asked⟩, (c.result value owner request asked).2⟩
    · rcases Proper.key_cases proper material with ⟨value, _, same⟩ | ⟨_, other, _⟩
      · rw [projectedKey_eq] at same
        exact absurd (same.symm.trans named) (latest_ne_result _ _)
      · exact absurd named (other request)
  · intro request mem
    obtain ⟨row, mem, named⟩ := List.mem_map.mp mem
    rcases c.source row mem with ⟨value, owner, wrote⟩ | material
    · rcases fromValue_query wrote with same | ⟨other, asked, same⟩
      · exact absurd (same.symm.trans named) (latest_ne_input _ _)
      · exact absurd (same.symm.trans named) (result_ne_input _ _)
    · rcases Proper.key_cases proper material with ⟨value, _, same⟩ | ⟨_, _, other⟩
      · rw [projectedKey_eq] at same
        exact absurd (same.symm.trans named) (latest_ne_input _ _)
      · exact absurd named (other request)
  · intro id mem
    obtain ⟨⟨value, owner, rfl⟩, known⟩ := c.beside id (has_iff_mem.mpr mem)
    exact ⟨proper.queries value owner, has_iff_mem.mp known⟩
  · intro id plain mem
    have known := has_iff_mem.mpr mem
    obtain ⟨row, mem, named⟩ := List.mem_map.mp mem
    obtain ⟨value, owner, rfl, _⟩ := plainRow id plain row mem named
    exact (brings value owner).imp_left fun asked => has_iff_mem.mp (c.along value owner known asked)
  · intro id plain row mem named
    obtain ⟨value, owner, rfl, wrote⟩ := plainRow id plain row mem named
    cases wrote with
    | latest kept read newer =>
      rw [show latestKey _ = latestKey value.query.id from named] at read
      exact ⟨_, _, rfl, read, newer⟩
    | result kept asked => exact absurd named.symm (latest_ne_result _ _)

theorem fine_batch (fine : op.Fine t) : FineBatch e r t op := by
  cases outcome : (perform e r op t.data).1 with
  | error f =>
    apply fineBatch_empty
    unfold Trace.batch
    rw [outcome]
  | ok =>
    have batch : t.batch e r op = batchOf e r op t.data := by
      unfold Trace.batch
      rw [outcome]
    cases op with
    | commit rows remove => exact fineBatch_commit fine batch
    | capture values extra =>
      obtain ⟨b, collected, _⟩ := snapshots_committed (transact_ok outcome)
      refine fineBatch_capture fine collected (batch.trans ?_)
      unfold batchOf
      simp only [collected]
    | maintain w => exact fineBatch_empty batch

theorem present_cases (m : Moves e r t op) {key : String} (h : (t.advance e r op).present key) :
    key ∈ (t.batch e r op).1.map Prod.fst ∨
      (key ∉ (t.batch e r op).1.map Prod.fst ∧ t.present key ∧ key ∉ (t.batch e r op).2) := by
  obtain ⟨row, found⟩ := h
  by_cases wrote : key ∈ (t.batch e r op).1.map Prod.fst
  · exact .inl wrote
  · obtain ⟨before, stays⟩ := m.kept key row wrote found
    exact .inr ⟨wrote, ⟨row, before⟩, stays⟩

theorem step_holds (steady : Steady e t) (fine : op.Fine t) : Holds (t.advance e r op) := by
  have m : Moves e r t op := advance_moves
  have f : FineBatch e r t op := fine_batch fine
  constructor
  · intro request result input
    rcases present_cases m input with wrote | ⟨_, before, stays⟩
    · obtain ⟨absent, plain⟩ := f.input request wrote
      rcases present_cases m result with wrote | ⟨_, there, _⟩
      · obtain ⟨values, extra, same, _⟩ := (f.result request wrote).1
        exact plain values extra same
      · exact absent there
    · rcases present_cases m result with wrote | ⟨_, there, _⟩
      · exact stays (f.result request wrote).2
      · exact steady.holds.finished request there before
  · intro id latest projected
    rw [m.stamp, m.stamp]
    rcases present_cases m projected with wrote | ⟨kept, before, _⟩
    · rw [if_pos wrote, if_pos (f.beside id wrote).2]
    · have plain := steady.plain id before
      rcases present_cases m latest with wrote | ⟨stays, there, _⟩
      · rcases f.along id plain wrote with along | absent
        · exact absurd along kept
        · exact absurd before absent
      · rw [if_neg kept, if_neg stays, steady.holds.paired id there before]

theorem step_steady (steady : Steady e t) (fine : op.Fine t) : Steady e (t.advance e r op) := by
  have m : Moves e r t op := advance_moves
  refine ⟨step_holds steady fine, fun id h => ?_, fun row mem => ?_⟩
  · rcases present_cases m h with wrote | ⟨_, before, _⟩
    · exact ((fine_batch fine).beside id wrote).1
    · exact steady.plain id before
  · rw [m.limits.1]
    exact m.small steady.small row mem

theorem latest_found (steady : Steady e t) {key full : String} {p : CollectedData V} {previous : Option (CollectedData V)}
    (found : t.row key = some (full, .collected p)) (read : latest e t.data.store key = .ok previous) :
    previous = some p := by
  have own : (full, Record.collected p) ∈ t.data.store.own t.data.store.table := by
    refine Rows.mem_select.mpr ⟨Rows.get_mem found, ?_⟩
    rw [show full = t.data.store.space ++ key from Rows.get_key found]
    exact hasPrefix_append _ _
  have small : (Record.collected p : Record V R).size e ≤ t.data.store.bytes := steady.small _ own
  unfold latest CollectedStore.read at read
  cases named : t.data.store.key key with
  | error f =>
    rw [named] at read
    cases read
  | ok k =>
    have there : t.data.store.table.get k = some (full, .collected p) := key_eq named ▸ found
    rw [named] at read
    simp only [bind, Except.bind, pure, Except.pure, there, Option.map_some, Option.filter_some, decide_eq_true small,
      if_true, Record.decode] at read
    exact (Except.ok.inj read).symm

theorem step_sound (steady : Steady e t) (fine : op.Fine t) : Sound e r t op := by
  have m : Moves e r t op := advance_moves
  have f : FineBatch e r t op := fine_batch fine
  refine ⟨fun transaction ok => ?_, fun transaction key row found gone => ?_, fun transaction _ failed => ?_,
    fun request result absent => ?_, fun id before p after q plain found later => ?_⟩
  · obtain ⟨rows, _, committed⟩ := perform_ok transaction ok
    exact ⟨committed.limits.2 ▸ committed.records, committed.limits.1 ▸ committed.bytes⟩
  · cases outcome : (perform e r op t.data).1 with
    | error f =>
      change (perform e r op t.data).2.store.table.get key = none at gone
      rw [perform_error transaction outcome, found] at gone
      cases gone
    | ok =>
      obtain ⟨rows, sorted, committed⟩ := perform_ok transaction outcome
      refine (committed.lost key row found gone).imp_right fun ⟨evictable, outside⟩ => ⟨evictable, fun mem => outside ?_⟩
      exact (sorted.map _).mem_iff.mpr mem
  · exact perform_error transaction failed
  · rcases present_cases m result with wrote | ⟨_, there, _⟩
    · obtain ⟨captured, _⟩ := f.result request wrote
      cases outcome : (perform e r op t.data).1 with
      | error g =>
        unfold Trace.batch at wrote
        rw [outcome] at wrote
        cases wrote
      | ok =>
        have batch : t.batch e r op = batchOf e r op t.data := by
          unfold Trace.batch
          rw [outcome]
        refine ⟨captured, rfl, fun value mem => ?_, (step_holds steady fine).finished request result⟩
        obtain ⟨row, found, _⟩ := m.written value (batch ▸ mem)
        exact ⟨row, found⟩
    · exact absurd there absent
  · by_cases wrote : latestKey id ∈ (t.batch e r op).1.map Prod.fst
    · obtain ⟨row, mem, named⟩ := List.mem_map.mp wrote
      obtain ⟨v, previous, body, read, newer⟩ := f.newer id plain row mem named
      obtain ⟨stored, there, same⟩ := m.written row mem
      rw [named, later] at there
      cases there
      rw [body] at same
      cases same
      exact newer p (latest_found steady found read)
    · obtain ⟨there, _⟩ := m.kept _ _ wrote later
      rw [found] at there
      cases there
      cases p.collectedAt with
      | none => rfl
      | some at_ => exact decide_eq_true (Nat.le_refl at_)

abbrev FineRun (e : Encoding V) (r : Redactor V) : Trace V R → List (Op V R) → Trace V R → Prop :=
  Runs fun before op after => op.Fine before ∧ after = before.advance e r op

theorem run_steady {ops : List (Op V R)} {s : Trace V R} (run : FineRun e r s ops t) (start : Steady e s) : Steady e t :=
  run.invariant (Steady e) start fun _ _ _ steady step => step.2 ▸ step_steady steady step.1

theorem start_steady (empty : d.store.own d.store.table = []) : Steady e (Trace.start d) := by
  have none : ∀ key, ¬ (Trace.start d).present key := by
    rintro key ⟨row, found⟩
    have own : row ∈ d.store.own d.store.table := by
      refine Rows.mem_select.mpr ⟨Rows.get_mem found, ?_⟩
      rw [show row.1 = d.store.space ++ key from Rows.get_key found]
      exact hasPrefix_append _ _
    rw [empty] at own
    cases own
  refine ⟨⟨fun request result => absurd result (none _), fun id latest => absurd latest (none _)⟩,
    fun id projected => absurd projected (none _), fun row mem => ?_⟩
  rw [show (Trace.start d).data.store.own (Trace.start d).data.store.table = [] from empty] at mem
  cases mem

/-- In every run of such operations from an empty namespace, every state holds and every next operation is sound. -/
theorem projections_hold {ops : List (Op V R)} (empty : d.store.own d.store.table = [])
    (run : FineRun e r (Trace.start d) ops t) : Holds t ∧ ∀ op : Op V R, op.Fine t → Sound e r t op :=
  ⟨(run_steady run (start_steady empty)).holds, fun _ fine => step_sound (run_steady run (start_steady empty)) fine⟩

end Effects

section Samples

def units : Encoding Unit := ⟨fun _ => 4, fun _ => by decide⟩

def openUnits : Redactor Unit := ⟨fun _ => pure true, fun _ => pure true⟩

def emptyData : Data Unit Unit := ⟨⟨"local-data/", 4096, 32, Rows.empty⟩, [], []⟩

def policyValue (request : String) (at_ : Nat) : CollectedData Unit :=
  { CollectedValues.empty ⟨"policy:1", "r"⟩ (some request) .complete with collectedAt := some at_ }

def scriptCapture : Op Unit Unit := .capture [policyValue "one" 10] [("latest/projected:policy:1", .other 20)]

def reportedCapture : Op Unit Unit := .capture [policyValue "two" 20] []

theorem captures_part :
    let t := ((Trace.start emptyData).advance units openUnits scriptCapture).advance units openUnits reportedCapture
    (t.row (latestKey "policy:1")).isSome = true ∧ (t.row (projectedKey "policy:1")).isSome = true ∧
      t.stamp (latestKey "policy:1") = some 1 ∧ t.stamp (projectedKey "policy:1") = some 0 := by
  decide +kernel

/-- The second capture leaves the projection of the first beside its own value. -/
theorem capture_parts_pair : ∃ ops : List (Op Unit Unit),
    ¬ Holds (ops.foldl (fun t op => t.advance units openUnits op) (Trace.start emptyData)) := by
  refine ⟨[scriptCapture, reportedCapture], fun holds => ?_⟩
  obtain ⟨latest, projected, newer, older⟩ := captures_part
  have same := holds.paired "policy:1" (Option.isSome_iff_exists.mp latest) (Option.isSome_iff_exists.mp projected)
  rw [show List.foldl _ _ _ = ((Trace.start emptyData).advance units openUnits scriptCapture).advance units openUnits
    reportedCapture from rfl, newer, older] at same
  cases same

theorem scriptCapture_fine : scriptCapture.Fine (Trace.start emptyData) := by
  refine ⟨⟨by decide, fun material mem => ?_⟩, fun value mem => ?_⟩
  · rw [List.mem_singleton.mp mem]
    exact .inl ⟨_, List.mem_singleton.mpr rfl, rfl⟩
  · rw [List.mem_singleton.mp mem]
    exact .inl ⟨_, List.mem_singleton.mpr rfl, rfl⟩

theorem projections_hold_sample : Holds ((Trace.start emptyData).advance units openUnits scriptCapture) :=
  (projections_hold rfl (.one ⟨scriptCapture_fine, rfl⟩)).1

end Samples

end RssMdmAgent.CollectedRuns
