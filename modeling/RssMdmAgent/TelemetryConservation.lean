import RssMdmAgent.ContractPlan
import RssMdmAgent.TelemetryReports
import RssMdmAgent.TelemetrySpool
import Mathlib.Algebra.Order.BigOperators.Group.List

set_option autoImplicit false

/-! # Every appended observation is in one place -/

namespace RssMdmAgent.TelemetrySpool
open OrderedRows Tally TransitionRuns TelemetryGaps UploadWire

section Model
variable [UploadWire]

abbrev Item := TelemetryObservation × Owner

def SampleRow.items (row : SampleRow) : List Item :=
  (decodeObservation row.body).toList.map fun o => (o, row.owner)

def BatchRow.items (row : BatchRow) : List Item :=
  ((decodeUpload row.body).map (·.observations)).getD [] |>.map fun o => (o, row.owner)

def Spool.held (s : Spool) : List Item :=
  s.samples.entries.flatMap SampleRow.items ++ s.batches.entries.flatMap BatchRow.items

end Model

def lifetimeCount (g : GapStore) (reason : String) : Nat :=
  ((g.gaps.get reason).map fun row => row.span.count).getD 0

structure Counted (g : GapStore) (lost : List Loss) : Prop where
  lifetime : ∀ reason, lifetimeCount g reason =
    min maxI64 (total (lost.map fun loss => (loss.1.reason, loss.2)) reason)
  pending : g.pending.entries.length < maxPendingReasons →
    ∀ key, g.pendingCount key = min maxI64 (total lost key)

section Counting
variable {g g' : GapStore} {lost other : List Loss} {owner : Owner} {span : Span}

theorem Counted.congr (c : Counted g lost) (same : ∀ key, total lost key = total other key) :
    Counted g other where
  lifetime reason := by
    rw [c.lifetime, total_map_congr GapKey.reason reason same]
  pending room key := by
    rw [c.pending room, same]

theorem Counted.start : Counted .empty [] where
  lifetime _ := rfl
  pending _ _ := rfl

variable [GapWire]

theorem record_lifetime {reason : GapWire.Reason} (h : g.record owner reason span = .ok g') (k : String) :
    lifetimeCount g' k = if k = GapWire.key reason then raise maxI64 (lifetimeCount g k) span.count
      else lifetimeCount g k := by
  unfold GapStore.record at h
  split at h
  · cases h
  cases told : g.gap reason span with
  | error e =>
    rw [told] at h
    cases h
  | ok middle =>
    rw [told] at h
    have kept : g'.gaps = middle.gaps := by
      change (if span.count = 0 then _ else _) = _ at h
      split_ifs at h <;> cases h <;> rfl
    have same : lifetimeCount g' k = lifetimeCount middle k := by
      unfold lifetimeCount
      rw [kept]
    rw [same]
    unfold GapStore.gap at told
    split_ifs at told with none refused
    · cases told
      rw [none]
      split <;> simp [raise]
    · cases told
      unfold lifetimeCount
      rw [Rows.get_set]
      by_cases here : k = GapWire.key reason
      · subst here
        rw [if_pos rfl, if_pos rfl]
        cases g.gaps.get (GapWire.key reason) with
        | none =>
          have exact : raise maxI64 0 span.count = 0 + span.count := raise_exact (by omega)
          simp [exact]
        | some row => rfl
      · rw [if_neg here, if_neg here]

theorem Counted.record {reason : GapWire.Reason} (c : Counted g lost)
    (h : g.record owner reason span = .ok g') :
    Counted g' (lost ++ [(⟨owner, GapWire.key reason⟩, span.count)]) := by
  constructor
  · intro k
    rw [record_lifetime h, List.map_append, total_append, c.lifetime, List.map_cons, List.map_nil,
      total_cons, total_nil]
    by_cases here : k = GapWire.key reason
    · subst here
      rw [if_pos rfl, if_pos rfl, raise_min]
      rfl
    · rw [if_neg here, if_neg (Ne.symm here)]
      rfl
  · intro room key
    obtain ⟨-, bound, ⟨none, pending⟩ | ⟨some, full, pending⟩ | ⟨some, free, pending⟩⟩ := record_cases h
    · have same : g'.pendingCount key = g.pendingCount key := by
        unfold GapStore.pendingCount
        rw [pending]
      rw [pending] at room
      rw [same, c.pending room, none]
      simp
    · rw [pending] at room
      simp only [GapStore.refuses, Bool.and_eq_true, decide_eq_true_eq] at full
      omega
    · have same : g'.pendingCount key = (g.accumulate ⟨owner, GapWire.key reason⟩ span).pendingCount key := by
        unfold GapStore.pendingCount
        rw [pending]
      have grown : g.pending.entries.length ≤ g'.pending.entries.length := by
        rw [pending]
        exact Rows.length_set
      have old := c.pending (by omega)
      rw [same, pendingCount_accumulate bound, total_append, total_cons, total_nil]
      by_cases here : key = ⟨owner, GapWire.key reason⟩
      · subst here
        rw [if_pos rfl, if_pos rfl, old, raise_min]
        rfl
      · rw [if_neg here, if_neg (Ne.symm here), old]
        rfl

def Piece.loss (reason : GapWire.Reason) (piece : Piece) : Loss := (⟨piece.1, GapWire.key reason⟩, piece.2.count)

theorem Counted.recordAll {reason : GapWire.Reason} {pieces : List Piece} (c : Counted g lost)
    (h : recordAll reason pieces g = .ok g') : Counted g' (lost ++ pieces.map (Piece.loss reason)) := by
  induction pieces generalizing g lost with
  | nil =>
    cases h
    simpa using c
  | cons piece rest ih =>
    unfold TelemetrySpool.recordAll at h
    rw [List.foldlM_cons] at h
    cases first : g.record piece.1 reason piece.2 with
    | error e =>
      rw [first] at h
      cases h
    | ok middle =>
      rw [first] at h
      have later := ih (c.record first) h
      simpa [Piece.loss] using later

omit [GapWire] in
theorem spanOf_count (spans : List Span) : (spanOf spans).count = (spans.map Span.count).sum := by
  fun_induction spanOf spans with
  | case1 => rfl
  | case2 span => simp
  | case3 span rest some later ih => simp only [List.map_cons, List.sum_cons, ← ih]; rfl

/-- Grouping by registration changes no total. -/
theorem total_grouped {reason : GapWire.Reason} (pieces : List Piece) (key : GapKey) :
    total ((grouped pieces).map (Piece.loss reason)) key = total (pieces.map (Piece.loss reason)) key := by
  let owners := (pieces.map (·.1)).dedup
  let amount (owner : Owner) := (spanOf ((pieces.filter (·.1 = owner)).map (·.2))).count
  have shape : (grouped pieces).map (Piece.loss reason) =
      (owners.insertionSort fun a b => Owner.before a b = true).map
        fun owner => ((⟨owner, GapWire.key reason⟩ : GapKey), amount owner) := by
    unfold grouped
    rw [List.map_map]
    rfl
  have sorted := (List.perm_insertionSort (fun a b => Owner.before a b = true) owners).map
    fun owner => ((⟨owner, GapWire.key reason⟩ : GapKey), amount owner)
  rw [shape, total_perm sorted]
  by_cases here : key.reason = GapWire.key reason
  · obtain ⟨owner, text⟩ := key
    subst here
    have injective : Function.Injective fun owner : Owner => (⟨owner, GapWire.key reason⟩ : GapKey) := by
      intro a b same
      exact (GapKey.mk.inj same).1
    rw [total_distinct (List.nodup_dedup _) injective amount owner]
    have single : total (pieces.map (Piece.loss reason)) ⟨owner, GapWire.key reason⟩ =
        ((pieces.filter (·.1 = owner)).map fun piece => piece.2.count).sum := by
      unfold total
      rw [List.filter_map, List.map_map]
      congr 2
      apply List.filter_congr
      intro piece _
      simp [Piece.loss]
    rw [single]
    split
    · show (spanOf ((pieces.filter (·.1 = owner)).map (·.2))).count = _
      rw [spanOf_count, List.map_map]
      rfl
    · rename_i absent
      have none : pieces.filter (·.1 = owner) = [] := by
        rw [List.filter_eq_nil_iff]
        intro piece mem
        simp only [decide_eq_true_eq]
        rintro rfl
        exact absent (List.mem_dedup.mpr (List.mem_map_of_mem mem))
      rw [none]
      rfl
  · rw [total_of_ne, total_of_ne]
    · intro entry mem
      obtain ⟨piece, _, rfl⟩ := List.mem_map.mp mem
      exact fun same => here (same ▸ rfl)
    · intro entry mem
      obtain ⟨owner, _, rfl⟩ := List.mem_map.mp mem
      exact fun same => here (same ▸ rfl)

end Counting

section Shedding
variable [UploadWire]

abbrev Lost := Item × String

def Lost.loss (l : Lost) : Loss := (⟨l.1.2, l.2⟩, 1)

structure Spool.Sound (s : Spool) : Prop where
  samples : ∀ row ∈ s.samples.entries, ∃ o, decodeObservation row.body = some o ∧ o.id = row.id
  batches : ∀ row ∈ s.batches.entries, ∃ u, decodeUpload row.body = some u ∧ u.observations.length = row.count

def Agrees {ρ : Type} (items : ρ → List Item) (piece : ρ → Piece) (row : ρ) : Prop :=
  (items row).length = (piece row).2.count ∧ ∀ item ∈ items row, item.2 = (piece row).1

theorem SampleRow.agrees {s : Spool} (sound : s.Sound) {row : SampleRow} (mem : row ∈ s.samples.entries) :
    Agrees SampleRow.items SampleRow.piece row := by
  obtain ⟨o, decoded, -⟩ := sound.samples row mem
  constructor
  · simp [SampleRow.items, decoded, SampleRow.piece]
  · simp [SampleRow.items, decoded, SampleRow.piece]

theorem BatchRow.agrees {s : Spool} (sound : s.Sound) {row : BatchRow} (mem : row ∈ s.batches.entries) :
    Agrees BatchRow.items BatchRow.piece row := by
  obtain ⟨u, decoded, count⟩ := sound.batches row mem
  constructor
  · simp [BatchRow.items, decoded, BatchRow.piece, count]
  · intro item mem
    obtain ⟨o, _, rfl⟩ := List.mem_map.mp mem
    rfl

omit [UploadWire] in
theorem total_items {items : List Item} {owner : Owner} (owned : ∀ item ∈ items, item.2 = owner)
    (reason : String) (key : GapKey) :
    total (items.map fun item => Lost.loss (item, reason)) key =
      if (⟨owner, reason⟩ : GapKey) = key then items.length else 0 := by
  induction items with
  | nil => simp
  | cons item rest ih =>
    obtain ⟨here, owned⟩ := List.forall_mem_cons.mp owned
    rw [List.map_cons, total_cons, ih owned]
    unfold Lost.loss
    rw [here]
    split
    · simp [Nat.add_comm]
    · rfl

theorem total_pieces {ρ : Type} {items : ρ → List Item} {piece : ρ → Piece} {rows : List ρ}
    {reason : GapWire.Reason} (agrees : ∀ row ∈ rows, Agrees items piece row) (key : GapKey) :
    total ((rows.flatMap items).map fun item => Lost.loss (item, GapWire.key reason)) key =
      total ((rows.map piece).map (Piece.loss reason)) key := by
  induction rows with
  | nil => rfl
  | cons row rest ih =>
    obtain ⟨⟨count, owned⟩, agrees⟩ := List.forall_mem_cons.mp agrees
    rw [List.flatMap_cons, List.map_append, total_append, total_items owned, ih agrees, count,
      List.map_cons, List.map_cons, total_cons]
    rfl

/-- What leaves the store is counted as lost, and nothing else changes. -/
structure Sheds (s t : Spool) (gone : List Lost) : Prop where
  held : s.held.Perm (t.held ++ gone.map (·.1))
  counted : ∀ lost, Counted s.losses lost → Counted t.losses (lost ++ gone.map Lost.loss)
  samples : t.samples.entries.Sublist s.samples.entries
  batches : t.batches.entries.Sublist s.batches.entries
  limits : t.limits = s.limits
  next : t.next = s.next
  configurations : t.configurations = s.configurations

variable {s t u : Spool} {gone more : List Lost}

theorem Sheds.refl (s : Spool) : Sheds s s [] :=
  ⟨by simp, fun lost c => by simpa using c, .refl _, .refl _, rfl, rfl, rfl⟩

theorem Sheds.trans (first : Sheds s t gone) (second : Sheds t u more) : Sheds s u (gone ++ more) where
  held := by
    refine first.held.trans ?_
    have later := second.held.append_right (gone.map (·.1))
    refine later.trans ?_
    rw [List.map_append, List.append_assoc]
    exact (List.perm_append_comm).append_left _
  counted lost c := by
    have later := second.counted _ (first.counted lost c)
    simpa using later
  samples := second.samples.trans first.samples
  batches := second.batches.trans first.batches
  limits := second.limits.trans first.limits
  next := second.next.trans first.next
  configurations := second.configurations.trans first.configurations

theorem Sheds.sound (sheds : Sheds s t gone) (sound : s.Sound) : t.Sound where
  samples row mem := sound.samples row (sheds.samples.subset mem)
  batches row mem := sound.batches row (sheds.batches.subset mem)

def lostItems {ρ : Type} (items : ρ → List Item) (reason : GapWire.Reason) (rows : List ρ) : List Lost :=
  (rows.flatMap items).map fun item => (item, GapWire.key reason)

theorem lostItems_fst {ρ : Type} (items : ρ → List Item) (reason : GapWire.Reason) (rows : List ρ) :
    (lostItems items reason rows).map (·.1) = rows.flatMap items := by
  unfold lostItems
  rw [List.map_map]
  exact List.map_id _

theorem Counted.rows {ρ : Type} {items : ρ → List Item} {piece : ρ → Piece} {rows : List ρ}
    {reason : GapWire.Reason} {g g' : GapStore} {lost : List Loss} (c : Counted g lost)
    (agrees : ∀ row ∈ rows, Agrees items piece row)
    (told : TelemetrySpool.recordAll reason (grouped (rows.map piece)) g = .ok g') :
    Counted g' (lost ++ (lostItems items reason rows).map Lost.loss) := by
  have counted := c.recordAll told
  apply counted.congr
  intro key
  rw [total_append, total_append, total_grouped, ← total_pieces agrees, lostItems, List.map_map]
  rfl

theorem sheds_samples {condition : SampleRow → Bool} {reason : GapWire.Reason} (sound : s.Sound)
    (h : s.loseSamples condition reason = .ok t) :
    Sheds s t (lostItems SampleRow.items reason (s.samples.select condition)) := by
  unfold Spool.loseSamples at h
  cases told : recordAll reason (grouped ((s.samples.select condition).map SampleRow.piece)) s.losses with
  | error e =>
    rw [told] at h
    cases h
  | ok losses =>
    rw [told] at h
    cases h
    have agrees : ∀ row ∈ s.samples.select condition, Agrees SampleRow.items SampleRow.piece row :=
      fun row mem => SampleRow.agrees sound (Rows.mem_select.mp mem).1
    refine ⟨?_, fun lost c => c.rows agrees told, List.filter_sublist, .refl _, rfl, rfl, rfl⟩
    have parts := (flatMap_partition s.samples.entries condition SampleRow.items).append_right
      (s.batches.entries.flatMap BatchRow.items)
    rw [lostItems_fst]
    refine parts.trans ?_
    rw [List.append_assoc]
    exact List.perm_append_comm

theorem sheds_batches {condition : BatchRow → Bool} {reason : GapWire.Reason} (sound : s.Sound)
    (h : s.loseBatches condition reason = .ok t) :
    Sheds s t (lostItems BatchRow.items reason (s.batches.select condition)) := by
  unfold Spool.loseBatches at h
  cases told : recordAll reason (grouped ((s.batches.select condition).map BatchRow.piece)) s.losses with
  | error e =>
    rw [told] at h
    cases h
  | ok losses =>
    rw [told] at h
    cases h
    have agrees : ∀ row ∈ s.batches.select condition, Agrees BatchRow.items BatchRow.piece row :=
      fun row mem => BatchRow.agrees sound (Rows.mem_select.mp mem).1
    refine ⟨?_, fun lost c => c.rows agrees told, .refl _, List.filter_sublist, rfl, rfl, rfl⟩
    have parts := (flatMap_partition s.batches.entries condition BatchRow.items).append_left
      (s.samples.entries.flatMap SampleRow.items)
    rw [lostItems_fst]
    refine parts.trans ?_
    refine (List.perm_append_comm.append_left _).trans ?_
    rw [← List.append_assoc]
    exact .refl _

theorem sheds_prune {now : Int} {owner : Owner} (sound : s.Sound) (h : s.prune now owner = .ok t) :
    ∃ gone, Sheds s t gone := by
  unfold Spool.prune at h
  split at h
  · cases h
  obtain ⟨one, first, h⟩ := ContractPlan.bind_ok.mp h
  obtain ⟨two, second, h⟩ := ContractPlan.bind_ok.mp h
  obtain ⟨three, third, fourth⟩ := ContractPlan.bind_ok.mp h
  have a := sheds_samples sound first
  have b := sheds_samples (a.sound sound) second
  have c := sheds_batches (b.sound (a.sound sound)) third
  have d := sheds_batches (c.sound (b.sound (a.sound sound))) fourth
  exact ⟨_, ((a.trans b).trans c).trans d⟩

omit [UploadWire] in
theorem grouped_single (piece : Piece) : grouped [piece] = [piece] := by
  unfold grouped
  simp [spanOf]

theorem evictSample_eq {row : SampleRow} (mem : row ∈ s.samples.entries) :
    s.evictSample row = s.loseSamples (fun other => decide (other.id = row.id)) GapWire.capacity := by
  unfold Spool.evictSample Spool.loseSamples recordAll
  rw [@Rows.select_key _ _ _ SampleRow.id _ _ mem, List.map_singleton, grouped_single, List.foldlM_cons]
  simp only [List.foldlM_nil, bind_pure, decide_not]
  rfl

theorem evictBatch_eq {row : BatchRow} (mem : row ∈ s.batches.entries) :
    s.evictBatch row = s.loseBatches (fun other => decide (other.id = row.id)) GapWire.capacity := by
  unfold Spool.evictBatch Spool.loseBatches recordAll
  rw [@Rows.select_key _ _ _ BatchRow.id _ _ mem, List.map_singleton, grouped_single, List.foldlM_cons]
  simp only [List.foldlM_nil, bind_pure, decide_not]
  rfl

omit [UploadWire] in
theorem oldestSample_mem {row : SampleRow} (oldest : s.oldestSample = some row) :
    row ∈ s.samples.entries :=
  (List.mem_insertionSort _).mp (List.mem_of_mem_head? oldest)

omit [UploadWire] in
theorem oldestBatch_mem {row : BatchRow} (oldest : s.oldestBatch = some row) :
    row ∈ s.batches.entries :=
  (List.mem_insertionSort _).mp (List.mem_of_mem_head? oldest)

theorem sheds_evictSample {row : SampleRow} (sound : s.Sound) (mem : row ∈ s.samples.entries)
    (h : s.evictSample row = .ok t) : ∃ gone, Sheds s t gone := by
  rw [evictSample_eq mem] at h
  exact ⟨_, sheds_samples sound h⟩

theorem sheds_evictBatch {row : BatchRow} (sound : s.Sound) (mem : row ∈ s.batches.entries)
    (h : s.evictBatch row = .ok t) : ∃ gone, Sheds s t gone := by
  rw [evictBatch_eq mem] at h
  exact ⟨_, sheds_batches sound h⟩

theorem sheds_evictOldest (sound : s.Sound) (h : s.evictOldest = .ok t) : ∃ gone, Sheds s t gone := by
  unfold Spool.evictOldest at h
  split at h
  · rename_i sample oldest _
    exact sheds_evictSample sound (oldestSample_mem oldest) h
  · rename_i sample batch oldest first
    split at h
    · exact sheds_evictSample sound (oldestSample_mem oldest) h
    · exact sheds_evictBatch sound (oldestBatch_mem first) h
  · rename_i batch _ first
    exact sheds_evictBatch sound (oldestBatch_mem first) h
  · cases h

theorem sheds_makeRoom {extra observations rounds : Nat} (sound : s.Sound)
    (h : s.makeRoom extra observations rounds = .ok t) :
    (∃ gone, Sheds s t gone) ∧ t.fits extra observations = true := by
  induction rounds generalizing s with
  | zero =>
    unfold Spool.makeRoom at h
    split at h
    · rename_i enough
      cases h
      exact ⟨⟨[], .refl _⟩, enough⟩
    · cases h
  | succ rounds ih =>
    unfold Spool.makeRoom at h
    split at h
    · rename_i enough
      cases h
      exact ⟨⟨[], .refl _⟩, enough⟩
    · obtain ⟨middle, evicted, h⟩ := ContractPlan.bind_ok.mp h
      obtain ⟨gone, first⟩ := sheds_evictOldest sound evicted
      obtain ⟨⟨more, second⟩, enough⟩ := ih (first.sound sound) h
      exact ⟨⟨_, first.trans second⟩, enough⟩

theorem sheds_room {extra observations : Nat} (sound : s.Sound) (h : s.room extra observations = .ok t) :
    (∃ gone, Sheds s t gone) ∧ t.fits extra observations = true := by
  unfold Spool.room at h
  split at h
  · cases h
  · exact sheds_makeRoom sound h

end Shedding

section Books
variable [UploadWire]

structure History where
  appended : List Item
  acknowledged : List Item

def Spool.Within (s : Spool) : Prop :=
  s.usedObservations ≤ s.limits.observations ∧ s.usedBytes ≤ s.limits.bytes

/-- Every appended observation is in the store, acknowledged or lost, and every loss is counted. -/
structure Conserved (h : History) (s : Spool) (lost : List Lost) : Prop where
  placed : h.appended.Perm (s.held ++ h.acknowledged ++ lost.map (·.1))
  counted : Counted s.losses (lost.map Lost.loss)
  sound : s.Sound
  ordered : (h.appended.map (·.1.sequence)).Pairwise (· < ·)
  numbered : ∀ item ∈ h.appended, item.1.sequence < s.next
  within : s.Within

variable {h : History} {s t : Spool} {lost gone : List Lost}

theorem Conserved.start (limits : Limits) : Conserved ⟨[], []⟩ (.empty limits) [] where
  placed := .nil
  counted := .start
  sound := ⟨fun row mem => (nomatch mem), fun row mem => (nomatch mem)⟩
  ordered := .nil
  numbered item mem := by cases mem
  within := ⟨Nat.zero_le _, Nat.zero_le _⟩

theorem Sheds.within (sheds : Sheds s t gone) (within : s.Within) : t.Within := by
  have samples := sheds.samples.length_le
  have counts := (sheds.batches.map BatchRow.count).sum_le_sum fun _ _ => Nat.zero_le _
  have bodies := (sheds.samples.map fun row => row.body.length).sum_le_sum fun _ _ => Nat.zero_le _
  have uploads := (sheds.batches.map fun row => row.body.length).sum_le_sum fun _ _ => Nat.zero_le _
  unfold Spool.Within Spool.usedObservations Spool.usedBytes at within ⊢
  rw [sheds.limits]
  omega

theorem Conserved.shed (c : Conserved h s lost) (sheds : Sheds s t gone) :
    Conserved h t (lost ++ gone) where
  placed := by
    have placed := c.placed
    have held := sheds.held
    classical
    rw [List.perm_iff_count] at placed held ⊢
    intro item
    have one := placed item
    have two := held item
    simp only [List.count_append, List.map_append] at one two ⊢
    omega
  counted := by
    rw [List.map_append]
    exact sheds.counted _ c.counted
  sound := sheds.sound c.sound
  ordered := c.ordered
  numbered item mem := by
    rw [sheds.next]
    exact c.numbered item mem
  within := sheds.within c.within

def newSample (config : Configuration) (o : TelemetryObservation) : SampleRow :=
  ⟨o.id, config.payload.policy, config.payload.owner, config.payload.binding, encodeObservation o, o.observedAt,
    o.observedAt.tdiv 1000000 + config.payload.backfillSeconds⟩

/-- What an accepted `store` has checked and done: it made room and added one row. -/
structure Storing (s : Spool) (config : Configuration) (o : TelemetryObservation) (middle : Spool)
    (gone : List Lost) (t : Spool) : Prop where
  decoded : decodeObservation (encodeObservation o) = some o
  sheds : Sheds s middle gone
  fits : middle.usedObservations + 1 ≤ middle.limits.observations ∧
    middle.usedBytes + (encodeObservation o).length ≤ middle.limits.bytes
  absent : middle.samples.has o.id = false
  result : t = { middle with next := middle.next + 1, samples := middle.samples.set (newSample config o) }

theorem store_cases {config : Configuration} {at' : Int}
    {normalized : Except Error (List (String × TelemetryReading))} {id batchId : Uuid} (sound : s.Sound)
    (told : s.store config at' normalized id batchId = .ok t) : ∃ values middle gone,
      normalized = .ok values ∧ Storing s config ⟨id, s.next, at', values⟩ middle gone t := by
  unfold Spool.store at told
  obtain ⟨values, read, told⟩ := ContractPlan.bind_ok.mp told
  dsimp only at told
  split at told
  · cases told
  rename_i valid
  obtain ⟨within, -, told⟩ := ContractPlan.bind_ok.mp told
  split at told
  · cases told
  obtain ⟨middle, made, told⟩ := ContractPlan.bind_ok.mp told
  split at told
  · cases told
  split at told
  · cases told
  split at told
  · cases told
  rename_i absent
  cases told
  obtain ⟨⟨gone, sheds⟩, enough⟩ := sheds_room sound made
  have valid : validateUpload ⟨batchId, config.signed, [⟨id, s.next, at', values⟩]⟩ = true := by
    simpa using valid
  have decoded := decodeObservation_encode _ valid ⟨id, s.next, at', values⟩ (List.mem_singleton.mpr rfl)
  have next : middle.next = s.next := sheds.next
  exact ⟨values, middle, gone, read, decoded, sheds, by simpa [Spool.fits] using enough, by simpa using absent,
    rfl⟩

section Stored
variable {config : Configuration} {o : TelemetryObservation} {middle : Spool}

theorem Storing.entries (done : Storing s config o middle gone t) :
    t.samples.entries = middle.samples.entries ++ [newSample config o] := by
  rw [done.result]
  exact Rows.entries_set_absent done.absent

theorem Storing.batches (done : Storing s config o middle gone t) : t.batches = middle.batches := by
  rw [done.result]

theorem Storing.sound (done : Storing s config o middle gone t) (sound : s.Sound) : t.Sound := by
  have sound := done.sheds.sound sound
  refine ⟨fun row mem => ?_, fun row mem => ?_⟩
  · rw [done.entries] at mem
    rcases List.mem_append.mp mem with mem | mem
    · exact sound.samples row mem
    · rw [List.mem_singleton.mp mem]
      exact ⟨o, done.decoded, rfl⟩
  · rw [done.batches] at mem
    exact sound.batches row mem

theorem Storing.within (done : Storing s config o middle gone t) : t.Within := by
  have fits := done.fits
  have limits : t.limits = middle.limits := by rw [done.result]
  unfold Spool.Within Spool.usedObservations Spool.usedBytes at *
  rw [done.entries, done.batches, limits]
  simp only [List.length_append, List.length_singleton, List.map_append, List.sum_append,
    List.map_singleton, List.sum_singleton, newSample]
  omega

end Stored

/-- A successful `store` appends one observation under the configuration's registration. -/
theorem Conserved.store {config : Configuration} {at' : Int}
    {normalized : Except Error (List (String × TelemetryReading))} {id batchId : Uuid}
    (c : Conserved h s lost) (told : s.store config at' normalized id batchId = .ok t) :
    ∃ values gone, normalized = .ok values ∧
      Conserved ⟨h.appended ++ [(⟨id, s.next, at', values⟩, config.payload.owner)], h.acknowledged⟩ t
        (lost ++ gone) ∧ t.batches.entries.Sublist s.batches.entries := by
  obtain ⟨values, middle, gone, read, done⟩ := store_cases c.sound told
  have shed := c.shed done.sheds
  have next : middle.next = s.next := done.sheds.next
  have later : t.next = middle.next + 1 := by rw [done.result]
  refine ⟨values, gone, read, ?_, done.batches ▸ done.sheds.batches⟩
  constructor
  · have placed := shed.placed
    have item : (newSample config ⟨id, s.next, at', values⟩).items =
        [(⟨id, s.next, at', values⟩, config.payload.owner)] := by
      simp [SampleRow.items, newSample, done.decoded]
    simp only [Spool.held]
    rw [done.entries, done.batches, List.flatMap_append, List.flatMap_singleton, item]
    classical
    rw [List.perm_iff_count] at placed ⊢
    intro item
    have one := placed item
    simp only [Spool.held, List.count_append] at one ⊢
    omega
  · have losses : t.losses = middle.losses := by rw [done.result]
    rw [losses]
    exact shed.counted
  · exact done.sound c.sound
  · rw [List.map_append, List.pairwise_append]
    refine ⟨shed.ordered, by simp, fun a early b last => ?_⟩
    obtain ⟨item, mem, rfl⟩ := List.mem_map.mp early
    obtain rfl := List.mem_singleton.mp last
    rw [← next]
    exact shed.numbered item mem
  · intro item mem
    rw [later]
    rcases List.mem_append.mp mem with mem | mem
    · exact Nat.lt_succ_of_lt (shed.numbered item mem)
    · rw [List.mem_singleton.mp mem]
      show s.next < middle.next + 1
      omega
  · exact done.within

theorem gather_prefix {signed : SignedTelemetryConfiguration} {batchId : Uuid} {rows : List SampleRow}
    {taken observations : List TelemetryObservation} {expires expiry : Int}
    (told : gather signed batchId rows taken expires = .ok (observations, expiry)) :
    ∃ front rest new, rows = front ++ rest ∧ observations = taken ++ new ∧
      List.Forall₂ (fun row o => decodeObservation row.body = some o) front new := by
  induction rows generalizing taken expires with
  | nil =>
    cases told
    exact ⟨[], [], [], rfl, by simp, .nil⟩
  | cons row rest ih =>
    unfold gather at told
    split at told
    · cases told
    rename_i o decoded
    dsimp only at told
    split at told
    · cases told
    split at told
    · cases told
      exact ⟨[], row :: rest, [], rfl, by simp, .nil⟩
    · obtain ⟨front, tail, new, rfl, rfl, same⟩ := ih told
      exact ⟨row :: front, tail, o :: new, rfl, by simp, .cons decoded same⟩

def Spool.Owned (s : Spool) (c : TelemetryConfiguration) : Prop :=
  ∀ row ∈ s.samples.entries, row.binding = c.binding → row.owner = c.owner

omit [UploadWire] in
theorem mem_queue {binding : String} {row : SampleRow} :
    row ∈ s.queue binding ↔ row ∈ s.samples.entries ∧ row.binding = binding := by
  unfold Spool.queue
  rw [List.mem_insertionSort, Rows.mem_select, decide_eq_true_eq]

omit [UploadWire] in
theorem queue_sorted {binding : String} : (s.queue binding).Pairwise fun a b => SampleRow.before a b = true := by
  have total : Std.Total fun a b : SampleRow => SampleRow.before a b = true := ⟨fun a b => by
    simp only [SampleRow.before, decide_eq_true_eq]
    rcases lt_trichotomy a.observed b.observed with early | same | late
    · exact .inl (.inl early)
    · rcases Nat.le_total a.id b.id with le | le
      · exact .inl (.inr ⟨same, le⟩)
      · exact .inr (.inr ⟨same.symm, le⟩)
    · exact .inr (.inl late)⟩
  have trans : IsTrans SampleRow fun a b => SampleRow.before a b = true := ⟨fun a b c first second => by
    simp only [SampleRow.before, decide_eq_true_eq] at first second ⊢
    rcases first with first | ⟨first, low⟩ <;> rcases second with second | ⟨second, high⟩
    · exact .inl (first.trans second)
    · exact .inl (second ▸ first)
    · exact .inl (first ▸ second)
    · exact .inr ⟨first.trans second, Nat.le_trans low high⟩⟩
  exact List.pairwise_insertionSort _ _

omit [UploadWire] in
theorem queue_nodup {binding : String} : (s.queue binding).Nodup := by
  unfold Spool.queue
  rw [(List.perm_insertionSort _ _).nodup_iff]
  exact (List.Nodup.of_map _ s.samples.distinct).filter _

theorem members_ids {front : List SampleRow} {new : List TelemetryObservation} (sound : s.Sound)
    (stored : ∀ row ∈ front, row ∈ s.samples.entries)
    (decoded : List.Forall₂ (fun row o => decodeObservation row.body = some o) front new) :
    new.map (·.id) = front.map SampleRow.id := by
  induction decoded with
  | nil => rfl
  | @cons row o front new same _ ih =>
    obtain ⟨here, stored⟩ := List.forall_mem_cons.mp stored
    obtain ⟨o', found, id⟩ := sound.samples row here
    rw [same] at found
    cases found
    rw [List.map_cons, List.map_cons, ih stored, id]

theorem members_rows {front : List SampleRow} {new : List TelemetryObservation} (sound : s.Sound)
    (stored : ∀ row ∈ front, row ∈ s.samples.entries) (distinct : front.Nodup)
    (decoded : List.Forall₂ (fun row o => decodeObservation row.body = some o) front new) :
    (s.samples.entries.filter fun row => (new.map (·.id)).contains row.id).Perm front := by
  rw [members_ids sound stored decoded]
  apply (List.perm_ext_iff_of_nodup ((List.Nodup.of_map _ s.samples.distinct).filter _) distinct).mpr
  intro row
  simp only [List.mem_filter, List.contains_iff_mem, List.mem_map]
  constructor
  · rintro ⟨mem, other, taken, same⟩
    rwa [List.inj_on_of_nodup_map s.samples.distinct mem (stored other taken) same.symm]
  · intro taken
    exact ⟨stored row taken, row, taken, rfl⟩

theorem items_front {front : List SampleRow} {new : List TelemetryObservation} {owner : Owner}
    (owned : ∀ row ∈ front, row.owner = owner)
    (decoded : List.Forall₂ (fun row o => decodeObservation row.body = some o) front new) :
    front.flatMap SampleRow.items = new.map fun o => (o, owner) := by
  induction decoded with
  | nil => rfl
  | @cons row o front new same _ ih =>
    obtain ⟨here, owned⟩ := List.forall_mem_cons.mp owned
    rw [List.flatMap_cons, ih owned, SampleRow.items, same, here]
    rfl

/-- What an effective `freeze` has checked and done: it took rows of the queue, made room without them and
added one batch. -/
structure Freezing (s : Spool) (signed : SignedTelemetryConfiguration) (batchId : Uuid) (front : List SampleRow)
    (observations : List TelemetryObservation) (expires : Int) (middle : Spool) (gone : List Lost) (t : Spool) :
    Prop where
  listed : ∀ row ∈ front, row ∈ s.queue signed.configuration.binding
  distinct : front.Nodup
  sorted : front.Pairwise fun a b => SampleRow.before a b = true
  decoded : List.Forall₂ (fun row o => decodeObservation row.body = some o) front observations
  some : observations ≠ []
  valid : validateUpload ⟨batchId, signed, observations⟩ = true
  sheds : Sheds { s with samples := s.samples.retain fun sample => !(observations.map (·.id)).contains sample.id }
    middle gone
  fits : middle.usedObservations + observations.length ≤ middle.limits.observations ∧
    middle.usedBytes + (encodeUpload ⟨batchId, signed, observations⟩).length ≤ middle.limits.bytes
  absent : middle.batches.has batchId = false
  result : t = { middle with batches := middle.batches.set (.of ⟨batchId, signed, observations⟩ expires) }

theorem Spool.Sound.retain (sound : s.Sound) (condition : SampleRow → Bool) :
    Spool.Sound { s with samples := s.samples.retain condition } :=
  ⟨fun row mem => sound.samples row (List.mem_filter.mp mem).1, sound.batches⟩

theorem freeze_cases {signed : SignedTelemetryConfiguration} {batchId : Uuid} (sound : s.Sound)
    (told : s.freeze signed batchId = .ok t) : t = s ∨ ∃ front observations expires middle gone,
      Freezing s signed batchId front observations expires middle gone t := by
  unfold Spool.freeze at told
  obtain ⟨⟨observations, expires⟩, gathered, told⟩ := ContractPlan.bind_ok.mp told
  dsimp only at told
  split at told
  · cases told
    exact .inl rfl
  rename_i some
  split at told
  · cases told
  rename_i valid
  obtain ⟨middle, made, told⟩ := ContractPlan.bind_ok.mp told
  split at told
  · cases told
  split at told
  · cases told
  rename_i absent
  cases told
  obtain ⟨front, rest, new, rows, observed, decoded⟩ := gather_prefix gathered
  rw [List.nil_append] at observed
  subst observed
  obtain ⟨⟨gone, sheds⟩, enough⟩ := sheds_room (sound.retain _) made
  refine .inr ⟨front, observations, expires, middle, gone, ?_, ?_, ?_, decoded, by simpa using some,
    by simpa using valid, sheds, of_decide_eq_true enough, by simpa using absent, rfl⟩
  · intro row mem
    apply List.mem_of_mem_take (i := min signed.configuration.maxPoints 4096)
    rw [rows]
    exact List.mem_append_left _ mem
  · have taken : ((s.queue signed.configuration.binding).take (min signed.configuration.maxPoints 4096)).Nodup :=
      queue_nodup.sublist (List.take_sublist _ _)
    rw [rows] at taken
    exact taken.of_append_left
  · have taken : ((s.queue signed.configuration.binding).take (min signed.configuration.maxPoints 4096)).Pairwise
        fun a b => SampleRow.before a b = true := queue_sorted.sublist (List.take_sublist _ _)
    rw [rows] at taken
    exact (List.pairwise_append.mp taken).1

section Frozen
variable {signed : SignedTelemetryConfiguration} {batchId : Uuid} {front : List SampleRow}
  {observations : List TelemetryObservation} {expires : Int} {middle : Spool}

theorem Freezing.entries (done : Freezing s signed batchId front observations expires middle gone t) :
    t.batches.entries = middle.batches.entries ++ [.of ⟨batchId, signed, observations⟩ expires] := by
  rw [done.result]
  exact Rows.entries_set_absent (by simpa [BatchRow.of] using done.absent)

theorem Freezing.samples (done : Freezing s signed batchId front observations expires middle gone t) :
    t.samples = middle.samples := by
  rw [done.result]

theorem Freezing.sound (done : Freezing s signed batchId front observations expires middle gone t)
    (sound : s.Sound) : t.Sound := by
  have sound := done.sheds.sound (sound.retain _)
  refine ⟨fun row mem => sound.samples row (done.samples ▸ mem), fun row mem => ?_⟩
  rw [done.entries] at mem
  rcases List.mem_append.mp mem with mem | mem
  · exact sound.batches row mem
  · rw [List.mem_singleton.mp mem]
    exact ⟨_, decodeUpload_encode _ done.valid, rfl⟩

theorem Freezing.within (done : Freezing s signed batchId front observations expires middle gone t) :
    t.Within := by
  have fits := done.fits
  have limits : t.limits = middle.limits := by rw [done.result]
  unfold Spool.Within Spool.usedObservations Spool.usedBytes at *
  rw [done.entries, done.samples, limits]
  simp only [List.map_append, List.sum_append, List.map_singleton, List.sum_singleton, BatchRow.of]
  omega

theorem Freezing.stored (done : Freezing s signed batchId front observations expires middle gone t) :
    ∀ row ∈ t.batches.entries, row ∈ s.batches.entries ∨ row.id = batchId := by
  intro row mem
  rw [done.entries] at mem
  rcases List.mem_append.mp mem with mem | mem
  · exact .inl (done.sheds.batches.subset mem)
  · right
    rw [List.mem_singleton.mp mem]
    rfl

end Frozen

/-- Freezing moves samples into one new batch and counts what it evicts. -/
theorem Conserved.freeze {signed : SignedTelemetryConfiguration} {batchId : Uuid} (c : Conserved h s lost)
    (owned : s.Owned signed.configuration) (told : s.freeze signed batchId = .ok t) :
    (∃ gone, Conserved h t (lost ++ gone)) ∧
      (∀ row ∈ t.batches.entries, row ∈ s.batches.entries ∨ row.id = batchId) ∧
      t.samples.entries.Sublist s.samples.entries ∧ t.configurations = s.configurations := by
  rcases freeze_cases c.sound told with rfl | ⟨front, observations, expires, middle, gone, done⟩
  · exact ⟨⟨[], by simpa using c⟩, fun row mem => .inl mem, .refl _, rfl⟩
  have sheds := done.sheds
  have samples : t.samples.entries.Sublist s.samples.entries :=
    done.samples ▸ sheds.samples.trans List.filter_sublist
  have configurations : t.configurations = s.configurations := by
    rw [done.result]
    exact sheds.configurations
  refine ⟨⟨gone, ?_⟩, done.stored, samples, configurations⟩
  have moved := members_rows c.sound (fun row mem => (mem_queue.mp (done.listed row mem)).1) done.distinct done.decoded
  have items := @items_front _ _ _ signed.configuration.owner (fun row mem =>
    owned row (mem_queue.mp (done.listed row mem)).1 (mem_queue.mp (done.listed row mem)).2) done.decoded
  have batch : BatchRow.items (.of ⟨batchId, signed, observations⟩ expires) =
      observations.map fun o => (o, signed.configuration.owner) := by
    simp [BatchRow.items, BatchRow.of, decodeUpload_encode _ done.valid]
  constructor
  · have parts := flatMap_partition s.samples.entries (fun row => (observations.map (·.id)).contains row.id)
      SampleRow.items
    have chosen := moved.flatMap_right SampleRow.items
    have held := sheds.held
    have placed := c.placed
    simp only [Spool.held] at held placed ⊢
    rw [done.entries, done.samples, List.flatMap_append, List.flatMap_singleton, batch]
    rw [items] at chosen
    classical
    rw [List.perm_iff_count] at parts chosen held placed ⊢
    intro item
    have one := parts item
    have two := chosen item
    have three := held item
    have four := placed item
    simp only [List.count_append, List.map_append, Rows.retain] at one two three four ⊢
    omega
  · have losses : t.losses = middle.losses := by rw [done.result]
    rw [losses, List.map_append]
    exact sheds.counted _ c.counted
  · exact done.sound c.sound
  · exact c.ordered
  · intro item mem
    have next : t.next = s.next := by
      rw [done.result]
      exact sheds.next
    rw [next]
    exact c.numbered item mem
  · exact done.within

structure Drained (h : History) (lost : List Lost) (minted : Uuid → Prop) (s t : Spool) : Prop where
  books : ∃ gone, Conserved h t (lost ++ gone)
  batches : ∀ row ∈ t.batches.entries, row ∈ s.batches.entries ∨ minted row.id
  samples : t.samples.entries.Sublist s.samples.entries
  configurations : t.configurations = s.configurations

theorem Conserved.drain {signed : SignedTelemetryConfiguration} {ids : Nat → Uuid} {rounds used : Nat}
    (c : Conserved h s lost) (owned : s.Owned signed.configuration) :
    Drained h lost (fun id => ∃ n, ids n = id) s (s.drain signed ids rounds used).1 := by
  have still : Drained h lost (fun id => ∃ n, ids n = id) s s :=
    ⟨⟨[], by simpa using c⟩, fun row mem => .inl mem, .refl _, rfl⟩
  induction rounds generalizing s lost used with
  | zero =>
    unfold Spool.drain
    dsimp only
    split <;> exact still
  | succ rounds ih =>
    unfold Spool.drain
    dsimp only
    split
    · exact still
    split
    · exact still
    rename_i t frozen
    obtain ⟨⟨gone, books⟩, batches, samples, configurations⟩ := c.freeze owned frozen
    have first : Drained h lost (fun id => ∃ n, ids n = id) s t :=
      ⟨⟨gone, books⟩, fun row mem => (batches row mem).imp_right fun same => ⟨used, same.symm⟩, samples,
        configurations⟩
    split
    · exact first
    have left : t.Owned signed.configuration := fun row mem => owned row (samples.subset mem)
    have later := @ih _ _ (used + 1) books left
      ⟨⟨[], by simpa using books⟩, fun row mem => .inl mem, .refl _, rfl⟩
    obtain ⟨more, books⟩ := later.books
    refine ⟨⟨gone ++ more, by rwa [← List.append_assoc]⟩, fun row mem => ?_, later.samples.trans samples,
      later.configurations.trans configurations⟩
    rcases later.batches row mem with mem | minted
    · exact first.batches row mem
    · exact .inr minted

end Books

section Calls
variable [UploadWire]

inductive Call where
  | append (c : Configuration) (at' : Int) (normalized : Except Error (List (String × TelemetryReading)))
      (id batchId : Uuid)
  | freeze (c : SignedTelemetryConfiguration) (batchId : Uuid)
  | freezeAll (c : SignedTelemetryConfiguration) (ids : Nat → Uuid)
  | install (c : Configuration) (ids : Nat → Uuid)
  | pending (now : Int) (newest : Bool)
  | attempting (p : Pending) (now : Int)
  | retry (p : Pending) (now : Int) (delay : Option Nat)
  | acknowledge (p : Pending) (r : TelemetryReceipt)
  | reject (p : Pending) (reason : GapWire.Reason)
  | prune (now : Int) (owner : Owner)

def Spool.commit (s : Spool) (result : Except Error Spool) : Spool × Bool :=
  match result with
  | .ok t => (t, true)
  | .error _ => (s, false)

/-- The tables after a call, and whether it succeeded. -/
def Spool.call (s : Spool) : Call → Spool × Bool
  | .append c at' normalized id batchId =>
    let result := s.append c at' normalized id batchId
    (result.1, result.2.isOk)
  | .freeze c batchId => s.commit (s.freeze c batchId)
  | .freezeAll c ids =>
    let result := s.freezeAll c ids
    (result.1, result.2.isOk)
  | .install c ids =>
    let result := s.install c ids
    (result.1, result.2.isOk)
  | .pending now newest => (s, (s.pending now newest).isOk)
  | .attempting p now => (s.attempting p now, true)
  | .retry p now delay => (s.retry p now delay, true)
  | .acknowledge p r => s.commit (s.acknowledge p r)
  | .reject p reason => s.commit (s.reject p reason)
  | .prune now owner => s.commit (s.prune now owner)

structure Act where
  before : Spool
  call : Call

def Step (s : Spool) (a : Act) (t : Spool) : Prop := a.before = s ∧ (s.call a.call).1 = t

def Spool.observed (s : Spool) (c : Configuration) (at' : Int)
    (normalized : Except Error (List (String × TelemetryReading))) (id : Uuid) (accepted : Bool) : List Item :=
  match normalized with
  | .ok values => if accepted then [(⟨id, s.next, at', values⟩, c.payload.owner)] else []
  | .error _ => []

def Act.appended (a : Act) : List Item :=
  match a.call with
  | .append c at' normalized id batchId =>
    a.before.observed c at' normalized id (a.before.append c at' normalized id batchId).2.isOk
  | _ => []

def Act.acknowledged (a : Act) : List Item :=
  match a.call, (a.before.call a.call).2 with
  | .acknowledge p _, true => (a.before.batches.select fun row => decide (row.id = p.id)).flatMap BatchRow.items
  | _, _ => []

def history (acts : List Act) : History := ⟨acts.flatMap Act.appended, acts.flatMap Act.acknowledged⟩

def Spool.Holds (s : Spool) (p : Pending) : Prop :=
  ∃ row ∈ s.batches.entries, row.id = p.id ∧ row.owner = p.owner ∧ row.count = p.count

/-- A rejected batch is still stored, and a batch is frozen from samples of its own registration. -/
def Act.Fair (a : Act) : Prop :=
  match a.call with
  | .reject p _ => a.before.Holds p
  | .freeze c _ => a.before.Owned c.configuration
  | .freezeAll c _ => a.before.Owned c.configuration
  | .install c _ => ∀ row old, a.before.configurations.get c.payload.policy = some row →
      decodeSigned row.body = some old → old.configuration.binding ≠ c.payload.binding →
      a.before.Owned old.configuration
  | _ => True

def Act.Mints (a : Act) (id : Uuid) : Prop :=
  match a.call with
  | .freeze _ batchId => batchId = id
  | .freezeAll _ ids => ∃ n, ids n = id
  | .install _ ids => ∃ n, ids n = id
  | _ => False

/-- A later version of a batch: only its sending state may differ. -/
structure BatchRow.Same (row row' : BatchRow) : Prop where
  id : row'.id = row.id
  owner : row'.owner = row.owner
  body : row'.body = row.body
  digest : row'.digest = row.digest
  count : row'.count = row.count
  first : row'.first = row.first
  last : row'.last = row.last
  expires : row'.expires = row.expires

variable {h : History} {s t : Spool} {lost : List Lost} {a : Act}

omit [UploadWire] in
theorem BatchRow.Same.refl (row : BatchRow) : row.Same row := ⟨rfl, rfl, rfl, rfl, rfl, rfl, rfl, rfl⟩

omit [UploadWire] in
theorem BatchRow.Same.trans {one two three : BatchRow} (first : one.Same two) (second : two.Same three) :
    one.Same three :=
  ⟨second.id.trans first.id, second.owner.trans first.owner, second.body.trans first.body,
    second.digest.trans first.digest, second.count.trans first.count, second.first.trans first.first,
    second.last.trans first.last, second.expires.trans first.expires⟩

omit [UploadWire] in
theorem mark_same (p : Pending) (attempts : Nat → Nat) (due : Int) (row : BatchRow) :
    row.Same (p.mark attempts due row) := by
  unfold Pending.mark
  split
  · exact ⟨rfl, rfl, rfl, rfl, rfl, rfl, rfl, rfl⟩
  · exact .refl row

theorem BatchRow.Same.items {row row' : BatchRow} (same : row.Same row') : row'.items = row.items := by
  unfold BatchRow.items
  rw [same.body, same.owner]

def Preserves (minted : Uuid → Prop) (s t : Spool) : Prop :=
  ∀ row' ∈ t.batches.entries, (∃ row ∈ s.batches.entries, row.Same row') ∨ minted row'.id

omit [UploadWire] in
theorem Preserves.of_mem {minted : Uuid → Prop}
    (kept : ∀ row ∈ t.batches.entries, row ∈ s.batches.entries ∨ minted row.id) : Preserves minted s t :=
  fun row mem => (kept row mem).imp_left fun old => ⟨row, old, .refl row⟩

theorem Conserved.touch (c : Conserved h s lost) (p : Pending) (attempts : Nat → Nat) (due : Int) :
    Conserved h (s.touch p attempts due) lost := by
  have entries : (s.touch p attempts due).batches.entries = s.batches.entries.map (p.mark attempts due) := rfl
  have counts : (s.batches.entries.map (p.mark attempts due)).map BatchRow.count = s.batches.entries.map BatchRow.count := by
    rw [List.map_map]
    exact List.map_congr_left fun row _ => (mark_same p attempts due row).count
  have bodies : (s.batches.entries.map (p.mark attempts due)).map (fun row => row.body.length) =
      s.batches.entries.map fun row => row.body.length := by
    rw [List.map_map]
    exact List.map_congr_left fun row _ => by simp [(mark_same p attempts due row).body]
  constructor
  · have held : (s.touch p attempts due).held = s.held := by
      unfold Spool.held
      rw [entries, List.flatMap_map]
      congr 1
      exact List.flatMap_congr fun row _ => (mark_same p attempts due row).items
    rw [held]
    exact c.placed
  · exact c.counted
  · refine ⟨c.sound.samples, fun row mem => ?_⟩
    rw [entries] at mem
    obtain ⟨old, stored, rfl⟩ := List.mem_map.mp mem
    rw [(mark_same p attempts due old).body, (mark_same p attempts due old).count]
    exact c.sound.batches old stored
  · exact c.ordered
  · exact c.numbered
  · have within := c.within
    unfold Spool.Within Spool.usedObservations Spool.usedBytes at within ⊢
    rw [entries, counts, bodies]
    exact within

omit [UploadWire] in
theorem delete_entries (p : Pending) : (s.delete p).batches.entries =
    s.batches.entries.filter fun row => !decide (row.id = p.id) := by
  show s.batches.entries.filter _ = _
  simp only [ne_eq, decide_not]

theorem held_delete (p : Pending) : s.held.Perm ((s.delete p).held ++
    (s.batches.select fun row => decide (row.id = p.id)).flatMap BatchRow.items) := by
  have parts := flatMap_partition s.batches.entries (fun row => decide (row.id = p.id)) BatchRow.items
  unfold Spool.held
  rw [delete_entries]
  refine (parts.append_left _).trans ?_
  refine (List.perm_append_comm.append_left _).trans ?_
  rw [← List.append_assoc]
  exact .refl _

theorem Conserved.delete_rest (c : Conserved h s lost) (p : Pending) :
    (s.delete p).Sound ∧ (s.delete p).Within := by
  have sub : (s.delete p).batches.entries.Sublist s.batches.entries := List.filter_sublist
  refine ⟨⟨c.sound.samples, fun row mem => c.sound.batches row (sub.subset mem)⟩, ?_⟩
  have counts := (sub.map BatchRow.count).sum_le_sum fun _ _ => Nat.zero_le _
  have uploads := (sub.map fun row => row.body.length).sum_le_sum fun _ _ => Nat.zero_le _
  have within := c.within
  unfold Spool.Within Spool.usedObservations Spool.usedBytes at within ⊢
  change s.samples.entries.length + ((s.delete p).batches.entries.map BatchRow.count).sum ≤ s.limits.observations ∧
    (s.samples.entries.map fun row => row.body.length).sum +
      ((s.delete p).batches.entries.map fun row => row.body.length).sum ≤ s.limits.bytes
  omega

theorem Conserved.acknowledge (c : Conserved h s lost) (p : Pending) (receipt : Option Bytes) :
    Conserved ⟨h.appended, h.acknowledged ++
      (s.batches.select fun row => decide (row.id = p.id)).flatMap BatchRow.items⟩
      ({ s with receipt := receipt }.delete p) lost := by
  obtain ⟨sound, within⟩ := c.delete_rest p
  refine ⟨?_, c.counted, ⟨sound.samples, sound.batches⟩, c.ordered, c.numbered, within⟩
  have placed := c.placed
  have held : s.held.Perm (({ s with receipt := receipt }.delete p).held ++ _) := held_delete p
  classical
  rw [List.perm_iff_count] at placed held ⊢
  intro item
  have one := placed item
  have two := held item
  simp only [List.count_append] at one two ⊢
  omega

theorem Conserved.reject {p : Pending} {reason : GapWire.Reason} (c : Conserved h s lost)
    (live : s.Holds p) (told : s.reject p reason = .ok t) :
    ∃ gone, Conserved h t (lost ++ gone) := by
  obtain ⟨row, stored, id, owner, count⟩ := live
  unfold Spool.reject at told
  obtain ⟨losses, recorded, told⟩ := ContractPlan.bind_ok.mp told
  cases told
  have selected : (s.batches.select fun other => decide (other.id = p.id)) = [row] := by
    rw [← id]
    exact @Rows.select_key _ _ _ BatchRow.id _ _ stored
  obtain ⟨sound, within⟩ := c.delete_rest p
  refine ⟨lostItems BatchRow.items reason [row], ?_, ?_, ⟨sound.samples, sound.batches⟩, c.ordered, c.numbered, within⟩
  · have placed := c.placed
    have held : s.held.Perm (({ s with losses := losses }.delete p).held ++ _) := held_delete p
    rw [selected] at held
    rw [List.map_append, lostItems_fst]
    classical
    rw [List.perm_iff_count] at placed held ⊢
    intro item
    have one := placed item
    have two := held item
    simp only [List.count_append] at one two ⊢
    omega
  · have counted := c.counted.record recorded
    rw [List.map_append]
    refine Counted.congr counted fun key => ?_
    have agrees : ∀ other ∈ [row], Agrees BatchRow.items BatchRow.piece other := by
      intro other mem
      rw [List.mem_singleton.mp mem]
      exact BatchRow.agrees c.sound stored
    have same := @total_pieces _ _ _ _ _ reason agrees key
    rw [total_append, total_append, lostItems, List.map_map]
    have piece : ([row].map BatchRow.piece).map (Piece.loss reason) =
        [(⟨p.owner, GapWire.key reason⟩, p.count)] := by
      simp [BatchRow.piece, Piece.loss, owner, count]
    rw [piece] at same
    rw [← same]
    rfl

theorem Conserved.configure (c : Conserved h s lost) (configurations : Rows ConfigurationRow.policy) :
    Conserved h { s with configurations := configurations } lost :=
  ⟨c.placed, c.counted, ⟨c.sound.samples, c.sound.batches⟩, c.ordered, c.numbered, c.within⟩

theorem Conserved.keep {config : Configuration} (c : Conserved h s lost)
    (told : s.keepConfiguration config = .ok t) : Conserved h t lost ∧ t.batches = s.batches := by
  unfold Spool.keepConfiguration at told
  dsimp only at told
  split at told
  · cases told
  split at told
  · cases told
  cases told
  exact ⟨c.configure _, rfl⟩

def History.add (h : History) (a : Act) : History :=
  ⟨h.appended ++ a.appended, h.acknowledged ++ a.acknowledged⟩

theorem history_append (acts : List Act) : history (acts ++ [a]) = (history acts).add a := by
  simp [history, History.add]

theorem History.add_quiet (appended : a.appended = []) (acknowledged : a.acknowledged = []) :
    h.add a = h := by
  unfold History.add
  rw [appended, acknowledged, List.append_nil, List.append_nil]

theorem Conserved.install {config : Configuration} {ids : Nat → Uuid} (c : Conserved h s lost)
    (fair : ∀ row old, s.configurations.get config.payload.policy = some row →
      decodeSigned row.body = some old → old.configuration.binding ≠ config.payload.binding →
      s.Owned old.configuration) :
    (∃ gone, Conserved h (s.install config ids).1 (lost ++ gone)) ∧
      ∀ row ∈ (s.install config ids).1.batches.entries, row ∈ s.batches.entries ∨ ∃ n, ids n = row.id := by
  have still : (∃ gone, Conserved h s (lost ++ gone)) ∧
      ∀ row ∈ s.batches.entries, row ∈ s.batches.entries ∨ ∃ n, ids n = row.id :=
    ⟨⟨[], by simpa using c⟩, fun row mem => .inl mem⟩
  -- Storing the configuration touches neither the books nor the batches.
  have keeps : ∀ middle : Spool, (∃ gone, Conserved h middle (lost ++ gone)) →
      (∀ row ∈ middle.batches.entries, row ∈ s.batches.entries ∨ ∃ n, ids n = row.id) →
      ∀ result : Spool × Except Error Unit, (match middle.keepConfiguration config with
        | .ok t => (t, Except.ok ())
        | .error e => (middle, .error e)) = result → (∃ gone, Conserved h result.1 (lost ++ gone)) ∧
          ∀ row ∈ result.1.batches.entries, row ∈ s.batches.entries ∨ ∃ n, ids n = row.id := by
    rintro middle ⟨gone, books⟩ batches result rfl
    cases told : middle.keepConfiguration config with
    | error e => exact ⟨⟨gone, books⟩, batches⟩
    | ok t =>
      obtain ⟨kept, same⟩ := books.keep told
      exact ⟨⟨gone, kept⟩, fun row mem => batches row (same ▸ mem)⟩
  unfold Spool.install
  dsimp only
  split
  · exact keeps s still.1 still.2 _ rfl
  rename_i row found
  split
  · exact still
  rename_i old decoded
  split
  · exact still
  split
  · rename_i differ
    have drained := @Conserved.drain _ _ _ _ _ ids (s.queued old.configuration.binding) 0 c
      (fair row old found decoded differ)
    change Drained h lost _ s (s.freezeAll old ids).1 at drained
    cases told : s.freezeAll old ids with
    | mk t result =>
      rw [told] at drained
      cases result with
      | error e => exact ⟨drained.books, drained.batches⟩
      | ok done => exact keeps t drained.books drained.batches _ rfl
  · exact keeps s still.1 still.2 _ rfl

theorem Conserved.append {config : Configuration} {at' : Int}
    {normalized : Except Error (List (String × TelemetryReading))} {id batchId : Uuid}
    (c : Conserved h s lost) : (∃ gone, Conserved ⟨h.appended ++
        s.observed config at' normalized id (s.append config at' normalized id batchId).2.isOk, h.acknowledged⟩
        (s.append config at' normalized id batchId).1 (lost ++ gone)) ∧
      ∀ row ∈ (s.append config at' normalized id batchId).1.batches.entries, row ∈ s.batches.entries := by
  have nothing : s.observed config at' normalized id false = [] := by
    unfold Spool.observed
    cases normalized <;> rfl
  unfold Spool.append
  split
  · show (∃ gone, Conserved ⟨h.appended ++ s.observed config at' normalized id false, _⟩ s (lost ++ gone)) ∧ _
    rw [nothing, List.append_nil]
    exact ⟨⟨[], by simpa using c⟩, fun row mem => mem⟩
  cases pruned : s.prune (at'.tdiv 1000000) config.payload.owner with
  | error e =>
    show (∃ gone, Conserved ⟨h.appended ++ s.observed config at' normalized id false, _⟩ s (lost ++ gone)) ∧ _
    rw [nothing, List.append_nil]
    exact ⟨⟨[], by simpa using c⟩, fun row mem => mem⟩
  | ok middle =>
    obtain ⟨gone, sheds⟩ := sheds_prune c.sound pruned
    have books := c.shed sheds
    dsimp only
    cases stored : middle.store config at' normalized id batchId with
    | error e =>
      show (∃ gone, Conserved ⟨h.appended ++ s.observed config at' normalized id false, _⟩ middle (lost ++ gone)) ∧ _
      rw [nothing, List.append_nil]
      exact ⟨⟨gone, books⟩, fun row mem => sheds.batches.subset mem⟩
    | ok t =>
      obtain ⟨values, more, rfl, books, batches⟩ := books.store stored
      rw [sheds.next] at books
      exact ⟨⟨gone ++ more, by rwa [← List.append_assoc]⟩,
        fun row mem => sheds.batches.subset (batches.subset mem)⟩

/-- One fair call keeps the books and the stored batches. -/
theorem Conserved.step (c : Conserved h s lost) (step : Step s a t) (fair : a.Fair) :
    (∃ gone, Conserved (h.add a) t (lost ++ gone)) ∧ Preserves a.Mints s t := by
  obtain ⟨before, call⟩ := a
  obtain ⟨rfl, after⟩ := step
  dsimp only at c after ⊢
  have still : h.add ⟨before, call⟩ = h → before = t →
      (∃ gone, Conserved (h.add ⟨before, call⟩) t (lost ++ gone)) ∧
        Preserves (Act.Mints ⟨before, call⟩) before t := by
    rintro quiet rfl
    rw [quiet]
    exact ⟨⟨[], by simpa using c⟩, .of_mem fun row mem => .inl mem⟩
  cases call with
  | append config at' normalized id batchId =>
    obtain rfl : (before.append config at' normalized id batchId).1 = t := after
    obtain ⟨books, batches⟩ := @Conserved.append _ _ _ _ config at' normalized id batchId c
    have added : h.add ⟨before, .append config at' normalized id batchId⟩ = ⟨h.appended ++
        before.observed config at' normalized id (before.append config at' normalized id batchId).2.isOk,
        h.acknowledged⟩ := by
      simp [History.add, Act.appended, Act.acknowledged]
    rw [added]
    exact ⟨books, .of_mem fun row mem => .inl (batches row mem)⟩
  | freeze config batchId =>
    cases told : before.freeze config batchId with
    | error e => exact still (History.add_quiet rfl rfl) (by simpa [Spool.call, told, Spool.commit] using after)
    | ok middle =>
      obtain rfl : middle = t := by simpa [Spool.call, told, Spool.commit] using after
      obtain ⟨books, batches, -⟩ := c.freeze fair told
      rw [History.add_quiet rfl rfl]
      exact ⟨books, .of_mem fun row mem => (batches row mem).imp_right Eq.symm⟩
  | freezeAll config ids =>
    obtain rfl : (before.freezeAll config ids).1 = t := after
    have drained := @Conserved.drain _ _ _ _ _ ids (before.queued config.configuration.binding) 0 c fair
    rw [History.add_quiet rfl rfl]
    exact ⟨drained.books, .of_mem drained.batches⟩
  | install config ids =>
    obtain rfl : (before.install config ids).1 = t := after
    obtain ⟨books, batches⟩ := @Conserved.install _ _ _ _ _ ids c fair
    rw [History.add_quiet rfl rfl]
    exact ⟨books, .of_mem batches⟩
  | pending now newest => exact still (History.add_quiet rfl rfl) after
  | attempting p now =>
    obtain rfl : before.touch p (fun attempts => min (attempts + 1) 31) (saturatingTime (now + 2)) = t := after
    rw [History.add_quiet rfl rfl]
    refine ⟨⟨[], by simpa using c.touch p _ _⟩, fun row mem => ?_⟩
    obtain ⟨old, stored, rfl⟩ := List.mem_map.mp mem
    exact .inl ⟨old, stored, mark_same p _ _ old⟩
  | retry p now delay =>
    obtain rfl : before.touch p id (saturatingTime (now + backoff p.attempts p.id delay)) = t := after
    rw [History.add_quiet rfl rfl]
    refine ⟨⟨[], by simpa using c.touch p _ _⟩, fun row mem => ?_⟩
    obtain ⟨old, stored, rfl⟩ := List.mem_map.mp mem
    exact .inl ⟨old, stored, mark_same p _ _ old⟩
  | acknowledge p r =>
    by_cases refused : r.batchId ≠ p.id ∨ r.receivedAt < 0
    · have told : before.acknowledge p r = .error .protocol := if_pos refused
      exact still (History.add_quiet rfl (by simp [Act.acknowledged, Spool.call, told, Spool.commit]))
        (by simpa [Spool.call, told, Spool.commit] using after)
    · have told : before.acknowledge p r = .ok ({ before with receipt := some (encodeReceipt r) }.delete p) :=
        if_neg refused
      obtain rfl : { before with receipt := some (encodeReceipt r) }.delete p = t := by
        simpa [Spool.call, told, Spool.commit] using after
      have added : h.add ⟨before, .acknowledge p r⟩ = ⟨h.appended, h.acknowledged ++
          (before.batches.select fun row => decide (row.id = p.id)).flatMap BatchRow.items⟩ := by
        simp [History.add, Act.appended, Act.acknowledged, Spool.call, told, Spool.commit]
      rw [added]
      refine ⟨⟨[], by simpa using c.acknowledge p _⟩, .of_mem fun row mem => .inl ?_⟩
      exact (List.mem_filter.mp mem).1
  | reject p reason =>
    cases told : before.reject p reason with
    | error e => exact still (History.add_quiet rfl rfl) (by simpa [Spool.call, told, Spool.commit] using after)
    | ok middle =>
      obtain rfl : middle = t := by simpa [Spool.call, told, Spool.commit] using after
      rw [History.add_quiet rfl rfl]
      refine ⟨c.reject fair told, .of_mem fun row mem => .inl ?_⟩
      unfold Spool.reject at told
      obtain ⟨losses, _, told⟩ := ContractPlan.bind_ok.mp told
      cases told
      exact (List.mem_filter.mp mem).1
  | prune now owner =>
    cases told : before.prune now owner with
    | error e => exact still (History.add_quiet rfl rfl) (by simpa [Spool.call, told, Spool.commit] using after)
    | ok middle =>
      obtain rfl : middle = t := by simpa [Spool.call, told, Spool.commit] using after
      obtain ⟨gone, sheds⟩ := sheds_prune c.sound told
      rw [History.add_quiet rfl rfl]
      exact ⟨⟨gone, c.shed sheds⟩, .of_mem fun row mem => .inl (sheds.batches.subset mem)⟩

theorem Conserved.run {first segment : List Act} (c : Conserved (history first) s lost)
    (later : Runs Step s segment t) (fair : ∀ a ∈ segment, a.Fair) :
    (∃ gone, Conserved (history (first ++ segment)) t (lost ++ gone)) ∧
      Preserves (fun id => ∃ a ∈ segment, a.Mints id) s t := by
  induction later with
  | refl => exact ⟨⟨[], by simpa using c⟩, .of_mem fun row mem => .inl mem⟩
  | @next segment middle u a _ h ih =>
    obtain ⟨fair, last⟩ := List.forall_mem_append.mp fair
    obtain ⟨⟨gone, books⟩, batches⟩ := ih fair
    obtain ⟨⟨more, books⟩, kept⟩ := books.step h (last a (List.mem_singleton.mpr rfl))
    refine ⟨⟨gone ++ more, ?_⟩, fun row mem => ?_⟩
    · rw [← List.append_assoc, ← List.append_assoc, history_append]
      exact books
    · rcases kept row mem with ⟨now, mem, same⟩ | minted
      · rcases batches now mem with ⟨old, mem, early⟩ | ⟨a, listed, minted⟩
        · exact .inl ⟨old, mem, early.trans same⟩
        · exact .inr ⟨a, List.mem_append_left _ listed, same.id ▸ minted⟩
      · exact .inr ⟨a, by simp, minted⟩

/-- In every run whose rejected batches are still stored, and whose batches are frozen from samples of
their own registration, appended observations are conserved and stored batches stay as they are. -/
theorem telemetry_conserved {limits : Limits} {first segment : List Act}
    (run : Runs Step (.empty limits) first s) (later : Runs Step s segment t)
    (fair : ∀ a ∈ first ++ segment, a.Fair) :
    (∃ lost, Conserved (history (first ++ segment)) t lost) ∧
      Preserves (fun id => ∃ a ∈ segment, a.Mints id) s t := by
  obtain ⟨before, during⟩ := List.forall_mem_append.mp fair
  obtain ⟨⟨lost, books⟩, -⟩ := @Conserved.run _ _ _ _ [] _ (Conserved.start limits) run before
  rw [List.nil_append] at books
  obtain ⟨⟨gone, books⟩, kept⟩ := books.run later during
  exact ⟨⟨_, books⟩, kept⟩

end Calls

section Sample

def sampleConfiguration (issuedAt maxBytes : Nat) : SignedTelemetryConfiguration :=
  ⟨⟨7, 8, ⟨1, 1⟩, "binding", issuedAt, 100, 50, maxBytes, 10, 10, []⟩, "key", "signature"⟩

def sampleMember (o : TelemetryObservation) : Bool :=
  o.values.isEmpty && decide (o.id < 256 ∧ o.sequence < 256 ∧ 0 ≤ o.observedAt ∧ o.observedAt < 256)

def sampleBytes (o : TelemetryObservation) : Bytes := [o.id.toUInt8, o.sequence.toUInt8, o.observedAt.toNat.toUInt8]

def sampleMembers : Bytes → List TelemetryObservation
  | id :: sequence :: time :: rest => ⟨id.toNat, sequence.toNat, time.toNat, []⟩ :: sampleMembers rest
  | _ => []

theorem sampleMembers_bytes (observations : List TelemetryObservation) (small : observations.all sampleMember = true) :
    sampleMembers (observations.flatMap sampleBytes) = observations := by
  induction observations with
  | nil => rfl
  | cons o rest ih =>
    rw [List.all_cons, Bool.and_eq_true] at small
    obtain ⟨here, later⟩ := small
    obtain ⟨id, sequence, time, values⟩ := o
    simp only [sampleMember, Bool.and_eq_true, List.isEmpty_iff, decide_eq_true_eq] at here
    obtain ⟨rfl, h1, h2, h3, h4⟩ := here
    have small : time.toNat < 256 := by omega
    rw [List.flatMap_cons]
    show _ :: sampleMembers (rest.flatMap sampleBytes) = _
    rw [ih later]
    simp [Nat.mod_eq_of_lt, h1, h2, small, h3]

/-- The encodings of two configurations and of observations without readings and with small numbers. -/
@[reducible] def sampleUploadWire : UploadWire where
  toGapWire := sampleGapWire
  verified signed := decide (signed = sampleConfiguration 0 20 ∨ signed = sampleConfiguration 1 4)
  validateUpload upload :=
    decide (upload.batchId < 256 ∧
      (upload.configuration = sampleConfiguration 0 20 ∨ upload.configuration = sampleConfiguration 1 4)) &&
      upload.observations.all sampleMember
  encodeSigned signed := if signed = sampleConfiguration 0 20 then [0] else [1]
  decodeSigned bytes := if bytes = [0] then some (sampleConfiguration 0 20)
    else if bytes = [1] then some (sampleConfiguration 1 4) else none
  decodeSigned_encode signed valid := by
    rcases of_decide_eq_true valid with rfl | rfl <;> decide
  encodeUpload upload := upload.batchId.toUInt8 ::
    (if upload.configuration = sampleConfiguration 0 20 then 0 else 1) :: upload.observations.flatMap sampleBytes
  decodeUpload bytes :=
    match bytes with
    | id :: which :: rest => some ⟨id.toNat,
        if which = 0 then sampleConfiguration 0 20 else sampleConfiguration 1 4, sampleMembers rest⟩
    | _ => none
  decodeUpload_encode := by
    rintro ⟨id, configuration, observations⟩ valid
    rw [Bool.and_eq_true, decide_eq_true_eq] at valid
    obtain ⟨⟨small, known⟩, members⟩ := valid
    have same := sampleMembers_bytes observations members
    rcases known with rfl | rfl
    · simp [same, Nat.mod_eq_of_lt, small]
    · have differ : ¬ sampleConfiguration 1 4 = sampleConfiguration 0 20 := by decide
      simp [same, Nat.mod_eq_of_lt, small, differ]
  encodeObservation := sampleBytes
  decodeObservation bytes := (sampleMembers bytes).head?
  decodeObservation_encode upload valid o mem := by
    rw [Bool.and_eq_true] at valid
    have small : [o].all sampleMember = true := by
      simpa using List.all_eq_true.mp valid.2 o mem
    have same := sampleMembers_bytes [o] small
    rw [List.flatMap_singleton] at same
    rw [same]
    rfl
  encodeScalar _ := []
  encodeReceipt r := [r.batchId.toUInt8]

attribute [local instance] sampleUploadWire

def sampleLimits : Limits := ⟨100, 4⟩

def sampleVerified : Configuration := ⟨sampleConfiguration 0 20, by decide⟩

def sampleAppend : Act := ⟨.empty sampleLimits, .append sampleVerified 5 (.ok []) 2 3⟩

def sampleFreeze : Act := ⟨(sampleAppend.before.call sampleAppend.call).1, .freeze (sampleConfiguration 0 20) 4⟩

def samplePending : Act := ⟨(sampleFreeze.before.call sampleFreeze.call).1, .pending 0 false⟩

def sampleBatch : Pending := ⟨4, ⟨1, 1⟩, [4, 0, 2, 0, 5], 0, 1, 5, 5⟩

def samplePrune : Act := ⟨samplePending.before, .prune 0 ⟨2, 1⟩⟩

def sampleReject (before : Spool) : Act := ⟨before, .reject sampleBatch (Fin.last 3)⟩

def sampleEnd (a : Act) : Spool := (a.before.call a.call).1

def sampleActs : List Act := [sampleAppend, sampleFreeze, samplePending, samplePrune, sampleReject (sampleEnd samplePrune)]

/-- A batch that is rejected after it was pruned is counted as lost twice. -/
theorem rejected_after_prune :
    Runs Step (.empty sampleLimits) sampleActs (sampleEnd (sampleReject (sampleEnd samplePrune))) ∧
      (samplePending.before.pending 0 false).toOption = some (some sampleBatch) ∧
      ¬ ∃ lost, Conserved (history sampleActs) (sampleEnd (sampleReject (sampleEnd samplePrune))) lost := by
  refine ⟨?_, by decide +kernel, ?_⟩
  · exact .next (.next (.next (.next (.next .refl ⟨rfl, rfl⟩) ⟨rfl, rfl⟩) ⟨rfl, rfl⟩) ⟨rfl, rfl⟩) ⟨rfl, rfl⟩
  · rintro ⟨lost, books⟩
    have pruned : lifetimeCount (sampleEnd (sampleReject (sampleEnd samplePrune))).losses "registration" = 1 := by
      decide +kernel
    have rejected : lifetimeCount (sampleEnd (sampleReject (sampleEnd samplePrune))).losses "rejected" = 1 := by
      decide +kernel
    have one : (history sampleActs).appended.length = 1 := by decide +kernel
    have size := books.placed.length_eq
    rw [one] at size
    simp only [List.length_append, List.length_map] at size
    rw [books.counted.lifetime] at pruned rejected
    match lost with
    | [] => simp at pruned
    | [loss] =>
      simp only [Lost.loss, List.map_cons, List.map_nil, total_cons, total_nil] at pruned rejected
      by_cases here : loss.2 = "registration"
      · simp [here] at rejected
      · simp [here] at pruned
    | _ :: _ :: _ =>
      simp only [List.length_cons] at size
      omega

/-- Rejecting the batch while it is stored counts it once. -/
theorem telemetry_conserved_sample :
    (∃ lost, Conserved (history [sampleAppend, sampleFreeze, sampleReject samplePending.before])
        (sampleEnd (sampleReject samplePending.before)) lost) ∧
      lifetimeCount (sampleEnd (sampleReject samplePending.before)).losses "rejected" = 1 := by
  have run : Runs Step (.empty sampleLimits) [sampleAppend, sampleFreeze] samplePending.before :=
    .next (.next .refl ⟨rfl, rfl⟩) ⟨rfl, rfl⟩
  have later : Runs Step samplePending.before [sampleReject samplePending.before]
      (sampleEnd (sampleReject samplePending.before)) := .one ⟨rfl, rfl⟩
  have owned : ∀ row ∈ (sampleAppend.before.call sampleAppend.call).1.samples.entries, row.owner = ⟨1, 1⟩ := by
    decide +kernel
  have live : ∃ row ∈ samplePending.before.batches.entries, row.id = 4 ∧ row.owner = ⟨1, 1⟩ ∧ row.count = 1 := by
    decide +kernel
  have fair : ∀ a ∈ [sampleAppend, sampleFreeze] ++ [sampleReject samplePending.before], a.Fair := by
    intro a mem
    simp only [List.cons_append, List.nil_append, List.mem_cons, List.not_mem_nil, or_false] at mem
    rcases mem with rfl | rfl | rfl
    · trivial
    · exact fun row stored _ => owned row stored
    · exact live
  exact ⟨(telemetry_conserved run later fair).1, by decide +kernel⟩

end Sample

end RssMdmAgent.TelemetrySpool
