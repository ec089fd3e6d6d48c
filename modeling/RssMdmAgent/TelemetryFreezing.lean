import RssMdmAgent.TelemetryConservation

set_option autoImplicit false

/-! # Stored samples can be frozen, so the spool reopens -/

namespace RssMdmAgent.TelemetrySpool
open OrderedRows Tally TransitionRuns TelemetryGaps UploadWire

section Stopping
variable {α β : Type} {f : β → α → Except Error (Option β)} {R : β → β → Prop}

def Follows (R : β → β → Prop) (state : β) (result : Except Error (Option β)) : Prop :=
  ∃ outcome, result = .ok outcome ∧ ∀ state', outcome = some state' → R state state'

theorem stopping_follows (related : ∀ s t a s', R s t → f s a = .ok (some s') → Follows R s' (f t a))
    {items : List α} {s t s' : β} (start : R s t) (through : stopping f items s = .ok (some s')) :
    Follows R s' (stopping f items t) := by
  induction items generalizing s t with
  | nil =>
    cases through
    exact ⟨some t, rfl, fun state' same => by
      cases same
      exact start⟩
  | cons item rest ih =>
    unfold stopping at through ⊢
    cases first : f s item with
    | error e =>
      rw [first] at through
      cases through
    | ok outcome =>
      cases outcome with
      | none =>
        rw [first] at through
        cases through
      | some middle =>
        rw [first] at through
        obtain ⟨outcome, same, next⟩ := related s t item middle start first
        rw [same]
        cases outcome with
        | none => exact ⟨none, rfl, fun state' same => by cases same⟩
        | some state => exact ih (next state rfl) through

end Stopping

section Budget
variable [UploadWire] {c : TelemetryConfiguration}

theorem countItem_follows (f : FieldDefinition) (s t : Usage × List Bytes) (item : Option Scalar)
    (s' : Usage × List Bytes) (same : s.2 = t.2) (h : countItem c f s item = .ok (some s')) :
    Follows (fun a b => a.2 = b.2) s' (countItem c f t item) := by
  unfold countItem at h ⊢
  cases found : f.identity item with
  | error e =>
    rw [found] at h
    cases h
  | ok identity =>
    rw [found] at h
    change (if s.2.contains identity = true then _ else _) = _ at h
    show Follows _ s' (if t.2.contains identity = true then _ else _)
    rw [← same]
    split at h
    · cases h
    · rename_i distinct
      rw [if_neg distinct]
      split at h
      · cases h
      · cases h
        split
        · exact ⟨none, rfl, fun state' same => by cases same⟩
        · exact ⟨_, rfl, fun state' now => by
            cases now
            rfl⟩

theorem countField_follows (o : TelemetryObservation) (s t : Usage) (f : FieldDefinition) (s' : Usage)
    (h : countField c o s f = .ok (some s')) : Follows (fun _ _ => True) s' (countField c o t f) := by
  unfold countField at h ⊢
  cases series : f.timeSeries with
  | none => exact ⟨some t, rfl, fun _ _ => trivial⟩
  | some binding =>
    rw [series] at h
    dsimp only at h ⊢
    cases read : TelemetryReading.items ((o.values.find? (·.1 = f.key)).map (·.2)) with
    | error e =>
      rw [read] at h
      cases h
    | ok items =>
      rw [read] at h
      dsimp only at h ⊢
      split at h
      · cases h
      rename_i few
      rw [if_neg few]
      cases passed : stopping (countItem c f) items (s, []) with
      | error e =>
        rw [passed] at h
        cases h
      | ok outcome =>
        cases outcome with
        | none =>
          rw [passed] at h
          cases h
        | some state =>
          obtain ⟨outcome, same, -⟩ := stopping_follows (R := fun a b : Usage × List Bytes => a.2 = b.2)
            (fun s t item s' => countItem_follows f s t item s') (s := (s, [])) (t := (t, [])) rfl passed
          rw [same]
          exact ⟨_, rfl, fun _ _ => trivial⟩

theorem countObservation_follows (s t : Usage) (o : TelemetryObservation) (s' : Usage)
    (h : countObservation c s o = .ok (some s')) : Follows (fun _ _ => True) s' (countObservation c t o) :=
  stopping_follows (R := fun _ _ => True) (fun s t f s' _ => countField_follows o s t f s') trivial h

theorem withinBudget_total {observations : List TelemetryObservation}
    (alone : ∀ o ∈ observations, withinBudget c [o] = .ok true) : ∃ within, withinBudget c observations = .ok within := by
  have passes : ∀ o ∈ observations, ∃ s', countObservation c ⟨[], 0⟩ o = .ok (some s') := by
    intro o mem
    have h := alone o mem
    unfold withinBudget stopping at h
    cases counted : countObservation c ⟨[], 0⟩ o with
    | error e =>
      rw [counted] at h
      cases h
    | ok outcome =>
      cases outcome with
      | none =>
        rw [counted] at h
        cases h
      | some s' => exact ⟨s', rfl⟩
  have total : ∀ usage : Usage, ∃ outcome, stopping (countObservation c) observations usage = .ok outcome := by
    clear alone
    induction observations with
    | nil => exact fun usage => ⟨some usage, rfl⟩
    | cons o rest ih =>
      intro usage
      obtain ⟨⟨s', first⟩, passes⟩ := List.forall_mem_cons.mp passes
      obtain ⟨outcome, same, -⟩ := countObservation_follows ⟨[], 0⟩ usage o s' first
      unfold stopping
      rw [same]
      cases outcome with
      | none => exact ⟨none, rfl⟩
      | some state => exact ih passes state
  obtain ⟨outcome, same⟩ := total ⟨[], 0⟩
  exact ⟨outcome.isSome, by rw [withinBudget, same]; rfl⟩

end Budget

section Room
variable [UploadWire] {s t : Spool}

def Registered (owner : Owner) : Prop :=
  owner.registration ≠ 0 ∧ owner.generation ≠ 0 ∧ owner.generation ≤ maxI64

def Recordable (piece : Piece) : Prop :=
  Registered piece.1 ∧ 0 ≤ piece.2.first ∧ piece.2.first ≤ piece.2.last ∧ piece.2.last < maxI64 ∧
    piece.2.count ≤ maxI64

theorem record_ok {piece : Piece} (recordable : Recordable piece) (losses : GapStore) (reason : GapWire.Reason) :
    ∃ losses', losses.record piece.1 reason piece.2 = .ok losses' := by
  obtain ⟨⟨registration, generation, small⟩, first, last, bound, count⟩ := recordable
  have proper : ¬ (piece.1.registration = 0 ∨ piece.1.generation = 0 ∨ maxI64 < piece.1.generation ∨
      piece.2.last = maxI64) := by
    rintro (none | none | large | late)
    · exact registration none
    · exact generation none
    · omega
    · omega
  unfold GapStore.record
  rw [if_neg proper]
  have told : ∃ losses', losses.gap reason piece.2 = .ok losses' := by
    unfold GapStore.gap
    split
    · exact ⟨_, rfl⟩
    rw [if_neg (by omega)]
    exact ⟨_, rfl⟩
  obtain ⟨losses', told⟩ := told
  rw [told]
  change ∃ result, (if piece.2.count = 0 then _ else _) = _
  split
  · exact ⟨_, rfl⟩
  · split
    · exact ⟨_, rfl⟩
    · exact ⟨_, rfl⟩

structure Evictable (s : Spool) : Prop where
  samples : ∀ row ∈ s.samples.entries, Recordable row.piece
  batches : ∀ row ∈ s.batches.entries, Recordable row.piece

def Spool.rows (s : Spool) : Nat := s.samples.entries.length + s.batches.entries.length

omit [UploadWire] in
theorem Evictable.sub (evictable : Evictable s) (samples : t.samples.entries.Sublist s.samples.entries)
    (batches : t.batches.entries.Sublist s.batches.entries) : Evictable t :=
  ⟨fun row mem => evictable.samples row (samples.subset mem),
    fun row mem => evictable.batches row (batches.subset mem)⟩

theorem evictSample_ok {row : SampleRow} (evictable : Evictable s) (mem : row ∈ s.samples.entries) :
    ∃ t, s.evictSample row = .ok t ∧ Evictable t ∧ t.rows < s.rows ∧ t.limits = s.limits := by
  obtain ⟨losses, told⟩ := record_ok (evictable.samples row mem) s.losses GapWire.capacity
  have gone : (s.samples.entries.filter fun other => decide (other.id ≠ row.id)).length < s.samples.entries.length := by
    rw [List.length_filter_lt_length_iff_exists]
    exact ⟨row, mem, by simp⟩
  unfold Spool.evictSample
  change s.losses.record row.owner GapWire.capacity row.piece.2 = .ok losses at told
  rw [told]
  exact ⟨_, rfl, evictable.sub List.filter_sublist (.refl _), Nat.add_lt_add_right gone _, rfl⟩

theorem evictBatch_ok {row : BatchRow} (evictable : Evictable s) (mem : row ∈ s.batches.entries) :
    ∃ t, s.evictBatch row = .ok t ∧ Evictable t ∧ t.rows < s.rows ∧ t.limits = s.limits := by
  obtain ⟨losses, told⟩ := record_ok (evictable.batches row mem) s.losses GapWire.capacity
  have gone : (s.batches.entries.filter fun other => decide (other.id ≠ row.id)).length < s.batches.entries.length := by
    rw [List.length_filter_lt_length_iff_exists]
    exact ⟨row, mem, by simp⟩
  unfold Spool.evictBatch
  change s.losses.record row.owner GapWire.capacity row.piece.2 = .ok losses at told
  rw [told]
  exact ⟨_, rfl, evictable.sub (.refl _) List.filter_sublist, Nat.add_lt_add_left gone _, rfl⟩

theorem evictOldest_ok (evictable : Evictable s) (some : s.rows ≠ 0) :
    ∃ t, s.evictOldest = .ok t ∧ Evictable t ∧ t.rows < s.rows ∧ t.limits = s.limits := by
  unfold Spool.evictOldest
  split
  · rename_i sample oldest _
    exact evictSample_ok evictable (oldestSample_mem oldest)
  · rename_i sample batch oldest first
    split
    · exact evictSample_ok evictable (oldestSample_mem oldest)
    · exact evictBatch_ok evictable (oldestBatch_mem first)
  · rename_i batch _ first
    exact evictBatch_ok evictable (oldestBatch_mem first)
  · rename_i noSample noBatch
    exfalso
    apply some
    unfold Spool.oldestSample at noSample
    unfold Spool.oldestBatch at noBatch
    rw [List.head?_eq_none_iff] at noSample noBatch
    have samples := congrArg List.length noSample
    have batches := congrArg List.length noBatch
    rw [List.length_insertionSort] at samples batches
    unfold Spool.rows
    rw [samples, batches]
    rfl

omit [UploadWire] in
theorem fits_blank {extra observations : Nat} (none : s.rows = 0) (bytes : extra ≤ s.limits.bytes)
    (few : observations ≤ s.limits.observations) : s.fits extra observations = true := by
  unfold Spool.rows at none
  have samples : s.samples.entries = [] := List.length_eq_zero_iff.mp (by omega)
  have batches : s.batches.entries = [] := List.length_eq_zero_iff.mp (by omega)
  simp [Spool.fits, Spool.usedObservations, Spool.usedBytes, samples, batches, bytes, few]

theorem makeRoom_ok {extra observations rounds : Nat} (evictable : Evictable s) (enough : s.rows ≤ rounds)
    (bytes : extra ≤ s.limits.bytes) (few : observations ≤ s.limits.observations) :
    ∃ t, s.makeRoom extra observations rounds = .ok t := by
  induction rounds generalizing s with
  | zero =>
    unfold Spool.makeRoom
    rw [if_pos (fits_blank (by omega) bytes few)]
    exact ⟨s, rfl⟩
  | succ rounds ih =>
    unfold Spool.makeRoom
    split
    · exact ⟨s, rfl⟩
    · rename_i full
      obtain ⟨middle, evicted, evictable, fewer, limits⟩ := evictOldest_ok evictable
        fun none => full (fits_blank none bytes few)
      rw [evicted]
      exact ih evictable (by omega) (limits ▸ bytes) (limits ▸ few)

theorem room_ok {extra observations : Nat} (evictable : Evictable s) (bytes : extra ≤ s.limits.bytes)
    (few : observations ≤ s.limits.observations) : ∃ t, s.room extra observations = .ok t := by
  unfold Spool.room
  rw [if_neg (by omega)]
  exact makeRoom_ok evictable (le_refl _) bytes few

end Room

section Progress
variable [UploadWire] {s t : Spool} {issued : Uuid → Prop} {limits : Limits} {c : SignedTelemetryConfiguration}
  {queued : TelemetryObservation → Prop}

def Acceptable (c : SignedTelemetryConfiguration) (id : Uuid) (observations : List TelemetryObservation) : Prop :=
  withinBudget c.configuration observations = .ok true ∧
    (encodeUpload ⟨id, c, observations⟩).length ≤ c.configuration.maxBytes

/-- The configuration accepts every queued observation alone, and no batch that it accepts is larger than
the storage; `issued` are the identities that batches can get. -/
structure Freezable (issued : Uuid → Prop) (limits : Limits) (c : SignedTelemetryConfiguration)
    (queued : TelemetryObservation → Prop) : Prop where
  points : ∀ o, queued o → 1 ≤ c.configuration.maxPoints
  alone : ∀ o, queued o → ∀ id, issued id → Acceptable c id [o] ∧ validateUpload ⟨id, c, [o]⟩ = true
  stored : ∀ observations : List TelemetryObservation, (∀ o ∈ observations, queued o) →
    (observations.map (·.id)).Nodup → ∀ id, issued id → Acceptable c id observations →
      (encodeUpload ⟨id, c, observations⟩).length ≤ limits.bytes

theorem Freezable.mono {fewer : TelemetryObservation → Prop} (f : Freezable issued limits c queued)
    (sub : ∀ o, fewer o → queued o) : Freezable issued limits c fewer :=
  ⟨fun o mem => f.points o (sub o mem), fun o mem => f.alone o (sub o mem),
    fun observations mem => f.stored observations fun o listed => sub o (mem o listed)⟩

def Spool.Queued (s : Spool) (c : SignedTelemetryConfiguration) (o : TelemetryObservation) : Prop :=
  ∃ row ∈ s.samples.entries, row.binding = c.configuration.binding ∧ decodeObservation row.body = some o

theorem gather_ok (f : Freezable issued limits c queued) {id : Uuid} (fresh : issued id)
    {rows : List SampleRow} (known : ∀ row ∈ rows, ∃ o, decodeObservation row.body = some o ∧ queued o)
    {taken : List TelemetryObservation} (earlier : ∀ o ∈ taken, queued o)
    (start : taken = [] ∨ Acceptable c id taken) (expires : Int) :
    ∃ observations expiry, gather c id rows taken expires = .ok (observations, expiry) ∧
      (observations = [] ∨ Acceptable c id observations) ∧ (taken ≠ [] ∨ rows ≠ [] → observations ≠ []) := by
  induction rows generalizing taken expires with
  | nil => exact ⟨taken, expires, rfl, start, fun some => some.elim (fun h => h) fun h => absurd rfl h⟩
  | cons row rest ih =>
    obtain ⟨⟨o, decoded, here⟩, known⟩ := List.forall_mem_cons.mp known
    have all : ∀ o' ∈ taken ++ [o], queued o' := by
      intro o' mem
      rcases List.mem_append.mp mem with mem | mem
      · exact earlier o' mem
      · rw [List.mem_singleton.mp mem]
        exact here
    obtain ⟨within, budget⟩ := @withinBudget_total _ c.configuration (taken ++ [o])
      fun o' mem => (f.alone o' (all o' mem) id fresh).1.1
    unfold gather
    rw [decoded]
    dsimp only
    rw [budget]
    dsimp only
    split
    · rename_i full
      refine ⟨taken, expires, rfl, start, fun _ => ?_⟩
      rintro rfl
      obtain ⟨⟨alone, size⟩, -⟩ := f.alone o here id fresh
      rw [List.nil_append] at budget full
      rw [budget] at alone
      cases alone
      exact full.elim (fun no => no rfl) fun large => by omega
    · rename_i accepted
      rw [not_or, not_not, not_lt] at accepted
      obtain ⟨rfl, size⟩ := accepted
      obtain ⟨observations, expiry, told, result, some⟩ := ih known all (.inr ⟨budget, size⟩) (min expires row.expires)
      exact ⟨observations, expiry, told, result, fun _ => some (.inl (by simp))⟩

def Spool.Timed (s : Spool) : Prop :=
  ∀ row ∈ s.samples.entries, ∀ o, decodeObservation row.body = some o → o.observedAt = row.observed

def TelemetryObservation.before (a b : TelemetryObservation) : Prop :=
  a.observedAt < b.observedAt ∨ (a.observedAt = b.observedAt ∧ a.id ≤ b.id)

theorem decoded_row {front : List SampleRow} {observations : List TelemetryObservation}
    (decoded : List.Forall₂ (fun row o => decodeObservation row.body = some o) front observations)
    {o : TelemetryObservation} (mem : o ∈ observations) : ∃ row ∈ front, decodeObservation row.body = some o := by
  induction decoded with
  | nil => cases mem
  | @cons row o' front rest same _ ih =>
    rcases List.mem_cons.mp mem with rfl | mem
    · exact ⟨row, List.mem_cons_self, same⟩
    · obtain ⟨found, listed, decoded⟩ := ih mem
      exact ⟨found, List.mem_cons_of_mem _ listed, decoded⟩

theorem ordered_observations {front : List SampleRow} {observations : List TelemetryObservation}
    (sound : s.Sound) (timed : s.Timed) (stored : ∀ row ∈ front, row ∈ s.samples.entries)
    (sorted : front.Pairwise fun a b => SampleRow.before a b = true)
    (decoded : List.Forall₂ (fun row o => decodeObservation row.body = some o) front observations) :
    observations.Pairwise TelemetryObservation.before := by
  have place : ∀ row ∈ front, ∀ o, decodeObservation row.body = some o → o.id = row.id ∧ o.observedAt = row.observed := by
    intro row mem o found
    obtain ⟨o', same, id⟩ := sound.samples row (stored row mem)
    rw [found] at same
    cases same
    exact ⟨id, timed row (stored row mem) o found⟩
  induction decoded with
  | nil => exact .nil
  | @cons row o front rest first later ih =>
    obtain ⟨before, sorted⟩ := List.pairwise_cons.mp sorted
    obtain ⟨here, places⟩ := List.forall_mem_cons.mp place
    refine .cons (fun other mem => ?_) (ih (List.forall_mem_cons.mp stored).2 sorted places)
    obtain ⟨otherRow, listed, found⟩ := decoded_row later mem
    obtain ⟨id, time⟩ := here o first
    obtain ⟨otherId, otherTime⟩ := places otherRow listed other found
    have order := before otherRow listed
    rw [SampleRow.before, decide_eq_true_eq] at order
    unfold TelemetryObservation.before
    rw [id, time, otherId, otherTime]
    exact order

def AcceptsLists (issued : Uuid → Prop) : Prop :=
  ∀ (c : SignedTelemetryConfiguration) (observations : List TelemetryObservation) (id : Uuid), issued id →
    observations ≠ [] → observations.Pairwise TelemetryObservation.before →
    (∀ o ∈ observations, validateUpload ⟨id, c, [o]⟩ = true) → validateUpload ⟨id, c, observations⟩ = true

omit [UploadWire] in
theorem has_sublist {id : Uuid} (sub : t.batches.entries.Sublist s.batches.entries)
    (absent : s.batches.has id = false) : t.batches.has id = false := by
  by_contra taken
  rw [Bool.not_eq_false, Rows.has_iff] at taken
  obtain ⟨row, found⟩ := taken
  have here := Rows.get_of_mem (sub.subset (Rows.get_mem found))
  rw [Rows.get_key found] at here
  rw [Rows.has, here] at absent
  cases absent

omit [UploadWire] in
theorem queued_le {binding : String} (sub : t.samples.entries.Sublist s.samples.entries) :
    t.queued binding ≤ s.queued binding :=
  (sub.filter _).length_le

omit [UploadWire] in
theorem queued_retain {members : List Uuid} {row : SampleRow} (stored : row ∈ s.samples.entries)
    (gone : row.id ∈ members) :
    Spool.queued { s with samples := s.samples.retain fun sample => !members.contains sample.id } row.binding <
      s.queued row.binding := by
  show ((s.samples.entries.filter fun sample => !members.contains sample.id).filter
    fun other => decide (other.binding = row.binding)).length < _
  rw [List.filter_comm]
  apply List.length_filter_lt_length_iff_exists.mpr
  exact ⟨row, Rows.mem_select.mpr ⟨stored, by simp⟩, by simp [gone]⟩

/-- Freezing with an accepting configuration takes at least one sample of a queue that is not empty. -/
theorem freeze_progress {id : Uuid} (lists : AcceptsLists issued) (sound : s.Sound) (within : s.Within)
    (timed : s.Timed) (evictable : Evictable s) (f : Freezable issued s.limits c (s.Queued c))
    (registered : Registered c.configuration.owner) (fresh : issued id) (absent : s.batches.has id = false)
    (some : 0 < s.queued c.configuration.binding) :
    ∃ t, s.freeze c id = .ok t ∧ t.queued c.configuration.binding < s.queued c.configuration.binding := by
  let rows := (s.queue c.configuration.binding).take (min c.configuration.maxPoints 4096)
  have listed : ∀ row ∈ rows, row ∈ s.samples.entries ∧ row.binding = c.configuration.binding :=
    fun row mem => mem_queue.mp (List.mem_of_mem_take mem)
  have known : ∀ row ∈ rows, ∃ o, decodeObservation row.body = .some o ∧ s.Queued c o := by
    intro row mem
    obtain ⟨o, decoded, -⟩ := sound.samples row (listed row mem).1
    exact ⟨o, decoded, row, (listed row mem).1, (listed row mem).2, decoded⟩
  have rest : rows ≠ [] := by
    have length : (s.queue c.configuration.binding).length = s.queued c.configuration.binding :=
      List.length_insertionSort ..
    obtain ⟨row, mem⟩ : ∃ row, row ∈ s.queue c.configuration.binding :=
      List.exists_mem_of_length_pos (length ▸ some)
    obtain ⟨o, decoded, -⟩ := sound.samples row (mem_queue.mp mem).1
    have points := f.points o ⟨row, (mem_queue.mp mem).1, (mem_queue.mp mem).2, decoded⟩
    intro none
    have taken := congrArg List.length none
    rw [List.length_take, length, List.length_nil] at taken
    omega
  obtain ⟨observations, expiry, gathered, result, taken⟩ := @gather_ok _ _ _ _ _ f _ fresh _ known [] (fun o mem => (nomatch mem)) (.inl rfl) maxI64
  have filled : observations ≠ [] := taken (.inr rest)
  have accepted : Acceptable c id observations := result.resolve_left filled
  obtain ⟨front, behind, new, split, same, decoded⟩ := gather_prefix gathered
  rw [List.nil_append] at same
  subst same
  have front_listed : ∀ row ∈ front, row ∈ s.samples.entries ∧ row.binding = c.configuration.binding := by
    intro row mem
    apply listed
    rw [split]
    exact List.mem_append_left _ mem
  have queued : ∀ o ∈ observations, s.Queued c o := by
    intro o mem
    obtain ⟨row, taken, found⟩ := decoded_row decoded mem
    exact ⟨row, (front_listed row taken).1, (front_listed row taken).2, found⟩
  have sorted : rows.Pairwise fun a b => SampleRow.before a b = true :=
    queue_sorted.sublist (List.take_sublist _ _)
  have distinct : rows.Nodup := queue_nodup.sublist (List.take_sublist _ _)
  rw [split] at sorted distinct
  have ordered := ordered_observations sound timed (fun row mem => (front_listed row mem).1)
    (List.pairwise_append.mp sorted).1 decoded
  have valid := lists c observations id fresh filled ordered fun o mem => (f.alone o (queued o mem) id fresh).2
  have same := members_ids sound (fun row mem => (front_listed row mem).1) decoded
  have ids : (observations.map (·.id)).Nodup := by
    rw [same]
    exact distinct.of_append_left.map_on fun a mem b other equal =>
      List.inj_on_of_nodup_map s.samples.distinct (front_listed a mem).1 (front_listed b other).1 equal
  have size := f.stored observations queued ids id fresh accepted
  have few : observations.length ≤ s.limits.observations := by
    have length : observations.length = front.length := by
      simpa using congrArg List.length same
    have sub : front.length ≤ s.samples.entries.length :=
      (List.subperm_of_subset distinct.of_append_left fun row mem => (front_listed row mem).1).length_le
    have used := within.1
    unfold Spool.usedObservations at used
    omega
  obtain ⟨middle, made⟩ := @room_ok _ { s with
      samples := s.samples.retain fun sample => !(observations.map (·.id)).contains sample.id }
    (BatchRow.of ⟨id, c, observations⟩ expiry).body.length _
    (evictable.sub List.filter_sublist (.refl _)) size few
  obtain ⟨⟨gone, sheds⟩, -⟩ := sheds_room (sound.retain _) made
  have free := has_sublist sheds.batches absent
  refine ⟨{ middle with batches := middle.batches.set (.of ⟨id, c, observations⟩ expiry) }, ?_, ?_⟩
  · unfold Spool.freeze
    change (gather c id rows [] maxI64 >>= _) = _
    rw [gathered]
    change (if observations.isEmpty = true then _ else _) = _
    rw [if_neg (by simpa using filled)]
    rw [if_neg (not_not.mpr valid)]
    change (Spool.room _ _ _ >>= _) = _
    rw [made]
    change (if maxI64 < c.configuration.owner.generation then _ else _) = _
    rw [if_neg (Nat.not_lt.mpr registered.2.2)]
    rw [if_neg (by simp [free])]
    rfl
  · obtain ⟨o, mem⟩ := List.exists_mem_of_ne_nil _ filled
    obtain ⟨row, taken, found⟩ := decoded_row decoded mem
    have member : row.id ∈ observations.map (·.id) := by
      rw [same]
      exact List.mem_map_of_mem taken
    have less := queued_retain (front_listed row taken).1 member
    rw [(front_listed row taken).2] at less
    exact lt_of_le_of_lt (queued_le sheds.samples) less

end Progress

section Readiness
variable [UploadWire] {s t : Spool} {issued : Uuid → Prop} {gone : List Lost}

/-- Everything stored can be frozen under the stored configurations or counted as lost. -/
structure Ready (issued : Uuid → Prop) (s : Spool) : Prop where
  sound : s.Sound
  within : s.Within
  timed : s.Timed
  evictable : Evictable s
  bounded : s.limits.observations ≤ 4096
  configurations : ∀ row ∈ s.configurations.entries, ∃ signed, decodeSigned row.body = some signed ∧
    Registered signed.configuration.owner ∧ Freezable issued s.limits signed (s.Queued signed)
  few : s.configurations.entries.length ≤ 256

theorem Ready.start {limits : Limits} (bounded : limits.observations ≤ 4096) : Ready issued (.empty limits) where
  sound := ⟨fun row mem => (nomatch mem), fun row mem => (nomatch mem)⟩
  within := ⟨Nat.zero_le _, Nat.zero_le _⟩
  timed row mem := by cases mem
  evictable := ⟨fun row mem => (nomatch mem), fun row mem => (nomatch mem)⟩
  bounded := bounded
  configurations row mem := by cases mem
  few := Nat.zero_le _

theorem queued_sub {c : SignedTelemetryConfiguration} (sub : t.samples.entries.Sublist s.samples.entries) :
    ∀ o, t.Queued c o → s.Queued c o :=
  fun _ ⟨row, mem, rest⟩ => ⟨row, sub.subset mem, rest⟩

theorem Ready.shed (ready : Ready issued s) (sheds : Sheds s t gone) : Ready issued t where
  sound := sheds.sound ready.sound
  within := sheds.within ready.within
  timed row mem := ready.timed row (sheds.samples.subset mem)
  evictable := ready.evictable.sub sheds.samples sheds.batches
  bounded := sheds.limits ▸ ready.bounded
  configurations row mem := by
    rw [sheds.configurations] at mem
    obtain ⟨signed, decoded, registered, f⟩ := ready.configurations row mem
    rw [sheds.limits]
    exact ⟨signed, decoded, registered, f.mono (queued_sub sheds.samples)⟩
  few := by
    rw [sheds.configurations]
    exact ready.few

/-- A stored observation leaves the spool ready when every stored configuration of its binding accepts it
with what is queued. -/
theorem Ready.store {config : Configuration} {o : TelemetryObservation} {middle : Spool}
    (ready : Ready issued s) (done : Storing s config o middle gone t)
    (registered : Registered config.payload.owner) (early : 0 ≤ o.observedAt) (late : o.observedAt < maxI64)
    (accepted : ∀ row ∈ s.configurations.entries, ∀ signed, decodeSigned row.body = some signed →
      signed.configuration.binding = config.payload.binding →
      Freezable issued s.limits signed fun other => s.Queued signed other ∨ other = o) :
    Ready issued t := by
  have kept := ready.shed done.sheds
  have configurations : t.configurations = s.configurations := by
    rw [done.result]
    exact done.sheds.configurations
  have limits : t.limits = s.limits := by
    rw [done.result]
    exact done.sheds.limits
  constructor
  · exact done.sound ready.sound
  · exact done.within
  · intro row mem found decoded
    rw [done.entries] at mem
    rcases List.mem_append.mp mem with mem | mem
    · exact kept.timed row mem found decoded
    · rw [List.mem_singleton.mp mem] at decoded ⊢
      have same := done.decoded
      change decodeObservation (encodeObservation o) = some found at decoded
      rw [same] at decoded
      cases decoded
      rfl
  · constructor
    · intro row mem
      rw [done.entries] at mem
      rcases List.mem_append.mp mem with mem | mem
      · exact kept.evictable.samples row mem
      · rw [List.mem_singleton.mp mem]
        have one : 1 ≤ maxI64 := by decide
        exact ⟨registered, early, le_refl _, late, one⟩
    · rw [done.batches]
      exact kept.evictable.batches
  · rw [limits]
    exact ready.bounded
  · intro row mem
    rw [configurations] at mem
    obtain ⟨signed, decoded, proper, f⟩ := ready.configurations row mem
    refine ⟨signed, decoded, proper, ?_⟩
    rw [limits]
    by_cases same : signed.configuration.binding = config.payload.binding
    · refine (accepted row mem signed decoded same).mono fun other ⟨sample, stored, bound, found⟩ => ?_
      rw [done.entries] at stored
      rcases List.mem_append.mp stored with stored | stored
      · exact .inl ⟨sample, done.sheds.samples.subset stored, bound, found⟩
      · right
        rw [List.mem_singleton.mp stored] at found
        change decodeObservation (encodeObservation o) = some other at found
        rw [done.decoded] at found
        exact (Option.some.inj found).symm
    · refine f.mono fun other ⟨sample, stored, bound, found⟩ => ?_
      rw [done.entries] at stored
      rcases List.mem_append.mp stored with stored | stored
      · exact ⟨sample, done.sheds.samples.subset stored, bound, found⟩
      · rw [List.mem_singleton.mp stored] at bound
        exact absurd bound.symm same
  · rw [configurations]
    exact ready.few

structure Keeps (minted : Uuid → Prop) (s t : Spool) : Prop where
  samples : t.samples.entries.Sublist s.samples.entries
  batches : ∀ row ∈ t.batches.entries, row ∈ s.batches.entries ∨ minted row.id
  limits : t.limits = s.limits
  configurations : t.configurations = s.configurations

omit [UploadWire] in
theorem first_le_last {observations : List TelemetryObservation}
    (ordered : observations.Pairwise TelemetryObservation.before) :
    (observations.head?.map (·.observedAt)).getD 0 ≤ (observations.getLast?.map (·.observedAt)).getD 0 := by
  match observations with
  | [] => exact le_refl _
  | [o] => exact le_refl _
  | o :: next :: rest =>
    obtain ⟨first, -⟩ := List.pairwise_cons.mp ordered
    have last := first ((next :: rest).getLast (by simp)) (List.getLast_mem _)
    rw [List.getLast?_cons_cons, List.getLast?_eq_some_getLast (by simp)]
    rcases last with early | ⟨same, -⟩
    · exact le_of_lt early
    · exact le_of_eq same

theorem Ready.freeze {c : SignedTelemetryConfiguration} {id : Uuid} (ready : Ready issued s)
    (registered : Registered c.configuration.owner) (told : s.freeze c id = .ok t) :
    Ready issued t ∧ Keeps (id = ·) s t := by
  rcases freeze_cases ready.sound told with rfl | ⟨front, observations, expires, middle, gone, done⟩
  · exact ⟨ready, .refl _, fun row mem => .inl mem, rfl, rfl⟩
  have samples : t.samples.entries.Sublist s.samples.entries :=
    done.samples ▸ done.sheds.samples.trans List.filter_sublist
  have configurations : t.configurations = s.configurations := by
    rw [done.result]
    exact done.sheds.configurations
  have limits : t.limits = s.limits := by
    rw [done.result]
    exact done.sheds.limits
  have stored : ∀ row ∈ front, row ∈ s.samples.entries := fun row mem => (mem_queue.mp (done.listed row mem)).1
  have ordered := ordered_observations ready.sound ready.timed stored done.sorted done.decoded
  have times : ∀ o ∈ observations, 0 ≤ o.observedAt ∧ o.observedAt < maxI64 := by
    intro o mem
    obtain ⟨row, taken, found⟩ := decoded_row done.decoded mem
    have recordable := ready.evictable.samples row (stored row taken)
    rw [ready.timed row (stored row taken) o found]
    exact ⟨recordable.2.1, recordable.2.2.2.1⟩
  have recordable : Recordable (BatchRow.of ⟨id, c, observations⟩ expires).piece := by
    refine ⟨registered, ?_, first_le_last ordered, ?_, ?_⟩
    · show 0 ≤ (observations.head?.map (·.observedAt)).getD 0
      cases first : observations.head? with
      | none => exact le_refl _
      | some o => exact (times o (List.mem_of_mem_head? first)).1
    · show (observations.getLast?.map (·.observedAt)).getD 0 < maxI64
      cases last : observations.getLast? with
      | none => decide
      | some o => exact (times o (List.mem_of_mem_getLast? last)).2
    · have fits := done.fits.1
      have bounded := ready.bounded
      have same : middle.limits = s.limits := done.sheds.limits
      rw [same] at fits
      have large : 4096 ≤ maxI64 := by decide
      show observations.length ≤ maxI64
      omega
  refine ⟨?_, samples, fun row mem => (done.stored row mem).imp_right Eq.symm, limits, configurations⟩
  constructor
  · exact done.sound ready.sound
  · exact done.within
  · exact fun row mem => ready.timed row (samples.subset mem)
  · refine ⟨fun row mem => ready.evictable.samples row (samples.subset mem), fun row mem => ?_⟩
    rw [done.entries] at mem
    rcases List.mem_append.mp mem with mem | mem
    · exact ready.evictable.batches row (done.sheds.batches.subset mem)
    · rw [List.mem_singleton.mp mem]
      exact recordable
  · rw [limits]
    exact ready.bounded
  · intro row mem
    rw [configurations] at mem
    obtain ⟨signed, decoded, proper, f⟩ := ready.configurations row mem
    rw [limits]
    exact ⟨signed, decoded, proper, f.mono (queued_sub samples)⟩
  · rw [configurations]
    exact ready.few

omit [UploadWire] in
theorem Keeps.refl (minted : Uuid → Prop) (s : Spool) : Keeps minted s s :=
  ⟨.refl _, fun _ mem => .inl mem, rfl, rfl⟩

omit [UploadWire] in
theorem Keeps.trans {u : Spool} {minted other : Uuid → Prop} (first : Keeps minted s t) (second : Keeps other t u)
    (sub : ∀ id, minted id → other id) : Keeps other s u where
  samples := second.samples.trans first.samples
  batches row mem := by
    rcases second.batches row mem with mem | new
    · exact (first.batches row mem).imp_right (sub row.id)
    · exact .inr new
  limits := second.limits.trans first.limits
  configurations := second.configurations.trans first.configurations

theorem Ready.drain {c : SignedTelemetryConfiguration} {ids : Nat → Uuid} (rounds : Nat) (used : Nat)
    (ready : Ready issued s) (registered : Registered c.configuration.owner) :
    Ready issued (s.drain c ids rounds used).1 ∧
      Keeps (fun id => ∃ n < used + rounds, ids n = id) s (s.drain c ids rounds used).1 := by
  induction rounds generalizing s used with
  | zero =>
    unfold Spool.drain
    dsimp only
    split <;> exact ⟨ready, .refl _ s⟩
  | succ rounds ih =>
    unfold Spool.drain
    dsimp only
    split
    · exact ⟨ready, .refl _ s⟩
    split
    · exact ⟨ready, .refl _ s⟩
    rename_i t frozen
    obtain ⟨later, keeps⟩ := ready.freeze registered frozen
    have first : Keeps (fun id => ∃ n < used + (rounds + 1), ids n = id) s t :=
      keeps.trans (.refl _ t) fun id same => ⟨used, by omega, same⟩
    split
    · exact ⟨later, first⟩
    · obtain ⟨done, rest⟩ := ih (used + 1) later
      refine ⟨done, first.trans ?_ fun id minted => minted⟩
      rwa [Nat.add_assoc, Nat.add_comm 1] at rest

structure Fresh (issued : Uuid → Prop) (s : Spool) (ids : Nat → Uuid) (used count : Nat) : Prop where
  distinct : ∀ a < used + count, ∀ b < used + count, ids a = ids b → a = b
  issued : ∀ n < used + count, issued (ids n)
  unused : ∀ n < used + count, used ≤ n → s.batches.has (ids n) = false

omit [UploadWire] in
theorem has_mem {row : BatchRow} (mem : row ∈ s.batches.entries) : s.batches.has row.id = true := by
  rw [Rows.has, Rows.get_of_mem mem]
  rfl

omit [UploadWire] in
theorem unused_keeps {minted : Uuid → Prop} {id : Uuid} (keeps : Keeps minted s t)
    (unused : s.batches.has id = false) (other : ¬ minted id) : t.batches.has id = false := by
  by_contra taken
  rw [Bool.not_eq_false, Rows.has_iff] at taken
  obtain ⟨row, found⟩ := taken
  have key := Rows.get_key found
  rcases keeps.batches row (Rows.get_mem found) with mem | new
  · have here := has_mem mem
    rw [key, unused] at here
    cases here
  · exact other (key ▸ new)

theorem drain_ok {c : SignedTelemetryConfiguration} {ids : Nat → Uuid} {rounds used : Nat}
    (lists : AcceptsLists issued) (ready : Ready issued s) (registered : Registered c.configuration.owner)
    (f : Freezable issued s.limits c (s.Queued c)) (fresh : Fresh issued s ids used rounds)
    (enough : s.queued c.configuration.binding ≤ rounds) :
    ∃ t, s.drain c ids rounds used = (t, .ok ()) ∧ t.queued c.configuration.binding = 0 := by
  induction rounds generalizing s used with
  | zero =>
    unfold Spool.drain
    have none : s.queued c.configuration.binding = 0 := by omega
    dsimp only
    rw [if_pos none]
    exact ⟨s, rfl, none⟩
  | succ rounds ih =>
    unfold Spool.drain
    dsimp only
    split
    · rename_i none
      exact ⟨s, rfl, none⟩
    · rename_i some
      obtain ⟨t, frozen, less⟩ := freeze_progress lists ready.sound ready.within ready.timed ready.evictable f
        registered (fresh.issued used (by omega)) (fresh.unused used (by omega) (le_refl _)) (Nat.pos_of_ne_zero some)
      obtain ⟨later, keeps⟩ := ready.freeze registered frozen
      rw [frozen]
      dsimp only
      rw [if_neg (by omega)]
      have unused : Fresh issued t ids (used + 1) rounds := by
        refine ⟨fun a low b high => fresh.distinct a (by omega) b (by omega),
          fun n low => fresh.issued n (by omega), fun n low more => ?_⟩
        refine unused_keeps keeps (fresh.unused n (by omega) (by omega)) fun same => ?_
        have equal := fresh.distinct used (by omega) n (by omega) same
        omega
      exact ih later (keeps.limits ▸ f.mono (queued_sub keeps.samples)) unused (by omega)

structure FreshTable (issued : Uuid → Prop) (s : Spool) (ids : Nat → Nat → Uuid) (turn turns count : Nat) : Prop where
  distinct : ∀ a < turns, ∀ b < count, ∀ c < turns, ∀ d < count, ids a b = ids c d → a = c ∧ b = d
  issued : ∀ a < turns, ∀ b < count, issued (ids a b)
  unused : ∀ a < turns, turn ≤ a → ∀ b < count, s.batches.has (ids a b) = false

theorem drainEach_ok {ids : Nat → Nat → Uuid} {turns count : Nat} (lists : AcceptsLists issued)
    (list : List SignedTelemetryConfiguration) (turn : Nat) (ready : Ready issued s)
    (fresh : FreshTable issued s ids turn turns count) (within : turn + list.length ≤ turns)
    (enough : s.samples.entries.length ≤ count)
    (accepting : ∀ c ∈ list, Registered c.configuration.owner ∧ Freezable issued s.limits c (s.Queued c)) :
    ∃ t, s.drainEach ids list turn = (t, .ok ()) := by
  induction list generalizing s turn with
  | nil => exact ⟨s, rfl⟩
  | cons c rest ih =>
    obtain ⟨⟨registered, f⟩, accepting⟩ := List.forall_mem_cons.mp accepting
    rw [List.length_cons] at within
    have few : s.queued c.configuration.binding ≤ count := (List.length_filter_le _ _).trans enough
    have own : Fresh issued s (ids turn) 0 (s.queued c.configuration.binding) :=
      ⟨fun a low b high same => (fresh.distinct turn (by omega) a (by omega) turn (by omega) b (by omega) same).2,
        fun n low => fresh.issued turn (by omega) n (by omega),
        fun n low _ => fresh.unused turn (by omega) (le_refl _) n (by omega)⟩
    obtain ⟨t, drained, -⟩ := drain_ok lists ready registered f own (le_refl (s.queued c.configuration.binding))
    obtain ⟨later, keeps⟩ := @Ready.drain _ _ _ c (ids turn) (s.queued c.configuration.binding) 0 ready registered
    rw [drained] at later keeps
    unfold Spool.drainEach Spool.freezeAll
    rw [drained]
    refine ih (turn + 1) later ⟨fresh.distinct, fresh.issued, fun a low more b small => ?_⟩ (by omega)
      (keeps.samples.length_le.trans enough) fun other mem => ?_
    · refine unused_keeps keeps (fresh.unused a low (by omega) b small) ?_
      rintro ⟨n, low', same⟩
      have equal := (fresh.distinct turn (by omega) n (by omega) a low b small same).1
      omega
    · obtain ⟨proper, f⟩ := accepting other mem
      exact ⟨proper, keeps.limits ▸ f.mono (queued_sub keeps.samples)⟩

theorem signedConfigurations_ok (ready : Ready issued s) : ∃ list, s.signedConfigurations = .ok list ∧
    list.length = s.configurations.entries.length ∧
    ∀ c ∈ list, ∃ row ∈ s.configurations.entries, decodeSigned row.body = some c := by
  unfold Spool.signedConfigurations
  rw [if_neg (Nat.not_lt.mpr ready.few)]
  have decodes : ∀ read : ConfigurationRow → Except Error SignedTelemetryConfiguration,
      (∀ row signed, decodeSigned row.body = some signed → read row = .ok signed) →
      ∀ rows : List ConfigurationRow, (∀ row ∈ rows, row ∈ s.configurations.entries) →
      ∃ list, rows.mapM read = .ok list ∧ list.length = rows.length ∧
        ∀ c ∈ list, ∃ row ∈ s.configurations.entries, decodeSigned row.body = some c := by
    intro read reads rows
    induction rows with
    | nil => exact fun _ => ⟨[], rfl, rfl, fun c mem => absurd mem List.not_mem_nil⟩
    | cons row rest ih =>
      intro stored
      obtain ⟨here, stored⟩ := List.forall_mem_cons.mp stored
      obtain ⟨list, told, length, known⟩ := ih stored
      obtain ⟨signed, decoded, -⟩ := ready.configurations row here
      refine ⟨signed :: list, ?_, congrArg Nat.succ length, List.forall_mem_cons.mpr ⟨⟨row, here, decoded⟩, known⟩⟩
      rw [List.mapM_cons, told, reads row signed decoded]
      rfl
  have sorted := List.perm_insertionSort (fun a b : ConfigurationRow => a.policy ≤ b.policy) s.configurations.entries
  rw [← sorted.length_eq]
  exact decodes _ (fun row signed decoded => by rw [decoded]) _ fun row mem => sorted.mem_iff.mp mem

theorem Ready.keep {config : Configuration} (ready : Ready issued s) (registered : Registered config.payload.owner)
    (f : Freezable issued s.limits config.signed (s.Queued config.signed))
    (told : s.keepConfiguration config = .ok t) : Ready issued t := by
  unfold Spool.keepConfiguration at told
  dsimp only at told
  split at told
  · cases told
  rename_i few
  split at told
  · cases told
  cases told
  refine ⟨⟨ready.sound.samples, ready.sound.batches⟩, ready.within, ready.timed,
    ⟨ready.evictable.samples, ready.evictable.batches⟩, ready.bounded, fun row mem => ?_, ?_⟩
  · rcases Rows.mem_set.mp mem with rfl | ⟨mem, _⟩
    · exact ⟨config.signed, decodeSigned_encode _ config.authentic, registered, f⟩
    · exact ready.configurations row mem
  · -- The stored rows are the new one and those of other policies.
    have sub : (s.configurations.set ⟨config.payload.policy, encodeSigned config.signed⟩).entries ⊆
        ⟨config.payload.policy, encodeSigned config.signed⟩ ::
          s.configurations.select fun row => decide (row.policy ≠ config.payload.policy) := by
      intro row mem
      rcases Rows.mem_set.mp mem with rfl | ⟨mem, other⟩
      · exact List.mem_cons_self
      · exact List.mem_cons_of_mem _ (Rows.mem_select.mpr ⟨mem, by simpa using other⟩)
    have distinct := List.Nodup.of_map _
      (s.configurations.set ⟨config.payload.policy, encodeSigned config.signed⟩).distinct
    have length := (List.subperm_of_subset distinct sub).length_le
    rw [List.length_cons] at length
    show (s.configurations.set _).entries.length ≤ 256
    omega

theorem Ready.install {config : Configuration} {ids : Nat → Uuid} (ready : Ready issued s)
    (registered : Registered config.payload.owner)
    (f : Freezable issued s.limits config.signed (s.Queued config.signed)) :
    Ready issued (s.install config ids).1 := by
  have keeps : ∀ (minted : Uuid → Prop) (middle : Spool), Ready issued middle → Keeps minted s middle →
      ∀ result : Spool × Except Error Unit, (∀ e, middle.keepConfiguration config = .error e → result.1 = middle) →
        (∀ t, middle.keepConfiguration config = .ok t → result.1 = t) → Ready issued result.1 := by
    intro minted middle now kept result refused stored
    cases told : middle.keepConfiguration config with
    | error e =>
      rw [refused e told]
      exact now
    | ok t =>
      rw [stored t told]
      exact now.keep registered (kept.limits ▸ f.mono (queued_sub kept.samples)) told
  unfold Spool.install
  dsimp only
  split
  · exact keeps (fun _ => False) s ready (.refl _ s) _ (fun e told => by rw [told]) fun t told => by rw [told]
  rename_i row found
  split
  · exact ready
  rename_i old decoded
  split
  · exact ready
  split
  · obtain ⟨signed, same, proper, -⟩ := ready.configurations row (Rows.get_mem found)
    rw [decoded] at same
    cases same
    obtain ⟨now, kept⟩ := @Ready.drain _ _ _ old ids (s.queued old.configuration.binding) 0 ready proper
    change Ready issued (s.freezeAll old ids).1 at now
    change Keeps _ s (s.freezeAll old ids).1 at kept
    cases told : s.freezeAll old ids with
    | mk t result =>
      rw [told] at now kept
      cases result with
      | error e => exact now
      | ok done =>
        cases done
        dsimp only
        exact keeps _ t now kept _ (fun e told => by rw [told]) fun t told => by rw [told]
  · exact keeps (fun _ => False) s ready (.refl _ s) _ (fun e told => by rw [told]) fun t told => by rw [told]

theorem Ready.retain {directory : List Assignment} (ready : Ready issued s)
    (told : s.retainConfigurations directory = .ok t) : Ready issued t := by
  unfold Spool.retainConfigurations at told
  split at told
  · cases told
  cases told
  exact ⟨⟨ready.sound.samples, ready.sound.batches⟩, ready.within, ready.timed,
    ⟨ready.evictable.samples, ready.evictable.batches⟩, ready.bounded,
    fun row mem => ready.configurations row (List.mem_filter.mp mem).1,
    (List.length_filter_le _ _).trans ready.few⟩

theorem Ready.append {config : Configuration} {at' : Int}
    {normalized : Except Error (List (String × TelemetryReading))} {id batchId : Uuid} (ready : Ready issued s)
    (registered : Registered config.payload.owner) (late : at' < maxI64)
    (accepted : ∀ values, normalized = .ok values → ∀ row ∈ s.configurations.entries, ∀ signed,
      decodeSigned row.body = some signed → signed.configuration.binding = config.payload.binding →
      Freezable issued s.limits signed fun o => s.Queued signed o ∨ o = ⟨id, s.next, at', values⟩) :
    Ready issued (s.append config at' normalized id batchId).1 := by
  unfold Spool.append
  split
  · exact ready
  rename_i timely
  cases pruned : s.prune (at'.tdiv 1000000) config.payload.owner with
  | error e => exact ready
  | ok middle =>
    obtain ⟨gone, sheds⟩ := sheds_prune ready.sound pruned
    have now := ready.shed sheds
    dsimp only
    cases stored : middle.store config at' normalized id batchId with
    | error e => exact now
    | ok t =>
      obtain ⟨values, inner, more, read, done⟩ := store_cases now.sound stored
      refine now.store done registered (by show 0 ≤ at'; omega) late fun row mem signed decoded same => ?_
      rw [sheds.configurations] at mem
      rw [sheds.limits, sheds.next]
      exact (accepted values read row mem signed decoded same).mono fun o queued =>
        queued.imp_left (queued_sub sheds.samples o)

end Readiness

section Upkeep
variable [UploadWire]

inductive Upkeep where
  | install (c : Configuration) (ids : Nat → Uuid)
  | append (c : Configuration) (at' : Int) (normalized : Except Error (List (String × TelemetryReading)))
      (id batchId : Uuid)
  | freeze (c : SignedTelemetryConfiguration) (batchId : Uuid)
  | retainConfigurations (directory : List Assignment)

def Spool.upkeep (s : Spool) : Upkeep → Spool
  | .install c ids => (s.install c ids).1
  | .append c at' normalized id batchId => (s.append c at' normalized id batchId).1
  | .freeze c batchId => (s.commit (s.freeze c batchId)).1
  | .retainConfigurations directory => (s.commit (s.retainConfigurations directory)).1

structure Turn where
  before : Spool
  call : Upkeep

def Advances (s : Spool) (a : Turn) (t : Spool) : Prop := a.before = s ∧ s.upkeep a.call = t

/-- An installed configuration accepts what is queued under its binding, and a new sample is accepted by
the stored configurations of its binding; losses of both can be recorded. -/
def Turn.Accepted (issued : Uuid → Prop) (a : Turn) : Prop :=
  match a.call with
  | .install c _ => Registered c.payload.owner ∧
      Freezable issued a.before.limits c.signed (a.before.Queued c.signed)
  | .append c at' normalized id _ => Registered c.payload.owner ∧ at' < maxI64 ∧
      ∀ values, normalized = .ok values → ∀ row ∈ a.before.configurations.entries, ∀ signed,
        decodeSigned row.body = some signed → signed.configuration.binding = c.payload.binding →
        Freezable issued a.before.limits signed fun o =>
          a.before.Queued signed o ∨ o = ⟨id, a.before.next, at', values⟩
  | .freeze c _ => Registered c.configuration.owner
  | .retainConfigurations _ => True

variable {issued : Uuid → Prop} {s t : Spool} {a : Turn}

theorem Ready.step (ready : Ready issued s) (step : Advances s a t) (accepted : a.Accepted issued) :
    Ready issued t := by
  obtain ⟨before, call⟩ := a
  obtain ⟨rfl, rfl⟩ := step
  cases call with
  | install c ids => exact ready.install accepted.1 accepted.2
  | append c at' normalized id batchId => exact ready.append accepted.1 accepted.2.1 accepted.2.2
  | freeze c batchId =>
    show Ready issued (before.commit (before.freeze c batchId)).1
    cases told : before.freeze c batchId with
    | error e => exact ready
    | ok t => exact (ready.freeze accepted told).1
  | retainConfigurations directory =>
    show Ready issued (before.commit (before.retainConfigurations directory)).1
    cases told : before.retainConfigurations directory with
    | error e => exact ready
    | ok t => exact ready.retain told

/-- In every run whose installed configurations accept the queued samples and whose samples are accepted by
the stored configurations, freezing with a stored configuration makes progress, draining it empties its
queue, and the spool reopens. -/
theorem spool_reopens {limits : Limits} (lists : AcceptsLists issued) (bounded : limits.observations ≤ 4096)
    {turns : List Turn} (run : Runs Advances (.empty limits) turns s) (accepted : ∀ a ∈ turns, a.Accepted issued) :
    (∀ row ∈ s.configurations.entries, ∃ c, decodeSigned row.body = some c ∧
      ∀ ids, Fresh issued s ids 0 (s.queued c.configuration.binding) →
      (0 < s.queued c.configuration.binding → ∃ t, s.freeze c (ids 0) = .ok t ∧
        t.queued c.configuration.binding < s.queued c.configuration.binding) ∧
      ∃ t, s.freezeAll c ids = (t, .ok ()) ∧ t.queued c.configuration.binding = 0) ∧
    ∀ ids, FreshTable issued s ids 0 s.configurations.entries.length s.samples.entries.length →
      ∃ t, s.reopen ids = (t, .ok ()) := by
  have ready : Ready issued s := by
    refine run.history (fun done now => (∀ a ∈ done, a.Accepted issued) → Ready issued now)
      (fun _ => .start bounded) (fun done middle a next ih step accepted => ?_) accepted
    obtain ⟨before, last⟩ := List.forall_mem_append.mp accepted
    exact (ih before).step step (last a (List.mem_singleton.mpr rfl))
  constructor
  · intro row mem
    obtain ⟨c, decoded, registered, f⟩ := ready.configurations row mem
    refine ⟨c, decoded, fun ids fresh => ⟨fun some => ?_, ?_⟩⟩
    · exact freeze_progress lists ready.sound ready.within ready.timed ready.evictable f registered
        (fresh.issued 0 (by omega)) (fresh.unused 0 (by omega) (le_refl 0)) some
    · exact drain_ok lists ready registered f fresh (le_refl (s.queued c.configuration.binding))
  · intro ids fresh
    obtain ⟨list, told, length, stored⟩ := signedConfigurations_ok ready
    unfold Spool.reopen
    rw [told]
    refine drainEach_ok lists list 0 ready fresh (by omega) (le_refl _) fun c mem => ?_
    obtain ⟨row, here, decoded⟩ := stored c mem
    obtain ⟨signed, same, registered, f⟩ := ready.configurations row here
    rw [decoded] at same
    cases same
    exact ⟨registered, f⟩

end Upkeep

section Sample
attribute [local instance] sampleUploadWire

def sampleIds (n : Nat) : Uuid := 10 + n

def sampleInstall : Turn := ⟨.empty sampleLimits, .install sampleVerified sampleIds⟩

def sampleQueue : Turn := ⟨sampleInstall.before.upkeep sampleInstall.call, .append sampleVerified 5 (.ok []) 2 3⟩

def sampleRenewed : Configuration := ⟨sampleConfiguration 1 4, by decide⟩

def sampleRenew : Turn := ⟨sampleQueue.before.upkeep sampleQueue.call, .install sampleRenewed sampleIds⟩

def sampleStuck : Spool := sampleRenew.before.upkeep sampleRenew.call

/-- A renewed configuration is accepted, and then the spool neither freezes the queued sample nor reopens. -/
theorem renewed_configuration_blocks :
    Runs Advances (.empty sampleLimits) [sampleInstall, sampleQueue, sampleRenew] sampleStuck ∧
      (sampleRenew.before.install sampleRenewed sampleIds).2.isOk = true ∧
      sampleStuck.queued "binding" = 1 ∧
      (sampleStuck.freezeAll (sampleConfiguration 1 4) sampleIds).2.toOption = none ∧
      (sampleStuck.reopen fun turn n => 10 + 16 * turn + n).2.toOption = none := by
  refine ⟨?_, by decide +kernel, by decide +kernel, by decide +kernel, by decide +kernel⟩
  exact .next (.next (.next .refl ⟨rfl, rfl⟩) ⟨rfl, rfl⟩) ⟨rfl, rfl⟩

def SampleIssued (id : Uuid) : Prop := id < 256

theorem sample_lists : AcceptsLists SampleIssued := by
  intro c observations id known some ordered alone
  obtain ⟨o, mem⟩ := List.exists_mem_of_ne_nil _ some
  have first := alone o mem
  change (decide _ && _) = true at first
  rw [Bool.and_eq_true] at first
  show (decide _ && _) = true
  rw [Bool.and_eq_true]
  refine ⟨first.1, List.all_eq_true.mpr fun other listed => ?_⟩
  have here := alone other listed
  change (decide _ && [other].all sampleMember) = true at here
  rw [Bool.and_eq_true] at here
  simpa using here.2

theorem spool_reopens_sample : ∃ t, (sampleQueue.before.upkeep sampleQueue.call).reopen
    (fun turn n => 10 + turn + n) = (t, .ok ()) := by
  have run : Runs Advances (.empty sampleLimits) [sampleInstall, sampleQueue]
      (sampleQueue.before.upkeep sampleQueue.call) := .next (.next .refl ⟨rfl, rfl⟩) ⟨rfl, rfl⟩
  have registered : Registered ⟨1, 1⟩ := ⟨by decide, by decide, by decide⟩
  have room : (sampleConfiguration 0 20).configuration.maxBytes ≤ sampleLimits.bytes := by decide
  have blank : ∀ turn ∈ [sampleInstall, sampleQueue], turn.before.samples.entries = [] := by decide +kernel
  have known : ∀ row ∈ sampleQueue.before.configurations.entries,
      UploadWire.decodeSigned row.body = some (sampleConfiguration 0 20) := by decide +kernel
  have accepted : ∀ a ∈ [sampleInstall, sampleQueue], a.Accepted SampleIssued := by
    intro a mem
    have none : ∀ c o, ¬ a.before.Queued c o := by
      rintro c o ⟨row, stored, -⟩
      rw [blank a mem] at stored
      cases stored
    simp only [List.mem_cons, List.not_mem_nil, or_false] at mem
    rcases mem with rfl | rfl
    · exact ⟨registered, fun o queued => absurd queued (none _ o), fun o queued => absurd queued (none _ o),
        fun _ _ _ _ _ accepted => accepted.2.trans room⟩
    · refine ⟨registered, by decide, fun values read row mem signed decoded _ => ?_⟩
      cases read
      rw [known row mem] at decoded
      cases decoded
      refine ⟨fun o queued => by decide, fun o queued id issued => ?_, fun _ _ _ _ _ accepted => accepted.2.trans room⟩
      obtain rfl := queued.resolve_left (none _ o)
      have size : 5 ≤ 20 := by decide
      have first : sampleQueue.before.next = 0 := by decide +kernel
      refine ⟨⟨rfl, size⟩, ?_⟩
      show (decide _ && _) = true
      rw [Bool.and_eq_true, decide_eq_true_eq]
      refine ⟨⟨issued, .inl rfl⟩, ?_⟩
      rw [first]
      rfl
  have configurations : (sampleQueue.before.upkeep sampleQueue.call).configurations.entries.length = 1 := by
    decide +kernel
  have samples : (sampleQueue.before.upkeep sampleQueue.call).samples.entries.length = 1 := by decide +kernel
  have unused : (sampleQueue.before.upkeep sampleQueue.call).batches.has 10 = false := by decide +kernel
  refine (spool_reopens sample_lists (by decide) run accepted).2 _ ?_
  rw [configurations, samples]
  refine ⟨fun a first b second c third d fourth _ => by omega, fun a first b second => ?_,
    fun a first _ b second => ?_⟩
  · show 10 + a + b < 256
    omega
  · obtain rfl : a = 0 := by omega
    obtain rfl : b = 0 := by omega
    exact unused

end Sample

end RssMdmAgent.TelemetrySpool
