import RssMdmAgent.RemoteAttempts
import Mathlib.Logic.Relation

set_option autoImplicit false

/-! # The records of remote attempts: what a call can do to them, and what it keeps -/

namespace RssMdmAgent.AttemptRecords
open OrderedRows ClientStore RemoteAttempts
open ContentTransfers (Uuid)

structure Records where
  tasks : Rows TaskRow.id
  requests : Rows RequestRow.key
  bindings : Rows Binding.task
  projections : Rows Projection.task

def records (s : Store) : Records := ⟨s.tasks, s.requests, s.bindings, s.projections⟩

def Records.attempt (r : Records) (task : Uuid) : Option Uuid :=
  (r.tasks.get task).map (·.body.payload.attemptId)

def keyTask : RequestKey → Option Uuid
  | .received task _ | .start task _ | .chunk task _ _ | .result task _ | .abandon task _ => some task
  | .other _ => none

def Alike (a b : RequestRow) : Prop := b = a ∨ b = { a with accepted := true }

def Records.Delivered (r : Records) (task : Uuid) : Prop :=
  ∀ row ∈ r.requests.entries, row.task = task → row.source = none

/-- Every row belongs to the attempt of the stored offer of its task, and a task has one result. -/
structure Records.Coherent (r : Records) : Prop where
  named : ∀ row ∈ r.tasks.entries, row.body.payload.taskId = row.id
  owned : ∀ row ∈ r.requests.entries, r.attempt row.task = some row.body.attemptId
  keyed : ∀ row ∈ r.requests.entries, keyTask row.key = some row.task
  bound : ∀ b ∈ r.bindings.entries, r.attempt b.task = some b.attempt
  started : ∀ b ∈ r.bindings.entries, r.requests.has (.start b.task b.attempt) = true
  sourced : ∀ row ∈ r.requests.entries, row.source.isSome = true →
    (∃ candidate, row.key = .result row.task candidate) ∧ r.bindings.has row.task = true
  single : ∀ row ∈ r.requests.entries, ∀ other ∈ r.requests.entries, row.source.isSome = true →
    other.source.isSome = true → row.task = other.task → row.key = other.key
  projected : ∀ p ∈ r.projections.entries, r.bindings.has p.task = true

section Changes
variable [ResultWire]

/-- One row is added or marked. -/
inductive Grows (r : Records) : Records → Prop where
  | insert (row : RequestRow) (absent : r.requests.get row.key = none) (pending : row.accepted = false)
      (keyed : keyTask row.key = some row.task) (owned : r.attempt row.task = some row.body.attemptId)
      (sourced : row.source.isSome = true → (∃ candidate, row.key = .result row.task candidate) ∧
        r.bindings.has row.task = true ∧ r.projections.has row.task = false ∧ r.Delivered row.task) :
      Grows r { r with requests := r.requests.set row }
  | accept (row : RequestRow) (found : r.requests.get row.key = some row) :
      Grows r { r with requests := r.requests.set { row with accepted := true } }
  | project (row : RequestRow) (found : r.requests.get row.key = some row) (sourced : row.source.isSome = true) :
      Grows r { r with
        requests := r.requests.set { row with accepted := true }
        projections := r.projections.set ⟨row.task, ResultWire.hash row.body.event⟩ }
  | bind (b : Binding) (owned : r.attempt b.task = some b.attempt)
      (started : r.requests.has (.start b.task b.attempt) = true) : Grows r { r with bindings := r.bindings.set b }

abbrev Grown : Records → Records → Prop := Relation.ReflTransGen Grows

end Changes

def Records.adopted (r : Records) (signed : SignedTask) : Records :=
  { r with tasks := r.tasks.set ⟨signed.payload.taskId, signed⟩ }

def Records.unreceived (r : Records) (task : Uuid) : Records :=
  { r with requests := r.requests.retain fun row =>
      !(decide (row.task = task) && row.key.isReceived && row.source.isNone) }

def Records.Settled (r : Records) (task : Uuid) : Prop :=
  ∀ row ∈ r.requests.entries, row.task = task → row.key.isReceived = true ∧ row.source = none

def Records.retired (r : Records) (f : FrozenResult) : Records :=
  { r with requests := r.requests.retain fun row => !f.retires row }

def Records.released (r : Records) (task : Uuid) : Records where
  tasks := r.tasks.retain fun row => decide (row.id ≠ task)
  requests := r.requests.retain fun row => decide (row.task ≠ task)
  bindings := r.bindings.retain fun row => decide (row.task ≠ task)
  projections := r.projections.retain fun row => decide (row.task ≠ task)

/-- What one call does to the records. -/
inductive Effect [ResultWire] (r : Records) : Records → Prop where
  | grow {u : Records} (grown : Grown r u) : Effect r u
  | adopt (signed : SignedTask) (same : ∀ row, r.tasks.get signed.payload.taskId = some row → row.body = signed) :
      Effect r (r.adopted signed)
  | replace (signed : SignedTask) (settled : r.Settled signed.payload.taskId) :
      Effect r ((r.unreceived signed.payload.taskId).adopted signed)
  | retire (f : FrozenResult) (row : RequestRow) (found : r.requests.get f.key = some row)
      (task : row.task = f.association.task) (sourced : row.source.isSome = true) (accepted : row.accepted = true)
      (projected : r.projections.has row.task = true) : Effect r (r.retired f)
  | release (task : Uuid) : Effect r (r.released task)

section Facts
variable {r u : Records} {row other : RequestRow} {task : Uuid} {signed : SignedTask} {f : FrozenResult}

theorem Alike.fields (alike : Alike row other) :
    other.key = row.key ∧ other.task = row.task ∧ other.source = row.source ∧ other.body = row.body := by
  rcases alike with rfl | rfl <;> exact ⟨rfl, rfl, rfl, rfl⟩

theorem Alike.trans {last : RequestRow} (first : Alike row other) (second : Alike other last) : Alike row last := by
  rcases first with rfl | rfl
  · exact second
  · rcases second with rfl | rfl <;> exact .inr rfl

theorem Alike.accepted (alike : Alike row other) (accepted : row.accepted = true) : other = row := by
  rcases alike with rfl | rfl
  · rfl
  · rw [← accepted]

theorem Records.Coherent.bound_of_has (coherent : r.Coherent) (has : r.bindings.has task = true) :
    ∃ b, r.bindings.get task = some b ∧ b.task = task ∧ r.attempt task = some b.attempt ∧
      r.requests.has (.start task b.attempt) = true := by
  obtain ⟨b, found⟩ := Rows.has_iff.mp has
  have mem := Rows.get_mem found
  have same : b.task = task := Rows.get_key found
  exact ⟨b, found, same, same ▸ coherent.bound b mem, same ▸ coherent.started b mem⟩

theorem Records.Coherent.unbound (coherent : r.Coherent) (settled : r.Settled task) : r.bindings.has task = false := by
  by_contra has
  obtain ⟨b, -, -, -, started⟩ := coherent.bound_of_has (Bool.not_eq_false _ ▸ has)
  obtain ⟨row, found⟩ := Rows.has_iff.mp started
  have key : row.key = .start task b.attempt := Rows.get_key found
  have keyed := coherent.keyed row (Rows.get_mem found)
  rw [key] at keyed
  have received := (settled row (Rows.get_mem found) (Option.some.inj keyed).symm).1
  rw [key] at received
  cases received

theorem attempt_adopted : (r.adopted signed).attempt task =
    if task = signed.payload.taskId then some signed.payload.attemptId else r.attempt task := by
  unfold Records.attempt Records.adopted
  dsimp only
  rw [Rows.get_set]
  split <;> rfl

theorem attempt_released {gone : Uuid} (differ : task ≠ gone) : (r.released gone).attempt task = r.attempt task := by
  unfold Records.attempt Records.released
  dsimp only
  rw [Rows.get_retain]
  cases found : r.tasks.get task with
  | none => rfl
  | some row =>
    have same : row.id = task := Rows.get_key found
    simp [Option.filter, same, differ]

theorem Records.Coherent.alike (coherent : r.Coherent) {rows : Rows RequestRow.key}
    (like : ∀ row ∈ rows.entries, ∃ old ∈ r.requests.entries, Alike old row)
    (starts : ∀ b ∈ r.bindings.entries, rows.has (.start b.task b.attempt) = true) :
    ({ r with requests := rows } : Records).Coherent := by
  refine ⟨coherent.named, ?_, ?_, coherent.bound, starts, ?_, ?_, coherent.projected⟩
  · intro row mem
    obtain ⟨old, early, alike⟩ := like row mem
    obtain ⟨-, task, -, body⟩ := alike.fields
    rw [task, body]
    exact coherent.owned old early
  · intro row mem
    obtain ⟨old, early, alike⟩ := like row mem
    obtain ⟨key, task, -, -⟩ := alike.fields
    rw [key, task]
    exact coherent.keyed old early
  · intro row mem sourced
    obtain ⟨old, early, alike⟩ := like row mem
    obtain ⟨key, task, source, -⟩ := alike.fields
    rw [key, task]
    exact coherent.sourced old early (source ▸ sourced)
  · intro row mem other present sourced also same
    obtain ⟨old, early, alike⟩ := like row mem
    obtain ⟨first, before, resembles⟩ := like other present
    obtain ⟨key, task, source, -⟩ := alike.fields
    obtain ⟨name, work, origin, -⟩ := resembles.fields
    rw [key, name]
    exact coherent.single old early first before (source ▸ sourced) (origin ▸ also) (task ▸ work ▸ same)

theorem accept_alike (found : r.requests.get row.key = some row) :
    (∀ now ∈ (r.requests.set { row with accepted := true }).entries, ∃ old ∈ r.requests.entries, Alike old now) ∧
      ∀ old ∈ r.requests.entries, ∃ now ∈ (r.requests.set { row with accepted := true }).entries, Alike old now := by
  constructor
  · intro now mem
    rcases Rows.mem_set.mp mem with rfl | ⟨mem, -⟩
    · exact ⟨row, Rows.get_mem found, .inr rfl⟩
    · exact ⟨now, mem, .inl rfl⟩
  · intro old mem
    by_cases same : old.key = row.key
    · have found := (Rows.get_of_mem mem).symm.trans (same ▸ found)
      cases found
      exact ⟨_, Rows.mem_set.mpr (.inl rfl), .inr rfl⟩
    · exact ⟨old, Rows.mem_set.mpr (.inr ⟨mem, same⟩), .inl rfl⟩

theorem Records.Coherent.accept (coherent : r.Coherent) (found : r.requests.get row.key = some row) :
    ({ r with requests := r.requests.set { row with accepted := true } } : Records).Coherent := by
  apply coherent.alike (accept_alike found).1
  intro b mem
  rw [Rows.has_set, coherent.started b mem, Bool.or_true]

theorem has_set_of_has {κ ρ : Type} [DecidableEq κ] {key : ρ → κ} {rows : Rows key} {row : ρ} {k : κ}
    (has : rows.has k = true) : (rows.set row).has k = true := by
  rw [Rows.has_set, has, Bool.or_true]

section Grow
variable [ResultWire]

theorem Grows.tasks (grows : Grows r u) : u.tasks = r.tasks := by
  cases grows <;> rfl

theorem Grows.keeps (grows : Grows r u) (mem : row ∈ r.requests.entries) : ∃ now ∈ u.requests.entries, Alike row now := by
  cases grows with
  | insert new absent =>
    refine ⟨row, Rows.mem_set.mpr (.inr ⟨mem, ?_⟩), .inl rfl⟩
    intro same
    rw [← same, Rows.get_of_mem mem] at absent
    cases absent
  | accept marked found => exact (accept_alike found).2 row mem
  | project marked found => exact (accept_alike found).2 row mem
  | bind => exact ⟨row, mem, .inl rfl⟩

theorem Grows.coherent (grows : Grows r u) (coherent : r.Coherent) : u.Coherent := by
  cases grows with
  | insert new absent pending keyed owned sourced =>
    refine ⟨coherent.named, ?_, ?_, coherent.bound, ?_, ?_, ?_, coherent.projected⟩
    · intro row mem
      rcases Rows.mem_set.mp mem with rfl | ⟨mem, -⟩
      · exact owned
      · exact coherent.owned row mem
    · intro row mem
      rcases Rows.mem_set.mp mem with rfl | ⟨mem, -⟩
      · exact keyed
      · exact coherent.keyed row mem
    · exact fun b mem => has_set_of_has (coherent.started b mem)
    · intro row mem source
      rcases Rows.mem_set.mp mem with rfl | ⟨mem, -⟩
      · exact ⟨(sourced source).1, (sourced source).2.1⟩
      · exact coherent.sourced row mem source
    · intro row mem other present source also same
      -- The guard of a new result is that no other result of its task waits.
      rcases Rows.mem_set.mp mem with rfl | ⟨early, -⟩
      · rcases Rows.mem_set.mp present with rfl | ⟨first, -⟩
        · rfl
        · rw [(sourced source).2.2.2 other first same.symm] at also
          cases also
      · rcases Rows.mem_set.mp present with rfl | ⟨first, -⟩
        · rw [(sourced also).2.2.2 row early same] at source
          cases source
        · exact coherent.single row early other first source also same
  | accept row found => exact coherent.accept found
  | project row found sourced =>
    obtain ⟨named, owned, keyed, bound, started, sources, single, projected⟩ := coherent.accept found
    refine ⟨named, owned, keyed, bound, started, sources, single, ?_⟩
    intro p mem
    rcases Rows.mem_set.mp mem with rfl | ⟨mem, -⟩
    · exact (coherent.sourced row (Rows.get_mem found) sourced).2
    · exact projected p mem
  | bind b owned started =>
    refine ⟨coherent.named, coherent.owned, coherent.keyed, ?_, ?_, ?_, coherent.single, ?_⟩
    · intro other mem
      rcases Rows.mem_set.mp mem with rfl | ⟨mem, -⟩
      · exact owned
      · exact coherent.bound other mem
    · intro other mem
      rcases Rows.mem_set.mp mem with rfl | ⟨mem, -⟩
      · exact started
      · exact coherent.started other mem
    · exact fun row mem source => (coherent.sourced row mem source).imp_right has_set_of_has
    · exact fun p mem => has_set_of_has (coherent.projected p mem)

theorem Grown.coherent (grown : Grown r u) (coherent : r.Coherent) : u.Coherent := by
  induction grown with
  | refl => exact coherent
  | tail _ grows ih => exact grows.coherent ih

theorem Grown.tasks (grown : Grown r u) : u.tasks = r.tasks := by
  induction grown with
  | refl => rfl
  | tail _ grows ih => exact grows.tasks.trans ih

theorem Grown.attempt (grown : Grown r u) : u.attempt task = r.attempt task := by
  unfold Records.attempt
  rw [grown.tasks]

theorem Grown.keeps (grown : Grown r u) (mem : row ∈ r.requests.entries) : ∃ now ∈ u.requests.entries, Alike row now := by
  induction grown with
  | refl => exact ⟨row, mem, .inl rfl⟩
  | tail _ grows ih =>
    obtain ⟨middle, mem, alike⟩ := ih
    obtain ⟨now, mem, later⟩ := grows.keeps mem
    exact ⟨now, mem, alike.trans later⟩

end Grow

theorem Records.Coherent.adopted (coherent : r.Coherent)
    (requests : ∀ row ∈ r.requests.entries, row.task = signed.payload.taskId → row.body.attemptId = signed.payload.attemptId)
    (bindings : ∀ b ∈ r.bindings.entries, b.task = signed.payload.taskId → b.attempt = signed.payload.attemptId) :
    (r.adopted signed).Coherent := by
  refine ⟨?_, ?_, coherent.keyed, ?_, coherent.started, coherent.sourced, coherent.single, coherent.projected⟩
  · intro row mem
    rcases Rows.mem_set.mp mem with rfl | ⟨mem, -⟩
    · rfl
    · exact coherent.named row mem
  · intro row mem
    rw [attempt_adopted]
    split
    · rw [requests row mem ‹_›]
    · exact coherent.owned row mem
  · intro b mem
    rw [attempt_adopted]
    split
    · rw [bindings b mem ‹_›]
    · exact coherent.bound b mem

theorem Records.Coherent.retain (coherent : r.Coherent) {condition : RequestRow → Bool}
    (starts : ∀ row ∈ r.requests.entries, (∃ attempt, row.key = .start row.task attempt) → condition row = true) :
    ({ r with requests := r.requests.retain condition } : Records).Coherent := by
  apply coherent.alike
  · exact fun row mem => ⟨row, (List.mem_filter.mp mem).1, .inl rfl⟩
  · intro b mem
    obtain ⟨row, found⟩ := Rows.has_iff.mp (coherent.started b mem)
    have key : row.key = .start b.task b.attempt := Rows.get_key found
    have keyed := coherent.keyed row (Rows.get_mem found)
    rw [key] at keyed
    refine Rows.has_iff.mpr ⟨row, ?_⟩
    rw [Rows.get_retain, found, Option.filter_some, if_pos]
    exact starts row (Rows.get_mem found) ⟨b.attempt, Option.some.inj keyed ▸ key⟩

theorem unreceived_absent (settled : r.Settled task) : ∀ row ∈ (r.unreceived task).requests.entries, row.task ≠ task := by
  intro row mem same
  obtain ⟨mem, kept⟩ := List.mem_filter.mp mem
  obtain ⟨received, source⟩ := settled row mem same
  simp [same, received, source] at kept

theorem retires_cases (retires : f.retires row = true) :
    (∃ task attempt index, row.key = .chunk task attempt index) ∨ row.key = f.key := by
  unfold FrozenResult.retires at retires
  rcases Bool.or_eq_true_iff.mp retires with chunk | key
  · have chunk := (Bool.and_eq_true_iff.mp chunk).2
    unfold RequestKey.isChunk at chunk
    split at chunk
    · exact .inl ⟨_, _, _, ‹_›⟩
    · cases chunk
  · exact .inr (of_decide_eq_true key)

theorem Records.Coherent.result_key (coherent : r.Coherent) (mem : row ∈ r.requests.entries)
    (sourced : row.source.isSome = true) : ∃ candidate, row.key = .result row.task candidate :=
  (coherent.sourced row mem sourced).1

theorem Records.Coherent.retires_source (coherent : r.Coherent) (mem : row ∈ r.requests.entries)
    (sourced : row.source.isSome = true) (retires : f.retires row = true) : row.key = f.key := by
  rcases retires_cases retires with ⟨_, _, _, chunk⟩ | same
  · obtain ⟨candidate, key⟩ := coherent.result_key mem sourced
    rw [chunk] at key
    cases key
  · exact same

theorem Records.Coherent.released (coherent : r.Coherent) (task : Uuid) : (r.released task).Coherent := by
  have kept : ∀ {ρ : Type} {key : ρ → Uuid} {rows : Rows key} {other : Uuid}, other ≠ task → rows.has other = true →
      (rows.retain fun row => decide (key row ≠ task)).has other = true := by
    intro ρ key rows other differ has
    obtain ⟨row, found⟩ := Rows.has_iff.mp has
    have same := Rows.get_key found
    refine Rows.has_iff.mpr ⟨row, ?_⟩
    rw [Rows.get_retain, found, Option.filter_some, if_pos (by simp [same, differ])]
  refine ⟨?_, ?_, ?_, ?_, ?_, ?_, ?_, ?_⟩
  · exact fun row mem => coherent.named row (List.mem_filter.mp mem).1
  · intro row mem
    obtain ⟨mem, differ⟩ := List.mem_filter.mp mem
    rw [attempt_released (of_decide_eq_true differ)]
    exact coherent.owned row mem
  · exact fun row mem => coherent.keyed row (List.mem_filter.mp mem).1
  · intro b mem
    obtain ⟨mem, differ⟩ := List.mem_filter.mp mem
    rw [attempt_released (of_decide_eq_true differ)]
    exact coherent.bound b mem
  · intro b mem
    obtain ⟨mem, differ⟩ := List.mem_filter.mp mem
    obtain ⟨row, found⟩ := Rows.has_iff.mp (coherent.started b mem)
    have key : row.key = .start b.task b.attempt := Rows.get_key found
    have keyed := coherent.keyed row (Rows.get_mem found)
    rw [key] at keyed
    refine Rows.has_iff.mpr ⟨row, ?_⟩
    have elsewhere : row.task ≠ task := Option.some.inj keyed ▸ of_decide_eq_true differ
    unfold Records.released
    dsimp only
    rw [Rows.get_retain, found, Option.filter_some, if_pos (decide_eq_true elsewhere)]
  · intro row mem sourced
    obtain ⟨mem, differ⟩ := List.mem_filter.mp mem
    exact (coherent.sourced row mem sourced).imp_right fun has => kept (of_decide_eq_true differ) has
  · exact fun row mem other present =>
      coherent.single row (List.mem_filter.mp mem).1 other (List.mem_filter.mp present).1
  · intro p mem
    obtain ⟨mem, differ⟩ := List.mem_filter.mp mem
    exact kept (of_decide_eq_true differ) (coherent.projected p mem)

section Effects
variable [ResultWire]

theorem Effect.coherent (effect : Effect r u) (coherent : r.Coherent) : u.Coherent := by
  cases effect with
  | grow grown => exact grown.coherent coherent
  | adopt signed same =>
    have attempts : ∀ task attempt, r.attempt task = some attempt → task = signed.payload.taskId →
        attempt = signed.payload.attemptId := by
      rintro _ attempt known rfl
      obtain ⟨row, found, rfl⟩ := Option.map_eq_some_iff.mp known
      rw [same row found]
    exact coherent.adopted (fun row mem => attempts _ _ (coherent.owned row mem))
      fun b mem => attempts _ _ (coherent.bound b mem)
  | replace signed settled =>
    have middle : (r.unreceived signed.payload.taskId).Coherent := by
      apply coherent.retain
      rintro row - ⟨attempt, key⟩
      simp [key, RequestKey.isReceived]
    refine middle.adopted (fun row mem same => absurd same (unreceived_absent settled row mem)) ?_
    intro b (mem : b ∈ r.bindings.entries) same
    have missing := coherent.unbound settled
    rw [← same, Rows.has, Rows.get_of_mem mem] at missing
    cases missing
  | retire f row found task sourced =>
    apply coherent.retain
    rintro other mem ⟨attempt, start⟩
    rw [Bool.not_eq_true', ← Bool.not_eq_true]
    intro retires
    rcases retires_cases retires with ⟨_, _, _, chunk⟩ | same
    · rw [chunk] at start
      cases start
    · obtain ⟨candidate, key⟩ := coherent.result_key (Rows.get_mem found) sourced
      rw [← same.trans (Rows.get_key found).symm, start] at key
      cases key
  | release task => exact coherent.released task

theorem Grown.accepted (grown : Grown r u) (mem : row ∈ r.requests.entries) (accepted : row.accepted = true) :
    row ∈ u.requests.entries := by
  obtain ⟨now, present, alike⟩ := grown.keeps mem
  rwa [alike.accepted accepted] at present

def Records.Frozen (r : Records) (row : RequestRow) : Prop :=
  (∃ now ∈ r.requests.entries, Alike row now) ∨ (r.projections.has row.task = true ∧ r.Delivered row.task)

theorem Grows.frozen (grows : Grows r u) (frozen : r.Frozen row) : u.Frozen row := by
  rcases frozen with ⟨now, mem, alike⟩ | ⟨projected, delivered⟩
  · obtain ⟨later, mem, also⟩ := grows.keeps mem
    exact .inl ⟨later, mem, alike.trans also⟩
  · have marks : ∀ marked, r.requests.get marked.key = some marked →
        ∀ now ∈ (r.requests.set { marked with accepted := true }).entries, now.task = row.task → now.source = none := by
      intro marked found now mem same
      obtain ⟨old, mem, alike⟩ := (accept_alike found).1 now mem
      obtain ⟨-, task, source, -⟩ := alike.fields
      rw [source]
      exact delivered old mem (task ▸ same)
    cases grows with
    | insert new absent pending keyed owned sourced =>
      refine .inr ⟨projected, ?_⟩
      intro now mem same
      rcases Rows.mem_set.mp mem with rfl | ⟨early, -⟩
      · -- A result is not frozen where a projection is.
        by_contra source
        rw [← same, (sourced (Option.isSome_iff_ne_none.mpr source)).2.2.1] at projected
        cases projected
      · exact delivered now early same
    | accept marked found => exact .inr ⟨projected, marks marked found⟩
    | project marked found => exact .inr ⟨has_set_of_has projected, marks marked found⟩
    | bind => exact .inr ⟨projected, delivered⟩

/-- While the association lasts its result is one. -/
theorem Effect.frozen (effect : Effect r u) (coherent : r.Coherent) (sourced : row.source.isSome = true)
    (bound : u.bindings.has row.task = true) (frozen : r.Frozen row) : u.Frozen row := by
  cases effect with
  | grow grown =>
    clear bound
    induction grown with
    | refl => exact frozen
    | tail _ grows ih => exact grows.frozen ih
  | adopt => exact frozen
  | replace signed settled =>
    have differ : row.task ≠ signed.payload.taskId := by
      intro same
      change r.bindings.has row.task = true at bound
      rw [same, coherent.unbound settled] at bound
      cases bound
    rcases frozen with ⟨now, mem, alike⟩ | ⟨projected, delivered⟩
    · refine .inl ⟨now, List.mem_filter.mpr ⟨mem, ?_⟩, alike⟩
      simp [alike.fields.2.1, differ]
    · exact .inr ⟨projected, fun other mem => delivered other (List.mem_filter.mp mem).1⟩
  | retire f result found task source accepted projected =>
    rcases frozen with ⟨now, mem, alike⟩ | ⟨held, delivered⟩
    · obtain ⟨-, same, origin, -⟩ := alike.fields
      by_cases retires : f.retires now = true
      · have key := coherent.retires_source mem (origin ▸ sourced) retires
        have found := Rows.get_of_mem mem ▸ key ▸ found
        cases found
        refine .inr ⟨same ▸ projected, ?_⟩
        intro other present also
        obtain ⟨present, kept⟩ := List.mem_filter.mp present
        by_contra waits
        have one := coherent.single result mem other present source (Option.isSome_iff_ne_none.mpr waits) (same.trans also.symm)
        rw [← List.inj_on_of_nodup_map r.requests.distinct mem present one, retires] at kept
        cases kept
      · exact .inl ⟨now, List.mem_filter.mpr ⟨mem, by simpa using retires⟩, alike⟩
    · exact .inr ⟨held, fun other mem => delivered other (List.mem_filter.mp mem).1⟩
  | release task =>
    have differ : row.task ≠ task := by
      rintro rfl
      obtain ⟨b, found⟩ := Rows.has_iff.mp bound
      have gone := (List.mem_filter.mp (Rows.get_mem found)).2
      simp [Rows.get_key found] at gone
    rcases frozen with ⟨now, mem, alike⟩ | ⟨held, delivered⟩
    · refine .inl ⟨now, List.mem_filter.mpr ⟨mem, ?_⟩, alike⟩
      simp [alike.fields.2.1, differ]
    · refine .inr ⟨?_, fun other mem => delivered other (List.mem_filter.mp mem).1⟩
      obtain ⟨p, found⟩ := Rows.has_iff.mp held
      refine Rows.has_iff.mpr ⟨p, ?_⟩
      unfold Records.released
      dsimp only
      rw [Rows.get_retain, found, Option.filter_some, if_pos]
      simp [Rows.get_key found, differ]

theorem Effect.attempt (effect : Effect r u) (coherent : r.Coherent) (early : r.bindings.has task = true)
    (late : u.bindings.has task = true) : u.attempt task = r.attempt task := by
  cases effect with
  | grow grown => exact grown.attempt
  | adopt signed same =>
    rw [attempt_adopted]
    split
    · rename_i here
      obtain ⟨b, -, -, attempt, -⟩ := coherent.bound_of_has early
      obtain ⟨row, found, -⟩ := Option.map_eq_some_iff.mp attempt
      rw [here] at found ⊢
      rw [Records.attempt, found, Option.map_some, same row found]
    · rfl
  | replace signed settled =>
    rw [attempt_adopted]
    split
    · rename_i here
      rw [here, coherent.unbound settled] at early
      cases early
    · rfl
  | retire => rfl
  | release gone =>
    apply attempt_released
    rintro rfl
    obtain ⟨b, found⟩ := Rows.has_iff.mp late
    have kept := (List.mem_filter.mp (Rows.get_mem found)).2
    simp [Rows.get_key found] at kept

def Records.Acknowledged (r : Records) (p : Projection) : Prop :=
  ∃ row ∈ r.requests.entries, row.task = p.task ∧ row.source.isSome = true ∧ row.accepted = true ∧
    ResultWire.hash row.body.event = p.hash

theorem Effect.projection {p : Projection} (effect : Effect r u) (mem : p ∈ u.projections.entries) :
    p ∈ r.projections.entries ∨ u.Acknowledged p := by
  cases effect with
  | grow grown =>
    induction grown with
    | refl => exact .inl mem
    | @tail middle last _ grows ih =>
      have stays : p ∈ middle.projections.entries → p ∈ r.projections.entries ∨ last.Acknowledged p := by
        intro mem
        refine (ih mem).imp_right ?_
        rintro ⟨row, present, task, sourced, accepted, hash⟩
        exact ⟨row, Grown.accepted (.single grows) present accepted, task, sourced, accepted, hash⟩
      cases grows with
      | project row found sourced =>
        rcases Rows.mem_set.mp mem with rfl | ⟨early, -⟩
        · exact .inr ⟨_, Rows.mem_set.mpr (.inl rfl), rfl, sourced, rfl, rfl⟩
        · exact stays early
      | insert => exact stays mem
      | accept => exact stays mem
      | bind => exact stays mem
  | adopt => exact .inl mem
  | replace => exact .inl mem
  | retire => exact .inl mem
  | release => exact .inl (List.mem_filter.mp mem).1

end Effects

end Facts

end RssMdmAgent.AttemptRecords
