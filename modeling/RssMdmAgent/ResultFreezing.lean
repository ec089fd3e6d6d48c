import RssMdmAgent.AttemptCoherence

set_option autoImplicit false

/-! # Chunk rows are stored whole with the result that names them -/

namespace RssMdmAgent.ResultFreezing
open OrderedRows TransitionRuns ClientStore RemoteAttempts AttemptRecords AttemptCalls AttemptCoherence
open ContentTransfers (Uuid Error)
open ContractPlan (bind_ok)

def manifestOf : TaskEvent → Option OutputManifest
  | .chunkedResult _ manifest | .chunkedCollectionResult manifest => some manifest
  | _ => none

structure Plain (row : RequestRow) : Prop where
  key : ∀ task attempt index, row.key ≠ .chunk task attempt index
  event : manifestOf row.body.event = none
  result : ∀ task candidate, row.key = .result task candidate → row.source.isSome = true

def Cuts (manifest : OutputManifest) (index : Nat) (chunk : OutputChunk) : Prop := chunk.manifest = manifest ∧ chunk.index = index

/-- How outputs are cut: into the chunks that the manifest counts, in order, and at most 64. -/
structure LawfulWire [ResultWire] : Prop where
  newChunk : ∀ manifest index part chunk, ResultWire.newChunk manifest index part = .ok chunk → Cuts manifest index chunk
  counted : ∀ bytes manifest, ResultWire.newManifest bytes = .ok manifest →
    ResultWire.count manifest = (bytes.toChunks ResultWire.outputChunkBytes).length ∧ ResultWire.count manifest ≤ 64
  split : ∀ body reference manifest chunks, ResultWire.split body = .ok (reference, manifest, chunks) →
    chunks.length = ResultWire.count manifest ∧ ResultWire.count manifest ≤ 64 ∧
      ∀ index chunk, chunks[index]? = some chunk → Cuts manifest index chunk

section Rows
variable [ResultWire]

/-- Every chunk belongs to the stored result of its attempt, and such a result has all its chunks. -/
structure Whole (r : Records) : Prop where
  owned : ∀ row ∈ r.requests.entries, ∀ task attempt index, row.key = .chunk task attempt index →
    row.source = none ∧ ∃ chunk result, row.body.event = .outputChunk chunk ∧ chunk.index = index ∧ result ∈ r.requests.entries ∧
      result.task = task ∧ result.body.attemptId = attempt ∧ manifestOf result.body.event = some chunk.manifest ∧
      index < ResultWire.count chunk.manifest
  complete : ∀ result ∈ r.requests.entries, ∀ manifest, manifestOf result.body.event = some manifest →
    result.source.isSome = true ∧ ResultWire.count manifest ≤ 64 ∧
      ∀ index < ResultWire.count manifest, r.requests.has (.chunk result.task result.body.attemptId index) = true
  results : ∀ row ∈ r.requests.entries, ∀ task candidate, row.key = .result task candidate → row.source.isSome = true

variable {cfg : Config} {s t u : Store} {x : Exchange} {task attempt : Uuid} {key : RequestKey} {event : TaskEvent}
  {request : TaskEventRequest} {offer : SignedTask} {r v : Records}

def Adds (r v : Records) : Prop := ∀ row ∈ v.requests.entries, (∃ old ∈ r.requests.entries, Alike old row) ∨ Plain row

omit [ResultWire] in
theorem Adds.refl (r : Records) : Adds r r := fun row mem => .inl ⟨row, mem, .inl rfl⟩

omit [ResultWire] in
theorem Plain.alike {old row : RequestRow} (plain : Plain old) (alike : Alike old row) : Plain row := by
  obtain ⟨key, -, source, body⟩ := alike.fields
  exact ⟨fun task attempt index => key ▸ plain.key task attempt index, body ▸ plain.event,
    fun task candidate same => source ▸ plain.result task candidate (key ▸ same)⟩

omit [ResultWire] in
theorem Adds.trans {w : Records} (first : Adds r v) (second : Adds v w) : Adds r w := by
  intro row mem
  rcases second row mem with ⟨old, present, alike⟩ | plain
  · rcases first old present with ⟨oldest, earlier, same⟩ | plain
    · exact .inl ⟨oldest, earlier, same.trans alike⟩
    · exact .inr (plain.alike alike)
  · exact .inr plain

omit [ResultWire] in
theorem Adds.same (same : v.requests = r.requests) : Adds r v := fun row mem => .inl ⟨row, same ▸ mem, .inl rfl⟩

omit [ResultWire] in
theorem acceptRow_adds (s : Store) (key : RequestKey) : Adds (records s) (records (acceptRow s key)) := by
  unfold acceptRow
  split
  · exact .refl _
  · rename_i row found
    intro other mem
    rcases Rows.mem_set.mp mem with rfl | ⟨early, -⟩
    · exact .inl ⟨row, Rows.get_mem found, .inr rfl⟩
    · exact .inl ⟨other, early, .inl rfl⟩

omit [ResultWire] in
/-- A request is recovered as it was frozen, or inserted where there is room and access. -/
theorem eventRequest_ok {source : Option (List String)} (made : eventRequest cfg s x key task attempt event source = .ok (t, request)) :
    (∃ row, s.requests.get key = some row ∧ t = s ∧ request = row.body ∧ row.body.attemptId = attempt ∧ row.body.event = event) ∨
      (s.requests.get key = none ∧ (x.io (.request key) = true ∧ x.io (.count key) = true ∧ x.io (.insert key) = true) ∧
        s.requests.entries.length < cfg.pendingTasks * 70 ∧ ∃ context, x.executionContext = .ok context ∧
          request = ⟨x.operation key, attempt, event, context⟩ ∧
          t = { s with requests := s.requests.set ⟨key, task, source, request, false⟩ }) := by
  unfold eventRequest at made
  simp only [bind_ok, touch_ok, exists_const] at made
  obtain ⟨reads, made⟩ := made
  split at made
  · rename_i row found
    split at made
    · cases made
    · rename_i kept
      rw [not_or, not_ne_iff, not_ne_iff] at kept
      cases made
      exact .inl ⟨row, found, rfl, rfl, kept⟩
  · rename_i absent
    simp only [bind_ok, touch_ok, exists_const] at made
    obtain ⟨counts, made⟩ := made
    split at made
    · cases made
    · rename_i room
      simp only [bind_ok, touch_ok, exists_const] at made
      obtain ⟨context, known, inserts, same⟩ := made
      cases same
      exact .inr ⟨absent, ⟨reads, counts, inserts⟩, Nat.not_le.mp room, context, known, rfl, rfl⟩

omit [ResultWire] in
theorem eventRequest_event {source : Option (List String)} (made : eventRequest cfg s x key task attempt event source = .ok (t, request)) :
    request.event = event := by
  rcases eventRequest_ok made with ⟨row, -, -, rfl, -, same⟩ | ⟨-, -, -, context, -, rfl, -⟩
  · exact same
  · rfl

omit [ResultWire] in
theorem eventRequest_adds {source : Option (List String)} (plainKey : ∀ task attempt index, key ≠ .chunk task attempt index)
    (plainEvent : manifestOf event = none) (sourced : ∀ task candidate, key = .result task candidate → source.isSome = true)
    (made : eventRequest cfg s x key task attempt event source = .ok (t, request)) :
    Adds (records s) (records t) := by
  have same := eventRequest_event made
  rcases eventRequest_cases made with rfl | ⟨-, -, rfl⟩
  · exact .refl _
  · intro row mem
    rcases Rows.mem_set.mp mem with rfl | ⟨early, -⟩
    · exact .inr ⟨plainKey, same ▸ plainEvent, sourced⟩
    · exact .inl ⟨row, early, .inl rfl⟩

theorem received_adds : Adds (records s) (records (received cfg s x offer).1) := by
  unfold received
  dsimp only
  split
  · exact .refl _
  · exact .refl _
  · rename_i t request made
    have added := eventRequest_adds (fun _ _ _ same => by cases same) rfl (fun _ _ same => by cases same) (receivedRequest_ok made)
    split
    · exact added
    split
    · exact added
    split
    · exact added
    split
    · exact added.trans (acceptRow_adds t _)
    · exact added

theorem startInner_adds {materials : Except Error Unit} : Adds (records s) (records (startInner cfg s x offer materials).1) := by
  unfold startInner
  dsimp only
  split
  · exact .refl _
  · rename_i t request made
    have added := eventRequest_adds (fun _ _ _ same => by cases same) rfl (fun _ _ same => by cases same) (startRequest_ok made)
    split
    · exact added
    split
    · exact added
    split
    · exact added
    split
    · exact added
    split
    · exact added
    split
    · exact added.trans (acceptRow_adds t _)
    · exact added

theorem requestStart_adds {materials : Except Error Unit} : Adds (records s) (records (requestStart cfg s x offer materials).1) := by
  unfold requestStart
  dsimp only
  split
  · exact .refl _
  · exact startInner_adds

theorem recoverStart_adds {materials : Except Error Unit} : Adds (records s) (records (recoverStart cfg s x task materials).1) := by
  unfold recoverStart
  split
  · exact .refl _
  · exact startInner_adds

theorem reserveAssociation_requests {start : Start} {name digest actor : String} :
    (orSame s (reserveAssociation cfg s x start name digest actor)).requests = s.requests := by
  cases made : reserveAssociation cfg s x start name digest actor with
  | error e => rfl
  | ok answer =>
    unfold reserveAssociation at made
    obtain ⟨⟨⟩, -, made⟩ := bind_ok.mp made
    obtain ⟨found, -, made⟩ := bind_ok.mp made
    split at made
    · split at made
      · cases made
      · cases made
        rfl
    · simp only [bind_ok, touch_ok, exists_const] at made
      obtain ⟨-, same⟩ := made
      cases same
      rfl

omit [ResultWire] in
theorem bindLocalAttempt_requests {b : Binding} {name : Option String} :
    (orSame s (bindLocalAttempt s x b name)).requests = s.requests := by
  cases made : bindLocalAttempt s x b name with
  | error e => rfl
  | ok answer =>
    unfold bindLocalAttempt at made
    obtain ⟨⟨⟩, -, made⟩ := bind_ok.mp made
    split at made
    · cases made
    · simp only [bind_ok, touch_ok, exists_const] at made
      obtain ⟨-, same⟩ := made
      cases same
      rfl

omit [ResultWire] in
theorem sendChunks_adds {manifest : OutputManifest} (rows : List RequestRow) : ∀ (index : Nat) (s : Store),
    Adds (records s) (records (sendChunks x attempt manifest rows index s).1) := by
  induction rows with
  | nil => exact fun _ _ => .refl _
  | cons row rest ih =>
    intro index s
    unfold sendChunks
    split
    · split
      · exact .refl _
      split
      · exact ih (index + 1) s
      split
      · exact .refl _
      split
      · exact .refl _
      split
      · exact (acceptRow_adds s row.key).trans (ih (index + 1) _)
      · exact .refl _
    · exact .refl _

theorem sendOutputChunks_adds : Adds (records s) (records (sendOutputChunks s x task request).1) := by
  have send : ∀ manifest, Adds (records s) (records (if !x.io .chunks then (s, .error .storage)
      else
        let rows := chunkRows s task request.attemptId
        if rows.length ≠ ResultWire.count manifest then (s, .error .storage)
        else sendChunks x request.attemptId manifest rows 0 s : Store × Except Error Unit).1) := by
    intro manifest
    dsimp only
    split
    · exact .refl _
    split
    · exact .refl _
    · exact sendChunks_adds _ 0 s
  unfold sendOutputChunks
  dsimp only
  split
  · exact send _
  · exact send _
  · exact .refl _

theorem acknowledge_adds {f : FrozenResult} (made : acknowledge s x f = .ok t) : Adds (records s) (records t) := by
  unfold acknowledge at made
  simp only [bind_ok, touch_ok, exists_const] at made
  obtain ⟨-, -, made⟩ := made
  split at made
  · cases made
  split at made
  · cases made
  · simp only [bind_ok, touch_ok, exists_const] at made
    obtain ⟨-, -, same⟩ := made
    cases same
    exact (acceptRow_adds s f.key).trans (.same rfl)

theorem sendResult_adds {f : FrozenResult} : Adds (records s) (records (sendResult s x f).1) := by
  rcases (sendResult_cases s x f).1 with same | ⟨-, same⟩
  · rw [same]
    exact .refl _
  rw [same]
  have chunks : Adds (records s) (records (sendOutputChunks s x f.association.task f.request).1) := sendOutputChunks_adds
  unfold sendUnaccepted
  split
  · exact .refl _
  split
  · rename_i u e sent
    rwa [sent] at chunks
  · rename_i u sent
    rw [sent] at chunks
    split
    · exact chunks
    split
    · exact chunks
    split
    · exact chunks
    · rename_i v made
      exact chunks.trans (acknowledge_adds made)

omit [ResultWire] in
theorem freezeAbandonment_adds : Adds (records s) (records (orSame s (freezeAbandonment cfg s x task))) := by
  cases made : freezeAbandonment cfg s x task with
  | error e => exact .refl _
  | ok answer =>
    unfold freezeAbandonment at made
    obtain ⟨offer, -, made⟩ := bind_ok.mp made
    obtain ⟨⟨u, request⟩, frozen, same⟩ := bind_ok.mp made
    cases same
    exact eventRequest_adds (fun _ _ _ same => by cases same) rfl (fun _ _ same => by cases same) frozen

omit [ResultWire] in
theorem sendAbandonment_adds {f : FrozenAbandonment} : Adds (records s) (records (sendAbandonment s x f).1) := by
  unfold sendAbandonment
  split
  · exact .refl _
  · exact .refl _
  split
  · exact .refl _
  split
  · exact .refl _
  split
  · exact acceptRow_adds s _
  · exact .refl _

/-! ## What keeps the results whole -/

theorem Whole.adds (whole : Whole r) (grown : Grown r v) (adds : Adds r v) : Whole v := by
  constructor
  · intro row mem task attempt index key
    rcases adds row mem with ⟨old, present, alike⟩ | plain
    · obtain ⟨sameKey, -, source, body⟩ := alike.fields
      obtain ⟨none, chunk, result, event, cut, stored, work, mine, names, small⟩ := whole.owned old present task attempt index (sameKey ▸ key)
      obtain ⟨now, kept, same⟩ := grown.keeps stored
      obtain ⟨-, nowTask, -, nowBody⟩ := same.fields
      exact ⟨source.trans none, chunk, now, body ▸ event, cut, kept, nowTask.trans work, nowBody ▸ mine, nowBody ▸ names, small⟩
    · exact absurd key (plain.key task attempt index)
  · intro result mem manifest names
    rcases adds result mem with ⟨old, present, alike⟩ | plain
    · obtain ⟨-, work, source, body⟩ := alike.fields
      obtain ⟨some, bounded, all⟩ := whole.complete old present manifest (body ▸ names)
      refine ⟨source ▸ some, bounded, fun index small => ?_⟩
      obtain ⟨chunk, found⟩ := Rows.has_iff.mp (all index small)
      obtain ⟨now, kept, same⟩ := grown.keeps (Rows.get_mem found)
      have key : now.key = .chunk result.task result.body.attemptId index := by
        rw [same.fields.1, Rows.get_key found, work, body]
      exact Rows.has_iff.mpr ⟨now, key ▸ Rows.get_of_mem kept⟩
    · rw [plain.event] at names
      cases names
  · intro row mem task candidate key
    rcases adds row mem with ⟨old, present, alike⟩ | plain
    · obtain ⟨sameKey, -, source, -⟩ := alike.fields
      exact source ▸ whole.results old present task candidate (sameKey ▸ key)
    · exact plain.result task candidate key

theorem Whole.retain (whole : Whole r) {condition : RequestRow → Bool} (same : v.requests = r.requests.retain condition)
    (results : ∀ row ∈ r.requests.entries, ∀ result ∈ r.requests.entries, ∀ index, row.key = .chunk result.task result.body.attemptId index →
      result.source.isSome = true → condition row = condition result) : Whole v := by
  have kept : ∀ {row}, row ∈ v.requests.entries ↔ row ∈ r.requests.entries ∧ condition row = true := by
    intro row
    rw [same]
    exact List.mem_filter
  constructor
  · intro row mem task attempt index key
    obtain ⟨mem, stays⟩ := kept.mp mem
    obtain ⟨none, chunk, result, event, cut, stored, rfl, rfl, names, small⟩ := whole.owned row mem task attempt index key
    have sourced := (whole.complete result stored _ names).1
    exact ⟨none, chunk, result, event, cut, kept.mpr ⟨stored, results row mem result stored index key sourced ▸ stays⟩, rfl, rfl, names, small⟩
  · intro result mem manifest names
    obtain ⟨mem, stays⟩ := kept.mp mem
    obtain ⟨some, bounded, all⟩ := whole.complete result mem manifest names
    refine ⟨some, bounded, fun index small => ?_⟩
    obtain ⟨row, found⟩ := Rows.has_iff.mp (all index small)
    have key := Rows.get_key found
    have stays := (results row (Rows.get_mem found) result mem index key some).trans stays
    refine Rows.has_iff.mpr ⟨row, key ▸ Rows.get_of_mem (kept.mpr ⟨Rows.get_mem found, stays⟩)⟩
  · exact fun row mem => whole.results row (kept.mp mem).1

theorem Whole.same (whole : Whole r) (same : v.requests = r.requests) : Whole v := by
  constructor
  · rw [same]
    exact whole.owned
  · rw [same]
    exact whole.complete
  · rw [same]
    exact whole.results

theorem Whole.unreceived (whole : Whole r) (task : Uuid) : Whole (r.unreceived task) := by
  refine whole.retain rfl fun row _ result _ index key sourced => ?_
  have chunk : row.key.isReceived = false := by rw [key]; rfl
  have waits : result.source.isNone = false := by
    rw [← Option.not_isSome, sourced]
    rfl
  rw [chunk, waits, Bool.and_false, Bool.false_and, Bool.and_false]

theorem Whole.released (whole : Whole r) (coherent : r.Coherent) (task : Uuid) : Whole (r.released task) := by
  refine whole.retain rfl fun row mem result _ index key _ => ?_
  have keyed := coherent.keyed row mem
  rw [key] at keyed
  rw [Option.some.inj keyed]

theorem Whole.retired (whole : Whole r) (coherent : r.Coherent) {f : FrozenResult} {result : RequestRow}
    (found : r.requests.get f.key = some result) (task : result.task = f.association.task)
    (attempt : result.body.attemptId = f.association.attempt) (sourced : result.source.isSome = true) : Whole (r.retired f) := by
  refine whole.retain rfl fun row mem other stored index key waits => ?_
  have one : ∀ {row}, row ∈ r.requests.entries → (row.key = f.key ↔ row = result) := by
    intro row mem
    rw [← Rows.get_key found]
    exact ⟨List.inj_on_of_nodup_map r.requests.distinct mem (Rows.get_mem found), fun same => same ▸ rfl⟩
  obtain ⟨candidate, named⟩ := (coherent.sourced other stored waits).1
  unfold FrozenResult.retires
  rw [key, named]
  have chunkKey : decide ((RequestKey.chunk other.task other.body.attemptId index : RequestKey) = f.key) = false := by
    rw [decide_eq_false_iff_not, ← key, one mem]
    rintro rfl
    obtain ⟨candidate, named⟩ := (coherent.sourced row mem sourced).1
    rw [key] at named
    cases named
  rw [chunkKey]
  have keyed := coherent.keyed row mem
  rw [key] at keyed
  have work : other.task = row.task := Option.some.inj keyed
  by_cases same : other.task = f.association.task
  · have rows : other = result :=
      (one stored).mp ((coherent.single other stored result (Rows.get_mem found) waits sourced (same.trans task.symm)).trans
        (Rows.get_key found))
    subst rows
    rw [← named, ← work]
    simp [RemoteAttempts.RequestKey.isChunk, Rows.get_key found, task, attempt]
  · have apart : ¬(RequestKey.result other.task candidate : RequestKey) = f.key := by
      rw [← named, one stored]
      rintro rfl
      exact same task
    simp [RemoteAttempts.RequestKey.isChunk, apart, same, ← work]

/-! ## One freeze -/

def Ordered (manifest : OutputManifest) : Nat → List OutputChunk → Prop
  | _, [] => True
  | index, chunk :: rest => Cuts manifest index chunk ∧ Ordered manifest (index + 1) rest

omit [ResultWire] in
theorem Ordered.indices {manifest : OutputManifest} : ∀ {from' : Nat} {chunks : List OutputChunk}, Ordered manifest from' chunks →
    chunks.map (·.index) = List.range' from' chunks.length
  | _, [], _ => rfl
  | from', chunk :: rest, ⟨⟨_, index⟩, ordered⟩ => by
    rw [List.map_cons, index, List.length_cons, List.range'_succ, ordered.indices]

omit [ResultWire] in
theorem Ordered.manifest {manifest : OutputManifest} : ∀ {from' : Nat} {chunks : List OutputChunk}, Ordered manifest from' chunks →
    ∀ chunk ∈ chunks, chunk.manifest = manifest
  | _, _ :: _, ⟨⟨names, _⟩, ordered⟩, chunk, mem => by
    rcases List.mem_cons.mp mem with rfl | mem
    · exact names
    · exact ordered.manifest chunk mem

omit [ResultWire] in
theorem ordered_of_get {manifest : OutputManifest} : ∀ {from' : Nat} {chunks : List OutputChunk},
    (∀ index chunk, chunks[index]? = some chunk → Cuts manifest (from' + index) chunk) → Ordered manifest from' chunks
  | _, [], _ => trivial
  | from', chunk :: rest, cuts => by
    refine ⟨cuts 0 chunk rfl, ordered_of_get fun index other found => ?_⟩
    have later := cuts (index + 1) other found
    rwa [Nat.add_right_comm, Nat.add_assoc]

/-- A result goes as it is, or in all the chunks of its manifest. -/
theorem deliveredEvent_chunks (lawful : LawfulWire) {sent : TaskEvent} {cuts : List (Except Error OutputChunk)}
    (ends : terminal event = true) (made : deliveredEvent s x task event = .ok (sent, cuts)) :
    (manifestOf sent = none ∧ cuts = []) ∨ ∃ manifest, manifestOf sent = some manifest ∧ cuts.length = ResultWire.count manifest ∧
      ResultWire.count manifest ≤ 64 ∧ ∀ index chunk, cuts[index]? = some (.ok chunk) → Cuts manifest index chunk := by
  cases event with
  | collectionResult body =>
    obtain ⟨offer, -, made⟩ := bind_ok.mp made
    by_cases other : offer.payload.kind ≠ .collection
    · rw [if_pos other] at made
      cases made
    rw [if_neg other] at made
    obtain ⟨now, -, made⟩ := bind_ok.mp made
    obtain ⟨_, -, made⟩ := bind_ok.mp made
    by_cases big : ResultWire.outputChunkBytes < body.toUTF8.toList.length ∧ ResultWire.requiresInline offer.payload = false
    · rw [if_pos big] at made
      obtain ⟨⟨manifest, cuts⟩, collected, same⟩ := bind_ok.mp made
      cases same
      obtain ⟨manifest', named, same⟩ := bind_ok.mp collected
      cases same
      obtain ⟨counted, bounded⟩ := lawful.counted _ _ named
      refine .inr ⟨manifest, rfl, ?_, bounded, fun index chunk found => ?_⟩
      · rw [List.length_map, List.length_zipIdx, counted]
      · obtain ⟨⟨part, place⟩, there, cut⟩ := List.getElem?_eq_some_iff.mp found |>.elim fun small same => by
          rw [List.getElem_map, List.getElem_zipIdx, Nat.zero_add] at same
          exact (⟨(_, _), rfl, same⟩ : ∃ pair : List UInt8 × Nat, pair.2 = index ∧ ResultWire.newChunk manifest pair.2 pair.1 = .ok chunk)
        exact there ▸ lawful.newChunk _ _ _ _ cut
    · rw [if_neg big] at made
      cases made
      exact .inl ⟨rfl, rfl⟩
  | result body =>
    unfold deliveredEvent at made
    dsimp only at made
    split at made
    · obtain ⟨⟨reference, manifest, chunks⟩, parts, same⟩ := bind_ok.mp made
      cases same
      obtain ⟨length, bounded, cuts⟩ := lawful.split _ _ _ _ parts
      refine .inr ⟨manifest, rfl, (List.length_map _).trans length, bounded, fun index chunk found => cuts index chunk ?_⟩
      rw [List.getElem?_map] at found
      obtain ⟨other, there, same⟩ := Option.map_eq_some_iff.mp found
      cases same
      exact there
    · cases made
      exact .inl ⟨rfl, rfl⟩
  | cancelled | unmanageResult | enrollmentResult | credentialResult | deviceAccessResult | softwareResult =>
    cases made
    exact .inl ⟨rfl, rfl⟩
  | received | start | outputChunk | chunkedResult | chunkedCollectionResult | credentialEscrow | deviceAccessPrepared => cases ends

def Accessible (x : Exchange) (key : RequestKey) : Prop :=
  x.io (.request key) = true ∧ x.io (.count key) = true ∧ x.io (.insert key) = true

instance (x : Exchange) (key : RequestKey) : Decidable (Accessible x key) :=
  inferInstanceAs (Decidable (_ ∧ _ ∧ _))

def Fits (cfg : Config) (s : Store) (x : Exchange) (keys : List RequestKey) : Prop :=
  x.executionContext.isOk = true ∧ (∀ key ∈ keys, Accessible x key) ∧ s.requests.entries.length + keys.length ≤ cfg.pendingTasks * 70

instance (cfg : Config) (s : Store) (x : Exchange) (keys : List RequestKey) : Decidable (Fits cfg s x keys) :=
  inferInstanceAs (Decidable (_ ∧ _ ∧ _))

def neededKeys (task attempt : Uuid) (candidate : String) (chunks : List OutputChunk) : List RequestKey :=
  chunks.map (.chunk task attempt ·.index) ++ [.result task candidate]

def Unbegun (cfg : Config) (s : Store) (x : Exchange) (task attempt : Uuid) (cuts : List (Except Error OutputChunk)) : Prop :=
  ∀ chunk, cuts.head? = some (.ok chunk) → ¬Fits cfg s x [.chunk task attempt chunk.index]

def Finished (cfg : Config) (s : Store) (x : Exchange) (task attempt : Uuid) (candidate : String)
    (cuts : List (Except Error OutputChunk)) : Prop :=
  ∃ chunks : List OutputChunk, cuts = chunks.map .ok ∧ Fits cfg s x (neededKeys task attempt candidate chunks)

def Uninterrupted (cfg : Config) (s : Store) (x : Exchange) : Call → Prop
  | .freezeResult b candidate events event => freezable s x b candidate events event = .ok () →
    ∀ sent cuts, deliveredEvent s x b.task event = .ok (sent, cuts) →
      Unbegun cfg s x b.task b.attempt cuts ∨ Finished cfg s x b.task b.attempt candidate cuts
  | _ => True

omit [ResultWire] in
theorem eventRequest_fits {source : Option (List String)} {context : String} (known : x.executionContext = .ok context)
    (accessible : Accessible x key) (room : s.requests.entries.length < cfg.pendingTasks * 70) (absent : s.requests.get key = none) :
    eventRequest cfg s x key task attempt event source =
      .ok ({ s with requests := s.requests.set ⟨key, task, source, ⟨x.operation key, attempt, event, context⟩, false⟩ },
        ⟨x.operation key, attempt, event, context⟩) := by
  obtain ⟨request, count, insert⟩ := accessible
  unfold eventRequest Exchange.touch
  rw [if_pos request, absent, if_pos count, if_pos insert, known]
  show (if cfg.pendingTasks * 70 ≤ s.requests.entries.length then _ else _) = _
  rw [if_neg (Nat.not_le.mpr room)]
  rfl

omit [ResultWire] in
theorem eventRequest_refused {source : Option (List String)} (absent : s.requests.get key = none) (full : ¬Fits cfg s x [key]) :
    ∃ error, eventRequest cfg s x key task attempt event source = .error error := by
  cases made : eventRequest cfg s x key task attempt event source with
  | error error => exact ⟨error, rfl⟩
  | ok answer =>
    refine absurd ?_ full
    rcases eventRequest_ok made with ⟨row, found, -⟩ | ⟨-, accessible, room, context, known, -⟩
    · rw [absent] at found
      cases found
    · refine ⟨by rw [known]; rfl, fun other mem => ?_, ?_⟩
      · rw [List.mem_singleton.mp mem]
        exact accessible
      · rw [List.length_singleton]
        omega

def chunkRow (x : Exchange) (task attempt : Uuid) (context : String) (chunk : OutputChunk) : RequestRow :=
  ⟨.chunk task attempt chunk.index, task, none,
    ⟨x.operation (.chunk task attempt chunk.index), attempt, .outputChunk chunk, context⟩, false⟩

omit [ResultWire] in
theorem freezeChunks_fits {context : String} (known : x.executionContext = .ok context) : ∀ (chunks : List OutputChunk) (s : Store),
    (chunks.map (·.index)).Nodup → (∀ chunk ∈ chunks, Accessible x (.chunk task attempt chunk.index)) →
    (∀ chunk ∈ chunks, s.requests.get (.chunk task attempt chunk.index) = none) →
    s.requests.entries.length + chunks.length ≤ cfg.pendingTasks * 70 →
    freezeChunks cfg x task attempt (chunks.map .ok) s =
        ({ s with requests := s.requests.setAll (chunks.map (chunkRow x task attempt context)) }, .ok ()) ∧
      (s.requests.setAll (chunks.map (chunkRow x task attempt context))).entries.length = s.requests.entries.length + chunks.length
  | [], s, _, _, _, _ => ⟨rfl, rfl⟩
  | chunk :: rest, s, distinct, accessible, absent, room => by
    rw [List.map_cons, List.nodup_cons] at distinct
    rw [List.length_cons] at room
    obtain ⟨here, later⟩ := List.forall_mem_cons.mp accessible
    obtain ⟨free, freeLater⟩ := List.forall_mem_cons.mp absent
    have inserted : eventRequest cfg s x (.chunk task attempt chunk.index) task attempt (.outputChunk chunk) none = _ :=
      eventRequest_fits known here (by omega) free
    let t : Store := { s with requests := s.requests.set (chunkRow x task attempt context chunk) }
    have longer : t.requests.entries.length = s.requests.entries.length + 1 := by
      have none : s.requests.has (chunkRow x task attempt context chunk).key = false := by
        show (s.requests.get (.chunk task attempt chunk.index)).isSome = false
        rw [free]
        rfl
      show (s.requests.set _).entries.length = _
      rw [Rows.entries_set_absent none, List.length_append, List.length_singleton]
    obtain ⟨done, length⟩ := freezeChunks_fits known rest t distinct.2 later (fun other mem => by
      show (s.requests.set _).get _ = none
      rw [Rows.get_set_ne]
      · exact freeLater other mem
      · intro same
        refine distinct.1 (List.mem_map.mpr ⟨other, mem, ?_⟩)
        exact (RequestKey.chunk.inj same).2.2) (by omega)
    constructor
    · rw [List.map_cons, freezeChunks, inserted]
      exact done
    · exact length.trans (by rw [longer, List.length_cons]; omega)

omit [ResultWire] in
theorem Ordered.distinct {manifest : OutputManifest} {chunks : List OutputChunk} {context : String} (ordered : Ordered manifest 0 chunks) :
    ((chunks.map (chunkRow x task attempt context)).map RequestRow.key).Nodup := by
  have keys : (chunks.map (chunkRow x task attempt context)).map RequestRow.key = (chunks.map (·.index)).map (.chunk task attempt) := by
    rw [List.map_map, List.map_map]
    rfl
  have range : (List.range' 0 chunks.length).Nodup := List.nodup_range'
  rw [keys, ordered.indices]
  exact range.map fun _ _ same => (RequestKey.chunk.inj same).2.2

omit [ResultWire] in
theorem eventRequest_absent {source : Option (List String)} (absent : s.requests.get key = none)
    (made : eventRequest cfg s x key task attempt event source = .ok (t, request)) :
    request.attemptId = attempt ∧ request.event = event ∧
      t = { s with requests := s.requests.set ⟨key, task, source, request, false⟩ } := by
  rcases eventRequest_ok made with ⟨row, found, -⟩ | ⟨-, -, -, context, -, rfl, same⟩
  · rw [absent] at found
    cases found
  · exact ⟨rfl, rfl, same⟩

theorem Whole.delivered (whole : Whole r) (delivered : r.Delivered task) :
    (∀ attempt index, r.requests.get (.chunk task attempt index) = none) ∧
      ∀ candidate, r.requests.get (.result task candidate) = none ∨ ∃ row, r.requests.get (.result task candidate) = some row ∧ row.task ≠ task := by
  constructor
  · intro attempt index
    cases found : r.requests.get (.chunk task attempt index) with
    | none => rfl
    | some row =>
      obtain ⟨-, chunk, result, -, -, stored, work, -, names, -⟩ := whole.owned row (Rows.get_mem found) task attempt index (Rows.get_key found)
      have sourced := (whole.complete result stored _ names).1
      rw [delivered result stored work] at sourced
      cases sourced
  · intro candidate
    cases found : r.requests.get (.result task candidate) with
    | none => exact .inl rfl
    | some row =>
      refine .inr ⟨row, rfl, fun same => ?_⟩
      have sourced := whole.results row (Rows.get_mem found) task candidate (Rows.get_key found)
      rw [delivered row (Rows.get_mem found) same] at sourced
      cases sourced

theorem result_absent (whole : Whole r) (coherent : r.Coherent) (delivered : r.Delivered task) (candidate : String) :
    r.requests.get (.result task candidate) = none := by
  rcases (whole.delivered delivered).2 candidate with absent | ⟨row, found, other⟩
  · exact absent
  · have keyed := coherent.keyed row (Rows.get_mem found)
    rw [Rows.get_key found] at keyed
    exact absurd (Option.some.inj keyed).symm other

/-- All chunks and the result that names them are inserted where none of them was. -/
theorem Whole.frozen (whole : Whole r) {manifest : OutputManifest} {chunks : List OutputChunk} {context : String} {result : RequestRow}
    {candidate : String} (ordered : Ordered manifest 0 chunks) (length : chunks.length = ResultWire.count manifest)
    (bounded : ResultWire.count manifest ≤ 64) (absent : ∀ index, r.requests.get (.chunk task attempt index) = none)
    (fresh : r.requests.get (.result task candidate) = none) (key : result.key = .result task candidate) (work : result.task = task)
    (mine : result.body.attemptId = attempt) (names : manifestOf result.body.event = some manifest) (sourced : result.source.isSome = true)
    (same : v.requests = (r.requests.setAll (chunks.map (chunkRow x task attempt context))).set result) : Whole v := by
  have indices : ∀ chunk ∈ chunks, chunk.index < ResultWire.count manifest := by
    intro chunk mem
    have inside : chunk.index ∈ chunks.map (·.index) := List.mem_map.mpr ⟨chunk, mem, rfl⟩
    rw [ordered.indices, length] at inside
    simpa using inside
  have distinct : ((chunks.map (chunkRow x task attempt context)).map RequestRow.key).Nodup := ordered.distinct
  have cases' : ∀ {row}, row ∈ v.requests.entries → row = result ∨ (∃ chunk ∈ chunks, row = chunkRow x task attempt context chunk) ∨
      row ∈ r.requests.entries := by
    intro row mem
    rw [same] at mem
    rcases Rows.mem_set.mp mem with rfl | ⟨early, -⟩
    · exact .inl rfl
    · rcases Rows.get_setAll_cases distinct (Rows.get_of_mem early) with ⟨placed, -⟩ | ⟨-, old⟩
      · obtain ⟨chunk, mem, made⟩ := List.mem_map.mp placed
        exact .inr (.inl ⟨chunk, mem, made.symm⟩)
      · exact .inr (.inr (Rows.get_mem old))
  have stored : result ∈ v.requests.entries := by
    rw [same]
    exact Rows.mem_set.mpr (.inl rfl)
  have kept : ∀ {row}, row ∈ r.requests.entries → v.requests.get row.key = some row := by
    intro row mem
    have known : r.requests.get row.key = some row := Rows.get_of_mem mem
    rw [same, Rows.get_set_ne, Rows.get_setAll_absent distinct]
    · exact known
    · intro inside
      obtain ⟨chunk, mem, key⟩ := List.mem_map.mp inside
      obtain ⟨c, -, rfl⟩ := List.mem_map.mp mem
      rw [← key] at known
      exact nomatch known.symm.trans (absent c.index)
    · rw [key]
      intro clash
      rw [clash] at known
      exact nomatch known.symm.trans fresh
  have placed : ∀ chunk ∈ chunks, v.requests.get (.chunk task attempt chunk.index) = some (chunkRow x task attempt context chunk) := by
    intro chunk mem
    rw [same, Rows.get_set_ne]
    · exact Rows.get_setAll_mem distinct (List.mem_map.mpr ⟨chunk, mem, rfl⟩)
    · rw [key]
      nofun
  constructor
  · intro row mem task' attempt' index named
    rcases cases' mem with rfl | ⟨chunk, inside, rfl⟩ | old
    · rw [key] at named
      cases named
    · cases named
      refine ⟨rfl, chunk, result, rfl, rfl, stored, work, mine, ?_, ?_⟩
      · rw [names, ordered.manifest chunk inside]
      · rw [ordered.manifest chunk inside]
        exact indices chunk inside
    · obtain ⟨none, chunk, other, event, cut, present, rest⟩ := whole.owned row old task' attempt' index named
      exact ⟨none, chunk, other, event, cut, Rows.get_mem (kept present), rest⟩
  · intro other mem manifest' named
    rcases cases' mem with rfl | ⟨chunk, inside, rfl⟩ | old
    · cases names.symm.trans named
      refine ⟨sourced, bounded, fun index small => ?_⟩
      have inside : index ∈ chunks.map (·.index) := by
        rw [ordered.indices, length]
        simpa using small
      obtain ⟨chunk, mem, rfl⟩ := List.mem_map.mp inside
      rw [work, mine]
      exact Rows.has_iff.mpr ⟨_, placed chunk mem⟩
    · cases named
    · obtain ⟨some, bounded, all⟩ := whole.complete other old manifest' named
      refine ⟨some, bounded, fun index small => ?_⟩
      obtain ⟨row, found⟩ := Rows.has_iff.mp (all index small)
      have again := kept (Rows.get_mem found)
      rw [Rows.get_key found] at again
      exact Rows.has_iff.mpr ⟨row, again⟩
  · intro row mem task' candidate' named
    rcases cases' mem with rfl | ⟨chunk, -, rfl⟩ | old
    · exact sourced
    · cases named
    · exact whole.results row old task' candidate' named

/-- The result is stored, with all the chunks that it names. -/
structure Complete (t : Store) (f : FrozenResult) : Prop where
  result : t.requests.get f.key = some ⟨f.key, f.association.task, some f.events, f.request, false⟩
  attempt : f.request.attemptId = f.association.attempt
  chunks : ∀ manifest, manifestOf f.request.event = some manifest → ∀ index < ResultWire.count manifest, ∃ row chunk,
    t.requests.get (.chunk f.association.task f.association.attempt index) = some row ∧ row.body.event = .outputChunk chunk ∧
      row.body.attemptId = f.association.attempt ∧ Cuts manifest index chunk

theorem Whole.result (whole : Whole (records t)) (coherent : (records t).Coherent) {f : FrozenResult}
    (found : t.requests.get f.key = some ⟨f.key, f.association.task, some f.events, f.request, false⟩)
    (attempt : f.request.attemptId = f.association.attempt) : Complete t f := by
  refine ⟨found, attempt, fun manifest names index small => ?_⟩
  obtain ⟨-, -, all⟩ := whole.complete _ (Rows.get_mem found) manifest names
  obtain ⟨row, there⟩ := Rows.has_iff.mp (all index small)
  have mem := Rows.get_mem there
  rw [← attempt]
  obtain ⟨-, chunk, other, event, cut, stored, work, mine, same, -⟩ := whole.owned row mem _ _ index (Rows.get_key there)
  have sourced := (whole.complete other stored _ same).1
  -- The chunk belongs to a result of the task, and the task has one.
  have key := coherent.single other stored _ (Rows.get_mem found) sourced rfl work
  have one := List.inj_on_of_nodup_map t.requests.distinct stored (Rows.get_mem found) key
  rw [one] at same
  cases names.symm.trans same
  have keyed := coherent.keyed row mem
  rw [Rows.get_key there] at keyed
  have owned := coherent.owned row mem
  rw [← Option.some.inj keyed] at owned
  have resultOwned := coherent.owned _ (Rows.get_mem found)
  exact ⟨row, chunk, there, event, Option.some.inj (owned.symm.trans resultOwned), rfl, cut⟩

variable {b : Binding} {candidate : String} {events : List String}

theorem freezable_terminal (free : freezable s x b candidate events event = .ok ()) : terminal event = true := by
  unfold freezable at free
  simp only [bind_ok] at free
  obtain ⟨⟨⟩, -, -, -, ⟨⟩, -, free⟩ := free
  split at free
  · cases free
  · rename_i checked
    simp only [not_or] at checked
    exact (Bool.not_eq_false _).mp checked.2.2.2.2

def Delivers (s : Store) (b : Binding) (candidate : String) (events : List String) (outcome : Store × Except Error TaskEventRequest) : Prop :=
  (outcome.1 = s ∧ ∃ error, outcome.2 = .error error) ∨
    (Whole (records outcome.1) ∧ ∃ request, outcome.2 = .ok request ∧ request.attemptId = b.attempt ∧
      outcome.1.requests.get (.result b.task candidate) = some ⟨.result b.task candidate, b.task, some events, request, false⟩)

def resulted (b : Binding) (candidate : String) (events : List String) (request : TaskEventRequest) (s : Store) : Store :=
  { s with requests := s.requests.set ⟨.result b.task candidate, b.task, some events, request, false⟩ }

/-- The result goes after its chunks. -/
def afterChunks (cfg : Config) (x : Exchange) (b : Binding) (candidate : String) (events : List String) (sent : TaskEvent) :
    Store × Except Error Unit → Store × Except Error TaskEventRequest
  | (t, .error e) => (t, .error e)
  | (t, .ok ()) =>
    match eventRequest cfg t x (.result b.task candidate) b.task b.attempt sent (some events) with
    | .error e => (t, .error e)
    | .ok (u, request) => (u, .ok request)

theorem deliveryRequest_eq {sent : TaskEvent} {cuts : List (Except Error OutputChunk)}
    (made : deliveredEvent s x b.task event = .ok (sent, cuts)) :
    deliveryRequest cfg s x (.result b.task candidate) b.task b.attempt event events =
      afterChunks cfg x b candidate events sent (freezeChunks cfg x b.task b.attempt cuts s) := by
  unfold deliveryRequest
  rw [made]
  rfl

theorem afterChunks_delivers {sent : TaskEvent} (absent : s.requests.get (.result b.task candidate) = none)
    (build : ∀ request : TaskEventRequest, request.attemptId = b.attempt → request.event = sent →
      Whole (records (resulted b candidate events request s))) :
    Delivers s b candidate events (afterChunks cfg x b candidate events sent (s, .ok ())) := by
  unfold afterChunks
  dsimp only
  cases inserted : eventRequest cfg s x (.result b.task candidate) b.task b.attempt sent (some events) with
  | error error => exact .inl ⟨rfl, error, rfl⟩
  | ok answer =>
    obtain ⟨u, request⟩ := answer
    obtain ⟨mine, event, same⟩ := eventRequest_absent absent inserted
    rw [same]
    exact .inr ⟨build request mine event, request, rfl, mine, Rows.get_set_self⟩

theorem Whole.plain (whole : Whole (records s)) (fresh : s.requests.get (.result b.task candidate) = none)
    (free : s.bindings.get b.task = some b ∧ (records s).attempt b.task = some b.attempt ∧ s.projections.get b.task = none ∧
      (records s).Delivered b.task) (mine : request.attemptId = b.attempt) (names : manifestOf request.event = none) :
    Whole (records (resulted b candidate events request s)) := by
  obtain ⟨bound, owned, unprojected, delivered⟩ := free
  have grows : Grows (records s) (records (resulted b candidate events request s)) := by
    refine .insert ⟨.result b.task candidate, b.task, some events, request, false⟩ fresh rfl rfl (mine ▸ owned) fun _ => ?_
    refine ⟨⟨candidate, rfl⟩, Rows.has_iff.mpr ⟨b, bound⟩, ?_, delivered⟩
    show (s.projections.get b.task).isSome = false
    rw [unprojected]
    rfl
  refine whole.adds (.single grows) fun row mem => ?_
  rcases Rows.mem_set.mp mem with rfl | ⟨early, -⟩
  · exact .inr ⟨fun _ _ _ same => (by cases same), names, fun _ _ _ => rfl⟩
  · exact .inl ⟨row, early, .inl rfl⟩

omit [ResultWire] in
theorem freezeChunks_unbegun {cut : Except Error OutputChunk} {rest : List (Except Error OutputChunk)}
    (absent : ∀ index, s.requests.get (.chunk task attempt index) = none) (unbegun : Unbegun cfg s x task attempt (cut :: rest)) :
    ∃ error, freezeChunks cfg x task attempt (cut :: rest) s = (s, .error error) := by
  cases cut with
  | error e => exact ⟨e, rfl⟩
  | ok chunk =>
    obtain ⟨error, refused⟩ : ∃ error, eventRequest cfg s x (.chunk task attempt chunk.index) task attempt (.outputChunk chunk) none =
      .error error := eventRequest_refused (absent chunk.index) (unbegun chunk rfl)
    refine ⟨error, ?_⟩
    rw [freezeChunks, refused]

/-- All chunks and the result are inserted where they fit. -/
theorem chunks_fit (whole : Whole (records s)) (coherent : (records s).Coherent) (delivered : (records s).Delivered b.task)
    {sent : TaskEvent} {manifest : OutputManifest} {chunks : List OutputChunk} (names : manifestOf sent = some manifest)
    (ordered : Ordered manifest 0 chunks) (length : chunks.length = ResultWire.count manifest) (bounded : ResultWire.count manifest ≤ 64)
    (fits : Fits cfg s x (neededKeys b.task b.attempt candidate chunks)) :
    ∃ t request, afterChunks cfg x b candidate events sent (freezeChunks cfg x b.task b.attempt (chunks.map .ok) s) = (t, .ok request) ∧
      Whole (records t) ∧ request.attemptId = b.attempt ∧
      t.requests.get (.result b.task candidate) = some ⟨.result b.task candidate, b.task, some events, request, false⟩ := by
  obtain ⟨known, accessible, room⟩ := fits
  have absent := (whole.delivered delivered).1 b.attempt
  have fresh := result_absent whole coherent delivered candidate
  cases context : x.executionContext with
  | error e =>
    rw [context] at known
    cases known
  | ok value =>
    rw [neededKeys, List.length_append, List.length_map, List.length_singleton] at room
    have distinct : (chunks.map (·.index)).Nodup := by
      rw [ordered.indices]
      exact List.nodup_range'
    obtain ⟨done, longer⟩ := freezeChunks_fits context chunks s distinct
      (fun chunk mem => accessible _ (List.mem_append_left _ (List.mem_map.mpr ⟨chunk, mem, rfl⟩)))
      (fun chunk _ => absent chunk.index) (by omega : _ + _ ≤ cfg.pendingTasks * 70)
    rw [done]
    let t : Store := { s with requests := s.requests.setAll (chunks.map (chunkRow x b.task b.attempt value)) }
    have still : t.requests.get (.result b.task candidate) = none := by
      show (s.requests.setAll _).get _ = none
      rw [Rows.get_setAll_absent ordered.distinct]
      · exact fresh
      · intro inside
        obtain ⟨row, mem, key⟩ := List.mem_map.mp inside
        obtain ⟨chunk, -, rfl⟩ := List.mem_map.mp mem
        cases key
    have result : eventRequest cfg t x (.result b.task candidate) b.task b.attempt sent (some events) = _ :=
      eventRequest_fits context (accessible _ (List.mem_append_right _ (List.mem_singleton_self _)))
        (by show (s.requests.setAll _).entries.length < _; rw [longer]; omega) still
    let request : TaskEventRequest := ⟨x.operation (.result b.task candidate), b.attempt, sent, value⟩
    refine ⟨resulted b candidate events request t, request, ?_, ?_, rfl, Rows.get_set_self⟩
    · show afterChunks cfg x b candidate events sent (t, .ok ()) = _
      unfold afterChunks
      dsimp only
      rw [result]
      rfl
    · exact whole.frozen ordered length bounded absent fresh rfl rfl rfl names rfl rfl

theorem chunks_deliver (whole : Whole (records s)) (coherent : (records s).Coherent) (delivered : (records s).Delivered b.task)
    {sent : TaskEvent} {manifest : OutputManifest} {cuts : List (Except Error OutputChunk)} (names : manifestOf sent = some manifest)
    (length : cuts.length = ResultWire.count manifest) (bounded : ResultWire.count manifest ≤ 64)
    (ordered : ∀ index chunk, cuts[index]? = some (.ok chunk) → Cuts manifest index chunk)
    (uninterrupted : Unbegun cfg s x b.task b.attempt cuts ∨ Finished cfg s x b.task b.attempt candidate cuts) :
    Delivers s b candidate events (afterChunks cfg x b candidate events sent (freezeChunks cfg x b.task b.attempt cuts s)) := by
  have absent := (whole.delivered delivered).1 b.attempt
  have fresh := result_absent whole coherent delivered candidate
  rcases uninterrupted with unbegun | ⟨chunks, rfl, fits⟩
  · cases cuts with
    | nil =>
      refine afterChunks_delivers fresh fun request mine event => ?_
      have none : Ordered manifest 0 [] := trivial
      have same : (records (resulted b candidate events request s)).requests =
          (s.requests.setAll (([] : List OutputChunk).map (chunkRow x b.task b.attempt ""))).set
            ⟨.result b.task candidate, b.task, some events, request, false⟩ := rfl
      exact whole.frozen none length bounded absent fresh rfl rfl mine (event ▸ names) rfl same
    | cons cut rest =>
      obtain ⟨error, failed⟩ := freezeChunks_unbegun absent unbegun
      rw [failed]
      exact .inl ⟨rfl, error, rfl⟩
  · have cut : Ordered manifest 0 chunks := ordered_of_get fun index chunk found => by
      rw [Nat.zero_add]
      refine ordered index chunk ?_
      rw [List.getElem?_map, found]
      rfl
    rw [List.length_map] at length
    obtain ⟨t, request, done, kept, mine, found⟩ := chunks_fit whole coherent delivered names cut length bounded fits
    rw [done]
    exact .inr ⟨kept, request, rfl, mine, found⟩

theorem freezeResult_whole (lawful : LawfulWire) (whole : Whole (records s)) (coherent : (records s).Coherent)
    (uninterrupted : Uninterrupted cfg s x (.freezeResult b candidate events event)) :
    ((freezeResult cfg s x b candidate events event).1 = s ∧ ∃ error, (freezeResult cfg s x b candidate events event).2 = .error error) ∨
      Whole (records (freezeResult cfg s x b candidate events event).1) ∧
        ∃ f, (freezeResult cfg s x b candidate events event).2 = .ok f ∧ f.association = b ∧ f.request.attemptId = b.attempt ∧
          (freezeResult cfg s x b candidate events event).1.requests.get f.key = some ⟨f.key, b.task, some f.events, f.request, false⟩ := by
  unfold freezeResult
  cases free : freezable s x b candidate events event with
  | error error => exact .inl ⟨rfl, error, rfl⟩
  | ok u =>
    have delivered := (freezable_ok free).2.2.2
    have delivers : Delivers s b candidate events (deliveryRequest cfg s x (.result b.task candidate) b.task b.attempt event events) := by
      cases made : deliveredEvent s x b.task event with
      | error error =>
        unfold deliveryRequest
        rw [made]
        exact .inl ⟨rfl, error, rfl⟩
      | ok delivery =>
        obtain ⟨sent, cuts⟩ := delivery
        rw [deliveryRequest_eq made]
        rcases deliveredEvent_chunks lawful (freezable_terminal free) made with ⟨plain, rfl⟩ | ⟨manifest, names, length, bounded, ordered⟩
        · have fresh := result_absent whole coherent delivered candidate
          exact afterChunks_delivers fresh fun request mine event =>
            whole.plain fresh (freezable_ok free) mine (event.symm ▸ plain)
        · exact chunks_deliver whole coherent delivered names length bounded ordered (uninterrupted free sent cuts made)
    dsimp only
    rcases delivers with ⟨same, error, failed⟩ | ⟨kept, request, done, mine, found⟩
    · generalize deliveryRequest cfg s x (.result b.task candidate) b.task b.attempt event events = outcome at same failed
      obtain ⟨t, result⟩ := outcome
      cases same
      cases failed
      exact .inl ⟨rfl, error, rfl⟩
    · generalize deliveryRequest cfg s x (.result b.task candidate) b.task b.attempt event events = outcome at kept done found
      obtain ⟨t, result⟩ := outcome
      cases done
      exact .inr ⟨kept, _, rfl, rfl, mine, found⟩

end Rows

end RssMdmAgent.ResultFreezing
