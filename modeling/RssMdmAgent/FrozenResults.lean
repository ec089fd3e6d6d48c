import RssMdmAgent.ResultFreezing

set_option autoImplicit false

/-! # Frozen results over whole runs -/

namespace RssMdmAgent.ResultFreezing
open OrderedRows TransitionRuns ClientStore RemoteAttempts AttemptRecords AttemptCalls AttemptCoherence
open ContentTransfers (Uuid Error)
open ContractPlan (bind_ok)

section Steps
variable [ResultWire] {cfg : Config} {s t u : Store} {x : Exchange} {a : Act} {acts : List Act} {r v : Records}

theorem fresh_whole (fresh : Fresh s) : Whole (records s) := by
  rw [fresh]
  refine ⟨?_, ?_, ?_⟩ <;> exact fun _ mem => nomatch mem

theorem Whole.claimed {c : ClaimCall} (whole : Whole r) (claimed : Claimed r c v) : Whole v := by
  cases claimed with
  | same => exact whole
  | adopt signed => exact whole.same rfl
  | replace signed => exact (whole.unreceived signed.payload.taskId).same rfl

theorem Whole.retires {ack : ResultAck} (whole : Whole (records s)) (coherent : (records s).Coherent)
    (fits : AttemptCalls.Fits ack) (retired : retireResult s x ack = .ok t) : Whole (records t) := by
  obtain ⟨f, row, acknowledged, found, task, sourced, -, -, gone⟩ := retireResult_ok fits retired
  rw [gone]
  refine whole.retired coherent found task ?_ sourced
  unfold retireResult at retired
  obtain ⟨⟨⟩, valid, -⟩ := bind_ok.mp retired
  obtain ⟨-, -, checks⟩ := validateResultAck_ok valid
  obtain ⟨other, there, work, -, -, -, attempt⟩ := checkResult_ok (checks f acknowledged)
  have owned := coherent.owned row (Rows.get_mem found)
  rw [work] at attempt
  rw [task, attempt] at owned
  exact (Option.some.inj owned).symm

/-- Every call keeps the results whole. The freeze of a result in chunks does if it is not interrupted. -/
theorem step_whole (lawful : LawfulWire) (step : Step cfg s a t) (coherent : (records s).Coherent) (whole : Whole (records s))
    (uninterrupted : Uninterrupted cfg s a.exchange a.call) : Whole (records t) := by
  obtain ⟨-, -, handed, ran⟩ := step
  have store : (run cfg s a.exchange a.call).1 = t := by rw [ran]
  clear ran
  generalize a.call = call at *
  unfold run at store
  cases call with
  | claim c =>
    subst store
    exact whole.claimed (claimTask_claimed s c)
  | received offer =>
    subst store
    exact whole.adds (received_grown handed) received_adds
  | requestStart offer materials =>
    subst store
    exact whole.adds (requestStart_grown handed) requestStart_adds
  | startUserInitiated offer materials =>
    subst store
    exact whole.adds (startInner_grown handed) startInner_adds
  | recoverStart task materials =>
    subst store
    exact whole.adds recoverStart_grown recoverStart_adds
  | reserveAssociation start request digest actor =>
    subst store
    exact whole.same reserveAssociation_requests
  | bindLocalAttempt b attempt =>
    subst store
    exact whole.same bindLocalAttempt_requests
  | freezeResult b candidate events event =>
    subst store
    rcases freezeResult_whole lawful whole coherent uninterrupted with ⟨same, -⟩ | ⟨kept, -⟩
    · show Whole (records (freezeResult cfg s a.exchange b candidate events event).1)
      rw [same]
      exact whole
    · exact kept
  | frozenResultAck f =>
    subst store
    exact whole
  | sendResult f =>
    subst store
    exact whole.adds sendResult_grown sendResult_adds
  | acknowledgedResult b =>
    subst store
    exact whole
  | retireResult ack =>
    dsimp only at store
    split at store
    · rename_i v retired
      subst store
      exact whole.retires coherent handed retired
    · subst store
      exact whole
  | releaseResult ack =>
    subst store
    dsimp only
    rcases releaseResult_cases cfg s a.exchange ack with same | gone
    · rw [same]
      exact whole
    · rw [gone]
      exact whole.released coherent ack.association.task
  | freezeAbandonment task =>
    subst store
    exact whole.adds freezeAbandonment_grown freezeAbandonment_adds
  | sendAbandonment f =>
    subst store
    exact whole.adds sendAbandonment_grown sendAbandonment_adds
  | releaseAbandonment ack =>
    subst store
    dsimp only
    rcases releaseAbandonment_cases s a.exchange ack with same | gone
    · rw [same]
      exact whole
    · rw [gone]
      exact whole.released coherent ack.pending.task

theorem whole_of_run (lawful : LawfulWire) (run : Runs (Step cfg) s acts t) (coherent : (records s).Coherent)
    (whole : Whole (records s)) : (∀ a ∈ acts, Uninterrupted cfg a.before a.exchange a.call) → Whole (records t) := by
  induction run with
  | refl => exact fun _ => whole
  | @next labels t u a earlier step ih =>
    intro uninterrupted
    have here := uninterrupted a (List.mem_append_right _ List.mem_cons_self)
    rw [step.1] at here
    exact step_whole lawful step (coherent_of_run earlier coherent) (ih fun a mem => uninterrupted a (List.mem_append_left _ mem)) here

theorem step_keeps {row : RequestRow} (step : Step cfg s a t) (coherent : (records s).Coherent) (mem : row ∈ s.requests.entries) :
    (∃ now ∈ t.requests.entries, Alike row now) ∨ t.requests.get row.key = none := by
  have retained : ∀ {condition}, t.requests = s.requests.retain condition →
      (∃ now ∈ t.requests.entries, Alike row now) ∨ t.requests.get row.key = none := by
    intro condition same
    rw [same]
    cases kept : condition row with
    | true => exact .inl ⟨row, List.mem_filter.mpr ⟨mem, kept⟩, .inl rfl⟩
    | false =>
      rw [Rows.get_retain, Rows.get_of_mem mem]
      simp [kept]
  have effect := step.effect coherent
  generalize reached : records t = v at effect
  have same : t.requests = v.requests := congrArg Records.requests reached
  cases effect with
  | grow grown =>
    obtain ⟨now, kept, alike⟩ := grown.keeps mem
    exact .inl ⟨now, same ▸ kept, alike⟩
  | adopt => exact .inl ⟨row, same ▸ mem, .inl rfl⟩
  | replace => exact retained same
  | retire => exact retained same
  | release => exact retained same

end Steps

section Sends
variable [ResultWire] {s t : Store} {x y : Exchange} {task attempt : Uuid} {manifest : OutputManifest} {result row : RequestRow}

structure Holds (task attempt : Uuid) (manifest : OutputManifest) (index : Nat) (row : RequestRow) : Prop where
  key : row.key = .chunk task attempt index
  attempt : row.body.attemptId = attempt
  event : ∃ chunk, row.body.event = .outputChunk chunk ∧ Cuts manifest index chunk

theorem Whole.holds (whole : Whole (records t)) (coherent : (records t).Coherent) (stored : result ∈ t.requests.entries)
    (names : manifestOf result.body.event = some manifest) (mem : row ∈ t.requests.entries)
    (chunk : RequestKey.isChunk result.task result.body.attemptId row.key = true) :
    Holds result.task result.body.attemptId manifest (RequestKey.index row.key) row ∧
      RequestKey.index row.key < ResultWire.count manifest := by
  cases key : row.key with
  | chunk task attempt index =>
    rw [key] at chunk
    obtain ⟨rfl, rfl⟩ : task = result.task ∧ attempt = result.body.attemptId := by simpa [RequestKey.isChunk] using chunk
    obtain ⟨-, part, other, event, cut, present, work, mine, named, small⟩ := whole.owned row mem _ _ index key
    have sourced := (whole.complete other present _ named).1
    have waits := (whole.complete result stored _ names).1
    -- A task has one result.
    have one := List.inj_on_of_nodup_map t.requests.distinct present stored
      (coherent.single other present result stored sourced waits work)
    rw [one] at named
    cases names.symm.trans named
    have keyed := coherent.keyed row mem
    rw [key] at keyed
    have owned := coherent.owned row mem
    rw [← Option.some.inj keyed, coherent.owned result stored] at owned
    exact ⟨⟨key, (Option.some.inj owned).symm, part, event, rfl, cut⟩, small⟩
  | _ =>
    rw [key] at chunk
    cases chunk

/-- The rows of a result in chunks are found in the order of their indices, each once. -/
theorem Whole.chunkRows (whole : Whole (records t)) (coherent : (records t).Coherent) (stored : result ∈ t.requests.entries)
    (names : manifestOf result.body.event = some manifest) :
    (chunkRows t result.task result.body.attemptId).length = ResultWire.count manifest ∧
      ∀ index row, (chunkRows t result.task result.body.attemptId)[index]? = some row →
        Holds result.task result.body.attemptId manifest index row := by
  let chosen := t.requests.select fun row => decide (row.task = result.task) &&
    RequestKey.isChunk result.task result.body.attemptId row.key
  let sorted := chosen.insertionSort fun a b => RequestKey.index a.key ≤ RequestKey.index b.key
  have holds : ∀ row ∈ chosen, Holds result.task result.body.attemptId manifest (RequestKey.index row.key) row ∧
      RequestKey.index row.key < ResultWire.count manifest := by
    intro row mem
    obtain ⟨mem, condition⟩ := List.mem_filter.mp mem
    rw [Bool.and_eq_true] at condition
    exact whole.holds coherent stored names mem condition.2
  have distinct : (chosen.map fun row => RequestKey.index row.key).Nodup := by
    refine List.Nodup.map_on ?_ (t.requests.distinct.of_map.filter _)
    intro row mem other present same
    refine List.inj_on_of_nodup_map t.requests.distinct (List.mem_filter.mp mem).1 (List.mem_filter.mp present).1 ?_
    rw [(holds row mem).1.key, (holds other present).1.key, same]
  have indices : (chosen.map fun row => RequestKey.index row.key).Perm (List.range (ResultWire.count manifest)) := by
    refine (List.perm_ext_iff_of_nodup distinct List.nodup_range).mpr fun index => ?_
    rw [List.mem_map, List.mem_range]
    constructor
    · rintro ⟨row, mem, rfl⟩
      exact (holds row mem).2
    · intro small
      obtain ⟨row, found⟩ := Rows.has_iff.mp ((whole.complete result stored manifest names).2.2 index small)
      have key : row.key = .chunk result.task result.body.attemptId index := Rows.get_key found
      have keyed := coherent.keyed row (Rows.get_mem found)
      rw [key] at keyed
      refine ⟨row, List.mem_filter.mpr ⟨Rows.get_mem found, ?_⟩, by rw [key]; rfl⟩
      simp [key, RequestKey.isChunk, ← Option.some.inj keyed]
  have order : sorted.map (fun row => RequestKey.index row.key) = List.range (ResultWire.count manifest) := by
    refine List.Perm.eq_of_pairwise' ?_ List.pairwise_le_range (((List.perm_insertionSort _ chosen).map _).trans indices)
    exact List.pairwise_map.mpr (List.pairwise_insertionSort _ chosen)
  have length : sorted.length = ResultWire.count manifest := by
    rw [← List.length_map (f := fun row => RequestKey.index row.key), order, List.length_range]
  have bounded := (whole.complete result stored manifest names).2.1
  have same : RemoteAttempts.chunkRows t result.task result.body.attemptId = sorted :=
    List.take_of_length_le (by rw [length]; omega)
  rw [same]
  refine ⟨length, fun index row found => ?_⟩
  have mem : row ∈ chosen := (List.mem_insertionSort _).mp (List.mem_of_getElem? found)
  have here : (sorted.map fun row => RequestKey.index row.key)[index]? = some (RequestKey.index row.key) := by
    rw [List.getElem?_map, found]
    rfl
  rw [order] at here
  have place : RequestKey.index row.key = index := by
    obtain ⟨_, value⟩ := List.getElem?_eq_some_iff.mp here
    rw [← value, List.getElem_range]
  exact place ▸ (holds row mem).1

/-- The requests that the loop sends. -/
def sentChunks (x : Exchange) (attempt : Uuid) (manifest : OutputManifest) : List RequestRow → Nat → List RequestKey
  | [], _ => []
  | row :: rest, index =>
    match row.body.event with
    | .outputChunk chunk =>
      if chunk.index ≠ index ∨ chunk.manifest ≠ manifest ∨ row.body.attemptId ≠ attempt then []
      else if row.accepted then sentChunks x attempt manifest rest (index + 1)
      else row.key :: match x.reply row.key with
        | .error _ => []
        | .ok ack =>
          if ack.permit.isSome then []
          else if x.io (.accept row.key) then sentChunks x attempt manifest rest (index + 1)
          else []
    | _ => []

omit [ResultWire] in
/-- What comes of the loop depends on the replies to the requests that it sends. -/
theorem sendChunks_sent (io : y.io = x.io) : ∀ (rows : List RequestRow) (index : Nat) (s : Store),
    (∀ key ∈ sentChunks x attempt manifest rows index, y.reply key = x.reply key) →
      sendChunks y attempt manifest rows index s = sendChunks x attempt manifest rows index s := by
  intro rows
  induction rows with
  | nil => exact fun _ _ _ => rfl
  | cons row rest ih =>
    intro index s replies
    unfold sentChunks at replies
    unfold sendChunks
    split
    · rename_i chunk event
      rw [event] at replies
      dsimp only at replies
      by_cases odd : chunk.index ≠ index ∨ chunk.manifest ≠ manifest ∨ row.body.attemptId ≠ attempt
      · rw [if_pos odd, if_pos odd]
      rw [if_neg odd] at replies ⊢
      rw [if_neg odd]
      cases accepted : row.accepted with
      | true =>
        rw [accepted] at replies
        exact ih (index + 1) s replies
      | false =>
        rw [accepted] at replies
        have here := replies row.key List.mem_cons_self
        have later := fun key mem => replies key (List.mem_cons_of_mem _ mem)
        rw [here, io]
        cases answer : x.reply row.key with
        | error e => rfl
        | ok ack =>
          rw [answer] at later
          dsimp only
          cases permit : ack.permit.isSome with
          | true => rfl
          | false =>
            cases stored : x.io (.accept row.key) with
            | false => rfl
            | true =>
              simp only [permit, stored] at later
              exact ih (index + 1) _ later
    · rfl

omit [ResultWire] in
theorem sentChunks_sublist : ∀ (rows : List RequestRow) (index : Nat),
    (sentChunks x attempt manifest rows index).Sublist ((rows.filter (!·.accepted)).map RequestRow.key) := by
  intro rows
  induction rows with
  | nil => exact fun _ => .slnil
  | cons row rest ih =>
    intro index
    have skip : ((rest.filter (!·.accepted)).map RequestRow.key).Sublist
        (((row :: rest).filter (!·.accepted)).map RequestRow.key) := ((List.sublist_cons_self row rest).filter _).map _
    unfold sentChunks
    split
    · split
      · exact List.nil_sublist _
      split
      · exact (ih (index + 1)).trans skip
      · rename_i accepted
        rw [List.filter_cons_of_pos (by simpa using accepted), List.map_cons]
        refine .cons_cons _ ?_
        split
        · exact List.nil_sublist _
        split
        · exact List.nil_sublist _
        split
        · exact ih (index + 1)
        · exact List.nil_sublist _
    · exact List.nil_sublist _

/-- The chunk requests that a call sends. -/
def sentOutputChunks (s : Store) (x : Exchange) (task : Uuid) (request : TaskEventRequest) : List RequestKey :=
  match manifestOf request.event with
  | none => []
  | some manifest =>
    if x.io .chunks then
      if (chunkRows s task request.attemptId).length ≠ ResultWire.count manifest then []
      else sentChunks x request.attemptId manifest (chunkRows s task request.attemptId) 0
    else []

omit [ResultWire] in
theorem chunkRows_rows : ((chunkRows s task attempt).map RequestRow.key).Nodup ∧
    ∀ row ∈ chunkRows s task attempt, row ∈ s.requests.entries := by
  have perm := List.perm_insertionSort (fun a b : RequestRow => RequestKey.index a.key ≤ RequestKey.index b.key)
    (s.requests.select fun row => decide (row.task = task) && RequestKey.isChunk task attempt row.key)
  constructor
  · refine List.Nodup.sublist ((List.take_sublist 65 _).map _) ((perm.map _).nodup_iff.mpr ?_)
    exact s.requests.distinct.sublist (List.filter_sublist.map _)
  · exact fun row mem => (List.mem_filter.mp (perm.mem_iff.mp (List.mem_of_mem_take mem))).1

theorem sentOutputChunks_once {request : TaskEventRequest} : (sentOutputChunks s x task request).Nodup ∧
    ∀ key ∈ sentOutputChunks s x task request, ∃ row, s.requests.get key = some row ∧ row.accepted = false := by
  have sent : (sentOutputChunks s x task request).Sublist
      (((chunkRows s task request.attemptId).filter (!·.accepted)).map RequestRow.key) := by
    unfold sentOutputChunks
    split
    · exact List.nil_sublist _
    split
    · split
      · exact List.nil_sublist _
      · exact sentChunks_sublist _ 0
    · exact List.nil_sublist _
  obtain ⟨distinct, rows⟩ : ((chunkRows s task request.attemptId).map RequestRow.key).Nodup ∧ _ := chunkRows_rows
  refine ⟨(sent.trans (List.filter_sublist.map _)).nodup distinct, fun key mem => ?_⟩
  obtain ⟨row, kept, rfl⟩ := List.mem_map.mp (sent.subset mem)
  obtain ⟨mem, waits⟩ := List.mem_filter.mp kept
  exact ⟨row, Rows.get_of_mem (rows row mem), by simpa using waits⟩

theorem sendOutputChunks_sent {request : TaskEventRequest} (io : y.io = x.io)
    (replies : ∀ key ∈ sentOutputChunks s x task request, y.reply key = x.reply key) :
    sendOutputChunks s y task request = sendOutputChunks s x task request := by
  have send : ∀ manifest, manifestOf request.event = some manifest →
      (if !y.io .chunks then (s, .error .storage)
        else
          let rows := chunkRows s task request.attemptId
          if rows.length ≠ ResultWire.count manifest then (s, .error .storage)
          else sendChunks y request.attemptId manifest rows 0 s : Store × Except Error Unit) =
        if !x.io .chunks then (s, .error .storage)
        else
          let rows := chunkRows s task request.attemptId
          if rows.length ≠ ResultWire.count manifest then (s, .error .storage)
          else sendChunks x request.attemptId manifest rows 0 s := by
    intro manifest names
    unfold sentOutputChunks at replies
    rw [names] at replies
    dsimp only at replies ⊢
    rw [io]
    cases accessible : x.io .chunks with
    | false => rfl
    | true =>
      rw [accessible, if_pos rfl] at replies
      by_cases short : (chunkRows s task request.attemptId).length ≠ ResultWire.count manifest
      · rw [if_pos short, if_pos short]
      · rw [if_neg short] at replies
        rw [if_neg short, if_neg short]
        exact congrArg (ite _ _) (sendChunks_sent io _ 0 s replies)
  unfold sendOutputChunks
  dsimp only
  split
  · rename_i event
    exact send _ (by rw [event]; rfl)
  · rename_i event
    exact send _ (by rw [event]; rfl)
  · rfl

end Sends

section Freezes
variable [ResultWire] {cfg : Config} {t : Store} {x : Exchange} {b : Binding} {candidate : String} {events : List String}
  {event sent : TaskEvent} {chunks : List OutputChunk}

/-- Nothing that is stored is in the way of a result that may be frozen and fits. -/
theorem freezeResult_succeeds (lawful : LawfulWire) (whole : Whole (records t)) (coherent : (records t).Coherent)
    (free : freezable t x b candidate events event = .ok ())
    (made : deliveredEvent t x b.task event = .ok (sent, chunks.map .ok))
    (fits : Fits cfg t x (neededKeys b.task b.attempt candidate chunks)) :
    ∃ f, (freezeResult cfg t x b candidate events event).2 = .ok f := by
  have delivered := (freezable_ok free).2.2.2
  obtain ⟨u, request, done⟩ : ∃ u request,
      deliveryRequest cfg t x (.result b.task candidate) b.task b.attempt event events = (u, .ok request) := by
    rw [deliveryRequest_eq made]
    rcases deliveredEvent_chunks lawful (freezable_terminal free) made with ⟨-, none⟩ | ⟨manifest, names, length, bounded, cuts⟩
    · rw [List.map_eq_nil_iff] at none
      subst none
      obtain ⟨known, accessible, room⟩ := fits
      cases context : x.executionContext with
      | error e =>
        rw [context] at known
        cases known
      | ok value =>
        have result : eventRequest cfg t x (.result b.task candidate) b.task b.attempt sent (some events) = _ :=
          eventRequest_fits context (accessible _ (List.mem_singleton_self _)) (by
            simp only [neededKeys, List.map_nil, List.nil_append, List.length_singleton] at room
            omega) (result_absent whole coherent delivered candidate)
        let request : TaskEventRequest := ⟨x.operation (.result b.task candidate), b.attempt, sent, value⟩
        refine ⟨resulted b candidate events request t, request, ?_⟩
        show afterChunks cfg x b candidate events sent (t, .ok ()) = _
        unfold afterChunks
        dsimp only
        rw [result]
        rfl
    · rw [List.length_map] at length
      have ordered : Ordered manifest 0 chunks := ordered_of_get fun index chunk found => by
        rw [Nat.zero_add]
        refine cuts index chunk ?_
        rw [List.getElem?_map, found]
        rfl
      obtain ⟨u, request, done, -⟩ := chunks_fit whole coherent delivered names ordered length bounded fits
      exact ⟨u, request, done⟩
  refine ⟨⟨x.owner, b, .result b.task candidate, request, events⟩, ?_⟩
  unfold freezeResult
  rw [free]
  dsimp only
  rw [done]

/-- In every run from a fresh store whose freezes of results in chunks are not interrupted between their first row and
their last: a further such freeze stores the result with all its chunks or leaves the store as it was, and one that
fits is not refused; a stored request keeps its operation until it is deleted; the chunks of a stored result are found
in order, each once; and a call sends a chunk at most once, and only if it is not stored as accepted. -/
theorem frozen_results_whole (cfg : Config) (lawful : LawfulWire) {s t : Store} {acts : List Act} (fresh : Fresh s)
    (run : Runs (Step cfg) s acts t) (uninterrupted : ∀ a ∈ acts, Uninterrupted cfg a.before a.exchange a.call) :
    (∀ x b candidate events event, Uninterrupted cfg t x (.freezeResult b candidate events event) →
      ((freezeResult cfg t x b candidate events event).1 = t ∧ ∃ error, (freezeResult cfg t x b candidate events event).2 = .error error) ∨
        ∃ f, (freezeResult cfg t x b candidate events event).2 = .ok f ∧ f.association = b ∧
          Complete (freezeResult cfg t x b candidate events event).1 f) ∧
      (∀ x b candidate events event sent chunks, freezable t x b candidate events event = .ok () →
        deliveredEvent t x b.task event = .ok (sent, chunks.map .ok) → Fits cfg t x (neededKeys b.task b.attempt candidate chunks) →
          ∃ f, (freezeResult cfg t x b candidate events event).2 = .ok f) ∧
      (∀ a u, Step cfg t a u → ∀ row ∈ t.requests.entries,
        (∃ now ∈ u.requests.entries, Alike row now) ∨ u.requests.get row.key = none) ∧
      (∀ result ∈ t.requests.entries, ∀ manifest, manifestOf result.body.event = some manifest →
        (chunkRows t result.task result.body.attemptId).length = ResultWire.count manifest ∧
          ∀ index row, (chunkRows t result.task result.body.attemptId)[index]? = some row →
            Holds result.task result.body.attemptId manifest index row) ∧
      ∀ x task request, (sentOutputChunks t x task request).Nodup ∧
        (∀ key ∈ sentOutputChunks t x task request, ∃ row, t.requests.get key = some row ∧ row.accepted = false) ∧
        ∀ y : Exchange, y.io = x.io → (∀ key ∈ sentOutputChunks t x task request, y.reply key = x.reply key) →
          sendOutputChunks t y task request = sendOutputChunks t x task request := by
  have coherent := coherent_of_run run (fresh_coherent fresh)
  have whole := whole_of_run lawful run (fresh_coherent fresh) (fresh_whole fresh) uninterrupted
  refine ⟨?_, ?_, fun a u step row mem => step_keeps step coherent mem, ?_, ?_⟩
  · intro x b candidate events event further
    rcases freezeResult_whole lawful whole coherent further with failed | ⟨kept, f, done, same, mine, found⟩
    · exact .inl failed
    · refine .inr ⟨f, done, same, kept.result ?_ ?_ ?_⟩
      · exact freezeResult_grown.coherent coherent
      · rw [same]
        exact found
      · rw [same]
        exact mine
  · exact fun x b candidate events event sent chunks free made fits => freezeResult_succeeds lawful whole coherent free made fits
  · exact fun result stored manifest names => whole.chunkRows coherent stored names
  · intro x task request
    obtain ⟨once, waiting⟩ := sentOutputChunks_once (s := t) (x := x)
    exact ⟨once, waiting, fun y io replies => sendOutputChunks_sent io replies⟩

end Freezes

section Acknowledges
variable [ResultWire] {s t : Store} {x : Exchange} {attempt : Uuid} {manifest : OutputManifest} {f : FrozenResult} {ack : ResultAck}

theorem accepted_stays {row now : RequestRow} (grown : Grown (records s) (records t)) (mem : now ∈ s.requests.entries)
    (alike : Alike row now) (accepted : now.accepted = true) :
    ∃ later ∈ t.requests.entries, Alike row later ∧ later.accepted = true := by
  obtain ⟨later, present, same⟩ := grown.keeps mem
  exact ⟨later, present, alike.trans same, by rw [same.accepted accepted, accepted]⟩

/-- The loop ends well only once every row is accepted. -/
theorem sendChunks_accepts (rows : List RequestRow) : ∀ (index : Nat) (s : Store),
    (∀ row ∈ rows, ∃ now ∈ s.requests.entries, Alike row now) → (sendChunks x attempt manifest rows index s).2 = .ok () →
    ∀ row ∈ rows, ∃ now ∈ (sendChunks x attempt manifest rows index s).1.requests.entries, Alike row now ∧ now.accepted = true := by
  induction rows with
  | nil => exact fun _ _ _ _ row mem => nomatch mem
  | cons first rest ih =>
    intro index s stored sent
    obtain ⟨there, ahead⟩ := List.forall_mem_cons.mp stored
    obtain ⟨now, mem, alike⟩ := there
    rw [List.forall_mem_cons]
    unfold sendChunks at sent ⊢
    cases event : first.body.event with
    | outputChunk chunk =>
      simp only [event] at sent ⊢
      split at sent
      · cases sent
      rename_i fits
      rw [if_neg fits]
      by_cases done : first.accepted = true
      · rw [if_pos done] at sent ⊢
        have same : now = first := alike.accepted done
        exact ⟨accepted_stays (sendChunks_grown rest _ s) mem alike (same ▸ done), ih (index + 1) s ahead sent⟩
      rw [if_neg done] at sent ⊢
      split at sent
      · cases sent
      split at sent
      · cases sent
      split at sent
      · rename_i plain stores
        rw [if_neg plain, if_pos stores]
        have found : s.requests.get first.key = some now := alike.fields.1 ▸ Rows.get_of_mem mem
        have after : (acceptRow s first.key).requests = s.requests.set { now with accepted := true } := by
          unfold acceptRow
          rw [found]
        have marked : { now with accepted := true } ∈ (acceptRow s first.key).requests.entries := by
          rw [after]
          exact Rows.mem_set.mpr (.inl rfl)
        refine ⟨accepted_stays (sendChunks_grown rest _ _) marked (alike.trans (.inr rfl)) rfl, ih (index + 1) _ ?_ sent⟩
        intro row later
        obtain ⟨old, early, same⟩ := ahead row later
        obtain ⟨new, kept, more⟩ := (acceptRow_grown s first.key).keeps early
        exact ⟨new, kept, same.trans more⟩
      · cases sent
    | _ =>
      simp only [event] at sent
      cases sent

theorem sendOutputChunks_manifest {task : Uuid} {request : TaskEventRequest} (names : manifestOf request.event = some manifest) :
    sendOutputChunks s x task request =
      if !x.io .chunks then (s, .error .storage)
      else if (chunkRows s task request.attemptId).length ≠ ResultWire.count manifest then (s, .error .storage)
      else sendChunks x request.attemptId manifest (chunkRows s task request.attemptId) 0 s := by
  unfold sendOutputChunks
  cases event : request.event <;> rw [event] at names <;> cases names <;> rfl

theorem sendUnaccepted_ok (sent : sendUnaccepted s x f = (t, .ok ())) : ∃ u,
    sendOutputChunks s x f.association.task f.request = (u, .ok ()) ∧ acknowledge u x f = .ok t := by
  unfold sendUnaccepted at sent
  split at sent
  · cases sent
  split at sent
  · cases sent
  rename_i u chunks
  split at sent
  · cases sent
  split at sent
  · cases sent
  split at sent
  · cases sent
  · rename_i made
    cases sent
    exact ⟨u, chunks, made⟩

theorem sendUnaccepted_accepts (names : manifestOf f.request.event = some manifest) (checked : checkResult s x 0 f = .ok false)
    (sent : sendUnaccepted s x f = (t, .ok ())) :
    ∀ row ∈ chunkRows s f.association.task f.request.attemptId, ∃ now ∈ t.requests.entries, Alike row now ∧ now.accepted = true := by
  intro row mem
  obtain ⟨u, chunks, made⟩ := sendUnaccepted_ok sent
  obtain ⟨result, found, -, source, body, -⟩ := checkResult_ok checked
  have grown : Grown (records s) (records u) := by
    have all : Grown (records s) (records (sendOutputChunks s x f.association.task f.request).1) := sendOutputChunks_grown
    rwa [chunks] at all
  have marked : Grown (records u) (records t) := by
    obtain ⟨later, present, alike⟩ := grown.keeps (Rows.get_mem found)
    obtain ⟨key, -, origin, text⟩ := alike.fields
    have name : result.key = f.key := Rows.get_key found
    refine acknowledge_grown made (name ▸ key ▸ Rows.get_of_mem present) ?_ (text.trans body)
    rw [origin, source]
    rfl
  rw [sendOutputChunks_manifest names] at chunks
  split at chunks
  · cases chunks
  split at chunks
  · cases chunks
  have loop := @sendChunks_accepts _ x f.request.attemptId manifest (chunkRows s f.association.task f.request.attemptId) 0 s
    fun row mem => ⟨row, chunkRows_rows.2 row mem, .inl rfl⟩
  rw [chunks] at loop
  obtain ⟨now, present, alike, accepted⟩ := loop rfl row mem
  exact accepted_stays marked present alike accepted

/-- A result in chunks is acknowledged only after each of its chunks is. -/
theorem result_after_chunks (cfg : Config) (lawful : LawfulWire) {s t : Store} {acts : List Act} (fresh : Fresh s)
    (run : Runs (Step cfg) s acts t) (uninterrupted : ∀ a ∈ acts, Uninterrupted cfg a.before a.exchange a.call)
    (names : manifestOf f.request.event = some manifest) (waits : checkResult t x 0 f = .ok false)
    (acknowledged : (sendResult t x f).2 = .ok ack) :
    ∀ index < ResultWire.count manifest, ∃ row,
      (sendResult t x f).1.requests.get (.chunk f.association.task f.association.attempt index) = some row ∧ row.accepted = true := by
  intro index small
  have coherent := coherent_of_run run (fresh_coherent fresh)
  have whole := whole_of_run lawful run (fresh_coherent fresh) (fresh_whole fresh) uninterrupted
  obtain ⟨result, found, task, -, body, -, attempt⟩ := checkResult_ok waits
  have owned := coherent.owned result (Rows.get_mem found)
  rw [attempt, body] at owned
  obtain ⟨length, held⟩ := whole.chunkRows coherent (Rows.get_mem found) (body ▸ names)
  rw [task, body] at length held
  obtain ⟨row, place⟩ : ∃ row, (chunkRows t f.association.task f.request.attemptId)[index]? = some row :=
    ⟨_, List.getElem?_eq_getElem (length.symm ▸ small)⟩
  have key := (held index row place).key
  rw [← Option.some.inj owned] at key
  unfold sendResult at acknowledged ⊢
  rw [waits] at acknowledged ⊢
  dsimp only at acknowledged ⊢
  split at acknowledged
  · cases acknowledged
  · rename_i u sent
    obtain ⟨now, present, alike, accepted⟩ := sendUnaccepted_accepts names waits sent row (List.mem_of_getElem? place)
    exact ⟨now, key ▸ alike.fields.1 ▸ Rows.get_of_mem present, accepted⟩

end Acknowledges

section Sample

/-- A result is two bytes, each a chunk, and its manifest tells it from others. -/
@[reducible] def sampleChunks : ResultWire :=
  { sampleResults with
    outputChunkBytes := 1
    newManifest := fun _ => .error .protocol
    output := fun _ => [0, 1]
    split := fun body => .ok (body, ⟨2, body⟩, [⟨⟨2, body⟩, 0, [0]⟩, ⟨⟨2, body⟩, 1, [1]⟩])
    count := fun _ => 2 }

attribute [local instance] sampleChunks

theorem sample_lawful : LawfulWire := by
  refine ⟨?_, ?_, ?_⟩
  · rintro manifest index part chunk ⟨⟩
    exact ⟨rfl, rfl⟩
  · rintro bytes manifest ⟨⟩
  · rintro body reference manifest chunks ⟨⟩
    refine ⟨rfl, Nat.le_of_ble_eq_true rfl, fun index chunk found => ?_⟩
    match index, found with
    | 0, found => cases found; exact ⟨rfl, rfl⟩
    | 1, found => cases found; exact ⟨rfl, rfl⟩
    | index + 2, found => cases found

def taken (s : Store) (x : Exchange) (call : Call) : Act := ⟨s, call, x, (run sampleConfig s x call).1, (run sampleConfig s x call).2⟩

def offered : Act := taken emptyStore (sampleExchange 50) (.claim (sampleOffer 50 (sampleTask 1 100)))

def acknowledged : Act := taken offered.after (sampleExchange 50) (.received (sampleTask 1 100))

def permitted : Act := taken acknowledged.after (sampleExchange 60) (.requestStart (sampleTask 1 100) (.ok ()))

def associated : Act := taken permitted.after (sampleExchange 60) (.reserveAssociation samplePermit "request" "digest" "actor")

def interrupted : Act :=
  taken associated.after { sampleExchange 70 with io := fun touch => decide (touch ≠ .insert (.chunk 7 1 1)) }
    (.freezeResult sampleBinding "done" ["done"] (.result "one"))

def frozen : Act := taken associated.after (sampleExchange 70) (.freezeResult sampleBinding "done" ["done"] (.result "one"))

theorem associated_run : Runs (Step sampleConfig) emptyStore [offered, acknowledged, permitted, associated] associated.after := by
  have stored : ∀ s, s.tasks.get 7 = some ⟨7, sampleTask 1 100⟩ → Stored s (sampleTask 1 100) := fun _ found => ⟨_, found, rfl⟩
  have first : Runs (Step sampleConfig) emptyStore [offered] offered.after := Runs.one ⟨rfl, rfl, trivial, rfl⟩
  have second : Runs (Step sampleConfig) emptyStore [offered, acknowledged] acknowledged.after :=
    first.next ⟨rfl, rfl, stored offered.after (by rfl), rfl⟩
  have third : Runs (Step sampleConfig) emptyStore [offered, acknowledged, permitted] permitted.after :=
    second.next ⟨rfl, rfl, stored acknowledged.after (by rfl), rfl⟩
  exact third.next ⟨rfl, rfl, trivial, rfl⟩

/-- A freeze that fails after its first chunk leaves it behind, and the freeze of another projection is refused for it. -/
theorem interrupted_freeze_refuses :
    (∃ acts, Runs (Step sampleConfig) emptyStore acts associated.after) ∧ Step sampleConfig associated.after interrupted interrupted.after ∧
      associated.after.requests.has (.chunk 7 1 0) = false ∧ interrupted.after.requests.has (.chunk 7 1 0) = true ∧
      interrupted.after.requests.has (.result 7 "done") = false ∧
      freezable interrupted.after (sampleExchange 80) sampleBinding "done" ["done"] (.result "two") = .ok () ∧
      (freezeResult sampleConfig interrupted.after (sampleExchange 80) sampleBinding "done" ["done"] (.result "two")).2 = .error .conflict :=
  ⟨⟨_, associated_run⟩, ⟨rfl, rfl, trivial, rfl⟩, by rfl, by rfl, by rfl, by rfl, by rfl⟩

/-- A freeze that is not interrupted stores both chunks, and they are found. -/
theorem frozen_results_whole_sample : (chunkRows frozen.after 7 1).length = 2 := by
  have delivery : deliveredEvent associated.after (sampleExchange 70) 7 (.result "one") =
      .ok (.chunkedResult "one" ⟨2, "one"⟩, [(⟨⟨2, "one"⟩, 0, [0]⟩ : OutputChunk), ⟨⟨2, "one"⟩, 1, [1]⟩].map .ok) := rfl
  have fits : Fits sampleConfig associated.after (sampleExchange 70)
      [.chunk 7 1 0, .chunk 7 1 1, .result 7 "done"] := by decide +kernel
  have whole : Uninterrupted sampleConfig associated.after (sampleExchange 70) frozen.call := by
    rintro - sent cuts made
    cases delivery.symm.trans made
    exact .inr ⟨_, rfl, fits⟩
  have run : Runs (Step sampleConfig) emptyStore [offered, acknowledged, permitted, associated, frozen] frozen.after :=
    associated_run.next ⟨rfl, rfl, trivial, rfl⟩
  have fresh : Fresh emptyStore := rfl
  have results := frozen_results_whole sampleConfig sample_lawful fresh run (by
    simp only [List.forall_mem_cons]
    exact ⟨trivial, trivial, trivial, trivial, whole, fun _ mem => nomatch mem⟩)
  have stored : frozen.after.requests.get (.result 7 "done") =
      some ⟨.result 7 "done", 7, some ["done"], ⟨31, 1, .chunkedResult "one" ⟨2, "one"⟩, "context"⟩, false⟩ := by rfl
  exact (results.2.2.2.1 _ (Rows.get_mem stored) ⟨2, "one"⟩ rfl).1

def chunkedFrozen : FrozenResult :=
  ⟨9, sampleBinding, .result 7 "done", ⟨31, 1, .chunkedResult "one" ⟨2, "one"⟩, "context"⟩, ["done"]⟩

/-- The two chunks of the frozen result are sent before it. -/
theorem result_after_chunks_sample : ∃ row,
    (sendResult frozen.after (sampleExchange 80) chunkedFrozen).1.requests.get (.chunk 7 1 1) = some row ∧ row.accepted = true := by
  have run : Runs (Step sampleConfig) emptyStore [offered, acknowledged, permitted, associated, frozen] frozen.after :=
    associated_run.next ⟨rfl, rfl, trivial, rfl⟩
  have whole : Uninterrupted sampleConfig associated.after (sampleExchange 70) frozen.call := by
    rintro - sent cuts made
    have delivery : deliveredEvent associated.after (sampleExchange 70) 7 (.result "one") =
        .ok (.chunkedResult "one" ⟨2, "one"⟩, [(⟨⟨2, "one"⟩, 0, [0]⟩ : OutputChunk), ⟨⟨2, "one"⟩, 1, [1]⟩].map .ok) := rfl
    cases delivery.symm.trans made
    exact .inr ⟨_, rfl, by decide +kernel⟩
  have waits : checkResult frozen.after (sampleExchange 80) 0 chunkedFrozen = .ok false := by rfl
  have acknowledged : (sendResult frozen.after (sampleExchange 80) chunkedFrozen).2 =
      .ok (acknowledgement (sampleExchange 80) chunkedFrozen chunkedFrozen) := by rfl
  have fresh : Fresh emptyStore := rfl
  refine result_after_chunks sampleConfig sample_lawful fresh run ?_ rfl waits acknowledged 1 (by decide)
  simp only [List.forall_mem_cons]
  exact ⟨trivial, trivial, trivial, trivial, whole, fun _ mem => nomatch mem⟩

end Sample

end RssMdmAgent.ResultFreezing
