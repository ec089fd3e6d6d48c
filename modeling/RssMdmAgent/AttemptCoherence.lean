import RssMdmAgent.AttemptCalls
import RssMdmAgent.TransitionRuns

set_option autoImplicit false

/-! # Runs of calls on one client store -/

namespace RssMdmAgent.AttemptCoherence
open OrderedRows TransitionRuns ClientStore RemoteAttempts AttemptRecords AttemptCalls
open ContentTransfers (Uuid Error)
open ContractPlan (bind_ok)

/-- One call of a run with the stores around it. -/
structure Act where
  before : Store
  call : Call
  exchange : Exchange
  after : Store
  issued : Option ResultAck

def Fresh (s : Store) : Prop := records s = ⟨.empty, .empty, .empty, .empty⟩

section Runs
variable [ResultWire]

def Step (cfg : Config) (s : Store) (a : Act) (t : Store) : Prop :=
  a.before = s ∧ a.after = t ∧ Handed s a.call ∧ run cfg s a.exchange a.call = (t, a.issued)

/-- The ways in which a stored acceptance is undone. -/
inductive Undoes (a : Act) (row : RequestRow) : Prop where
  | replace (c : ClaimCall) (signed : SignedTask) (call : a.call = .claim c) (replaced : Replaced (records a.before) c signed)
      (task : row.task = signed.payload.taskId) (received : row.key.isReceived = true)
  | retire (ack : ResultAck) (f : FrozenResult) (result : RequestRow) (call : a.call = .retireResult ack)
      (acknowledged : ack.result = some f) (found : a.before.requests.get f.key = some result)
      (accepted : result.accepted = true) (retires : f.retires row = true)
  | release (ack : ResultAck) (call : a.call = .releaseResult ack) (task : row.task = ack.association.task)
      (released : records a.after = (records a.before).released row.task)
  | abandon (ack : AbandonmentAck) (call : a.call = .releaseAbandonment ack) (task : row.task = ack.pending.task)
      (released : records a.after = (records a.before).released row.task)

def StoredResult (s : Store) (ack : ResultAck) : Prop :=
  ∃ row ∈ s.requests.entries, row.task = ack.association.task ∧ row.body.attemptId = ack.association.attempt ∧
    row.source.isSome = true ∧ row.accepted = true ∧ ResultWire.hash row.body.event = ack.projection ∧
    ∀ f, ack.result = some f → row.key = f.key ∧ row.body = f.request ∧ row.source = some f.events

variable {cfg : Config} {s t u : Store} {a : Act} {acts later : List Act} {row other : RequestRow} {task : Uuid}

theorem claimed_effect {r v : Records} {c : ClaimCall} (claimed : Claimed r c v) : Effect r v := by
  cases claimed with
  | same => exact .grow .refl
  | adopt signed fits => exact .adopt signed fits
  | replace signed replaced => exact .replace signed replaced.settled

/-- What the records can look like after a call. -/
inductive Outcome (r v : Records) (call : Call) : Prop where
  | claim (c : ClaimCall) (same : call = .claim c) (claimed : Claimed r c v)
  | retire (ack : ResultAck) (f : FrozenResult) (result : RequestRow) (same : call = .retireResult ack)
      (acknowledged : ack.result = some f) (found : r.requests.get f.key = some result)
      (task : result.task = f.association.task) (sourced : result.source.isSome = true)
      (accepted : result.accepted = true) (projected : r.projections.has result.task = true) (retired : v = r.retired f)
  | release (ack : ResultAck) (same : call = .releaseResult ack) (released : v = r.released ack.association.task)
  | abandon (ack : AbandonmentAck) (same : call = .releaseAbandonment ack) (released : v = r.released ack.pending.task)
  | grow (grown : Grown r v)

theorem Step.outcome (step : Step cfg s a t) (coherent : (records s).Coherent) :
    Outcome (records s) (records t) a.call := by
  obtain ⟨-, -, handed, ran⟩ := step
  have store : (run cfg s a.exchange a.call).1 = t := by rw [ran]
  clear ran
  generalize a.call = call at *
  unfold run at store
  cases call with
  | claim c =>
    subst store
    exact .claim c rfl (claimTask_claimed s c)
  | received offer =>
    subst store
    exact .grow (received_grown handed)
  | requestStart offer materials =>
    subst store
    exact .grow (requestStart_grown handed)
  | startUserInitiated offer materials =>
    subst store
    exact .grow (startInner_grown handed)
  | recoverStart task materials =>
    subst store
    exact .grow recoverStart_grown
  | reserveAssociation start request digest actor =>
    subst store
    exact .grow reserveAssociation_grown
  | bindLocalAttempt b attempt =>
    subst store
    exact .grow (bindLocalAttempt_grown coherent)
  | freezeResult b candidate events event =>
    subst store
    exact .grow freezeResult_grown
  | frozenResultAck f =>
    subst store
    exact .grow .refl
  | sendResult f =>
    subst store
    exact .grow sendResult_grown
  | acknowledgedResult b =>
    subst store
    exact .grow .refl
  | retireResult ack =>
    dsimp only at store
    split at store
    · rename_i v retired
      subst store
      obtain ⟨f, row, acknowledged, found, task, sourced, accepted, projected, gone⟩ := retireResult_ok handed retired
      exact .retire ack f row rfl acknowledged found task sourced accepted projected gone
    · subst store
      exact .grow .refl
  | releaseResult ack =>
    subst store
    rcases releaseResult_cases cfg s a.exchange ack with same | gone
    · rw [same]
      exact .grow .refl
    · exact .release ack rfl gone
  | freezeAbandonment task =>
    subst store
    exact .grow freezeAbandonment_grown
  | sendAbandonment f =>
    subst store
    exact .grow sendAbandonment_grown
  | releaseAbandonment ack =>
    subst store
    rcases releaseAbandonment_cases s a.exchange ack with same | gone
    · rw [same]
      exact .grow .refl
    · exact .abandon ack rfl gone

theorem Outcome.effect {r v : Records} {call : Call} (outcome : Outcome r v call) : Effect r v := by
  cases outcome with
  | claim c same claimed => exact claimed_effect claimed
  | retire ack f result same acknowledged found task sourced accepted projected retired =>
    rw [retired]
    exact .retire f result found task sourced accepted projected
  | release ack same released =>
    rw [released]
    exact .release ack.association.task
  | abandon ack same released =>
    rw [released]
    exact .release ack.pending.task
  | grow grown => exact .grow grown

theorem Step.effect (step : Step cfg s a t) (coherent : (records s).Coherent) : Effect (records s) (records t) :=
  (step.outcome coherent).effect

omit [ResultWire] in
theorem fresh_coherent (fresh : Fresh s) : (records s).Coherent := by
  rw [fresh]
  refine ⟨?_, ?_, ?_, ?_, ?_, ?_, ?_, ?_⟩ <;> exact fun _ mem => nomatch mem

theorem coherent_of_run (run : Runs (Step cfg) s acts t) (coherent : (records s).Coherent) : (records t).Coherent :=
  run.invariant (fun t => (records t).Coherent) coherent fun _ _ _ coherent step => (step.effect coherent).coherent coherent

theorem frozen_of_run (run : Runs (Step cfg) s acts t) (coherent : (records s).Coherent)
    (mem : row ∈ s.requests.entries) (sourced : row.source.isSome = true) :
    (∀ a ∈ acts, a.after.bindings.has row.task = true) → (records t).Coherent ∧ (records t).Frozen row := by
  induction run with
  | refl => exact fun _ => ⟨coherent, .inl ⟨row, mem, .inl rfl⟩⟩
  | @next labels t u a _ step ih =>
    intro lasts
    obtain ⟨coherent, frozen⟩ := ih fun a mem => lasts a (List.mem_append_left _ mem)
    have bound := lasts a (List.mem_append_right _ List.mem_cons_self)
    rw [step.2.1] at bound
    exact ⟨(step.effect coherent).coherent coherent, (step.effect coherent).frozen coherent sourced bound frozen⟩

/-- An acceptance is undone by a replacement, by the retirement of its result or by a release. -/
theorem Step.accepted (step : Step cfg s a t) (coherent : (records s).Coherent) (mem : row ∈ s.requests.entries)
    (accepted : row.accepted = true) : row ∈ t.requests.entries ∨ Undoes a row := by
  have before := step.1
  have after := step.2.1
  cases step.outcome coherent with
  | claim c same claimed =>
    generalize reached : records t = v at claimed
    have present : row ∈ (records t).requests.entries ∨ Undoes a row := by
      cases claimed with
      | same => exact .inl (reached ▸ mem)
      | adopt signed fits => exact .inl (reached ▸ mem)
      | replace signed replaced =>
        by_cases goes : (decide (row.task = signed.payload.taskId) && row.key.isReceived && row.source.isNone) = true
        · simp only [Bool.and_eq_true, decide_eq_true_eq] at goes
          exact .inr (.replace c signed same (before ▸ replaced) goes.1.1 goes.1.2)
        · rw [reached]
          refine .inl (List.mem_filter.mpr ⟨mem, ?_⟩)
          rw [Bool.not_eq_true', ← Bool.not_eq_true]
          exact goes
    exact present
  | retire ack f result same acknowledged found task sourced marked projected retired =>
    by_cases retires : f.retires row = true
    · exact .inr (.retire ack f result same acknowledged (before ▸ found) marked retires)
    · have present : row ∈ (records t).requests.entries := by
        rw [retired]
        exact List.mem_filter.mpr ⟨mem, by simpa using retires⟩
      exact .inl present
  | release ack same released =>
    by_cases gone : row.task = ack.association.task
    · exact .inr (.release ack same gone (by rw [after, before, gone]; exact released))
    · have present : row ∈ (records t).requests.entries := by
        rw [released]
        exact List.mem_filter.mpr ⟨mem, by simpa using gone⟩
      exact .inl present
  | abandon ack same released =>
    by_cases gone : row.task = ack.pending.task
    · exact .inr (.abandon ack same gone (by rw [after, before, gone]; exact released))
    · have present : row ∈ (records t).requests.entries := by
        rw [released]
        exact List.mem_filter.mpr ⟨mem, by simpa using gone⟩
      exact .inl present
  | grow grown => exact .inl (grown.accepted mem accepted)

theorem accepted_of_run (run : Runs (Step cfg) s acts t) (coherent : (records s).Coherent)
    (mem : row ∈ s.requests.entries) (accepted : row.accepted = true) :
    row ∈ t.requests.entries ∨ ∃ a ∈ acts, Undoes a row := by
  induction run with
  | refl => exact .inl mem
  | next earlier step ih =>
    rcases ih with mem | ⟨a, past, undoes⟩
    · rcases step.accepted (coherent_of_run earlier coherent) mem accepted with mem | undoes
      · exact .inl mem
      · exact .inr ⟨_, List.mem_append_right _ List.mem_cons_self, undoes⟩
    · exact .inr ⟨a, List.mem_append_left _ past, undoes⟩

/-- Another attempt comes by a replacement alone. -/
theorem Step.replaced {attempt attempt' : Uuid} (step : Step cfg s a t) (coherent : (records s).Coherent)
    (early : (records s).attempt task = some attempt) (late : (records t).attempt task = some attempt')
    (other : attempt' ≠ attempt) :
    ∃ c signed, a.call = .claim c ∧ signed.payload.taskId = task ∧ Replaced (records s) c signed := by
  have known : ∀ signed : SignedTask, (∀ row, s.tasks.get signed.payload.taskId = some row → row.body = signed) →
      ((records s).adopted signed).attempt task = (records s).attempt task := by
    intro signed fits
    rw [attempt_adopted]
    split
    · rename_i same
      obtain ⟨row, found, -⟩ := Option.map_eq_some_iff.mp early
      rw [same] at found ⊢
      rw [Records.attempt, found, Option.map_some, fits row found]
    · rfl
  have gone : ∀ gone, records t = (records s).released gone → (records t).attempt task = (records s).attempt task := by
    intro gone released
    rw [released] at late ⊢
    apply attempt_released
    rintro rfl
    obtain ⟨row, found, -⟩ := Option.map_eq_some_iff.mp late
    have kept := (List.mem_filter.mp (Rows.get_mem found)).2
    have same : row.id = task := Rows.get_key found
    simp [same] at kept
  have unchanged : ¬ (records t).attempt task = (records s).attempt task := by
    rw [early, late]
    exact fun same => other (Option.some.inj same)
  cases step.outcome coherent with
  | claim c same claimed =>
    generalize reached : records t = v at claimed unchanged
    cases claimed with
    | same => exact absurd rfl unchanged
    | adopt signed fits => exact absurd (known signed fits) unchanged
    | replace signed replaced =>
      refine ⟨c, signed, same, ?_, replaced⟩
      by_contra differ
      rw [attempt_adopted, if_neg (Ne.symm differ)] at unchanged
      exact unchanged rfl
  | retire ack f result same acknowledged found at_task sourced accepted projected retired =>
    rw [retired] at unchanged
    exact absurd rfl unchanged
  | release ack same released => exact absurd (gone _ released) unchanged
  | abandon ack same released => exact absurd (gone _ released) unchanged
  | grow grown => exact absurd grown.attempt unchanged

def Backed (acts : List Act) (s : Store) : Prop :=
  ∀ p ∈ s.projections.entries, ∃ past ∈ acts, ∃ row ∈ past.after.requests.entries, row.task = p.task ∧
    row.source.isSome = true ∧ row.accepted = true ∧ ResultWire.hash row.body.event = p.hash ∧
    (records s).attempt p.task = some row.body.attemptId

theorem backed_of_run (run : Runs (Step cfg) s acts t) (fresh : Fresh s) : (records t).Coherent ∧ Backed acts t := by
  refine run.history (fun acts t => (records t).Coherent ∧ Backed acts t) ⟨fresh_coherent fresh, ?_⟩ ?_
  · intro p mem
    have none : s.projections = .empty := congrArg Records.projections fresh
    rw [none] at mem
    cases mem
  · rintro acts t a u ⟨coherent, backed⟩ step
    have later := (step.effect coherent).coherent coherent
    refine ⟨later, ?_⟩
    intro p mem
    rcases (step.effect coherent).projection mem with early | ⟨row, present, task, sourced, accepted, hash⟩
    · obtain ⟨past, before, row, present, task, sourced, accepted, hash, attempt⟩ := backed p early
      refine ⟨past, List.mem_append_left _ before, row, present, task, sourced, accepted, hash, ?_⟩
      rw [(step.effect coherent).attempt coherent (coherent.projected p early) (later.projected p mem)]
      exact attempt
    · refine ⟨a, List.mem_append_right _ List.mem_cons_self, row, ?_, task, sourced, accepted, hash, ?_⟩
      · rw [step.2.1]
        exact present
      · rw [← task]
        exact later.owned row present

omit [ResultWire] in
theorem pendingResult_some {x : Exchange} {place : Nat} {b : Binding} {f : FrozenResult}
    (got : pendingResult s x place b = .ok (some f)) : f.association = b := by
  unfold pendingResult at got
  simp only [bind_ok, touch_ok, exists_const] at got
  obtain ⟨⟨⟩, -, -, got⟩ := got
  split at got
  · cases got
  · split at got
    · cases got
    · cases got
      rfl

omit [ResultWire] in
theorem acknowledgedResult_some {x : Exchange} {place : Nat} {b : Binding} {ack : ResultAck}
    (got : acknowledgedResult s x place b = .ok (some ack)) :
    ∃ p, s.projections.get b.task = some p ∧ ack.association = b ∧ ack.projection = p.hash ∧ ack.result = none ∧
      (records s).attempt b.task = some b.attempt := by
  unfold acknowledgedResult at got
  simp only [bind_ok, touch_ok, exists_const] at got
  obtain ⟨⟨⟩, associated, -, got⟩ := got
  cases found : s.projections.get b.task with
  | none =>
    rw [found] at got
    cases got
  | some p =>
    rw [found] at got
    dsimp only at got
    split at got
    · cases got
      exact ⟨p, rfl, rfl, rfl, rfl, (checkAssociation_ok associated).2⟩
    · cases got

theorem frozenResultAck_some {x : Exchange} {f : FrozenResult} {ack : ResultAck}
    (got : frozenResultAck s x f = .ok (some ack)) :
    ∃ recovered : FrozenResult, recovered.association = f.association ∧ ack = acknowledgement x f recovered ∧
      checkResult s x 0 f = .ok true ∧ validateResultAck s x 2 ack = .ok () := by
  unfold frozenResultAck at got
  obtain ⟨accepted, checked, got⟩ := bind_ok.mp got
  cases accepted with
  | false => cases got
  | true =>
    obtain ⟨pending, recovers, got⟩ := bind_ok.mp got
    cases pending with
    | none => cases got
    | some recovered =>
      obtain ⟨⟨⟩, valid, same⟩ := bind_ok.mp got
      cases same
      exact ⟨recovered, pendingResult_some recovers, rfl, checked, valid⟩

theorem checked_stored {x : Exchange} {place : Nat} {f g : FrozenResult} {ack : ResultAck}
    (coherent : (records s).Coherent) (valid : validateResultAck s x place ack = .ok ()) (result : ack.result = some g)
    (same : ack.association = g.association) (stored : ∃ row ∈ s.requests.entries, row.task = g.association.task ∧
      row.source.isSome = true ∧ row.body = f.request)
    (hash : ack.projection = ResultWire.hash f.request.event) : StoredResult s ack := by
  obtain ⟨-, -, checks⟩ := validateResultAck_ok valid
  obtain ⟨row, found, task, source, body, accepted, attempt⟩ := checkResult_ok (checks g result)
  obtain ⟨first, early, work, sourced, origin⟩ := stored
  have some : row.source.isSome = true := by
    rw [source]
    rfl
  have mem := Rows.get_mem found
  -- One result of the task is stored, so both requests are it.
  have key := coherent.single row mem first early some sourced (task.trans work.symm)
  have one : row = first := List.inj_on_of_nodup_map s.requests.distinct mem early key
  have owned := coherent.owned row mem
  rw [attempt] at owned
  refine ⟨row, mem, same ▸ task, same ▸ (Option.some.inj owned).symm, some, accepted, ?_, ?_⟩
  · rw [hash, one, origin]
  · intro h also
    cases result.symm.trans also
    exact ⟨Rows.get_key found, body, source⟩

/-- An acknowledgement fits and its result is stored as accepted, after the call or after an earlier one. -/
theorem Step.issued {ack : ResultAck} (step : Step cfg s a t) (coherent : (records s).Coherent) (later : (records t).Coherent)
    (backed : Backed acts s) (issued : a.issued = some ack) :
    Fits ack ∧ ∃ past ∈ acts ++ [a], StoredResult past.after ack := by
  obtain ⟨-, after, -, ran⟩ := step
  have given : (run cfg s a.exchange a.call).2 = some ack := by rw [ran, issued]
  have store : (run cfg s a.exchange a.call).1 = t := by rw [ran]
  have here : StoredResult t ack → ∃ past ∈ acts ++ [a], StoredResult past.after ack := by
    intro stored
    exact ⟨a, List.mem_append_right _ List.mem_cons_self, after ▸ stored⟩
  clear ran
  generalize a.call = call at given store
  unfold run at given store
  cases call with
  | frozenResultAck f =>
    have same : s = t := store
    subst same
    cases got : frozenResultAck s a.exchange f with
    | error e =>
      dsimp only at given
      rw [got] at given
      cases given
    | ok answer =>
      dsimp only at given
      rw [got] at given
      cases given
      obtain ⟨recovered, same, rfl, checked, valid⟩ := frozenResultAck_some got
      obtain ⟨row, found, task, source, body, -⟩ := checkResult_ok checked
      refine ⟨?_, here (checked_stored coherent valid rfl same.symm ⟨row, Rows.get_mem found, same ▸ task, ?_, body⟩ rfl)⟩
      · rintro g ⟨⟩
        exact same
      · rw [source]
        rfl
  | sendResult f =>
    cases sent : (sendResult s a.exchange f).2 with
    | error e =>
      dsimp only at given
      rw [sent] at given
      cases given
    | ok answer =>
      dsimp only at given store
      rw [sent] at given
      cases given
      obtain ⟨rfl, valid⟩ := (sendResult_cases s a.exchange f).2 ack sent
      rw [store] at valid
      obtain ⟨-, -, checks⟩ := validateResultAck_ok valid
      obtain ⟨row, found, task, source, body, -⟩ := checkResult_ok (checks f rfl)
      refine ⟨?_, here (checked_stored later valid rfl rfl ⟨row, Rows.get_mem found, task, ?_, body⟩ rfl)⟩
      · rintro g ⟨⟩
        rfl
      · rw [source]
        rfl
  | acknowledgedResult b =>
    cases got : acknowledgedResult s a.exchange 0 b with
    | error e =>
      dsimp only at given
      rw [got] at given
      cases given
    | ok answer =>
      dsimp only at given
      rw [got] at given
      cases given
      obtain ⟨p, found, rfl, projection, result, attempt⟩ := acknowledgedResult_some got
      refine ⟨fun g also => ?_, ?_⟩
      · rw [result] at also
        cases also
      · obtain ⟨past, mem, row, present, task, sourced, accepted, hash, owned⟩ := backed p (Rows.get_mem found)
        have same : p.task = ack.association.task := Rows.get_key found
        rw [same, attempt] at owned
        refine ⟨past, List.mem_append_left _ mem, row, present, task.trans same, (Option.some.inj owned).symm, sourced,
          accepted, hash.trans projection.symm, ?_⟩
        intro g also
        rw [result] at also
        cases also
  | _ => cases given

/-- In every run of calls that are handed stored offers: associations and requests belong to the attempt of the stored
offer, the result of an association is frozen once and stays as it is, another attempt comes only where nothing but
received requests wait, an acknowledgement is issued for a result that is stored as accepted, and an acceptance is undone
only by the replacement of an expired attempt, by the retirement of an acknowledged result or by a release. -/
theorem attempts_coherent (cfg : Config) {s t : Store} {acts : List Act} (fresh : Fresh s) (run : Runs (Step cfg) s acts t) :
    (∀ b ∈ t.bindings.entries, (records t).attempt b.task = some b.attempt) ∧
      (∀ row ∈ t.requests.entries, (records t).attempt row.task = some row.body.attemptId) ∧
      (∀ later u, Runs (Step cfg) t later u →
        (∀ row ∈ t.requests.entries, ∀ other ∈ u.requests.entries, row.source.isSome = true →
          other.source.isSome = true → other.task = row.task → (∀ a ∈ later, a.after.bindings.has row.task = true) →
            Alike row other) ∧
          ∀ row ∈ t.requests.entries, row.accepted = true → row ∈ u.requests.entries ∨ ∃ a ∈ later, Undoes a row) ∧
      (∀ a ∈ acts, ∀ task attempt attempt', (records a.before).attempt task = some attempt →
        (records a.after).attempt task = some attempt' → attempt' ≠ attempt →
          ∃ c signed, a.call = .claim c ∧ signed.payload.taskId = task ∧ Replaced (records a.before) c signed) ∧
      ∀ earlier a later, acts = earlier ++ a :: later → ∀ ack, a.issued = some ack →
        Fits ack ∧ ∃ past ∈ earlier ++ [a], StoredResult past.after ack := by
  have coherent := coherent_of_run run (fresh_coherent fresh)
  refine ⟨coherent.bound, coherent.owned, ?_, ?_, ?_⟩
  · intro later u onward
    refine ⟨?_, fun row mem accepted => accepted_of_run onward coherent mem accepted⟩
    intro row mem other present sourced waits same lasts
    obtain ⟨after, frozen⟩ := frozen_of_run onward coherent mem sourced lasts
    rcases frozen with ⟨now, found, alike⟩ | ⟨-, delivered⟩
    · obtain ⟨-, task, source, -⟩ := alike.fields
      have key := after.single now found other present (source ▸ sourced) waits (task.trans same.symm)
      rwa [← List.inj_on_of_nodup_map u.requests.distinct found present key]
    · rw [delivered other present same] at waits
      cases waits
  · intro a mem task attempt attempt' early late other
    obtain ⟨front, back, rfl⟩ := List.append_of_mem mem
    obtain ⟨v, w, first, step, -⟩ := run.around
    have known := coherent_of_run first (fresh_coherent fresh)
    have before := step.1
    have after := step.2.1
    rw [before] at early ⊢
    rw [after] at late
    exact step.replaced known early late other
  · rintro earlier a later rfl ack issued
    obtain ⟨v, w, first, step, -⟩ := run.around
    obtain ⟨known, backed⟩ := backed_of_run first fresh
    exact step.issued known ((step.effect known).coherent known) backed issued

end Runs

section Sample

/-- Every signature verifies, and a result is as long as its body. -/
@[reducible] def sampleResults : ResultWire :=
  { sampleWire with
    outputChunkBytes := 64
    requiresInline := fun _ => false
    validateFor := fun _ _ _ => .ok ()
    newManifest := fun bytes => .ok ⟨bytes.length, "digest"⟩
    newChunk := fun manifest index bytes => .ok ⟨manifest, index, bytes⟩
    output := fun body => body.toUTF8.toList
    split := fun body => .ok (body, ⟨0, "digest"⟩, [])
    count := fun _ => 0
    validateReport := fun _ _ => .ok ()
    reportEnds := fun _ _ => true
    hash := fun _ => String.ofList (List.replicate 64 'a') }

attribute [local instance] sampleResults

def actOf (cfg : Config) (s : Store) (x : Exchange) (call : Call) : Act :=
  ⟨s, call, x, (run cfg s x call).1, (run cfg s x call).2⟩

theorem step_actOf {cfg : Config} {s : Store} {x : Exchange} (call : Call) (handed : Handed s call) :
    Step cfg s (actOf cfg s x call) (run cfg s x call).1 := ⟨rfl, rfl, handed, rfl⟩

/-- The server answers every start with its permit and every other event plainly. -/
def sampleExchange (now : Int) : Exchange where
  owner := 9
  active := .ok ()
  now := .ok now
  session := fun _ => ⟨.ok (), .ok now, .ok ⟨"device", 2, 1⟩, fun _ => .ok "public", .ok "context", []⟩
  executionContext := .ok "context"
  operation := fun _ => 31
  reply := fun key => .ok ⟨match key with
    | .start _ attempt =>
      let offer := sampleTask attempt 100
      some { offer with payload := { offer.payload with permit := .start } }
    | _ => none, false⟩
  io := fun _ => true

def sampleOffer (now : Int) (offer : SignedTask) : ClaimCall :=
  { sampleCall offer with
    now := .ok now
    reply := .ok ⟨some offer, []⟩
    session := ⟨.ok (), .ok now, .ok ⟨"device", 2, 1⟩, fun _ => .ok "public", .ok "context", []⟩ }

def emptyStore : Store := ⟨.empty, .empty, [], none, .empty, .empty, .empty, ⟨.empty, .empty, .empty, 64⟩⟩

def claimedStore : Store := (run sampleConfig emptyStore (sampleExchange 50) (.claim (sampleOffer 50 (sampleTask 1 100)))).1

def receivedStore : Store := (run sampleConfig claimedStore (sampleExchange 50) (.received (sampleTask 1 100))).1

def replacedStore : Store :=
  (run sampleConfig receivedStore (sampleExchange 200) (.claim (sampleOffer 200 (sampleTask 2 300)))).1

def startedStore : Store :=
  (run sampleConfig receivedStore (sampleExchange 60) (.requestStart (sampleTask 1 100) (.ok ()))).1

def samplePermit : Start :=
  ⟨{ sampleTask 1 100 with payload := { (sampleTask 1 100).payload with permit := .start } }⟩

def boundStore : Store :=
  (run sampleConfig startedStore (sampleExchange 60) (.reserveAssociation samplePermit "request" "digest" "actor")).1

def sampleBinding : Binding := ⟨7, 1, "request", "digest", "actor", none⟩

def frozenStore : Store :=
  (run sampleConfig boundStore (sampleExchange 70) (.freezeResult sampleBinding "done" ["done"] (.result "out"))).1

def sampleFrozen : FrozenResult :=
  ⟨9, sampleBinding, .result 7 "done", ⟨31, 1, .result "out", "context"⟩, ["done"]⟩

def sampleAct : Act := actOf sampleConfig frozenStore (sampleExchange 80) (.sendResult sampleFrozen)

def sampleActs : List Act :=
  [actOf sampleConfig emptyStore (sampleExchange 50) (.claim (sampleOffer 50 (sampleTask 1 100))),
    actOf sampleConfig claimedStore (sampleExchange 50) (.received (sampleTask 1 100)),
    actOf sampleConfig receivedStore (sampleExchange 60) (.requestStart (sampleTask 1 100) (.ok ())),
    actOf sampleConfig startedStore (sampleExchange 60) (.reserveAssociation samplePermit "request" "digest" "actor"),
    actOf sampleConfig boundStore (sampleExchange 70) (.freezeResult sampleBinding "done" ["done"] (.result "out"))]

theorem sample_claimed : Stored claimedStore (sampleTask 1 100) := ⟨⟨7, sampleTask 1 100⟩, by rfl, rfl⟩

theorem sample_received : Stored receivedStore (sampleTask 1 100) := ⟨⟨7, sampleTask 1 100⟩, by rfl, rfl⟩

theorem sample_received_run : Runs (Step sampleConfig) emptyStore (sampleActs.take 2) receivedStore :=
  (Runs.one (step_actOf (.claim (sampleOffer 50 (sampleTask 1 100))) trivial)).next
    (step_actOf (.received (sampleTask 1 100)) sample_claimed)

theorem sample_runs : Runs (Step sampleConfig) emptyStore (sampleActs ++ [sampleAct]) sampleAct.after := by
  have started : Runs (Step sampleConfig) emptyStore (sampleActs.take 3) startedStore :=
    sample_received_run.next (step_actOf (.requestStart (sampleTask 1 100) (.ok ())) sample_received)
  have bound : Runs (Step sampleConfig) emptyStore (sampleActs.take 4) boundStore :=
    started.next (step_actOf (.reserveAssociation samplePermit "request" "digest" "actor") trivial)
  have frozen : Runs (Step sampleConfig) emptyStore sampleActs frozenStore :=
    bound.next (step_actOf (.freezeResult sampleBinding "done" ["done"] (.result "out")) trivial)
  exact frozen.next (step_actOf (.sendResult sampleFrozen) trivial)

/-- The acceptance of the first attempt is gone and its task is not released: a claim has replaced the expired offer. -/
theorem replacement_undoes :
    (∃ acts, Runs (Step sampleConfig) emptyStore acts receivedStore) ∧
      (∃ a, Step sampleConfig receivedStore a replacedStore ∧ a.call = .claim (sampleOffer 200 (sampleTask 2 300))) ∧
      (∃ row ∈ receivedStore.requests.entries, row.accepted = true ∧ row ∉ replacedStore.requests.entries) ∧
      (records replacedStore).attempt 7 = some 2 := by
  refine ⟨⟨_, sample_received_run⟩, ⟨_, step_actOf (.claim (sampleOffer 200 (sampleTask 2 300))) trivial, rfl⟩, ?_, by rfl⟩
  refine ⟨⟨.received 7 1, 7, none, ⟨31, 1, .received, "context"⟩, true⟩, ?_, rfl, ?_⟩
  · decide +kernel
  · decide +kernel

/-- The result of the run is acknowledged for the association of attempt 1. -/
theorem attempts_coherent_sample : ∃ ack, sampleAct.issued = some ack ∧ Fits ack ∧
    ∃ past ∈ sampleActs ++ [sampleAct], StoredResult past.after ack := by
  have issued : sampleAct.issued = some (acknowledgement (sampleExchange 80) sampleFrozen sampleFrozen) := by decide +kernel
  have fresh : Fresh emptyStore := rfl
  have whole := attempts_coherent sampleConfig fresh sample_runs
  exact ⟨_, issued, whole.2.2.2.2 sampleActs sampleAct [] rfl _ issued⟩

end Sample

end RssMdmAgent.AttemptCoherence
