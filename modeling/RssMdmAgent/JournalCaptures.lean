import RssMdmAgent.JournalRuns

set_option autoImplicit false

/-! # The captures of one attempt over whole runs -/

namespace RssMdmAgent.JournalCaptures
open ContractIdentity ContractProcess ContractPlan ApplicationModel LifecycleModel LifecycleState JournalModel KeyedTable JournalStore
open JournalOperations JournalSteps JournalEffects JournalRuns TransitionRuns
open ProgramInstructions (ResourceNaming)

/-- What a later capture owes to an earlier one of the same attempt. -/
structure Grown (p q : ProcessEvidence) : Prop where
  digest : q.contentDigest = p.contentDigest
  runner : q.runner = p.runner
  stdout : p.stdout <+: q.stdout
  stderr : p.stderr <+: q.stderr
  total : p.totalOutputBytes ≤ q.totalOutputBytes
  exit : ∀ code, p.exitCode = some code → q.exitCode = some code
  scope : replaceableScope p.scope = false → q.scope = p.scope
  failure : p.failureKind ≠ .none → p.failureKind ≠ .unavailable → q.failureKind = p.failureKind
  finished : p.finished = true → incompleteCapture p = false → q = p

theorem Grown.refl (p : ProcessEvidence) : Grown p p :=
  ⟨rfl, rfl, List.prefix_refl _, List.prefix_refl _, Nat.le_refl _, fun _ h => h, fun _ => rfl, fun _ _ => rfl, fun _ _ => rfl⟩

theorem Grown.trans {p q r : ProcessEvidence} (first : Grown p q) (second : Grown q r) : Grown p r := by
  refine ⟨second.digest.trans first.digest, second.runner.trans first.runner, first.stdout.trans second.stdout,
    first.stderr.trans second.stderr, first.total.trans second.total, fun code h => second.exit code (first.exit code h), ?_, ?_, ?_⟩
  · intro fixed
    have same := first.scope fixed
    exact (second.scope (same ▸ fixed)).trans same
  · intro failed other
    have same := first.failure failed other
    exact (second.failure (same ▸ failed) (same ▸ other)).trans same
  · intro ended complete
    have same := first.finished ended complete
    subst same
    exact second.finished ended complete

theorem conflict_grown {p q : ProcessEvidence} (h : captureConflict p q = false) : Grown p q := by
  unfold captureConflict at h
  simp only [Bool.or_eq_false_iff, Bool.and_eq_false_iff, Bool.not_eq_false', decide_eq_false_iff_not, not_not, ne_eq,
    Nat.not_lt] at h
  obtain ⟨⟨⟨⟨⟨⟨⟨⟨failure, finished⟩, exit⟩, digest⟩, scope⟩, runner⟩, total⟩, stdout⟩, stderr⟩ := h
  refine ⟨digest.symm, runner.symm, List.isPrefixOf_iff_prefix.mp stdout, List.isPrefixOf_iff_prefix.mp stderr, total, ?_, ?_, ?_, ?_⟩
  · intro code found
    rw [found] at exit
    simpa using exit
  · intro fixed
    rcases scope with same | replaceable
    · exact same.symm
    · rw [fixed] at replaceable
      cases replaceable
  · intro failed other
    rcases failure with (none | provisional) | same
    · exact absurd none failed
    · exact absurd (beq_iff_eq.mp (Bool.and_eq_true_iff.mp provisional).2) other
    · exact same.symm
  · intro ended complete
    rcases finished with running | incomplete
    · rw [running] at ended
      cases ended
    · rw [complete] at incomplete
      cases incomplete

section Effects
variable [ResourceNaming] [JournalNaming] {t t' : Tables} {limits : StoreLimits} {host : JournalHost} {c : Call} {reply : Reply}

theorem effect_captures (h : Effect limits host t c t' reply) :
    t'.processEvidence = t.processEvidence ∨ ∃ scope facts, c = .process scope facts := by
  cases h with
  | openedAgain started quiet prepared | opened started created fresh quiet reserved prepared
  | refused started later loaded fresh refusal prepared
  | interactionOpened started planned created fresh quiet prepared =>
    obtain ⟨_, rfl⟩ := prepared.tables
    exact .inl rfl
  | transitioned started later accepted passed =>
    obtain ⟨_, _, _, _, -, -, -, prepared⟩ := accepted.written
    obtain ⟨_, rfl⟩ := prepared.tables
    exact .inl rfl
  | interactionKept started later keyed quiet prepared =>
    obtain ⟨_, rfl⟩ := insertInteractionKey_ok keyed
    obtain ⟨_, rfl⟩ := prepared.tables
    exact .inl rfl
  | interactionMoved started later loaded keyed evaluated offered current quiet prepared =>
    obtain ⟨_, rfl⟩ := insertInteractionKey_ok keyed
    obtain ⟨_, rfl⟩ := prepared.tables
    exact .inl rfl
  | captured => exact .inr ⟨_, _, rfl⟩
  | confirmed | progressed | requested => exact .inl rfl

end Effects

section Calls
variable [RecordEncoding] {t : Tables} {limits : StoreLimits} {scope : Scope} {facts : ProcessEvidence}

theorem processBody_stored {stored : Option Tables}
    (h : processBody limits t scope facts = .ok stored) : (facts.quiescent = true → facts.finished = true) ∧
      (stored = none → t.processEvidence facts.attemptId = some facts) ∧
      ∀ t', stored = some t' → t'.processEvidence = Function.update t.processEvidence facts.attemptId (some facts) ∧
        ∀ p, t.processEvidence facts.attemptId = some p → captureConflict p facts = false := by
  obtain ⟨⟨row, current, attempt⟩, -, h⟩ := bind_ok.mp h
  obtain ⟨_, checked, h⟩ := bind_ok.mp h
  obtain ⟨previous, read, h⟩ := bind_ok.mp h
  have checked := guarded_ok.mp checked
  simp only [Bool.and_eq_true, Bool.or_eq_true, Bool.not_eq_true'] at checked
  have read := readCapture_ok read
  refine ⟨fun quiescent => ?_, ?_⟩
  · rcases checked.2 with other | finished
    · rw [quiescent] at other
      cases other
    · exact finished
  split at h
  · next same =>
    cases h
    exact ⟨fun _ => read ▸ same, nofun⟩
  · obtain ⟨_, kept, h⟩ := bind_ok.mp h
    obtain ⟨_, -, h⟩ := bind_ok.mp h
    cases h
    refine ⟨nofun, ?_⟩
    rintro _ ⟨⟩
    refine ⟨rfl, fun p found => ?_⟩
    have kept := guarded_ok.mp kept
    rw [read, found] at kept
    simpa using kept

theorem recordProcess_stored {s s' : Store} {env : Environment} {result : Except JournalError Unit}
    (h : recordProcess s env scope facts = (s', result)) :
    (s'.tables = s.tables ∧ ∀ u, result = .ok u → s.tables.processEvidence facts.attemptId = some facts) ∨
      processBody s.limits s.tables scope facts = .ok (some s'.tables) := by
  unfold recordProcess at h
  dsimp only at h
  split at h
  · cases h
    exact .inl ⟨rfl, nofun⟩
  · next checked =>
    cases h
    obtain ⟨_, -, checked⟩ := bind_ok.mp checked
    obtain ⟨_, -, checked⟩ := bind_ok.mp checked
    obtain ⟨_, -, checked⟩ := bind_ok.mp checked
    obtain ⟨_, -, checked⟩ := bind_ok.mp checked
    exact .inl ⟨rfl, fun _ _ => (processBody_stored checked).2.1 rfl⟩
  · next t checked =>
    obtain ⟨_, -, checked⟩ := bind_ok.mp checked
    obtain ⟨_, -, checked⟩ := bind_ok.mp checked
    obtain ⟨_, -, checked⟩ := bind_ok.mp checked
    obtain ⟨_, -, checked⟩ := bind_ok.mp checked
    rcases commit_cases h with ⟨rfl, error, rfl⟩ | ⟨t', value, done, rfl, reported⟩
    · exact .inl ⟨rfl, nofun⟩
    · cases done
      exact .inr checked

end Calls

def Sound (t : Tables) : Prop := ∀ attempt p, t.processEvidence attempt = some p → p.quiescent = true → p.finished = true

section Runs
variable [ResourceNaming] [JournalNaming] [RecordEncoding] {t u v w : Tables} {o : Operation} {attempt : AttemptId} {p : ProcessEvidence}

theorem call_process {s s' : Store} {env : Environment} {scope : Scope} {facts : ProcessEvidence} {result : Except JournalError Reply}
    (h : Store.call s env (.process scope facts) = (s', result)) :
    ∃ recorded, recordProcess s env scope facts = (s', recorded) ∧ result = recorded.map fun _ => .done := by
  cases h
  exact ⟨_, rfl, rfl⟩

theorem operates_captures (h : Operates t o u) : u.processEvidence = t.processEvidence ∨
    ∃ scope facts, o.call = .process scope facts ∧ u.processEvidence = Function.update t.processEvidence facts.attemptId (some facts) ∧
      (facts.quiescent = true → facts.finished = true) ∧
      ∀ p, t.processEvidence facts.attemptId = some p → captureConflict p facts = false := by
  rcases h.effect with rfl | ⟨reply, effect⟩
  · exact .inl rfl
  rcases effect_captures effect with same | ⟨scope, facts, call⟩
  · exact .inl same
  obtain ⟨s', called, rfl⟩ := h.performed
  have before := h.before
  subst before
  rw [call] at called
  obtain ⟨result, recorded, -⟩ := call_process called
  rcases recordProcess_stored recorded with ⟨same, -⟩ | ran
  · exact .inl (by rw [same])
  · obtain ⟨ended, -, stored⟩ := processBody_stored ran
    obtain ⟨updated, kept⟩ := stored _ rfl
    exact .inr ⟨scope, facts, call, updated, ended, kept⟩

theorem operates_sound (sound : Sound t) (h : Operates t o u) : Sound u := by
  rcases operates_captures h with same | ⟨scope, facts, -, updated, ended, -⟩
  · unfold Sound
    rw [same]
    exact sound
  · intro attempt p found
    rw [updated] at found
    by_cases named : attempt = facts.attemptId
    · rw [named, Function.update_self, Option.some.injEq] at found
      exact found ▸ ended
    · rw [Function.update_of_ne named] at found
      exact sound attempt p found

theorem operates_grown (h : Operates t o u) (found : t.processEvidence attempt = some p) :
    ∃ q, u.processEvidence attempt = some q ∧ Grown p q := by
  rcases operates_captures h with same | ⟨scope, facts, -, updated, -, kept⟩
  · exact ⟨p, by rw [same]; exact found, .refl p⟩
  · rw [updated]
    by_cases named : attempt = facts.attemptId
    · rw [named] at found ⊢
      exact ⟨facts, Function.update_self .., conflict_grown (kept p found)⟩
    · exact ⟨p, by rw [Function.update_of_ne named]; exact found, .refl p⟩

theorem runs_grown {labels : List Operation} (run : Runs Operates t labels u) (found : t.processEvidence attempt = some p) :
    ∃ q, u.processEvidence attempt = some q ∧ Grown p q := by
  refine run.invariant (fun u => ∃ q, u.processEvidence attempt = some q ∧ Grown p q) ⟨p, found, .refl p⟩ ?_
  rintro u o v ⟨q, middle, first⟩ h
  obtain ⟨r, last, second⟩ := operates_grown h middle
  exact ⟨r, last, first.trans second⟩

structure RecordedCapture (t : Tables) (o : Operation) (facts : ProcessEvidence) (u : Tables) : Prop where
  operates : Operates t o u
  call : ∃ scope, o.call = .process scope facts
  succeeded : o.result = .ok .done

theorem RecordedCapture.stored {facts : ProcessEvidence} (h : RecordedCapture t o facts u) :
    u.processEvidence facts.attemptId = some facts := by
  obtain ⟨store, env, call, result⟩ := o
  obtain ⟨⟨before, s', called, rfl⟩, ⟨scope, same⟩, succeeded⟩ := h
  dsimp only at before called same succeeded
  subst same succeeded before
  obtain ⟨result, recorded, ok⟩ := call_process called
  rcases recordProcess_stored recorded with ⟨kept, replayed⟩ | ran
  · cases result with
    | error => cases ok
    | ok u =>
      rw [kept]
      exact replayed u rfl
  · rw [((processBody_stored ran).2.2 _ rfl).1, Function.update_self]

/-- Of two successful recordings about one attempt in a run, the later has grown from the earlier and is what is stored; a quiescent
one is final. -/
theorem captures_grow {authority : Authority} {earlier between : List Operation} {o' : Operation} {facts facts' : ProcessEvidence}
    (before : Runs Operates (Tables.empty authority) earlier t) (first : RecordedCapture t o facts u)
    (run : Runs Operates u between v) (second : RecordedCapture v o' facts' w) (same : facts'.attemptId = facts.attemptId) :
    w.processEvidence facts.attemptId = some facts' ∧ Grown facts facts' ∧ (facts.quiescent = true → facts' = facts) := by
  have last := second.stored
  rw [same] at last
  obtain ⟨q, found, grown⟩ := runs_grown (.next run second.operates) first.stored
  cases found.symm.trans last
  have sound : Sound u := operates_sound (before.invariant Sound (fun _ _ found => by cases found) fun _ _ _ sound h => operates_sound sound h) first.operates
  refine ⟨last, grown, fun quiescent => grown.finished (sound _ _ first.stored quiescent) ?_⟩
  simp [incompleteCapture, quiescent]

end Runs

section Samples
open LifecycleRuns
attribute [local instance] sampleResources sampleNaming sampleEncoding

/-- Facts about the first attempt, without output. -/
def sampleCapture (scope : ProcessScope) (finished : Bool) (failureKind : ProcessFailureKind) : ProcessEvidence where
  contentDigest := processDigest
  attemptId := firstAttempt
  runner := processRunner
  scope := scope
  finished := finished
  exitCode := none
  processEnd := .unknown
  failureKind := failureKind
  quiescent := false
  stdout := []
  stderr := []
  totalOutputBytes := 0
  quality := .partialCapture

def delegatedCapture : ProcessEvidence :=
  sampleCapture (.delegated ⟨"user", .refl true⟩ ⟨"session", .refl true⟩) true .unavailable

def resumedCapture : ProcessEvidence := sampleCapture .preparing false .none

def captureCalls : List (Environment × Call) :=
  sampleCalls ++ [(sampleEnvironment 4, .process sampleScope delegatedCapture),
    (sampleEnvironment 5, .process sampleScope resumedCapture)]

def processReplies (operations : List Operation) : List (ProcessEvidence × Bool) :=
  operations.filterMap fun o =>
    match o.call, o.result with
    | .process _ facts, .ok .done => some (facts, true)
    | .process _ facts, _ => some (facts, false)
    | _, _ => none

/-- A provisional capture may be followed by one of an earlier stage that has not finished. -/
theorem provisional_resumed : Runs Operates (Tables.empty roomyStore.authority) (performed roomyStore captureCalls).1
      (performed roomyStore captureCalls).2.tables ∧
    processReplies (performed roomyStore captureCalls).1 = [(delegatedCapture, true), (resumedCapture, true)] ∧
    delegatedCapture.finished = true ∧ resumedCapture.finished = false ∧
    delegatedCapture.scope = .delegated ⟨"user", by decide⟩ ⟨"session", by decide⟩ ∧ resumedCapture.scope = .preparing :=
  ⟨performed_runs captureCalls roomyStore, by decide +kernel, rfl, rfl, rfl, rfl⟩

theorem recordedCapture_call {s : Store} {env : Environment} {scope : Scope} {facts : ProcessEvidence}
    (ok : (Store.call s env (.process scope facts)).2 = .ok .done) :
    RecordedCapture s.tables ⟨s, env, .process scope facts, .ok .done⟩ facts (Store.call s env (.process scope facts)).1.tables :=
  ⟨⟨rfl, _, Prod.ext rfl ok, rfl⟩, ⟨scope, rfl⟩, rfl⟩

theorem captures_grow_sample : ∃ w : Tables, w.processEvidence delegatedCapture.attemptId = some resumedCapture ∧
    Grown delegatedCapture resumedCapture ∧ (delegatedCapture.quiescent = true → resumedCapture = delegatedCapture) := by
  have before := performed_runs sampleCalls roomyStore
  have first : (Store.call (performed roomyStore sampleCalls).2 (sampleEnvironment 4) (.process sampleScope delegatedCapture)).2 =
      .ok .done := by decide +kernel
  have second : (Store.call (Store.call (performed roomyStore sampleCalls).2 (sampleEnvironment 4)
      (.process sampleScope delegatedCapture)).1 (sampleEnvironment 5) (.process sampleScope resumedCapture)).2 = .ok .done := by
    decide +kernel
  generalize (performed roomyStore sampleCalls).2 = s at before first second
  generalize called : Store.call s (sampleEnvironment 4) (.process sampleScope delegatedCapture) = called at second
  have recorded := recordedCapture_call first
  rw [called] at recorded
  exact ⟨_, captures_grow before recorded .refl (recordedCapture_call second) rfl⟩

end Samples

end RssMdmAgent.JournalCaptures
