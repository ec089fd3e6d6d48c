import RssMdmAgent.DocumentSizes
import RssMdmAgent.InteractionState
import RssMdmAgent.ContractPlan
import RssMdmAgent.TransitionRuns

set_option autoImplicit false

/-! # The outcome of an interaction over whole runs -/

namespace RssMdmAgent.InteractionRuns
open BoundedArithmetic JsonDocument InteractionModel InteractionState TransitionRuns
open ContractPlan (bind_ok)

/-! ## Room for every terminal record -/

theorem require_ok {ok : Bool} {error : InteractionError} {u : Unit} : require ok error = .ok u ↔ ok = true := by
  cases ok <;> simp [require]

theorem longest_size : textSize longestReference.value = 130 := by decide +kernel

theorem reference_size (r : Reference) : textSize r.value ≤ textSize longestReference.value := by
  have valid := r.valid
  unfold validReference at valid
  simp only [Bool.and_eq_true, decide_eq_true_eq, List.all_eq_true] at valid
  obtain ⟨⟨-, short⟩, characters⟩ := valid
  have bound : textSize r.value ≤ 2 + r.value.utf8ByteSize :=
    textSize_le fun c mem => escapedSize_among (by decide) (characters c mem)
  have longest := longest_size
  omega

abbrev settled (s : Snapshot) (status : Status) : Snapshot :=
  { s with
    revision := 1
    status := status }

/-- The largest response of the same family. -/
def Response.longest : Response → Response
  | .confirmation _ => .confirmation false
  | .privacyConsent _ => .privacyConsent false
  | .administratorDecision _ => .administratorDecision longestReference
  | .parameterSubmission _ => .parameterSubmission longestReference
  | .maintenanceSelection _ => .maintenanceSelection longestReference
  | .restartSelection _ => .restartSelection longestReference

def Command.longest : Command → Command
  | .answer _ response => .answer longestReference (Response.longest response)
  | .cancel _ => .cancel longestReference
  | .checkExpiry => .checkExpiry

def Status.longest : Status → Status
  | .pending => .pending
  | .answered _ response _ => .answered longestReference (Response.longest response) maxWord
  | .cancelled _ _ => .cancelled longestReference maxWord
  | .expired command _ => .expired (Command.longest command) maxWord

theorem response_size (response : Response) : response.toJson.size ≤ (Response.longest response).toJson.size := by
  cases response with
  | confirmation accepted | privacyConsent accepted =>
    cases accepted <;> simp only [Response.longest, Response.toJson, Json.size, membersSize, List.length_cons, List.length_nil] <;> simp
  | administratorDecision r | parameterSubmission r | maintenanceSelection r | restartSelection r =>
    have bound := reference_size r
    simp only [Response.longest, Response.toJson, Json.size, membersSize, List.length_cons, List.length_nil]
    omega

theorem command_size (command : Command) : command.toJson.size ≤ (Command.longest command).toJson.size := by
  cases command with
  | answer id response =>
    have bound := reference_size id
    have answered := response_size response
    simp only [Command.longest, Command.toJson, Json.size, membersSize, List.length_cons, List.length_nil]
    omega
  | cancel id =>
    have bound := reference_size id
    simp only [Command.longest, Command.toJson, Json.size, membersSize, List.length_cons, List.length_nil]
    omega
  | checkExpiry => exact Nat.le_refl _

def Status.time : Status → Option Nat
  | .pending => none
  | .answered _ _ time | .cancelled _ time | .expired _ time => some time

theorem status_size {status : Status} (word : ∀ time, Status.time status = some time → time ≤ maxWord) :
    status.toJson.size ≤ (Status.longest status).toJson.size := by
  cases status with
  | pending => exact Nat.le_refl _
  | answered id response time =>
    have bound := reference_size id
    have answered := response_size response
    have digits := natSize_mono (word time rfl)
    simp only [Status.longest, Status.toJson, Json.size, membersSize, List.length_cons, List.length_nil, size_nat]
    omega
  | cancelled id time =>
    have bound := reference_size id
    have digits := natSize_mono (word time rfl)
    simp only [Status.longest, Status.toJson, Json.size, membersSize, List.length_cons, List.length_nil, size_nat]
    omega
  | expired command time =>
    have bound := command_size command
    have digits := natSize_mono (word time rfl)
    simp only [Status.longest, Status.toJson, Json.size, membersSize, List.length_cons, List.length_nil, size_nat]
    omega

theorem accepts_longest (kind : Kind) (response : Response) : kind.accepts (Response.longest response) = kind.accepts response := by
  cases kind <;> cases response <;> simp [Response.longest, Kind.accepts]

theorem longest_responses (response : Response) : Response.longest response ∈ longestResponses := by
  cases response <;> simp [Response.longest, longestResponses]

theorem longest_statuses {kind : Kind} {status : Status} (ended : status ≠ .pending)
    (kinded : ∀ id response time, status = .answered id response time → kind.accepts response = true) :
    Status.longest status ∈ longestStatuses kind := by
  unfold longestStatuses
  rw [List.mem_append]
  cases status with
  | pending => exact absurd rfl ended
  | answered id response time =>
    refine .inr (List.mem_flatMap.mpr ⟨_, longest_responses response, List.mem_append_left _ ?_⟩)
    rw [accepts_longest, kinded id response time rfl]
    exact List.mem_singleton_self _
  | cancelled id time => exact .inl List.mem_cons_self
  | expired command time =>
    cases command with
    | answer id response =>
      exact .inr (List.mem_flatMap.mpr ⟨_, longest_responses response, List.mem_append_right _ (List.mem_singleton_self _)⟩)
    | cancel id => exact .inl (by simp [Status.longest, Command.longest])
    | checkExpiry => exact .inl (by simp [Status.longest, Command.longest])

theorem snapshot_size (s : Snapshot) {a b : Status} (shorter : a.toJson.size ≤ b.toJson.size) :
    (settled s a).toJson.size ≤ (settled s b).toJson.size := by
  simp only [Snapshot.toJson, Json.size, membersSize, List.length_cons, List.length_nil]
  omega

/-- What a restoration has checked. -/
structure Checked (s : Snapshot) (limits : Limits) : Prop where
  positive : validateLimits limits = .ok ()
  version : s.version = snapshotVersion
  ordered : s.openedAtUnixMs < s.spec.expiresAtUnixMs
  lifetime : s.spec.expiresAtUnixMs - s.openedAtUnixMs ≤ limits.maxLifetimeMs
  status : validStatus s = true
  size : s.toJson.size ≤ limits.maxSnapshotBytes
  room : terminalFits s limits = true

theorem restorable_ok {s : Snapshot} {limits : Limits} : restorable s limits = .ok () ↔ Checked s limits := by
  unfold restorable
  constructor
  · intro h
    obtain ⟨_, positive, h⟩ := bind_ok.mp h
    obtain ⟨_, shaped, h⟩ := bind_ok.mp h
    obtain ⟨_, lifetime, h⟩ := bind_ok.mp h
    obtain ⟨_, status, h⟩ := bind_ok.mp h
    obtain ⟨_, size, room⟩ := bind_ok.mp h
    simp only [require_ok, Bool.and_eq_true, beq_iff_eq, decide_eq_true_eq] at shaped lifetime status size room
    exact ⟨positive, shaped.1, shaped.2, lifetime, status, size, room⟩
  · rintro ⟨positive, version, ordered, lifetime, status, size, room⟩
    refine bind_ok.mpr ⟨(), positive, bind_ok.mpr ⟨(), ?_, bind_ok.mpr ⟨(), ?_, bind_ok.mpr ⟨(), ?_, bind_ok.mpr ⟨(), ?_, ?_⟩⟩⟩⟩⟩
    · simp [require_ok, version, ordered]
    · simp [require_ok, lifetime]
    · simp [require_ok, status]
    · simp [require_ok, size]
    · simp [require_ok, room]

theorem Interaction.checked (i : Interaction) : Checked i.snapshot i.limits := restorable_ok.mp i.valid

theorem restore_ok {s : Snapshot} {limits : Limits} {i : Interaction} (h : restore s limits = .ok i) :
    i.snapshot = s ∧ i.limits = limits := by
  unfold restore at h
  split at h
  · cases h
    exact ⟨rfl, rfl⟩
  · cases h

theorem restore_checked {s : Snapshot} {limits : Limits} (checked : Checked s limits) :
    ∃ i, restore s limits = .ok i ∧ i.snapshot = s ∧ i.limits = limits := by
  have passes := restorable_ok.mpr checked
  cases restored : restore s limits with
  | ok i => exact ⟨i, rfl, restore_ok restored⟩
  | error error =>
    unfold restore at restored
    split at restored
    · cases restored
    · next failed =>
      rw [passes] at failed
      cases failed

theorem restore_terminal (i : Interaction) (pending : i.snapshot.status = .pending) {status : Status} (ended : status ≠ .pending)
    (word : ∀ time, Status.time status = some time → time ≤ maxWord) (fits : validStatus (settled i.snapshot status) = true) :
    ∃ next, restore (settled i.snapshot status) i.limits = .ok next ∧ next.snapshot = settled i.snapshot status := by
  obtain ⟨positive, version, ordered, lifetime, -, -, room⟩ := Interaction.checked i
  have kinded : ∀ id response time, status = .answered id response time → i.snapshot.spec.kind.accepts response = true := by
    rintro id response time rfl
    unfold validStatus at fits
    simp only [Bool.and_eq_true] at fits
    exact fits.2
  have reserved : (settled i.snapshot (Status.longest status)).toJson.size ≤ i.limits.maxSnapshotBytes := by
    unfold terminalFits at room
    rw [pending] at room
    simp only [ne_eq, not_true_eq_false, decide_false, Bool.false_or, List.all_eq_true, decide_eq_true_eq] at room
    exact room _ (longest_statuses ended kinded)
  have stored : Checked (settled i.snapshot status) i.limits := by
    refine ⟨positive, version, ordered, lifetime, fits, ?_, ?_⟩
    · exact Nat.le_trans (snapshot_size i.snapshot (status_size word)) reserved
    · simp [terminalFits, ended]
  obtain ⟨next, restored, snapshot, -⟩ := restore_checked stored
  exact ⟨next, restored, snapshot⟩

/-! ## Evaluation -/

structure Proposes (s : Snapshot) (command : Command) (now : Nat) (status : Status) (outcome : Outcome) : Prop where
  winner : Status.command status = some command
  time : Status.time status = some now
  fits : validStatus (settled s status) = true
  outcome : outcome = .answered ∨ outcome = .cancelled ∨ outcome = .expired

theorem proposed_proposes {s : Snapshot} {command : Command} {now : Nat} {status : Status} {outcome : Outcome}
    (later : s.openedAtUnixMs ≤ now) (h : proposed s command now = .ok (some (status, outcome))) :
    Proposes s command now status outcome := by
  unfold proposed at h
  split at h
  · next due =>
    cases h
    exact ⟨rfl, rfl, by simp [validStatus, due], .inr (.inr rfl)⟩
  next early =>
  have early := Nat.lt_of_not_le early
  split at h
  · cases h
  · cases h
    exact ⟨rfl, rfl, by simp [validStatus, later, early], .inr (.inl rfl)⟩
  · split at h
    · next accepted =>
      cases h
      exact ⟨rfl, rfl, by simp [validStatus, later, early, accepted], .inl rfl⟩
    · cases h

theorem Proposes.ended {s : Snapshot} {command : Command} {now : Nat} {status : Status} {outcome : Outcome}
    (proposes : Proposes s command now status outcome) : status ≠ .pending := by
  rintro rfl
  cases proposes.winner

def reply (winner command : Command) : Except InteractionError Evaluation :=
  if command = winner then .ok ⟨.duplicate, none⟩
  else if winner.id.isSome ∧ winner.id = command.id then .error .idempotencyConflict
  else .ok ⟨.late, none⟩

section Evaluation
variable {i : Interaction} {command : Command} {now : Nat}

theorem evaluate_ended {winner : Command} (later : Snapshot.committedAt i.snapshot ≤ now)
    (ended : Status.command i.snapshot.status = some winner) : i.evaluate command now = reply winner command := by
  unfold Interaction.evaluate
  dsimp only
  rw [if_neg (Nat.not_lt.mpr later), ended]
  rfl

theorem pending_iff {status : Status} : Status.command status = none ↔ status = .pending := by
  cases status <;> simp [Status.command]

theorem evaluate_proposed {status : Status} {outcome : Outcome} (later : Snapshot.committedAt i.snapshot ≤ now) (word : now ≤ maxWord)
    (pending : i.snapshot.status = .pending) (proposal : proposed i.snapshot command now = .ok (some (status, outcome))) :
    ∃ next, Proposes i.snapshot command now status outcome ∧ next.snapshot = (settled i.snapshot status) ∧
      i.evaluate command now = .ok ⟨outcome, some ⟨i.snapshot.revision, next⟩⟩ := by
  have opened : i.snapshot.openedAtUnixMs ≤ now := by
    unfold Snapshot.committedAt at later
    rwa [pending] at later
  have proposes := proposed_proposes opened proposal
  have timed : ∀ time, Status.time status = some time → time ≤ maxWord := by
    intro time same
    rw [proposes.time, Option.some.injEq] at same
    exact same ▸ word
  obtain ⟨next, restored, snapshot⟩ := restore_terminal i pending proposes.ended timed proposes.fits
  refine ⟨next, proposes, snapshot, ?_⟩
  unfold Interaction.evaluate
  dsimp only
  rw [if_neg (Nat.not_lt.mpr later), pending_iff.mpr pending, proposal]
  simp only [bind, Except.bind, restored]
  rfl

/-- A pending interaction follows the proposal. -/
theorem evaluate_pending (command : Command) (later : Snapshot.committedAt i.snapshot ≤ now) (word : now ≤ maxWord)
    (pending : i.snapshot.status = .pending) :
    (i.evaluate command now = .error .responseKind) ∨ (i.evaluate command now = .ok ⟨.notDue, none⟩) ∨
      ∃ status outcome next, Proposes i.snapshot command now status outcome ∧ next.snapshot = (settled i.snapshot status) ∧
        i.evaluate command now = .ok ⟨outcome, some ⟨i.snapshot.revision, next⟩⟩ := by
  have follows : i.evaluate command now = (proposed i.snapshot command now).bind fun offered =>
      offered.elim (.ok ⟨.notDue, none⟩) fun p =>
        (restore (settled i.snapshot p.1) i.limits).bind fun next => .ok ⟨p.2, some ⟨i.snapshot.revision, next⟩⟩ := by
    unfold Interaction.evaluate
    dsimp only
    rewrite [if_neg (Nat.not_lt.mpr later), pending_iff.mpr pending]
    rcases proposed i.snapshot command now with _ | _ | ⟨status, outcome⟩ <;> rfl
  cases proposal : proposed i.snapshot command now with
  | error error =>
    refine .inl ?_
    have kind : error = .responseKind := by
      unfold proposed at proposal
      split at proposal
      · cases proposal
      split at proposal
      · cases proposal
      · cases proposal
      · split at proposal
        · cases proposal
        · exact (Except.error.inj proposal).symm
    rw [follows, proposal, kind]
    rfl
  | ok offered =>
    cases offered with
    | none =>
      refine .inr (.inl ?_)
      rw [follows, proposal]
      rfl
    | some pair =>
      obtain ⟨status, outcome⟩ := pair
      obtain ⟨next, found⟩ := evaluate_proposed later word pending proposal
      exact .inr (.inr ⟨status, outcome, next, found⟩)

end Evaluation

/-! ## Runs -/

inductive Label where
  | evaluated (command : Command) (now : Nat) (reply : Except InteractionError Outcome) (stored : Bool)
  | restored

structure Host where
  interaction : Interaction
  clock : Nat

/-- Times never decrease. An evaluation is stored, or changes nothing; a restoration may have other limits. -/
inductive Step (s : Host) : Label → Host → Prop where
  | stored {command : Command} {now : Nat} {evaluation : Evaluation} {t : Transition} (later : s.clock ≤ now) (word : now ≤ maxWord)
      (evaluated : s.interaction.evaluate command now = .ok evaluation) (offered : evaluation.transition = some t) :
      Step s (.evaluated command now (.ok evaluation.outcome) true) ⟨t.next, now⟩
  | unstored {command : Command} {now : Nat} (later : s.clock ≤ now) (word : now ≤ maxWord) :
      Step s (.evaluated command now ((s.interaction.evaluate command now).map Evaluation.outcome) false) ⟨s.interaction, now⟩
  | restored {limits : Limits} {i : Interaction} (valid : restore s.interaction.snapshot limits = .ok i) : Step s .restored ⟨i, s.clock⟩

def Label.commit : Label → Option (Command × Nat)
  | .evaluated command now _ true => some (command, now)
  | _ => none

def commits (labels : List Label) : List (Command × Nat) := labels.filterMap Label.commit

def ending (status : Status) : Option (Command × Nat) :=
  match Status.command status, Status.time status with
  | some command, some time => some (command, time)
  | _, _ => none

structure Followed (spec : Spec) (opened : Nat) (labels : List Label) (s : Host) : Prop where
  spec : s.interaction.snapshot.spec = spec
  opened : s.interaction.snapshot.openedAtUnixMs = opened
  clock : Snapshot.committedAt s.interaction.snapshot ≤ s.clock
  commits : commits labels = (ending s.interaction.snapshot.status).toList

section Following
variable {spec : Spec} {opened : Nat} {labels : List Label} {s t : Host} {label : Label}

theorem commits_append : commits (labels ++ [label]) = commits labels ++ label.commit.toList := by
  unfold commits
  rw [List.filterMap_append]
  cases found : label.commit <;> simp [found]

theorem committedAt_ended {s : Snapshot} {time : Nat} (timed : Status.time s.status = some time) : Snapshot.committedAt s = time := by
  unfold Snapshot.committedAt
  cases status : s.status with
  | pending =>
    rw [status] at timed
    cases timed
  | answered | cancelled | expired =>
    rw [status] at timed
    exact Option.some.inj timed

theorem stored_step {command : Command} {now : Nat} {evaluation : Evaluation} {offer : Transition} {i : Interaction}
    (later : Snapshot.committedAt i.snapshot ≤ now) (word : now ≤ maxWord) (evaluated : i.evaluate command now = .ok evaluation)
    (offered : evaluation.transition = some offer) :
    i.snapshot.status = .pending ∧ ∃ status outcome, Proposes i.snapshot command now status outcome ∧ offer.next.snapshot = (settled i.snapshot status) := by
  cases ended : Status.command i.snapshot.status with
  | some winner =>
    rw [evaluate_ended later ended, reply] at evaluated
    split at evaluated
    · cases evaluated
      cases offered
    split at evaluated
    · cases evaluated
    · cases evaluated
      cases offered
  | none =>
    have pending := pending_iff.mp ended
    refine ⟨pending, ?_⟩
    rcases evaluate_pending command later word pending with refused | idle | ⟨status, outcome, next, proposes, snapshot, same⟩
    · rw [refused] at evaluated
      cases evaluated
    · rw [idle] at evaluated
      cases evaluated
      cases offered
    · rw [same] at evaluated
      cases evaluated
      cases offered
      exact ⟨status, outcome, proposes, snapshot⟩

theorem Followed.step (followed : Followed spec opened labels s) (h : Step s label t) : Followed spec opened (labels ++ [label]) t := by
  obtain ⟨same, began, clock, won⟩ := followed
  cases h with
  | @stored command now evaluation offer later word evaluated offered =>
    obtain ⟨pending, status, outcome, proposes, snapshot⟩ := stored_step (Nat.le_trans clock later) word evaluated offered
    refine ⟨by rw [snapshot]; exact same, by rw [snapshot]; exact began, ?_, ?_⟩
    · rw [snapshot, committedAt_ended proposes.time]
    · rw [commits_append, won, pending, snapshot]
      unfold ending
      rw [proposes.winner, proposes.time]
      rfl
  | @unstored command now later word =>
    exact ⟨same, began, Nat.le_trans clock later, by rw [commits_append, won]; exact List.append_nil _⟩
  | restored valid =>
    obtain ⟨snapshot, -⟩ := restore_ok valid
    refine ⟨by rw [snapshot]; exact same, by rw [snapshot]; exact began, by rw [snapshot]; exact clock, ?_⟩
    rw [commits_append, won, snapshot]
    exact List.append_nil _

theorem runs_followed {limits : Limits} {start : Interaction} (created : Interaction.create spec opened limits = .ok start)
    (run : Runs Step ⟨start, opened⟩ labels s) : Followed spec opened labels s := by
  refine run.history (Followed spec opened) ?_ fun _ _ _ _ followed h => followed.step h
  obtain ⟨snapshot, -⟩ := restore_ok created
  refine ⟨?_, ?_, ?_, ?_⟩ <;> dsimp only <;> rw [snapshot] <;> rfl

theorem ended_kept (clock : Snapshot.committedAt s.interaction.snapshot ≤ s.clock) (ended : s.interaction.snapshot.status ≠ .pending)
    (run : Runs Step s labels t) : t.interaction.snapshot = s.interaction.snapshot ∧ commits labels = [] := by
  have kept : (t.interaction.snapshot = s.interaction.snapshot ∧ Snapshot.committedAt t.interaction.snapshot ≤ t.clock) ∧
      commits labels = [] := by
    refine run.history (fun labels t => (t.interaction.snapshot = s.interaction.snapshot ∧
      Snapshot.committedAt t.interaction.snapshot ≤ t.clock) ∧ commits labels = []) ⟨⟨rfl, clock⟩, rfl⟩ ?_
    rintro done u label v ⟨⟨same, before⟩, none⟩ h
    rw [commits_append, none]
    cases h with
    | stored later word evaluated offered =>
      obtain ⟨pending, -⟩ := stored_step (Nat.le_trans before later) word evaluated offered
      exact absurd (same ▸ pending) ended
    | unstored later word => exact ⟨⟨same, Nat.le_trans before later⟩, rfl⟩
    | restored valid =>
      obtain ⟨snapshot, -⟩ := restore_ok valid
      exact ⟨⟨snapshot.trans same, by rw [snapshot]; exact before⟩, rfl⟩
  exact ⟨kept.1.1, kept.2⟩

end Following

/-- One outcome: at most one stored transition, which is the status and stays so; an answer only of the right kind and before the
deadline; from the deadline on the next command finds it expired; after the end a repetition, a reused identity and a late command
are told apart; and no command fails for want of room. -/
structure OneOutcome (spec : Spec) (opened : Nat) (labels : List Label) (s : Host) : Prop where
  once : commits labels = (ending s.interaction.snapshot.status).toList
  kept : s.interaction.snapshot.status ≠ .pending → ∀ later t, Runs Step s later t →
    t.interaction.snapshot = s.interaction.snapshot ∧ commits later = []
  answered : ∀ id response time, s.interaction.snapshot.status = .answered id response time →
    spec.kind.accepts response = true ∧ opened ≤ time ∧ time < spec.expiresAtUnixMs
  due : s.interaction.snapshot.status = .pending → ∀ command now, s.clock ≤ now → now ≤ maxWord → spec.expiresAtUnixMs ≤ now →
    (s.interaction.evaluate command now).map Evaluation.outcome = .ok .expired
  replies : ∀ winner, Status.command s.interaction.snapshot.status = some winner → ∀ command now, s.clock ≤ now →
    s.interaction.evaluate command now = reply winner command
  room : ∀ command now error, s.clock ≤ now → now ≤ maxWord → s.interaction.evaluate command now = .error error →
    error = .responseKind ∨ error = .idempotencyConflict

/-- An interaction has exactly one outcome in every run. -/
theorem one_outcome {spec : Spec} {opened : Nat} {limits : Limits} {start : Interaction} {labels : List Label} {s : Host}
    (created : Interaction.create spec opened limits = .ok start) (run : Runs Step ⟨start, opened⟩ labels s) :
    OneOutcome spec opened labels s := by
  obtain ⟨same, began, clock, won⟩ := runs_followed created run
  have checked := Interaction.checked s.interaction
  refine ⟨won, fun ended later t run => ended_kept clock ended run, ?_, ?_, ?_, ?_⟩
  · intro id response time answered
    have valid := checked.status
    unfold validStatus at valid
    rw [answered] at valid
    simp only [Bool.and_eq_true, decide_eq_true_eq, same, began] at valid
    exact ⟨valid.2, valid.1.1.2, valid.1.2⟩
  · intro pending command now later word due
    have expired : proposed s.interaction.snapshot command now = .ok (some (.expired command now, .expired)) := by
      unfold proposed
      rw [same, if_pos due]
    obtain ⟨next, -, -, found⟩ := evaluate_proposed (Nat.le_trans clock later) word pending expired
    rw [found]
    rfl
  · exact fun winner ended command now later => evaluate_ended (Nat.le_trans clock later) ended
  · intro command now error later word failed
    cases ended : Status.command s.interaction.snapshot.status with
    | some winner =>
      rw [evaluate_ended (Nat.le_trans clock later) ended, reply] at failed
      split at failed
      · cases failed
      split at failed
      · cases failed
        exact .inr rfl
      · cases failed
    | none =>
      rcases evaluate_pending command (Nat.le_trans clock later) word (pending_iff.mp ended) with refused | idle | ⟨_, _, _, -, -, found⟩
      · rw [refused] at failed
        cases failed
        exact .inl rfl
      · rw [idle] at failed
        cases failed
      · rw [found] at failed
        cases failed

def sampleSpec : Spec :=
  { id := longestReference
    subject := longestReference
    kind := .privacyConsent longestReference
    expiresAtUnixMs := 20 }

theorem one_outcome_sample : ∃ labels s, commits labels = [(.answer longestReference (.privacyConsent true), 7)] ∧
    OneOutcome sampleSpec 5 labels s := by
  have valid : restorable (openedSnapshot sampleSpec 5) ⟨4096, 60⟩ = .ok () := by
    simp only [restorable, openedSnapshot, sampleSpec, terminalFits, longestStatuses, longestResponses, Kind.accepts, List.flatMap_cons,
      List.flatMap_nil, List.cons_append, List.nil_append, List.all_append, List.all_cons, List.all_nil, Snapshot.toJson, Spec.toJson,
      Kind.toJson, Status.toJson, Command.toJson, Response.toJson, Json.size, membersSize, longest_size]
    decide +kernel
  obtain ⟨start, created, snapshot, -⟩ := restore_checked (restorable_ok.mp valid)
  have clock : 5 ≤ 7 := by decide
  have word : 7 ≤ maxWord := by decide
  have opened : Snapshot.committedAt start.snapshot ≤ 7 := by rw [snapshot]; decide
  have pending : start.snapshot.status = .pending := by rw [snapshot]; rfl
  have proposal : proposed start.snapshot (.answer longestReference (.privacyConsent true)) 7 =
      .ok (some (.answered longestReference (.privacyConsent true) 7, .answered)) := by rw [snapshot]; rfl
  obtain ⟨next, -, -, evaluated⟩ := evaluate_proposed opened word pending proposal
  refine ⟨_, _, ?_, one_outcome created (Runs.one (.stored clock word evaluated rfl))⟩
  rfl

end RssMdmAgent.InteractionRuns
