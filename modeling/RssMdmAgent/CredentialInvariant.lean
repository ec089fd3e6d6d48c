import RssMdmAgent.CredentialRotation

set_option autoImplicit false

/-! # What the files of a rotation keep -/

namespace RssMdmAgent.CredentialRotation
open CrashPrograms Relation

section Histories

def Unapplied (log : List Event) : Prop := ∀ secret reply, .applied secret reply ∉ log

def Rejected (log : List Event) : Prop :=
  ∀ secret reply, .applied secret reply ∈ log → ∃ failure : Failure, reply = .error failure ∧ failure.definitive = true

def Applies (log : List Event) (secret : Secret) : Prop := ∀ other reply, .applied other reply ∈ log → other = secret

def Acked (log : List Event) (n : Name) (subject : Subject) (secret : Secret) : Prop :=
  ∃ escrow, .acknowledged n escrow ∈ log ∧ ∃ m, escrow.materials = [m] ∧ m.subject = subject ∧ m.secret = secret

def Escrowed (log : List Event) (secret : Secret) : Prop := ∃ n subject, Acked log n subject secret

def Located (log : List Event) (n : Name) (subject : Subject) (secret : Secret) : Prop :=
  ∃ first later, log = first ++ .located secret (some subject) :: later ∧ Acked first n subject secret

def Lists (r : Result) (escrow : Option Escrow) : Prop :=
  ∀ e, escrow = some e → ∀ m ∈ e.materials, ∃ item ∈ r.items, item.subject = m.subject

def Truthful (log : List Event) (n : Name) (r : Result) : Prop :=
  ∀ item ∈ r.items, item.outcome = .verified → ∃ secret, Acked log n item.subject secret ∧ Applies log secret

def Allowed (before : List Event) : Event → Prop
  | .applied _ _ => Unapplied before
  | .removed volume protector =>
    ∃ n subject secret, Located before n subject secret ∧ subject ≠ .bitlocker volume protector ∧ Applies before secret
  | .produced n r escrow => Lists r escrow ∧ Truthful before n r
  | _ => True

def Justified (log : List Event) : Prop := ∀ before event later, log = before ++ event :: later → Allowed before event

variable {log : List Event} {event : Event} {secret : Secret} {n : Name} {subject : Subject}

theorem Justified.append (justified : Justified log) (allowed : Allowed log event) : Justified (log ++ [event]) := by
  intro before other later same
  rcases List.eq_nil_or_concat later with rfl | ⟨rest, last, rfl⟩
  · obtain ⟨rfl, one⟩ := List.append_inj' same rfl
    cases one
    exact allowed
  · rw [List.concat_eq_append, ← List.cons_append, ← List.append_assoc] at same
    exact justified before other rest (List.append_inj' same rfl).1

theorem Acked.append (acked : Acked log n subject secret) : Acked (log ++ [event]) n subject secret := by
  obtain ⟨escrow, mem, named⟩ := acked
  exact ⟨escrow, List.mem_append_left _ mem, named⟩

theorem Located.append (located : Located log n subject secret) : Located (log ++ [event]) n subject secret := by
  obtain ⟨first, later, rfl, acked⟩ := located
  exact ⟨first, later ++ [event], by rw [List.append_assoc, List.cons_append], acked⟩

theorem Escrowed.append (escrowed : Escrowed log secret) : Escrowed (log ++ [event]) secret := by
  obtain ⟨n, subject, acked⟩ := escrowed
  exact ⟨n, subject, acked.append⟩

def Event.quiet : Event → Bool
  | .applied .. => false
  | _ => true

theorem mem_quiet {other : Secret} {reply : Except Failure Unit} (quiet : event.quiet = true)
    (mem : .applied other reply ∈ log ++ [event]) : .applied other reply ∈ log := by
  rcases List.mem_append.mp mem with mem | mem
  · exact mem
  · cases List.mem_singleton.mp mem
    cases quiet

end Histories

def Named (original : Task) (n : Name) : Prop := ∃ task, Concerns original task ∧ task.name = n

section Keeping
variable {Digest : Type} (digest : Escrow → Digest) (original : Task) (sec : Secret)

/-- The files of a rotation with a secret agree with what was done. -/
structure Kept (s : World Digest) : Prop where
  justified : Justified s.log
  record : ∀ r, s.states original.name = some r → r.task = original ∧ r.box = ⟨original, sec⟩ ∧
    (r.phase = .prepared → Unapplied s.log)
  fresh : s.states original.name = none → s.retired = false → s.begun = false →
    Unapplied s.log ∧ s.escrows original.name = none
  applied : Applies s.log sec
  recoverable : (∃ r, s.states original.name = some r) ∨ Rejected s.log ∨ Escrowed s.log sec
  escrow : ∀ n, Named original n → ∀ e, s.escrows n = some e → ∀ m ∈ e.materials, m.secret = sec
  ack : ∀ n, Named original n → ∀ d, s.acks n = some d → ∃ e, .acknowledged n e ∈ s.log ∧ digest e = d
  verified : ∀ n, Named original n → ∀ r, s.results n = some r → ∀ item ∈ r.items, item.outcome = .verified →
    Acked s.log n item.subject sec
  listed : ∀ n, Named original n → ∀ r, s.results n = some r → Lists r (s.escrows n)
  recovered : ∀ n, Named original n → n ≠ original.name → s.escrows n ≠ none ∨ s.results n ≠ none → s.begun = true
  attempted : ∀ n, Named original n → ∀ r, s.results n = some r → r.recovery = some .notAttempted →
    n ≠ original.name ∧ Unapplied s.log
  harmless : ∀ r, s.results original.name = some r → assessment r = .noEffect → Rejected s.log

variable {digest original sec} {s : World Digest} {n : Name}

theorem Kept.truthful (k : Kept digest original sec s) (named : Named original n) {r : Result} (h : s.results n = some r) :
    Truthful s.log n r := fun item mem verified => ⟨sec, k.verified n named r h item mem verified, k.applied⟩

theorem Kept.append {event : Event} (k : Kept digest original sec s) (allowed : Allowed s.log event) (quiet : event.quiet = true) :
    Kept digest original sec (s.append event) := by
  have unapplied : Unapplied s.log → Unapplied (s.log ++ [event]) :=
    fun none secret reply mem => none secret reply (mem_quiet quiet mem)
  have rejected : Rejected s.log → Rejected (s.log ++ [event]) :=
    fun all secret reply mem => all secret reply (mem_quiet quiet mem)
  refine ⟨k.justified.append allowed, fun r found => ?_, fun missing kept alone => ?_, fun other reply mem => ?_, ?_, k.escrow, ?_, ?_,
    k.listed, k.recovered, ?_, fun r found none => rejected (k.harmless r found none)⟩
  · obtain ⟨task, box, prepared⟩ := k.record r found
    exact ⟨task, box, fun same => unapplied (prepared same)⟩
  · obtain ⟨none, empty⟩ := k.fresh missing kept alone
    exact ⟨unapplied none, empty⟩
  · exact k.applied other reply (mem_quiet quiet mem)
  · exact k.recoverable.imp_right (Or.imp rejected Escrowed.append)
  · intro n named d found
    obtain ⟨e, mem, same⟩ := k.ack n named d found
    exact ⟨e, List.mem_append_left _ mem, same⟩
  · intro n named r found item mem verified
    exact (k.verified n named r found item mem verified).append
  · intro n named r found none
    exact (k.attempted n named r found none).imp_right unapplied

theorem Kept.acknowledge (k : Kept digest original sec s) (n : Name) (e : Escrow) :
    Kept digest original sec (World.append { s with acks := Function.update s.acks n (some (digest e)) } (.acknowledged n e)) := by
  have appended : Kept digest original sec (s.append (.acknowledged n e)) := k.append trivial rfl
  refine ⟨appended.justified, appended.record, appended.fresh, appended.applied, appended.recoverable, appended.escrow, ?_,
    appended.verified, appended.listed, appended.recovered, appended.attempted, appended.harmless⟩
  intro other named d found
  dsimp only [World.append] at found ⊢
  by_cases same : other = n
  · subst same
    rw [Function.update_self] at found
    exact ⟨e, List.mem_append_right _ List.mem_cons_self, Option.some.inj found⟩
  · rw [Function.update_of_ne same] at found
    exact appended.ack other named d found

theorem lists_unknown {task : Task} {failure : Failure} {escrow : Option Escrow} : Lists (unknownOf task failure escrow) escrow := by
  rintro e rfl m mem
  exact ⟨⟨m.subject, .unknown⟩, List.mem_map.mpr ⟨m, mem, rfl⟩, rfl⟩

theorem unknown_items {task : Task} {failure : Failure} {escrow : Option Escrow} :
    ∀ item ∈ (unknownOf task failure escrow).items, item.outcome = .unknown := by
  intro item mem
  unfold unknownOf at mem
  cases escrow with
  | none => cases mem
  | some e =>
    obtain ⟨m, -, rfl⟩ := List.mem_map.mp mem
    rfl

theorem Kept.interferes {t : World Digest} (k : Kept digest original sec s) (h : Interferes digest original s t) :
    Kept digest original sec t := by
  cases h with
  | acknowledge n e => exact k.acknowledge n e
  | turnedAway concerns failure =>
    refine k.append ⟨lists_unknown, fun item mem verified => ?_⟩ rfl
    rw [unknown_items item mem] at verified
    cases verified

theorem Kept.writeState {r : Record} (k : Kept digest original sec s) (task : r.task = original) (box : r.box = ⟨original, sec⟩)
    (phase : r.phase = .prepared → Unapplied s.log) :
    Kept digest original sec { s with states := Function.update s.states original.name (some r) } := by
  refine ⟨k.justified, fun other found => ?_, fun missing => ?_, k.applied, .inl ⟨r, Function.update_self ..⟩, k.escrow, k.ack,
    k.verified, k.listed, k.recovered, k.attempted, k.harmless⟩
  · dsimp only at found
    rw [Function.update_self] at found
    cases found
    exact ⟨task, box, phase⟩
  · dsimp only at missing
    rw [Function.update_self] at missing
    cases missing

theorem Kept.otherState {r : Option Record} (k : Kept digest original sec s) (other : n ≠ original.name) :
    Kept digest original sec { s with states := Function.update s.states n r } := by
  have same : Function.update s.states n r original.name = s.states original.name := Function.update_of_ne other.symm _ _
  exact ⟨k.justified, fun r found => k.record r (same ▸ found), fun missing => k.fresh (same ▸ missing), k.applied,
    k.recoverable.imp_left fun ⟨r, found⟩ => ⟨r, same.trans found⟩, k.escrow, k.ack, k.verified, k.listed, k.recovered, k.attempted,
    k.harmless⟩

theorem Kept.removeState (k : Kept digest original sec s) (closed : s.retired = true ∨ s.begun = true)
    (useless : Rejected s.log ∨ Escrowed s.log sec) :
    Kept digest original sec { s with states := Function.update s.states original.name none } := by
  refine ⟨k.justified, fun r found => ?_, fun _ kept alone => ?_, k.applied, .inr useless, k.escrow, k.ack,
    k.verified, k.listed, k.recovered, k.attempted, k.harmless⟩
  · dsimp only at found
    rw [Function.update_self] at found
    cases found
  · rcases closed with closed | closed
    · exact absurd (kept.symm.trans closed) Bool.false_ne_true
    · exact absurd (alone.symm.trans closed) Bool.false_ne_true

theorem Kept.writeEscrow {e : Escrow} (k : Kept digest original sec s) (open' : s.results n = none)
    (secrets : ∀ m ∈ e.materials, m.secret = sec) (begun : n ≠ original.name → s.begun = true)
    (stated : n = original.name → s.states original.name ≠ none) :
    Kept digest original sec { s with escrows := Function.update s.escrows n (some e) } := by
  refine ⟨k.justified, k.record, fun missing kept alone => ?_, k.applied, k.recoverable, ?_, k.ack, k.verified, ?_, ?_, k.attempted,
    k.harmless⟩
  · obtain ⟨none, empty⟩ := k.fresh missing kept alone
    refine ⟨none, ?_⟩
    have other : original.name ≠ n := fun same => stated same.symm missing
    exact (Function.update_of_ne other _ _).trans empty
  · intro other named e' found
    dsimp only at found
    by_cases same : other = n
    · subst same
      rw [Function.update_self] at found
      cases found
      exact secrets
    · rw [Function.update_of_ne same] at found
      exact k.escrow other named e' found
  · intro other named r found
    dsimp only at found ⊢
    by_cases same : other = n
    · subst same
      rw [open'] at found
      cases found
    · rw [Function.update_of_ne same]
      exact k.listed other named r found
  · intro other named differ present
    dsimp only at present
    by_cases same : other = n
    · exact begun (same ▸ differ)
    · rw [Function.update_of_ne same] at present
      exact k.recovered other named differ present

structure Good (original : Task) (sec : Secret) (n : Name) (r : Result) (s : World Digest) : Prop where
  verified : ∀ item ∈ r.items, item.outcome = .verified → Acked s.log n item.subject sec
  attempted : r.recovery = some .notAttempted → n ≠ original.name ∧ Unapplied s.log
  harmless : n = original.name → assessment r = .noEffect → Rejected s.log

theorem Kept.writeResult {r : Result} (k : Kept digest original sec s) (good : Good original sec n r s)
    (lists : Lists r (s.escrows n)) (begun : n ≠ original.name → s.begun = true) :
    Kept digest original sec { s with results := Function.update s.results n (some r) } := by
  have cases' {other : Name} {r' : Result} (found : Function.update s.results n (some r) other = some r') :
      (other = n ∧ r' = r) ∨ (other ≠ n ∧ s.results other = some r') := by
    by_cases same : other = n
    · subst same
      rw [Function.update_self] at found
      exact .inl ⟨rfl, (Option.some.inj found).symm⟩
    · rw [Function.update_of_ne same] at found
      exact .inr ⟨same, found⟩
  refine ⟨k.justified, k.record, k.fresh, k.applied, k.recoverable, k.escrow, k.ack, ?_, ?_, ?_, ?_, ?_⟩
  · intro other named r' found
    rcases cases' found with ⟨rfl, rfl⟩ | ⟨-, found⟩
    · exact good.verified
    · exact k.verified other named r' found
  · intro other named r' found
    rcases cases' found with ⟨rfl, rfl⟩ | ⟨-, found⟩
    · exact lists
    · exact k.listed other named r' found
  · intro other named differ present
    dsimp only at present
    by_cases same : other = n
    · exact begun (same ▸ differ)
    · rw [Function.update_of_ne same] at present
      exact k.recovered other named differ present
  · intro other named r' found
    rcases cases' found with ⟨rfl, rfl⟩ | ⟨-, found⟩
    · exact good.attempted
    · exact k.attempted other named r' found
  · intro r' found none
    rcases cases' found with ⟨same, rfl⟩ | ⟨-, found⟩
    · exact good.harmless same.symm none
    · exact k.harmless r' found none

theorem Kept.remove {escrows : Name → Option Escrow} {acks : Name → Option Digest} {results : Name → Option Result}
    (k : Kept digest original sec s) (fewerEscrows : ∀ n e, escrows n = some e → s.escrows n = some e)
    (fewerAcks : ∀ n d, acks n = some d → s.acks n = some d) (fewerResults : ∀ n r, results n = some r → s.results n = some r) :
    Kept digest original sec { s with escrows := escrows, acks := acks, results := results } := by
  refine ⟨k.justified, k.record, fun missing kept alone => ?_, k.applied, k.recoverable,
    fun n named e found => k.escrow n named e (fewerEscrows n e found), fun n named d found => k.ack n named d (fewerAcks n d found),
    fun n named r found => k.verified n named r (fewerResults n r found), fun n named r found e held => ?_, ?_,
    fun n named r found => k.attempted n named r (fewerResults n r found), fun r found => k.harmless r (fewerResults _ r found)⟩
  · obtain ⟨none, empty⟩ := k.fresh missing kept alone
    refine ⟨none, Option.eq_none_iff_forall_ne_some.mpr fun e found => ?_⟩
    rw [fewerEscrows _ e found] at empty
    cases empty
  · exact k.listed n named r (fewerResults n r found) e (fewerEscrows n e held)
  · intro n named differ present
    apply k.recovered n named differ
    rcases present with present | present
    · obtain ⟨e, found⟩ := Option.ne_none_iff_exists'.mp present
      exact .inl fun none => by rw [fewerEscrows n e found] at none; cases none
    · obtain ⟨r, found⟩ := Option.ne_none_iff_exists'.mp present
      exact .inr fun none => by rw [fewerResults n r found] at none; cases none

theorem Kept.closes {retired begun : Bool} (k : Kept digest original sec s) (accounts : AccountKey → Option Record)
    (retires : s.retired = true → retired = true) (begins : s.begun = true → begun = true) :
    Kept digest original sec { s with accounts := accounts, retired := retired, begun := begun } := by
  have stays {a b : Bool} (keeps : a = true → b = true) (no : b = false) : a = false := by
    cases a with
    | false => rfl
    | true => exact absurd (no.symm.trans (keeps rfl)) Bool.false_ne_true
  exact ⟨k.justified, k.record, fun missing kept alone => k.fresh missing (stays retires kept) (stays begins alone), k.applied,
    k.recoverable, k.escrow, k.ack, k.verified, k.listed, fun n named differ present => begins (k.recovered n named differ present),
    k.attempted, k.harmless⟩

theorem Kept.alone (k : Kept digest original sec s) (alone : s.begun = false) (named : Named original n)
    (present : s.escrows n ≠ none ∨ s.results n ≠ none) : n = original.name := by
  by_contra differ
  exact Bool.false_ne_true (alone.symm.trans (k.recovered n named differ present))

theorem Kept.create (k : Kept digest original sec s) (created : Secret) (missing : s.states original.name = none)
    (open' : s.results original.name = none) (kept : s.retired = false) (alone : s.begun = false) :
    Kept digest original created
      { s with states := Function.update s.states original.name (some ⟨original, .prepared, ⟨original, created⟩, none⟩) } := by
  obtain ⟨unapplied, empty⟩ := k.fresh missing kept alone
  refine ⟨k.justified, fun r found => ?_, fun missing => ?_, fun other reply mem => absurd mem (unapplied other reply),
    .inl ⟨_, Function.update_self ..⟩, ?_, k.ack, ?_, k.listed, k.recovered, k.attempted, k.harmless⟩
  · dsimp only at found
    rw [Function.update_self] at found
    cases found
    exact ⟨rfl, rfl, fun _ => unapplied⟩
  · dsimp only at missing
    rw [Function.update_self] at missing
    cases missing
  · intro n named e found
    have same := k.alone alone named (.inl fun none => by rw [none] at found; cases found)
    subst same
    rw [empty] at found
    cases found
  · intro n named r found
    have same := k.alone alone named (.inr fun none => by rw [none] at found; cases found)
    subst same
    rw [open'] at found
    cases found

theorem Kept.apply (k : Kept digest original sec s) (reply : Except Failure Unit) (unapplied : Unapplied s.log)
    (issued : ∃ r, s.states original.name = some r ∧ r.phase ≠ .prepared) (open' : s.results original.name = none)
    (alone : s.begun = false) : Kept digest original sec (s.append (.applied sec reply)) := by
  obtain ⟨held, found, phase⟩ := issued
  refine ⟨k.justified.append unapplied, fun r same => ?_, fun missing => ?_, fun other reply' mem => ?_, .inl ⟨held, found⟩, k.escrow,
    ?_, ?_, k.listed, k.recovered, ?_, ?_⟩
  · obtain ⟨task, box, -⟩ := k.record r same
    cases found.symm.trans same
    exact ⟨task, box, fun prepared => absurd prepared phase⟩
  · cases missing.symm.trans found
  · rcases List.mem_append.mp mem with mem | mem
    · exact k.applied other reply' mem
    · cases List.mem_singleton.mp mem
      rfl
  · intro n named d acked
    obtain ⟨e, mem, same⟩ := k.ack n named d acked
    exact ⟨e, List.mem_append_left _ mem, same⟩
  · intro n named r stored item mem verified
    exact (k.verified n named r stored item mem verified).append
  · intro n named r stored
    have same := k.alone alone named (.inr fun none => by cases none.symm.trans stored)
    subst same
    cases open'.symm.trans stored
  · intro r stored
    cases open'.symm.trans stored

end Keeping

end RssMdmAgent.CredentialRotation
