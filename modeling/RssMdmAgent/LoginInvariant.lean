import RssMdmAgent.LoginRotation

set_option autoImplicit false

/-! # What the files and the store keep of a login rotation -/

namespace RssMdmAgent.LoginRotation
open CrashPrograms CredentialRotation RecoveryMaterial AccessSteps
open AccessRecords (Wire Digests Protector TableScan CredentialReceipt recoveryHash)
open AccessStore (Store)
open CredentialRotation (Record)

/-! ## Histories -/

def Unrotated (log : List LoginEvent) : Prop := ∀ secret receipt, .rotated secret receipt ∉ log

def Proven (log : List LoginEvent) : Prop := ∃ n r, .frozen n r ∈ log ∧ ∃ item ∈ r.items, item.outcome = .verified

def Seals (secret : Secret) (escrow : Escrow) : Prop := ∃ m, escrow.materials = [m] ∧ m.secret = secret

section Histories
variable {log : List LoginEvent} {event : LoginEvent} {secret : Secret} {receipt : CredentialReceipt}

def LoginEvent.quiet : LoginEvent → Bool
  | .rotated .. | .frozen .. => false
  | _ => true

theorem mem_loud {loud : LoginEvent} (quiet : event.quiet = true) (heard : loud.quiet = false) (mem : loud ∈ log ++ [event]) : loud ∈ log := by
  rcases List.mem_append.mp mem with mem | mem
  · exact mem
  · cases List.mem_singleton.mp mem
    cases quiet.symm.trans heard

theorem Unrotated.append (unrotated : Unrotated log) (differs : ∀ secret receipt, event ≠ .rotated secret receipt) :
    Unrotated (log ++ [event]) := by
  intro secret receipt mem
  rcases List.mem_append.mp mem with mem | mem
  · exact unrotated secret receipt mem
  · exact differs secret receipt (List.mem_singleton.mp mem).symm

theorem Proven.append (proven : Proven log) : Proven (log ++ [event]) := by
  obtain ⟨n, r, mem, item⟩ := proven
  exact ⟨n, r, List.mem_append_left _ mem, item⟩

theorem Received.append (received : Received log secret receipt) : Received (log ++ [event]) secret receipt := by
  obtain ⟨n, escrow, receipts, mem, among⟩ := received
  exact ⟨n, escrow, receipts, List.mem_append_left _ mem, among⟩

end Histories

/-! ## Records of the store -/

section Stores
variable [Wire] [Digests] [Protector]

omit [Wire] in
/-- The record has the material of a secret whose escrow was acknowledged with its receipt. -/
def Backs (log : List LoginEvent) (r : AccessRecords.Record) : Prop :=
  ∃ secret, Received log secret r.facts.recovery ∧ r.recoveryHash = recoveryHash r.authority secret ∧
    ∃ nonce, Protector.sealBytes nonce secret.toUTF8.toList = .ok r.recoverySecret

omit [Wire] in
/-- Every record has the material it started with, or material that was acknowledged. -/
def Backed (start : Store) (log : List LoginEvent) (store : Store) : Prop :=
  ∀ sid r, store.bindings.get sid = some r → (∃ old, start.bindings.get sid = some old ∧ Carries old r) ∨ Backs log r

variable {start store store' : Store} {log : List LoginEvent}

omit [Wire] in
theorem Backs.carried {old r : AccessRecords.Record} (backs : Backs log old) (carries : Carries old r) : Backs log r := by
  obtain ⟨secret, received, hash, nonce, sealed⟩ := backs
  refine ⟨secret, carries.facts ▸ received, ?_, nonce, carries.secret ▸ sealed⟩
  rw [carries.hash, carries.authority]
  exact hash

omit [Wire] in
theorem Backed.append {event : LoginEvent} (backed : Backed start log store) : Backed start (log ++ [event]) store := by
  intro sid r found
  refine (backed sid r found).imp_right ?_
  rintro ⟨secret, received, sealed⟩
  exact ⟨secret, received.append, sealed⟩

omit [Wire] in
theorem Backed.carried (backed : Backed start log store) (carried : Carried store store') : Backed start log store' := by
  intro sid r found
  obtain ⟨old, before, carries⟩ := carried sid r found
  rcases backed sid old before with ⟨first, there, same⟩ | backs
  · exact .inl ⟨first, there, carries.authority.trans same.authority, carries.hash.trans same.hash, carries.secret.trans same.secret,
      carries.facts.trans same.facts⟩
  · exact .inr (backs.carried carries)

omit [Wire] in
theorem Backed.saved (backed : Backed start log store) {r : AccessRecords.Record} (backs : Backs log r) :
    Backed start log (AccessStore.save store r) := by
  intro sid other found
  rw [saved_row] at found
  split at found
  · cases found
    exact .inr backs
  · exact backed sid other found

theorem Backed.rotated {task : AccessRecords.CredentialTaskSpec} {subject : AccessRecords.CredentialSubject} {recovery : String}
    {receipt : CredentialReceipt} {nonce : Nat} (backed : Backed start log store) (received : Received log recovery receipt)
    (done : AccessStore.rotateRecovery store task subject recovery receipt nonce = .ok store') : Backed start log store' := by
  rcases rotateRecovery_changed done with rfl | ⟨sid, r, body, -, sealed, rfl⟩
  · exact backed
  · exact backed.saved ⟨recovery, received, rfl, nonce, sealed⟩

theorem Backed.performed [TableScan] {c : AccessSteps.Call} {reply : AccessSteps.Reply} (backed : Backed start log store)
    (admissible : Admissible log store c) (performed : perform store c = (reply, store')) : Backed start log store' := by
  have step : Step store ⟨c, reply, usedBy store c reply⟩ store' := .answered performed rfl
  rcases step_carried step with carried | ⟨task, subject, recovery, receipt, nonce, rfl, done⟩ |
    ⟨authority, revision, enabled, operation, facts, clock, nonce, r, rfl, written, rfl⟩
  · exact backed.carried carried
  · exact backed.rotated admissible done
  · obtain ⟨plain, opened, hash, sealed, rfl⟩ := activation_material written
    exact backed.saved ⟨plain.recovery, admissible plain opened, hash, nonce + 1, sealed⟩

end Stores

/-! ## Files -/

section Keeping
variable [Digests] [Protector] {Digest : Type} (original : Task) (start : Store) (sec : Secret)

/-- The files of a login rotation with a secret and the store agree with what was done. -/
structure LoginKept (s : LoginWorld Digest) : Prop where
  backed : Backed start s.log s.store
  record : ∀ r, s.states original.name = some r → r.task = original ∧ r.box = ⟨original, sec⟩ ∧
    r.subject = original.operation.login ∧ (r.phase = .prepared → Unrotated s.log)
  fresh : s.states original.name = none → s.retired = false → s.begun = false →
    Unrotated s.log ∧ s.escrows original.name = none ∧ ∀ e, .offered original.name e ∉ s.log
  installed : ∀ secret receipt, .rotated secret receipt ∈ s.log → secret = sec
  escrow : ∀ n, Named original n → ∀ e, s.escrows n = some e → Seals sec e
  offered : ∀ n, Named original n → ∀ e, .offered n e ∈ s.log → Seals sec e
  acknowledged : ∀ n, Named original n → ∀ e receipts, .acknowledged n e receipts ∈ s.log → .offered n e ∈ s.log
  received : ∀ n, Named original n → ∀ receipts, s.receipts n = some receipts → ∃ e, .acknowledged n e receipts ∈ s.log
  provable : Unrotated s.log ∨ Proven s.log ∨ (s.states original.name ≠ none ∧ s.receipts original.name ≠ none)
  result : ∀ n, Named original n → ∀ r, s.results n = some r → .frozen n r ∈ s.log
  frozen : ∀ n r, .frozen n r ∈ s.log → n ≠ original.name → s.begun = true
  spared : ∀ n r, .frozen n r ∈ s.log → r.recovery = some .notAttempted → n ≠ original.name ∧ Unrotated s.log ∧
    ∀ record, s.states original.name = some record → record.phase = .prepared
  produced : ∀ n r, .produced n r ∈ s.log → r.recovery = some .notAttempted → .frozen n r ∈ s.log
  harmful : ∀ r, .frozen original.name r ∈ s.log → assessment r ≠ .noEffect
  recovered : ∀ n, Named original n → n ≠ original.name → (s.escrows n ≠ none ∨ ∃ e, .offered n e ∈ s.log) → s.begun = true

variable {original start sec} {s : LoginWorld Digest} {n : Name}

def Permitted (original : Task) (s : LoginWorld Digest) : LoginEvent → Prop
  | .offered n e => s.escrows n = some e
  | .acknowledged n e _ => Named original n → .offered n e ∈ s.log
  | .produced n r => r.recovery = some .notAttempted → .frozen n r ∈ s.log
  | _ => False

theorem LoginKept.append {event : LoginEvent} (k : LoginKept original start sec s) (permitted : Permitted original s event) :
    LoginKept original start sec (s.append event) := by
  have quiet : event.quiet = true := by
    cases event <;> first | rfl | exact permitted.elim
  have differs (secret : Secret) (receipt : CredentialReceipt) : event ≠ .rotated secret receipt := by
    rintro rfl
    cases quiet
  have old {other : LoginEvent} (mem : other ∈ s.log ++ [event]) : other ∈ s.log ∨ other = event :=
    (List.mem_append.mp mem).imp_right List.mem_singleton.mp
  refine { k with
    backed := k.backed.append
    record := fun r found => ?_
    fresh := fun missing kept alone => ?_
    installed := fun secret receipt mem => k.installed secret receipt (mem_loud quiet rfl mem)
    offered := fun n named e mem => ?_
    acknowledged := fun n named e receipts mem => ?_
    received := fun n named receipts found => ?_
    provable := k.provable.imp (·.append differs) (Or.imp_left Proven.append)
    result := fun n named r found => List.mem_append_left _ (k.result n named r found)
    frozen := fun n r mem => k.frozen n r (mem_loud quiet rfl mem)
    spared := fun n r mem none => ?_
    produced := fun n r mem none => ?_
    harmful := fun r mem => k.harmful r (mem_loud quiet rfl mem)
    recovered := fun n named differ present => ?_ }
  · obtain ⟨task, box, subject, prepared⟩ := k.record r found
    exact ⟨task, box, subject, fun same => (prepared same).append differs⟩
  · obtain ⟨unrotated, empty, none⟩ := k.fresh missing kept alone
    refine ⟨unrotated.append differs, empty, fun e mem => ?_⟩
    rcases old mem with mem | rfl
    · exact none e mem
    · cases empty.symm.trans permitted
  · rcases old mem with mem | rfl
    · exact k.offered n named e mem
    · exact k.escrow n named e permitted
  · rcases old mem with mem | rfl
    · exact List.mem_append_left _ (k.acknowledged n named e receipts mem)
    · exact List.mem_append_left _ (permitted named)
  · obtain ⟨e, mem⟩ := k.received n named receipts found
    exact ⟨e, List.mem_append_left _ mem⟩
  · obtain ⟨other, unrotated, prepared⟩ := k.spared n r (mem_loud quiet rfl mem) none
    exact ⟨other, unrotated.append differs, prepared⟩
  · rcases old mem with mem | rfl
    · exact List.mem_append_left _ (k.produced n r mem none)
    · exact List.mem_append_left _ (permitted none)
  · refine k.recovered n named differ ?_
    rcases present with present | ⟨e, mem⟩
    · exact .inl present
    · rcases old mem with mem | rfl
      · exact .inr ⟨e, mem⟩
      · exact .inl fun none => by cases none.symm.trans permitted

theorem LoginKept.closes {retired begun : Bool} (k : LoginKept original start sec s) (retires : s.retired = true → retired = true)
    (begins : s.begun = true → begun = true) : LoginKept original start sec { s with retired := retired, begun := begun } := by
  have stays {a b : Bool} (keeps : a = true → b = true) (no : b = false) : a = false := by
    cases a with
    | false => rfl
    | true => exact absurd (no.symm.trans (keeps rfl)) Bool.false_ne_true
  exact { k with
    fresh := fun missing kept alone => k.fresh missing (stays retires kept) (stays begins alone)
    frozen := fun n r mem differ => begins (k.frozen n r mem differ)
    recovered := fun n named differ present => begins (k.recovered n named differ present) }

theorem LoginKept.confirm {acks : Name → Option Digest} (k : LoginKept original start sec s) :
    LoginKept original start sec { s with acks := acks } := { k with }

theorem LoginKept.receive {e : Escrow} {receipts : List CredentialReceipt} (k : LoginKept original start sec s)
    (known : .acknowledged n e receipts ∈ s.log) :
    LoginKept original start sec { s with receipts := Function.update s.receipts n (some receipts) } := by
  refine { k with
    received := fun m named others found => ?_
    provable := k.provable.imp_right (Or.imp_right fun h => ⟨h.1, fun none => ?_⟩) }
  · dsimp only at found
    by_cases same : m = n
    · subst same
      rw [Function.update_self] at found
      cases found
      exact ⟨e, known⟩
    · rw [Function.update_of_ne same] at found
      exact k.received m named others found
  · dsimp only at none
    by_cases same : original.name = n
    · rw [same, Function.update_self] at none
      cases none
    · rw [Function.update_of_ne same] at none
      exact h.2 none

theorem LoginKept.removeReceipts (k : LoginKept original start sec s) (useless : n ≠ original.name ∨ Unrotated s.log ∨ Proven s.log) :
    LoginKept original start sec { s with receipts := Function.update s.receipts n none } := by
  refine { k with
    received := fun m named others found => ?_
    provable := ?_ }
  · dsimp only at found
    by_cases same : m = n
    · rw [same, Function.update_self] at found
      cases found
    · rw [Function.update_of_ne same] at found
      exact k.received m named others found
  · rcases useless with other | unrotated | proven
    · refine k.provable.imp_right (Or.imp_right fun h => ⟨h.1, fun none => h.2 ?_⟩)
      dsimp only at none
      rwa [Function.update_of_ne other.symm] at none
    · exact .inl unrotated
    · exact .inr (.inl proven)

theorem LoginKept.otherState {r : Option Record} (k : LoginKept original start sec s) (other : n ≠ original.name) :
    LoginKept original start sec { s with states := Function.update s.states n r } := by
  have same : Function.update s.states n r original.name = s.states original.name := Function.update_of_ne other.symm _ _
  exact { k with
    record := fun r found => k.record r (same ▸ found)
    fresh := fun missing => k.fresh (same ▸ missing)
    provable := k.provable.imp_right (Or.imp_right fun h => ⟨fun none => h.1 (same.symm.trans none), h.2⟩)
    spared := fun n r mem none => (k.spared n r mem none).imp_right fun h => ⟨h.1, fun r found => h.2 r (same ▸ found)⟩ }

theorem LoginKept.removeState (k : LoginKept original start sec s) (closed : s.retired = true ∨ s.begun = true)
    (useless : Unrotated s.log ∨ Proven s.log) :
    LoginKept original start sec { s with states := Function.update s.states original.name none } := by
  refine { k with
    record := fun r found => ?_
    fresh := fun _ kept alone => ?_
    provable := useless.imp_right .inl
    spared := fun n r mem none => (k.spared n r mem none).imp_right fun h => ⟨h.1, fun r found => ?_⟩ }
  · dsimp only at found
    rw [Function.update_self] at found
    cases found
  · rcases closed with closed | closed
    · exact absurd (kept.symm.trans closed) Bool.false_ne_true
    · exact absurd (alone.symm.trans closed) Bool.false_ne_true
  · dsimp only at found
    rw [Function.update_self] at found
    cases found

theorem LoginKept.writeState {r : Record} (k : LoginKept original start sec s) (task : r.task = original) (box : r.box = ⟨original, sec⟩)
    (subject : r.subject = original.operation.login) (issued : r.phase ≠ .prepared)
    (attempts : ∀ n r, .frozen n r ∈ s.log → r.recovery ≠ some .notAttempted) :
    LoginKept original start sec { s with states := Function.update s.states original.name (some r) } := by
  refine { k with
    record := fun other found => ?_
    fresh := fun missing => ?_
    provable := k.provable.imp_right (Or.imp_right fun h => ⟨?_, h.2⟩)
    spared := fun n r mem none => absurd none (attempts n r mem) }
  · dsimp only at found
    rw [Function.update_self] at found
    cases found
    exact ⟨task, box, subject, fun prepared => absurd prepared issued⟩
  · dsimp only at missing
    rw [Function.update_self] at missing
    cases missing
  · dsimp only
    rw [Function.update_self]
    exact Option.some_ne_none r

theorem LoginKept.writeEscrow {e : Escrow} (k : LoginKept original start sec s) (seals : Seals sec e)
    (begun : n ≠ original.name → s.begun = true) (stated : n = original.name → s.states original.name ≠ none) :
    LoginKept original start sec { s with escrows := Function.update s.escrows n (some e) } := by
  refine { k with
    fresh := fun missing kept alone => ?_
    escrow := fun m named other found => ?_
    recovered := fun m named differ present => ?_ }
  · obtain ⟨none, empty, unoffered⟩ := k.fresh missing kept alone
    have other : original.name ≠ n := fun same => stated same.symm missing
    exact ⟨none, (Function.update_of_ne other _ _).trans empty, unoffered⟩
  · dsimp only at found
    by_cases same : m = n
    · subst same
      rw [Function.update_self] at found
      cases found
      exact seals
    · rw [Function.update_of_ne same] at found
      exact k.escrow m named other found
  · by_cases same : m = n
    · exact begun (same ▸ differ)
    · dsimp only at present
      rw [Function.update_of_ne same] at present
      exact k.recovered m named differ present

theorem LoginKept.remove {escrows : Name → Option Escrow} {acks : Name → Option Digest} {results : Name → Option Result}
    (k : LoginKept original start sec s) (fewerEscrows : ∀ n e, escrows n = some e → s.escrows n = some e)
    (fewerResults : ∀ n r, results n = some r → s.results n = some r) :
    LoginKept original start sec { s with escrows := escrows, acks := acks, results := results } := by
  refine { k with
    fresh := fun missing kept alone => ?_
    escrow := fun n named e found => k.escrow n named e (fewerEscrows n e found)
    result := fun n named r found => k.result n named r (fewerResults n r found)
    recovered := fun n named differ present => k.recovered n named differ ?_ }
  · obtain ⟨none, empty, unoffered⟩ := k.fresh missing kept alone
    refine ⟨none, Option.eq_none_iff_forall_ne_some.mpr fun e found => ?_, unoffered⟩
    cases empty.symm.trans (fewerEscrows _ e found)
  · refine present.imp_left fun present none => present (Option.eq_none_iff_forall_ne_some.mpr fun e found => ?_)
    cases none.symm.trans (fewerEscrows n e found)

theorem LoginKept.store {store : Store} (k : LoginKept original start sec s) (backed : Backed start s.log store) :
    LoginKept original start sec { s with store := store } := { k with backed := backed }

theorem LoginKept.create (k : LoginKept original start sec s) (created : Secret)
    (missing : s.states original.name = none) (kept : s.retired = false) (alone : s.begun = false) :
    LoginKept original start created
      { s with
        states := Function.update s.states original.name
          (some ⟨original, .prepared, ⟨original, created⟩, original.operation.login⟩) } := by
  obtain ⟨unrotated, empty, unoffered⟩ := k.fresh missing kept alone
  have others {n : Name} (named : Named original n) : s.escrows n = none ∧ ∀ e, .offered n e ∉ s.log := by
    by_cases same : n = original.name
    · exact same ▸ ⟨empty, unoffered⟩
    · have begins : ¬(s.escrows n ≠ none ∨ ∃ e, .offered n e ∈ s.log) :=
        fun present => Bool.false_ne_true (alone.symm.trans (k.recovered n named same present))
      rw [not_or, not_not, not_exists] at begins
      exact begins
  refine { k with
    record := fun r found => ?_
    fresh := fun missing => ?_
    installed := fun secret receipt mem => absurd mem (unrotated secret receipt)
    escrow := fun n named e found => ?_
    offered := fun n named e mem => absurd mem ((others named).2 e)
    provable := .inl unrotated
    spared := fun n r mem none => (k.spared n r mem none).imp_right fun h => ⟨h.1, fun r found => ?_⟩ }
  · dsimp only at found
    rw [Function.update_self] at found
    cases found
    exact ⟨rfl, rfl, rfl, fun _ => unrotated⟩
  · dsimp only at missing
    rw [Function.update_self] at missing
    cases missing
  · cases (others named).1.symm.trans found
  · dsimp only at found
    rw [Function.update_self] at found
    cases found
    rfl

theorem LoginKept.rotate {store : Store} (k : LoginKept original start sec s) (receipt : CredentialReceipt) (backed : Backed start s.log store)
    (issued : ∃ r, s.states original.name = some r ∧ r.phase ≠ .prepared) (receipts : s.receipts original.name ≠ none) :
    LoginKept original start sec (LoginWorld.append { s with store := store } (.rotated sec receipt)) := by
  obtain ⟨held, there, phase⟩ := issued
  have present : s.states original.name ≠ none := fun none => by cases none.symm.trans there
  have old {other : LoginEvent} (differs : other ≠ .rotated sec receipt) (mem : other ∈ s.log ++ [.rotated sec receipt]) : other ∈ s.log :=
    (List.mem_append.mp mem).resolve_right fun last => differs (List.mem_singleton.mp last)
  refine { k with
    backed := backed.append
    record := fun r found => ?_
    fresh := fun missing => absurd missing present
    installed := fun secret other mem => ?_
    offered := fun n named e mem => k.offered n named e (old (by simp) mem)
    acknowledged := fun n named e others mem => List.mem_append_left _ (k.acknowledged n named e others (old (by simp) mem))
    received := fun n named others found => (k.received n named others found).imp fun e mem => List.mem_append_left _ mem
    provable := .inr (.inr ⟨present, receipts⟩)
    result := fun n named r found => List.mem_append_left _ (k.result n named r found)
    frozen := fun n r mem => k.frozen n r (old (by simp) mem)
    spared := fun n r mem none => ?_
    produced := fun n r mem none => List.mem_append_left _ (k.produced n r (old (by simp) mem) none)
    harmful := fun r mem => k.harmful r (old (by simp) mem)
    recovered := fun n named differ present => k.recovered n named differ ?_ }
  · obtain ⟨task, box, subject, -⟩ := k.record r found
    cases there.symm.trans found
    exact ⟨task, box, subject, fun prepared => absurd prepared phase⟩
  · rcases List.mem_append.mp mem with mem | mem
    · exact k.installed secret other mem
    · cases List.mem_singleton.mp mem
      rfl
  · obtain ⟨-, -, prepared⟩ := k.spared n r (old (by simp) mem) none
    exact absurd (prepared held there) phase
  · exact present.imp_right fun ⟨e, mem⟩ => ⟨e, old (by simp) mem⟩

structure LoginGood (original : Task) (n : Name) (r : Result) (s : LoginWorld Digest) : Prop where
  spared : r.recovery = some .notAttempted → n ≠ original.name ∧ Unrotated s.log ∧
    ∀ record, s.states original.name = some record → record.phase = .prepared
  harmful : n = original.name → assessment r ≠ .noEffect

theorem LoginKept.freeze {r : Result} (k : LoginKept original start sec s) (good : LoginGood original n r s)
    (begun : n ≠ original.name → s.begun = true) :
    LoginKept original start sec (LoginWorld.append { s with results := Function.update s.results n (some r) } (.frozen n r)) := by
  have differs (secret : Secret) (receipt : CredentialReceipt) : LoginEvent.frozen n r ≠ .rotated secret receipt := by simp
  have old {other : LoginEvent} (differs : other ≠ .frozen n r) (mem : other ∈ s.log ++ [.frozen n r]) : other ∈ s.log :=
    (List.mem_append.mp mem).resolve_right fun last => differs (List.mem_singleton.mp last)
  refine { k with
    backed := k.backed.append
    record := fun r found => ?_
    fresh := fun missing kept alone => ?_
    installed := fun secret receipt mem => k.installed secret receipt (old (by simp) mem)
    offered := fun n named e mem => k.offered n named e (old (by simp) mem)
    acknowledged := fun n named e others mem => List.mem_append_left _ (k.acknowledged n named e others (old (by simp) mem))
    received := fun n named others found => (k.received n named others found).imp fun e mem => List.mem_append_left _ mem
    provable := k.provable.imp (·.append differs) (Or.imp_left Proven.append)
    result := fun m named other found => ?_
    frozen := fun m other mem differ => ?_
    spared := fun m other mem none => ?_
    produced := fun m other mem none => List.mem_append_left _ (k.produced m other (old (by simp) mem) none)
    harmful := fun other mem => ?_
    recovered := fun n named differ present => k.recovered n named differ ?_ }
  · obtain ⟨task, box, subject, prepared⟩ := k.record r found
    exact ⟨task, box, subject, fun same => (prepared same).append differs⟩
  · obtain ⟨unrotated, empty, none⟩ := k.fresh missing kept alone
    exact ⟨unrotated.append differs, empty, fun e mem => none e (old (by simp) mem)⟩
  · dsimp only [LoginWorld.append] at found
    by_cases same : m = n
    · subst same
      rw [Function.update_self] at found
      cases found
      exact List.mem_append_right _ List.mem_cons_self
    · rw [Function.update_of_ne same] at found
      exact List.mem_append_left _ (k.result m named other found)
  · rcases List.mem_append.mp mem with mem | mem
    · exact k.frozen m other mem differ
    · cases List.mem_singleton.mp mem
      exact begun differ
  · rcases List.mem_append.mp mem with mem | mem
    · obtain ⟨differ, unrotated, prepared⟩ := k.spared m other mem none
      exact ⟨differ, unrotated.append differs, prepared⟩
    · cases List.mem_singleton.mp mem
      obtain ⟨differ, unrotated, prepared⟩ := good.spared none
      exact ⟨differ, unrotated.append differs, prepared⟩
  · rcases List.mem_append.mp mem with mem | mem
    · exact k.harmful other mem
    · cases List.mem_singleton.mp mem
      exact good.harmful rfl
  · exact present.imp_right fun ⟨e, mem⟩ => ⟨e, old (by simp) mem⟩

end Keeping

end RssMdmAgent.LoginRotation
