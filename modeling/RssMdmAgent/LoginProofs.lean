import RssMdmAgent.FactorThrottle
import RssMdmAgent.LoginRuns

set_option autoImplicit false

/-! # A changed login can be proven later -/

namespace RssMdmAgent.LoginRotation
open CrashPrograms CredentialRotation RecoveryMaterial TransitionRuns
open AccessRecords (Wire Digests Protector TableScan CredentialReceipt)
open AccessStore (Store)
open FactorThrottle (sampleWire sampleDigests sampleProtector sampleScan setupCalls)
open CredentialRotation (Record)

section Proofs
variable [Digests] [Protector] [Wire] [TableScan] {Digest : Type} {digest : Escrow → Digest} {original task : Task} {start : Store}
  {s t : LoginWorld Digest} {subject : Subject} {secret : Secret} {receipt : CredentialReceipt} {record : Record}

/-- The record of an issued rotation with its receipts. -/
structure Provable (original : Task) (secret : Secret) (record : Record) (receipts : List CredentialReceipt) (s : LoginWorld Digest) :
    Prop where
  stated : s.states original.name = some record
  owner : record.task = original
  box : record.box = ⟨original, secret⟩
  subject : record.subject = original.operation.login
  issued : record.phase ≠ .prepared
  received : s.receipts original.name = some receipts

/-- A recovery that has not run yet, while the store has the material. -/
structure Recovering (original task : Task) (subject : Subject) (secret : Secret) (receipt : CredentialReceipt) (s : LoginWorld Digest) :
    Prop where
  recovers : Recovers original task
  bound : task.bound original = true
  login : task.operation.login = some subject
  verifies : rotatesLogin task.operation = false
  current : original.operation.login = some subject ∧ rotatesLogin original.operation = true
  answers : receipt.subject = credentialSubject subject
  store : verifyRecoveryMaterial s.store (spec task) (credentialSubject subject) secret receipt = .ok true
  escrow : s.escrows task.name = none
  result : s.results task.name = none

abbrev Reaches {α : Type} (digest : Escrow → Digest) (original : Task) (w : Login Digest α) (s : LoginWorld Digest) (value : α)
    (t : LoginWorld Digest) : Prop :=
  (loginMachine digest original).Completes w s (.ok value) t

theorem request_reaches (c : LoginCall Digest) (value : Reply c) (h : serves s c (.ok value) t) :
    Reaches digest original (request c) s value t := Machine.Completes.ask h

theorem told (c : LoginCall Digest) (value : Reply c) (h : serves s c (.ok value) s) : Reaches digest original (request c) s value s :=
  request_reaches c value h

omit [Wire] [TableScan] [Digests] [Protector] in
theorem tells_ok {α : Type} {fact : α → Prop} {value : α} (h : fact value) : tells s fact (.ok value) s :=
  ⟨rfl, fun _ same => Except.ok.inj same ▸ h⟩

theorem openRecord_reaches (sealed : record.box.task = record.task) :
    Reaches digest original (openRecord record) s record.box.secret s :=
  .andThen (told (.unprotect record.box) record.box (tells_ok rfl)) (.neg (not_not.mpr sealed) .done)

variable (digest original)

def oneEscrow (task : Task) (subject : Subject) (secret : Secret) : Escrow := ⟨task.definition, [⟨subject, secret, 0⟩]⟩

theorem escrowFor_reaches (empty : s.escrows task.name = none) : Reaches digest original (escrowFor task subject secret) s
    (oneEscrow task subject secret) { s with escrows := Function.update s.escrows task.name (some (oneEscrow task subject secret)) } := by
  refine Machine.Completes.andThen (told (.readEscrow task.name) none (tells_ok empty.symm)) ?_
  refine Machine.Completes.andThen (told (.encrypt subject secret) ⟨subject, secret, 0⟩ (tells_ok ⟨0, rfl⟩)) ?_
  refine Machine.Completes.andThen (request_reaches (.writeEscrow task.name (oneEscrow task subject secret)) () (.inl rfl)) ?_
  exact .neg (by simp) .done

theorem awaitAck_reaches {e : Escrow} (pending : s.escrows task.name = some e) (receipts : List CredentialReceipt) :
    ∃ t, Reaches digest original (request (.awaitAck task.name (digest e))) s () t ∧ t.states = s.states ∧ t.escrows = s.escrows ∧
      t.receipts task.name = some receipts ∧ t.results = s.results ∧ t.store = s.store := by
  have known : .acknowledged task.name e receipts ∈ (s.log ++ [.offered task.name e]) ++ [.acknowledged task.name e receipts] :=
    List.mem_append_right _ List.mem_cons_self
  refine ⟨_, .interfere (.offer pending) (.interfere (.acknowledge receipts fun _ => List.mem_append_right _ List.mem_cons_self)
    (.interfere (.receive known) (.interfere (.confirm known) (told (.awaitAck task.name (digest e)) () ⟨rfl, fun _ => ?_⟩)))),
    rfl, rfl, ?_, rfl, rfl⟩
  · exact Function.update_self ..
  · exact Function.update_self ..

theorem commit_reaches (verifies : rotatesLogin task.operation = false) (answers : receipt.subject = credentialSubject subject)
    (store : verifyRecoveryMaterial s.store (spec task) (credentialSubject subject) secret receipt = .ok true)
    (empty : s.escrows task.name = none) (record : Record) (recovery : Option RecoveryOutcome) :
    ∃ t, Reaches digest original (commit digest task subject ⟨record, secret, recovery⟩) s
        ⟨task.definition, recovery, none, true, [⟨subject, .verified⟩]⟩ t ∧
      t.escrows task.name = some (oneEscrow task subject secret) := by
  have pending : ({ s with escrows := Function.update s.escrows task.name (some (oneEscrow task subject secret)) } :
      LoginWorld Digest).escrows task.name = some (oneEscrow task subject secret) := Function.update_self ..
  obtain ⟨t, acked, -, escrows, received, -, same⟩ := awaitAck_reaches digest original pending [receipt]
  refine ⟨{ t with states := Function.update t.states record.task.name (some { record with phase := .finished }) },
    .andThen (escrowFor_reaches digest original empty) (.andThen acked (.andThen
      (told (.readReceipts task.name) (some [receipt]) (tells_ok received.symm)) ?_)),
    escrows ▸ Function.update_self ..⟩
  refine .neg (not_not.mpr answers) (.andThen (.neg (by rw [verifies]; simp) .done) ?_)
  refine .andThen (told (.verifyRecoveryMaterial task subject secret receipt) true (tells_ok (same ▸ store))) (.pos rfl ?_)
  exact .andThen (request_reaches (.writeState record.task.name { record with phase := .finished }) () (.inl rfl)) .done

def appliedResult (task : Task) (subject : Subject) : Result := ⟨task.definition, some .applied, none, true, [⟨subject, .verified⟩]⟩

theorem executeInner_reaches (provable : Provable original secret record [receipt] s)
    (recovering : Recovering original task subject secret receipt s) :
    ∃ t, Reaches digest original (executeInner digest task) s (appliedResult task subject) t ∧
      t.escrows task.name = some (oneEscrow task subject secret) := by
  obtain ⟨stated, owner, box, named, issued, received⟩ := provable
  obtain ⟨⟨reference, found, names, -⟩, bound, login, verifies, ⟨current, rotates⟩, answers, store, empty, -⟩ := recovering
  obtain ⟨t, reached, escrowed⟩ := commit_reaches digest original verifies answers store empty record (some .applied)
  refine ⟨t, ?_, escrowed⟩
  unfold executeInner
  rw [login]
  unfold executeLogin
  rw [found]
  have one : original.taskId = reference.1 ∧ original.attemptId = reference.2 := by
    unfold Task.original Task.name at names
    simp only [Name.mk.injEq] at names
    exact ⟨names.2.2.1.symm, names.2.2.2.symm⟩
  refine Machine.Completes.andThen (a := (Except.ok ⟨record, secret, some .applied⟩ : Except Result Material)) ?_ reached
  refine .andThen (told (.readState (task.original reference)) (some record) (tells_ok (names ▸ stated.symm))) (.neg ?_ (.neg issued ?_))
  · rw [owner, bound, named, current, rotates, one.1, one.2]
    simp
  have opened : Reaches digest original (openRecord record) s secret s := by
    have reached : Reaches digest original (openRecord record) s record.box.secret s := openRecord_reaches (by rw [box, owner])
    rwa [box] at reached
  refine .andThen opened (.andThen (told (.readReceipts record.task.name) (some [receipt]) (tells_ok (owner ▸ received.symm))) ?_)
  exact .andThen (told (.verifyRecoveryMaterial task subject secret receipt) true (tells_ok store)) (.pos rfl .done)

omit [Digests] [Protector] [Wire] [TableScan] in
theorem withPending_applied : withPending (appliedResult task subject) (some (oneEscrow task subject secret)) = appliedResult task subject := by
  simp [withPending, oneEscrow, appliedResult]

theorem execute_reaches (provable : Provable original secret record [receipt] s)
    (recovering : Recovering original task subject secret receipt s) :
    ∃ t, Reaches digest original (execute digest task) s (appliedResult task subject) t := by
  obtain ⟨t, reached, escrowed⟩ := executeInner_reaches digest original provable recovering
  refine ⟨LoginWorld.append { t with results := Function.update t.results task.name (some (appliedResult task subject)) }
    (.frozen task.name (appliedResult task subject)), Machine.Completes.andThen (told .validate () rfl) ?_⟩
  refine .andThen (told (.readResult task.name) none (tells_ok recovering.result.symm)) (.andThen reached ?_)
  refine .andThen (told (.readEscrow task.name) (some (oneEscrow task subject secret)) (tells_ok escrowed.symm)) ?_
  rw [withPending_applied]
  exact .andThen (request_reaches (.writeResult task.name (appliedResult task subject)) () (.inl rfl)) .done

theorem recovery_applies (provable : Provable original secret record [receipt] s)
    (recovering : Recovering original task subject secret receipt s) :
    ∃ moves t, Runs (HostStep (loginMachine digest original) (LoginStarts digest original)) ⟨s, none⟩ moves ⟨t, none⟩ ∧
      .produced task.name (appliedResult task subject) ∈ t.log := by
  have provable : Provable original secret record [receipt] { s with begun := true } := { provable with }
  have begun : Recovering original task subject secret receipt { s with begun := true } := { recovering with }
  obtain ⟨t, executed⟩ := execute_reaches digest original provable begun
  have output : Reaches digest original (request (.output task.name (appliedResult task subject))) t ()
      (t.append (.produced task.name (appliedResult task subject))) := request_reaches (.output task.name (appliedResult task subject)) () (.inl rfl)
  have completes : (loginMachine digest original).Completes (Program.bind (result digest task) fun _ => .done ()) { s with begun := true }
    () (t.append (.produced task.name (appliedResult task subject))) :=
    Machine.Completes.bind (Machine.Completes.bind executed output) .done
  obtain ⟨moves, run⟩ := completes.runs (LoginStarts digest original)
  exact ⟨_, _, (Runs.one (.start (.recovery recovering.recovers))).trans run, List.mem_append_right _ List.mem_cons_self⟩

end Proofs

section Runs
variable [Digests] [Protector] [Wire] [TableScan] {Digest : Type} {digest : Escrow → Digest} {original : Task}

theorem actedLogin {s t : LoginWorld Digest} {start : Host (Fallible Error (@Reply Digest)) (LoginWorld Digest)}
    {moves : List (Move Job (LoginCall Digest))} {c : LoginCall Digest}
    {next : Fallible Error (@Reply Digest) c → Program (Fallible Error (@Reply Digest)) Unit}
    (earlier : Runs (HostStep (loginMachine digest original) (LoginStarts digest original)) start moves ⟨s, some (.call c next)⟩)
    (reply : Fallible Error (@Reply Digest) c) (h : serves s c reply t) :
    Runs (HostStep (loginMachine digest original) (LoginStarts digest original)) start (moves ++ [.act c]) ⟨t, some (next reply)⟩ :=
  earlier.next (.act h)

theorem disturbedLogin {s t : LoginWorld Digest} {start : Host (Fallible Error (@Reply Digest)) (LoginWorld Digest)}
    {moves : List (Move Job (LoginCall Digest))} {running : Option (Program (Fallible Error (@Reply Digest)) Unit)}
    (earlier : Runs (HostStep (loginMachine digest original) (LoginStarts digest original)) start moves ⟨s, running⟩)
    (h : Disturbs digest original s t) :
    Runs (HostStep (loginMachine digest original) (LoginStarts digest original)) start (moves ++ [.interfere]) ⟨t, running⟩ :=
  earlier.next (.interfere h)

/-- What holds in every state of a run: the store has only acknowledged material, all rotations are of one secret, nothing was
changed where a recovery reports so, and a change was proven or its record and receipts are there. -/
structure LoginRotated (original : Task) (start : Store) (s : LoginWorld Digest) : Prop where
  backed : Backed start s.log s.store
  one : ∀ secret receipt secret' receipt', .rotated secret receipt ∈ s.log → .rotated secret' receipt' ∈ s.log → secret = secret'
  unchanged : ∀ n r, .frozen n r ∈ s.log ∨ .produced n r ∈ s.log → r.recovery = some .notAttempted → Unrotated s.log
  provable : ∀ secret receipt, .rotated secret receipt ∈ s.log →
    Proven s.log ∨ ∃ record receipts, Provable original secret record receipts s

omit [Wire] [TableScan] in
theorem LoginKept.rotated {start : Store} {sec : Secret} {s : LoginWorld Digest} (k : LoginKept original start sec s) :
    LoginRotated original start s where
  backed := k.backed
  one := fun secret receipt secret' receipt' mem mem' => (k.installed secret receipt mem).trans (k.installed secret' receipt' mem').symm
  unchanged := fun n r mem none => by
    have frozen : .frozen n r ∈ s.log := mem.elim id fun mem => k.produced n r mem none
    obtain ⟨-, unrotated, -⟩ := k.spared n r frozen none
    exact unrotated
  provable := fun secret receipt mem => by
    rcases k.provable with unrotated | proven | ⟨stated, received⟩
    · exact absurd mem (unrotated secret receipt)
    · exact .inl proven
    · obtain ⟨record, found⟩ := Option.ne_none_iff_exists'.mp stated
      obtain ⟨receipts, there⟩ := Option.ne_none_iff_exists'.mp received
      obtain ⟨owner, box, subject, prepared⟩ := k.record record found
      have same := k.installed secret receipt mem
      exact .inr ⟨record, receipts, found, owner, same ▸ box, subject, fun same => prepared same secret receipt mem, there⟩

/-- A login rotation is committed only after its escrow, and stays provable by a recovery. -/
theorem rotation_stays_provable (rotation : original.recovery = none) (rotates : rotatesLogin original.operation = true)
    {start : LoginWorld Digest} {moves : List (Move Job (LoginCall Digest))}
    {host : Host (Fallible Error (@Reply Digest)) (LoginWorld Digest)} (untouched : UntouchedLogin original start)
    (run : Runs (HostStep (loginMachine digest original) (LoginStarts digest original)) ⟨start, none⟩ moves host) :
    LoginRotated original start.store host.state ∧
      ∀ task subject secret record receipt, host.running = none → Provable original secret record [receipt] host.state →
        Recovering original task subject secret receipt host.state →
        ∃ moves t, Runs (HostStep (loginMachine digest original) (LoginStarts digest original)) host moves ⟨t, none⟩ ∧
          .produced task.name (appliedResult task subject) ∈ t.log := by
  obtain ⟨⟨sec, k⟩, -⟩ := run_guarded (I := LoginInvariant original start.store) (fun _ _ ⟨sec, k⟩ h => ⟨sec, Disturbs.kept k h⟩)
    (fun _ _ _ _ inv h => login_starts_safe rotation rotates inv h) ⟨"", untouched.kept ""⟩ run
  refine ⟨k.rotated, fun task subject secret record receipt idle provable recovering => ?_⟩
  obtain ⟨s, running⟩ := host
  cases idle
  exact recovery_applies digest original provable recovering

end Runs

section Samples
attribute [local instance] sampleWire sampleDigests sampleProtector sampleScan

def sampleLogin : Task := ⟨3, "d", 4, 1, 10, 11, "definition", .start, .rotateRssLogin 5 1 "a", none⟩

def sampleLoginRecovery : Task := ⟨3, "d", 4, 1, 12, 13, "recovery", .start, .verifyRssLogin 5 1 "a", some (10, 11)⟩

def sampleStore : Store := (AccessSteps.runCalls AccessStore.create setupCalls).2

def sampleSubject : Subject := .rssLogin 5 1 "a"

def sampleSecret : Secret := (FactorThrottle.sampleCandidate 7 'E' 0).recovery

def sampleLoginReceipt : CredentialReceipt := ⟨credentialSubject sampleSubject, 9, 2⟩

def sampleLoginWorld : LoginWorld Escrow :=
  ⟨fun _ => none, fun _ => none, fun _ => none, fun _ => none, fun _ => none, sampleStore, false, false, []⟩

theorem sample_material : ∃ value, AccessStore.recoveryMaterial sampleStore (spec sampleLogin) (credentialSubject sampleSubject) = .ok value := by
  have found : (AccessStore.recoveryMaterial sampleStore (spec sampleLogin) (credentialSubject sampleSubject)).isOk = true := by
    decide +kernel
  cases h : AccessStore.recoveryMaterial sampleStore (spec sampleLogin) (credentialSubject sampleSubject) with
  | ok value => exact ⟨value, rfl⟩
  | error error =>
    rw [h] at found
    cases found

theorem sample_rotation : ∃ store,
    AccessStore.rotateRecovery sampleStore (spec sampleLogin) (credentialSubject sampleSubject) sampleSecret sampleLoginReceipt 0 = .ok store ∧
      verifyRecoveryMaterial store (spec sampleLoginRecovery) (credentialSubject sampleSubject) sampleSecret sampleLoginReceipt = .ok true := by
  have found : ((AccessStore.rotateRecovery sampleStore (spec sampleLogin) (credentialSubject sampleSubject) sampleSecret
      sampleLoginReceipt 0).toOption.any fun store => decide (verifyRecoveryMaterial store (spec sampleLoginRecovery)
        (credentialSubject sampleSubject) sampleSecret sampleLoginReceipt = .ok true)) = true := by decide +kernel
  cases h : AccessStore.rotateRecovery sampleStore (spec sampleLogin) (credentialSubject sampleSubject) sampleSecret sampleLoginReceipt 0 with
  | ok store =>
    rw [h] at found
    exact ⟨store, rfl, of_decide_eq_true found⟩
  | error error =>
    rw [h] at found
    cases found

theorem sample_login_run : ∃ moves host record, Runs (HostStep (loginMachine id sampleLogin) (LoginStarts id sampleLogin))
    ⟨sampleLoginWorld, none⟩ moves host ∧ host.running = none ∧ Provable sampleLogin sampleSecret record [sampleLoginReceipt] host.state ∧
      Recovering sampleLogin sampleLoginRecovery sampleSubject sampleSecret sampleLoginReceipt host.state := by
  obtain ⟨value, material⟩ := sample_material
  obtain ⟨store, rotated, verified⟩ := sample_rotation
  have begun : LoginStarts id sampleLogin sampleLoginWorld (.run sampleLogin) sampleLoginWorld _ := .original rfl rfl
  have run := Runs.one (HostStep.start (M := loginMachine id sampleLogin) begun)
  have run := actedLogin run (.ok ()) rfl
  have run := actedLogin run (.ok none) (tells_ok rfl)
  have run := actedLogin run (.ok none) (tells_ok rfl)
  have run := actedLogin run (.ok value) (tells_ok material)
  have run := actedLogin run (.ok sampleSecret) rfl
  have run := actedLogin run (.ok ⟨sampleLogin, sampleSecret⟩) (tells_ok rfl)
  have run := actedLogin run (.ok ()) (.inl rfl)
  have run := actedLogin run (.ok ⟨sampleLogin, sampleSecret⟩) (tells_ok rfl)
  have run := actedLogin run (.ok none) (tells_ok rfl)
  have run := actedLogin run (.ok ⟨sampleSubject, sampleSecret, 0⟩) (tells_ok ⟨0, rfl⟩)
  have run := actedLogin run (.ok ()) (.inl rfl)
  have run := disturbedLogin run (.offer (n := sampleLogin.name) (by dsimp only; exact Function.update_self ..))
  have run := disturbedLogin run (.acknowledge [sampleLoginReceipt] fun _ => List.mem_append_right _ List.mem_cons_self)
  have run := disturbedLogin run (.receive (List.mem_append_right _ List.mem_cons_self))
  have run := disturbedLogin run (.confirm (List.mem_append_right _ List.mem_cons_self))
  have run := actedLogin run (.ok ()) ⟨rfl, fun _ => rfl⟩
  have run := actedLogin run (.ok (some [sampleLoginReceipt])) (tells_ok rfl)
  have run := actedLogin run (.ok ()) (.inl rfl)
  have run := actedLogin run (.ok ()) (.inl ⟨0, store, rotated, rfl⟩)
  exact ⟨_, _, _, run.next .crash, rfl, ⟨rfl, rfl, rfl, rfl, by decide, rfl⟩,
    ⟨⟨(10, 11), rfl, rfl, by decide⟩, rfl, rfl, rfl, ⟨rfl, rfl⟩, rfl, verified, rfl, rfl⟩⟩

theorem sample_stays_provable : ∃ moves host, Runs (HostStep (loginMachine id sampleLogin) (LoginStarts id sampleLogin))
    ⟨sampleLoginWorld, none⟩ moves host ∧ LoginRotated sampleLogin sampleStore host.state ∧
      ∃ more t, Runs (HostStep (loginMachine id sampleLogin) (LoginStarts id sampleLogin)) host more ⟨t, none⟩ ∧
        .produced sampleLoginRecovery.name (appliedResult sampleLoginRecovery sampleSubject) ∈ t.log := by
  obtain ⟨moves, host, record, run, idle, provable, recovering⟩ := sample_login_run
  obtain ⟨holds, proves⟩ := rotation_stays_provable rfl rfl ⟨rfl, fun _ _ => rfl, fun _ _ => rfl, fun _ _ => rfl, rfl⟩ run
  exact ⟨moves, host, run, holds, proves _ _ _ _ _ idle provable recovering⟩

end Samples
end RssMdmAgent.LoginRotation
