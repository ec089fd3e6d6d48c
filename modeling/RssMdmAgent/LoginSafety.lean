import RssMdmAgent.LoginInvariant

set_option autoImplicit false

/-! # Every call of a login rotation keeps the secret -/

namespace RssMdmAgent.LoginRotation
open CrashPrograms CredentialRotation RecoveryMaterial
open AccessRecords (Wire Digests Protector TableScan CredentialReceipt)
open AccessStore (Store)
open CredentialRotation (Record)

section Histories

theorem unrotated_grows (log : List LoginEvent) (event : LoginEvent) (quiet : event.quiet = true) (h : Unrotated log) :
    Unrotated (log ++ [event]) := by
  refine h.append fun secret receipt same => ?_
  rw [same] at quiet
  cases quiet

def Attempts (log : List LoginEvent) : Prop := ∀ n r, .frozen n r ∈ log → r.recovery ≠ some .notAttempted

theorem attempts_grows (log : List LoginEvent) (event : LoginEvent) (quiet : event.quiet = true) (h : Attempts log) :
    Attempts (log ++ [event]) := fun n r mem => h n r (mem_loud quiet rfl mem)

theorem changed {Digest : Type} {s after t : LoginWorld Digest} {reply : Except Error Unit} (h : changes s after reply t) :
    t = after ∨ (t = s ∧ ∀ value, reply ≠ .ok value) := by
  rcases h with done | ⟨same, failed⟩
  · exact .inl done
  · exact .inr ⟨same, fun _ ok => failed ok⟩

end Histories

section Rules
variable [Wire] [Digests] [Protector] [TableScan] {Digest : Type} {digest : Escrow → Digest} {original : Task} {start : Store}
  {s t : LoginWorld Digest}

omit [Wire] [TableScan] in
/-- Some secret agrees with the files and with the store. -/
def LoginInvariant (original : Task) (start : Store) (s : LoginWorld Digest) : Prop := ∃ sec, LoginKept original start sec s

theorem Disturbs.kept {sec : Secret} (k : LoginKept original start sec s) (h : Disturbs digest original s t) :
    LoginKept original start sec t := by
  cases h with
  | offer pending => exact k.append pending
  | acknowledge receipts offered => exact k.append offered
  | receive known => exact k.receive known
  | confirm known => exact k.confirm
  | store performed admissible => exact k.store (k.backed.performed admissible performed)
  | turnedAway concerns failure => exact k.append fun none => by cases none

/-- What disturbs a worker leaves its files and its results as they are, and takes no receipts away. -/
structure Undisturbed (s t : LoginWorld Digest) : Prop where
  states : t.states = s.states
  escrows : t.escrows = s.escrows
  retired : t.retired = s.retired
  begun : t.begun = s.begun
  receipts : ∀ n, s.receipts n ≠ none → t.receipts n ≠ none
  log : t.log = s.log ∨ ∃ event : LoginEvent, event.quiet = true ∧ t.log = s.log ++ [event]

theorem Disturbs.undisturbed (h : Disturbs digest original s t) : Undisturbed s t := by
  cases h with
  | offer | acknowledge | turnedAway => exact ⟨rfl, rfl, rfl, rfl, fun _ => id, .inr ⟨_, rfl, rfl⟩⟩
  | @receive n e receipts known =>
    refine ⟨rfl, rfl, rfl, rfl, fun m present => ?_, .inl rfl⟩
    dsimp only
    by_cases same : m = n
    · rw [same, Function.update_self]
      exact Option.some_ne_none receipts
    · rwa [Function.update_of_ne same]
  | confirm | store => exact ⟨rfl, rfl, rfl, rfl, fun _ => id, .inl rfl⟩

theorem stable_states {p : (Name → Option Record) → Prop} : (loginMachine digest original).Stable fun s => p s.states :=
  fun _ t h step => ((Disturbs.undisturbed step).states ▸ h : p t.states)

theorem stable_receipts {n : Name} : (loginMachine digest original).Stable fun s => s.receipts n ≠ none :=
  fun _ _ h step => (Disturbs.undisturbed step).receipts n h

theorem stable_history {p : List LoginEvent → Prop} (grows : ∀ log (event : LoginEvent), event.quiet = true → p log → p (log ++ [event])) :
    (loginMachine digest original).Stable fun s => p s.log := by
  intro s t h step
  rcases (Disturbs.undisturbed step).log with same | ⟨event, quiet, same⟩
  · exact same ▸ h
  · rw [same]
    exact grows s.log event quiet h

abbrev KeepsLogin {α : Type} (digest : Escrow → Digest) (original : Task) (start : Store) (w : Login Digest α)
    (Q : α → LoginWorld Digest → Prop) (s : LoginWorld Digest) : Prop :=
  (loginMachine digest original).Works (LoginInvariant original start) w Q s

abbrev Grounds (digest : Escrow → Digest) (original : Task) (start : Store) (P : LoginWorld Digest → Prop) : Prop :=
  (loginMachine digest original).Ground (LoginInvariant original start) P

end Rules

section Workers
variable (original task : Task) (start : Store) (sec : Secret) [Digests] [Protector] {Digest : Type}

structure LoginWorking (s : LoginWorld Digest) : Prop where
  kept : LoginKept original start sec s
  own : task.name = original.name → s.retired = false ∧ s.begun = false
  begun : task.name ≠ original.name → s.begun = true

structure LoginHolding (s : LoginWorld Digest) : Prop extends LoginWorking original task start sec s where
  held : s.states original.name ≠ none
  attempts : Attempts s.log
  issued : task.name ≠ original.name → (∃ r, s.states original.name = some r ∧ r.phase ≠ .prepared) ∧ s.receipts original.name ≠ none

variable [Wire] [TableScan] {original task start sec} {digest : Escrow → Digest} {s t : LoginWorld Digest}

theorem ground_login_kept : Grounds digest original start (LoginKept original start sec) :=
  ⟨fun _ _ k h => Disturbs.kept k h, fun _ k => ⟨sec, k⟩⟩

theorem ground_login_working : Grounds digest original start (LoginWorking original task start sec) := by
  refine ⟨fun s t w h => ?_, fun _ w => ⟨sec, w.kept⟩⟩
  have u := Disturbs.undisturbed h
  exact ⟨Disturbs.kept w.kept h, fun same => u.retired ▸ u.begun ▸ w.own same, fun differ => u.begun ▸ w.begun differ⟩

theorem ground_login_holding : Grounds digest original start (LoginHolding original task start sec) := by
  refine ⟨fun s t w h => ?_, fun _ w => ⟨sec, w.kept⟩⟩
  have u := Disturbs.undisturbed h
  refine ⟨ground_login_working.stable _ _ w.toLoginWorking h, u.states ▸ w.held, stable_history attempts_grows _ _ w.attempts h,
    fun differ => ?_⟩
  obtain ⟨issued, receipts⟩ := w.issued differ
  exact ⟨u.states ▸ issued, u.receipts _ receipts⟩

omit [Wire] [TableScan] in
theorem LoginWorking.attempts (w : LoginWorking original task start sec s) (own : task.name = original.name) : Attempts s.log := by
  intro n r mem none
  obtain ⟨differ, -⟩ := w.kept.spared n r mem none
  exact Bool.false_ne_true ((w.own own).2.symm.trans (w.kept.frozen n r mem differ))

theorem stable_login_good {n : Name} {r : Result} : (loginMachine digest original).Stable (LoginGood original n r) := by
  intro s t good h
  have u := Disturbs.undisturbed h
  refine ⟨fun none => ?_, good.harmful⟩
  obtain ⟨differ, unrotated, prepared⟩ := good.spared none
  exact ⟨differ, stable_history unrotated_grows _ _ unrotated h, u.states ▸ prepared⟩

section Steps
variable {P : LoginWorld Digest → Prop} {record : Record} {subject : Subject} {failure : Failure} {receipt : CredentialReceipt}

theorem readLogin_works (g : Grounds digest original start P) (h : P s) (c : LoginCall Digest) {fact : LoginWorld Digest → Reply c → Prop}
    (telling : ∀ s reply t, serves s c reply t → tells s (fact s) reply t) :
    KeepsLogin digest original start (request c) (fun value t => P t ∧ fact t value) s :=
  Machine.Works.still c fact telling g h

theorem writeLogin_works {Q : LoginWorld Digest → Prop} (g : Grounds digest original start P) (g' : Grounds digest original start Q) (h : P s)
    (c : LoginCall Digest) (after : LoginWorld Digest → LoginWorld Digest)
    (writing : ∀ s reply t, serves s c reply t → t = after s ∨ (t = s ∧ ∀ value, reply ≠ .ok value)) (done : ∀ t, P t → Q (after t)) :
    KeepsLogin digest original start (request c) (fun _ t => Q t) s :=
  Machine.Works.write c after writing g g'.inv done h

theorem openLogin_works (g : Grounds digest original start P) (box : record.box = ⟨original, sec⟩) (h : P s) :
    KeepsLogin digest original start (openRecord record) (fun secret t => P t ∧ secret = sec) s := by
  refine Machine.Works.andThen (readLogin_works g h (.unprotect record.box) fun _ _ _ h => h) ?_
  rintro _ t ⟨h, rfl⟩
  split
  · exact Machine.Works.fail (g.inv t h)
  · exact Machine.Works.ok ⟨h, congrArg Sealed.secret box⟩

theorem unknownLogin_works (g : Grounds digest original start P) (h : P s) :
    KeepsLogin digest original start (failureWithMaterials task failure)
      (fun r t => P t ∧ ∃ escrow, r = unknownOf task failure escrow) s := by
  refine Machine.Works.andThen (readLogin_works g h (.readEscrow task.name) fun _ _ _ h => h) ?_
  rintro escrow t ⟨h, -⟩
  split
  · exact Machine.Works.fail (g.inv t h)
  · exact Machine.Works.ok ⟨h, escrow, rfl⟩

theorem escrowLogin_works (h : LoginHolding original task start sec s) :
    KeepsLogin digest original start (escrowFor task subject sec) (fun _ t => LoginHolding original task start sec t) s := by
  refine Machine.Works.andThen (readLogin_works ground_login_holding h (.readEscrow task.name) fun _ _ _ h => h) ?_
  rintro stored t ⟨h, -⟩
  cases stored with
  | some value => exact Machine.Works.ite (fun _ => Machine.Works.fail ⟨sec, h.kept⟩) fun _ => Machine.Works.ok h
  | none =>
    refine Machine.Works.andThen (readLogin_works ground_login_holding h (.encrypt subject sec) fun _ _ _ h => h) ?_
    rintro _ t ⟨h, nonce, rfl⟩
    refine Machine.Works.andThen (Q := fun _ t => LoginHolding original task start sec t) ?_ fun _ t h =>
      Machine.Works.ite (fun _ => Machine.Works.fail ⟨sec, h.kept⟩) fun _ => Machine.Works.ok h
    refine writeLogin_works ground_login_holding ground_login_holding h (.writeEscrow task.name ⟨task.definition, [⟨subject, sec, nonce⟩]⟩)
      (fun s => { s with escrows := Function.update s.escrows task.name (some ⟨task.definition, [⟨subject, sec, nonce⟩]⟩) })
      (fun _ _ _ => changed) fun t h => ?_
    exact ⟨⟨h.kept.writeEscrow ⟨_, rfl, rfl⟩ h.begun fun _ => h.held, h.own, h.begun⟩, h.held, h.attempts, h.issued⟩

structure Recordless (digest : Escrow → Digest) (original : Task) (p : LoginWorld Digest → Prop) : Prop where
  stable : (loginMachine digest original).Stable p
  states : ∀ t states, p t → p { t with states := states }

section Records
variable {p : LoginWorld Digest → Prop} (recordless : Recordless digest original p)
include recordless

theorem writeRecordLogin_works (record : Record) (owner : record.task = original) (box : record.box = ⟨original, sec⟩)
    (subject : record.subject = original.operation.login) (phase : record.phase ≠ .prepared) (h : LoginHolding original task start sec s ∧ p s) :
    KeepsLogin digest original start (request (.writeState original.name record))
      (fun _ t => (LoginHolding original task start sec t ∧ p t) ∧ t.states original.name = some record) s := by
  have g : Grounds digest original start fun t => (LoginHolding original task start sec t ∧ p t) ∧ t.states original.name = some record :=
    (ground_login_holding.and recordless.stable).and (stable_states (p := fun states => states original.name = some record))
  refine writeLogin_works (ground_login_holding.and recordless.stable) g h (.writeState original.name record)
    (fun s => { s with states := Function.update s.states original.name (some record) }) (fun _ _ _ => changed) fun t h => ?_
  obtain ⟨h, beside⟩ := h
  have there : Function.update t.states original.name (some record) original.name = some record := Function.update_self ..
  refine ⟨⟨⟨⟨h.kept.writeState owner box subject phase h.attempts, h.own, h.begun⟩, fun none => ?_, h.attempts,
    fun differ => ⟨⟨record, there, phase⟩, (h.issued differ).2⟩⟩, recordless.states t _ beside⟩, there⟩
  cases there.symm.trans none

theorem writeOtherLogin_works (record : Record) (other : task.name ≠ original.name)
    (h : LoginHolding original task start sec s ∧ p s) :
    KeepsLogin digest original start (request (.writeState task.name record))
      (fun _ t => LoginHolding original task start sec t ∧ p t) s := by
  refine writeLogin_works (ground_login_holding.and recordless.stable) (ground_login_holding.and recordless.stable) h
    (.writeState task.name record) (fun s => { s with states := Function.update s.states task.name (some record) })
    (fun _ _ _ => changed) fun t h => ?_
  obtain ⟨h, beside⟩ := h
  have same : Function.update t.states task.name (some record) original.name = t.states original.name := Function.update_of_ne other.symm _ _
  exact ⟨⟨⟨h.kept.otherState other, h.own, h.begun⟩, fun none => h.held (same.symm.trans none), h.attempts,
    fun differ => ⟨(h.issued differ).1.imp fun r found => ⟨same.trans found.1, found.2⟩, (h.issued differ).2⟩⟩,
    recordless.states t _ beside⟩

end Records

theorem rotateLogin_works (received : Received s.log sec receipt)
    (issued : (∃ r, s.states original.name = some r ∧ r.phase ≠ .prepared) ∧ s.receipts original.name ≠ none)
    (h : LoginHolding original task start sec s) :
    KeepsLogin digest original start (request (.rotateRecovery task subject sec receipt))
      (fun _ t => LoginHolding original task start sec t) s := by
  have g : Grounds digest original start fun t => ((LoginHolding original task start sec t ∧ Received t.log sec receipt) ∧
      ∃ r, t.states original.name = some r ∧ r.phase ≠ .prepared) ∧ t.receipts original.name ≠ none :=
    ((ground_login_holding.and (stable_history (p := fun log => Received log sec receipt) fun _ _ _ h => h.append)).and
      (stable_states (p := fun states => ∃ r, states original.name = some r ∧ r.phase ≠ .prepared))).and stable_receipts
  refine Machine.Works.ask g.stable ⟨⟨⟨h, received⟩, issued.1⟩, issued.2⟩ fun t reply u before performed => ?_
  obtain ⟨⟨⟨h, received⟩, issued⟩, receipts⟩ := before
  rcases performed with ⟨nonce, store, done, rfl⟩ | ⟨rfl, failed⟩
  · have kept := h.kept.rotate receipt (h.kept.backed.rotated received done) issued receipts
    have attempts : Attempts (t.log ++ [.rotated sec receipt]) := fun n r mem => h.attempts n r
      ((List.mem_append.mp mem).resolve_right fun last => by cases List.mem_singleton.mp last)
    exact ⟨⟨sec, kept⟩, fun _ _ => ⟨⟨kept, h.own, h.begun⟩, h.held, attempts, h.issued⟩⟩
  · exact ⟨⟨sec, h.kept⟩, fun _ same => absurd same failed⟩

end Steps

end Workers

end RssMdmAgent.LoginRotation
