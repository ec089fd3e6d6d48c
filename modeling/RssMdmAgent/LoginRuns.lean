import RssMdmAgent.LoginSafety

set_option autoImplicit false

/-! # Rotations of a login, recoveries and retirements in any order -/

namespace RssMdmAgent.LoginRotation
open CrashPrograms CredentialRotation RecoveryMaterial TransitionRuns
open AccessRecords (Wire Digests Protector TableScan CredentialReceipt)
open AccessStore (Store)
open CredentialRotation (Record)

section Rotations
variable {original task : Task} {start : Store} {sec : Secret} [Digests] [Protector] [Wire] [TableScan] {Digest : Type}
  {digest : Escrow → Digest} {s t : LoginWorld Digest} {subject : Subject} {material : Material} {receipt : CredentialReceipt}

omit [Digests] [Protector] [Wire] [TableScan] in
theorem login_good_unknown {n : Name} {failure : Failure} (uncertain : noEffectFailure failure = false) (escrow : Option Escrow) :
    LoginGood original n (unknownOf task failure escrow) s := by
  refine ⟨fun none => (by cases none), fun _ none => ?_⟩
  simp [assessment, unknownOf, failed, uncertain] at none

/-- The material of the original, with its secret. -/
structure Owned (original : Task) (sec : Secret) (material : Material) : Prop where
  owner : material.record.task = original
  box : material.record.box = ⟨original, sec⟩
  secret : material.secret = sec
  subject : material.record.subject = original.operation.login
  recovery : material.recovery ≠ some .notAttempted

theorem install_works (owned : Owned original sec material) (received : Received s.log sec receipt)
    (receipts : s.receipts task.name ≠ none) (h : LoginHolding original task start sec s) :
    KeepsLogin digest original start (install task subject material receipt) (fun _ t => LoginHolding original task start sec t) s := by
  refine Machine.Works.ite (fun _ => ?_) fun _ => Machine.Works.ok h
  have recordless : Recordless digest original fun t => Received t.log sec receipt ∧ t.receipts task.name ≠ none :=
    ⟨(stable_history (p := fun log => Received log sec receipt) fun _ _ _ h => h.append).and stable_receipts, fun _ _ h => h⟩
  rw [owned.secret]
  by_cases own : task.name = original.name
  · rw [own]
    refine Machine.Works.andThen (writeRecordLogin_works recordless { material.record with phase := .issued } owned.owner owned.box owned.subject
      (by simp) ⟨h, received, receipts⟩) ?_
    rintro _ t ⟨⟨h, received, receipts⟩, found⟩
    exact rotateLogin_works received ⟨⟨_, found, by simp⟩, own ▸ receipts⟩ h
  · refine Machine.Works.andThen (writeOtherLogin_works recordless { material.record with phase := .issued } own ⟨h, received, receipts⟩) ?_
    rintro _ t ⟨h, received, receipts⟩
    exact rotateLogin_works received (h.issued own) h

def FinishesLogin (original task : Task) (start : Store) (r : Result) (s : LoginWorld Digest) : Prop :=
  ∃ sec, LoginWorking original task start sec s ∧ LoginGood original task.name r s

theorem commit_works (named : Named original task.name) (owned : Owned original sec material)
    (h : LoginHolding original task start sec s) :
    KeepsLogin digest original start (commit digest task subject material) (FinishesLogin original task start) s := by
  unfold commit
  rw [owned.secret]
  refine Machine.Works.andThen (escrowLogin_works h) fun escrow t h => ?_
  refine Machine.Works.andThen (readLogin_works ground_login_holding h (.awaitAck task.name (digest escrow))
    fun _ _ _ h => ⟨h.1, fun _ _ => trivial⟩) ?_
  rintro _ t ⟨h, -⟩
  refine Machine.Works.andThen (Q := fun read t => LoginHolding original task start sec t ∧ read = t.receipts task.name)
    (readLogin_works ground_login_holding h (.readReceipts task.name) fun _ _ _ h => h) ?_
  rintro receipts t ⟨h, same⟩
  split
  · exact Machine.Works.fail ⟨sec, h.kept⟩
  · rename_i receipt
    refine Machine.Works.ite (fun _ => Machine.Works.fail ⟨sec, h.kept⟩) fun _ => ?_
    have received : Received t.log sec receipt := by
      obtain ⟨e, mem⟩ := h.kept.received task.name named _ same.symm
      obtain ⟨m, one, secret⟩ := h.kept.offered task.name named e (h.kept.acknowledged task.name named e _ mem)
      exact ⟨task.name, e, _, mem, List.mem_singleton_self receipt, m, one ▸ List.mem_singleton_self m, secret⟩
    refine Machine.Works.andThen (install_works owned received (fun none => by cases same.trans none) h) fun _ t h => ?_
    refine Machine.Works.andThen (readLogin_works ground_login_holding h (.verifyRecoveryMaterial task subject sec receipt) fun _ _ _ h => h) ?_
    rintro proven t ⟨h, -⟩
    refine Machine.Works.ite (fun _ => ?_) fun _ => ?_
    · rw [owned.owner]
      have recordless : Recordless digest original fun _ => True := ⟨fun _ _ _ _ => trivial, fun _ _ _ => trivial⟩
      refine Machine.Works.andThen (writeRecordLogin_works recordless _ owned.owner owned.box owned.subject (by simp) ⟨h, trivial⟩) ?_
      rintro _ t ⟨⟨h, -⟩, -⟩
      refine Machine.Works.ok ⟨sec, h.toLoginWorking, fun none => absurd none owned.recovery, fun _ none => ?_⟩
      simp [assessment] at none
    · refine (unknownLogin_works ground_login_holding h).mono ?_
      rintro _ t ⟨h, escrow, rfl⟩
      exact ⟨sec, h.toLoginWorking, login_good_unknown rfl escrow⟩
  · exact Machine.Works.fail ⟨sec, h.kept⟩

def Found (original task : Task) (start : Store) (sec : Secret) : Except Result Material → LoginWorld Digest → Prop
  | .error r, t => FinishesLogin original task start r t
  | .ok material, t => LoginHolding original task start sec t ∧ Owned original sec material

theorem recovered_works {reference : Id × Id} (names : task.original reference = original.name) (other : task.name ≠ original.name)
    (h : LoginWorking original task start sec s) :
    KeepsLogin digest original start (recovered task subject reference) (Found original task start sec) s := by
  refine Machine.Works.andThen (Q := fun stored t => LoginWorking original task start sec t ∧ stored = t.states original.name)
    (readLogin_works ground_login_working h (.readState (task.original reference)) fun _ _ _ h => names ▸ h) ?_
  rintro stored t ⟨h, same⟩
  cases stored with
  | none => exact Machine.Works.fail ⟨sec, h.kept⟩
  | some record =>
    obtain ⟨owner, box, named, unrotated⟩ := h.kept.record record same.symm
    refine Machine.Works.ite (fun _ => Machine.Works.fail ⟨sec, h.kept⟩) fun _ => Machine.Works.ite (fun prepared => ?_) fun issued => ?_
    · refine Machine.Works.ok ⟨sec, h, fun _ => ⟨other, unrotated prepared, fun r found => ?_⟩, fun same => absurd same other⟩
      cases same.trans found
      exact prepared
    have ground : Grounds digest original start fun t => LoginWorking original task start sec t ∧ t.states original.name = some record :=
      ground_login_working.and (stable_states (p := fun states => states original.name = some record))
    have unknown {t : LoginWorld Digest} (h : LoginWorking original task start sec t) : KeepsLogin digest original start
        ((failureWithMaterials task .recoveryState).andThen fun r => Work.ok (Except.error r)) (Found original task start sec) t := by
      refine Machine.Works.andThen (unknownLogin_works ground_login_working h) ?_
      rintro _ t ⟨h, escrow, rfl⟩
      exact Machine.Works.ok ⟨sec, h, login_good_unknown rfl escrow⟩
    refine Machine.Works.andThen (openLogin_works ground box ⟨h, same.symm⟩) ?_
    rintro secret t ⟨h, rfl⟩
    rw [owner]
    refine Machine.Works.andThen (Q := fun read t => (LoginWorking original task start secret t ∧ t.states original.name = some record) ∧
      read = t.receipts original.name) (readLogin_works ground h (.readReceipts original.name) fun _ _ _ h => h) ?_
    rintro receipts t ⟨h, read⟩
    rcases receipts with _ | _ | ⟨receipt, _ | ⟨_, _⟩⟩
    · exact Machine.Works.fail ⟨secret, h.1.kept⟩
    · exact unknown h.1
    · refine Machine.Works.andThen (readLogin_works (ground.and (stable_receipts (n := original.name)))
        ⟨h, fun none => by cases read.trans none⟩ (.verifyRecoveryMaterial task subject secret receipt) fun _ _ _ h => h) ?_
      rintro proven t ⟨⟨⟨h, there⟩, present⟩, -⟩
      refine Machine.Works.ite (fun _ => ?_) fun _ => unknown h
      refine Machine.Works.ok ⟨⟨h, fun none => (by cases there.symm.trans none), fun n r mem none => ?_,
        fun _ => ⟨⟨record, there, issued⟩, present⟩⟩, owner, box, rfl, named, by simp⟩
      obtain ⟨-, -, prepared⟩ := h.kept.spared n r mem none
      exact issued (prepared record there)
    · exact unknown h.1

theorem allocated_works (login : original.operation.login = some subject) (h : LoginWorking original original start sec s) :
    KeepsLogin digest original start (allocated original subject)
      (fun material t => ∃ sec, LoginHolding original original start sec t ∧ Owned original sec material) s := by
  have holding {sec : Secret} {record : Record} {t : LoginWorld Digest} (h : LoginWorking original original start sec t)
      (found : t.states original.name = some record) : LoginHolding original original start sec t :=
    ⟨h, fun none => (by cases found.symm.trans none), h.attempts rfl, fun differ => absurd rfl differ⟩
  have opened {sec : Secret} {record : Record} {t : LoginWorld Digest} (h : LoginWorking original original start sec t)
      (found : t.states original.name = some record) : KeepsLogin digest original start
      ((openRecord record).andThen fun secret => Work.ok (⟨record, secret, none⟩ : Material))
      (fun material t => ∃ sec, LoginHolding original original start sec t ∧ Owned original sec material) t := by
    obtain ⟨owner, box, named, -⟩ := h.kept.record record found
    refine Machine.Works.andThen (openLogin_works ground_login_holding box (holding h found)) ?_
    rintro secret t ⟨h, rfl⟩
    exact Machine.Works.ok ⟨secret, h, owner, box, rfl, named, by simp⟩
  refine Machine.Works.andThen (Q := fun stored t => LoginWorking original original start sec t ∧ stored = t.states original.name)
    (readLogin_works ground_login_working h (.readState original.name) fun _ _ _ h => h) ?_
  rintro stored t ⟨h, same⟩
  cases stored with
  | some current => exact Machine.Works.ite (fun _ => Machine.Works.fail ⟨sec, h.kept⟩) fun _ => opened h same.symm
  | none =>
    have ground : Grounds digest original start fun t => LoginWorking original original start sec t ∧ t.states original.name = none :=
      ground_login_working.and (stable_states (p := fun states => states original.name = none))
    refine Machine.Works.andThen (readLogin_works ground ⟨h, same.symm⟩ (.recoveryMaterial original subject) fun _ _ _ h => h) ?_
    rintro _ t ⟨h, -⟩
    refine Machine.Works.andThen (readLogin_works ground h .random fun _ _ _ h => ⟨h, fun _ _ => trivial⟩) ?_
    rintro created t ⟨h, -⟩
    refine Machine.Works.andThen (readLogin_works ground h (.protect original created) fun _ _ _ h => h) ?_
    rintro _ t ⟨h, rfl⟩
    have later : Grounds digest original start fun t => LoginWorking original original start created t ∧
        t.states original.name = some ⟨original, .prepared, ⟨original, created⟩, some subject⟩ :=
      ground_login_working.and (stable_states (p := fun states => states original.name = some _))
    refine Machine.Works.andThen (writeLogin_works ground later h
      (.writeState original.name ⟨original, .prepared, ⟨original, created⟩, some subject⟩)
      (fun s => { s with states := Function.update s.states original.name (some ⟨original, .prepared, ⟨original, created⟩, some subject⟩) })
      (fun _ _ _ => changed) fun t h => ?_) fun _ t h => opened h.1 h.2
    have kept := h.1.kept.create created h.2 (h.1.own rfl).1 (h.1.own rfl).2
    rw [login] at kept
    exact ⟨⟨kept, h.1.own, h.1.begun⟩, Function.update_self ..⟩

theorem executeLogin_works (rotation : original.recovery = none) (rotates : rotatesLogin original.operation = true)
    (concerns : Concerns original task) (h : LoginWorking original task start sec s) :
    KeepsLogin digest original start (executeInner digest task) (FinishesLogin original task start) s := by
  have named : Named original task.name := ⟨task, concerns, rfl⟩
  unfold executeInner
  split
  · rename_i subject login
    unfold executeLogin
    rcases concerns with rfl | ⟨reference, found, names, other⟩
    · rw [rotation, if_pos rotates]
      refine Machine.Works.andThen (allocated_works login h) ?_
      rintro material t ⟨sec, h, owned⟩
      exact commit_works named owned h
    · rw [found]
      refine Machine.Works.andThen (recovered_works names other h) fun found t h => ?_
      cases found with
      | error r => exact Machine.Works.ok h
      | ok material => exact commit_works named h.2 h.1
  · rename_i reference none found
    refine Machine.Works.andThen (readLogin_works ground_login_working h (.readState (task.original reference)) fun _ _ _ h => h) ?_
    rintro stored t ⟨h, -⟩
    cases stored with
    | some record => exact Machine.Works.fail ⟨sec, h.kept⟩
    | none =>
      rcases concerns with rfl | ⟨-, -, -, other⟩
      · cases rotation.symm.trans found
      · exact Machine.Works.ok ⟨sec, h, fun none => (by cases none), fun same => absurd same other⟩
  · exact Machine.Works.fail ⟨sec, h.kept⟩

end Rotations

/-! ## Results -/

section Results
variable {original task : Task} {start : Store} {sec : Secret} [Digests] [Protector] [Wire] [TableScan] {Digest : Type}
  {digest : Escrow → Digest} {s t : LoginWorld Digest} {n : Name}

omit [Digests] [Protector] [Wire] [TableScan] in
theorem LoginGood.withPending {r : Result} (good : LoginGood original n r s) (escrow : Option Escrow) :
    LoginGood original n (withPending r escrow) s := by
  obtain ⟨after, -⟩ := extends_withPending r escrow
  refine ⟨fun none => good.spared (after.recovery ▸ none), fun same none => ?_⟩
  rcases after.more with unchanged | ⟨items, partly⟩
  · exact good.harmful same (unchanged ▸ none)
  · simp [assessment, items, partly] at none

theorem executed_works (rotation : original.recovery = none) (rotates : rotatesLogin original.operation = true)
    (concerns : Concerns original task) (h : LoginWorking original task start sec s) :
    KeepsLogin digest original start (execute digest task)
      (fun r t => (∃ sec, LoginKept original start sec t) ∧ .frozen task.name r ∈ t.log) s := by
  refine Machine.Works.andThen (readLogin_works ground_login_working h .validate fun _ _ _ h => ⟨h, fun _ _ => trivial⟩) ?_
  rintro _ t ⟨h, -⟩
  refine Machine.Works.andThen (Q := fun stored t => LoginWorking original task start sec t ∧ stored = t.results task.name)
    (readLogin_works ground_login_working h (.readResult task.name) fun _ _ _ h => h) ?_
  rintro stored t ⟨h, same⟩
  cases stored with
  | some r =>
    exact Machine.Works.ite (fun _ => Machine.Works.fail ⟨sec, h.kept⟩) fun _ =>
      Machine.Works.ok ⟨⟨sec, h.kept⟩, h.kept.result task.name ⟨task, concerns, rfl⟩ r same.symm⟩
  | none =>
    refine Machine.Works.andThen (executeLogin_works rotation rotates concerns h) ?_
    rintro r t ⟨sec, h, good⟩
    have ground : Grounds digest original start fun t => LoginWorking original task start sec t ∧ LoginGood original task.name r t :=
      ground_login_working.and stable_login_good
    refine Machine.Works.andThen (readLogin_works ground ⟨h, good⟩ (.readEscrow task.name) fun _ _ _ h => h) ?_
    rintro escrow t ⟨h, -⟩
    have later : Grounds digest original start fun t => LoginKept original start sec t ∧ .frozen task.name (withPending r escrow) ∈ t.log :=
      ground_login_kept.and (stable_history (p := fun log => .frozen task.name (withPending r escrow) ∈ log)
        fun _ _ _ mem => List.mem_append_left _ mem)
    refine Machine.Works.andThen (writeLogin_works ground later h (.writeResult task.name (withPending r escrow))
      (fun s => LoginWorld.append { s with results := Function.update s.results task.name (some (withPending r escrow)) }
        (.frozen task.name (withPending r escrow))) (fun _ _ _ => changed) fun t h => ?_) fun _ t h => Machine.Works.ok ⟨⟨sec, h.1⟩, h.2⟩
    exact ⟨h.1.kept.freeze (h.2.withPending escrow) h.1.begun, List.mem_append_right _ List.mem_cons_self⟩

theorem outputLogin_works {r : Result} (known : r.recovery = some .notAttempted → .frozen n r ∈ s.log) (h : LoginKept original start sec s) :
    KeepsLogin digest original start (request (.output n r)) (fun _ _ => True) s := by
  have stable : (loginMachine digest original).Stable fun t => r.recovery = some .notAttempted → .frozen n r ∈ t.log :=
    stable_history (p := fun log => r.recovery = some .notAttempted → .frozen n r ∈ log) fun _ _ _ known none =>
      List.mem_append_left _ (known none)
  refine Machine.Works.ask (ground_login_kept.and stable).stable ⟨h, known⟩ fun t reply u before performed => ⟨?_, fun _ _ => trivial⟩
  obtain ⟨k, known⟩ := before
  rcases performed with rfl | ⟨rfl, -⟩
  · exact ⟨sec, k.append known⟩
  · exact ⟨sec, k⟩

theorem resultLogin_works (rotation : original.recovery = none) (rotates : rotatesLogin original.operation = true)
    (concerns : Concerns original task) (h : LoginWorking original task start sec s) :
    KeepsLogin digest original start (result digest task) (fun _ _ => True) s := by
  refine Machine.Works.settle (executed_works rotation rotates concerns h) ?_ ?_
  · rintro r t ⟨⟨sec, k⟩, frozen⟩
    exact outputLogin_works (fun _ => frozen) k
  · rintro error t ⟨sec, k⟩
    refine Machine.Works.andThen (unknownLogin_works ground_login_kept k) ?_
    rintro _ t ⟨k, escrow, rfl⟩
    exact outputLogin_works (fun none => by cases none) k

end Results

/-! ## Retirement -/

section Retirements
variable {original task : Task} {start : Store} {sec : Secret} [Digests] [Protector] [Wire] [TableScan] {Digest : Type}
  {digest : Escrow → Digest} {s t : LoginWorld Digest} {n : Name}

def Spent (log : List LoginEvent) : Prop := Unrotated log ∨ Proven log

omit [Digests] [Protector] [Wire] [TableScan] in
theorem spent_grows (log : List LoginEvent) (event : LoginEvent) (quiet : event.quiet = true) (h : Spent log) : Spent (log ++ [event]) :=
  h.imp (unrotated_grows log event quiet) Proven.append

theorem removeFilesLogin_works {receipts : Bool} (useless : receipts = true → n ≠ original.name ∨ Spent s.log)
    (h : LoginKept original start sec s) :
    KeepsLogin digest original start (removeFiles n receipts) (fun _ t => LoginKept original start sec t) s := by
  have ground : Grounds digest original start fun t => LoginKept original start sec t ∧ (receipts = true → n ≠ original.name ∨ Spent t.log) :=
    ground_login_kept.and (stable_history (p := fun log => receipts = true → n ≠ original.name ∨ Spent log) fun log event quiet h yes =>
      (h yes).imp_right (spent_grows log event quiet))
  refine Machine.Works.andThen (writeLogin_works ground ground ⟨h, useless⟩ (.removeEscrow n)
    (fun s => { s with escrows := Function.update s.escrows n none }) (fun _ _ _ => changed)
    fun t h => ⟨h.1.remove (fun _ _ => update_removed) fun _ _ => id, h.2⟩) fun _ t h => ?_
  refine Machine.Works.andThen (writeLogin_works ground ground h (.removeAck n)
    (fun s => { s with acks := Function.update s.acks n none }) (fun _ _ _ => changed)
    fun t h => ⟨h.1.confirm, h.2⟩) fun _ t h => ?_
  have rest {t : LoginWorld Digest} (k : LoginKept original start sec t) :
      KeepsLogin digest original start (request (.removeResult n)) (fun _ t => LoginKept original start sec t) t :=
    writeLogin_works ground_login_kept ground_login_kept k (.removeResult n) (fun s => { s with results := Function.update s.results n none })
      (fun _ _ _ => changed) fun t k => k.remove (fun _ _ => id) fun _ _ => update_removed
  refine Machine.Works.ite (fun yes => ?_) fun _ => rest h.1
  refine Machine.Works.andThen (writeLogin_works ground ground_login_kept h (.removeReceipts n)
    (fun s => { s with receipts := Function.update s.receipts n none }) (fun _ _ _ => changed)
    fun t h => h.1.removeReceipts (h.2 yes)) fun _ t k => rest k

omit [Wire] [TableScan] in
theorem LoginKept.succeeded {r : Result} (k : LoginKept original start sec s) (frozen : .frozen n r ∈ s.log)
    (h : succeeded (some r) = true) : Spent s.log := by
  unfold CredentialRotation.succeeded at h
  simp only [Option.any_some, Bool.or_eq_true, Bool.and_eq_true, decide_eq_true_eq] at h
  rcases h with satisfied | ⟨-, none⟩
  · unfold assessment at satisfied
    split at satisfied
    · cases satisfied
    split at satisfied
    · rename_i all
      obtain ⟨-, -, items, verified⟩ := all
      obtain ⟨item, mem⟩ := List.exists_mem_of_ne_nil _ items
      exact .inr ⟨n, r, frozen, item, mem, of_decide_eq_true (List.all_eq_true.mp verified item mem)⟩
    · split at satisfied <;> cases satisfied
  · obtain ⟨-, unrotated, -⟩ := k.spared n r frozen none
    exact .inl unrotated

def ClosedLogin (s : LoginWorld Digest) : Prop := s.retired = true ∨ s.begun = true

theorem stable_login_closed : (loginMachine digest original).Stable ClosedLogin := by
  intro s t h step
  have u := Disturbs.undisturbed step
  unfold ClosedLogin
  rw [u.retired, u.begun]
  exact h

theorem removeOriginalLogin_works (closed : ClosedLogin s) (spent : Spent s.log) (k : LoginKept original start sec s) :
    KeepsLogin digest original start (request (.removeState original.name)) (fun _ t => LoginKept original start sec t ∧ Spent t.log) s := by
  have later : Grounds digest original start fun t => LoginKept original start sec t ∧ Spent t.log :=
    ground_login_kept.and (stable_history (p := Spent) spent_grows)
  exact writeLogin_works (later.and stable_login_closed) later ⟨⟨k, spent⟩, closed⟩ (.removeState original.name)
    (fun s => { s with states := Function.update s.states original.name none }) (fun _ _ _ => changed)
    fun t h => ⟨h.1.1.removeState h.2 h.1.2, h.1.2⟩

theorem storedLogin_works {P : LoginWorld Digest → Prop} (g : Grounds digest original start P) (h : P s)
    (known : ∀ t, P t → ∀ r, t.results task.name = some r → .frozen task.name r ∈ t.log) :
    KeepsLogin digest original start (storedResult task) (fun stored t => P t ∧ ∀ r, stored = some r → .frozen task.name r ∈ t.log) s := by
  refine Machine.Works.andThen (Q := fun stored t => P t ∧ stored = t.results task.name)
    (readLogin_works g h (.readResult task.name) fun _ _ _ h => h) ?_
  rintro stored t ⟨h, same⟩
  cases stored with
  | none => exact Machine.Works.ok ⟨h, fun r none => by cases none⟩
  | some r =>
    have frozen := known t h r same.symm
    refine Machine.Works.andThen (readLogin_works (g.and (stable_history (p := fun log => .frozen task.name r ∈ log)
      fun _ _ _ mem => List.mem_append_left _ mem)) ⟨h, frozen⟩ .validate fun _ _ _ h => ⟨h, fun _ _ => trivial⟩) ?_
    rintro _ t ⟨⟨h, frozen⟩, -⟩
    refine Machine.Works.ite (fun _ => Machine.Works.fail (g.inv t h)) fun _ => Machine.Works.ok ⟨h, fun other same => ?_⟩
    cases same
    exact frozen

theorem retireLogin_works (rotation : original.recovery = none) (rotates : rotatesLogin original.operation = true)
    (concerns : Concerns original task) (h : LoginKept original start sec s ∧ (task = original → ClosedLogin s)) :
    KeepsLogin digest original start (retire task) (fun _ _ => True) s := by
  have ground : Grounds digest original start fun t => LoginKept original start sec t ∧ (task = original → ClosedLogin t) :=
    ground_login_kept.and fun s t h step same => stable_login_closed s t (h same) step
  refine Machine.Works.andThen (storedLogin_works ground h fun t h => h.1.result task.name ⟨task, concerns, rfl⟩) ?_
  rintro stored t ⟨⟨k, closed⟩, frozen⟩
  have spent (success : succeeded stored = true) : Spent t.log := by
    cases stored with
    | none => cases success
    | some r => exact k.succeeded (frozen r rfl) success
  have files {t : LoginWorld Digest} (k : LoginKept original start sec t)
      (useless : (succeeded stored || hadNoEffect stored || !rotatesLogin task.operation) = true → task.name ≠ original.name ∨ Spent t.log) :
      KeepsLogin digest original start (removeFiles task.name (succeeded stored || hadNoEffect stored || !rotatesLogin task.operation))
        (fun _ _ => True) t := (removeFilesLogin_works useless k).mono fun _ _ _ => trivial
  rcases concerns with rfl | ⟨reference, recovers, names, other⟩
  · have effect (harmless : hadNoEffect stored = true) : False := by
      cases stored with
      | none => cases harmless
      | some r => exact k.harmful r (frozen r rfl) (of_decide_eq_true harmless)
    refine Machine.Works.ite (fun certain => ?_) fun uncertain => files k fun all => ?_
    · have success := (Bool.or_eq_true_iff.mp certain).resolve_right effect
      refine Machine.Works.andThen (removeOriginalLogin_works (closed rfl) (spent success) k) fun _ t h => ?_
      rw [rotation]
      exact files h.1 fun _ => .inr h.2
    · rw [rotates] at all
      simp only [Bool.not_true, Bool.or_false] at all
      exact absurd all uncertain
  · refine Machine.Works.ite (fun _ => ?_) fun _ => files k fun _ => .inl other
    cases success : succeeded stored with
    | false =>
      refine Machine.Works.andThen (writeLogin_works ground_login_kept ground_login_kept k (.removeState task.name)
        (fun s => { s with states := Function.update s.states task.name none }) (fun _ _ _ => changed)
        fun t k => k.otherState other) fun _ t k => ?_
      rw [success] at files
      rw [recovers]
      exact files k fun _ => .inl other
    | true =>
      have begun : ClosedLogin t := by
        cases stored with
        | none => cases success
        | some r => exact .inr (k.frozen task.name r (frozen r rfl) other)
      have later : Grounds digest original start fun t => (LoginKept original start sec t ∧ ClosedLogin t) ∧ Spent t.log :=
        (ground_login_kept.and stable_login_closed).and (stable_history (p := Spent) spent_grows)
      refine Machine.Works.andThen (writeLogin_works later later ⟨⟨k, begun⟩, spent success⟩ (.removeState task.name)
        (fun s => { s with states := Function.update s.states task.name none }) (fun _ _ _ => changed)
        fun t h => ⟨⟨h.1.1.otherState other, h.1.2⟩, h.2⟩) fun _ t h => ?_
      rw [success] at files
      rw [recovers]
      refine Machine.Works.ite (fun _ => ?_) fun _ => files h.1.1 fun _ => .inl other
      rw [names]
      refine Machine.Works.andThen (removeOriginalLogin_works h.1.2 h.2 h.1.1) fun _ t h => ?_
      exact Machine.Works.andThen (removeFilesLogin_works (fun _ => .inr h.2) h.1) fun _ t k => files k fun _ => .inl other

end Retirements

/-! ## Runs -/

section Runs
variable [Digests] [Protector] [Wire] [TableScan] {Digest : Type} {digest : Escrow → Digest} {original : Task} {start : Store}
  {s t : LoginWorld Digest}

/-- Nothing of the rotation is there yet. -/
structure UntouchedLogin (original : Task) (s : LoginWorld Digest) : Prop where
  state : s.states original.name = none
  escrow : ∀ n, Named original n → s.escrows n = none
  receipts : ∀ n, Named original n → s.receipts n = none
  result : ∀ n, Named original n → s.results n = none
  log : s.log = []

omit [Wire] [TableScan] in
theorem UntouchedLogin.kept (h : UntouchedLogin original s) (sec : Secret) : LoginKept original s.store sec s := by
  have absent (event : LoginEvent) : event ∉ s.log := by
    rw [h.log]
    exact List.not_mem_nil
  exact {
    backed := fun sid r found => .inl ⟨r, found, rfl, rfl, rfl, rfl⟩
    record := fun r found => by cases h.state.symm.trans found
    fresh := fun _ _ _ => ⟨fun _ _ => absent _, h.escrow _ ⟨original, .inl rfl, rfl⟩, fun _ => absent _⟩
    installed := fun _ _ mem => absurd mem (absent _)
    escrow := fun n named e found => by cases (h.escrow n named).symm.trans found
    offered := fun _ _ _ mem => absurd mem (absent _)
    acknowledged := fun _ _ _ _ mem => absurd mem (absent _)
    received := fun n named _ found => by cases (h.receipts n named).symm.trans found
    provable := .inl fun _ _ => absent _
    result := fun n named r found => by cases (h.result n named).symm.trans found
    frozen := fun _ _ mem => absurd mem (absent _)
    spared := fun _ _ mem => absurd mem (absent _)
    produced := fun _ _ mem => absurd mem (absent _)
    harmful := fun _ mem => absurd mem (absent _)
    recovered := fun n named _ present =>
      (present.elim (· (h.escrow n named)) fun ⟨_, mem⟩ => absent _ mem).elim }

theorem login_starts_safe (rotation : original.recovery = none) (rotates : rotatesLogin original.operation = true) {job : Job}
    {p : Program (Fallible Error (@Reply Digest)) Unit} (inv : LoginInvariant original start s) (h : LoginStarts digest original s job t p) :
    LoginInvariant original start t ∧ (loginMachine digest original).Safe (LoginInvariant original start) p (fun _ _ => True) t := by
  have ends {w : Login Digest Unit} {s : LoginWorld Digest} (works : KeepsLogin digest original start w (fun _ _ => True) s) :
      (loginMachine digest original).Safe (LoginInvariant original start) (Program.bind w fun _ => .done ()) (fun _ _ => True) s :=
    Machine.Safe.bind works fun _ _ _ => trivial
  obtain ⟨sec, k⟩ := inv
  cases h with
  | original kept alone =>
    exact ⟨⟨sec, k⟩, ends (resultLogin_works rotation rotates (.inl rfl)
      ⟨k, fun _ => ⟨kept, alone⟩, fun differ => absurd rfl differ⟩)⟩
  | @recovery task recovers =>
    have begun : LoginKept original start sec { s with begun := true } := k.closes id fun _ => rfl
    obtain ⟨reference, found, names, other⟩ := recovers
    exact ⟨⟨sec, begun⟩, ends (resultLogin_works rotation rotates (.inr ⟨reference, found, names, other⟩)
      ⟨begun, fun same => absurd same other, fun _ => rfl⟩)⟩
  | retire =>
    have retired : LoginKept original start sec { s with retired := true } := k.closes (fun _ => rfl) id
    exact ⟨⟨sec, retired⟩, ends (retireLogin_works rotation rotates (.inl rfl) ⟨retired, fun _ => .inl rfl⟩)⟩
  | @retireRecovery task recovers =>
    refine ⟨⟨sec, k⟩, ends (retireLogin_works rotation rotates (.inr recovers) ⟨k, fun same => ?_⟩)⟩
    obtain ⟨_, _, _, other⟩ := recovers
    exact absurd (congrArg Task.name same) other

end Runs

end RssMdmAgent.LoginRotation
