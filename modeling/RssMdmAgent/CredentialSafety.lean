import RssMdmAgent.CredentialInvariant

set_option autoImplicit false

/-! # Every run of a worker keeps the secret -/

namespace RssMdmAgent.CredentialRotation
open CrashPrograms TransitionRuns Relation

section Rules
variable {Digest : Type} {digest : Escrow → Digest} {original : Task} {α : Type} {P : World Digest → Prop} {s : World Digest}

def Invariant (digest : Escrow → Digest) (original : Task) (s : World Digest) : Prop := ∃ sec, Kept digest original sec s

theorem stable_kept {sec : Secret} : (machine digest original).Stable (Kept digest original sec) :=
  fun _ _ k h => k.interferes h

theorem Interferes.same {t : World Digest} (h : Interferes digest original s t) : t.states = s.states ∧ t.escrows = s.escrows ∧
    t.results = s.results ∧ t.retired = s.retired ∧ t.begun = s.begun ∧ ∃ event : Event, event.quiet = true ∧ t.log = s.log ++ [event] := by
  cases h with
  | acknowledge n e => exact ⟨rfl, rfl, rfl, rfl, rfl, _, rfl, rfl⟩
  | turnedAway concerns failure => exact ⟨rfl, rfl, rfl, rfl, rfl, _, rfl, rfl⟩

theorem stable_state {p : Option Record → Prop} {n : Name} : (machine digest original).Stable fun s => p (s.states n) := by
  intro s t h step
  obtain ⟨same, -⟩ := Interferes.same step
  exact same ▸ h

theorem stable_escrow {p : Option Escrow → Prop} {n : Name} : (machine digest original).Stable fun s => p (s.escrows n) := by
  intro s t h step
  obtain ⟨-, same, -⟩ := Interferes.same step
  exact same ▸ h

theorem stable_result {p : Option Result → Prop} {n : Name} : (machine digest original).Stable fun s => p (s.results n) := by
  intro s t h step
  obtain ⟨-, -, same, -⟩ := Interferes.same step
  exact same ▸ h

theorem stable_log {p : List Event → Prop} (grows : ∀ log (event : Event), event.quiet = true → p log → p (log ++ [event])) :
    (machine digest original).Stable fun s => p s.log := by
  intro s t h step
  obtain ⟨-, -, -, -, -, event, quiet, same⟩ := Interferes.same step
  rw [same]
  exact grows _ _ quiet h

theorem unapplied_grows (log : List Event) (event : Event) (quiet : event.quiet = true) (h : Unapplied log) :
    Unapplied (log ++ [event]) := fun secret reply mem => h secret reply (mem_quiet quiet mem)

theorem rejected_grows (log : List Event) (event : Event) (quiet : event.quiet = true) (h : Rejected log) :
    Rejected (log ++ [event]) := fun secret reply mem => h secret reply (mem_quiet quiet mem)

abbrev Keeps (digest : Escrow → Digest) (original : Task) (w : Worker Digest α) (Q : α → World Digest → Prop) (s : World Digest) : Prop :=
  (machine digest original).Works (Invariant digest original) w Q s

structure Lasting (digest : Escrow → Digest) (original : Task) (P : World Digest → Prop) : Prop where
  stable : (machine digest original).Stable P
  appends : ∀ t event, P t → Allowed t.log event → event.quiet = true → P (t.append event)

structure Ground (digest : Escrow → Digest) (original : Task) (P : World Digest → Prop) : Prop extends Lasting digest original P where
  inv : ∀ t, P t → Invariant digest original t

theorem Ground.and {p : World Digest → Prop} (g : Ground digest original P) (lasting : Lasting digest original p) :
    Ground digest original fun s => P s ∧ p s :=
  ⟨⟨g.stable.and lasting.stable, fun t event h allowed quiet => ⟨g.appends t event h.1 allowed quiet,
    lasting.appends t event h.2 allowed quiet⟩⟩, fun t h => g.inv t h.1⟩

theorem lasting_state {p : Option Record → Prop} {n : Name} : Lasting digest original fun s => p (s.states n) :=
  ⟨stable_state, fun _ _ h _ _ => h⟩

theorem lasting_escrow {p : Option Escrow → Prop} {n : Name} : Lasting digest original fun s => p (s.escrows n) :=
  ⟨stable_escrow, fun _ _ h _ _ => h⟩

theorem lasting_result {p : Option Result → Prop} {n : Name} : Lasting digest original fun s => p (s.results n) :=
  ⟨stable_result, fun _ _ h _ _ => h⟩

theorem lasting_log {p : List Event → Prop} (grows : ∀ log (event : Event), event.quiet = true → p log → p (log ++ [event])) :
    Lasting digest original fun s => p s.log :=
  ⟨stable_log grows, fun _ _ h _ quiet => grows _ _ quiet h⟩

theorem works_still (c : Call Digest) (fact : World Digest → Out c → Prop)
    (still : ∀ s reply t, performs s c reply t → t = s ∧ ∀ value, reply = .ok value → fact s value)
    (g : Ground digest original P) (h : P s) : Keeps digest original (call c) (fun value t => P t ∧ fact t value) s :=
  Machine.Works.still c fact still ⟨g.stable, g.inv⟩ h

theorem written {s after t : World Digest} {reply : Except Error Unit} (h : writes s after reply t) :
    t = after ∨ (t = s ∧ ∀ value, reply ≠ .ok value) := by
  rcases h with done | ⟨same, failed⟩
  · exact .inl done
  · exact .inr ⟨same, fun _ ok => failed ok⟩

theorem works_write (c : Call Digest) (after : World Digest → World Digest) {Q : World Digest → Prop}
    (writing : ∀ s reply t, performs s c reply t → t = after s ∨ (t = s ∧ ∀ value, reply ≠ .ok value))
    (g : Ground digest original P) (inv : ∀ t, Q t → Invariant digest original t) (done : ∀ t, P t → Q (after t)) (h : P s) :
    Keeps digest original (call c) (fun _ t => Q t) s :=
  Machine.Works.write c after writing ⟨g.stable, g.inv⟩ inv done h

end Rules

section Workers
variable {Digest : Type} (digest : Escrow → Digest) (original task : Task) (sec : Secret)

structure Entitled (s : World Digest) : Prop where
  own : task.name = original.name → s.retired = false ∧ s.begun = false
  begun : task.name ≠ original.name → s.begun = true

structure Working (s : World Digest) : Prop where
  kept : Kept digest original sec s
  open' : s.results task.name = none
  entitled : Entitled original task s

structure Holding (s : World Digest) : Prop extends Working digest original task sec s where
  held : s.states original.name ≠ none

variable {digest original task sec} {s t : World Digest}

theorem lasting_entitled : Lasting digest original (Entitled original task) := by
  refine ⟨fun s t h step => ?_, fun _ _ h _ _ => ⟨h.own, h.begun⟩⟩
  obtain ⟨-, -, -, retired, begun, -⟩ := Interferes.same step
  refine ⟨?_, ?_⟩
  · rw [retired, begun]
    exact h.own
  · rw [begun]
    exact h.begun

theorem Working.interferes (w : Working digest original task sec s) (h : Interferes digest original s t) :
    Working digest original task sec t := by
  exact ⟨w.kept.interferes h, stable_result (p := (· = none)) _ _ w.open' h, lasting_entitled.stable _ _ w.entitled h⟩

theorem Holding.interferes (w : Holding digest original task sec s) (h : Interferes digest original s t) :
    Holding digest original task sec t :=
  ⟨w.toWorking.interferes h, stable_state (p := (· ≠ none)) _ _ w.held h⟩

theorem ground_kept : Ground digest original (Kept digest original sec) :=
  ⟨⟨stable_kept, fun _ _ k allowed quiet => k.append allowed quiet⟩, fun _ k => ⟨sec, k⟩⟩

theorem ground_working : Ground digest original (Working digest original task sec) :=
  ⟨⟨fun _ _ w h => w.interferes h, fun _ _ w allowed quiet => ⟨w.kept.append allowed quiet, w.open', w.entitled.own, w.entitled.begun⟩⟩,
    fun _ w => ⟨sec, w.kept⟩⟩

theorem ground_holding : Ground digest original (Holding digest original task sec) :=
  ⟨⟨fun _ _ w h => w.interferes h, fun t event w allowed quiet => ⟨ground_working.appends t event w.toWorking allowed quiet, w.held⟩⟩,
    fun _ w => ⟨sec, w.kept⟩⟩

theorem lasting_acked {n : Name} {subject : Subject} : Lasting digest original fun s => Acked s.log n subject sec :=
  lasting_log (p := fun log => Acked log n subject sec) fun _ _ _ acked => acked.append

theorem lasting_good {n : Name} {r : Result} : Lasting digest original (Good original sec n r) := by
  have grows (log : List Event) (event : Event) (quiet : event.quiet = true) (s t : World Digest) (old : s.log = log)
      (new : t.log = log ++ [event]) (good : Good original sec n r s) : Good original sec n r t := by
    refine ⟨fun item mem verified => ?_, fun none => ?_, fun same none => ?_⟩
    · exact new ▸ (old ▸ good.verified item mem verified).append
    · exact (good.attempted none).imp_right fun h => new ▸ unapplied_grows log event quiet (old ▸ h)
    · exact new ▸ rejected_grows log event quiet (old ▸ good.harmless same none)
  refine ⟨fun s t good h => ?_, fun t event good _ quiet => grows t.log event quiet t _ rfl rfl good⟩
  obtain ⟨-, -, -, -, -, event, quiet, same⟩ := Interferes.same h
  exact grows s.log event quiet s t rfl same good

section Steps
variable {P : World Digest → Prop} {record : Record} {operation : Operation} {secret : Secret} {subject : Subject} {failure : Failure}

theorem openRecord_works (g : Ground digest original P) (box : record.box = ⟨original, sec⟩) (h : P s) :
    Keeps digest original (openRecord record) (fun secret t => P t ∧ secret = sec) s := by
  refine Machine.Works.andThen (works_still (.unprotect record.box) (fun _ read => read = record.box) (fun _ _ _ h => h) g h) ?_
  rintro _ t ⟨h, rfl⟩
  split
  · exact Machine.Works.fail (g.inv t h)
  · exact Machine.Works.ok ⟨h, congrArg Sealed.secret box⟩

theorem locate_works (g : Ground digest original P) (h : P s) :
    Keeps digest original (locate operation secret) (fun found t => P t ∧ ∀ subject, found = some subject →
      ∃ u, P u ∧ t = u.append (.located secret (some subject))) s := by
  have located : Keeps digest original (call (.locate operation secret)) (fun reply t => P t ∧ ∀ subject, reply = .ok (some subject) →
      ∃ u, P u ∧ t = u.append (.located secret (some subject))) s := by
    refine Machine.Works.ask g.stable h fun t reply u before performed => ?_
    rcases performed with ⟨failure, rfl, rfl⟩ | ⟨subject, rfl, rfl⟩
    · refine ⟨g.inv _ before, fun value same => ⟨before, fun subject found => ?_⟩⟩
      cases same
      cases found
    · have after := g.appends t (.located secret subject) before trivial rfl
      refine ⟨g.inv _ after, fun value same => ⟨after, fun subject' found => ⟨t, before, ?_⟩⟩⟩
      cases same
      cases found
      rfl
  refine located.andThen fun reply t h => ?_
  cases reply with
  | ok found => exact Machine.Works.ok ⟨h.1, fun subject same => h.2 subject (congrArg Except.ok same)⟩
  | error failure => exact Machine.Works.fail (g.inv t h.1)

theorem candidate_works (g : Ground digest original P) (h : P s) :
    Keeps digest original (candidate operation secret) (fun _ t => P t) s := by
  cases operation
  case rotateLocalAdministrator sid => exact Machine.Works.ok h
  all_goals exact (locate_works g h).mono fun _ _ h => h.1

theorem failureWithMaterials_works (g : Ground digest original P) (h : P s) :
    Keeps digest original (failureWithMaterials task failure)
      (fun r t => P t ∧ r = unknownOf task failure (t.escrows task.name)) s := by
  refine Machine.Works.andThen (works_still (.readEscrow task.name) (fun s escrow => escrow = s.escrows task.name)
    (fun _ _ _ h => h) g h) ?_
  rintro _ t ⟨h, rfl⟩
  split
  · exact Machine.Works.fail (g.inv t h)
  · exact Machine.Works.ok ⟨h, rfl⟩

theorem escrowFor_works (h : Holding digest original task sec s) :
    Keeps digest original (escrowFor task subject sec)
      (fun e t => (Holding digest original task sec t ∧ t.escrows task.name = some e) ∧ e.materials.map (·.subject) = [subject]) s := by
  refine Machine.Works.andThen (Q := fun stored t => Holding digest original task sec t ∧ stored = t.escrows task.name)
    (works_still (.readEscrow task.name) (fun s escrow => escrow = s.escrows task.name) (fun _ _ _ h => h) ground_holding h) ?_
  rintro stored t ⟨h, same⟩
  cases stored with
  | some value =>
    dsimp only
    split
    · exact Machine.Works.fail ⟨sec, h.kept⟩
    · rename_i same'
      exact Machine.Works.ok ⟨⟨h, same.symm⟩, not_not.mp (not_or.mp same').2⟩
  | none =>
    refine Machine.Works.andThen (works_still (.encrypt subject sec) (fun _ envelope => ∃ nonce, envelope = ⟨subject, sec, nonce⟩)
      (fun _ _ _ h => h) ground_holding h) ?_
    rintro _ t ⟨h, nonce, rfl⟩
    refine Machine.Works.andThen (works_still .validate (fun _ _ => True) (fun _ _ _ h => ⟨h, fun _ _ => trivial⟩) ground_holding h) ?_
    rintro _ t ⟨h, -⟩
    refine Machine.Works.andThen (Q := fun _ t => Holding digest original task sec t ∧
      t.escrows task.name = some ⟨task.definition, [⟨subject, sec, nonce⟩]⟩) ?_ fun _ t h => Machine.Works.ok ⟨h, rfl⟩
    refine works_write (.writeEscrow task.name ⟨task.definition, [⟨subject, sec, nonce⟩]⟩)
      (fun s => { s with escrows := Function.update s.escrows task.name (some ⟨task.definition, [⟨subject, sec, nonce⟩]⟩) })
      (fun _ _ _ => written) ground_holding (fun t h => ⟨sec, h.1.kept⟩)
      (fun t h => ⟨⟨⟨?_, h.open', h.entitled.own, h.entitled.begun⟩, h.held⟩, Function.update_self ..⟩) h
    refine h.kept.writeEscrow h.open' (fun m mem => ?_) h.entitled.begun fun _ => h.held
    cases List.mem_singleton.mp mem
    rfl

theorem awaitAck_works (injective : Function.Injective digest) (named : Named original task.name) {e : Escrow}
    (names : e.materials.map (·.subject) = [subject])
    (h : Holding digest original task sec s ∧ s.escrows task.name = some e) :
    Keeps digest original (call (.awaitAck task.name (digest e)))
      (fun _ t => Holding digest original task sec t ∧ Acked t.log task.name subject sec) s := by
  refine (works_still (.awaitAck task.name (digest e)) (fun s _ => s.acks task.name = some (digest e))
    (fun _ _ _ h => ⟨h.1, fun _ ok => h.2 ok⟩) (ground_holding.and (lasting_escrow (p := (· = some e)))) h).mono ?_
  rintro _ t ⟨⟨h, stored⟩, found⟩
  obtain ⟨e', mem, same⟩ := h.kept.ack task.name named _ found
  cases injective same
  obtain ⟨m, one, name⟩ := List.map_eq_singleton_iff.mp names
  exact ⟨h, e, mem, m, one, name, h.kept.escrow task.name named e stored m (one ▸ List.mem_singleton_self m)⟩

theorem removeOld_works {actual : Option Subject} {n : Name} (found : actual = some subject)
    (g : Ground digest original P) (kept : ∀ t, P t → Kept digest original sec t) (h : P s ∧ Located s.log n subject sec) :
    Keeps digest original (removeOld operation actual) (fun _ t => P t) s := by
  cases operation
  case rotateBitlocker volume protector =>
    unfold removeOld
    dsimp only
    split
    · exact Machine.Works.fail (g.inv s h.1)
    rename_i differ
    refine Machine.Works.andThen (Q := fun _ t => P t) ?_ fun reply t h => ?_
    · refine Machine.Works.ask (g.and (lasting_log (p := fun log => Located log n subject sec)
        fun _ _ _ located => located.append)).stable h fun t reply u before performed => ?_
      obtain ⟨outcome, rfl, rfl⟩ := performed
      have allowed : Allowed t.log (.removed volume protector) :=
        ⟨n, subject, sec, before.2, fun same => differ (same ▸ found), (kept t before.1).applied⟩
      have after := g.appends t _ before.1 allowed rfl
      exact ⟨g.inv _ after, fun _ _ => after⟩
    · cases reply with
      | ok value => exact Machine.Works.ok h
      | error failure => exact Machine.Works.fail (g.inv t h)
  all_goals exact Machine.Works.ok h.1

theorem removeState_works {Q : World Digest → Prop} {n : Name} (g : Ground digest original P) (inv : ∀ t, Q t → Invariant digest original t)
    (keeps : ∀ t, P t → Q { t with states := Function.update t.states n none }) (h : P s) :
    Keeps digest original (call (.removeState n)) (fun _ t => Q t) s :=
  works_write (.removeState n) (fun s => { s with states := Function.update s.states n none }) (fun _ _ _ => written) g inv keeps h

section Records
variable {p : List Event → Prop} (lasting : Lasting digest original fun s => p s.log)
include lasting

theorem writeRecord_works (record : Record) (owner : record.task = original) (box : record.box = ⟨original, sec⟩)
    (phase : record.phase ≠ .prepared) (h : Holding digest original task sec s ∧ p s.log) :
    Keeps digest original (call (.writeState original.name record))
      (fun _ t => (Holding digest original task sec t ∧ p t.log) ∧ t.states original.name = some record) s := by
  refine works_write (.writeState original.name record)
    (fun s => { s with states := Function.update s.states original.name (some record) }) (fun _ _ _ => written)
    (ground_holding.and lasting) (fun t h => ⟨sec, h.1.1.kept⟩) (fun t h => ?_) h
  have kept := h.1.kept.writeState owner box fun prepared => absurd prepared phase
  exact ⟨⟨⟨⟨kept, h.1.open', h.1.entitled.own, h.1.entitled.begun⟩,
    fun none => by dsimp only at none; rw [Function.update_self] at none; cases none⟩, h.2⟩, Function.update_self ..⟩

theorem removeOther_works {n : Name} (other : n ≠ original.name) (h : Holding digest original task sec s ∧ p s.log) :
    Keeps digest original (call (.removeState n)) (fun _ t => Holding digest original task sec t ∧ p t.log) s := by
  refine removeState_works (ground_holding.and lasting) (fun t h => ⟨sec, h.1.kept⟩) (fun t h => ?_) h
  have same : Function.update t.states n none original.name = t.states original.name := Function.update_of_ne other.symm _ _
  exact ⟨⟨⟨h.1.kept.otherState other, h.1.open', h.1.entitled.own, h.1.entitled.begun⟩, fun none => h.1.held (same ▸ none)⟩, h.2⟩

theorem keepAccount_works (owner : record.task = original) (h : Holding digest original task sec s ∧ p s.log) :
    Keeps digest original (keepAccount task record) (fun _ t => Holding digest original task sec t ∧ p t.log) s := by
  unfold keepAccount
  split
  · rename_i sid _
    refine Machine.Works.andThen (works_still (.readAccount (task.registration, task.generation, sid)) (fun _ _ => True)
      (fun _ _ _ h => ⟨h.1, fun _ _ => trivial⟩) (ground_holding.and lasting) h) ?_
    rintro previous t ⟨h, -⟩
    refine Machine.Works.andThen (Q := fun _ t => Holding digest original task sec t ∧ p t.log) ?_ fun _ t h => ?_
    · refine works_write (.writeAccount (task.registration, task.generation, sid) record)
        (fun s => { s with accounts := Function.update s.accounts (task.registration, task.generation, sid) (some record) })
        (fun _ _ _ => written) (ground_holding.and lasting) (fun t h => ⟨sec, h.1.kept⟩) (fun t h => ?_) h
      exact ⟨⟨⟨h.1.kept.closes _ id id, h.1.open', h.1.entitled.own, h.1.entitled.begun⟩, h.1.held⟩, h.2⟩
    · cases previous with
      | none => exact Machine.Works.ok h
      | some previous =>
        refine Machine.Works.ite (fun other => ?_) fun _ => Machine.Works.ok h
        -- records of one name are of one task
        refine removeOther_works lasting (fun same => other ?_) h
        rw [owner]
        exact congrArg Name.task same
  · exact Machine.Works.ok h

end Records

theorem good_unknown {n : Name} (uncertain : noEffectFailure failure = false) {escrow : Option Escrow} :
    Good original sec n (unknownOf task failure escrow) s := by
  refine ⟨fun item mem verified => ?_, fun none => (by cases none), fun _ none => ?_⟩
  · rw [unknown_items item mem] at verified
    cases verified
  · simp [assessment, unknownOf, failed, uncertain] at none

theorem publish_works (injective : Function.Injective digest) (named : Named original task.name) {recovery : Option RecoveryOutcome}
    (owner : record.task = original) (box : record.box = ⟨original, sec⟩) (attempted : recovery ≠ some .notAttempted)
    (h : Holding digest original task sec s) :
    Keeps digest original (publish digest task recovery record subject sec)
      (fun r t => Working digest original task sec t ∧ Good original sec task.name r t) s := by
  refine Machine.Works.andThen (escrowFor_works h) ?_
  rintro escrow t ⟨h, names⟩
  refine Machine.Works.andThen (awaitAck_works injective named names h) fun _ t h => ?_
  refine Machine.Works.andThen (openRecord_works (ground_holding.and lasting_acked) box h) ?_
  rintro secret t ⟨h, same⟩
  rw [same]
  refine Machine.Works.andThen (locate_works (ground_holding.and lasting_acked) h) ?_
  rintro actual t ⟨h, found⟩
  split
  · refine (failureWithMaterials_works (ground_holding.and lasting_acked) h).mono ?_
    rintro _ t ⟨h, rfl⟩
    exact ⟨h.1.toWorking, good_unknown rfl⟩
  rename_i same
  have same := not_not.mp same
  have located : Located t.log task.name subject sec := by
    obtain ⟨u, before, rfl⟩ := found subject same
    exact ⟨u.log, [], rfl, before.2⟩
  have lasting : Lasting digest original fun s => Acked s.log task.name subject sec := lasting_acked
  refine Machine.Works.andThen (removeOld_works same (ground_holding.and lasting) (fun _ h => h.1.kept) ⟨h, located⟩) fun _ t h => ?_
  rw [owner]
  refine Machine.Works.andThen (writeRecord_works (p := fun log => Acked log task.name subject sec) lasting _ rfl box (by simp) h) ?_
  rintro _ t ⟨h, -⟩
  refine Machine.Works.andThen (keepAccount_works (p := fun log => Acked log task.name subject sec) lasting rfl h) fun _ t h => ?_
  refine Machine.Works.ok ⟨h.1.toWorking, fun item mem _ => ?_, fun none => absurd none attempted, fun _ none => ?_⟩
  · cases List.mem_singleton.mp mem
    exact h.2
  · simp [assessment] at none

end Steps

end Workers

end RssMdmAgent.CredentialRotation
