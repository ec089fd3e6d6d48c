import RssMdmAgent.CredentialSafety

set_option autoImplicit false

/-! # Rotations, recoveries and retirements in any order -/

namespace RssMdmAgent.CredentialRotation
open CrashPrograms TransitionRuns Relation

section Rotations
variable {Digest : Type} {digest : Escrow → Digest} {original task : Task} {sec : Secret} {s t : World Digest} {record : Record}

def Recorded (digest : Escrow → Digest) (original : Task) (sec : Secret) (record : Record) (s : World Digest) : Prop :=
  Holding digest original original sec s ∧ s.states original.name = some record

theorem issue_works (h : Recorded digest original sec record s) :
    Keeps digest original (issue original record sec) (fun rejected t => Holding digest original original sec t ∧
      ∀ failure : Failure, rejected = some failure → failure.definitive = true → Rejected t.log) s := by
  obtain ⟨h, found⟩ := h
  obtain ⟨owner, box, unapplied⟩ := h.kept.record record found
  refine Machine.Works.ite (fun prepared => ?_) fun _ => Machine.Works.ok ⟨h, fun _ none => by cases none⟩
  have lasting : Lasting digest original fun s => Unapplied s.log := lasting_log unapplied_grows
  refine Machine.Works.andThen (writeRecord_works (p := Unapplied) lasting { record with phase := .issued } owner box (by simp)
    ⟨h, unapplied prepared⟩) fun _ t h => ?_
  refine Machine.Works.andThen (Q := fun reply t => Holding digest original original sec t ∧
    ∀ failure : Failure, reply = .error failure → failure.definitive = true → Rejected t.log) ?_ fun reply t h => ?_
  · refine Machine.Works.ask ((ground_holding.and lasting).and (lasting_state (p := (· = _)))).stable h fun t reply u before performed => ?_
    obtain ⟨⟨holding, none⟩, found⟩ := before
    obtain ⟨outcome, rfl, rfl⟩ := performed
    have kept := holding.kept.apply outcome none ⟨_, found, by simp⟩ holding.open' (holding.entitled.own rfl).2
    refine ⟨⟨sec, kept⟩, fun value same => ?_⟩
    cases same
    refine ⟨⟨⟨kept, holding.open', holding.entitled.own, holding.entitled.begun⟩, holding.held⟩, fun failure rejected definitive => ?_⟩
    intro secret reply mem
    rcases List.mem_append.mp mem with mem | mem
    · exact absurd mem (none secret reply)
    · cases List.mem_singleton.mp mem
      exact ⟨failure, rejected, definitive⟩
  · cases reply with
    | ok value => exact Machine.Works.ok ⟨h.1, fun _ none => by cases none⟩
    | error failure => exact Machine.Works.ok ⟨h.1, fun _ same => h.2 _ (congrArg Except.error (Option.some.inj same))⟩

theorem good_failed {n : Name} {failure : Failure} (certain : n = original.name → noEffectFailure failure = true → Rejected s.log) :
    Good original sec n (failed task failure) s := by
  refine ⟨fun item mem => absurd mem List.not_mem_nil, fun none => (by cases none), fun same none => certain same ?_⟩
  simpa [assessment, failed] using none

theorem rotateFrom_works (injective : Function.Injective digest) (h : Recorded digest original sec record s) :
    Keeps digest original (rotateFrom digest original record)
      (fun r t => Working digest original original sec t ∧ Good original sec original.name r t) s := by
  obtain ⟨owner, box, -⟩ := h.1.kept.record record h.2
  refine Machine.Works.andThen (openRecord_works (ground_holding.and (lasting_state (p := (· = some record)))) box h) ?_
  rintro secret t ⟨h, same⟩
  rw [same]
  refine Machine.Works.andThen (issue_works h) fun rejected t h => ?_
  obtain ⟨h, certain⟩ := h
  dsimp only
  split
  · rename_i failure definitive
    obtain ⟨same, definitive⟩ := Option.filter_eq_some_iff.mp definitive
    exact Machine.Works.ok ⟨h.toWorking, good_failed fun _ _ => certain failure same definitive⟩
  refine Machine.Works.andThen (candidate_works ground_holding h) fun subject t h => ?_
  cases subject with
  | none => exact Machine.Works.ok ⟨h.toWorking, good_failed fun _ none => by cases none⟩
  | some subject =>
    have issued : (if record.phase = .prepared then Phase.issued else record.phase) ≠ .prepared := by
      split
      · simp
      · assumption
    have always : Lasting digest original fun _ => True := ⟨fun _ _ _ _ => trivial, fun _ _ _ _ _ => trivial⟩
    refine Machine.Works.andThen (writeRecord_works (p := fun _ => True) always _ owner box issued ⟨h, trivial⟩) ?_
    rintro _ t ⟨⟨h, -⟩, -⟩
    exact publish_works injective ⟨original, .inl rfl, rfl⟩ owner box (by simp) h

theorem inspect_works {P : World Digest → Prop} {operation : Operation} (g : Ground digest original P) (h : P s) :
    Keeps digest original (inspect operation) (fun _ t => P t) s := by
  cases operation
  case rotateBitlocker volume protector =>
    exact (works_still (.bitlocker volume protector) (fun _ _ => True) (fun _ _ _ h => ⟨h.1, fun _ _ => trivial⟩) g h).mono
      fun _ _ h => h.1
  all_goals exact Machine.Works.ok h

def Finishes (digest : Escrow → Digest) (original task : Task) (r : Result) (s : World Digest) : Prop :=
  ∃ sec, Working digest original task sec s ∧ Good original sec task.name r s

theorem rotate_works (injective : Function.Injective digest) (h : Working digest original original sec s) :
    Keeps digest original (rotate digest original) (Finishes digest original original) s := by
  refine Machine.Works.andThen (works_still (.readState original.name) (fun s stored => stored = s.states original.name)
    (fun _ _ _ h => h) ground_working h) ?_
  rintro stored t ⟨h, same⟩
  cases stored with
  | some old =>
    refine Machine.Works.ite (fun _ => Machine.Works.fail ⟨sec, h.kept⟩) fun _ => ?_
    have held : t.states original.name ≠ none := fun none => by cases same.trans none
    exact (rotateFrom_works injective ⟨⟨h, held⟩, same.symm⟩).mono fun _ _ ends => ⟨sec, ends⟩
  | none =>
    have ground : Ground digest original fun s => Working digest original original sec s ∧ s.states original.name = none :=
      ground_working.and (lasting_state (p := (· = none)))
    refine Machine.Works.andThen (inspect_works ground ⟨h, same.symm⟩) fun inspected t h => ?_
    cases inspected with
    | error failure =>
      obtain ⟨unapplied, -⟩ := h.1.kept.fresh h.2 (h.1.entitled.own rfl).1 (h.1.entitled.own rfl).2
      exact Machine.Works.ok ⟨sec, h.1, good_failed fun _ _ secret reply mem => absurd mem (unapplied secret reply)⟩
    | ok value =>
      refine Machine.Works.andThen (works_still .password (fun _ _ => True) (fun _ _ _ h => ⟨h, fun _ _ => trivial⟩) ground h) ?_
      rintro created t ⟨h, -⟩
      refine Machine.Works.andThen (works_still (.protect original created) (fun _ box => box = ⟨original, created⟩)
        (fun _ _ _ h => h) ground h) ?_
      rintro _ t ⟨h, rfl⟩
      refine Machine.Works.andThen (Q := fun _ t => Recorded digest original created ⟨original, .prepared, ⟨original, created⟩, none⟩ t)
        ?_ fun _ t h => (rotateFrom_works injective h).mono fun _ _ ends => ⟨created, ends⟩
      refine works_write (.writeState original.name ⟨original, .prepared, ⟨original, created⟩, none⟩) (fun s => { s with
        states := Function.update s.states original.name (some ⟨original, .prepared, ⟨original, created⟩, none⟩) })
        (fun _ _ _ => written) ground (fun t h => ⟨created, h.1.kept⟩) (fun t h => ?_) h
      have kept := h.1.kept.create created h.2 h.1.open' (h.1.entitled.own rfl).1 (h.1.entitled.own rfl).2
      exact ⟨⟨⟨kept, h.1.open', h.1.entitled.own, h.1.entitled.begun⟩,
        fun none => by dsimp only at none; rw [Function.update_self] at none; cases none⟩, Function.update_self ..⟩

theorem recover_works (injective : Function.Injective digest) {reference : Id × Id} (names : task.original reference = original.name)
    (other : task.name ≠ original.name) (named : Named original task.name) (h : Working digest original task sec s) :
    Keeps digest original (recover digest task reference) (Finishes digest original task) s := by
  refine Machine.Works.andThen (works_still (.readState (task.original reference)) (fun s stored => stored = s.states original.name)
    (fun _ _ _ h => by rw [← names]; exact h) ground_working h) ?_
  rintro stored t ⟨h, same⟩
  have failure {t : World Digest} (h : Working digest original task sec t) : Finishes digest original task (failed task .recoveryState) t :=
    ⟨sec, h, good_failed fun same => absurd same other⟩
  cases stored with
  | none => exact Machine.Works.ok (failure h)
  | some old =>
    obtain ⟨owner, box, unapplied⟩ := h.kept.record old same.symm
    refine Machine.Works.ite (fun _ => Machine.Works.fail ⟨sec, h.kept⟩) fun _ => ?_
    refine Machine.Works.ite (fun prepared => ?_) fun issued => ?_
    · exact Machine.Works.ok ⟨sec, h, fun item mem => absurd mem List.not_mem_nil, fun _ => ⟨other, unapplied prepared⟩,
        fun same => absurd same other⟩
    have held : t.states original.name ≠ none := fun none => by cases same.trans none
    refine Machine.Works.andThen (openRecord_works ground_holding box ⟨h, held⟩) ?_
    rintro secret t ⟨h, same⟩
    rw [same]
    refine Machine.Works.andThen (candidate_works ground_holding h) fun subject t h => ?_
    cases subject with
    | none => exact Machine.Works.ok (failure h.toWorking)
    | some subject => exact (publish_works injective named owner box (by simp) h).mono fun _ _ ends => ⟨sec, ends⟩

theorem executeInner_works (injective : Function.Injective digest) (rotation : original.recovery = none)
    (concerns : Concerns original task) (h : Working digest original task sec s) :
    Keeps digest original (executeInner digest task) (Finishes digest original task) s := by
  have named : Named original task.name := ⟨task, concerns, rfl⟩
  refine Machine.Works.ite (fun _ => Machine.Works.fail ⟨sec, h.kept⟩) fun _ => ?_
  rcases concerns with rfl | ⟨reference, found, names, other⟩
  · rw [rotation]
    split
    · rename_i found
      cases found
    · exact rotate_works injective h
    · exact rotate_works injective h
    · exact Machine.Works.fail ⟨sec, h.kept⟩
  · rw [found]
    exact recover_works injective names other named h

end Rotations

/-! ## Results -/

section Pending

structure Extends (r r' : Result) : Prop where
  lists : ∀ item ∈ r.items, item ∈ r'.items
  verified : ∀ item ∈ r'.items, item.outcome = .verified → item ∈ r.items
  recovery : r'.recovery = r.recovery
  more : r' = r ∨ (r'.items ≠ [] ∧ r'.complete = false)

theorem Extends.trans {r r' r'' : Result} (first : Extends r r') (later : Extends r' r'') : Extends r r'' := by
  refine ⟨fun item mem => later.lists item (first.lists item mem),
    fun item mem verified => first.verified item (later.verified item mem verified) verified, later.recovery.trans first.recovery, ?_⟩
  rcases later.more with rfl | more
  · exact first.more
  · exact .inr more

theorem extends_fold (materials : List Envelope) (r : Result) :
    Extends r (withPending r (some ⟨"", materials⟩)) ∧
      ∀ m ∈ materials, ∃ item ∈ (withPending r (some ⟨"", materials⟩)).items, item.subject = m.subject := by
  induction materials generalizing r with
  | nil => exact ⟨⟨fun _ mem => mem, fun _ mem _ => mem, rfl, .inl rfl⟩, fun _ mem => absurd mem List.not_mem_nil⟩
  | cons m rest ih =>
    by_cases listed : r.items.any (·.subject = m.subject)
    · have same : withPending r (some ⟨"", m :: rest⟩) = withPending r (some ⟨"", rest⟩) := by
        simp only [withPending, Option.elim_some, List.foldl_cons, listed, if_true]
      rw [same]
      obtain ⟨later, all⟩ := ih r
      refine ⟨later, fun other mem => ?_⟩
      rcases List.mem_cons.mp mem with rfl | mem
      · obtain ⟨item, mem, same⟩ := List.any_eq_true.mp listed
        exact ⟨item, later.lists item mem, of_decide_eq_true same⟩
      · exact all other mem
    · let added : Result := { r with items := r.items ++ [⟨m.subject, .unknown⟩], complete := false, failure := some .nativeFailure }
      have same : withPending r (some ⟨"", m :: rest⟩) = withPending added (some ⟨"", rest⟩) := by
        simp only [withPending, Option.elim_some, List.foldl_cons, listed, added]
        rfl
      rw [same]
      obtain ⟨later, all⟩ := ih added
      have first : Extends r added := by
        refine ⟨fun item mem => List.mem_append_left _ mem, fun item mem verified => ?_, rfl, .inr ⟨by simp [added], rfl⟩⟩
        rcases List.mem_append.mp mem with mem | mem
        · exact mem
        · cases List.mem_singleton.mp mem
          cases verified
      refine ⟨first.trans later, fun other mem => ?_⟩
      rcases List.mem_cons.mp mem with rfl | mem
      · exact ⟨⟨other.subject, .unknown⟩, later.lists _ (List.mem_append_right _ List.mem_cons_self), rfl⟩
      · exact all other mem

theorem extends_withPending (r : Result) (escrow : Option Escrow) : Extends r (withPending r escrow) ∧ Lists (withPending r escrow) escrow := by
  cases escrow with
  | none => exact ⟨⟨fun _ mem => mem, fun _ mem _ => mem, rfl, .inl rfl⟩, fun e none => by cases none⟩
  | some e =>
    obtain ⟨after, all⟩ := extends_fold e.materials r
    exact ⟨after, fun e' same => Option.some.inj same ▸ all⟩

theorem Good.withPending {Digest : Type} {original : Task} {sec : Secret} {n : Name} {r : Result} {s : World Digest} (good : Good original sec n r s)
    (escrow : Option Escrow) : Good original sec n (withPending r escrow) s := by
  obtain ⟨after, -⟩ := extends_withPending r escrow
  refine ⟨fun item mem verified => good.verified item (after.verified item mem verified) verified,
    fun none => good.attempted (after.recovery ▸ none), fun same none => ?_⟩
  rcases after.more with unchanged | ⟨items, partly⟩
  · exact good.harmless same (unchanged ▸ none)
  · simp [assessment, items, partly] at none

end Pending

section Results
variable {Digest : Type} {digest : Escrow → Digest} {original task : Task} {sec : Secret} {s t : World Digest}

theorem execute_works (injective : Function.Injective digest) (rotation : original.recovery = none) (concerns : Concerns original task)
    (h : Kept digest original sec s ∧ Entitled original task s) :
    Keeps digest original (execute digest task) (fun r t => ∃ sec, Kept digest original sec t ∧ t.results task.name = some r) s := by
  have ground : Ground digest original fun s => Kept digest original sec s ∧ Entitled original task s := ground_kept.and lasting_entitled
  refine Machine.Works.andThen (works_still .validate (fun _ _ => True) (fun _ _ _ h => ⟨h, fun _ _ => trivial⟩) ground h) ?_
  rintro _ t ⟨h, -⟩
  refine Machine.Works.andThen (works_still (.readResult task.name) (fun s stored => stored = s.results task.name) (fun _ _ _ h => h)
    ground h) ?_
  rintro stored t ⟨h, same⟩
  cases stored with
  | some r => exact Machine.Works.ite (fun _ => Machine.Works.fail ⟨sec, h.1⟩) fun _ => Machine.Works.ok ⟨sec, h.1, same.symm⟩
  | none =>
    refine Machine.Works.andThen (executeInner_works injective rotation concerns ⟨h.1, same.symm, h.2⟩) ?_
    rintro r t ⟨sec, working, good⟩
    have ground : Ground digest original fun s => Working digest original task sec s ∧ Good original sec task.name r s :=
      ground_working.and lasting_good
    refine Machine.Works.andThen (works_still (.readEscrow task.name) (fun s escrow => escrow = s.escrows task.name) (fun _ _ _ h => h)
      ground ⟨working, good⟩) ?_
    rintro escrow t ⟨⟨working, good⟩, same⟩
    refine Machine.Works.andThen (Q := fun _ t => Kept digest original sec t ∧ t.results task.name = some (withPending r escrow)) ?_
      fun _ t h => Machine.Works.ok ⟨sec, h⟩
    refine works_write (.writeResult task.name (withPending r escrow))
      (fun s => { s with results := Function.update s.results task.name (some (withPending r escrow)) }) (fun _ _ _ => written)
      (ground.and (lasting_escrow (p := (escrow = ·)) (n := task.name))) (fun t h => ⟨sec, h.1⟩) (fun t h => ?_) ⟨⟨working, good⟩, same⟩
    obtain ⟨⟨working, good⟩, same⟩ := h
    exact ⟨working.kept.writeResult (good.withPending escrow) (same ▸ (extends_withPending r escrow).2) working.entitled.begun,
      Function.update_self ..⟩

theorem output_works {P : World Digest → Prop} {n : Name} {r : Result} (g : Ground digest original P)
    (allowed : ∀ t, P t → Allowed t.log (.produced n r (t.escrows n))) (h : P s) :
    Keeps digest original (call (.output n r)) (fun _ _ => True) s := by
  refine Machine.Works.ask g.stable h fun t reply u before performed => ⟨?_, fun _ _ => trivial⟩
  rcases performed with rfl | ⟨rfl, -⟩
  · exact g.inv _ (g.appends t _ before (allowed t before) rfl)
  · exact g.inv _ before

theorem result_works (injective : Function.Injective digest) (rotation : original.recovery = none) (concerns : Concerns original task)
    (h : Kept digest original sec s ∧ Entitled original task s) :
    Keeps digest original (result digest task) (fun _ _ => True) s := by
  refine Machine.Works.settle (execute_works injective rotation concerns h) ?_ ?_
  · rintro r t ⟨sec, h⟩
    refine output_works (ground_kept.and (lasting_result (p := (· = some r)))) (fun t h => ?_) h
    have named : Named original task.name := ⟨task, concerns, rfl⟩
    exact ⟨h.1.listed _ named r h.2, h.1.truthful named h.2⟩
  · rintro error t ⟨sec, h⟩
    refine Machine.Works.andThen (failureWithMaterials_works ground_kept h) fun r t h => ?_
    refine output_works (ground_kept.and (lasting_escrow (p := fun e => r = unknownOf task _ e))) (fun t h => ?_) h
    obtain ⟨-, rfl⟩ := h
    refine ⟨lists_unknown, fun item mem verified => ?_⟩
    rw [unknown_items item mem] at verified
    cases verified

end Results

/-! ## Retirement -/

section Retirements
variable {Digest : Type} {digest : Escrow → Digest} {original task : Task} {sec : Secret} {s t : World Digest} {n : Name}

theorem update_removed {α : Type} {f : Name → Option α} {m : Name} {value : α} (h : Function.update f n none m = some value) :
    f m = some value := by
  by_cases same : m = n
  · subst same
    rw [Function.update_self] at h
    cases h
  · rwa [Function.update_of_ne same] at h

theorem removeFiles_works (h : Kept digest original sec s) :
    Keeps digest original (removeFiles n) (fun _ t => Kept digest original sec t) s := by
  refine Machine.Works.andThen (Q := fun _ t => Kept digest original sec t) ?_ fun _ t h => ?_
  · exact works_write (.removeEscrow n) (fun s => { s with escrows := Function.update s.escrows n none }) (fun _ _ _ => written)
      ground_kept (fun t h => ⟨sec, h⟩) (fun _ h => h.remove (fun _ _ => update_removed) (fun _ _ => id) fun _ _ => id) h
  refine Machine.Works.andThen (Q := fun _ t => Kept digest original sec t) ?_ fun _ t h => ?_
  · exact works_write (.removeAck n) (fun s => { s with acks := Function.update s.acks n none }) (fun _ _ _ => written)
      ground_kept (fun t h => ⟨sec, h⟩) (fun _ h => h.remove (fun _ _ => id) (fun _ _ => update_removed) fun _ _ => id) h
  exact works_write (.removeResult n) (fun s => { s with results := Function.update s.results n none }) (fun _ _ _ => written)
    ground_kept (fun t h => ⟨sec, h⟩) (fun _ h => h.remove (fun _ _ => id) (fun _ _ => id) fun _ _ => update_removed) h

def Useless (sec : Secret) (log : List Event) : Prop := Rejected log ∨ Escrowed log sec

theorem useless_grows (log : List Event) (event : Event) (quiet : event.quiet = true) (h : Useless sec log) : Useless sec (log ++ [event]) :=
  h.imp (rejected_grows log event quiet) Escrowed.append

theorem Kept.succeeded {r : Result} (k : Kept digest original sec s) (named : Named original n) (found : s.results n = some r)
    (h : succeeded (some r) = true) : Useless sec s.log := by
  unfold CredentialRotation.succeeded at h
  simp only [Option.any_some, Bool.or_eq_true, Bool.and_eq_true, decide_eq_true_eq] at h
  rcases h with satisfied | ⟨-, none⟩
  · unfold assessment at satisfied
    split at satisfied
    · cases satisfied
    split at satisfied
    · rename_i all
      obtain ⟨-, -, items, verified⟩ := all
      obtain ⟨item, mem⟩ := List.exists_mem_of_ne_nil _ items
      have certain := of_decide_eq_true (List.all_eq_true.mp verified item mem)
      exact .inr ⟨n, item.subject, k.verified n named r found item mem certain⟩
    · split at satisfied <;> cases satisfied
  · obtain ⟨-, unapplied⟩ := k.attempted n named r found none
    exact .inl fun secret reply mem => absurd mem (unapplied secret reply)

def Closed (s : World Digest) : Prop := s.retired = true ∨ s.begun = true

theorem lasting_closed : Lasting digest original fun s => Closed s := by
  refine ⟨fun s t h step => ?_, fun _ _ h _ _ => h⟩
  obtain ⟨-, -, -, retired, begun, -⟩ := Interferes.same step
  unfold Closed
  rw [retired, begun]
  exact h

theorem removeOriginal_works (h : (Kept digest original sec s ∧ Closed s) ∧ Useless sec s.log) :
    Keeps digest original (call (.removeState original.name)) (fun _ t => Kept digest original sec t) s :=
  removeState_works ((ground_kept.and lasting_closed).and (lasting_log (p := Useless sec) useless_grows)) (fun _ k => ⟨sec, k⟩)
    (fun _ h => h.1.1.removeState h.1.2 h.2) h

theorem storedResult_works {P : World Digest → Prop} (g : Ground digest original P) (h : P s) :
    Keeps digest original (storedResult task) (fun stored t => P t ∧ ∀ r, stored = some r → t.results task.name = some r) s := by
  refine Machine.Works.andThen (works_still (.readResult task.name) (fun s stored => stored = s.results task.name) (fun _ _ _ h => h) g h) ?_
  rintro stored t ⟨h, same⟩
  cases stored with
  | none => exact Machine.Works.ok ⟨h, fun r none => by cases none⟩
  | some r =>
    refine Machine.Works.andThen (works_still .validate (fun _ _ => True) (fun _ _ _ h => ⟨h, fun _ _ => trivial⟩)
      (g.and (lasting_result (p := (· = some r)) (n := task.name))) ⟨h, same.symm⟩) ?_
    rintro _ t ⟨⟨h, found⟩, -⟩
    exact Machine.Works.ite (fun _ => Machine.Works.fail (g.inv t h)) fun _ => Machine.Works.ok ⟨h, fun r' same => same ▸ found⟩

theorem retire_works (rotation : original.recovery = none) (concerns : Concerns original task)
    (h : Kept digest original sec s ∧ (task = original → Closed s)) :
    Keeps digest original (retire task) (fun _ _ => True) s := by
  have named : Named original task.name := ⟨task, concerns, rfl⟩
  have ground : Ground digest original fun s => Kept digest original sec s ∧ (task = original → Closed s) :=
    ground_kept.and ⟨fun s t h step same => lasting_closed.stable s t (h same) step, fun _ _ h _ _ => h⟩
  have files {t : World Digest} (k : Kept digest original sec t) : Keeps digest original (removeFiles task.name) (fun _ _ => True) t :=
    (removeFiles_works k).mono fun _ _ _ => trivial
  refine Machine.Works.andThen (storedResult_works ground h) ?_
  rintro stored t ⟨⟨k, closed⟩, found⟩
  have useless (success : succeeded stored = true) : Useless sec t.log := by
    cases stored with
    | none => cases success
    | some r => exact k.succeeded named (found r rfl) success
  refine Machine.Works.ite (fun certain => ?_) fun _ => files k
  rcases concerns with rfl | ⟨reference, recovers, names, other⟩
  · have useless : Useless sec t.log := by
      rcases Bool.or_eq_true_iff.mp certain with success | harmless
      · exact useless success
      · cases stored with
        | none => cases harmless
        | some r => exact .inl (k.harmless r (found r rfl) (of_decide_eq_true harmless))
    refine Machine.Works.andThen (removeOriginal_works ⟨⟨k, closed rfl⟩, useless⟩) fun _ t k => ?_
    rw [rotation]
    exact files k
  cases success : succeeded stored with
  | false =>
    refine Machine.Works.andThen (removeState_works ground_kept ground_kept.inv (fun _ k => k.otherState other) k) fun _ t k => ?_
    rw [recovers]
    exact files k
  | true =>
    have begun : Closed t := by
      cases stored with
      | none => cases success
      | some r => exact .inr (k.recovered task.name named other (.inr fun none => by cases none.symm.trans (found r rfl)))
    have ground : Ground digest original fun s => (Kept digest original sec s ∧ Closed s) ∧ Useless sec s.log :=
      (ground_kept.and lasting_closed).and (lasting_log (p := Useless sec) useless_grows)
    refine Machine.Works.andThen (removeState_works ground ground.inv (fun _ h => ⟨⟨h.1.1.otherState other, h.1.2⟩, h.2⟩)
      ⟨⟨k, begun⟩, useless success⟩) fun _ t h => ?_
    rw [recovers]
    refine Machine.Works.ite (fun _ => ?_) fun _ => files h.1.1
    rw [names]
    refine Machine.Works.andThen (removeOriginal_works h) fun _ t k => ?_
    exact Machine.Works.andThen (removeFiles_works k) fun _ t k => files k

end Retirements

/-! ## Runs -/

section Runs
variable {Digest : Type} {digest : Escrow → Digest} {original : Task} {s t : World Digest}

/-- Nothing of the rotation is there yet. -/
structure Untouched (original : Task) (s : World Digest) : Prop where
  state : s.states original.name = none
  escrow : ∀ n, Named original n → s.escrows n = none
  ack : ∀ n, Named original n → s.acks n = none
  result : ∀ n, Named original n → s.results n = none
  retired : s.retired = false
  begun : s.begun = false
  log : s.log = []

theorem Untouched.kept (h : Untouched original s) (sec : Secret) : Kept digest original sec s := by
  have none {secret : Secret} {reply : Except Failure Unit} (mem : .applied secret reply ∈ s.log) : False := by
    rw [h.log] at mem
    cases mem
  refine ⟨fun before event later same => ?_, fun r found => ?_, fun _ _ _ => ⟨fun _ _ => none, h.escrow _ ⟨original, .inl rfl, rfl⟩⟩,
    fun _ _ mem => (none mem).elim, .inr (.inl fun _ _ mem => (none mem).elim), ?_, ?_, ?_, ?_, ?_, ?_, ?_⟩
  · rw [h.log] at same
    cases before <;> cases same
  · cases h.state.symm.trans found
  · exact fun n named e found => by cases (h.escrow n named).symm.trans found
  · exact fun n named d found => by cases (h.ack n named).symm.trans found
  · exact fun n named r found => by cases (h.result n named).symm.trans found
  · exact fun n named r found => by cases (h.result n named).symm.trans found
  · exact fun n named _ present => (present.elim (· (h.escrow n named)) (· (h.result n named))).elim
  · exact fun n named r found => by cases (h.result n named).symm.trans found
  · exact fun r found => by cases (h.result _ ⟨original, .inl rfl, rfl⟩).symm.trans found

theorem starts_safe (injective : Function.Injective digest) (rotation : original.recovery = none) {job : Job}
    {p : Program (Fallible Error (@Out Digest)) Unit} (inv : Invariant digest original s) (h : Starts digest original s job t p) :
    Invariant digest original t ∧ (machine digest original).Safe (Invariant digest original) p (fun _ _ => True) t := by
  have ends {w : Worker Digest Unit} {s : World Digest} (works : Keeps digest original w (fun _ _ => True) s) :
      (machine digest original).Safe (Invariant digest original) (Program.bind w fun _ => .done ()) (fun _ _ => True) s :=
    Machine.Safe.bind works fun _ _ _ => trivial
  obtain ⟨sec, k⟩ := inv
  cases h with
  | original kept alone =>
    exact ⟨⟨sec, k⟩, ends (result_works injective rotation (.inl rfl) ⟨k, fun _ => ⟨kept, alone⟩, fun differ => absurd rfl differ⟩)⟩
  | @recovery task recovers =>
    have begun := k.closes s.accounts id fun _ => rfl
    obtain ⟨reference, found, names, other⟩ := recovers
    exact ⟨⟨sec, begun⟩, ends (result_works injective rotation (.inr ⟨reference, found, names, other⟩)
      ⟨begun, fun same => absurd same other, fun _ => rfl⟩)⟩
  | retire =>
    have retired := k.closes s.accounts (fun _ => rfl) id
    exact ⟨⟨sec, retired⟩, ends (retire_works rotation (.inl rfl) ⟨retired, fun _ => .inl rfl⟩)⟩
  | @retireRecovery task recovers =>
    refine ⟨⟨sec, k⟩, ends (retire_works rotation (.inr recovers) ⟨k, fun same => ?_⟩)⟩
    obtain ⟨_, _, _, other⟩ := recovers
    exact absurd (congrArg Task.name same) other

def Recoverable (original : Task) (secret : Secret) (s : World Digest) : Prop :=
  (∃ r, s.states original.name = some r ∧ r.box = ⟨original, secret⟩) ∨ Escrowed s.log secret

theorem Kept.recovers {sec secret : Secret} {reply : Except Failure Unit} (k : Kept digest original sec s)
    (mem : .applied secret reply ∈ s.log) :
    Recoverable original secret s ∨ ∃ failure : Failure, reply = .error failure ∧ failure.definitive = true := by
  cases k.applied secret reply mem
  rcases k.recoverable with ⟨r, found⟩ | rejected | escrowed
  · exact .inl (.inl ⟨r, found, (k.record r found).2.1⟩)
  · exact .inr (rejected _ reply mem)
  · exact .inl (.inr escrowed)

theorem Escrowed.before {log : List Event} {secret other : Secret} {reply : Except Failure Unit}
    (h : Escrowed (log ++ [.applied other reply]) secret) : Escrowed log secret := by
  obtain ⟨n, subject, escrow, mem, one⟩ := h
  refine ⟨n, subject, escrow, ?_, one⟩
  rcases List.mem_append.mp mem with mem | mem
  · exact mem
  · cases List.mem_singleton.mp mem

/-- In every run a secret is applied once and stays recoverable until it is escrowed, and what is removed and reported is justified. -/
theorem applied_once_kept (injective : Function.Injective digest) (rotation : original.recovery = none) {start : World Digest}
    {moves : List (Move Job (Call Digest))} {host : Host (Fallible Error (@Out Digest)) (World Digest)} (untouched : Untouched original start)
    (run : Runs (HostStep (machine digest original) (Starts digest original)) ⟨start, none⟩ moves host) :
    Justified host.state.log ∧
      (∀ secret reply, .applied secret reply ∈ host.state.log →
        Recoverable original secret host.state ∨ ∃ failure : Failure, reply = .error failure ∧ failure.definitive = true) ∧
      ∀ operation secret next, host.running = some (.call (.apply operation secret) next) → Recoverable original secret host.state := by
  obtain ⟨⟨sec, k⟩, safe⟩ := run_guarded (I := Invariant digest original) (fun s t ⟨sec, k⟩ h => ⟨sec, k.interferes h⟩)
    (fun s job t p inv h => starts_safe injective rotation inv h) ⟨"", untouched.kept ""⟩ run
  refine ⟨k.justified, fun secret reply mem => k.recovers mem, fun operation secret next running => ?_⟩
  -- the call could succeed, and the invariant would hold after it
  obtain ⟨⟨sec', after⟩, -⟩ := safe _ running host.state .refl (.ok (.ok ())) _ ⟨_, rfl, rfl⟩
  rcases after.recovers (List.mem_append_right _ List.mem_cons_self) with (held | escrowed) | ⟨failure, same, -⟩
  · exact .inl held
  · exact .inr escrowed.before
  · cases same

theorem acted {start : Host (Fallible Error (@Out Digest)) (World Digest)} {moves : List (Move Job (Call Digest))} {c : Call Digest}
    {next : Fallible Error (@Out Digest) c → Program (Fallible Error (@Out Digest)) Unit}
    (earlier : Runs (HostStep (machine digest original) (Starts digest original)) start moves ⟨s, some (.call c next)⟩)
    (reply : Fallible Error (@Out Digest) c) (h : performs s c reply t) :
    Runs (HostStep (machine digest original) (Starts digest original)) start (moves ++ [.act c]) ⟨t, some (next reply)⟩ :=
  earlier.next (.act h)

end Runs

section Samples

def sampleTask : Task := ⟨1, "device", 2, 1, 3, 4, "definition", .start, .rotateBitlocker "C:" 5, none⟩

def sampleWorld : World Escrow := ⟨fun _ => none, fun _ => none, fun _ => none, fun _ => none, fun _ => none, false, false, []⟩

theorem sample_run : ∃ moves host, Runs (HostStep (machine id sampleTask) (Starts id sampleTask)) ⟨sampleWorld, none⟩ moves host ∧
    .applied "key" (.ok ()) ∈ host.state.log := by
  have begun : Starts id sampleTask sampleWorld (.run sampleTask) sampleWorld _ := .original rfl rfl
  have run := Runs.one (HostStep.start (M := machine id sampleTask) begun)
  have run := acted run (.ok ()) rfl
  have run := acted run (.ok none) ⟨rfl, fun _ h => (Except.ok.inj h).symm⟩
  have run := acted run (.ok none) ⟨rfl, fun _ h => (Except.ok.inj h).symm⟩
  have run := acted run (.ok (.ok ())) ⟨rfl, _, rfl⟩
  have run := acted run (.ok "key") rfl
  have run := acted run (.ok ⟨sampleTask, "key"⟩) ⟨rfl, fun _ h => (Except.ok.inj h).symm⟩
  have run := acted run (.ok ()) (.inl rfl)
  have run := acted run (.ok ⟨sampleTask, "key"⟩) ⟨rfl, fun _ h => (Except.ok.inj h).symm⟩
  have run := acted run (.ok ()) (.inl rfl)
  have run := acted run (.ok (.ok ())) ⟨_, rfl, rfl⟩
  exact ⟨_, _, run.next .crash, List.mem_append_right _ List.mem_cons_self⟩

theorem sample_kept : ∃ moves host, Runs (HostStep (machine id sampleTask) (Starts id sampleTask)) ⟨sampleWorld, none⟩ moves host ∧
    Justified host.state.log ∧ Recoverable sampleTask "key" host.state := by
  obtain ⟨moves, host, run, mem⟩ := sample_run
  obtain ⟨justified, kept, -⟩ := applied_once_kept Function.injective_id rfl
    ⟨rfl, fun _ _ => rfl, fun _ _ => rfl, fun _ _ => rfl, rfl, rfl, rfl⟩ run
  refine ⟨moves, host, run, justified, (kept "key" (.ok ()) mem).resolve_right ?_⟩
  rintro ⟨failure, same, -⟩
  cases same

end Samples

end RssMdmAgent.CredentialRotation
