import RssMdmAgent.ContentTransfers

set_option autoImplicit false

/-! # Content controls over whole runs -/

namespace RssMdmAgent.ContentTransfers
open OrderedRows TransitionRuns

/-! ## Selections -/

section Selections
variable {s : Transfers} {condition : Consumer → Bool} {v : Consumer} {task attempt : Uuid}

theorem mem_those : v ∈ s.those condition ↔ v ∈ s.consumers.entries ∧ condition v = true := by
  unfold Transfers.those
  rw [List.mem_insertionSort, Rows.mem_select]

theorem those_distinct : ((s.those condition).map Consumer.identity).Nodup := by
  have perm := List.perm_insertionSort (fun a b : Consumer => a.identity.upTo b.identity = true)
    (s.consumers.select condition)
  rw [Transfers.those, (perm.map _).nodup_iff]
  exact s.consumers.distinct.sublist (List.filter_sublist.map _)

theorem Consumer.of_iff : v.of task attempt = true ↔ v.task = task ∧ v.attempt = attempt := by
  simp [Consumer.of]

theorem mem_selected : v ∈ s.selected task attempt ↔ v ∈ s.consumers.entries ∧ v.task = task ∧ v.attempt = attempt := by
  rw [Transfers.selected, mem_those, Consumer.of_iff]

theorem selected_keys : ((s.selected task attempt).map Consumer.key).Nodup := by
  have distinct : ((s.selected task attempt).map Consumer.identity).Nodup := those_distinct
  have same : (s.selected task attempt).map Consumer.identity =
      ((s.selected task attempt).map Consumer.key).map (Identity.mk task attempt) := by
    rw [List.map_map]
    apply List.map_congr_left
    intro v mem
    obtain ⟨-, rfl, rfl⟩ := mem_selected.mp mem
    rfl
  rw [same] at distinct
  exact distinct.of_map _

end Selections

/-! ## What a call does to the row of one consumer -/

section Changes
variable {s : Transfers} {io : Access → Bool} {values : List Consumer}

theorem saveAll_prefix (io : Access → Bool) (values : List Consumer) (s : Transfers) (index : Nat) :
    ∃ n, (s.saveAll io values index).1 = s.putAll (values.take n) := by
  induction values generalizing s index with
  | nil => exact ⟨0, rfl⟩
  | cons v rest ih =>
    unfold Transfers.saveAll
    split
    · obtain ⟨n, saved⟩ := ih (s.put v) (index + 1)
      exact ⟨n + 1, saved⟩
    · exact ⟨0, rfl⟩

variable {R : Consumer → Consumer → Prop} {olds : List Consumer}

def Touched (R : Consumer → Consumer → Prop) (olds : List Consumer) (s t : Transfers) : Prop :=
  ∀ k, (∃ v ∈ olds, ∃ w, s.consumers.get k = some v ∧ t.consumers.get k = some w ∧ R v w) ∨
    t.consumers.get k = s.consumers.get k

theorem setAll_touched {t : Transfers} (known : ∀ v ∈ olds, v ∈ s.consumers.entries)
    (distinct : (olds.map Consumer.identity).Nodup)
    (related : List.Forall₂ (fun v w => w.identity = v.identity ∧ R v w) olds values)
    (after : t.consumers = s.consumers.setAll values) : Touched R olds s t := by
  intro k
  rw [after]
  rcases Rows.get_setAll_related (fun v mem => Rows.get_of_mem (known v mem)) distinct related k with
    ⟨v, mem, w, -, before, now, change⟩ | ⟨-, same⟩
  · exact .inl ⟨v, mem, w, before, now, change⟩
  · exact .inr same

theorem saveAll_touched (index : Nat) (known : ∀ v ∈ olds, v ∈ s.consumers.entries)
    (distinct : (olds.map Consumer.identity).Nodup)
    (related : List.Forall₂ (fun v w => w.identity = v.identity ∧ R v w) olds values) :
    Touched R olds s (s.saveAll io values index).1 := by
  obtain ⟨n, saved⟩ := saveAll_prefix io values s index
  have sub : ((olds.take n).map Consumer.identity).Sublist (olds.map Consumer.identity) := (List.take_sublist n olds).map _
  have part : Touched R (olds.take n) s (s.saveAll io values index).1 :=
    setAll_touched (fun v mem => known v (List.mem_of_mem_take mem)) (distinct.sublist sub)
      (List.forall₂_take n related) (by rw [saved]; rfl)
  intro k
  rcases part k with ⟨v, mem, rest⟩ | same
  · exact .inl ⟨v, List.mem_of_mem_take mem, rest⟩
  · exact .inr same

theorem selected_related {task attempt : Uuid}
    (related : List.Forall₂ (fun v w => w.identity = v.identity ∧ R v w) (s.selected task attempt) values) (k : Identity) :
    (∃ v ∈ s.selected task attempt, ∃ w ∈ values, s.consumers.get k = some v ∧ (s.putAll values).consumers.get k = some w ∧
        R v w) ∨
      (k ∉ (s.selected task attempt).map Consumer.identity ∧ (s.putAll values).consumers.get k = s.consumers.get k) :=
  Rows.get_setAll_related (fun _ mem => Rows.get_of_mem (mem_selected.mp mem).1) those_distinct related k

theorem related_map (change : Consumer → Consumer) (keeps : ∀ v, (change v).identity = v.identity) :
    List.Forall₂ (fun v w => w.identity = v.identity ∧ w = change v) olds (olds.map change) := by
  induction olds with
  | nil => exact .nil
  | cons v rest ih => exact .cons ⟨keeps v, rfl⟩ ih

end Changes

/-! ## What a control does -/

section Controls
variable {s : Transfers} {io : Access → Bool} {c : Command} {v w : Consumer} {index : Nat} {d d' : Disk}
  {name : String} {confirmed : Bool}

def Disk.Flushed (d d' : Disk) : Prop :=
  d'.blobs = d.blobs ∧ ∀ name, d'.partials.get name = d.partials.get name ∨
    ∃ file, d.partials.get name = some file ∧ d'.partials.get name = some { file with synced := file.bytes }

theorem Disk.Flushed.refl (d : Disk) : d.Flushed d := ⟨rfl, fun _ => .inl rfl⟩

theorem Disk.Flushed.trans {e : Disk} (first : d.Flushed d') (second : d'.Flushed e) : d.Flushed e := by
  refine ⟨second.1.trans first.1, fun name => ?_⟩
  rcases second.2 name with same | ⟨file, found, after⟩
  · rcases first.2 name with kept | ⟨file, found, after⟩
    · exact .inl (same.trans kept)
    · exact .inr ⟨file, found, same.trans after⟩
  · rcases first.2 name with kept | ⟨old, before, middle⟩
    · exact .inr ⟨file, kept ▸ found, after⟩
    · rw [middle] at found
      cases found
      exact .inr ⟨old, before, after⟩

theorem Disk.Flushed.safe (flushed : d.Flushed d') (safe : d.Safe name) : d'.Safe name := by
  rcases safe with done | synced
  · exact .inl (flushed.1 ▸ done)
  · right
    intro file found
    rcases flushed.2 name with same | ⟨old, -, after⟩
    · exact synced file (same ▸ found)
    · rw [after] at found
      cases found
      rfl

theorem pauseReady_flushed {synced : Bool} : d.Flushed (pauseReady d synced name).1 := by
  unfold pauseReady
  split
  · exact .refl d
  split
  · exact .refl d
  rename_i file found
  split
  · exact .refl d
  split
  · refine ⟨rfl, fun other => ?_⟩
    have named : file.name = name := Rows.get_key found
    by_cases same : other = name
    · subst same
      exact .inr ⟨file, found, by rw [← named]; exact Rows.get_set_self⟩
    · exact .inl (Rows.get_set_ne (by rw [named]; exact same))
  · exact .refl d

theorem pauseReady_safe {synced : Bool} {bytes : Nat} (ready : pauseReady d synced name = (d', .ok (some bytes))) :
    d'.Safe name := by
  unfold pauseReady at ready
  split at ready
  · cases ready
  split at ready
  · rename_i absent
    cases ready
    right
    intro file found
    rw [absent] at found
    cases found
  rename_i file found
  split at ready
  · cases ready
  split at ready
  · cases ready
    right
    intro other after
    have placed : (d.partials.set { file with synced := file.bytes }).get name = some { file with synced := file.bytes } := by
      rw [← Rows.get_key found]
      exact Rows.get_set_self
    rw [placed] at after
    cases after
    rfl
  · cases ready

def Accepted (s : Transfers) (c : Command) (d : Disk) (v w : Consumer) : Prop :=
  (v.key, v.revision) ∈ c.revisions ∧ v.controls.length < 128 ∧
    ∃ durable, w = v.accept c (s.shared c.task v.cache) durable ∧ (durable.isSome = true → d.Safe v.cache)

def Consumer.Confirms (v : Consumer) (id : String) (pause : Bool) : Prop :=
  ∃ r ∈ v.controls, r.id = id ∧ r.pause = pause ∧ r.confirmed = true

theorem controlOne_flushed (s : Transfers) (io : Access → Bool) (c : Command) (index : Nat) (d : Disk) (v : Consumer) :
    d.Flushed (s.controlOne io c index d v).1 := by
  unfold Transfers.controlOne
  split
  · exact .refl d
  split
  · exact .refl d
  split
  · exact .refl d
  split
  · exact .refl d
  have flushed : d.Flushed (pauseReady d (io (.sync index)) v.cache).1 := pauseReady_flushed
  dsimp only
  split
  · cases ready : pauseReady d (io (.sync index)) v.cache with
    | mk e result =>
      rw [ready] at flushed
      cases result with
      | error e => exact flushed
      | ok durable => cases durable <;> exact flushed
  · exact .refl d

theorem controlOne_accepts (new : v.control c.id = none)
    (done : s.controlOne io c index d v = (d', .ok (w, confirmed))) :
    Accepted s c d' v w ∧ (confirmed = true → w.Confirms c.id c.pause) := by
  unfold Transfers.controlOne at done
  simp only [new] at done
  split at done
  · cases done
  rename_i named
  split at done
  · cases done
  rename_i room
  split at done
  · cases done
  have listed : (v.key, v.revision) ∈ c.revisions := by simpa using named
  have recorded : ∀ other durable, (!c.pause || other || durable.isSome) = true →
      (v.accept c other durable).Confirms c.id c.pause := fun other durable sure =>
    ⟨_, List.mem_append_right _ List.mem_cons_self, rfl, rfl, sure⟩
  split at done
  · rename_i pausing
    split at done
    · cases done
    · simp only [Prod.mk.injEq, Except.ok.injEq] at done
      obtain ⟨rfl, rfl, rfl⟩ := done
      exact ⟨⟨listed, by omega, none, rfl, fun none => by cases none⟩, recorded _ _⟩
    · rename_i e bytes told
      have safe := pauseReady_safe told
      split at done
      · cases done
      simp only [Prod.mk.injEq, Except.ok.injEq] at done
      obtain ⟨rfl, rfl, rfl⟩ := done
      exact ⟨⟨listed, by omega, some bytes, rfl, fun _ => safe⟩, recorded _ _⟩
  · rename_i resting
    simp only [Prod.mk.injEq, Except.ok.injEq] at done
    obtain ⟨rfl, rfl, rfl⟩ := done
    exact ⟨⟨listed, by omega, none, rfl, fun none => by cases none⟩, recorded _ _⟩

theorem Accepted.mono {e : Disk} (accepted : Accepted s c d v w) (flushed : d.Flushed e) : Accepted s c e v w := by
  obtain ⟨listed, room, durable, rfl, safe⟩ := accepted
  exact ⟨listed, room, durable, rfl, fun some => flushed.safe (safe some)⟩

theorem controlEach_flushed (s : Transfers) (io : Access → Bool) (c : Command) (list : List Consumer) (index : Nat)
    (d : Disk) : d.Flushed (s.controlEach io c list index d).1 := by
  induction list generalizing index d with
  | nil => exact .refl d
  | cons v rest ih =>
    have flushed := controlOne_flushed s io c index d v
    unfold Transfers.controlEach
    cases told : s.controlOne io c index d v with
    | mk e result =>
      rw [told] at flushed
      cases result with
      | error e => exact flushed
      | ok answer =>
        dsimp only
        split
        · have after := flushed.trans (ih (index + 1) e)
          cases later : s.controlEach io c rest (index + 1) e with
          | mk f others =>
            rw [later] at after
            cases others <;> exact after
        · exact flushed

theorem controlEach_accepts {list values : List Consumer} (new : ∀ v ∈ list, v.control c.id = none)
    (done : s.controlEach io c list index d = (d', .ok (values, confirmed))) :
    d.Flushed d' ∧ List.Forall₂ (fun v w => w.identity = v.identity ∧ Accepted s c d' v w) list values ∧
      (confirmed = true → ∀ w ∈ values, w.Confirms c.id c.pause) := by
  induction list generalizing index d d' values confirmed with
  | nil =>
    cases done
    exact ⟨.refl d, .nil, fun _ w mem => nomatch mem⟩
  | cons v rest ih =>
    obtain ⟨here, later⟩ := List.forall_mem_cons.mp new
    unfold Transfers.controlEach at done
    have flushed := controlOne_flushed s io c index d v
    cases told : s.controlOne io c index d v with
    | mk e result =>
      rw [told] at done flushed
      cases result with
      | error e => cases done
      | ok answer =>
        obtain ⟨w, sure⟩ := answer
        simp only at done
        split at done
        · cases rest' : s.controlEach io c rest (index + 1) e with
          | mk f others =>
            rw [rest'] at done
            cases others with
            | error e => cases done
            | ok others =>
              obtain ⟨news, surely⟩ := others
              simp only [Prod.mk.injEq, Except.ok.injEq] at done
              obtain ⟨rfl, rfl, rfl⟩ := done
              obtain ⟨after, related, recorded⟩ := ih later rest'
              obtain ⟨accepted, alone⟩ := controlOne_accepts here told
              refine ⟨flushed.trans after, .cons ⟨?_, accepted.mono after⟩ related, ?_⟩
              · obtain ⟨-, -, durable, rfl, -⟩ := accepted
                rfl
              · intro both
                rw [Bool.and_eq_true] at both
                exact List.forall_mem_cons.mpr ⟨alone both.1, recorded both.2⟩
        · cases done

/-- What a control does: it is refused, it repeats a recorded answer, or every consumer of the attempt accepts it. -/
inductive Controlled (s : Transfers) (c : Command) (d d' : Disk) : Transfers → Except Error Bool → Prop where
  | refused (e : Error) (flushed : d.Flushed d') : Controlled s c d d' s (.error e)
  | replayed (confirmed : Bool) (seen : 0 < (s.recorded c).length) (same : d' = d)
      (all : (s.recorded c).length = (s.selected c.task c.attempt).length)
      (answer : c.replay (s.selected c.task c.attempt) = .ok confirmed) : Controlled s c d d' s (.ok confirmed)
  | accepted (values : List Consumer) (confirmed : Bool) (new : ∀ v ∈ s.selected c.task c.attempt, v.control c.id = none)
      (some : s.selected c.task c.attempt ≠ []) (all : c.revisions.length = (s.selected c.task c.attempt).length)
      (able : ∀ v ∈ s.selected c.task c.attempt, v.resumable = true ∧ v.cancelled = false) (flushed : d.Flushed d')
      (related : List.Forall₂ (fun v w => w.identity = v.identity ∧ Accepted s c d' v w) (s.selected c.task c.attempt) values)
      (recorded : confirmed = true → ∀ w ∈ values, w.Confirms c.id c.pause) :
      Controlled s c d d' (s.putAll values) (.ok confirmed)

theorem control_cases (s : Transfers) (io : Access → Bool) (c : Command) (d : Disk) :
    Controlled s c d (s.control io d c).2.1 (s.control io d c).1 (s.control io d c).2.2 := by
  unfold Transfers.control
  dsimp only
  split
  · rename_i seen
    split
    · exact .refused _ (.refl d)
    · rename_i all
      rw [not_or, not_ne_iff, not_ne_iff] at all
      cases answer : c.replay (s.selected c.task c.attempt) with
      | error e => exact .refused e (.refl d)
      | ok confirmed => exact .replayed confirmed seen rfl all.1 answer
  rename_i unseen
  have new : ∀ v ∈ s.selected c.task c.attempt, v.control c.id = none := by
    intro v mem
    have none : s.recorded c = [] := by simpa using unseen
    have kept := List.filter_eq_nil_iff.mp none v mem
    simpa using kept
  split
  · exact .refused _ (.refl d)
  rename_i fits
  rw [not_or, not_or, not_ne_iff] at fits
  obtain ⟨some, all, able⟩ := fits
  split
  · exact .refused _ (.refl d)
  cases told : s.controlEach io c (s.selected c.task c.attempt) 0 d with
  | mk e result =>
    have flushed : d.Flushed e := by
      have flushed := controlEach_flushed s io c (s.selected c.task c.attempt) 0 d
      rwa [told] at flushed
    cases result with
    | error e => exact .refused e flushed
    | ok answer =>
      obtain ⟨values, confirmed⟩ := answer
      dsimp only
      split
      · obtain ⟨-, related, recorded⟩ := controlEach_accepts new told
        refine .accepted values confirmed new some all (fun v mem => ?_) flushed related recorded
        have each := List.any_eq_false.mp (Bool.not_eq_true _ ▸ able) v mem
        simpa using each
      · exact .refused _ flushed

end Controls

/-! ## What a call does to the rows -/

section RowSteps
variable {s t : System} {io : Access → Bool} {call : Call} {k : Identity}

/-- What a call may do to a consumer that it finds. -/
inductive Change (s : System) (d : Disk) : Call → Consumer → Consumer → Prop where
  | accepted {c : Command} {v w : Consumer} (mine : v.task = c.task ∧ v.attempt = c.attempt)
      (new : v.control c.id = none) (able : v.resumable = true ∧ v.cancelled = false)
      (accepted : Accepted s.transfers c d v w) : Change s d (.control c) v w
  | settled {call : Call} {v : Consumer} {bytes : Nat} (complete : Bool)
      (left : s.writer = .stopped v.cache bytes ∨ s.writer = .finished v.cache bytes) (same : d = s.disk) :
      Change s d call v (v.settle bytes complete)
  | cancelled {call : Call} {v : Consumer} : Change s d call v v.cancel
  | retired {call : Call} {v : Consumer} : Change s d call v v.retire

/-- What a call may do to the row under one key. -/
inductive RowStep (s t : System) (call : Call) : Option Consumer → Option Consumer → Prop where
  | same (row : Option Consumer) : RowStep s t call row row
  | changed {v w : Consumer} (change : Change s t.disk call v w) : RowStep s t call (some v) (some w)
  | created {identity : Identity} {cache : String} {total : Option Nat} {resumable : Bool}
      (named : call = .attach identity cache total resumable) :
      RowStep s t call none (some (.fresh identity cache total resumable))
  | evicted {v : Consumer} (retired : v.retired = true) : RowStep s t call (some v) none

theorem Touched.row {R : Consumer → Consumer → Prop} {olds : List Consumer} (touched : Touched R olds s.transfers t.transfers)
    (changes : ∀ v w, v ∈ olds → R v w → Change s t.disk call v w) :
    RowStep s t call (s.transfers.consumers.get k) (t.transfers.consumers.get k) := by
  rcases touched k with ⟨v, mem, w, before, after, change⟩ | same
  · rw [before, after]
    exact .changed (changes v w mem change)
  · rw [same]
    exact .same _

theorem save_row {identity : Identity} {cache : String} {total : Option Nat} {resumable : Bool} {r : Transfers}
    (named : call = .attach identity cache total resumable) (absent : s.transfers.consumers.get identity = none)
    (dropped : r.consumers.get identity = none)
    (others : RowStep s t call (s.transfers.consumers.get k) (r.consumers.get k))
    (after : t.transfers = (r.save io 0 (.fresh identity cache total resumable)).1) :
    RowStep s t call (s.transfers.consumers.get k) (t.transfers.consumers.get k) := by
  unfold Transfers.save at after
  split at after
  · by_cases here : k = identity
    · subst here
      have placed : t.transfers.consumers.get k = some (.fresh k cache total resumable) := by
        rw [after]
        exact Rows.get_set_self
      rw [absent, placed]
      exact .created named
    · have kept : t.transfers.consumers.get k = r.consumers.get k := by
        rw [after]
        exact Rows.get_set_ne here
      rwa [kept]
  · rwa [after]

theorem attach_row {identity : Identity} {cache : String} {total : Option Nat} {resumable : Bool}
    (named : call = .attach identity cache total resumable)
    (after : t.transfers = (s.transfers.attach io identity cache total resumable).1) :
    RowStep s t call (s.transfers.consumers.get k) (t.transfers.consumers.get k) := by
  have still : t.transfers = s.transfers →
      RowStep s t call (s.transfers.consumers.get k) (t.transfers.consumers.get k) := by
    intro same
    rw [same]
    exact .same _
  unfold Transfers.attach at after
  split at after
  · split at after <;> exact still after
  rename_i absent
  split at after
  · split at after
    · exact still after
    rename_i gone first
    split at after
    · obtain ⟨stored, retired⟩ := mem_those.mp (List.mem_of_head? first)
      have kept : ∀ key, (s.transfers.evict gone).consumers.get key =
          (s.transfers.consumers.get key).filter fun other => decide (other.identity ≠ gone.identity) :=
        fun key => Rows.get_retain
      refine save_row named absent (by rw [kept, absent]; rfl) ?_ after
      rw [kept]
      cases found : s.transfers.consumers.get k with
      | none => exact .same _
      | some v =>
        by_cases here : v.identity = gone.identity
        · have same : v = gone := by
            have other := Rows.get_of_mem stored
            rw [← here, Rows.get_key found, found] at other
            exact Option.some.inj other
          subst same
          rw [Option.filter_some, if_neg (by simp)]
          exact .evicted retired
        · rw [Option.filter_some, if_pos (by simpa using here)]
          exact .same _
    · exact still after
  · exact save_row named absent absent (.same _) after

theorem known_those {r : Transfers} {condition : Consumer → Bool} :
    ∀ v ∈ r.those condition, v ∈ r.consumers.entries := fun _ mem => (mem_those.mp mem).1

theorem publish_touched {r : Transfers} {cache : String} {bytes : Nat} {stage : Stage} :
    Touched (fun v w => w = v.settle bytes (decide (stage = .complete))) (r.those fun v => decide (v.cache = cache)) r
      (r.publish io cache bytes stage).1 := by
  unfold Transfers.publish
  dsimp only
  split
  · exact saveAll_touched (s := { r with latest := r.latest.set ⟨cache, bytes, stage⟩ }) 0 known_those those_distinct
      (related_map _ fun _ => rfl)
  · exact fun k => .inr rfl

theorem publish_quiet {r : Transfers} {cache : String} {bytes : Nat} {stage : Stage}
    (going : ¬(stage = .paused ∨ stage = .complete)) :
    (r.publish io cache bytes stage).1.consumers = r.consumers := by
  unfold Transfers.publish
  dsimp only
  rw [if_neg going]

theorem lease_transfers (name : String) : (s.lease name).1.transfers = s.transfers := by
  unfold System.lease
  split
  · rfl
  split
  · rfl
  split <;> rfl

theorem edit_transfers (change : Partial → Partial) : (s.edit change).1.transfers = s.transfers := by
  unfold System.edit
  split <;> rfl

theorem stop_transfers : (s.stop io).1.transfers = s.transfers := by
  unfold System.stop
  split
  · split <;> rfl
  · rfl

theorem finish_transfers : (s.finish io).1.transfers = s.transfers := by
  unfold System.finish
  split
  · split <;> rfl
  · rfl

theorem abandon_transfers : s.abandon.transfers = s.transfers := by
  unfold System.abandon
  split <;> rfl

theorem settle_touched {name : String} {bytes : Nat} {stage : Stage} {r : System}
    (left : s.writer = .stopped name bytes ∨ s.writer = .finished name bytes)
    (after : r.transfers = (s.transfers.publish io name bytes stage).1) (same : r.disk = s.disk) :
    RowStep s r call (s.transfers.consumers.get k) (r.transfers.consumers.get k) := by
  have touched : Touched _ _ s.transfers r.transfers := after ▸ publish_touched
  refine touched.row ?_
  rintro v _ mem rfl
  have named : v.cache = name := by simpa using (mem_those.mp mem).2
  subst named
  exact .settled _ left same

theorem opened_row {limit : Nat} {current : Uuid → Option Uuid} {r : System}
    (coherent : s.transfers.stored = s.transfers.consumers)
    (after : r.transfers = (s.transfers.opened io limit current).1) :
    RowStep s r call (s.transfers.consumers.get k) (r.transfers.consumers.get k) := by
  unfold Transfers.opened at after
  split at after
  · rw [after]
    exact .same _
  dsimp only at after
  have loaded : ∀ key, s.transfers.consumers.get key = s.transfers.stored.get key := fun key => by rw [coherent]
  rw [loaded]
  split at after
  · have touched : Touched (fun v w => w = v.retire) _ ⟨s.transfers.stored, s.transfers.stored, .empty, limit⟩ r.transfers :=
      setAll_touched known_those those_distinct (related_map Consumer.retire fun _ => rfl) (by rw [after]; rfl)
    rcases touched k with ⟨v, -, w, before, now, rfl⟩ | same
    · rw [now, show s.transfers.stored.get k = some v from before]
      exact .changed .retired
    · rw [same]
      exact .same _
  · rw [after]
    exact .same _

/-- Every call changes the row under a key in one of the listed ways. -/
theorem perform_row (coherent : s.transfers.stored = s.transfers.consumers) (io : Access → Bool) (call : Call)
    (k : Identity) :
    RowStep s (s.perform io call).1 call (s.transfers.consumers.get k)
      ((s.perform io call).1.transfers.consumers.get k) := by
  have still : ∀ t : System, t.transfers.consumers = s.transfers.consumers →
      RowStep s t call (s.transfers.consumers.get k) (t.transfers.consumers.get k) := by
    intro t same
    rw [same]
    exact .same _
  cases call with
  | attach identity cache total resumable => exact attach_row rfl rfl
  | control c =>
    have cases := control_cases s.transfers io c s.disk
    generalize told : s.transfers.control io s.disk c = r at cases
    obtain ⟨r, d, reply⟩ := r
    have after : (s.perform io (.control c)).1 = { s with transfers := r, disk := d } := by
      simp only [System.perform, told]
    rw [after]
    cases cases with
    | refused => exact still _ rfl
    | replayed => exact still _ rfl
    | accepted values confirmed new some all able flushed related recorded =>
      have touched : Touched _ _ s.transfers (s.transfers.putAll values) :=
        setAll_touched known_those those_distinct related rfl
      refine Touched.row (t := { s with transfers := s.transfers.putAll values, disk := d }) touched ?_
      intro v w mem accepted
      exact .accepted (mem_selected.mp mem).2 (new v mem) (able v mem) accepted
  | detach task attempt =>
    refine Touched.row (saveAll_touched 0 known_those those_distinct (related_map Consumer.cancel fun _ => rfl)) ?_
    rintro v w - rfl
    exact .cancelled
  | release task =>
    refine Touched.row (saveAll_touched 0 known_those those_distinct (related_map Consumer.retire fun _ => rfl)) ?_
    rintro v w - rfl
    exact .retired
  | retire task attempt =>
    simp only [System.perform]
    split
    · refine Touched.row (setAll_touched known_those those_distinct (related_map Consumer.retire fun _ => rfl) rfl) ?_
      rintro v w - rfl
      exact .retired
    · exact .same _
  | reopen limit current => exact opened_row coherent rfl
  | lease name => exact still _ (by rw [System.perform, lease_transfers])
  | append bytes => exact still _ (by rw [System.perform, edit_transfers])
  | truncate => exact still _ (by rw [System.perform, edit_transfers])
  | observe name bytes stage =>
    simp only [System.perform]
    split
    · exact .same _
    · rename_i going
      exact still _ (publish_quiet going)
  | stop => exact still _ (by rw [System.perform, stop_transfers])
  | finish => exact still _ (by rw [System.perform, finish_transfers])
  | cached name bytes =>
    simp only [System.perform]
    split <;> exact .same _
  | paused =>
    simp only [System.perform]
    split
    · rename_i name bytes left
      exact settle_touched (.inl left) rfl rfl
    · exact .same _
  | complete =>
    simp only [System.perform]
    split
    · rename_i name bytes left
      exact settle_touched (.inr left) rfl rfl
    · exact .same _
  | abandon => exact still _ (by rw [System.perform, abandon_transfers])

end RowSteps

/-! ## Memory and table -/

section Coherence
variable {s : Transfers} {io : Access → Bool}

def Transfers.Coherent (s : Transfers) : Prop := s.stored = s.consumers

theorem Transfers.Coherent.putAll (same : s.Coherent) (values : List Consumer) : (s.putAll values).Coherent := by
  change s.stored.setAll values = s.consumers.setAll values
  rw [same]

theorem Transfers.Coherent.saveAll (same : s.Coherent) (values : List Consumer) (index : Nat) :
    (s.saveAll io values index).1.Coherent := by
  obtain ⟨n, saved⟩ := saveAll_prefix io values s index
  rw [saved]
  exact same.putAll _

theorem Transfers.Coherent.save (same : s.Coherent) (v : Consumer) : (s.save io 0 v).1.Coherent := by
  unfold Transfers.save
  split
  · exact same.putAll [v]
  · exact same

theorem Transfers.Coherent.evict (same : s.Coherent) (v : Consumer) : (s.evict v).Coherent := by
  change s.stored.retain _ = s.consumers.retain _
  rw [same]

theorem Transfers.Coherent.attach {identity : Identity} {cache : String} {total : Option Nat} {resumable : Bool}
    (same : s.Coherent) : (s.attach io identity cache total resumable).1.Coherent := by
  unfold Transfers.attach
  split
  · split <;> exact same
  split
  · split
    · exact same
    split
    · exact (same.evict _).save _
    · exact same
  · exact same.save _

theorem Transfers.Coherent.control {c : Command} {d : Disk} (same : s.Coherent) :
    (s.control io d c).1.Coherent := by
  have cases := control_cases s io c d
  generalize s.control io d c = r at cases
  obtain ⟨r, e, reply⟩ := r
  cases cases with
  | refused => exact same
  | replayed => exact same
  | accepted values => exact same.putAll values

theorem Transfers.Coherent.publish {cache : String} {bytes : Nat} {stage : Stage} (same : s.Coherent) :
    (s.publish io cache bytes stage).1.Coherent := by
  have kept : ({ s with latest := s.latest.set ⟨cache, bytes, stage⟩ } : Transfers).Coherent := same
  unfold Transfers.publish
  dsimp only
  split
  · exact kept.saveAll _ 0
  · exact kept

theorem Transfers.Coherent.committed {condition : Consumer → Bool} (same : s.Coherent) :
    (s.committed ((s.those condition).map Consumer.retire)).Coherent := by
  have known : ((s.those condition).map Consumer.retire).filter (fun v => s.stored.has v.identity) =
      (s.those condition).map Consumer.retire := by
    rw [List.filter_eq_self]
    intro w mem
    obtain ⟨v, stored, rfl⟩ := List.mem_map.mp mem
    rw [same]
    exact Rows.has_iff.mpr ⟨v, Rows.get_of_mem (known_those v stored)⟩
  unfold Transfers.Coherent Transfers.committed updateAll
  dsimp only
  rw [known, same]

theorem Transfers.Coherent.opened {limit : Nat} {current : Uuid → Option Uuid} (same : s.Coherent) :
    (s.opened io limit current).1.Coherent := by
  have loaded : (⟨s.stored, s.stored, .empty, limit⟩ : Transfers).Coherent := rfl
  unfold Transfers.opened
  split
  · exact same
  dsimp only
  split
  · exact loaded.committed
  · exact loaded

theorem perform_coherent (s : System) (same : s.transfers.Coherent) (io : Access → Bool) (call : Call) :
    (s.perform io call).1.transfers.Coherent := by
  cases call with
  | attach identity cache total resumable => exact same.attach
  | control c => exact same.control
  | detach task attempt => exact same.saveAll _ 0
  | release task => exact same.saveAll _ 0
  | retire task attempt =>
    simp only [System.perform]
    split
    · exact same.committed
    · exact same
  | reopen limit current => exact same.opened
  | lease name => rwa [System.perform, lease_transfers]
  | append bytes => rwa [System.perform, edit_transfers]
  | truncate => rwa [System.perform, edit_transfers]
  | observe name bytes stage =>
    simp only [System.perform]
    split
    · exact same
    · exact same.publish
  | stop => rwa [System.perform, stop_transfers]
  | finish => rwa [System.perform, finish_transfers]
  | cached name bytes =>
    simp only [System.perform]
    split <;> exact same
  | paused =>
    simp only [System.perform]
    split
    · exact same.publish
    · exact same
  | complete =>
    simp only [System.perform]
    split
    · exact same.publish
    · exact same
  | abandon => rwa [System.perform, abandon_transfers]

end Coherence

/-! ## The invariant of the consumers -/

section Invariant
variable {s t : System} {io : Access → Bool} {call : Call} {v w : Consumer} {earlier : List Act} {a : Act}

/-- What holds of every consumer. -/
structure Consumer.Sound (v : Consumer) : Prop where
  counted : v.revision = v.controls.length
  retired : v.retired = true → v.cancelled = true
  started : v.paused = true → v.controls ≠ []
  room : v.paused = true → v.controls.length ≤ 127
  distinct : (v.controls.map (·.id)).Nodup

structure Together (v w : Consumer) : Prop where
  length : v.controls.length = w.controls.length
  paused : v.paused = w.paused
  resumable : v.controls ≠ [] → w.resumable = true

structure Orderly (s : Transfers) : Prop where
  coherent : s.Coherent
  sound : ∀ v ∈ s.consumers.entries, v.Sound
  together : ∀ v ∈ s.consumers.entries, ∀ w ∈ s.consumers.entries, v.task = w.task → v.attempt = w.attempt →
    v.cancelled = false → w.cancelled = false → Together v w

def System.Left (s : System) : Prop :=
  ∀ name bytes, s.writer = .stopped name bytes ∨ s.writer = .finished name bytes → s.disk.Safe name

/-- A consumer that is attached is new, and no consumer of its attempt has recorded a control that it would lack;
a new pause leaves every consumer room for the control that resumes it. -/
def Act.Fits (earlier : List Act) (a : Act) : Prop :=
  match a.call with
  | .attach identity _ _ _ => a.before.transfers.consumers.get identity = none →
      (∀ v ∈ a.before.transfers.consumers.entries, v.task = identity.task → v.attempt = identity.attempt →
        v.cancelled = false → v.controls = []) ∧
      ∀ b ∈ earlier, b.before.transfers.consumers.get identity = none
  | .control c => c.pause = true → a.before.transfers.recorded c = [] →
      ∀ v ∈ a.before.transfers.selected c.task c.attempt, v.controls.length ≠ 127
  | _ => True

theorem confirm_ids (controls : List Control) : (controls.map Control.confirm).map (·.id) = controls.map (·.id) := by
  rw [List.map_map]
  apply List.map_congr_left
  intro c _
  unfold Control.confirm
  dsimp only [Function.comp]
  split <;> rfl

theorem Consumer.Sound.settle (sound : v.Sound) (bytes : Nat) (complete : Bool) : (v.settle bytes complete).Sound where
  counted := by simpa [Consumer.settle] using sound.counted
  retired := sound.retired
  started paused := by simpa [Consumer.settle] using sound.started paused
  room paused := by simpa [Consumer.settle] using sound.room paused
  distinct := by simpa only [Consumer.settle, confirm_ids] using sound.distinct

theorem control_none {id : String} (new : v.control id = none) : id ∉ v.controls.map (·.id) := by
  intro mem
  obtain ⟨r, placed, same⟩ := List.mem_map.mp mem
  have absent := List.find?_eq_none.mp new r placed
  simp [same] at absent

theorem Consumer.Sound.accept {c : Command} {other : Bool} {durable : Option Nat} (sound : v.Sound)
    (new : v.control c.id = none) (room : c.pause = true → v.controls.length ≤ 126) :
    (v.accept c other durable).Sound where
  counted := by simp [Consumer.accept, sound.counted]
  retired := sound.retired
  started _ := by simp [Consumer.accept]
  room paused := by
    have fits := room paused
    simp only [Consumer.accept, List.length_append, List.length_singleton]
    omega
  distinct := by
    have absent := control_none new
    simp only [Consumer.accept, List.map_append, List.map_cons, List.map_nil]
    rw [List.nodup_append]
    refine ⟨sound.distinct, by simp, fun b mem e single => ?_⟩
    rw [List.mem_singleton.mp single]
    rintro rfl
    exact absent mem

theorem quiet_row (other : ∀ c, call ≠ .control c) {before : Option Consumer} (step : RowStep s t call before (some w))
    (going : w.cancelled = false) :
    (∃ identity cache total resumable, call = .attach identity cache total resumable ∧ before = none ∧
        w = .fresh identity cache total resumable) ∨
      ∃ v, before = some v ∧ v.cancelled = false ∧ w.identity = v.identity ∧
        w.controls.length = v.controls.length ∧ w.paused = v.paused ∧ w.resumable = v.resumable := by
  cases step with
  | same => exact .inr ⟨w, rfl, going, rfl, rfl, rfl, rfl⟩
  | created named => exact .inl ⟨_, _, _, _, named, rfl, rfl⟩
  | changed change =>
    cases change with
    | accepted => exact absurd rfl (other _)
    | settled complete => exact .inr ⟨_, rfl, going, rfl, by simp [Consumer.settle], rfl, rfl⟩
    | cancelled => cases going
    | retired => cases going

theorem Consumer.Sound.retire (sound : v.Sound) : v.retire.Sound :=
  ⟨sound.counted, fun _ => rfl, sound.started, sound.room, sound.distinct⟩

theorem Consumer.Sound.cancel (sound : v.Sound) : v.cancel.Sound :=
  ⟨sound.counted, fun _ => rfl, sound.started, sound.room, sound.distinct⟩

theorem sound_fresh (identity : Identity) (cache : String) (total : Option Nat) (resumable : Bool) :
    (Consumer.fresh identity cache total resumable).Sound :=
  ⟨rfl, (fun no => nomatch no), (fun no => nomatch no), (fun no => nomatch no), List.nodup_nil⟩

theorem quiet_sound (other : ∀ c, call ≠ .control c) {before : Option Consumer}
    (sound : ∀ v, before = some v → v.Sound) (step : RowStep s t call before (some w)) : w.Sound := by
  cases step with
  | same => exact sound w rfl
  | created => exact sound_fresh _ _ _ _
  | @changed v _ change =>
    have old := sound v rfl
    cases change with
    | accepted => exact absurd rfl (other _)
    | settled complete => exact old.settle _ complete
    | cancelled => exact old.cancel
    | retired => exact old.retire

theorem quiet_orderly (o : Orderly s.transfers) (other : ∀ c, call ≠ .control c) (fits : Act.Fits earlier ⟨s, call, io⟩) :
    Orderly (s.perform io call).1.transfers := by
  have rows := perform_row o.coherent io call
  have sound : ∀ v, v ∈ (s.perform io call).1.transfers.consumers.entries → v.Sound := by
    intro w mem
    have row := rows w.identity
    rw [Rows.get_of_mem mem] at row
    exact quiet_sound other (fun v found => o.sound v (Rows.get_mem found)) row
  -- A new consumer joins consumers that have no controls yet.
  have joins : ∀ identity cache total resumable, call = .attach identity cache total resumable →
      s.transfers.consumers.get identity = none → ∀ v ∈ s.transfers.consumers.entries, v.task = identity.task →
      v.attempt = identity.attempt → v.cancelled = false → v.controls = [] ∧ v.paused = false := by
    intro identity cache total resumable named absent v mem task attempt going
    subst named
    have none := (fits absent).1 v mem task attempt going
    refine ⟨none, ?_⟩
    by_contra paused
    exact (o.sound v mem).started (by simpa using paused) none
  refine ⟨perform_coherent s o.coherent io call, sound, fun v mem w mem' task attempt going going' => ?_⟩
  have row := rows v.identity
  have row' := rows w.identity
  rw [Rows.get_of_mem mem] at row
  rw [Rows.get_of_mem mem'] at row'
  rcases quiet_row other row going with ⟨i, cache, total, resumable, named, absent, rfl⟩ |
      ⟨u, before, old, same, length, paused, able⟩ <;>
    rcases quiet_row other row' going' with ⟨i', cache', total', resumable', named', absent', rfl⟩ |
      ⟨u', before', old', same', length', paused', able'⟩
  · exact ⟨rfl, rfl, fun some => absurd rfl some⟩
  · have task' := congrArg Identity.task same'
    have attempt' := congrArg Identity.attempt same'
    obtain ⟨none, still⟩ := joins i cache total resumable named absent u' (Rows.get_mem before') (task'.symm.trans task.symm)
      (attempt'.symm.trans attempt.symm) old'
    exact ⟨by rw [length', none]; rfl, by rw [paused', still]; rfl, fun some => absurd rfl some⟩
  · have task' := congrArg Identity.task same
    have attempt' := congrArg Identity.attempt same
    obtain ⟨none, still⟩ := joins i' cache' total' resumable' named' absent' u (Rows.get_mem before) (task'.symm.trans task)
      (attempt'.symm.trans attempt) old
    refine ⟨by rw [length, none]; rfl, by rw [paused, still]; rfl, fun some => ?_⟩
    rw [List.ne_nil_iff_length_pos, length, none] at some
    cases some
  · have both := o.together u (Rows.get_mem before) u' (Rows.get_mem before')
      ((congrArg Identity.task same).symm.trans (task.trans (congrArg Identity.task same')))
      ((congrArg Identity.attempt same).symm.trans (attempt.trans (congrArg Identity.attempt same'))) old old'
    refine ⟨by rw [length, length', both.length], by rw [paused, paused', both.paused], fun some => ?_⟩
    rw [able']
    apply both.resumable
    rw [List.ne_nil_iff_length_pos] at some ⊢
    omega

theorem control_orderly {c : Command} (o : Orderly s.transfers) (fits : Act.Fits earlier ⟨s, .control c, io⟩) :
    Orderly (s.perform io (.control c)).1.transfers := by
  have cases := control_cases s.transfers io c s.disk
  have after : (s.perform io (.control c)).1.transfers = (s.transfers.control io s.disk c).1 := rfl
  rw [after]
  generalize s.transfers.control io s.disk c = r at cases
  obtain ⟨r, d, reply⟩ := r
  cases cases with
  | refused => exact o
  | replayed => exact o
  | accepted values confirmed new some all able flushed related recorded =>
    have unseen : s.transfers.recorded c = [] := by
      rw [Transfers.recorded, List.filter_eq_nil_iff]
      intro v mem
      rw [new v mem]
      simp
    have room : c.pause = true → ∀ v ∈ s.transfers.selected c.task c.attempt, v.controls.length ≠ 127 := fun pause =>
      fits pause unseen
    have rows := selected_related related
    -- A row of the attempt accepted the control; every other row is untouched.
    have each : ∀ w ∈ (s.transfers.putAll values).consumers.entries,
        (∃ v ∈ s.transfers.selected c.task c.attempt, Accepted s.transfers c d v w) ∨
          (w ∈ s.transfers.consumers.entries ∧ ¬(w.task = c.task ∧ w.attempt = c.attempt)) := by
      intro w mem
      have now := Rows.get_of_mem mem
      rcases rows w.identity with ⟨v, listed, w', -, before, found, accepted⟩ | ⟨unlisted, same⟩
      · rw [found] at now
        cases now
        exact .inl ⟨v, listed, accepted⟩
      · rw [same] at now
        refine .inr ⟨Rows.get_mem now, fun mine => unlisted ?_⟩
        exact List.mem_map_of_mem (mem_selected.mpr ⟨Rows.get_mem now, mine⟩)
    have joined : ∀ v w, v ∈ s.transfers.selected c.task c.attempt → Accepted s.transfers c d v w →
        w.task = c.task ∧ w.attempt = c.attempt := by
      rintro v w listed ⟨-, -, durable, rfl, -⟩
      exact (mem_selected.mp listed).2
    refine ⟨o.coherent.putAll values, fun w mem => ?_, fun v mem w mem' task attempt going going' => ?_⟩
    · rcases each w mem with ⟨v, listed, -, short, durable, rfl, -⟩ | ⟨old, -⟩
      · refine (o.sound v (mem_selected.mp listed).1).accept (new v listed) fun pause => ?_
        have free := room pause v listed
        omega
      · exact o.sound w old
    · rcases each v mem with ⟨u, listed, accepted⟩ | ⟨old, apart⟩ <;>
        rcases each w mem' with ⟨u', listed', accepted'⟩ | ⟨old', apart'⟩
      · obtain ⟨-, -, durable, rfl, -⟩ := accepted
        obtain ⟨-, -, durable', rfl, -⟩ := accepted'
        obtain ⟨stored, mine⟩ := mem_selected.mp listed
        obtain ⟨stored', mine'⟩ := mem_selected.mp listed'
        have both := o.together u stored u' stored' (mine.1.trans mine'.1.symm) (mine.2.trans mine'.2.symm)
          (able u listed).2 (able u' listed').2
        exact ⟨by simp [Consumer.accept, both.length], rfl, fun _ => (able u' listed').1⟩
      · obtain ⟨task', attempt'⟩ := joined u v listed accepted
        exact absurd ⟨task ▸ task', attempt ▸ attempt'⟩ apart'
      · obtain ⟨task', attempt'⟩ := joined u' w listed' accepted'
        exact absurd ⟨task.trans task', attempt.trans attempt'⟩ apart
      · exact o.together v old w old' task attempt going going'

theorem perform_orderly (o : Orderly s.transfers) (fits : Act.Fits earlier ⟨s, call, io⟩) :
    Orderly (s.perform io call).1.transfers := by
  by_cases control : ∃ c, call = .control c
  · obtain ⟨c, rfl⟩ := control
    exact control_orderly o fits
  · exact quiet_orderly o (fun c same => control ⟨c, same⟩) fits

end Invariant

/-! ## The files of the writer -/

section Files
variable {s : System} {io : Access → Bool} {call : Call}

theorem control_flushed (s : Transfers) (io : Access → Bool) (c : Command) (d : Disk) :
    d.Flushed (s.control io d c).2.1 := by
  have cases := control_cases s io c d
  generalize s.control io d c = r at cases
  obtain ⟨r, e, reply⟩ := r
  cases cases with
  | refused _ flushed => exact flushed
  | replayed _ _ same => exact same ▸ .refl d
  | accepted _ _ _ _ _ _ flushed => exact flushed

theorem held_name {file : Partial} (held : s.held = some file) : s.writer = .holding file.name := by
  unfold System.held at held
  split at held
  · rename_i name at'
    rw [at', Rows.get_key held]
  · cases held

theorem left_going {t : System} (going : t.writer = .idle ∨ ∃ name, t.writer = .holding name) : t.Left := by
  intro name bytes left
  rcases going with idle | ⟨held, holding⟩
  · rw [idle] at left
    rcases left with left | left <;> cases left
  · rw [holding] at left
    rcases left with left | left <;> cases left

theorem lease_left (left : s.Left) (name : String) : (s.lease name).1.Left := by
  unfold System.lease
  split
  · exact left
  split
  · exact left_going (.inr ⟨name, rfl⟩)
  split
  · exact left
  · exact left_going (.inr ⟨name, rfl⟩)

theorem edit_left (left : s.Left) (change : Partial → Partial) : (s.edit change).1.Left := by
  unfold System.edit
  split
  · rename_i file held
    have holding := held_name held
    exact left_going (.inr ⟨file.name, holding⟩)
  · exact left

theorem stop_left (left : s.Left) : (s.stop io).1.Left := by
  unfold System.stop
  split
  · rename_i file held
    split
    · intro name bytes stopped
      rcases stopped with stopped | finished
      · cases stopped
        right
        intro other found
        have placed : (s.disk.partials.set { file with synced := file.bytes, leased := false }).get file.name =
            some { file with synced := file.bytes, leased := false } := Rows.get_set_self
        change (s.disk.partials.set { file with synced := file.bytes, leased := false }).get file.name = some other at found
        rw [placed] at found
        cases found
        rfl
      · cases finished
    · exact left
  · exact left

theorem finish_left (left : s.Left) : (s.finish io).1.Left := by
  unfold System.finish
  split
  · rename_i file held
    split
    · intro name bytes finished
      rcases finished with stopped | finished
      · cases stopped
      · cases finished
        exact .inl List.mem_cons_self
    · exact left
  · exact left

theorem abandon_left (s : System) : s.abandon.Left := by
  unfold System.abandon
  split <;> exact left_going (.inl rfl)

theorem perform_left (left : s.Left) : (s.perform io call).1.Left := by
  cases call with
  | attach => exact left
  | control c => exact fun name bytes stopped => (control_flushed s.transfers io c s.disk).safe (left name bytes stopped)
  | detach => exact left
  | release => exact left
  | retire =>
    simp only [System.perform]
    split <;> exact left
  | reopen => exact left_going (.inl rfl)
  | lease name => exact lease_left left name
  | append => exact edit_left left _
  | truncate => exact edit_left left _
  | observe =>
    simp only [System.perform]
    split <;> exact left
  | stop => exact stop_left left
  | finish => exact finish_left left
  | cached name bytes =>
    simp only [System.perform]
    split
    · rename_i found
      intro other size finished
      rcases finished with stopped | finished
      · cases stopped
      · cases finished
        exact .inl found.2
    · exact left
  | paused =>
    simp only [System.perform]
    split
    · exact left_going (.inl rfl)
    · exact left
  | complete =>
    simp only [System.perform]
    split
    · exact left_going (.inl rfl)
    · exact left
  | abandon => exact abandon_left s

end Files

/-! ## Runs -/

section Histories
variable {s t : System} {acts : List Act} {earlier later : List Act} {a : Act}

def Fitting (acts : List Act) : Prop := ∀ earlier a later, acts = earlier ++ a :: later → a.Fits earlier

theorem Fitting.front {acts : List Act} {a : Act} (fits : Fitting (acts ++ [a])) : Fitting acts := by
  intro earlier b later same
  apply fits earlier b (later ++ [a])
  rw [same, List.append_assoc, List.cons_append]

theorem Fitting.last {acts : List Act} {a : Act} (fits : Fitting (acts ++ [a])) : a.Fits acts :=
  fits acts a [] rfl

theorem step_perform (step : Step s a t) : t = (s.perform a.io a.call).1 := by
  obtain ⟨rfl, rfl⟩ := step
  rfl

theorem step_fits (step : Step s a t) (fits : a.Fits earlier) : Act.Fits earlier ⟨s, a.call, a.io⟩ := by
  obtain ⟨rfl, -⟩ := step
  exact fits

structure Good (s : System) : Prop where
  orderly : Orderly s.transfers
  left : s.Left

theorem Good.start (limit : Nat) : Good (.start limit) :=
  ⟨⟨rfl, fun _ mem => (nomatch mem), fun _ mem => (nomatch mem)⟩, left_going (.inl rfl)⟩

theorem Good.step (good : Good s) (step : Step s a t) (fits : a.Fits earlier) : Good t := by
  rw [step_perform step]
  exact ⟨perform_orderly good.orderly (step_fits step fits), perform_left good.left⟩

theorem Good.run (good : Good s) (run : Runs Step s acts t) (fits : Fitting acts) : Good t := by
  refine run.history (fun done t => Fitting done → Good t) (fun _ => good) ?_ fits
  intro done t a u before step fits
  exact (before fits.front).step step fits.last

end Histories

end RssMdmAgent.ContentTransfers
