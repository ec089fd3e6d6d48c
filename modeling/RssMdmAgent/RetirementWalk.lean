import RssMdmAgent.AccessSteps

set_option autoImplicit false

/-! # Retirement walks over all stored records and raises the fence -/

namespace RssMdmAgent.RetirementWalk
open OrderedRows AccessRecords AccessStore AccessSteps
open ContractPlan (bind_ok)

/-! ## Rows of the fence in an order -/

def Follows (a b : Revocation) : Prop :=
  a.generation < b.generation ∨ (a.generation = b.generation ∧ a.revision ≤ b.revision)

theorem Follows.refl (a : Revocation) : Follows a a := .inr ⟨rfl, Int.le_refl _⟩

theorem Follows.trans {a b c : Revocation} (first : Follows a b) (second : Follows b c) : Follows a c := by
  unfold Follows at *
  omega

theorem Follows.generation {a b : Revocation} (h : Follows a b) : a.generation ≤ b.generation := by
  unfold Follows at h
  omega

structure Rises (rows : Rows Revocation.binding) (list : List Revocation) : Prop where
  stored : ∀ row ∈ list, ∀ previous, rows.get row.binding = some previous → Follows previous row
  ordered : list.Pairwise fun a b => a.binding = b.binding → Follows a b

section Fence
variable {rows : Rows Revocation.binding} {row : Revocation} {list : List Revocation} {binding : Uuid}

theorem rises_nil : Rises rows [] := ⟨fun _ mem => absurd mem List.not_mem_nil, .nil⟩

theorem rises_cons : Rises rows (row :: list) ↔
    (∀ previous, rows.get row.binding = some previous → Follows previous row) ∧ Rises (rows.set row) list := by
  constructor
  · rintro ⟨stored, ordered⟩
    obtain ⟨first, rest⟩ := List.pairwise_cons.mp ordered
    refine ⟨stored row List.mem_cons_self, fun other mem previous found => ?_, rest⟩
    rw [Rows.get_set] at found
    split at found
    · rename_i same
      cases found
      exact first other mem same.symm
    · exact stored other (List.mem_cons_of_mem _ mem) previous found
  · rintro ⟨here, stored, ordered⟩
    have first : ∀ other ∈ list, row.binding = other.binding → Follows row other := by
      intro other mem same
      exact stored other mem row (same ▸ Rows.get_set_self)
    refine ⟨fun other mem previous found => ?_, List.pairwise_cons.mpr ⟨first, ordered⟩⟩
    rcases List.mem_cons.mp mem with rfl | mem
    · exact here previous found
    · by_cases same : other.binding = row.binding
      · exact (here previous (same ▸ found)).trans (first other mem same.symm)
      · exact stored other mem previous ((Rows.get_set_ne same).trans found)

theorem rises_append {first second : List Revocation} :
    Rises rows (first ++ second) ↔ Rises rows first ∧ Rises (rows.setAll first) second := by
  induction first generalizing rows with
  | nil => exact ⟨fun h => ⟨rises_nil, h⟩, fun h => h.2⟩
  | cons row rest ih =>
    rw [List.cons_append, rises_cons, rises_cons, ih]
    exact and_assoc.symm

theorem setAll_from (found : (rows.setAll list).get binding = some row) :
    row ∈ list ∨ rows.get binding = some row := by
  induction list generalizing rows with
  | nil => exact .inr found
  | cons first rest ih =>
    have tail : row ∈ rest ∨ (rows.set first).get binding = some row := ih found
    rcases tail with mem | before
    · exact .inl (List.mem_cons_of_mem _ mem)
    · rw [Rows.get_set] at before
      split at before
      · cases before
        exact .inl List.mem_cons_self
      · exact .inr before

theorem Rises.keeps (rises : Rises rows list) (found : rows.get binding = some row) :
    ∃ later, (rows.setAll list).get binding = some later ∧ Follows row later := by
  induction list generalizing rows row with
  | nil => exact ⟨row, found, .refl _⟩
  | cons first rest ih =>
    obtain ⟨here, rises⟩ := rises_cons.mp rises
    by_cases same : binding = first.binding
    · subst same
      obtain ⟨later, stored, follows⟩ := ih rises Rows.get_set_self
      exact ⟨later, stored, (here row found).trans follows⟩
    · exact ih rises ((Rows.get_set_ne same).trans found)

theorem Rises.covers (rises : Rises rows list) (mem : row ∈ list) :
    ∃ later, (rows.setAll list).get row.binding = some later ∧ Follows row later := by
  induction list generalizing rows with
  | nil => cases mem
  | cons first rest ih =>
    obtain ⟨-, rises⟩ := rises_cons.mp rises
    rcases List.mem_cons.mp mem with rfl | mem
    · exact rises.keeps Rows.get_set_self
    · exact ih rises mem

end Fence

/-! ## The walk over the Hello records -/

def rowOf (authority : Authority) (revision : Int) : Revocation :=
  ⟨authority.binding, authority.bindingGeneration, revision⟩

def helloRow (value : HelloRecord) : Revocation := rowOf value.authority value.revision

def recordRow (record : Record) : Revocation := rowOf record.authority record.revision

section Walk
variable [Wire] {s t : Store} {sid : String}

omit [Wire] in
theorem recordRevocation_follows {authority : Authority} {revision : Int} :
    recordRevocation s authority revision = .ok t ↔
      (∀ previous, s.revoked.get authority.binding = some previous → Follows previous (rowOf authority revision)) ∧
        t = { s with revoked := s.revoked.set (rowOf authority revision) } := by
  rw [recordRevocation_ok]
  refine and_congr_left fun _ => forall_congr' fun previous => imp_congr_right fun _ => ?_
  unfold Follows rowOf
  dsimp only
  omega

theorem retireHelloRow_ok : retireHelloRow s sid = .ok t ↔
    ∃ value, loadHello s sid = .ok (some value) ∧
      (∀ previous, s.revoked.get (helloRow value).binding = some previous → Follows previous (helloRow value)) ∧
      (retiredHello value).size ≤ 16384 ∧ t = { s with
        revoked := s.revoked.set (helloRow value)
        helloBindings := s.helloBindings.set (retiredHello value) } := by
  unfold retireHelloRow
  rw [bind_present]
  refine exists_congr fun value => and_congr_right fun _ => ?_
  rw [bind_ok]
  constructor
  · rintro ⟨s', fenced, saved⟩
    obtain ⟨follows, rfl⟩ := recordRevocation_follows.mp fenced
    obtain ⟨size, rfl⟩ := saveHello_ok.mp saved
    exact ⟨follows, size, rfl⟩
  · rintro ⟨follows, size, rfl⟩
    exact ⟨_, recordRevocation_follows.mpr ⟨follows, rfl⟩, saveHello_ok.mpr ⟨size, rfl⟩⟩

theorem loadHello_kept {value : HelloRecord} (same : t.helloBindings.get sid = s.helloBindings.get sid) :
    loadHello t sid = .ok (some value) ↔ loadHello s sid = .ok (some value) := by
  rw [loadHello_some, loadHello_some, same]

theorem load_kept {record : Record} (same : t.bindings.get sid = s.bindings.get sid) :
    load t sid = .ok (some record) ↔ load s sid = .ok (some record) := by
  rw [load_some, load_some, same]

/-- The walk over the Hello records of some accounts. -/
theorem retireHello_walk : ∀ (sids : List String) {s t : Store}, sids.Nodup →
    (sids.foldlM retireHelloRow s = .ok t ↔ ∃ values : List HelloRecord, values.map HelloRecord.sid = sids ∧
      (∀ value ∈ values, loadHello s value.sid = .ok (some value) ∧ (retiredHello value).size ≤ 16384) ∧
      Rises s.revoked (values.map helloRow) ∧ t = { s with
        revoked := s.revoked.setAll (values.map helloRow)
        helloBindings := s.helloBindings.setAll (values.map retiredHello) })
  | [], s, t, _ => by
    constructor
    · intro h
      cases h
      exact ⟨[], rfl, fun _ mem => absurd mem List.not_mem_nil, rises_nil, rfl⟩
    · rintro ⟨values, names, -, -, rfl⟩
      rw [List.map_eq_nil_iff.mp names]
      rfl
  | sid :: rest, s, t, distinct => by
    obtain ⟨absent, distinct⟩ := List.nodup_cons.mp distinct
    -- the accounts that are left keep their records
    have kept : ∀ {first : HelloRecord} {m : Store}, first.sid = sid → m = { s with
          revoked := s.revoked.set (helloRow first)
          helloBindings := s.helloBindings.set (retiredHello first) } →
        ∀ value : HelloRecord, value.sid ∈ rest →
          (loadHello m value.sid = .ok (some value) ↔ loadHello s value.sid = .ok (some value)) := by
      rintro first m rfl rfl value mem
      exact loadHello_kept (Rows.get_set_ne fun same => absent (same ▸ mem))
    rw [List.foldlM_cons, bind_ok]
    constructor
    · rintro ⟨m, here, later⟩
      obtain ⟨first, loaded, follows, size, equal⟩ := retireHelloRow_ok.mp here
      obtain ⟨values, names, all, rises, rfl⟩ := (retireHello_walk rest distinct).mp later
      have named : first.sid = sid := Rows.get_key (loadHello_some.mp loaded).1
      have same := kept named equal
      subst equal
      refine ⟨first :: values, by rw [List.map_cons, named, names], fun value mem => ?_, rises_cons.mpr ⟨follows, rises⟩,
        rfl⟩
      rcases List.mem_cons.mp mem with rfl | mem
      · exact ⟨named ▸ loaded, size⟩
      · exact ⟨(same value (names ▸ List.mem_map_of_mem mem)).mp (all value mem).1, (all value mem).2⟩
    · rintro ⟨values, names, all, rises, rfl⟩
      cases values with
      | nil => cases names
      | cons first values =>
        obtain ⟨named, names⟩ := List.cons.inj names
        obtain ⟨follows, rises⟩ := rises_cons.mp rises
        obtain ⟨loaded, size⟩ := all first List.mem_cons_self
        refine ⟨_, retireHelloRow_ok.mpr ⟨first, named ▸ loaded, follows, size, rfl⟩,
          (retireHello_walk rest distinct).mpr ⟨values, names, fun value mem => ?_, rises, rfl⟩⟩
        obtain ⟨loaded', size'⟩ := all value (List.mem_cons_of_mem _ mem)
        exact ⟨(kept named rfl value (names ▸ List.mem_map_of_mem mem)).mpr loaded', size'⟩

/-! ## The walk over the records of the accounts -/

def affected (cloudOnly : Bool) (record : Record) : Bool := !cloudOnly || record.authority.source.isEntra

def retiredRecord (record : Record) : Record := closed record record.revision

theorem retireRow_ok {cloudOnly : Bool} : retireRow cloudOnly s sid = .ok t ↔
    ∃ record, load s sid = .ok (some record) ∧ ((affected cloudOnly record = false ∧ t = s) ∨
      (affected cloudOnly record = true ∧
        (∀ previous, s.revoked.get (recordRow record).binding = some previous → Follows previous (recordRow record)) ∧
        t = { s with
          revoked := s.revoked.set (recordRow record)
          bindings := s.bindings.set (retiredRecord record) })) := by
  unfold retireRow
  rw [bind_present]
  refine exists_congr fun record => and_congr_right fun _ => ?_
  have spared : (cloudOnly && !record.authority.source.isEntra) = !affected cloudOnly record := by
    unfold affected
    rw [Bool.not_or, Bool.not_not]
  rw [spared]
  cases affected cloudOnly record with
  | false =>
    constructor
    · intro h
      cases h
      exact .inl ⟨rfl, rfl⟩
    · rintro (⟨-, rfl⟩ | ⟨other, -⟩)
      · rfl
      · cases other
  | true =>
    constructor
    · intro h
      obtain ⟨s', fenced, h⟩ := bind_ok.mp h
      cases h
      obtain ⟨follows, rfl⟩ := recordRevocation_follows.mp fenced
      exact .inr ⟨rfl, follows, rfl⟩
    · rintro (⟨other, -⟩ | ⟨-, follows, rfl⟩)
      · cases other
      · exact bind_ok.mpr ⟨_, recordRevocation_follows.mpr ⟨follows, rfl⟩, rfl⟩

theorem retire_walk {cloudOnly : Bool} : ∀ (sids : List String) {s t : Store}, sids.Nodup →
    (sids.foldlM (retireRow cloudOnly) s = .ok t ↔ ∃ records : List Record, records.map Record.sid = sids ∧
      (∀ record ∈ records, load s record.sid = .ok (some record)) ∧
      Rises s.revoked ((records.filter (affected cloudOnly)).map recordRow) ∧ t = { s with
        revoked := s.revoked.setAll ((records.filter (affected cloudOnly)).map recordRow)
        bindings := s.bindings.setAll ((records.filter (affected cloudOnly)).map retiredRecord) })
  | [], s, t, _ => by
    constructor
    · intro h
      cases h
      exact ⟨[], rfl, fun _ mem => absurd mem List.not_mem_nil, rises_nil, rfl⟩
    · rintro ⟨records, names, -, -, rfl⟩
      rw [List.map_eq_nil_iff.mp names]
      rfl
  | sid :: rest, s, t, distinct => by
    obtain ⟨absent, distinct⟩ := List.nodup_cons.mp distinct
    have kept : ∀ {first : Record} {m : Store}, first.sid = sid → m = { s with
          revoked := s.revoked.set (recordRow first)
          bindings := s.bindings.set (retiredRecord first) } →
        ∀ record : Record, record.sid ∈ rest →
          (load m record.sid = .ok (some record) ↔ load s record.sid = .ok (some record)) := by
      rintro first m rfl rfl record mem
      exact load_kept (Rows.get_set_ne fun same => absent (same ▸ mem))
    rw [List.foldlM_cons, bind_ok]
    constructor
    · rintro ⟨m, here, later⟩
      obtain ⟨first, loaded, cases'⟩ := retireRow_ok.mp here
      obtain ⟨records, names, all, rises, rfl⟩ := (retire_walk rest distinct).mp later
      have named : first.sid = sid := load_sid loaded
      refine ⟨first :: records, by rw [List.map_cons, named, names], ?_⟩
      rw [List.forall_mem_cons]
      rcases cases' with ⟨spared, rfl⟩ | ⟨hit, follows, equal⟩
      · rw [List.filter_cons_of_neg (by simp [spared])]
        exact ⟨⟨named ▸ loaded, all⟩, rises, rfl⟩
      · have same := kept named equal
        subst equal
        rw [List.filter_cons_of_pos hit]
        refine ⟨⟨named ▸ loaded, fun record mem => ?_⟩, rises_cons.mpr ⟨follows, rises⟩, rfl⟩
        exact (same record (names ▸ List.mem_map_of_mem mem)).mp (all record mem)
    · rintro ⟨records, names, all, rises, rfl⟩
      cases records with
      | nil => cases names
      | cons first records =>
        obtain ⟨named, names⟩ := List.cons.inj names
        obtain ⟨loaded, all⟩ := List.forall_mem_cons.mp all
        cases hit : affected cloudOnly first with
        | false =>
          rw [List.filter_cons_of_neg (by simp [hit])] at rises ⊢
          exact ⟨s, retireRow_ok.mpr ⟨first, named ▸ loaded, .inl ⟨hit, rfl⟩⟩,
            (retire_walk rest distinct).mpr ⟨records, names, all, rises, rfl⟩⟩
        | true =>
          rw [List.filter_cons_of_pos hit] at rises ⊢
          obtain ⟨follows, rises⟩ := rises_cons.mp rises
          refine ⟨_, retireRow_ok.mpr ⟨first, named ▸ loaded, .inr ⟨hit, follows, rfl⟩⟩,
            (retire_walk rest distinct).mpr ⟨records, names, fun record mem => ?_, rises, rfl⟩⟩
          exact (kept named rfl record (names ▸ List.mem_map_of_mem mem)).mpr (all record mem)

/-! ## Retirement of everything -/

variable [TableScan]

structure Found (s : Store) (hellos : List HelloRecord) (records : List Record) : Prop where
  helloSids : hellos.map HelloRecord.sid = helloSids s
  sids : records.map Record.sid = sids s
  hello : ∀ value ∈ hellos, loadHello s value.sid = .ok (some value) ∧ (retiredHello value).size ≤ 16384
  record : ∀ record ∈ records, load s record.sid = .ok (some record)

def raisedRows (cloudOnly : Bool) (hellos : List HelloRecord) (records : List Record) : List Revocation :=
  hellos.map helloRow ++ (records.filter (affected cloudOnly)).map recordRow

def retiredStore (s : Store) (cloudOnly : Bool) (hellos : List HelloRecord) (records : List Record) : Store :=
  { s with
    revoked := s.revoked.setAll (raisedRows cloudOnly hellos records)
    helloBindings := s.helloBindings.setAll (hellos.map retiredHello)
    bindings := s.bindings.setAll ((records.filter (affected cloudOnly)).map retiredRecord) }

theorem retireRecords_ok {cloudOnly : Bool} : retireRecords s cloudOnly = .ok t ↔
    ∃ hellos records, Found s hellos records ∧ Rises s.revoked (raisedRows cloudOnly hellos records) ∧
      t = retiredStore s cloudOnly hellos records := by
  have helloNodup : (helloSids s).Nodup := (TableScan.perm _).nodup_iff.mpr s.helloBindings.distinct
  have nodup : (sids s).Nodup := (TableScan.perm _).nodup_iff.mpr s.bindings.distinct
  unfold retireRecords retireAll
  rw [bind_ok]
  constructor
  · rintro ⟨m, hello, rss⟩
    obtain ⟨hellos, helloNames, helloAll, helloRises, rfl⟩ := (retireHello_walk _ helloNodup).mp hello
    obtain ⟨records, names, all, rises, rfl⟩ := (retire_walk _ nodup).mp rss
    refine ⟨hellos, records, ⟨helloNames, names, helloAll, fun record mem => (load_kept rfl).mp (all record mem)⟩,
      rises_append.mpr ⟨helloRises, rises⟩, ?_⟩
    unfold retiredStore raisedRows Rows.setAll
    rw [List.foldl_append]
  · rintro ⟨hellos, records, found, rises, rfl⟩
    obtain ⟨helloRises, rises⟩ := rises_append.mp rises
    refine ⟨_, (retireHello_walk _ helloNodup).mpr ⟨hellos, found.helloSids, found.hello, helloRises, rfl⟩,
      (retire_walk _ nodup).mpr ⟨records, found.sids, fun record mem => (load_kept rfl).mpr (found.record record mem),
        rises, ?_⟩⟩
    unfold retiredStore raisedRows Rows.setAll
    rw [List.foldl_append]

section Found
variable {hellos : List HelloRecord} {records : List Record} {cloudOnly : Bool}

theorem Found.mem_record {record : Record} (found : Found s hellos records)
    (stored : s.bindings.get sid = some record) : record ∈ records := by
  have listed : sid ∈ records.map Record.sid := by
    rw [found.sids]
    refine (TableScan.perm _).mem_iff.mpr ?_
    exact Rows.get_key stored ▸ List.mem_map_of_mem (Rows.get_mem stored)
  obtain ⟨other, mem, rfl⟩ := List.mem_map.mp listed
  cases stored.symm.trans (load_some.mp (found.record other mem)).1
  exact mem

theorem Found.mem_hello {value : HelloRecord} (found : Found s hellos records)
    (stored : s.helloBindings.get sid = some value) : value ∈ hellos := by
  have listed : sid ∈ hellos.map HelloRecord.sid := by
    rw [found.helloSids]
    refine (TableScan.perm _).mem_iff.mpr ?_
    exact Rows.get_key stored ▸ List.mem_map_of_mem (Rows.get_mem stored)
  obtain ⟨other, mem, rfl⟩ := List.mem_map.mp listed
  cases stored.symm.trans (loadHello_some.mp (found.hello other mem).1).1
  exact mem

/-- A retirement closes exactly the records that it affects. -/
theorem retired_record (found : Found s hellos records) :
    (retiredStore s cloudOnly hellos records).bindings.get sid =
      (s.bindings.get sid).map fun record => if affected cloudOnly record then retiredRecord record else record := by
  have keys : ((records.filter (affected cloudOnly)).map retiredRecord).map Record.sid =
      (records.filter (affected cloudOnly)).map Record.sid := by
    rw [List.map_map]
    rfl
  have nodup : (records.map Record.sid).Nodup := by
    rw [found.sids]
    exact (TableScan.perm _).nodup_iff.mpr s.bindings.distinct
  have distinct : (((records.filter (affected cloudOnly)).map retiredRecord).map Record.sid).Nodup := by
    rw [keys]
    exact nodup.sublist (List.filter_sublist.map _)
  unfold retiredStore
  dsimp only
  cases stored : s.bindings.get sid with
  | none =>
    rw [Rows.get_setAll_absent distinct, stored]
    · rfl
    · rw [keys]
      intro listed
      obtain ⟨record, mem, rfl⟩ := List.mem_map.mp listed
      have there := (load_some.mp (found.record record (List.mem_of_mem_filter mem))).1
      rw [stored] at there
      cases there
  | some record =>
    have mem := found.mem_record stored
    have named : record.sid = sid := Rows.get_key stored
    rw [Option.map_some]
    split
    · rename_i hit
      have placed : retiredRecord record ∈ (records.filter (affected cloudOnly)).map retiredRecord :=
        List.mem_map_of_mem (List.mem_filter.mpr ⟨mem, hit⟩)
      rw [← named]
      exact Rows.get_setAll_mem distinct placed
    · rename_i spared
      rw [Rows.get_setAll_absent distinct, stored]
      rw [keys]
      intro listed
      obtain ⟨other, mem', same⟩ := List.mem_map.mp listed
      obtain ⟨mem', hit⟩ := List.mem_filter.mp mem'
      have there := (load_some.mp (found.record other mem')).1
      rw [same, stored] at there
      cases there
      exact spared hit

theorem retired_hello (found : Found s hellos records) :
    (retiredStore s cloudOnly hellos records).helloBindings.get sid =
      (s.helloBindings.get sid).map retiredHello := by
  have keys : (hellos.map retiredHello).map HelloRecord.sid = hellos.map HelloRecord.sid := by
    rw [List.map_map]
    rfl
  have distinct : ((hellos.map retiredHello).map HelloRecord.sid).Nodup := by
    rw [keys, found.helloSids]
    exact (TableScan.perm _).nodup_iff.mpr s.helloBindings.distinct
  unfold retiredStore
  dsimp only
  cases stored : s.helloBindings.get sid with
  | none =>
    rw [Rows.get_setAll_absent distinct, stored]
    · rfl
    · rw [keys]
      intro listed
      obtain ⟨value, mem, rfl⟩ := List.mem_map.mp listed
      have there := (loadHello_some.mp (found.hello value mem).1).1
      rw [stored] at there
      cases there
  | some value =>
    have placed : retiredHello value ∈ hellos.map retiredHello := List.mem_map_of_mem (found.mem_hello stored)
    rw [← Rows.get_key stored]
    exact Rows.get_setAll_mem distinct placed

end Found

end Walk

end RssMdmAgent.RetirementWalk
