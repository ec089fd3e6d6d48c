import RssMdmAgent.SnapshotPaging

set_option autoImplicit false

/-! # The memory that the views retain -/

namespace RssMdmAgent.PagedReads
open OrderedRows
open Relation (ReflTransGen)

variable {Value Record Page : Type} {s t u : ReadViews Value}

structure Shrinks (s t : ReadViews Value) : Prop where
  views : t.views.entries.length ≤ s.views.entries.length
  bytes : total t.views.entries ≤ total s.views.entries

theorem Shrinks.refl (s : ReadViews Value) : Shrinks s s := ⟨Nat.le_refl _, Int.le_refl _⟩

theorem Shrinks.trans (first : Shrinks s t) (second : Shrinks t u) : Shrinks s u :=
  ⟨second.views.trans first.views, second.bytes.trans first.bytes⟩

theorem total_nonneg (list : List (View Value)) : 0 ≤ total list := by
  induction list with
  | nil => exact Int.le_refl 0
  | cons view rest ih =>
    rw [total_cons]
    omega

theorem total_filter_le (condition : View Value → Bool) (list : List (View Value)) :
    total (list.filter condition) ≤ total list := by
  have split := total_filter condition list
  have rest := total_nonneg (list.filter fun view => !condition view)
  omega

theorem length_place {view old : View Value} {list : List (View Value)} (mem : old ∈ list) (same : old.id = view.id) :
    (place View.id view list).length = list.length := by
  induction list with
  | nil => cases mem
  | cons first rest ih =>
    unfold place
    split
    · simp
    · rename_i differ
      rcases List.mem_cons.mp mem with rfl | later
      · exact absurd same differ
      · simp [ih later]

theorem dropExpired_shrinks (s : ReadViews Value) (now : Int) : Shrinks s (s.dropExpired now) :=
  ⟨List.length_filter_le _ _, total_filter_le _ _⟩

theorem next_shrinks (s : ReadViews Value) (uuid id : String) (offset index : Nat) :
    Shrinks s (s.next uuid id offset index).1 := by
  unfold ReadViews.next
  split
  · exact .refl s
  · exact ⟨Nat.le_refl _, Int.le_refl _⟩

theorem finish_shrinks (s : ReadViews Value) (id : String) (b : Bool) : Shrinks s (s.finish id b) := by
  rcases finish_cases s id b with same | ⟨view, mem, -, kept | ⟨gone, -⟩⟩
  · rw [same]
    exact .refl s
  · -- The view is there, so no row is added.
    rw [kept]
    have size : total (place View.id { view with continued := true } s.views.entries) = total s.views.entries :=
      total_place s.views.distinct mem rfl rfl
    have length : (place View.id { view with continued := true } s.views.entries).length = s.views.entries.length :=
      length_place mem rfl
    exact ⟨length.le, size.le⟩
  · rw [gone]
    exact ⟨List.length_filter_le _ _, total_filter_le _ _⟩

theorem cutPage_shrinks (kind : Kind Value Record Page) (uuid : Nat → String) (fits : Page → Bool) (c : Cursor Value)
    (records : List Record) (count : Nat) (s : ReadViews Value) : Shrinks s (cutPage kind uuid fits c records count s).1 := by
  induction count using Nat.strong_induction_on generalizing s with
  | _ count ih =>
    have continued : Shrinks s (continuation s uuid c records.length count).1 := by
      unfold continuation
      split
      · exact next_shrinks s _ _ _ _
      · exact .refl s
    unfold cutPage
    dsimp only
    split
    · exact continued.trans (finish_shrinks _ _ _)
    split
    · exact continued.trans (finish_shrinks _ _ _)
    · exact continued.trans (ih (count / 2) (by omega) _)

structure Bounded (s : ReadViews Value) : Prop where
  views : s.views.entries.length ≤ 128
  bytes : total s.views.entries ≤ maxBytes

theorem empty_bounded : Bounded (.empty : ReadViews Value) := by
  refine ⟨Nat.zero_le _, ?_⟩
  show (0 : Int) ≤ maxBytes
  decide

theorem Bounded.shrinks (bounded : Bounded s) (shrinks : Shrinks s t) : Bounded t :=
  ⟨shrinks.views.trans bounded.views, shrinks.bytes.trans bounded.bytes⟩

theorem fresh_absent {used : Set String} {uuid : String} (sound : System.Sound ⟨s, used⟩) (fresh : uuid ∉ used) (now : Int) :
    (s.dropExpired now).views.has uuid = false := by
  by_contra present
  obtain ⟨view, found⟩ := Rows.has_iff.mp (Bool.not_eq_false _ ▸ present)
  have mem := mem_dropExpired.mp (Rows.get_mem found)
  exact fresh (Rows.get_key found ▸ sound.views view mem.1)

/-- A view is captured only where it fits. -/
theorem retain_bounded {expires limit : Int} {uuid scope : String} {capture : Option Value}
    {measure : Value → Except Failure Nat} (counted : s.retainedBytes = total s.views.entries)
    (absent : s.views.has uuid = false) (bounded : Bounded s) :
    Bounded (s.retain expires uuid scope limit capture measure).1 := by
  unfold ReadViews.retain
  split
  · exact bounded
  rename_i room
  split
  · exact bounded
  split
  · exact bounded
  split
  · exact bounded
  rename_i value _ size _ small
  have entries : (s.views.set (⟨uuid, scope, expires, limit, value, size, false⟩ : View Value)).entries =
      s.views.entries ++ [⟨uuid, scope, expires, limit, value, size, false⟩] := Rows.entries_set_absent absent
  constructor
  · show (s.views.set _).entries.length ≤ 128
    rw [entries, List.length_append, List.length_singleton]
    omega
  · show total (s.views.set _).entries ≤ maxBytes
    rw [entries, total_append, total_cons, total_nil]
    show total s.views.entries + ((size : Int) + 0) ≤ maxBytes
    omega

theorem read_bounded {used : Set String} {ttlMs now : Int} {uuid scope : String} {query : PageQuery} {capture : Option Value}
    {measure : Value → Except Failure Nat} (sound : System.Sound ⟨s, used⟩) (fresh : uuid ∉ used) (bounded : Bounded s) :
    Bounded (s.read ttlMs now uuid scope query capture measure).1 := by
  have dropped := bounded.shrinks (dropExpired_shrinks s now)
  unfold ReadViews.read
  split
  · exact bounded
  dsimp only
  split
  · exact dropped
  · exact retain_bounded (dropExpired_bytes sound.bytes) (fresh_absent sound fresh now) dropped

theorem Step.bounded {s t : System Value} (step : Step s t) (sound : s.Sound) (bounded : Bounded s.views) :
    Bounded t.views := by
  cases step with
  | page kind ttlMs x s used scope query fresh =>
    have after : Bounded (s.read ttlMs x.now (x.uuid 0) scope query x.capture x.measure).1 :=
      read_bounded sound (fresh.unused 0) bounded
    rcases readPage_cases kind ttlMs x s scope query with ⟨e, failed, -⟩ | ⟨c, records, -, -, -, cut⟩
    · show Bounded (readPage kind ttlMs x s scope query).1
      rw [failed]
      exact after
    · show Bounded (readPage kind ttlMs x s scope query).1
      rw [cut]
      exact after.shrinks (cutPage_shrinks _ _ _ _ _ _ _)
  | read ttlMs now uuid scope query capture measure s used fresh => exact read_bounded sound fresh bounded
  | next uuid id offset index s used => exact bounded.shrinks (next_shrinks s uuid id offset index)
  | finish id b s used => exact bounded.shrinks (finish_shrinks s id b)
  | clear s used => exact empty_bounded

theorem empty_sound : System.Sound (⟨.empty, ∅⟩ : System Value) :=
  ⟨rfl, fun _ mem => absurd mem List.not_mem_nil, fun _ mem => absurd mem List.not_mem_nil,
    fun _ mem => absurd mem List.not_mem_nil, fun _ mem => absurd mem List.not_mem_nil⟩

/-- Whatever is called in whatever order, at most 128 views stay, and not more than 16 MiB. -/
theorem views_bounded {s : System Value} (run : ReflTransGen Step ⟨.empty, ∅⟩ s) :
    s.views.views.entries.length ≤ 128 ∧ total s.views.views.entries ≤ 16 * 1024 * 1024 := by
  have bounded : s.Sound ∧ Bounded s.views := by
    induction run with
    | refl => exact ⟨empty_sound, empty_bounded⟩
    | tail run step ih => exact ⟨(steps_keep (.single step) ih.1).1, step.bounded ih.1 ih.2⟩
  exact ⟨bounded.2.views, bounded.2.bytes⟩

theorem views_bounded_sample :
    ((ReadViews.empty : ReadViews Nat).read 60000 0 "view" "scope" ⟨10, none⟩ (some 7) (fun _ => .ok 100)).1.views.entries.length ≤ 128 ∧
    total ((ReadViews.empty : ReadViews Nat).read 60000 0 "view" "scope" ⟨10, none⟩ (some 7) (fun _ => .ok 100)).1.views.entries ≤ 16 * 1024 * 1024 :=
  views_bounded (.single (.read 60000 0 "view" "scope" ⟨10, none⟩ (some 7) (fun _ => .ok 100) .empty ∅ (Set.notMem_empty _)))

end RssMdmAgent.PagedReads
