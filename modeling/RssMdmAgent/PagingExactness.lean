import RssMdmAgent.SnapshotPaging
import Mathlib.Data.List.Induction

set_option autoImplicit false

/-! # What continuations answer, and exact paging -/

namespace RssMdmAgent.PagedReads
open OrderedRows
open Relation (ReflTransGen)

variable {Value Record Page : Type} (kind : Kind Value Record Page)

def Retains (s : System Value) (now : Int) (id : String) : Prop := (s.views.dropExpired now).views.has id = true

section Answers
variable {s t : System Value} {token : String} {place : Cursor Value} {scope : String} {limit : Int}
  {ttlMs : Int} {x : Exchange Value Page}

theorem retains_iff {now : Int} {id : String} : Retains s now id ↔
    ∃ view ∈ (s.views.dropExpired now).views.entries, view.id = id := by
  unfold Retains
  rw [Rows.has_iff]
  exact exists_congr fun view => Rows.get_iff

theorem Held.resume {now : Int} (held : Held s token place scope limit) (stays : Retains s now place.id) :
    (s.views.dropExpired now).resume scope limit token = .ok place := by
  obtain ⟨view, mem, name⟩ := retains_iff.mp stays
  obtain ⟨early, -⟩ := mem_dropExpired.mp mem
  obtain ⟨owner, size, value, present⟩ := held.view view early name
  exact resume_iff.mpr ⟨token_dropExpired.mpr ⟨present, stays⟩, view, mem, name, owner, size, value⟩

theorem Held.answer {records : List Record} (held : Held s token place scope limit) (bounds : 1 ≤ limit ∧ limit ≤ 256)
    (found : kind.records place.value = some records) (inside : place.offset ≤ records.length) :
    (∃ page, (readPage kind ttlMs x s.views scope ⟨limit, some token⟩).2 = .ok page) ∨
      (readPage kind ttlMs x s.views scope ⟨limit, some token⟩).2 = .error .limitExceeded ∨
      (readPage kind ttlMs x s.views scope ⟨limit, some token⟩).2 = .error .cursorExpired ∧ ¬ Retains s x.now place.id := by
  have range : ¬ (limit < 1 ∨ 256 < limit) := by omega
  have read : s.views.read ttlMs x.now (x.uuid 0) scope ⟨limit, some token⟩ x.capture x.measure =
      (s.views.dropExpired x.now, (s.views.dropExpired x.now).resume scope limit token) := by
    rw [read_continue rfl held.named, if_neg range]
  unfold readPage
  rw [read]
  by_cases stays : Retains s x.now place.id
  · rw [held.resume stays]
    dsimp only
    rw [found]
    dsimp only
    rw [if_neg (Nat.not_lt.mpr inside)]
    rcases cutPage_cases kind x.uuid x.fits place records (min limit.toNat (records.length - place.offset))
      (s.views.dropExpired x.now) with failed | ⟨n, k, page, -⟩
    · exact .inr (.inl failed)
    · exact .inl ⟨_, page⟩
  · refine .inr (.inr ⟨?_, stays⟩)
    cases outcome : (s.views.dropExpired x.now).resume scope limit token with
    | error e => rw [resume_error outcome]
    | ok c =>
      obtain ⟨present, view, mem, name, -⟩ := resume_iff.mp outcome
      have row := held.only _ (token_dropExpired.mp present).1 rfl
      unfold Token.of at row
      rw [Token.mk.injEq] at row
      exact absurd (retains_iff.mpr ⟨view, mem, name.trans row.2.1⟩) stays

theorem Held.refused {other : String} {size : Int} (held : Held s token place scope limit) (differ : other ≠ scope ∨ size ≠ limit) :
    (readPage kind ttlMs x s.views other ⟨size, some token⟩).2 = .error .invalidInput ∨
      (readPage kind ttlMs x s.views other ⟨size, some token⟩).2 = .error .cursorExpired := by
  unfold readPage
  rw [read_continue rfl held.named]
  by_cases range : size < 1 ∨ 256 < size
  · rw [if_pos range]
    exact .inl rfl
  · rw [if_neg range]
    refine .inr ?_
    cases outcome : (s.views.dropExpired x.now).resume other size token with
    | error e => rw [resume_error outcome]
    | ok c =>
      obtain ⟨present, view, mem, name, owner, bound, -⟩ := resume_iff.mp outcome
      have row := held.only _ (token_dropExpired.mp present).1 rfl
      unfold Token.of at row
      rw [Token.mk.injEq] at row
      obtain ⟨same, same', -⟩ := held.view view (mem_dropExpired.mp mem).1 (name.trans row.2.1)
      rcases differ with differ | differ
      · exact absurd (owner.symm.trans same) differ
      · exact absurd (bound.symm.trans same') differ

end Answers

section Repeats
variable {s u : System Value} {row : Token} {scope : String} {limit ttlMs later : Int} {x y : Exchange Value Page}

theorem resume_repeat {r t : ReadViews Value} {used more : Set String} (scope : String) (limit : Int) (keeps : Keeps ⟨r, used⟩ ⟨t, more⟩)
    (known : row.id ∈ used) (stored : row ∈ r.tokens.entries) (stays : ∃ view ∈ t.views.entries, view.id = row.id) :
    t.resume scope limit row.token = r.resume scope limit row.token := by
  obtain ⟨view, mem, name⟩ := stays
  obtain ⟨old, early, same, tokens⟩ := keeps.views view mem (name ▸ known)
  have here := tokens row stored name.symm
  have found (s : ReadViews Value) (view : View Value) (stored : row ∈ s.tokens.entries) (mem : view ∈ s.views.entries)
      (name : view.id = row.id) : s.resume scope limit row.token =
        if view.scope ≠ scope ∨ view.limit ≠ limit then .error .cursorExpired
        else .ok ⟨row.id, row.offset, row.index, view.value⟩ := by
    have token : s.tokens.get row.token = some row := Rows.get_of_mem stored
    have place : s.views.get row.id = some view := Rows.get_iff.mpr ⟨mem, name⟩
    unfold ReadViews.resume
    rw [token]
    dsimp only
    rw [place]
  rw [found t view here mem name, found r old stored early (same.id.symm.trans name), same.scope, same.limit, same.value]

/-- A continuation that is used again gives the same result while its view is retained. -/
theorem readPage_repeat (sound : s.Sound) (stored : row ∈ s.views.tokens.entries) (fresh : Fresh s.used x.uuid)
    (steps : ReflTransGen Step ⟨(readPage kind ttlMs x s.views scope ⟨limit, some row.token⟩).1, s.used ∪ Set.range x.uuid⟩ u)
    (fits : y.fits = x.fits) (stays : Retains u y.now row.id) :
    (readPage kind later y u.views scope ⟨limit, some row.token⟩).2 =
      (readPage kind ttlMs x s.views scope ⟨limit, some row.token⟩).2 := by
  have named := sound.named row stored
  have known := (sound.tokens row stored).2
  by_cases range : limit < 1 ∨ 256 < limit
  · unfold readPage
    rw [read_continue rfl named, read_continue rfl named, if_pos range, if_pos range]
  have first : s.views.read ttlMs x.now (x.uuid 0) scope ⟨limit, some row.token⟩ x.capture x.measure =
      (s.views.dropExpired x.now, (s.views.dropExpired x.now).resume scope limit row.token) := by
    rw [read_continue rfl named, if_neg range]
  have second : u.views.read later y.now (y.uuid 0) scope ⟨limit, some row.token⟩ y.capture y.measure =
      (u.views.dropExpired y.now, (u.views.dropExpired y.now).resume scope limit row.token) := by
    rw [read_continue rfl named, if_neg range]
  have expired : System.Sound ⟨s.views.dropExpired x.now, s.used⟩ := (Prim.expire s.views s.used x.now).sound sound
  have placed (c : Cursor Value) (resumed : (s.views.dropExpired x.now).resume scope limit row.token = .ok c) :
      Placed (s.views.dropExpired x.now) c scope limit := (resume_iff.mp resumed).2
  obtain ⟨middle, grows, bound, prims⟩ := readPage_rest kind ttlMs x s.views scope ⟨limit, some row.token⟩
    fresh.injective fresh.named (fun i => fresh.unused (i + 1)) (by rw [first]; exact expired) (by rw [first]; exact placed)
  rw [first] at prims
  obtain ⟨paged, before⟩ := prims_keep (prims.tail (drawn grows bound)) expired
  obtain ⟨reached, between⟩ := steps_keep steps paged
  have last : Prim u ⟨u.views.dropExpired y.now, u.used⟩ := .expire u.views u.used y.now
  have after := between.trans (last.keeps reached)
  have still := retains_iff.mp stays
  have present : row ∈ (s.views.dropExpired x.now).tokens.entries := by
    obtain ⟨view, mem, name⟩ := still
    obtain ⟨old, early, same, -⟩ := (before.trans after).views view mem (name ▸ known)
    refine token_dropExpired.mpr ⟨stored, Rows.has_iff.mpr ⟨old, Rows.get_iff.mpr ⟨early, ?_⟩⟩⟩
    exact same.id.symm.trans name
  have resumed := resume_repeat scope limit (before.trans after) known present still
  unfold readPage at paged before after ⊢
  rw [second, resumed]
  rw [first] at paged before after ⊢
  cases outcome : (s.views.dropExpired x.now).resume scope limit row.token with
  | error e => rfl
  | ok c =>
    rw [outcome] at paged before after
    dsimp only at paged before after ⊢
    cases found : kind.records c.value with
    | none => rfl
    | some records =>
      rw [found] at paged before after
      dsimp only at paged before after ⊢
      split
      · rfl
      rename_i inside
      rw [if_neg inside] at paged before after
      have token := same_token (resume_iff.mp outcome).1 present rfl
      have id : c.id = row.id := congrArg Token.id token
      obtain ⟨view, mem, name⟩ := still
      obtain ⟨old, early, same, tokens⟩ := after.views view mem (name ▸ .inl known)
      rw [fits]
      apply cutPage_repeat kind fresh.injective fresh.named (id ▸ known) (fun i _ => fresh.unused (i + 1)) expired
      · exact ⟨old, early, (same.id.symm.trans name).trans id.symm⟩
      · exact fun other stored' of => tokens other stored' (of.trans (id.trans name.symm))
      · exact (last.sound reached).places

end Repeats

/-- Pages show consecutive parts of the records under one identifier, and all of them once no continuation is left. -/
structure Exact (value : Value) (pages : List Page) (id : String) (records rest : List Record) : Prop where
  parts : ∃ cuts : List (List Record × Option String),
    pages = cuts.mapIdx (fun i cut => kind.page id i value cut.1 cut.2) ∧
      (cuts.map Prod.fst).flatten ++ rest = records ∧ ∀ cut ∈ cuts, cut.1 = [] → records = []
  ended : pages.getLast?.bind kind.next = none → rest = []
  shown : kind.Orderly records → pages.flatMap kind.shown ++ rest = records

section Claim
variable {s : System Value} {scope : String} {limit : Int} {value : Value} {pages : List Page} {id : String}
  {records rest : List Record} {cuts : List (List Record × Option String)}

theorem shown_mapIdx (orderly : ∀ cut ∈ cuts, kind.Orderly cut.1) :
    (cuts.mapIdx fun i cut => kind.page id i value cut.1 cut.2).flatMap kind.shown = (cuts.map Prod.fst).flatten := by
  induction cuts using List.reverseRecOn with
  | nil => rfl
  | append_singleton front cut ih =>
    have last := orderly cut (List.mem_append_right _ (List.mem_singleton.mpr rfl))
    rw [List.mapIdx_concat, List.flatMap_append, ih fun cut mem => orderly cut (List.mem_append_left _ mem),
      List.map_append, List.flatten_append]
    simp [kind.shown_page _ _ _ _ _ last]

theorem Shows.exact (shows' : Shows kind scope limit value pages s id records cuts rest) :
    Exact kind value pages id records rest := by
  refine ⟨⟨cuts, shows'.pages, shows'.parts, shows'.full⟩, ?_, ?_⟩
  · intro none
    obtain ⟨cut, last, ended, -⟩ := shows'.last
    exact ended ((shows'.token kind last).symm.trans none)
  · intro orderly
    rw [shows'.pages, shown_mapIdx, shows'.parts]
    intro cut mem
    apply kind.orderly_sublist orderly
    rw [← shows'.parts]
    have part : cut.1 ∈ cuts.map Prod.fst := List.mem_map_of_mem mem
    exact (List.sublist_flatten_of_mem part).trans (List.sublist_append_left _ _)

/-- Pages that follow one another are exact, a continuation is answered as before while its view stays, and sizes are kept. -/
theorem paging_exact :
    (∀ scope limit value pages s, Trail kind scope limit value pages s → ∃ id records rest,
      kind.records value = some records ∧ Exact kind value pages id records rest ∧
      (∀ token, pages.getLast?.bind kind.next = some token → ∀ ttlMs x,
        (∃ page, (readPage kind ttlMs x s.views scope ⟨limit, some token⟩).2 = .ok page) ∨
        (readPage kind ttlMs x s.views scope ⟨limit, some token⟩).2 = .error .limitExceeded ∨
        (readPage kind ttlMs x s.views scope ⟨limit, some token⟩).2 = .error .cursorExpired ∧ ¬ Retains s x.now id) ∧
      ∀ page ∈ pages, ∀ token, kind.next page = some token → ∀ other size ttlMs x, other ≠ scope ∨ size ≠ limit →
        (readPage kind ttlMs x s.views other ⟨size, some token⟩).2 = .error .invalidInput ∨
        (readPage kind ttlMs x s.views other ⟨size, some token⟩).2 = .error .cursorExpired) ∧
    ∀ s, ReflTransGen Step ⟨.empty, ∅⟩ s → s.views.retainedBytes = total s.views.views.entries ∧
      ∀ row ∈ s.views.tokens.entries, ∀ ttlMs x scope limit, Fresh s.used x.uuid → ∀ u, ReflTransGen Step
          ⟨(readPage kind ttlMs x s.views scope ⟨limit, some row.token⟩).1, s.used ∪ Set.range x.uuid⟩ u →
        ∀ later y, y.fits = x.fits → Retains u y.now row.id →
          (readPage kind later y u.views scope ⟨limit, some row.token⟩).2 =
            (readPage kind ttlMs x s.views scope ⟨limit, some row.token⟩).2 := by
  constructor
  · intro scope limit value pages s trail
    obtain ⟨sound, id, records, cuts, rest, shows'⟩ := trail.shown
    refine ⟨id, records, rest, shows'.found, shows'.exact, ?_, ?_⟩
    · intro token given ttlMs x
      obtain ⟨cut, last, -, more⟩ := shows'.last
      obtain ⟨-, held⟩ := more token ((shows'.token kind last).symm.trans given)
      apply held.answer kind shows'.bounds shows'.found
      rw [← shows'.parts, List.length_append]
      exact Nat.le_add_right _ _
    · intro page mem token given other size ttlMs x differ
      rw [shows'.pages] at mem
      obtain ⟨i, bound, rfl⟩ := List.mem_mapIdx.mp mem
      rw [kind.next_page] at given
      obtain ⟨offset, index, -, held⟩ := shows'.issued _ (List.getElem_mem bound) token given
      exact held.refused kind differ
  · intro s reached
    have sound := reached_sound reached
    refine ⟨sound.bytes, fun row stored ttlMs x scope limit fresh u steps later y fits stays => ?_⟩
    exact readPage_repeat kind sound stored fresh steps fits stays

end Claim

section Sample

def sampleUuid (call i : Nat) : String := String.ofList (List.replicate (2 * i + call + 1) 'u')

def sampleExchange (call : Nat) (now : Int) (records : List SnapshotRecord) : Exchange Captured SnapshotPage where
  now := now
  uuid := sampleUuid call
  capture := some (.snapshot ⟨2, "session"⟩ records)
  measure _ := .ok 1
  fits _ := true

def sampleRecords : List SnapshotRecord := [⟨.event, "a"⟩, ⟨.commandRecord, "b"⟩]

def sampleFirst : ReadViews Captured × Except Failure SnapshotPage :=
  readSnapshotPage 30000 (sampleExchange 0 0 sampleRecords) .empty "scope" ⟨1, none⟩

def sampleToken : String := sampleUuid 0 2

def samplePage : SnapshotPage := snapshotKind.page "u" 0 (.snapshot ⟨2, "session"⟩ sampleRecords) [⟨.event, "a"⟩] (some sampleToken)

/-- A view that expires between two pages ends their sequence early, and a page groups its records by their kind. -/
theorem following_expires :
    (∃ t, readSnapshotPage 30000 (sampleExchange 0 0 sampleRecords) .empty "scope" ⟨1, none⟩ = (t, .ok samplePage) ∧
      samplePage.next = some sampleToken ∧
      (readSnapshotPage 30000 (sampleExchange 1 30001 []) t "scope" ⟨1, some sampleToken⟩).2 = .error .cursorExpired) ∧
    ∃ page, (readSnapshotPage 30000 (sampleExchange 0 0 sampleRecords.reverse) .empty "scope" ⟨2, none⟩).2 = .ok page ∧
      page.next = none ∧ snapshotKind.shown page ≠ sampleRecords.reverse := by
  refine ⟨⟨sampleFirst.1, Prod.ext rfl ?_, rfl, ?_⟩, ?_⟩
  · show sampleFirst.2 = _
    decide +kernel
  · decide +kernel
  · refine ⟨snapshotKind.page "u" 0 (.snapshot ⟨2, "session"⟩ sampleRecords.reverse) sampleRecords.reverse none, ?_, rfl, ?_⟩
    · decide +kernel
    · decide +kernel

theorem sampleUuid_fresh {call : Nat} {used : Set String} (unused : ∀ i, sampleUuid call i ∉ used) :
    Fresh used (sampleUuid call) := by
  have length (i : Nat) : (sampleUuid call i).length = 2 * i + call + 1 := by
    unfold sampleUuid
    rw [String.length_ofList, List.length_replicate]
  refine ⟨fun i j same => ?_, unused, fun i empty => ?_⟩
  · have equal := congrArg String.length same
    rw [length, length] at equal
    omega
  · have none := congrArg String.length empty
    rw [length] at none
    cases none

/-- Two pages of the sample show both records, and no more follows. -/
theorem sample_pages : ∃ pages s, Trail snapshotKind "scope" 1 (.snapshot ⟨2, "session"⟩ sampleRecords) pages s ∧
    pages.length = 2 ∧ pages.flatMap snapshotKind.shown = sampleRecords := by
  have empty : Fresh (∅ : Set String) (sampleUuid 0) := sampleUuid_fresh fun _ => Set.notMem_empty _
  have other : Fresh (∅ ∪ Set.range (sampleUuid 0)) (sampleUuid 1) := by
    refine sampleUuid_fresh fun i drawn => ?_
    rw [Set.empty_union] at drawn
    obtain ⟨j, same⟩ := drawn
    have equal := congrArg String.length same
    unfold sampleUuid at equal
    rw [String.length_ofList, String.length_ofList, List.length_replicate, List.length_replicate] at equal
    omega
  have first : readPage snapshotKind 30000 (sampleExchange 0 0 sampleRecords) .empty "scope" ⟨1, none⟩ =
      (sampleFirst.1, .ok samplePage) := Prod.ext rfl (by decide +kernel)
  have second : readPage snapshotKind 30000 (sampleExchange 1 1 []) sampleFirst.1 "scope" ⟨1, some sampleToken⟩ =
      ((readPage snapshotKind 30000 (sampleExchange 1 1 []) sampleFirst.1 "scope" ⟨1, some sampleToken⟩).1,
        .ok (snapshotKind.page "u" 1 (.snapshot ⟨2, "session"⟩ sampleRecords) [⟨.commandRecord, "b"⟩] none)) :=
    Prod.ext rfl (by decide +kernel)
  have start : Trail snapshotKind "scope" 1 (.snapshot ⟨2, "session"⟩ sampleRecords) [samplePage]
      ⟨sampleFirst.1, ∅ ∪ Set.range (sampleUuid 0)⟩ := .first .refl empty rfl first
  have trail := start.next other (by rfl) second
  refine ⟨_, _, trail, rfl, ?_⟩
  obtain ⟨id, records, rest, found, exact', -⟩ := (paging_exact snapshotKind).1 _ _ _ _ _ trail
  cases found
  have none := exact'.ended rfl
  have shown := exact'.shown (by unfold snapshotKind Grouped; decide)
  rwa [none, List.append_nil] at shown

end Sample

end RssMdmAgent.PagedReads
