import RssMdmAgent.ViewPages

set_option autoImplicit false

/-! # Pages that follow one another show a captured value exactly -/

namespace RssMdmAgent.PagedReads
open OrderedRows
open Relation (ReflTransGen)

variable {Value Record Page : Type}

/-- A call of the views, each with new identifiers. -/
inductive Step : System Value → System Value → Prop where
  | page {Record Page : Type} (kind : Kind Value Record Page) (ttlMs : Int) (x : Exchange Value Page) (s : ReadViews Value)
      (used : Set String) (scope : String) (query : PageQuery) (fresh : Fresh used x.uuid) :
      Step ⟨s, used⟩ ⟨(readPage kind ttlMs x s scope query).1, used ∪ Set.range x.uuid⟩
  | read (ttlMs now : Int) (uuid scope : String) (query : PageQuery) (capture : Option Value)
      (measure : Value → Except Failure Nat) (s : ReadViews Value) (used : Set String) (fresh : uuid ∉ used) :
      Step ⟨s, used⟩ ⟨(s.read ttlMs now uuid scope query capture measure).1, insert uuid used⟩
  | next (uuid id : String) (offset index : Nat) (s : ReadViews Value) (used : Set String) (fresh : uuid ∉ used)
      (named : uuid ≠ "") (known : id ∈ used) :
      Step ⟨s, used⟩ ⟨(s.next uuid id offset index).1, insert uuid used⟩
  | finish (id : String) (hasContinuation : Bool) (s : ReadViews Value) (used : Set String) :
      Step ⟨s, used⟩ ⟨s.finish id hasContinuation, used⟩
  | clear (s : ReadViews Value) (used : Set String) : Step ⟨s, used⟩ ⟨s.clear, used⟩

theorem drawn {s : ReadViews Value} {used later names : Set String} (grows : used ⊆ later) (bound : later ⊆ used ∪ names) :
    Prim ⟨s, later⟩ ⟨s, used ∪ names⟩ := by
  have same : used ∪ names = later ∪ names := by
    apply Set.Subset.antisymm
    · exact Set.union_subset_union_left _ grows
    · exact Set.union_subset bound Set.subset_union_right
  rw [same]
  exact .draw s later names

theorem Step.prims {s t : System Value} (step : Step s t) (sound : s.Sound) : ReflTransGen Prim s t := by
  cases step with
  | page kind ttlMs x s used scope query fresh =>
    obtain ⟨later, grows, bound, prims⟩ := readPage_prims kind s fresh sound
    exact prims.tail (drawn grows bound)
  | read ttlMs now uuid scope query capture measure s used fresh =>
    obtain ⟨later, grows, bound, prims, -⟩ := read_prims s ttlMs now scope query capture measure fresh
    rw [Set.insert_eq, Set.union_comm] at bound ⊢
    exact prims.tail (drawn grows bound)
  | next uuid id offset index s used fresh named known =>
    obtain ⟨later, grows, bound, prims⟩ := next_prims s offset index fresh named known
    rw [Set.insert_eq, Set.union_comm] at bound ⊢
    exact prims.tail (drawn grows bound)
  | finish id b s used => exact .single (.finish s used id b)
  | clear s used => exact .single (.clear s used)

theorem steps_keep {s t : System Value} (steps : ReflTransGen Step s t) (sound : s.Sound) : t.Sound ∧ Keeps s t := by
  induction steps with
  | refl => exact ⟨sound, .refl s⟩
  | tail _ step ih =>
    obtain ⟨sound, keeps⟩ := ih
    obtain ⟨after, more⟩ := prims_keep (step.prims sound) sound
    exact ⟨after, keeps.trans more⟩

/-- A token and the place in a view for which it stands, while the view stays. -/
structure Held (s : System Value) (token : String) (c : Cursor Value) (scope : String) (limit : Int) : Prop where
  issued : token ∈ s.used
  known : c.id ∈ s.used
  named : token ≠ ""
  view : ∀ view ∈ s.views.views.entries, view.id = c.id → view.scope = scope ∧ view.limit = limit ∧ view.value = c.value ∧
    Token.of token c.id c.offset c.index ∈ s.views.tokens.entries
  only : ∀ row ∈ s.views.tokens.entries, row.token = token → row = Token.of token c.id c.offset c.index

theorem Held.keeps {s t : System Value} {token : String} {c : Cursor Value} {scope : String} {limit : Int}
    (held : Held s token c scope limit) (keeps : Keeps s t) : Held t token c scope limit := by
  refine ⟨keeps.used held.issued, keeps.used held.known, held.named, ?_, ?_⟩
  · intro view mem name
    obtain ⟨old, early, same, tokens⟩ := keeps.views view mem (name ▸ held.known)
    obtain ⟨owner, size, value, row⟩ := held.view old early (same.id ▸ name)
    exact ⟨same.scope.trans owner, same.limit.trans size, same.value.trans value, tokens _ row name.symm⟩
  · intro row mem name
    exact held.only row (keeps.tokens row mem (name ▸ held.issued)) name

section Page
variable (kind : Kind Value Record Page) {s t : ReadViews Value} {used : Set String} {ttlMs limit : Int}
  {x : Exchange Value Page} {scope : String} {query : PageQuery} {page : Page} {c : Cursor Value}

theorem same_view {view other : View Value} (mem : view ∈ s.views.entries) (present : other ∈ s.views.entries)
    (same : view.id = other.id) : view = other := List.inj_on_of_nodup_map s.views.distinct mem present same

theorem same_token {row other : Token} (mem : row ∈ s.tokens.entries) (present : other ∈ s.tokens.entries)
    (same : row.token = other.token) : row = other := List.inj_on_of_nodup_map s.tokens.distinct mem present same

/-- A page of a cursor, with the token of the place after it. -/
structure Answer (s : System Value) (scope : String) (limit : Int) (c : Cursor Value) (records : List Record)
    (page : Page) (n : Nat) (token : Option String) : Prop where
  found : kind.records c.value = some records
  inside : c.offset ≤ records.length
  shows : page = kind.page c.id c.index c.value ((records.drop c.offset).take n) token
  size : n ≤ records.length - c.offset
  progress : n = 0 → records.length = c.offset
  ended : token = none → c.offset + n = records.length
  more : ∀ k, token = some k → c.offset + n < records.length ∧
    Held s k ⟨c.id, c.offset + n, c.index + 1, c.value⟩ scope limit

theorem read_limit (read : (s.read ttlMs x.now (x.uuid 0) scope query x.capture x.measure).2 = .ok c) :
    1 ≤ query.limit ∧ query.limit ≤ 256 := by
  unfold ReadViews.read at read
  split at read
  · cases read
  · omega

theorem readPage_sound {outcome : Except Failure Page} (fresh : Fresh used x.uuid) (sound : System.Sound ⟨s, used⟩)
    (h : readPage kind ttlMs x s scope query = (t, outcome)) : System.Sound ⟨t, used ∪ Set.range x.uuid⟩ := by
  have after := (prims_keep (Step.prims (.page kind ttlMs x s used scope query fresh) sound) sound).1
  rwa [h] at after

theorem readPage_keeps {outcome : Except Failure Page} (fresh : Fresh used x.uuid) (sound : System.Sound ⟨s, used⟩)
    (h : readPage kind ttlMs x s scope query = (t, outcome)) : Keeps ⟨s, used⟩ ⟨t, used ∪ Set.range x.uuid⟩ := by
  have keeps := (prims_keep (Step.prims (.page kind ttlMs x s used scope query fresh) sound) sound).2
  rwa [h] at keeps

theorem readPage_answer (fresh : Fresh used x.uuid) (sound : System.Sound ⟨s, used⟩)
    (h : readPage kind ttlMs x s scope query = (t, .ok page)) :
    ∃ c records n token, (s.read ttlMs x.now (x.uuid 0) scope query x.capture x.measure).2 = .ok c ∧
      Answer kind ⟨t, used ∪ Set.range x.uuid⟩ scope query.limit c records page n token := by
  have after := readPage_sound kind fresh sound h
  rcases readPage_cases kind ttlMs x s scope query with ⟨e, failed, -⟩ | ⟨c, records, cursor, found, inside, cutting⟩
  · rw [h] at failed
    cases failed
  rw [h] at cutting
  obtain ⟨middle, grows, bound, prims, placed⟩ := read_prims s ttlMs x.now scope query x.capture x.measure (fresh.unused 0)
  obtain ⟨view, mem, name, owner, size, value⟩ := placed c cursor
  have settled := (prims_keep prims sound).1
  have known : c.id ∈ middle := name ▸ settled.views view mem
  have unused (i : Nat) : x.uuid (i + 1) ∉ middle := by
    intro drawn
    rcases bound drawn with same | old
    · have equal := fresh.injective same
      omega
    · exact fresh.unused _ old
  have limits := read_limit cursor
  generalize (s.read ttlMs x.now (x.uuid 0) scope query x.capture x.measure).1 = r at *
  obtain ⟨later, -, -, rest⟩ := cutPage_prims kind (s := r) x.fits records fresh.injective fresh.named known
    fun i (_ : i ≤ min query.limit.toNat (records.length - c.offset)) => unused i
  rw [← cutting] at rest
  have keeps := (prims_keep rest settled).2
  rcases cutPage_cases kind x.uuid x.fits c records (min query.limit.toNat (records.length - c.offset)) r with failed | ⟨n, token, shown, cut⟩
  · rw [← cutting] at failed
    cases failed
  rw [← cutting] at shown cut
  cases shown
  refine ⟨c, records, n, token, cursor, found, inside, rfl, ?_, ?_, ?_, ?_⟩
  · exact cut.size.trans (Nat.min_le_right _ _)
  · intro zero
    have none := cut.some zero
    omega
  · intro none
    have end' := cut.ended none
    have most := cut.size
    omega
  · intro k some
    obtain ⟨more, present⟩ := cut.more k some
    refine ⟨more, (after.tokens _ present).1, (after.tokens _ present).2, after.named _ present, ?_, ?_⟩
    · intro later here same
      obtain ⟨old, early, alike, -⟩ := keeps.views later here (same ▸ known)
      have equal := same_view early mem (alike.id.symm.trans (same.trans name.symm))
      rw [equal] at alike
      exact ⟨alike.scope.trans owner, alike.limit.trans size, alike.value.trans value, present⟩
    · exact fun row here same => same_token here present same

theorem read_first (none : query.continuation = none)
    (read : (s.read ttlMs x.now (x.uuid 0) scope query x.capture x.measure).2 = .ok c) :
    x.capture = some c.value ∧ c.offset = 0 ∧ c.index = 0 := by
  rw [read_capture (.inl none)] at read
  split at read
  · cases read
  generalize result : (s.dropExpired x.now).retain (x.now + ttlMs) (x.uuid 0) scope query.limit x.capture x.measure = r at read
  obtain ⟨t, outcome⟩ := r
  cases read
  obtain ⟨value, bytes, captured, -, rfl⟩ := retain_ok result
  exact ⟨captured, rfl, rfl⟩

theorem read_held {token : String} {place : Cursor Value} (held : Held ⟨s, used⟩ token place scope limit)
    (given : query.continuation = some token)
    (read : (s.read ttlMs x.now (x.uuid 0) scope query x.capture x.measure).2 = .ok c) : c = place := by
  rw [read_continue given held.named] at read
  split at read
  · cases read
  obtain ⟨present, view, mem, name, -, -, value⟩ := resume_iff.mp read
  have row := held.only _ (token_dropExpired.mp present).1 rfl
  unfold Token.of at row
  rw [Token.mk.injEq] at row
  obtain ⟨-, id, offset, index⟩ := row
  obtain ⟨-, -, same, -⟩ := held.view view (mem_dropExpired.mp mem).1 (name.trans id)
  obtain ⟨id', offset', index', value'⟩ := c
  obtain ⟨id'', offset'', index'', value''⟩ := place
  dsimp only at id offset index value same
  rw [id, offset, index, ← value, same]

end Page

section Trails
variable (kind : Kind Value Record Page)

/-- The pages of a captured value, each read with the continuation of the one before, with any calls in between. -/
inductive Trail (scope : String) (limit : Int) (value : Value) : List Page → System Value → Prop where
  | first {s : System Value} {ttlMs : Int} {x : Exchange Value Page} {page : Page} {t : ReadViews Value}
      (reached : ReflTransGen Step ⟨.empty, ∅⟩ s) (fresh : Fresh s.used x.uuid) (captured : x.capture = some value)
      (h : readPage kind ttlMs x s.views scope ⟨limit, none⟩ = (t, .ok page)) :
      Trail scope limit value [page] ⟨t, s.used ∪ Set.range x.uuid⟩
  | wait {pages : List Page} {s t : System Value} (earlier : Trail scope limit value pages s) (h : Step s t) :
      Trail scope limit value pages t
  | next {pages : List Page} {s : System Value} {ttlMs : Int} {x : Exchange Value Page} {token : String} {page : Page}
      {t : ReadViews Value} (earlier : Trail scope limit value pages s) (fresh : Fresh s.used x.uuid)
      (last : pages.getLast?.bind kind.next = some token)
      (h : readPage kind ttlMs x s.views scope ⟨limit, some token⟩ = (t, .ok page)) :
      Trail scope limit value (pages ++ [page]) ⟨t, s.used ∪ Set.range x.uuid⟩

variable {scope : String} {limit : Int} {value : Value} {pages : List Page} {s : System Value}

/-- The pages show consecutive parts of the records under one identifier, and the last token stands for the rest. -/
structure Shows (scope : String) (limit : Int) (value : Value) (pages : List Page) (s : System Value) (id : String)
    (records : List Record) (cuts : List (List Record × Option String)) (rest : List Record) : Prop where
  bounds : 1 ≤ limit ∧ limit ≤ 256
  found : kind.records value = some records
  pages : pages = cuts.mapIdx fun i cut => kind.page id i value cut.1 cut.2
  parts : (cuts.map Prod.fst).flatten ++ rest = records
  full : ∀ cut ∈ cuts, cut.1 = [] → records = []
  issued : ∀ cut ∈ cuts, ∀ k, cut.2 = some k → ∃ offset index, offset ≤ records.length ∧
    Held s k ⟨id, offset, index, value⟩ scope limit
  last : ∃ cut, cuts.getLast? = some cut ∧ (cut.2 = none → rest = []) ∧ ∀ k, cut.2 = some k → rest ≠ [] ∧
    Held s k ⟨id, (cuts.map Prod.fst).flatten.length, cuts.length, value⟩ scope limit

theorem Shows.keeps {t : System Value} {id : String} {records rest : List Record} {cuts : List (List Record × Option String)}
    (shows' : Shows kind scope limit value pages s id records cuts rest) (keeps : Keeps s t) :
    Shows kind scope limit value pages t id records cuts rest := by
  obtain ⟨cut, last, ended, more⟩ := shows'.last
  refine ⟨shows'.bounds, shows'.found, shows'.pages, shows'.parts, shows'.full, ?_, cut, last, ended,
    fun k some => (more k some).imp_right fun held => held.keeps keeps⟩
  intro cut mem k some
  obtain ⟨offset, index, inside, held⟩ := shows'.issued cut mem k some
  exact ⟨offset, index, inside, held.keeps keeps⟩

theorem Shows.token {id : String} {records rest : List Record} {cuts : List (List Record × Option String)}
    (shows' : Shows kind scope limit value pages s id records cuts rest) {cut : List Record × Option String}
    (last : cuts.getLast? = some cut) : pages.getLast?.bind kind.next = cut.2 := by
  obtain ⟨front, rfl⟩ := List.getLast?_eq_some_iff.mp last
  rw [shows'.pages, List.mapIdx_concat, List.getLast?_concat]
  exact kind.next_page _ _ _ _ _

/-- A page of the next place extends what the pages show. -/
theorem Answer.extends_shown {c : Cursor Value} {records : List Record} {page : Page} {n : Nat} {token : Option String}
    (pages : List Page) (done : List (List Record × Option String)) (answer : Answer kind s scope limit c records page n token)
    (parts : (done.map Prod.fst).flatten = records.take c.offset) (index : c.index = done.length)
    (before : done.mapIdx (fun i cut => kind.page c.id i c.value cut.1 cut.2) = pages)
    (full : ∀ cut ∈ done, cut.1 = [] → records = []) (some : done ≠ [] → c.offset < records.length)
    (bounds : 1 ≤ limit ∧ limit ≤ 256) (issued : ∀ cut ∈ done, ∀ k, cut.2 = Option.some k → ∃ offset index,
      offset ≤ records.length ∧ Held s k ⟨c.id, offset, index, c.value⟩ scope limit) :
    ∃ cut rest, Shows kind scope limit c.value (pages ++ [page]) s c.id records (done ++ [cut]) rest := by
  have joined : ((done ++ [((records.drop c.offset).take n, token)]).map Prod.fst).flatten = records.take (c.offset + n) := by
    rw [List.map_append, List.flatten_append, parts, List.take_add]
    simp
  refine ⟨((records.drop c.offset).take n, token), records.drop (c.offset + n), bounds, answer.found, ?_, ?_, ?_, ?_, ?_⟩
  · rw [List.mapIdx_concat, before, answer.shows, index]
  · rw [joined, List.take_append_drop]
  · intro cut mem empty
    rcases List.mem_append.mp mem with old | new
    · exact full cut old empty
    · cases List.mem_singleton.mp new
      have length := congrArg List.length empty
      dsimp only at length
      rw [List.length_take, List.length_drop, List.length_nil] at length
      have size := answer.size
      have none : n = 0 := by omega
      have end' := answer.progress none
      by_cases first : done = []
      · rw [first] at parts
        have offset := congrArg List.length parts
        rw [List.map_nil, List.flatten_nil, List.length_nil, List.length_take] at offset
        exact List.eq_nil_of_length_eq_zero (by omega)
      · have more := some first
        omega
  · intro cut mem k token
    rcases List.mem_append.mp mem with old | new
    · exact issued cut old k token
    · cases List.mem_singleton.mp new
      obtain ⟨more, held⟩ := answer.more k token
      exact ⟨_, _, more.le, held⟩
  · refine ⟨_, List.getLast?_concat, ?_, ?_⟩
    · intro none
      exact List.drop_eq_nil_of_le (answer.ended none).ge
    · intro k some
      obtain ⟨more, held⟩ := answer.more k some
      refine ⟨fun empty => ?_, ?_⟩
      · have length := congrArg List.length empty
        rw [List.length_drop, List.length_nil] at length
        omega
      · rw [joined, List.length_take, Nat.min_eq_left more.le, List.length_append, List.length_singleton, ← index]
        exact held

theorem empty_system : System.Sound (⟨.empty, ∅⟩ : System Value) :=
  ⟨rfl, fun _ mem => absurd mem List.not_mem_nil, fun _ mem => absurd mem List.not_mem_nil,
    fun _ mem => absurd mem List.not_mem_nil, fun _ mem => absurd mem List.not_mem_nil⟩

theorem reached_sound (reached : ReflTransGen Step ⟨.empty, ∅⟩ s) : s.Sound := (steps_keep reached empty_system).1

/-- The pages of a trail show consecutive parts of the captured records. -/
theorem Trail.shown (trail : Trail kind scope limit value pages s) : s.Sound ∧
    ∃ id records cuts rest, Shows kind scope limit value pages s id records cuts rest := by
  induction trail with
  | @first s ttlMs x page t reached fresh captured h =>
    have sound := reached_sound reached
    obtain ⟨c, records, n, token, read, answer⟩ := readPage_answer kind fresh sound h
    obtain ⟨same, offset, index⟩ := read_first rfl read
    have value : c.value = value := Option.some.inj (same.symm.trans captured)
    subst value
    obtain ⟨cut, rest, shows'⟩ := answer.extends_shown kind [] [] (by rw [offset]; rfl) index rfl nofun
      (fun absurd' => absurd rfl absurd') (read_limit read) nofun
    exact ⟨readPage_sound kind fresh sound h, c.id, records, _, rest, shows'⟩
  | wait earlier step ih =>
    obtain ⟨sound, id, records, cuts, rest, shows'⟩ := ih
    obtain ⟨after, keeps⟩ := steps_keep (.single step) sound
    exact ⟨after, id, records, cuts, rest, shows'.keeps kind keeps⟩
  | @next pages s ttlMs x token page t earlier fresh given h ih =>
    obtain ⟨sound, id, records, cuts, rest, shows'⟩ := ih
    obtain ⟨cut, last, -, more⟩ := shows'.last
    have named : cut.2 = some token := (shows'.token kind last).symm.trans given
    obtain ⟨left, held⟩ := more token named
    obtain ⟨c, records', n, token', read, answer⟩ := readPage_answer kind fresh sound h
    have keeps := readPage_keeps kind fresh sound h
    have place := read_held held rfl read
    subst place
    have known : records' = records := Option.some.inj (answer.found.symm.trans shows'.found)
    subst known
    have taken : (cuts.map Prod.fst).flatten = records'.take (cuts.map Prod.fst).flatten.length := by
      conv_rhs => rw [← shows'.parts]
      rw [List.take_left]
    have inside : (cuts.map Prod.fst).flatten.length < records'.length := by
      conv_rhs => rw [← shows'.parts]
      rw [List.length_append]
      exact Nat.lt_add_of_pos_right (List.length_pos_iff.mpr left)
    obtain ⟨cut, rest, shows''⟩ := answer.extends_shown kind pages cuts taken rfl shows'.pages.symm shows'.full (fun _ => inside)
      shows'.bounds fun cut mem k some => by
        obtain ⟨offset, index, within, held⟩ := shows'.issued cut mem k some
        exact ⟨offset, index, within, held.keeps keeps⟩
    exact ⟨readPage_sound kind fresh sound h, id, records', _, rest, shows''⟩

end Trails

end RssMdmAgent.PagedReads
