import RssMdmAgent.ViewSteps

set_option autoImplicit false

/-! # Pages as sequences of primitive changes -/

namespace RssMdmAgent.PagedReads
open OrderedRows
open Relation (ReflTransGen)

variable {Value Record Page : Type}

def Token.of (token id : String) (offset index : Nat) : Token := ⟨token, id, offset, index⟩

section Next
variable {s : ReadViews Value} {used : Set String} {uuid id : String} {offset index : Nat}

theorem next_cases (s : ReadViews Value) (uuid id : String) (offset index : Nat) :
    ((s.next uuid id offset index).1 = s ∧ Token.of (s.next uuid id offset index).2 id offset index ∈ s.tokens.entries) ∨
      (s.next uuid id offset index = (s.issue (Token.of uuid id offset index), uuid) ∧
        ∀ other ∈ s.tokens.entries, ¬ other.At id offset index) := by
  unfold ReadViews.next
  cases found : s.tokens.entries.find? fun row => decide (row.id = id ∧ row.offset = offset ∧ row.index = index) with
  | some row =>
    have place := List.find?_some found
    rw [decide_eq_true_eq] at place
    obtain ⟨rfl, rfl, rfl⟩ := place
    exact .inl ⟨rfl, List.mem_of_find?_eq_some found⟩
  | none => exact .inr ⟨rfl, fun other mem place => by simpa [place.1, place.2.1, place.2.2] using List.find?_eq_none.mp found other mem⟩

theorem next_token : Token.of (s.next uuid id offset index).2 id offset index ∈
    (s.next uuid id offset index).1.tokens.entries := by
  rcases next_cases s uuid id offset index with ⟨same, mem⟩ | ⟨drawn, -⟩
  · rw [same]
    exact mem
  · rw [drawn]
    exact Rows.mem_set.mpr (.inl rfl)

theorem next_prims (s : ReadViews Value) (offset index : Nat) (fresh : uuid ∉ used) (named : uuid ≠ "") (known : id ∈ used) :
    ∃ later, used ⊆ later ∧ later ⊆ insert uuid used ∧
      ReflTransGen Prim ⟨s, used⟩ ⟨(s.next uuid id offset index).1, later⟩ := by
  rcases next_cases s uuid id offset index with ⟨same, -⟩ | ⟨drawn, first⟩
  · rw [same]
    exact ⟨used, subset_rfl, Set.subset_insert _ _, .refl⟩
  · rw [drawn]
    exact ⟨insert uuid used, Set.subset_insert _ _, subset_rfl,
      .single (.issue s used (Token.of uuid id offset index) fresh named known first)⟩

theorem next_known {token : String} (places : ∀ row ∈ s.tokens.entries, ∀ other ∈ s.tokens.entries,
    other.At row.id row.offset row.index → other = row) (mem : Token.of token id offset index ∈ s.tokens.entries) :
    s.next uuid id offset index = (s, token) := by
  rcases next_cases s uuid id offset index with ⟨same, found⟩ | ⟨-, first⟩
  · have equal := places _ mem _ found ⟨rfl, rfl, rfl⟩
    unfold Token.of at equal
    rw [Token.mk.injEq] at equal
    exact Prod.ext same equal.1
  · exact absurd ⟨rfl, rfl, rfl⟩ (first _ mem)

end Next

structure Fresh (used : Set String) (uuid : Nat → String) : Prop where
  injective : Function.Injective uuid
  unused : ∀ i, uuid i ∉ used
  named : ∀ i, uuid i ≠ ""

section Cut
variable (kind : Kind Value Record Page) {s : ReadViews Value} {used : Set String} {uuid : Nat → String}
  {fits : Page → Bool} {c : Cursor Value} {records : List Record} {count : Nat}

theorem continuation_prims (s : ReadViews Value) (records : List Record) (injective : Function.Injective uuid) (named : ∀ i, uuid i ≠ "") (known : c.id ∈ used)
    (fresh : ∀ i, i ≤ count → uuid (i + 1) ∉ used) :
    ∃ later, used ⊆ later ∧ later ⊆ used ∪ Set.range uuid ∧ (∀ i, i < count → uuid (i + 1) ∉ later) ∧
      ReflTransGen Prim ⟨s, used⟩ ⟨(continuation s uuid c records.length count).1, later⟩ := by
  unfold continuation
  split
  · obtain ⟨later, grows, bound, prims⟩ := next_prims s (c.offset + count) (c.index + 1)
      (fresh count le_rfl) (named _) known
    refine ⟨later, grows, fun name mem => ?_, fun i below mem => ?_, prims⟩
    · rcases bound mem with rfl | old
      · exact .inr ⟨_, rfl⟩
      · exact .inl old
    · rcases bound mem with same | old
      · have equal := injective same
        omega
      · exact fresh i below.le old
  · exact ⟨used, subset_rfl, Set.subset_union_left, fun i below => fresh i below.le, .refl⟩

theorem cutPage_prims (fits : Page → Bool) (records : List Record) (injective : Function.Injective uuid) (named : ∀ i, uuid i ≠ "") (known : c.id ∈ used)
    (fresh : ∀ i, i ≤ count → uuid (i + 1) ∉ used) :
    ∃ later, used ⊆ later ∧ later ⊆ used ∪ Set.range uuid ∧
      ReflTransGen Prim ⟨s, used⟩ ⟨(cutPage kind uuid fits c records count s).1, later⟩ := by
  induction count using Nat.strong_induction_on generalizing s used with
  | _ count ih =>
    obtain ⟨later, grows, bound, unused, prims⟩ :=
      continuation_prims s records injective named known fresh
    unfold cutPage
    dsimp only
    split
    · exact ⟨later, grows, bound, prims.tail (.finish _ _ _ _)⟩
    split
    · exact ⟨later, grows, bound, prims.tail (.finish _ _ _ _)⟩
    · have smaller : count / 2 < count := by omega
      obtain ⟨last, grows', bound', prims'⟩ := ih (count / 2) smaller
        (s := (continuation s uuid c records.length count).1) (grows known) fun i below => unused i (by omega)
      refine ⟨last, grows.trans grows', bound'.trans ?_, prims.trans prims'⟩
      exact Set.union_subset bound Set.subset_union_right

theorem finish_continued {id : String} {row : Token} (mem : row ∈ s.tokens.entries) :
    row ∈ (s.finish id true).tokens.entries := by
  rcases finish_cases s id true with same | ⟨view, -, rfl, kept | ⟨-, impossible⟩⟩
  · rw [same]
    exact mem
  · rw [kept]
    exact mem
  · cases impossible

/-- The page that a cut gives: some of the records, and the token of the place after them if there are more. -/
structure Cut (c : Cursor Value) (records : List Record) (count : Nat) (t : ReadViews Value) (n : Nat)
    (token : Option String) : Prop where
  size : n ≤ count
  some : n = 0 → count = 0
  ended : token = none → records.length ≤ c.offset + n
  more : ∀ k, token = Option.some k → c.offset + n < records.length ∧
    Token.of k c.id (c.offset + n) (c.index + 1) ∈ t.tokens.entries

theorem continuation_cut (s : ReadViews Value) (uuid : Nat → String) (c : Cursor Value) (records : List Record) (count : Nat) :
    (continuation s uuid c records.length count).2 = none ∧ records.length ≤ c.offset + count ∨
    ∃ k, (continuation s uuid c records.length count).2 = some k ∧ c.offset + count < records.length ∧
      Token.of k c.id (c.offset + count) (c.index + 1) ∈ (continuation s uuid c records.length count).1.tokens.entries := by
  unfold continuation
  split
  · rename_i more
    exact .inr ⟨_, rfl, more, next_token⟩
  · rename_i ended
    exact .inl ⟨rfl, Nat.le_of_not_lt ended⟩

theorem cutPage_cases (uuid : Nat → String) (fits : Page → Bool) (c : Cursor Value) (records : List Record) (count : Nat)
    (s : ReadViews Value) : (cutPage kind uuid fits c records count s).2 = .error .limitExceeded ∨
    ∃ n token, (cutPage kind uuid fits c records count s).2 =
        .ok (kind.page c.id c.index c.value ((records.drop c.offset).take n) token) ∧
      Cut c records count (cutPage kind uuid fits c records count s).1 n token := by
  induction count using Nat.strong_induction_on generalizing s with
  | _ count ih =>
    unfold cutPage
    dsimp only
    split
    · refine .inr ⟨count, _, rfl, le_rfl, id, ?_, ?_⟩
      · intro none
        rcases continuation_cut s uuid c records count with
          ⟨-, ended⟩ | ⟨k, some, -⟩
        · exact ended
        · rw [some] at none
          cases none
      · intro k token
        rcases continuation_cut s uuid c records count with
          ⟨none, -⟩ | ⟨k', some, more, mem⟩
        · rw [none] at token
          cases token
        · rw [some] at token ⊢
          cases token
          exact ⟨more, finish_continued mem⟩
    split
    · exact .inl rfl
    · have smaller : count / 2 < count := by omega
      rcases ih (count / 2) smaller (s := (continuation s uuid c records.length count).1) with failed | ⟨n, token, page, cut⟩
      · exact .inl failed
      · refine .inr ⟨n, token, page, cut.size.trans smaller.le, fun zero => ?_, cut.ended, cut.more⟩
        have half := cut.some zero
        omega

theorem continuation_repeat {r t : ReadViews Value} {used later : Set String} (vuid : Nat → String)
    (known : c.id ∈ used) (keeps : Keeps ⟨(continuation s uuid c records.length count).1, used⟩ ⟨r, later⟩)
    (stays : ∃ view ∈ r.views.entries, view.id = c.id) (kept : ∀ row ∈ r.tokens.entries, row.id = c.id → row ∈ t.tokens.entries)
    (places : ∀ row ∈ t.tokens.entries, ∀ other ∈ t.tokens.entries, other.At row.id row.offset row.index → other = row) :
    continuation t vuid c records.length count = (t, (continuation s uuid c records.length count).2) := by
  obtain ⟨view, mem, name⟩ := stays
  obtain ⟨-, -, -, tokens⟩ := keeps.views view mem (name ▸ known)
  rcases continuation_cut s uuid c records count with ⟨none, ended⟩ | ⟨k, some, more, placed⟩
  · rw [none]
    unfold continuation
    rw [if_neg (Nat.not_lt.mpr ended)]
  · rw [some]
    have here := kept _ (tokens _ placed name.symm) rfl
    unfold continuation
    rw [if_pos more, next_known places here]

theorem cutPage_repeat {t : ReadViews Value} {vuid : Nat → String} (injective : Function.Injective uuid)
    (named : ∀ i, uuid i ≠ "") (known : c.id ∈ used) (fresh : ∀ i, i ≤ count → uuid (i + 1) ∉ used)
    (sound : System.Sound ⟨s, used⟩) (stays : ∃ view ∈ (cutPage kind uuid fits c records count s).1.views.entries, view.id = c.id)
    (kept : ∀ row ∈ (cutPage kind uuid fits c records count s).1.tokens.entries, row.id = c.id → row ∈ t.tokens.entries)
    (places : ∀ row ∈ t.tokens.entries, ∀ other ∈ t.tokens.entries, other.At row.id row.offset row.index → other = row) :
    (cutPage kind vuid fits c records count t).2 = (cutPage kind uuid fits c records count s).2 := by
  induction count using Nat.strong_induction_on generalizing s used with
  | _ count ih =>
    obtain ⟨later, grows, -, unused, prims⟩ := continuation_prims s records injective named known fresh
    have after := (prims_keep prims sound).1
    unfold cutPage at stays kept ⊢
    dsimp only at stays kept ⊢
    split at stays
    · rename_i fit
      rw [if_pos fit] at kept
      have same := continuation_repeat vuid (grows known) ((Prim.finish _ later _ _).keeps after) stays kept places
      rw [same, if_pos fit, if_pos fit]
    rename_i unfit
    rw [if_neg unfit] at kept
    split at stays
    · rename_i small
      rw [if_pos small] at kept
      have same := continuation_repeat vuid (grows known) ((Prim.finish _ later _ _).keeps after) stays kept places
      rw [same, if_neg unfit, if_neg unfit, if_pos small, if_pos small]
    · rename_i large
      rw [if_neg large] at kept
      have smaller : count / 2 < count := by omega
      have unused' : ∀ i, i ≤ count / 2 → uuid (i + 1) ∉ later := fun i below => unused i (by omega)
      obtain ⟨last, -, -, rest⟩ := cutPage_prims kind fits records injective named (grows known) unused'
      have same := continuation_repeat vuid (grows known) (prims_keep rest after).2 stays kept places
      rw [same, if_neg unfit, if_neg unfit, if_neg large, if_neg large]
      exact ih (count / 2) smaller (grows known) unused' after stays kept

end Cut

section Read
variable {s t : ReadViews Value} {used : Set String} {ttlMs now limit : Int} {uuid scope k : String} {query : PageQuery}
  {capture : Option Value} {measure : Value → Except Failure Nat} {c : Cursor Value}

def Placed (s : ReadViews Value) (c : Cursor Value) (scope : String) (limit : Int) : Prop :=
  ∃ view ∈ s.views.entries, view.id = c.id ∧ view.scope = scope ∧ view.limit = limit ∧ view.value = c.value

theorem resume_iff : s.resume scope limit k = .ok c ↔
    Token.of k c.id c.offset c.index ∈ s.tokens.entries ∧ Placed s c scope limit := by
  constructor
  · intro h
    unfold ReadViews.resume at h
    split at h
    · cases h
    rename_i row stored
    obtain ⟨present, rfl⟩ := Rows.get_iff.mp stored
    split at h
    · cases h
    rename_i view found
    obtain ⟨mem, name⟩ := Rows.get_iff.mp found
    split at h
    · cases h
    rename_i same
    cases h
    obtain ⟨owner, size⟩ := not_or.mp same
    exact ⟨present, view, mem, name, not_not.mp owner, not_not.mp size, rfl⟩
  · rintro ⟨present, view, mem, name, rfl, rfl, same⟩
    have stored : s.tokens.get k = some (Token.of k c.id c.offset c.index) := Rows.get_iff.mpr ⟨present, rfl⟩
    have found : s.views.get c.id = some view := Rows.get_iff.mpr ⟨mem, name⟩
    unfold ReadViews.resume
    rw [stored]
    dsimp only [Token.of]
    rw [found]
    simp [same]

theorem resume_error {e : Failure} (h : s.resume scope limit k = .error e) : e = .cursorExpired := by
  unfold ReadViews.resume at h
  split at h
  · cases h
    rfl
  split at h
  · cases h
    rfl
  split at h
  · cases h
    rfl
  · cases h

theorem retain_ok {expires : Int} (h : s.retain expires uuid scope limit capture measure = (t, .ok c)) :
    ∃ value bytes, capture = some value ∧ t = s.capture ⟨uuid, scope, expires, limit, value, bytes, false⟩ ∧
      c = ⟨uuid, 0, 0, value⟩ := by
  unfold ReadViews.retain at h
  split at h
  · cases h
  split at h
  · cases h
  rename_i value
  split at h
  · cases h
  rename_i bytes _
  split at h
  · cases h
  · cases h
    exact ⟨value, bytes, rfl, rfl, rfl⟩

theorem retain_error {expires : Int} {e : Failure}
    (h : (s.retain expires uuid scope limit capture measure).2 = .error e) :
    s.retain expires uuid scope limit capture measure = (s, .error e) := by
  unfold ReadViews.retain at h ⊢
  split
  · rename_i full
    rw [if_pos full] at h
    exact congrArg (Prod.mk s) h
  rename_i room
  rw [if_neg room] at h
  split
  · exact congrArg (Prod.mk s) h
  dsimp only at h
  split
  · rename_i measured
    rw [measured] at h
    exact congrArg (Prod.mk s) h
  · rename_i measured
    rw [measured] at h
    dsimp only at h
    split
    · rename_i large
      rw [if_pos large] at h
      exact congrArg (Prod.mk s) h
    · rename_i fits
      rw [if_neg fits] at h
      cases h

theorem read_continue (given : query.continuation = some k) (named : k ≠ "") :
    s.read ttlMs now uuid scope query capture measure =
      if query.limit < 1 ∨ 256 < query.limit then (s, .error .invalidInput)
      else (s.dropExpired now, (s.dropExpired now).resume scope query.limit k) := by
  have kept : (some k).filter (fun text => decide (text ≠ "")) = some k := by simp [Option.filter, named]
  unfold ReadViews.read
  rw [given, kept]

theorem read_capture (none : query.continuation = none ∨ query.continuation = some "") :
    s.read ttlMs now uuid scope query capture measure =
      if query.limit < 1 ∨ 256 < query.limit then (s, .error .invalidInput)
      else (s.dropExpired now).retain (now + ttlMs) uuid scope query.limit capture measure := by
  unfold ReadViews.read
  rcases none with none | none <;> rw [none] <;> rfl

theorem continuation_cases (query : PageQuery) :
    (∃ k, query.continuation = some k ∧ k ≠ "") ∨ query.continuation = none ∨ query.continuation = some "" := by
  cases query.continuation with
  | none => exact .inr (.inl rfl)
  | some k =>
    by_cases named : k = ""
    · exact .inr (.inr (named ▸ rfl))
    · exact .inl ⟨k, rfl, named⟩

theorem read_prims (s : ReadViews Value) (ttlMs now : Int) (scope : String) (query : PageQuery) (capture : Option Value)
    (measure : Value → Except Failure Nat) (fresh : uuid ∉ used) : ∃ later, used ⊆ later ∧ later ⊆ insert uuid used ∧
    ReflTransGen Prim ⟨s, used⟩ ⟨(s.read ttlMs now uuid scope query capture measure).1, later⟩ ∧
    ∀ c, (s.read ttlMs now uuid scope query capture measure).2 = .ok c →
      Placed (s.read ttlMs now uuid scope query capture measure).1 c scope query.limit := by
  rcases continuation_cases query with ⟨k, given, named⟩ | none
  · rw [read_continue given named]
    split
    · exact ⟨used, subset_rfl, Set.subset_insert _ _, .refl, nofun⟩
    · exact ⟨used, subset_rfl, Set.subset_insert _ _, .single (.expire s used now), fun c resumed => (resume_iff.mp resumed).2⟩
  · rw [read_capture none]
    split
    · exact ⟨used, subset_rfl, Set.subset_insert _ _, .refl, nofun⟩
    have expired : ReflTransGen Prim ⟨s, used⟩ ⟨s.dropExpired now, used⟩ := .single (.expire s used now)
    generalize result : (s.dropExpired now).retain (now + ttlMs) uuid scope query.limit capture measure = r
    obtain ⟨t, outcome⟩ := r
    cases outcome with
    | error e =>
      have same := retain_error (e := e) (congrArg Prod.snd result)
      rw [result] at same
      cases same
      exact ⟨used, subset_rfl, Set.subset_insert _ _, expired, nofun⟩
    | ok c =>
      obtain ⟨value, bytes, -, rfl, rfl⟩ := retain_ok result
      refine ⟨_, Set.subset_insert _ _, subset_rfl, expired.tail (.capture _ used _ fresh), fun c same => ?_⟩
      cases same
      exact ⟨_, Rows.mem_set.mpr (.inl rfl), rfl, rfl, rfl, rfl⟩

end Read

section Read
variable (kind : Kind Value Record Page) {s t : ReadViews Value} {used : Set String} {ttlMs : Int} {x : Exchange Value Page}
  {scope : String} {query : PageQuery}

theorem readPage_cases (ttlMs : Int) (x : Exchange Value Page) (s : ReadViews Value) (scope : String) (query : PageQuery) :
    (∃ e, readPage kind ttlMs x s scope query = ((s.read ttlMs x.now (x.uuid 0) scope query x.capture x.measure).1, .error e) ∧
        ((s.read ttlMs x.now (x.uuid 0) scope query x.capture x.measure).2 = .error e ∨
          ∃ c, (s.read ttlMs x.now (x.uuid 0) scope query x.capture x.measure).2 = .ok c ∧
            ((kind.records c.value = none ∧ e = .thrown) ∨
              ∃ records, kind.records c.value = some records ∧ records.length < c.offset ∧ e = .cursorExpired))) ∨
      ∃ c records, (s.read ttlMs x.now (x.uuid 0) scope query x.capture x.measure).2 = .ok c ∧
        kind.records c.value = some records ∧ c.offset ≤ records.length ∧
        readPage kind ttlMs x s scope query = cutPage kind x.uuid x.fits c records
          (min query.limit.toNat (records.length - c.offset))
          (s.read ttlMs x.now (x.uuid 0) scope query x.capture x.measure).1 := by
  unfold readPage
  generalize s.read ttlMs x.now (x.uuid 0) scope query x.capture x.measure = r
  obtain ⟨t, outcome⟩ := r
  cases outcome with
  | error e => exact .inl ⟨e, rfl, .inl rfl⟩
  | ok c =>
    dsimp only
    cases found : kind.records c.value with
    | none => exact .inl ⟨_, rfl, .inr ⟨c, rfl, .inl ⟨found, rfl⟩⟩⟩
    | some records =>
      dsimp only
      split
      · rename_i past
        exact .inl ⟨_, rfl, .inr ⟨c, rfl, .inr ⟨records, found, past, rfl⟩⟩⟩
      · rename_i inside
        exact .inr ⟨c, records, rfl, found, Nat.le_of_not_lt inside, rfl⟩

theorem readPage_rest {middle : Set String} (ttlMs : Int) (x : Exchange Value Page) (s : ReadViews Value) (scope : String)
    (query : PageQuery) (injective : Function.Injective x.uuid) (named : ∀ i, x.uuid i ≠ "")
    (unused : ∀ i, x.uuid (i + 1) ∉ middle)
    (sound : System.Sound ⟨(s.read ttlMs x.now (x.uuid 0) scope query x.capture x.measure).1, middle⟩)
    (placed : ∀ c, (s.read ttlMs x.now (x.uuid 0) scope query x.capture x.measure).2 = .ok c →
      Placed (s.read ttlMs x.now (x.uuid 0) scope query x.capture x.measure).1 c scope query.limit) :
    ∃ later, middle ⊆ later ∧ later ⊆ middle ∪ Set.range x.uuid ∧
      ReflTransGen Prim ⟨(s.read ttlMs x.now (x.uuid 0) scope query x.capture x.measure).1, middle⟩
        ⟨(readPage kind ttlMs x s scope query).1, later⟩ := by
  rcases readPage_cases kind ttlMs x s scope query with ⟨e, page, -⟩ | ⟨c, records, cursor, -, -, page⟩
  · rw [page]
    exact ⟨middle, subset_rfl, Set.subset_union_left, .refl⟩
  · rw [page]
    obtain ⟨view, mem, name, -⟩ := placed c cursor
    have known : c.id ∈ middle := name ▸ sound.views view mem
    exact cutPage_prims kind x.fits records injective named known fun i _ => unused i

theorem readPage_prims (s : ReadViews Value) (fresh : Fresh used x.uuid) (sound : System.Sound ⟨s, used⟩) :
    ∃ later, used ⊆ later ∧ later ⊆ used ∪ Set.range x.uuid ∧
      ReflTransGen Prim ⟨s, used⟩ ⟨(readPage kind ttlMs x s scope query).1, later⟩ := by
  obtain ⟨middle, grows, bound, prims, placed⟩ := read_prims s ttlMs x.now scope query x.capture x.measure (fresh.unused 0)
  have within : middle ⊆ used ∪ Set.range x.uuid := by
    refine bound.trans (Set.insert_subset (.inr ⟨0, rfl⟩) Set.subset_union_left)
  have unused (i : Nat) : x.uuid (i + 1) ∉ middle := by
    intro drawn
    rcases bound drawn with same | old
    · have equal := fresh.injective same
      omega
    · exact fresh.unused _ old
  obtain ⟨later, more, drawn, rest⟩ :=
    readPage_rest kind ttlMs x s scope query fresh.injective fresh.named unused (prims_keep prims sound).1 placed
  exact ⟨later, grows.trans more, drawn.trans (Set.union_subset within Set.subset_union_right), prims.trans rest⟩

end Read

end RssMdmAgent.PagedReads
