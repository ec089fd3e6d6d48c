import RssMdmAgent.CollectedSnapshots

set_option autoImplicit false

/-! # Reading one stored collection page by page -/

namespace RssMdmAgent.CollectedPages
open OrderedRows CollectedValues ProjectionStore CollectedSnapshots

inductive DataSelection where
  | query (query : QueryRef)
  | request (request : String)
  deriving DecidableEq

structure DataRead where
  selection : DataSelection
  after : Option DataCursor
  limit : Nat
  maxAge : Option Nat

def maxPageBytes : Nat := 48 * 1024

structure Access (V : Type) where
  definition : QueryRef → Except Error Unit
  policyRead : QueryRef → Except Error Unit
  readAssociation : String → Except Error QueryRef
  redactor : Redactor V

section Reading
variable {V R : Type} (e : Encoding V) (digest : CollectedData V → String) (s : CollectedStore (Record V R))

def Access.resolve (a : Access V) : DataSelection → Except Error (QueryRef × String)
  | .query query => do
    if hasPrefix "native:" query.id then a.definition query
    else if hasPrefix "policy:" query.id then a.policyRead query
    pure (query, latestKey query.id)
  | .request request => do
    let query ← a.readAssociation request
    pure (query, resultKey request)

def DataSelection.key : DataSelection → String
  | .query q => latestKey q.id
  | .request r => resultKey r

def fill (page : CollectedData V) : List V → CollectedData V
  | [] => page
  | row :: rest =>
    let pushed := { page with rows := page.rows ++ [row] }
    if maxPageBytes < pushed.size e then page else fill pushed rest

def startOf (snapshot : String) : Option DataCursor → Except Error Nat
  | some cursor => if cursor.snapshot ≠ snapshot then throw .conflict else pure cursor.offset
  | none => pure 0

def staleAt (maxAge : Option Nat) (now : Nat) (value : CollectedData V) : Bool :=
  maxAge.any fun age => value.collectedAt.all fun collected => decide (age < now - collected)

/-- The page of a value from a position. -/
def pageFrom (value : CollectedData V) (snapshot : String) (offset : Nat) (input : DataRead) (now : Nat) :
    Except Error (CollectedData V) := do
  if value.rows.length < offset then throw .protocol
  let all := value.rows
  let value := { value with rows := [] }
  if maxPageBytes < value.size e then throw .capacity
  let value := fill e value ((all.drop offset).take input.limit)
  if offset < all.length ∧ value.rows = [] then throw .capacity
  let last := offset + value.rows.length
  pure { value with
    next := if last < all.length then some ⟨snapshot, last % 2 ^ 32⟩ else none
    stale := staleAt input.maxAge now value }

def readPage (a : Access V) (input : DataRead) (now : Nat) : Except Error (CollectedData V × String) := do
  if ¬ (1 ≤ input.limit ∧ input.limit ≤ 128) then throw .capacity
  let (query, key) ← a.resolve input.selection
  let value := (← latest e s key).getD (empty query none .notCollected)
  if ¬ (← a.redactor.safe value) then throw .denied
  let snapshot := digest value
  let offset ← startOf snapshot input.after
  let value ← pageFrom e value snapshot offset input now
  pure (value, snapshot)

end Reading

section Slices
variable {V : Type} (e : Encoding V) (digest : CollectedData V → String) (v : CollectedData V) (o k : Nat)

def slice : CollectedData V := { v with rows := (v.rows.drop o).take k }

def page (stale : Bool) : CollectedData V :=
  { slice v o k with
    next := if o + k < v.rows.length then some ⟨digest v, o + k⟩ else none
    stale }

variable {e digest v o k}

theorem slice_mono {j : Nat} (h : j ≤ k) : (slice v o j).size e ≤ (slice v o k).size e := by
  rw [size_eq, size_eq]
  have := rowsSize_mono (e := e) ((List.take_prefix_take_left (l := v.rows.drop o) h).sublist)
  simp only [slice, CollectedData.frame] at this ⊢
  omega

theorem page_size_le (stale : Bool) : (page digest v o k stale).size e ≤ (page digest v o k false).size e := by
  cases stale with
  | false => exact Nat.le_refl _
  | true =>
    rw [size_eq, size_eq]
    have flag : boolSize true ≤ boolSize false := by decide
    exact Nat.add_le_add_right (Nat.add_le_add_left flag _) _

theorem fill_slice (m : Nat) (inside : o + k ≤ v.rows.length) (fits : (slice v o k).size e ≤ maxPageBytes) :
    ∃ j, fill e (slice v o k) ((v.rows.drop (o + k)).take m) = slice v o (k + j) ∧ j ≤ m ∧
      o + k + j ≤ v.rows.length ∧ (slice v o (k + j)).size e ≤ maxPageBytes ∧
      (j = m ∨ v.rows.length ≤ o + k + j ∨ maxPageBytes < (slice v o (k + j + 1)).size e) := by
  induction m generalizing k with
  | zero => exact ⟨0, rfl, Nat.le_refl _, inside, fits, .inl rfl⟩
  | succ m ih =>
    cases left : v.rows.drop (o + k) with
    | nil =>
      refine ⟨0, rfl, Nat.zero_le _, inside, fits, .inr (.inl ?_)⟩
      simpa using left
    | cons row rest =>
      have more : o + k < v.rows.length := by
        by_contra done
        rw [List.drop_eq_nil_of_le (Nat.le_of_not_lt done)] at left
        cases left
      have next : v.rows.drop (o + (k + 1)) = rest := by
        rw [← Nat.add_assoc, ← List.drop_drop, left]
        rfl
      have pushed : { slice v o k with rows := (slice v o k).rows ++ [row] } = slice v o (k + 1) := by
        unfold slice
        rw [List.take_add_one, List.getElem?_drop, ← List.head?_drop, left]
        rfl
      rw [List.take_succ_cons]
      unfold fill
      simp only [pushed]
      split
      · rename_i large
        exact ⟨0, rfl, Nat.zero_le _, inside, fits, .inr (.inr large)⟩
      · rename_i small
        obtain ⟨j, filled, bound, within, fit, stop⟩ := ih (k := k + 1) (by omega) (Nat.le_of_not_lt small)
        rw [next] at filled
        rw [show k + 1 + j = k + (j + 1) by omega] at filled fit stop
        refine ⟨j + 1, filled, by omega, by omega, fit, ?_⟩
        rcases stop with rfl | stop | stop
        · exact .inl rfl
        · exact .inr (.inl (by omega))
        · exact .inr (.inr stop)

end Slices

section Runs
variable {V R : Type} (e : Encoding V) (digest : CollectedData V → String) (s : CollectedStore (Record V R))
  (selection : DataSelection) (v : CollectedData V)

structure Call (V : Type) where
  access : Access V
  limit : Nat
  maxAge : Option Nat
  now : Nat

def Call.read (c : Call V) (after : Option DataCursor) : Except Error (CollectedData V × String) :=
  readPage e digest s c.access ⟨selection, after, c.limit, c.maxAge⟩ c.now

/-- The pages of a reader that follows every cursor until there is none, or stops calling. -/
def follow (after : Option DataCursor) : List (Call V) → Except Error (List (CollectedData V))
  | [] => pure []
  | call :: rest => do
    let (page, _) ← call.read e digest s selection after
    match page.next with
    | none => pure [page]
    | some cursor => do
      let pages ← follow (some cursor) rest
      pure (page :: pages)

structure Admitted (c : Call V) : Prop where
  limit : 1 ≤ c.limit ∧ c.limit ≤ 128
  resolved : ∃ q, c.access.resolve selection = .ok (q, selection.key)
  safe : c.access.redactor.safe v = .ok true

/-- Reading to the end: all rows once and in order, on pages within the limit; the cursor of another value is refused. -/
structure ReadToEnd : Prop where
  pages : ∀ calls : List (Call V), (∀ c ∈ calls, Admitted selection v c) →
    ∃ pages, follow e digest s selection none calls = .ok pages ∧
      pages.flatMap CollectedData.rows <+: v.rows ∧
      (v.rows.length ≤ calls.length → calls ≠ [] →
        pages.flatMap CollectedData.rows = v.rows ∧ ∀ last ∈ pages.getLast?, last.next = none) ∧
      ∀ p ∈ pages, p.size e ≤ maxPageBytes
  conflict : ∀ other : CollectedData V, other ≠ v → ∀ c : Call V, Admitted selection v c → ∀ offset,
    c.read e digest s selection (some ⟨digest other, offset⟩) = .error .conflict

structure Fits : Prop where
  frame : (slice v 0 0).size e ≤ maxPageBytes
  row : ∀ o < v.rows.length, (slice v o 1).size e ≤ maxPageBytes
  cursor : ∀ o k, o + k ≤ v.rows.length → k ≤ 128 → (0 < k ∨ v.rows.length = 0) →
    (slice v o k).size e ≤ maxPageBytes → (page digest v o k false).size e ≤ maxPageBytes

variable {e digest s selection v} {c : Call V} {o : Nat} {after : Option DataCursor}

def From (digest : CollectedData V → String) (v : CollectedData V) (o : Nat) : Option DataCursor → Prop
  | none => o = 0
  | some cursor => cursor = ⟨digest v, o⟩

theorem startOf_from (start : From digest v o after) : startOf (digest v) after = .ok o := by
  cases after with
  | none => exact congrArg Except.ok start.symm
  | some cursor =>
    cases start
    exact if_neg fun differ => differ rfl

theorem read_eq (present : latest e s selection.key = .ok (some v)) (admitted : Admitted selection v c) :
    c.read e digest s selection after = (do
      let offset ← startOf (digest v) after
      let value ← pageFrom e v (digest v) offset ⟨selection, after, c.limit, c.maxAge⟩ c.now
      pure (value, digest v)) := by
  obtain ⟨q, resolved⟩ := admitted.resolved
  unfold Call.read readPage
  simp only [resolved, present, admitted.limit, and_self, not_true, if_false, bind, Except.bind, pure, Except.pure,
    Option.getD_some, admitted.safe]

variable (digest) in
theorem pageFrom_eq (input : DataRead) (now : Nat) (inside : o ≤ v.rows.length) (word : v.rows.length < 2 ^ 32)
    (frame : (slice v 0 0).size e ≤ maxPageBytes) :
    ∃ k, k ≤ input.limit ∧ o + k ≤ v.rows.length ∧ (slice v o k).size e ≤ maxPageBytes ∧
      (k = input.limit ∨ v.rows.length ≤ o + k ∨ maxPageBytes < (slice v o (k + 1)).size e) ∧
      pageFrom e v (digest v) o input now =
        if o < v.rows.length ∧ k = 0 then .error .capacity else .ok (page digest v o k (staleAt input.maxAge now v)) := by
  have start : (slice v o 0).size e ≤ maxPageBytes := frame
  obtain ⟨j, filled, bound, within, fit, stop⟩ := fill_slice input.limit (k := 0) inside start
  rw [Nat.zero_add] at filled fit stop
  rw [Nat.add_zero] at filled within stop
  have taken : (slice v o j).rows.length = j := by
    rw [slice, List.length_take, List.length_drop]
    omega
  refine ⟨j, bound, within, fit, stop, ?_⟩
  unfold pageFrom
  have empty : { v with rows := [] } = slice v o 0 := rfl
  simp only [if_neg (Nat.not_lt.mpr inside), bind, Except.bind, pure, Except.pure, empty,
    if_neg (Nat.not_lt.mpr start), filled, taken, Nat.mod_eq_of_lt (Nat.lt_of_le_of_lt within word)]
  by_cases stuck : o < v.rows.length ∧ j = 0
  · rw [if_pos stuck, if_pos ⟨stuck.1, List.length_eq_zero_iff.mp (taken.trans stuck.2)⟩]
    rfl
  · rw [if_neg stuck, if_neg fun h => stuck ⟨h.1, taken.symm.trans (List.length_eq_zero_iff.mpr h.2)⟩]
    rfl

theorem read_page (present : latest e s selection.key = .ok (some v)) (word : v.rows.length < 2 ^ 32)
    (admitted : Admitted selection v c) (start : From digest v o after) (inside : o ≤ v.rows.length)
    (frame : (slice v 0 0).size e ≤ maxPageBytes) :
    ∃ k, k ≤ c.limit ∧ o + k ≤ v.rows.length ∧ (slice v o k).size e ≤ maxPageBytes ∧
      (k = c.limit ∨ v.rows.length ≤ o + k ∨ maxPageBytes < (slice v o (k + 1)).size e) ∧
      c.read e digest s selection after =
        if o < v.rows.length ∧ k = 0 then .error .capacity
        else .ok (page digest v o k (staleAt c.maxAge c.now v), digest v) := by
  obtain ⟨k, bound, within, fit, stop, answer⟩ := pageFrom_eq digest
    ⟨selection, after, c.limit, c.maxAge⟩ c.now inside word frame
  refine ⟨k, bound, within, fit, stop, ?_⟩
  rw [read_eq present admitted, startOf_from start]
  simp only [bind, Except.bind, answer]
  by_cases stuck : o < v.rows.length ∧ k = 0
  · rw [if_pos stuck, if_pos stuck]
  · rw [if_neg stuck, if_neg stuck]
    rfl

theorem read_fits (fits : Fits e digest v) (present : latest e s selection.key = .ok (some v))
    (word : v.rows.length < 2 ^ 32) (admitted : Admitted selection v c) (start : From digest v o after)
    (inside : o < v.rows.length ∨ (o = 0 ∧ v.rows.length = 0)) :
    ∃ k, o + k ≤ v.rows.length ∧ (0 < k ∨ v.rows.length = 0) ∧
      (page digest v o k (staleAt c.maxAge c.now v)).size e ≤ maxPageBytes ∧
      c.read e digest s selection after = .ok (page digest v o k (staleAt c.maxAge c.now v), digest v) := by
  obtain ⟨k, bound, within, fit, stop, answer⟩ :=
    read_page present word admitted start (by omega) fits.frame
  have limit := admitted.limit
  have moves : 0 < k ∨ v.rows.length = 0 := by
    rcases inside with inside | ⟨_, none⟩
    · rcases stop with stop | stop | large
      · exact .inl (by omega)
      · exact .inl (by omega)
      · left
        by_contra stuck
        rw [Nat.eq_zero_of_not_pos stuck] at large
        exact absurd large (Nat.not_lt.mpr (fits.row o inside))
    · exact .inr none
  refine ⟨k, within, moves, ?_, ?_⟩
  · exact Nat.le_trans (page_size_le _) (fits.cursor o k within (by omega) moves fit)
  · rw [answer, if_neg fun h => by omega]

theorem follow_fits (fits : Fits e digest v) (present : latest e s selection.key = .ok (some v))
    (word : v.rows.length < 2 ^ 32) : ∀ (calls : List (Call V)) (o : Nat) (after : Option DataCursor),
    (∀ c ∈ calls, Admitted selection v c) → From digest v o after →
    (o < v.rows.length ∨ (o = 0 ∧ v.rows.length = 0)) →
    ∃ pages, follow e digest s selection after calls = .ok pages ∧
      pages.flatMap CollectedData.rows <+: v.rows.drop o ∧
      (v.rows.length ≤ o + calls.length → calls ≠ [] →
        pages.flatMap CollectedData.rows = v.rows.drop o ∧ pages ≠ [] ∧ ∀ last ∈ pages.getLast?, last.next = none) ∧
      ∀ p ∈ pages, p.size e ≤ maxPageBytes := by
  intro calls
  induction calls with
  | nil => exact fun o after _ _ _ => ⟨[], rfl, List.nil_prefix, fun _ some => absurd rfl some, by simp⟩
  | cons call rest ih =>
    intro o after admitted start inside
    obtain ⟨here, later⟩ := List.forall_mem_cons.mp admitted
    obtain ⟨k, within, moves, small, answer⟩ := read_fits fits present word here start inside
    have rows : (page digest v o k (staleAt call.maxAge call.now v)).rows = (v.rows.drop o).take k := rfl
    unfold follow
    simp only [answer, bind, Except.bind]
    by_cases more : o + k < v.rows.length
    · have next : (page digest v o k (staleAt call.maxAge call.now v)).next = some ⟨digest v, o + k⟩ := if_pos more
      obtain ⟨pages, read, order, done, sizes⟩ := ih (o + k) (some ⟨digest v, o + k⟩) later rfl (.inl more)
      have parts : v.rows.drop o = (v.rows.drop o).take k ++ v.rows.drop (o + k) := by
        rw [← List.drop_drop, List.take_append_drop]
      simp only [next, read]
      refine ⟨_, rfl, ?_, fun enough _ => ?_, ?_⟩
      · rw [List.flatMap_cons, rows, parts, List.take_left' (by simp; omega)]
        exact (List.prefix_append_right_inj _).mpr order
      · rw [List.length_cons] at enough
        have left : rest ≠ [] := by
          rintro rfl
          simp at enough
          omega
        obtain ⟨all, some, last⟩ := done (by omega) left
        refine ⟨?_, by simp, ?_⟩
        · rw [List.flatMap_cons, all, rows, ← parts]
        · rw [List.getLast?_cons_of_ne_nil some]
          exact last
      · exact List.forall_mem_cons.mpr ⟨small, sizes⟩
    · have next : (page digest v o k (staleAt call.maxAge call.now v)).next = none := if_neg more
      have all : (v.rows.drop o).take k = v.rows.drop o := List.take_of_length_le (by rw [List.length_drop]; omega)
      simp only [next]
      refine ⟨_, rfl, ?_, fun _ _ => ⟨?_, by simp, ?_⟩, ?_⟩
      · simp [rows, all]
      · simp [rows, all]
      · simpa using next
      · simpa using small

/-- A fresh call of a caller to whom everything is open. -/
def openCall (limit : Nat) : Call V where
  access := {
    definition := fun _ => pure ()
    policyRead := fun _ => pure ()
    readAssociation := fun _ => pure ⟨"", ""⟩
    redactor := ⟨fun _ => pure true, fun _ => pure true⟩ }
  limit
  maxAge := none
  now := 0

theorem openCall_admitted {limit : Nat} (h : 1 ≤ limit ∧ limit ≤ 128) :
    Admitted selection v (openCall (V := V) limit) := by
  refine ⟨h, ?_, rfl⟩
  cases selection with
  | query q =>
    refine ⟨q, ?_⟩
    unfold Access.resolve openCall
    simp only [bind, Except.bind, pure, Except.pure, ite_self]
    rfl
  | request r => exact ⟨⟨"", ""⟩, rfl⟩

theorem frame_of_read {answer : CollectedData V × String} (present : latest e s selection.key = .ok (some v))
    (admitted : Admitted selection v c) (read : c.read e digest s selection after = .ok answer) :
    (slice v 0 0).size e ≤ maxPageBytes := by
  by_contra large
  have large' : maxPageBytes < ({ v with rows := [] } : CollectedData V).size e := Nat.lt_of_not_le large
  rw [read_eq present admitted] at read
  simp only [bind, Except.bind] at read
  split at read
  · cases read
  · unfold pageFrom at read
    simp only [bind, Except.bind, if_pos large'] at read
    split at read
    · cases read
    · rename_i found
      split at found
      · cases found
      · cases found

theorem follow_singles (present : latest e s selection.key = .ok (some v)) (word : v.rows.length < 2 ^ 32)
    {rest : List (Call V)} : ∀ (m o : Nat) (after : Option DataCursor) (pages : List (CollectedData V)),
    From digest v o after → o + m < v.rows.length →
    follow e digest s selection after (List.replicate m (openCall 1) ++ rest) = .ok pages →
    ∃ after' pages', From digest v (o + m) after' ∧ follow e digest s selection after' rest = .ok pages' ∧
      ∀ p ∈ pages', p ∈ pages
  | 0, o, after, pages, start, _, read => ⟨after, pages, start, read, fun _ mem => mem⟩
  | m + 1, o, after, pages, start, inside, read => by
    have admitted : Admitted selection v (openCall (V := V) 1) := openCall_admitted (by omega)
    rw [List.replicate_succ, List.cons_append] at read
    unfold follow at read
    simp only [bind, Except.bind] at read
    split at read
    · cases read
    rename_i answer answered
    obtain ⟨k, bound, within, -, -, shape⟩ := read_page present word admitted start (by omega)
      (frame_of_read present admitted answered)
    have one : k ≤ 1 := bound
    rw [shape] at answered
    split at answered
    · cases answered
    rename_i moves
    cases answered
    have next : (page digest v o k (staleAt (openCall 1 : Call V).maxAge (openCall 1 : Call V).now v)).next =
        some ⟨digest v, o + k⟩ := if_pos (by omega)
    simp only [next] at read
    split at read
    · cases read
    rename_i others followed
    cases read
    have step : k = 1 := by omega
    obtain ⟨after', pages', from', follow', sub⟩ := follow_singles present word m (o + 1) _ others (step ▸ rfl)
      (by omega) followed
    refine ⟨after', pages', ?_, follow', fun p mem => List.mem_cons_of_mem _ (sub p mem)⟩
    rwa [show o + (m + 1) = o + 1 + m by omega]

/-- The page of an open call at a position that readers reach. -/
theorem reached_page (whole : ReadToEnd e digest s selection v) (present : latest e s selection.key = .ok (some v))
    (word : v.rows.length < 2 ^ 32) (limit : Nat) (allowed : 1 ≤ limit ∧ limit ≤ 128)
    (inside : o < v.rows.length ∨ (o = 0 ∧ v.rows.length = 0)) :
    ∃ k, k ≤ limit ∧ o + k ≤ v.rows.length ∧ (slice v o k).size e ≤ maxPageBytes ∧
      (k = limit ∨ v.rows.length ≤ o + k ∨ maxPageBytes < (slice v o (k + 1)).size e) ∧
      (o < v.rows.length → 0 < k) ∧ (page digest v o k false).size e ≤ maxPageBytes := by
  have one : Admitted selection v (openCall (V := V) 1) := openCall_admitted (by omega)
  have admitted : Admitted selection v (openCall (V := V) limit) := openCall_admitted allowed
  obtain ⟨pages, followed, -, -, sizes⟩ := whole.pages (List.replicate o (openCall 1) ++ [openCall limit])
    (by
      intro c mem
      rcases List.mem_append.mp mem with mem | mem
      · exact (List.mem_replicate.mp mem).2 ▸ one
      · exact List.mem_singleton.mp mem ▸ admitted)
  have there : ∃ after pages', From digest v o after ∧
      follow e digest s selection after [openCall limit] = .ok pages' ∧ ∀ p ∈ pages', p ∈ pages := by
    rcases inside with inside | ⟨rfl, -⟩
    · have := follow_singles present word o 0 none pages rfl (by omega) followed
      rwa [Nat.zero_add] at this
    · exact ⟨none, pages, rfl, followed, fun _ mem => mem⟩
  obtain ⟨after, pages', start, last, sub⟩ := there
  unfold follow at last
  simp only [bind, Except.bind] at last
  split at last
  · cases last
  rename_i answer answered
  obtain ⟨k, bound, within, fit, stop, shape⟩ := read_page present word admitted start (by omega)
    (frame_of_read present admitted answered)
  rw [shape] at answered
  split at answered
  · cases answered
  rename_i moves
  cases answered
  have mem : page digest v o k false ∈ pages' := by
    split at last
    · cases last
      exact List.mem_singleton.mpr rfl
    · cases last
      exact List.mem_cons_self
  exact ⟨k, bound, within, fit, stop, by omega, sizes _ (sub _ mem)⟩

theorem fits_of_read (whole : ReadToEnd e digest s selection v) (present : latest e s selection.key = .ok (some v))
    (word : v.rows.length < 2 ^ 32) : Fits e digest v := by
  have one : (1 : Nat) ≤ 1 ∧ (1 : Nat) ≤ 128 := by omega
  refine ⟨?_, fun o inside => ?_, fun o k within bound moves fit => ?_⟩
  · have start : (0 : Nat) < v.rows.length ∨ ((0 : Nat) = 0 ∧ v.rows.length = 0) := by omega
    obtain ⟨k, -, -, fit, -⟩ := reached_page whole present word 1 one start
    exact Nat.le_trans (slice_mono (Nat.zero_le k)) fit
  · obtain ⟨k, bound, -, fit, -, moves, -⟩ := reached_page whole present word 1 one (.inl inside)
    have := moves inside
    rwa [show k = 1 by omega] at fit
  · rcases Nat.eq_zero_or_pos v.rows.length with none | some
    · obtain ⟨j, -, reach, -, -, -, size⟩ := reached_page (o := 0) whole present word 1 one (.inr ⟨rfl, none⟩)
      rw [show o = 0 by omega, show k = 0 by omega]
      rwa [show j = 0 by omega] at size
    · have inside : o < v.rows.length := by omega
      obtain ⟨j, upper, -, -, stop, -, size⟩ := reached_page whole present word k (by omega) (.inl inside)
      have same : j = k := by
        rcases stop with stop | stop | large
        · exact stop
        · omega
        · by_contra differ
          exact absurd (Nat.le_trans (slice_mono (by omega)) fit) (Nat.not_le.mpr large)
      rwa [same] at size

theorem bounded_word {r : Redactor V} {input : CollectedData V} (stored : bounded e r input = .ok v) :
    v.rows.length < 2 ^ 32 := by
  have total := (bounded_kept stored).rows
  have := length_le_sum (e := e) v.rows
  unfold maxRowBytes at total
  omega

/-- A stored value is read to its end, by every sequence of calls, exactly when it fits. -/
theorem readToEnd_iff {r : Redactor V} {input : CollectedData V} (stored : bounded e r input = .ok v)
    (present : latest e s selection.key = .ok (some v)) (collisionFree : ∀ other, digest other = digest v → other = v) :
    ReadToEnd e digest s selection v ↔ Fits e digest v := by
  have word := bounded_word stored
  constructor
  · exact fun whole => fits_of_read whole present word
  · intro fits
    refine ⟨fun calls admitted => ?_, fun other differ c admitted offset => ?_⟩
    · have start : (0 : Nat) < v.rows.length ∨ ((0 : Nat) = 0 ∧ v.rows.length = 0) := by omega
      obtain ⟨pages, read, order, done, sizes⟩ := follow_fits fits present word calls 0 none admitted rfl start
      refine ⟨pages, read, order, fun enough some => ?_, sizes⟩
      obtain ⟨all, -, last⟩ := done (by omega) some
      exact ⟨all, last⟩
    · have refused : startOf (digest v) (some ⟨digest other, offset⟩) = .error .conflict :=
        if_pos fun same => differ (collisionFree other same)
      rw [read_eq present admitted, refused]
      rfl

end Runs

section Samples

def texts : Encoding String := ⟨JsonDocument.textSize, fun _ => Nat.lt_of_lt_of_le (by decide) (Nat.le_add_right 2 _)⟩

def sampleQuery : QueryRef := ⟨"policy:1", "0000000000000000000000000000000000000000000000000000000000000000"⟩

def sampleValue (rows : List String) : CollectedData String :=
  { CollectedValues.empty sampleQuery none .complete with collectedAt := some 10, enumerationComplete := true, rows }

def sampleStore (rows : List String) : CollectedStore (Record String Unit) where
  space := "local-data/"
  bytes := 16 * 1024 * 1024
  records := 1024
  table := ⟨[("local-data/latest/policy:1", .collected (sampleValue rows))], List.nodup_singleton _⟩

def openRedactor : Redactor String := ⟨fun _ => pure true, fun _ => pure true⟩

def sampleDigest (rows : List String) (v : CollectedData String) : String :=
  if v = sampleValue rows then "ecf982bc45b0a91b4aee47bb12210fb3a81fcfebbca9d10c3e30449a3c7f20fa"
  else "0000000000000000000000000000000000000000000000000000000000000000"

theorem sampleDigest_free (rows : List String) (other : CollectedData String)
    (same : sampleDigest rows other = sampleDigest rows (sampleValue rows)) : other = sampleValue rows := by
  unfold sampleDigest at same
  by_contra differ
  rw [if_neg differ, if_pos rfl] at same
  exact absurd same (by decide)

theorem sample_frame : (sampleValue []).frame texts = 248 ∧ ("latest/policy:1".isEmpty ||
    decide (256 < "latest/policy:1".utf8ByteSize) || !"latest/policy:1".toList.all keyCharacter) = false := by
  decide +kernel

theorem sample_size (rows : List String) (stale : Bool) (next : Option DataCursor) :
    ({ sampleValue rows with stale, next } : CollectedData String).size texts =
      248 + rowsSize texts rows + boolSize stale + optionSize DataCursor.size next := by
  rw [size_eq, ← sample_frame.1]
  rfl

theorem sample_bounded (rows : List String) (small : (rows.map texts.size).sum ≤ maxRowBytes) :
    bounded texts openRedactor (sampleValue rows) = .ok (sampleValue rows) :=
  bounded_fitting (by show 2 ≤ maxFieldBytes; decide) small rfl

theorem sample_present (rows : List String) (small : rowsSize texts rows ≤ maxRowBytes + 2) :
    latest texts (sampleStore rows) (DataSelection.query sampleQuery).key = .ok (some (sampleValue rows)) := by
  have size : (sampleValue rows).size texts ≤ 16 * 1024 * 1024 := by
    have := sample_size rows false none
    change (sampleValue rows).size texts = _ at this
    rw [this, show boolSize false = 5 from rfl, show optionSize DataCursor.size none = 4 from rfl]
    unfold maxRowBytes at small
    omega
  have key : (sampleStore rows).key "latest/policy:1" = .ok "local-data/latest/policy:1" :=
    if_neg (by rw [sample_frame.2]; decide)
  have found : (sampleStore rows).table.get "local-data/latest/policy:1" =
      some ("local-data/latest/policy:1", .collected (sampleValue rows)) := Rows.get_iff.mpr ⟨List.mem_singleton.mpr rfl, rfl⟩
  have read : (sampleStore rows).read (Record.size texts) "latest/policy:1" = .ok (some (.collected (sampleValue rows))) := by
    unfold CollectedStore.read
    simp only [key, found, bind, Except.bind, pure, Except.pure, Option.map_some]
    rw [Option.filter_some, if_pos]
    exact decide_eq_true size
  unfold latest
  simp only [show (DataSelection.query sampleQuery).key = "latest/policy:1" from rfl, read, bind, Except.bind, Record.decode,
    pure, Except.pure]

theorem readToEnd_sample :
    ReadToEnd texts (sampleDigest ["a"]) (sampleStore ["a"]) (.query sampleQuery) (sampleValue ["a"]) := by
  have present := sample_present ["a"] (by decide)
  refine (readToEnd_iff (sample_bounded ["a"] (by decide)) present (sampleDigest_free ["a"])).mpr ?_
  have one : rowsSize texts ["a"] = 5 := by decide
  have size : ∀ next, ({ sampleValue ["a"] with stale := false, next } : CollectedData String).size texts =
      258 + optionSize DataCursor.size next := by
    intro next
    rw [sample_size, one]
    rfl
  have whole : (slice (sampleValue ["a"]) 0 1).size texts ≤ maxPageBytes :=
    Nat.le_trans (Nat.le_of_eq (size none)) (by decide)
  refine ⟨Nat.le_trans (slice_mono (Nat.zero_le 1)) whole, fun o inside => ?_, fun o k within _ moves _ => ?_⟩
  · rw [show o = 0 from Nat.lt_one_iff.mp inside]
    exact whole
  · change o + k ≤ 1 at within
    change 0 < k ∨ 1 = 0 at moves
    rw [show o = 0 by omega, show k = 1 by omega]
    exact Nat.le_trans (Nat.le_of_eq (size none)) (by decide)

theorem textSize_fill (n : Nat) : texts.size (String.ofList (List.replicate n 'x')) = n + 2 := by
  show JsonDocument.textSize _ = _
  unfold JsonDocument.textSize
  rw [String.toList_ofList, List.map_replicate, List.sum_replicate, show JsonDocument.escapedSize 'x' = 1 by decide]
  simp [Nat.add_comm]

theorem large_row_kept {row : String} (large : texts.size row = 60002) :
    bounded texts openRedactor (sampleValue [row]) = .ok (sampleValue [row]) ∧
      latest texts (sampleStore [row]) (DataSelection.query sampleQuery).key = .ok (some (sampleValue [row])) := by
  refine ⟨sample_bounded [row] ?_, sample_present [row] ?_⟩
  · rw [List.map_singleton, List.sum_singleton, large]
    decide
  · unfold rowsSize arraySize
    rw [List.map_singleton, List.sum_singleton, large]
    decide

/-- It can never be read. -/
theorem large_row_unreadable : ∃ row : String,
    bounded texts openRedactor (sampleValue [row]) = .ok (sampleValue [row]) ∧
      latest texts (sampleStore [row]) (DataSelection.query sampleQuery).key = .ok (some (sampleValue [row])) ∧
      (∀ other, sampleDigest [row] other = sampleDigest [row] (sampleValue [row]) → other = sampleValue [row]) ∧
      ¬ ReadToEnd texts (sampleDigest [row]) (sampleStore [row]) (.query sampleQuery) (sampleValue [row]) := by
  obtain ⟨row, large⟩ : ∃ row, texts.size row = 60002 := ⟨_, textSize_fill 60000⟩
  obtain ⟨stored, present⟩ := large_row_kept large
  refine ⟨row, stored, present, sampleDigest_free [row], fun whole => ?_⟩
  have fits := (fits_of_read whole present (bounded_word stored)).row 0 Nat.one_pos
  have size := sample_size [row] false none
  unfold rowsSize arraySize at size
  rw [List.map_singleton, List.sum_singleton, large] at size
  change (slice (sampleValue [row]) 0 1).size texts = _ at size
  rw [size] at fits
  exact absurd fits (by decide)

end Samples

end RssMdmAgent.CollectedPages
