import RssMdmAgent.OrderedRows
import Mathlib.Data.List.Sort

set_option autoImplicit false

/-! # Process-local read views: captured values and the pages cut from them -/

namespace RssMdmAgent.PagedReads
open OrderedRows

inductive Failure where
  | invalidInput | cursorExpired | limitExceeded | thrown
  deriving DecidableEq

structure PageQuery where
  limit : Int
  continuation : Option String

structure View (Value : Type) where
  id : String
  scope : String
  expires : Int
  limit : Int
  value : Value
  bytes : Nat
  continued : Bool

structure Token where
  token : String
  id : String
  offset : Nat
  index : Nat
  deriving DecidableEq

structure ReadViews (Value : Type) where
  views : Rows (View.id : View Value → String)
  retainedBytes : Int
  tokens : Rows Token.token

structure Cursor (Value : Type) where
  id : String
  offset : Nat
  index : Nat
  value : Value

section Views
variable {Value : Type}

def ReadViews.empty : ReadViews Value := ⟨.empty, 0, .empty⟩

def maxBytes : Int := 16 * 1024 * 1024

def ReadViews.dropExpired (s : ReadViews Value) (now : Int) : ReadViews Value :=
  let views := s.views.retain fun view => !decide (view.expires < now)
  { views
    retainedBytes := (s.views.select fun view => decide (view.expires < now)).foldl (fun n view => n - view.bytes) s.retainedBytes
    tokens := s.tokens.retain fun row => views.has row.id }

/-- A continuation goes on in its view, under the same scope and limit. -/
def ReadViews.resume (s : ReadViews Value) (scope : String) (limit : Int) (continuation : String) :
    Except Failure (Cursor Value) :=
  match s.tokens.get continuation with
  | none => .error .cursorExpired
  | some row =>
    match s.views.get row.id with
    | none => .error .cursorExpired
    | some view =>
      if view.scope ≠ scope ∨ view.limit ≠ limit then .error .cursorExpired
      else .ok ⟨row.id, row.offset, row.index, view.value⟩

/-- A captured value is retained as a new view if there is room for it. -/
def ReadViews.retain (s : ReadViews Value) (expires : Int) (uuid scope : String) (limit : Int) (capture : Option Value)
    (measure : Value → Except Failure Nat) : ReadViews Value × Except Failure (Cursor Value) :=
  if 128 ≤ s.views.entries.length then (s, .error .limitExceeded)
  else match capture with
    | none => (s, .error .thrown)
    | some value =>
      match measure value with
      | .error e => (s, .error e)
      | .ok bytes =>
        if maxBytes < s.retainedBytes + bytes then (s, .error .limitExceeded)
        else
          ({ s with
              retainedBytes := s.retainedBytes + bytes
              views := s.views.set ⟨uuid, scope, expires, limit, value, bytes, false⟩ },
            .ok ⟨uuid, 0, 0, value⟩)

/-- A read starts a view or continues one. -/
def ReadViews.read (s : ReadViews Value) (ttlMs now : Int) (uuid scope : String) (query : PageQuery) (capture : Option Value)
    (measure : Value → Except Failure Nat) : ReadViews Value × Except Failure (Cursor Value) :=
  if query.limit < 1 ∨ 256 < query.limit then (s, .error .invalidInput)
  else
    let t := s.dropExpired now
    -- an empty continuation is none
    match query.continuation.filter (fun text => decide (text ≠ "")) with
    | some continuation => (t, t.resume scope query.limit continuation)
    | none => t.retain (now + ttlMs) uuid scope query.limit capture measure

def ReadViews.next (s : ReadViews Value) (uuid id : String) (offset index : Nat) : ReadViews Value × String :=
  match s.tokens.entries.find? fun row => decide (row.id = id ∧ row.offset = offset ∧ row.index = index) with
  | some row => (s, row.token)
  | none => ({ s with tokens := s.tokens.set ⟨uuid, id, offset, index⟩ }, uuid)

/-- A view stays once a continuation of it is given, and goes otherwise. -/
def ReadViews.finish (s : ReadViews Value) (id : String) (hasContinuation : Bool) : ReadViews Value :=
  match s.views.get id with
  | none => s
  | some view =>
    if view.continued || hasContinuation then { s with views := s.views.set { view with continued := true } }
    else
      { views := s.views.retain fun view => decide (view.id ≠ id)
        retainedBytes := s.retainedBytes - view.bytes
        tokens := s.tokens.retain fun row => decide (row.id ≠ id) }

def ReadViews.clear (_ : ReadViews Value) : ReadViews Value := .empty

end Views

/-- How pages are cut from a value: its records, the page of some of them, and the records that a page shows. -/
structure Kind (Value Record Page : Type) where
  records : Value → Option (List Record)
  page : (id : String) → (index : Nat) → Value → List Record → (next : Option String) → Page
  next : Page → Option String
  shown : Page → List Record
  /-- Lists that a page shows in their order. -/
  Orderly : List Record → Prop
  next_page : ∀ id index value records token, next (page id index value records token) = token
  shown_page : ∀ id index value records token, Orderly records → shown (page id index value records token) = records
  orderly_sublist : ∀ {part records}, Orderly records → part.Sublist records → Orderly part

/-- What one page reads beside the views. Identifiers are drawn by their place in the call. -/
structure Exchange (Value Page : Type) where
  now : Int
  uuid : Nat → String
  capture : Option Value
  measure : Value → Except Failure Nat
  /-- The page is within the size limits. -/
  fits : Page → Bool

section Pages
variable {Value Record Page : Type} (kind : Kind Value Record Page)

def continuation (s : ReadViews Value) (uuid : Nat → String) (c : Cursor Value) (length count : Nat) :
    ReadViews Value × Option String :=
  if c.offset + count < length then
    let r := s.next (uuid (count + 1)) c.id (c.offset + count) (c.index + 1)
    (r.1, some r.2)
  else (s, none)

/-- A page that does not fit is halved until one does. -/
def cutPage (uuid : Nat → String) (fits : Page → Bool) (c : Cursor Value) (records : List Record) (count : Nat)
    (s : ReadViews Value) : ReadViews Value × Except Failure Page :=
  let r := continuation s uuid c records.length count
  let page := kind.page c.id c.index c.value ((records.drop c.offset).take count) r.2
  if fits page then (r.1.finish c.id r.2.isSome, .ok page)
  else if count ≤ 1 then (r.1.finish c.id false, .error .limitExceeded)
  else cutPage uuid fits c records (count / 2) r.1
termination_by count
decreasing_by omega

/-- The first or the next page of a view. -/
def readPage (ttlMs : Int) (x : Exchange Value Page) (s : ReadViews Value) (scope : String) (query : PageQuery) :
    ReadViews Value × Except Failure Page :=
  match s.read ttlMs x.now (x.uuid 0) scope query x.capture x.measure with
  | (t, .error e) => (t, .error e)
  | (t, .ok c) =>
    match kind.records c.value with
    | none => (t, .error .thrown)
    | some records =>
      if records.length < c.offset then (t, .error .cursorExpired)
      else cutPage kind x.uuid x.fits c records (min query.limit.toNat (records.length - c.offset)) t

end Pages

inductive RecordKind where
  | event | commandRecord | interaction | surface
  deriving DecidableEq

structure SnapshotRecord where
  kind : RecordKind
  body : String
  deriving DecidableEq

structure Session where
  lastSequence : Nat
  body : String
  deriving DecidableEq

structure SessionListItem where
  sessionId : String
  lastActivityAtMs : Nat
  body : String
  deriving DecidableEq

inductive Captured where
  | snapshot (session : Session) (records : List SnapshotRecord)
  | sessions (items : List SessionListItem)

structure SnapshotPage where
  snapshotId : String
  pageIndex : Nat
  session : Option Session
  cursor : Option Nat
  events : List SnapshotRecord
  commands : List SnapshotRecord
  interactions : List SnapshotRecord
  surfaces : List SnapshotRecord
  next : Option String
  deriving DecidableEq

structure SessionPage where
  items : List SessionListItem
  next : Option String
  deriving DecidableEq

def Captured.session : Captured → Option Session
  | .snapshot session _ => some session
  | .sessions _ => none

def ofKind (kind : RecordKind) (records : List SnapshotRecord) : List SnapshotRecord :=
  records.filter fun record => decide (record.kind = kind)

def RecordKind.rank : RecordKind → Nat
  | .event => 0
  | .commandRecord => 1
  | .interaction => 2
  | .surface => 3

def Grouped (records : List SnapshotRecord) : Prop := records.Pairwise fun a b => a.kind.rank ≤ b.kind.rank

theorem grouped_cons {first : SnapshotRecord} {rest : List SnapshotRecord} (grouped : Grouped (first :: rest)) :
    (∀ other ∈ rest, first.kind.rank ≤ other.kind.rank) ∧ Grouped rest := List.pairwise_cons.mp grouped

theorem ofKind_below {kind : RecordKind} {records : List SnapshotRecord} {rank : Nat} (low : kind.rank < rank)
    (high : ∀ record ∈ records, rank ≤ record.kind.rank) : ofKind kind records = [] := by
  unfold ofKind
  rw [List.filter_eq_nil_iff]
  intro record mem
  have bound := high record mem
  simp only [decide_eq_true_eq]
  rintro rfl
  omega

theorem grouped_groups {records : List SnapshotRecord} (grouped : Grouped records) :
    ofKind .event records ++ ofKind .commandRecord records ++ ofKind .interaction records ++ ofKind .surface records =
      records := by
  induction records with
  | nil => rfl
  | cons first rest ih =>
    obtain ⟨high, grouped⟩ := grouped_cons grouped
    have same := ih grouped
    have below (kind : RecordKind) (low : kind.rank < first.kind.rank) : ofKind kind rest = [] := ofKind_below low high
    have place (kind : RecordKind) : ofKind kind (first :: rest) =
        if first.kind = kind then first :: ofKind kind rest else ofKind kind rest := by
      unfold ofKind
      rw [List.filter_cons]
      simp
    rw [place, place, place, place]
    cases kind : first.kind <;> rw [kind] at below <;> simp only [reduceCtorEq, if_true, if_false]
    · simpa using same
    · have events := below .event (by decide)
      simp only [events, List.nil_append] at same ⊢
      simpa using same
    · have events := below .event (by decide)
      have commands := below .commandRecord (by decide)
      simp only [events, commands, List.nil_append] at same ⊢
      simpa using same
    · have events := below .event (by decide)
      have commands := below .commandRecord (by decide)
      have interactions := below .interaction (by decide)
      simp only [events, commands, interactions, List.nil_append] at same ⊢
      rw [same]

def snapshotKind : Kind Captured SnapshotRecord SnapshotPage where
  records
    | .snapshot _ records => some records
    | .sessions _ => none
  page id index value records next :=
    { snapshotId := id
      pageIndex := index
      session := value.session
      cursor := value.session.map (·.lastSequence)
      events := ofKind .event records
      commands := ofKind .commandRecord records
      interactions := ofKind .interaction records
      surfaces := ofKind .surface records
      next }
  next page := page.next
  shown page := page.events ++ page.commands ++ page.interactions ++ page.surfaces
  Orderly := Grouped
  next_page _ _ _ _ _ := rfl
  shown_page _ _ _ _ _ grouped := grouped_groups grouped
  orderly_sublist grouped part := grouped.sublist part

def sessionKind : Kind Captured SessionListItem SessionPage where
  records
    | .snapshot _ _ => none
    | .sessions items => some items
  page _ _ _ items next := ⟨items, next⟩
  next page := page.next
  shown page := page.items
  Orderly _ := True
  next_page _ _ _ _ _ := rfl
  shown_page _ _ _ _ _ _ := rfl
  orderly_sublist _ _ := trivial

def before (a b : SessionListItem) : Bool :=
  decide (b.lastActivityAtMs < a.lastActivityAtMs) ||
    (decide (a.lastActivityAtMs = b.lastActivityAtMs) && decide (a.sessionId ≤ b.sessionId))

def readSnapshotPage (ttlMs : Int) (x : Exchange Captured SnapshotPage) (s : ReadViews Captured) (scope : String)
    (query : PageQuery) : ReadViews Captured × Except Failure SnapshotPage :=
  readPage snapshotKind ttlMs x s scope query

def sortCaptured : Captured → Captured
  | .sessions items => .sessions (items.mergeSort before)
  | value => value

def readSessionPage (ttlMs : Int) (x : Exchange Captured SessionPage) (s : ReadViews Captured) (scope : String)
    (query : PageQuery) : ReadViews Captured × Except Failure SessionPage :=
  readPage sessionKind ttlMs { x with capture := x.capture.map sortCaptured } s scope query

end RssMdmAgent.PagedReads
