import RssMdmAgent.DocumentSizes

set_option autoImplicit false

/-! # Collected values, their JSON sizes and what of one is kept -/

namespace RssMdmAgent.CollectedValues
open JsonDocument

inductive Error where
  | capacity | configuration | conflict | denied | identity | notFound | protocol | storage | unavailable | untrusted
  deriving DecidableEq, Repr

structure Encoding (V : Type) where
  size : V → Nat
  positive : ∀ v, 0 < size v

structure QueryRef where
  id : String
  revision : String
  deriving DecidableEq, Repr

inductive DataScope where
  | device
  | user (subject : String)
  deriving DecidableEq, Repr

inductive DataQuality where
  | complete | missing | partialData | truncated | failed | notCollected | definitionUnavailable | unsupported
  | denied | expired | unknown
  deriving DecidableEq, Repr

/-- The serialized name of a quality. -/
def DataQuality.name : DataQuality → String
  | .complete => "complete"
  | .missing => "missing"
  | .partialData => "partial"
  | .truncated => "truncated"
  | .failed => "failed"
  | .notCollected => "notCollected"
  | .definitionUnavailable => "definitionUnavailable"
  | .unsupported => "unsupported"
  | .denied => "denied"
  | .expired => "expired"
  | .unknown => "unknown"

structure DataCursor where
  snapshot : String
  offset : Nat
  deriving DecidableEq, Repr

structure CollectedData (V : Type) where
  query : QueryRef
  scope : DataScope
  request : Option String
  collectedAt : Option Nat
  quality : DataQuality
  enumerationComplete : Bool
  fields : List (String × V)
  rows : List V
  stale : Bool
  next : Option DataCursor
  deriving DecidableEq

def empty {V : Type} (query : QueryRef) (request : Option String) (quality : DataQuality) : CollectedData V where
  query
  scope := .device
  request
  collectedAt := none
  quality
  enumerationComplete := false
  fields := []
  rows := []
  stale := false
  next := none

section Sizes

def arraySize (items : List Nat) : Nat := 2 + items.sum + (items.length - 1)

def objectSize (members : List (String × Nat)) : Nat := arraySize (members.map fun m => textSize m.1 + 1 + m.2)

def optionSize {α : Type} (size : α → Nat) : Option α → Nat
  | none => 4
  | some value => size value

def boolSize (b : Bool) : Nat := if b then 4 else 5

def QueryRef.size (q : QueryRef) : Nat := objectSize [("id", textSize q.id), ("revision", textSize q.revision)]

def DataScope.size : DataScope → Nat
  | .device => objectSize [("kind", textSize "device")]
  | .user subject => objectSize [("kind", textSize "user"), ("subject", textSize subject)]

def DataCursor.size (c : DataCursor) : Nat :=
  objectSize [("snapshot", textSize c.snapshot), ("offset", natSize c.offset)]

variable {V : Type} (e : Encoding V)

def fieldsSize (fields : List (String × V)) : Nat := objectSize (fields.map fun f => (f.1, e.size f.2))

def rowsSize (rows : List V) : Nat := arraySize (rows.map e.size)

def CollectedData.size (v : CollectedData V) : Nat :=
  objectSize [("query", v.query.size), ("scope", v.scope.size), ("request", optionSize textSize v.request),
    ("collectedAt", optionSize natSize v.collectedAt), ("quality", textSize v.quality.name),
    ("enumerationComplete", boolSize v.enumerationComplete), ("fields", fieldsSize e v.fields),
    ("rows", rowsSize e v.rows), ("stale", boolSize v.stale), ("next", optionSize DataCursor.size v.next)]

def CollectedData.frame (v : CollectedData V) : Nat :=
  objectSize [("query", v.query.size), ("scope", v.scope.size), ("request", optionSize textSize v.request),
    ("collectedAt", optionSize natSize v.collectedAt), ("quality", textSize v.quality.name),
    ("enumerationComplete", boolSize v.enumerationComplete), ("fields", fieldsSize e v.fields),
    ("rows", 0), ("stale", 0), ("next", 0)]

theorem size_eq (v : CollectedData V) :
    v.size e = v.frame e + rowsSize e v.rows + boolSize v.stale + optionSize DataCursor.size v.next := by
  simp only [CollectedData.size, CollectedData.frame, objectSize, arraySize, List.map_cons, List.map_nil,
    List.sum_cons, List.sum_nil, List.length_cons, List.length_nil]
  omega

variable {e}

theorem rowsSize_mono {xs ys : List V} (h : xs.Sublist ys) : rowsSize e xs ≤ rowsSize e ys := by
  have sums : (xs.map e.size).sum ≤ (ys.map e.size).sum := List.Sublist.sum_le_sum (h.map e.size) (by simp)
  have lengths := h.length_le
  simp only [rowsSize, arraySize, List.length_map]
  omega

theorem length_le_sum (rows : List V) : rows.length ≤ (rows.map e.size).sum := by
  induction rows with
  | nil => simp
  | cons row rest ih =>
    have := e.positive row
    simp only [List.length_cons, List.map_cons, List.sum_cons]
    omega

end Sizes

section Bounds
variable {V : Type}

structure Redactor (V : Type) where
  rows : List V → Except Error Bool
  fields : List (String × V) → Except Error Bool

def Redactor.safe (r : Redactor V) (v : CollectedData V) : Except Error Bool := do
  if ← r.rows v.rows then r.fields v.fields else pure false

def maxRowBytes : Nat := 256 * 1024

def maxFieldBytes : Nat := 16 * 1024

variable (e : Encoding V)

def keepRows (remaining : Nat) : List V → List V
  | [] => []
  | row :: rest =>
    if e.size row ≤ remaining then row :: keepRows (remaining - e.size row) rest else keepRows remaining rest

def CollectedData.cut (v : CollectedData V) : CollectedData V :=
  { v with quality := .truncated, enumerationComplete := false }

def bounded (r : Redactor V) (v : CollectedData V) : Except Error (CollectedData V) := do
  let valueRows := v.rows.length
  let v := if maxFieldBytes < fieldsSize e v.fields then { v with fields := [] }.cut else v
  let v := { v with rows := keepRows e maxRowBytes v.rows }
  let v := if v.rows.length ≠ valueRows then v.cut else v
  if ← r.safe v then pure v else throw .untrusted

variable {e} {r : Redactor V} {v kept : CollectedData V}

theorem keepRows_sum (remaining : Nat) (rows : List V) : ((keepRows e remaining rows).map e.size).sum ≤ remaining := by
  induction rows generalizing remaining with
  | nil => simp [keepRows]
  | cons row rest ih =>
    unfold keepRows
    split
    · have := ih (remaining - e.size row)
      simp only [List.map_cons, List.sum_cons]
      omega
    · exact ih remaining

theorem keepRows_sublist (remaining : Nat) (rows : List V) : (keepRows e remaining rows).Sublist rows := by
  induction rows generalizing remaining with
  | nil => exact .slnil
  | cons row rest ih =>
    unfold keepRows
    split
    · exact (ih _).cons_cons row
    · exact (ih remaining).cons row

theorem keepRows_fitting {remaining : Nat} {rows : List V} (fit : (rows.map e.size).sum ≤ remaining) :
    keepRows e remaining rows = rows := by
  induction rows generalizing remaining with
  | nil => rfl
  | cons row rest ih =>
    simp only [List.map_cons, List.sum_cons] at fit
    unfold keepRows
    rw [if_pos (by omega), ih (by omega)]

/-- What a kept value has in common with the collected one. -/
structure Kept (e : Encoding V) (r : Redactor V) (v kept : CollectedData V) : Prop where
  query : kept.query = v.query
  request : kept.request = v.request
  collectedAt : kept.collectedAt = v.collectedAt
  fields : fieldsSize e kept.fields ≤ maxFieldBytes
  rows : (kept.rows.map e.size).sum ≤ maxRowBytes
  sublist : kept.rows.Sublist v.rows
  safe : r.safe kept = .ok true

theorem bounded_kept (h : bounded e r v = .ok kept) : Kept e r v kept := by
  unfold bounded at h
  simp only [bind, Except.bind] at h
  split at h
  · cases h
  rename_i verdict answered
  cases verdict with
  | false => cases h
  | true =>
    cases h
    refine ⟨?_, ?_, ?_, ?_, ?_, ?_, answered⟩
    · split <;> split <;> rfl
    · split <;> split <;> rfl
    · split <;> split <;> rfl
    · have small : fieldsSize e ([] : List (String × V)) ≤ maxFieldBytes := by
        simp [fieldsSize, objectSize, arraySize, maxFieldBytes]
      by_cases large : maxFieldBytes < fieldsSize e v.fields
      · simp only [if_pos large]
        split <;> exact small
      · simp only [if_neg large]
        split <;> exact Nat.le_of_not_lt large
    · split <;> split <;> exact keepRows_sum _ _
    · split <;> split <;> exact keepRows_sublist _ _

theorem bounded_fitting (fields : fieldsSize e v.fields ≤ maxFieldBytes) (rows : (v.rows.map e.size).sum ≤ maxRowBytes)
    (safe : r.safe v = .ok true) : bounded e r v = .ok v := by
  unfold bounded
  simp only [if_neg (Nat.not_lt.mpr fields), keepRows_fitting rows, ne_eq, not_true, if_false]
  rw [show ({ v with rows := v.rows } : CollectedData V) = v from rfl, safe]
  rfl

end Bounds

end RssMdmAgent.CollectedValues
