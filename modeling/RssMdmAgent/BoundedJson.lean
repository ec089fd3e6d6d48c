import RssMdmAgent.ContractPlan
import RssMdmAgent.JsonDocument

set_option autoImplicit false

/-! # JSON values under byte, text, node and depth bounds -/

namespace RssMdmAgent.BoundedJson
open JsonDocument (intSize)
open ContractPlan (bind_ok)

mutual

/-- A JSON value; a number is an integer or a finite decimal in its shortest notation. -/
inductive JsonValue where
  | null
  | bool (value : Bool)
  | int (value : Int)
  | decimal (literal : String)
  | text (value : String)
  | array (items : JsonItems)
  | object (members : JsonMembers)
  deriving DecidableEq, Repr

inductive JsonItems where
  | nil
  | cons (item : JsonValue) (rest : JsonItems)
  deriving DecidableEq, Repr

inductive JsonMembers where
  | nil
  | cons (key : String) (value : JsonValue) (rest : JsonMembers)
  deriving DecidableEq, Repr

end

def JsonItems.length : JsonItems → Nat
  | .nil => 0
  | .cons _ rest => rest.length + 1

def JsonMembers.length : JsonMembers → Nat
  | .nil => 0
  | .cons _ _ rest => rest.length + 1

def JsonItems.ofList : List JsonValue → JsonItems
  | [] => .nil
  | item :: rest => .cons item (ofList rest)

def JsonMembers.ofList : List (String × JsonValue) → JsonMembers
  | [] => .nil
  | (key, value) :: rest => .cons key value (ofList rest)

def JsonValue.ofNat (n : Nat) : JsonValue := .int n

def JsonValue.list (items : List JsonValue) : JsonValue := .array (.ofList items)

def JsonValue.record (fields : List (String × JsonValue)) : JsonValue := .object (.ofList fields)

/-- Counts cover the entire envelope, including dynamic JSON. -/
structure Limits where
  maxBytes : Nat
  maxTextBytes : Nat
  maxDepth : Nat
  maxNodes : Nat
  deriving DecidableEq, Repr

def defaultLimits : Limits := ⟨262144, 131072, 32, 16384⟩

inductive Diagnostic where
  | configuration
  | encoding
  | duplicateKey
  | version
  | schema
  | limit
  | number
  | context
  deriving DecidableEq, Repr

def maxSafeInteger : Nat := 2 ^ 53 - 1

def checkLimits (limits : Limits) : Except Diagnostic Unit :=
  if [limits.maxBytes, limits.maxTextBytes, limits.maxDepth, limits.maxNodes].all
      (fun bound => 1 ≤ bound && bound ≤ maxSafeInteger) && limits.maxDepth ≤ 64 then .ok ()
  else .error .configuration

def utf8 (value : String) : List UInt8 := value.toByteArray.data.toList

def quotedByte (b : UInt8) : Nat :=
  if [8, 9, 10, 12, 13, 34, 92].contains b then 2 else if b < 32 then 6 else 1

def quotedSize (value : String) : Nat := 2 + ((utf8 value).map quotedByte).sum

structure Usage where
  nodes : Nat
  textBytes : Nat
  bytes : Nat
  deriving DecidableEq, Repr

variable (limits : Limits)

def emit (size : Nat) (u : Usage) : Except Diagnostic Usage :=
  if limits.maxBytes < u.bytes + size then .error .limit
  else .ok { u with bytes := u.bytes + size }

def walkText (value : String) (u : Usage) : Except Diagnostic Usage :=
  if limits.maxTextBytes < u.textBytes + value.utf8ByteSize ∨ limits.maxBytes < value.utf8ByteSize then
    .error .limit
  else emit limits (quotedSize value) { u with textBytes := u.textBytes + value.utf8ByteSize }

def enter (depth elements : Nat) (u : Usage) : Except Diagnostic Usage :=
  if limits.maxDepth < depth + 1 ∨ limits.maxNodes - u.nodes < elements then .error .limit
  else emit limits 1 u

def count (u : Usage) : Except Diagnostic Usage :=
  if limits.maxNodes < u.nodes + 1 then .error .limit else .ok { u with nodes := u.nodes + 1 }

mutual

def walk (depth : Nat) : JsonValue → Usage → Except Diagnostic Usage
  | .null, u => do emit limits 4 (← count limits u)
  | .bool value, u => do emit limits (if value then 4 else 5) (← count limits u)
  | .int value, u => do
    let u ← count limits u
    if maxSafeInteger < value.natAbs then .error .number else emit limits (intSize value) u
  | .decimal literal, u => do emit limits literal.utf8ByteSize (← count limits u)
  | .text value, u => do walkText limits value (← count limits u)
  | .array items, u => do
    let u ← enter limits depth items.length (← count limits u)
    emit limits 1 (← walkItems (depth + 1) true items u)
  | .object members, u => do
    let u ← enter limits depth members.length (← count limits u)
    emit limits 1 (← walkMembers (depth + 1) true members u)

def walkItems (depth : Nat) (first : Bool) : JsonItems → Usage → Except Diagnostic Usage
  | .nil, u => .ok u
  | .cons item rest, u => do
    let u ← emit limits (if first then 0 else 1) u
    walkItems depth false rest (← walk depth item u)

def walkMembers (depth : Nat) (first : Bool) : JsonMembers → Usage → Except Diagnostic Usage
  | .nil, u => .ok u
  | .cons key value rest, u => do
    let u ← emit limits (if first then 0 else 1) u
    let u ← emit limits 1 (← walkText limits key u)
    walkMembers depth false rest (← walk depth value u)

end

def boundedJson (value : JsonValue) : Except Diagnostic Usage := do
  checkLimits limits
  walk limits 0 value ⟨0, 0, 0⟩

def fits (value : JsonValue) : Bool := (boundedJson limits value).isOk

theorem walkMembers_value {depth : Nat} {fields : List (String × JsonValue)} : ∀ {first : Bool} {u v : Usage},
    walkMembers limits depth first (.ofList fields) u = .ok v →
    ∀ field ∈ fields, ∃ u v, walk limits depth field.2 u = .ok v := by
  induction fields with
  | nil => exact fun _ field mem => absurd mem List.not_mem_nil
  | cons head rest ih =>
    intro first u v h field mem
    unfold JsonMembers.ofList walkMembers at h
    obtain ⟨_, -, h⟩ := bind_ok.mp h
    obtain ⟨_, -, h⟩ := bind_ok.mp h
    obtain ⟨_, -, h⟩ := bind_ok.mp h
    obtain ⟨_, value, h⟩ := bind_ok.mp h
    rcases List.mem_cons.mp mem with rfl | mem
    · exact ⟨_, _, value⟩
    · exact ih h field mem

theorem fits_counter {fields : List (String × JsonValue)} (key : String) {n : Nat}
    (h : fits limits (.record fields) = true) (mem : (key, .ofNat n) ∈ fields) : n ≤ maxSafeInteger := by
  unfold fits at h
  cases walked : boundedJson limits (.record fields) with
  | error _ =>
    rw [walked] at h
    cases h
  | ok used =>
    unfold boundedJson at walked
    obtain ⟨_, -, walked⟩ := bind_ok.mp walked
    unfold JsonValue.record walk at walked
    obtain ⟨_, -, walked⟩ := bind_ok.mp walked
    obtain ⟨_, -, walked⟩ := bind_ok.mp walked
    obtain ⟨_, members, -⟩ := bind_ok.mp walked
    obtain ⟨u, v, number⟩ := walkMembers_value limits members _ mem
    unfold JsonValue.ofNat walk at number
    obtain ⟨_, -, number⟩ := bind_ok.mp number
    by_contra large
    rw [if_pos (by simpa using Nat.not_le.mp large)] at number
    cases number

example : (boundedJson defaultLimits (.record [("a", .list [.ofNat 10, .null])])).toOption =
    some ⟨4, 1, 15⟩ := by decide

end RssMdmAgent.BoundedJson
