import Mathlib.Tactic.Linarith

set_option autoImplicit false

/-! # JSON documents and the size of their compact encoding -/

namespace RssMdmAgent.JsonDocument

inductive Json where
  | null
  | bool (value : Bool)
  | int (value : Int)
  | text (value : String)
  | array (items : List Json)
  | object (members : List (String × Json))

def escapedSize (c : Char) : Nat :=
  if c = '"' ∨ c = '\\' then 2
  else if c.toNat ∈ [8, 9, 10, 12, 13] then 2
  else if c.toNat < 0x20 then 6
  else c.utf8Size

def textSize (s : String) : Nat := 2 + (s.toList.map escapedSize).sum

def natSize (n : Nat) : Nat := (Nat.toDigits 10 n).length

def intSize : Int → Nat
  | .ofNat n => natSize n
  | .negSucc n => 1 + natSize (n + 1)

mutual

/-- Bytes of the compact encoding, without any blank. -/
def Json.size : Json → Nat
  | .null => 4
  | .bool value => if value then 4 else 5
  | .int value => intSize value
  | .text value => textSize value
  | .array items => 2 + itemsSize items + (items.length - 1)
  | .object members => 2 + membersSize members + (members.length - 1)

def itemsSize : List Json → Nat
  | [] => 0
  | item :: rest => item.size + itemsSize rest

def membersSize : List (String × Json) → Nat
  | [] => 0
  | (key, value) :: rest => textSize key + 1 + value.size + membersSize rest

end

def Json.nat (n : Nat) : Json := .int n

def Json.option {α : Type} (write : α → Json) : Option α → Json
  | none => .null
  | some value => write value

example : (Json.object [("a", .array [.nat 10, .null]), ("b", .text "\n")]).size = 24 := by decide

end RssMdmAgent.JsonDocument
