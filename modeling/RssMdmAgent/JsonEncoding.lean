import RssMdmAgent.DocumentSizes
import RssMdmAgent.JsonText

set_option autoImplicit false

/-! # The compact text of a document without fractions -/

namespace RssMdmAgent.JsonEncoding
open JsonDocument JsonValue JsonText

mutual

def fits (d : Nat) : Json → Bool
  | .null | .bool _ | .text _ => true
  | .int i => decide (-2 ^ 63 ≤ i) && decide (i < 2 ^ 64)
  | .array items => decide (0 < d) && itemsFit (d - 1) items
  | .object members => decide (0 < d) && membersFit (d - 1) members

def itemsFit (d : Nat) : List Json → Bool
  | [] => true
  | item :: rest => fits d item && itemsFit d rest

def membersFit (d : Nat) : List (String × Json) → Bool
  | [] => true
  | (_, item) :: rest => fits d item && membersFit d rest

end

structure CompactText where
  toVec : Json → String
  fromSlice : String → Option Json
  fromSlice_toVec : ∀ j, fits 127 j = true → fromSlice (toVec j) = some j
  toVec_size : ∀ j, (toVec j).utf8ByteSize = j.size

section Bounds
variable {d n m : Nat} {j : Json}

structure Within (d n : Nat) (j : Json) : Prop where
  fits : fits d j = true
  size : j.size ≤ n

inductive MembersWithin (d : Nat) : Nat → List (String × Json) → Prop where
  | nil : MembersWithin d 0 []
  | cons {name : String} {rest : List (String × Json)} {n m : Nat} {j : Json} (first : Within d n j) (others : MembersWithin d m rest) :
      MembersWithin d (textSize name + 2 + n + m) ((name, j) :: rest)

theorem Within.mono (h : Within d n j) (le : n ≤ m) : Within d m j := ⟨h.fits, Nat.le_trans h.size le⟩

theorem within_text {s : String} (size : textSize s ≤ n) : Within d n (.text s) := ⟨rfl, size⟩

theorem within_bool (b : Bool) : Within d 5 (.bool b) := ⟨rfl, by cases b <;> decide⟩

theorem within_nat {k : Nat} (word : k < 2 ^ 64) : Within d 20 (.nat k) := by
  refine ⟨?_, ?_⟩
  · rw [Json.nat, JsonEncoding.fits, Bool.and_eq_true, decide_eq_true_eq, decide_eq_true_eq]
    omega
  · rw [size_nat, natSize_le_iff (by decide)]
    omega

theorem within_option {α : Type} {write : α → Json} {o : Option α} (h : ∀ x, o = some x → Within d n (write x)) (null : 4 ≤ n) :
    Within d n (.option write o) := by
  cases o with
  | none => exact ⟨rfl, null⟩
  | some x => exact h x rfl

theorem MembersWithin.bounds {members : List (String × Json)} (h : MembersWithin d n members) :
    membersFit d members = true ∧ membersSize members + members.length ≤ n := by
  induction h with
  | nil => exact ⟨rfl, Nat.le_refl 0⟩
  | cons first _ ih =>
    refine ⟨Bool.and_eq_true_iff.mpr ⟨first.fits, ih.1⟩, ?_⟩
    have size := first.size
    have others := ih.2
    rw [membersSize, List.length_cons]
    omega

theorem within_object {members : List (String × Json)} (h : MembersWithin d n members) :
    Within (d + 1) (2 + n) (.object members) := by
  obtain ⟨fit, size⟩ := h.bounds
  refine ⟨Bool.and_eq_true_iff.mpr ⟨decide_eq_true (Nat.succ_pos d), fit⟩, ?_⟩
  rw [Json.size]
  omega

end Bounds

/-! ## The plain text -/

mutual

def valueOf : Json → Value
  | .null => .null
  | .bool b => .bool b
  | .int i => .number (.int i)
  | .text s => .text s
  | .array items => .array (valuesOf items)
  | .object members => .object (membersOf members)

def valuesOf : List Json → List Value
  | [] => []
  | item :: rest => valueOf item :: valuesOf rest

def membersOf : List (String × Json) → List (String × Value)
  | [] => []
  | (name, item) :: rest => (name, valueOf item) :: membersOf rest

end

mutual

def documentOf : Value → Option Json
  | .null => some .null
  | .bool b => some (.bool b)
  | .number (.int i) => some (.int i)
  | .number (.float _) => none
  | .text s => some (.text s)
  | .array items => (documentsOf items).map .array
  | .object members => (documentMembers members).map .object

def documentsOf : List Value → Option (List Json)
  | [] => some []
  | item :: rest => (documentOf item).bind fun item => (documentsOf rest).map (item :: ·)

def documentMembers : List (String × Value) → Option (List (String × Json))
  | [] => some []
  | (name, item) :: rest => (documentOf item).bind fun item => (documentMembers rest).map ((name, item) :: ·)

end

mutual

theorem documentOf_valueOf : ∀ j : Json, documentOf (valueOf j) = some j
  | .null | .bool _ | .int _ | .text _ => rfl
  | .array items => by rw [valueOf, documentOf, documentsOf_valuesOf items]; rfl
  | .object members => by rw [valueOf, documentOf, documentMembers_membersOf members]; rfl

theorem documentsOf_valuesOf : ∀ items : List Json, documentsOf (valuesOf items) = some items
  | [] => rfl
  | item :: rest => by rw [valuesOf, documentsOf, documentOf_valueOf item, documentsOf_valuesOf rest]; rfl

theorem documentMembers_membersOf : ∀ members : List (String × Json), documentMembers (membersOf members) = some members
  | [] => rfl
  | (name, item) :: rest => by rw [membersOf, documentMembers, documentOf_valueOf item, documentMembers_membersOf rest]; rfl

end

section Sizes

def bytes (cs : List Char) : Nat := (cs.map Char.utf8Size).sum

@[simp] theorem bytes_nil : bytes [] = 0 := rfl
@[simp] theorem bytes_cons (c : Char) (cs : List Char) : bytes (c :: cs) = c.utf8Size + bytes cs := rfl

@[simp] theorem bytes_append (xs ys : List Char) : bytes (xs ++ ys) = bytes xs + bytes ys := by
  rw [bytes, List.map_append, List.sum_append]
  rfl

theorem hexDigit_size : ∀ n < 16, (hexDigit n).utf8Size = 1 := by decide

theorem bytes_escape (c : Char) : bytes (escape c) = escapedSize c := by
  unfold escape escapedSize
  by_cases quote : c = '"'
  · rw [if_pos quote, if_pos (.inl quote)]
    rfl
  by_cases slash : c = '\\'
  · rw [if_neg quote, if_pos slash, if_pos (.inr slash)]
    rfl
  rw [if_neg quote, if_neg slash, if_neg (not_or.mpr ⟨quote, slash⟩)]
  by_cases short : c.toNat ∈ [8, 9, 10, 12, 13]
  · rw [if_pos short]
    simp only [List.mem_cons, List.not_mem_nil, or_false] at short
    rcases short with same | same | same | same | same <;> rw [same] <;> rfl
  rw [if_neg short]
  simp only [List.mem_cons, List.not_mem_nil, or_false, not_or] at short
  obtain ⟨backspace, tab, newline, feed, carriage⟩ := short
  rw [if_neg backspace, if_neg tab, if_neg newline, if_neg feed, if_neg carriage]
  split
  · rw [bytes_cons, bytes_cons, bytes_cons, bytes_cons, bytes_cons, bytes_cons, hexDigit_size _ (by omega), hexDigit_size _ (by omega)]
    rfl
  · rfl

theorem digit_size {c : Char} (digit : c.isDigit = true) : c.utf8Size = 1 := by
  simp only [Char.isDigit, Bool.and_eq_true, decide_eq_true_eq, UInt32.le_iff_toNat_le, ge_iff_le] at digit
  unfold Char.utf8Size
  rw [if_pos]
  exact UInt32.le_iff_toNat_le.mpr (Nat.le_trans digit.2 (by decide))

theorem bytes_digits (n : Nat) : bytes (Nat.toDigits 10 n) = natSize n := by
  have ascii : ∀ c ∈ Nat.toDigits 10 n, c.utf8Size = 1 := by
    intro c mem
    exact digit_size (Nat.isDigit_of_mem_toDigits (by decide) (by decide) mem)
  rw [bytes, List.map_congr_left ascii, List.map_const', List.sum_replicate]
  simp [natSize]

theorem bytes_printInt (i : Int) : bytes (printInt i) = intSize i := by
  cases i with
  | ofNat n =>
    change bytes (if (Int.ofNat n) < 0 then _ else Nat.toDigits 10 n) = natSize n
    rw [if_neg (by simp), bytes_digits]
  | negSucc n =>
    change bytes (if Int.negSucc n < 0 then '-' :: Nat.toDigits 10 (n + 1) else _) = 1 + natSize (n + 1)
    rw [if_pos (Int.negSucc_lt_zero n), bytes_cons, bytes_digits]
    rfl

theorem bytes_quote (s : String) : bytes (quote s) = textSize s := by
  have body : ∀ cs : List Char, bytes (cs.flatMap escape) = (cs.map escapedSize).sum := by
    intro cs
    induction cs with
    | nil => rfl
    | cons c rest ih => rw [List.flatMap_cons, bytes_append, bytes_escape, ih, List.map_cons, List.sum_cons]
  rw [quote, bytes_cons, bytes_append, body, textSize]
  change 1 + (_ + 1) = _
  omega

mutual

theorem bytes_print : ∀ j : Json, bytes (print (valueOf j)) = j.size
  | .null => rfl
  | .bool true | .bool false => rfl
  | .int i => bytes_printInt i
  | .text s => bytes_quote s
  | .array items => by
    rw [valueOf, print, bytes_cons, bytes_printItems items, Json.size]
    change 1 + _ = _
    omega
  | .object members => by
    rw [valueOf, print, bytes_cons, bytes_printMembers members, Json.size]
    change 1 + _ = _
    omega

theorem bytes_printItems : ∀ items : List Json, bytes (printItems (valuesOf items)) = 1 + itemsSize items + (items.length - 1)
  | [] => rfl
  | [item] => by
    rw [valuesOf, valuesOf, printItems, bytes_append, bytes_print item]
    change _ + 1 = 1 + (item.size + 0) + 0
    omega
  | item :: next :: rest => by
    have others := bytes_printItems (next :: rest)
    rw [valuesOf] at others
    rw [valuesOf, valuesOf, printItems, bytes_append, bytes_cons, bytes_print item, others]
    change item.size + (1 + (1 + itemsSize (next :: rest) + rest.length)) = 1 + (item.size + itemsSize (next :: rest)) + (rest.length + 1)
    omega

theorem bytes_printMembers : ∀ members : List (String × Json),
    bytes (printMembers (membersOf members)) = 1 + membersSize members + (members.length - 1)
  | [] => rfl
  | [(name, item)] => by
    rw [membersOf, membersOf, printMembers, bytes_append, bytes_cons, bytes_append, bytes_quote, bytes_print item]
    change _ + (1 + (_ + 1)) = 1 + (textSize name + 1 + item.size + 0) + 0
    omega
  | (name, item) :: next :: rest => by
    have others := bytes_printMembers (next :: rest)
    rw [membersOf] at others
    rw [membersOf, membersOf, printMembers, bytes_append, bytes_cons, bytes_append, bytes_cons, bytes_quote, bytes_print item, others]
    change textSize name + (1 + (item.size + (1 + (1 + membersSize (next :: rest) + rest.length)))) =
      1 + (textSize name + 1 + item.size + membersSize (next :: rest)) + (rest.length + 1)
    omega

end

def plainCompact : CompactText where
  toVec j := String.ofList (print (valueOf j))
  fromSlice s := (parse s).bind documentOf
  fromSlice_toVec j _ := by rw [parse_print, Option.bind_some, documentOf_valueOf]
  toVec_size j := by rw [← utf8Bytes_sum, ← bytes_print]; rfl

end Sizes

section Costs

def byteCost (b : UInt8) : Nat := if b = 34 ∨ b = 92 then 2 else if b < 32 then 6 else 1

def textCost (s : String) : Nat := 2 + (s.toByteArray.data.toList.map byteCost).sum

theorem byteCost_pos (b : UInt8) : 1 ≤ byteCost b := by
  unfold byteCost
  split
  · decide
  · split <;> decide

theorem escape_cost (c : Char) : bytes (escape c) ≤ ((String.utf8EncodeChar c).map byteCost).sum := by
  have length : c.utf8Size ≤ ((String.utf8EncodeChar c).map byteCost).sum := by
    rw [← String.length_utf8EncodeChar]
    generalize String.utf8EncodeChar c = bs
    induction bs with
    | nil => exact Nat.le_refl _
    | cons b rest ih =>
      have first := byteCost_pos b
      rw [List.length_cons, List.map_cons, List.sum_cons]
      omega
  rw [bytes_escape]
  unfold escapedSize
  by_cases special : c = '"' ∨ c = '\\'
  · rcases special with rfl | rfl <;> decide
  rw [if_neg special]
  by_cases control : c.toNat < 0x20
  · have one : c.utf8Size = 1 := by
      unfold Char.utf8Size
      rw [if_pos]
      exact UInt32.le_iff_toNat_le.mpr (by change c.toNat ≤ 127; omega)
    have small : c.val.toUInt8 < 32 := by
      rw [UInt8.lt_iff_toNat_lt, UInt32.toNat_toUInt8]
      change c.toNat % 256 < 32
      omega
    have cost : byteCost c.val.toUInt8 = 6 := by
      have neither : ¬ (c.val.toUInt8 = 34 ∨ c.val.toUInt8 = 92) := by
        rintro (same | same) <;> rw [same] at small <;> exact absurd small (by decide)
      rw [byteCost, if_neg neither, if_pos small]
    rw [String.utf8EncodeChar_eq_singleton one, List.map_singleton, List.sum_singleton, cost]
    split
    · decide
    · exact Nat.le_refl 6
  · have plain : ¬ c.toNat ∈ [8, 9, 10, 12, 13] := by
      simp only [List.mem_cons, List.not_mem_nil, or_false]
      omega
    rw [if_neg plain, if_neg control]
    exact length

theorem bytes_quote_le (s : String) : bytes (quote s) ≤ textCost s := by
  have body : ∀ cs : List Char, bytes (cs.flatMap escape) ≤ (cs.utf8Encode.data.toList.map byteCost).sum := by
    intro cs
    induction cs with
    | nil => exact Nat.zero_le _
    | cons c rest ih =>
      have first := escape_cost c
      have split : (c :: rest).utf8Encode.data.toList = String.utf8EncodeChar c ++ rest.utf8Encode.data.toList := by
        rw [List.utf8Encode_cons, List.utf8Encode_singleton]
        simp
      rw [List.flatMap_cons, bytes_append, split, List.map_append, List.sum_append]
      omega
  have own := body s.toList
  rw [String.utf8Encode_toList] at own
  rw [quote, bytes_cons, bytes_append, textCost]
  change 1 + (_ + 1) ≤ _
  omega

mutual

/-- A bound of the printed bytes that only looks at the bytes of the texts. -/
def cost : Value → Nat
  | .null => 4
  | .bool _ => 5
  | .number n => bytes (printNumber n)
  | .text s => textCost s
  | .array items => 1 + itemsCost items
  | .object members => 1 + membersCost members

def itemsCost : List Value → Nat
  | [] => 1
  | item :: rest => cost item + 1 + itemsCost rest

def membersCost : List (String × Value) → Nat
  | [] => 1
  | (name, v) :: rest => textCost name + 1 + cost v + 1 + membersCost rest

end

mutual

theorem bytes_print_le : ∀ v : Value, bytes (print v) ≤ cost v
  | .null => Nat.le_refl _
  | .bool true | .bool false => by decide
  | .number n => Nat.le_refl _
  | .text s => bytes_quote_le s
  | .array items => by
    have inner := bytes_printItems_le items
    rw [print, bytes_cons, cost]
    exact Nat.add_le_add_left inner 1
  | .object members => by
    have inner := bytes_printMembers_le members
    rw [print, bytes_cons, cost]
    exact Nat.add_le_add_left inner 1

theorem bytes_printItems_le : ∀ items : List Value, bytes (printItems items) ≤ itemsCost items
  | [] => Nat.le_refl _
  | [item] => by
    have first := bytes_print_le item
    rw [printItems, bytes_append, itemsCost, itemsCost]
    change _ + 1 ≤ _
    omega
  | item :: next :: rest => by
    have first := bytes_print_le item
    have others := bytes_printItems_le (next :: rest)
    rw [printItems, bytes_append, bytes_cons, itemsCost]
    change _ + (1 + _) ≤ _
    omega

theorem bytes_printMembers_le : ∀ members : List (String × Value), bytes (printMembers members) ≤ membersCost members
  | [] => Nat.le_refl _
  | [(name, v)] => by
    have named := bytes_quote_le name
    have first := bytes_print_le v
    rw [printMembers, bytes_append, bytes_cons, bytes_append, membersCost, membersCost]
    change _ + (1 + (_ + 1)) ≤ _
    omega
  | (name, v) :: next :: rest => by
    have named := bytes_quote_le name
    have first := bytes_print_le v
    have others := bytes_printMembers_le (next :: rest)
    rw [printMembers, bytes_append, bytes_cons, bytes_append, bytes_cons, membersCost]
    change _ + (1 + (_ + (1 + _))) ≤ _
    omega

end

theorem canonical_size_le {v : Value} {limit : Nat} (small : cost v.normal ≤ limit) : (plainText.canonical v).utf8ByteSize ≤ limit := by
  change (String.ofList (print v.normal)).utf8ByteSize ≤ limit
  rw [← JsonDocument.utf8Bytes_sum]
  exact Nat.le_trans (bytes_print_le v.normal) small

end Costs

end RssMdmAgent.JsonEncoding
