import RssMdmAgent.JsonValue

set_option autoImplicit false

/-! # The text of a JSON value -/

namespace RssMdmAgent.JsonText
open JsonValue

def Exact (v : Value) : Prop := ∀ n ∈ v.normal.numbers, ∀ i : Int, n = .int i → -2 ^ 53 < i ∧ i < 2 ^ 53

mutual

def depth : Value → Nat
  | .null | .bool _ | .number _ | .text _ => 1
  | .array items => itemDepth items + 1
  | .object members => memberDepth members + 1

def itemDepth : List Value → Nat
  | [] => 0
  | item :: rest => max (depth item) (itemDepth rest)

def memberDepth : List (String × Value) → Nat
  | [] => 0
  | (_, item) :: rest => max (depth item) (memberDepth rest)

end

/-- What the crates that write and parse documents are relied on for.

`toVec` is the compact writer, `fromSlice` the parser, which gives the members of an object in the order of the text, and `canonical`
the RFC 8785 form. The writer and the parser, whose recursion is limited, are inverse on documents of 64-bit integers. The canonical
text has the same members in its own order, its numbers are those of ECMAScript, which writes a double without a fraction like an
integer, and without fractions it has the same bytes in another order. -/
structure Serialization where
  toVec : Value → String
  fromSlice : String → Option Value
  canonical : Value → String
  fromSlice_toVec : ∀ v, depth v < 128 → (∀ n ∈ v.numbers, ∃ i : Int, n = .int i ∧ -2 ^ 63 ≤ i ∧ i < 2 ^ 64) →
    fromSlice (toVec v) = some v
  fromSlice_canonical : ∀ v, v.WellFormed → depth v < 128 → Exact v →
    ∃ document, fromSlice (canonical v) = some document ∧ document.unique = some v.normal
  canonical_normal : ∀ v, v.WellFormed → Exact v → canonical v.normal = canonical v
  canonical_size : ∀ v, v.WellFormed → Exact v → (∀ n ∈ v.numbers, n.isInt = true) → (canonical v).utf8ByteSize = (toVec v).utf8ByteSize

/-! ## One such writer and parser

Fractions are written as a quotient of integers, which no JSON writer does; all else is the usual text. -/

def hexDigit (n : Nat) : Char := Nat.digitChar n

/-- One character inside a string literal. -/
def escape (c : Char) : List Char :=
  if c = '"' then ['\\', '"']
  else if c = '\\' then ['\\', '\\']
  else if c.toNat = 8 then ['\\', 'b']
  else if c.toNat = 9 then ['\\', 't']
  else if c.toNat = 10 then ['\\', 'n']
  else if c.toNat = 12 then ['\\', 'f']
  else if c.toNat = 13 then ['\\', 'r']
  else if c.toNat < 0x20 then ['\\', 'u', '0', '0', hexDigit (c.toNat / 16), hexDigit (c.toNat % 16)]
  else [c]

def hexValue (c : Char) : Nat := if c.isDigit then c.toNat - 48 else c.toNat - 87

/-- The rest of a string literal. -/
def scanText : List Char → Option (List Char × List Char)
  | [] => none
  | '"' :: rest => some ([], rest)
  | '\\' :: 'u' :: '0' :: '0' :: high :: low :: rest =>
    (scanText rest).map fun (body, rest) => (Char.ofNat (16 * hexValue high + hexValue low) :: body, rest)
  | '\\' :: 'b' :: rest => (scanText rest).map fun (body, rest) => (Char.ofNat 8 :: body, rest)
  | '\\' :: 't' :: rest => (scanText rest).map fun (body, rest) => ('\t' :: body, rest)
  | '\\' :: 'n' :: rest => (scanText rest).map fun (body, rest) => ('\n' :: body, rest)
  | '\\' :: 'f' :: rest => (scanText rest).map fun (body, rest) => (Char.ofNat 12 :: body, rest)
  | '\\' :: 'r' :: rest => (scanText rest).map fun (body, rest) => ('\r' :: body, rest)
  | '\\' :: c :: rest => (scanText rest).map fun (body, rest) => (c :: body, rest)
  | c :: rest => (scanText rest).map fun (body, rest) => (c :: body, rest)

def quote (s : String) : List Char := '"' :: (s.toList.flatMap escape ++ ['"'])

def printInt (n : Int) : List Char := if n < 0 then '-' :: Nat.toDigits 10 n.natAbs else Nat.toDigits 10 n.natAbs

def printNumber : Number → List Char
  | .int n => printInt n
  | .float x => printInt x.value.num ++ '/' :: Nat.toDigits 10 x.value.den

mutual

def print : Value → List Char
  | .null => ['n', 'u', 'l', 'l']
  | .bool b => if b then ['t', 'r', 'u', 'e'] else ['f', 'a', 'l', 's', 'e']
  | .number n => printNumber n
  | .text s => quote s
  | .array items => '[' :: printItems items
  | .object members => '{' :: printMembers members

def printItems : List Value → List Char
  | [] => [']']
  | [item] => print item ++ [']']
  | item :: next :: rest => print item ++ ',' :: printItems (next :: rest)

def printMembers : List (String × Value) → List Char
  | [] => ['}']
  | [(name, v)] => quote name ++ ':' :: (print v ++ ['}'])
  | (name, v) :: next :: rest => quote name ++ ':' :: (print v ++ ',' :: printMembers (next :: rest))

end

def scanNatural (cs : List Char) : Option (Nat × List Char) :=
  match cs.takeWhile Char.isDigit with
  | [] => none
  | digits => some (Nat.ofDigitChars 10 digits 0, cs.dropWhile Char.isDigit)

def scanInt : List Char → Option (Int × List Char)
  | '-' :: rest => (scanNatural rest).map fun (n, rest) => (-(n : Int), rest)
  | cs => (scanNatural cs).map fun (n, rest) => ((n : Int), rest)

def readDouble (x : Rat) : Option Double := if finite : isDouble x = true then some ⟨x, finite⟩ else none

def scanNumber (cs : List Char) : Option (Number × List Char) :=
  match scanInt cs with
  | none => none
  | some (n, '/' :: rest) => (scanNatural rest).bind fun (d, rest) => (readDouble (mkRat n d)).map fun x => (.float x, rest)
  | some (n, rest) => some (.int n, rest)

def scanKeyword : List Char → Option (Value × List Char)
  | 'n' :: 'u' :: 'l' :: 'l' :: rest => some (.null, rest)
  | 't' :: 'r' :: 'u' :: 'e' :: rest => some (.bool true, rest)
  | 'f' :: 'a' :: 'l' :: 's' :: 'e' :: rest => some (.bool false, rest)
  | _ => none

mutual

def scan : Nat → List Char → Option (Value × List Char)
  | 0, _ | _, [] => none
  | fuel + 1, c :: rest =>
    if c = '"' then (scanText rest).map fun r => (.text (String.ofList r.1), r.2)
    else if c = '[' then
      if rest.head? = some ']' then some (.array [], rest.tail) else (scanItems fuel rest).map fun r => (.array r.1, r.2)
    else if c = '{' then
      if rest.head? = some '}' then some (.object [], rest.tail) else (scanMembers fuel rest).map fun r => (.object r.1, r.2)
    else if c = '-' ∨ c.isDigit then (scanNumber (c :: rest)).map fun r => (.number r.1, r.2)
    else scanKeyword (c :: rest)

def scanItems : Nat → List Char → Option (List Value × List Char)
  | 0, _ => none
  | fuel + 1, cs =>
    (scan fuel cs).bind fun item =>
      if item.2.head? = some ',' then (scanItems fuel item.2.tail).map fun r => (item.1 :: r.1, r.2)
      else if item.2.head? = some ']' then some ([item.1], item.2.tail)
      else none

def scanMembers : Nat → List Char → Option (List (String × Value) × List Char)
  | 0, _ => none
  | fuel + 1, cs =>
    if cs.head? = some '"' then
      (scanText cs.tail).bind fun name =>
        if name.2.head? = some ':' then
          (scan fuel name.2.tail).bind fun v =>
            if v.2.head? = some ',' then (scanMembers fuel v.2.tail).map fun r => ((String.ofList name.1, v.1) :: r.1, r.2)
            else if v.2.head? = some '}' then some ([(String.ofList name.1, v.1)], v.2.tail)
            else none
        else none
    else none

end

def parse (s : String) : Option Value :=
  match scan s.toList.length s.toList with
  | some (v, []) => some v
  | _ => none

section Text

@[simp] theorem scanText_escape (c : Char) (rest : List Char) :
    scanText (escape c ++ rest) = (scanText rest).map fun (body, rest) => (c :: body, rest) := by
  unfold escape
  split
  · next same => subst same; rfl
  next quote =>
  split
  · next same => subst same; rfl
  next slash =>
  split
  · next same => rw [← Char.ofNat_toNat c, same]; rfl
  split
  · next same => rw [← Char.ofNat_toNat c, same]; rfl
  split
  · next same => rw [← Char.ofNat_toNat c, same]; rfl
  split
  · next same => rw [← Char.ofNat_toNat c, same]; rfl
  split
  · next same => rw [← Char.ofNat_toNat c, same]; rfl
  split
  · next control =>
    have digits : ∀ n < 0x20, 16 * hexValue (hexDigit (n / 16)) + hexValue (hexDigit (n % 16)) = n := by decide
    change (scanText rest).map _ = _
    rw [digits c.toNat control, Char.ofNat_toNat]
  · rw [List.cons_append, List.nil_append, scanText]
    · exact quote
    all_goals simp_all

theorem scanText_body (body : List Char) (rest : List Char) : scanText (body.flatMap escape ++ '"' :: rest) = some (body, rest) := by
  induction body with
  | nil => rfl
  | cons c body ih => rw [List.flatMap_cons, List.append_assoc, scanText_escape, ih, Option.map_some]

theorem quote_append (s : String) (rest : List Char) : quote s ++ rest = '"' :: (s.toList.flatMap escape ++ '"' :: rest) := by
  rw [quote, List.cons_append, List.append_assoc]
  rfl

end Text

section Numbers

def Ends (rest : List Char) : Prop := ∀ c ∈ rest.head?, c.isDigit = false ∧ c ≠ '/'

theorem scanNatural_append (n : Nat) {rest : List Char} (stop : ∀ c ∈ rest.head?, c.isDigit = false) :
    scanNatural (Nat.toDigits 10 n ++ rest) = some (n, rest) := by
  have all : ∀ c ∈ Nat.toDigits 10 n, c.isDigit = true := fun c mem => Nat.isDigit_of_mem_toDigits (by decide) (by decide) mem
  have front : rest.takeWhile Char.isDigit = [] := by
    cases rest with
    | nil => rfl
    | cons c rest => rw [List.takeWhile_cons, stop c rfl]; rfl
  have back : rest.dropWhile Char.isDigit = rest := by
    cases rest with
    | nil => rfl
    | cons c rest => rw [List.dropWhile_cons, stop c rfl]; rfl
  rw [scanNatural, List.takeWhile_append_of_pos all, List.dropWhile_append_of_pos all, front, back, List.append_nil]
  cases digits : Nat.toDigits 10 n with
  | nil => exact absurd digits Nat.toDigits_ne_nil
  | cons c more =>
    have value := @Nat.ofDigitChars_ten_toDigits n
    rw [digits] at value
    dsimp only
    rw [value]

theorem printInt_cons (n : Int) : ∃ c rest, printInt n = c :: rest ∧ (c = '-' ∨ c.isDigit = true) := by
  unfold printInt
  split
  · exact ⟨_, _, rfl, .inl rfl⟩
  · cases digits : Nat.toDigits 10 n.natAbs with
    | nil => exact absurd digits Nat.toDigits_ne_nil
    | cons c more =>
      exact ⟨c, more, rfl, .inr (Nat.isDigit_of_mem_toDigits (by decide) (by decide) (digits ▸ List.mem_cons_self))⟩

theorem scanInt_append (n : Int) {rest : List Char} (stop : ∀ c ∈ rest.head?, c.isDigit = false) :
    scanInt (printInt n ++ rest) = some (n, rest) := by
  unfold printInt
  split
  · next negative =>
    have same : -(n.natAbs : Int) = n := by omega
    rw [List.cons_append, scanInt, scanNatural_append _ stop, Option.map_some]
    dsimp only
    rw [same]
  · next positive =>
    have plain : scanInt (Nat.toDigits 10 n.natAbs ++ rest) =
        (scanNatural (Nat.toDigits 10 n.natAbs ++ rest)).map fun (n, rest) => ((n : Int), rest) := by
      cases digits : Nat.toDigits 10 n.natAbs with
      | nil => exact absurd digits Nat.toDigits_ne_nil
      | cons c more =>
        have digit : c.isDigit = true := Nat.isDigit_of_mem_toDigits (by decide) (by decide) (digits ▸ List.mem_cons_self)
        rw [List.cons_append, scanInt]
        intro _ same
        cases same
        revert digit
        decide
    have same : (n.natAbs : Int) = n := by omega
    rw [plain, scanNatural_append _ stop, Option.map_some]
    dsimp only
    rw [same]

theorem scanNumber_append (n : Number) {rest : List Char} (ends : Ends rest) : scanNumber (printNumber n ++ rest) = some (n, rest) := by
  have stop : ∀ c ∈ rest.head?, c.isDigit = false := fun c mem => (ends c mem).1
  cases n with
  | int n =>
    rw [printNumber, scanNumber, scanInt_append n stop]
    split
    · next h => cases h
    · next slash =>
      cases slash
      exact absurd rfl (ends '/' rfl).2
    · next h => cases h; rfl
  | float x =>
    rw [printNumber, List.append_assoc, List.cons_append, scanNumber, scanInt_append _ (by rintro c ⟨⟩; decide)]
    change (scanNatural (Nat.toDigits 10 x.value.den ++ rest)).bind _ = _
    rw [scanNatural_append _ stop, Option.bind_some]
    dsimp only
    rw [Rat.mkRat_self, readDouble, dif_pos x.finite]
    rfl

theorem printNumber_cons (n : Number) : ∃ c rest, printNumber n = c :: rest ∧ (c = '-' ∨ c.isDigit = true) := by
  cases n with
  | int n => exact printInt_cons n
  | float x =>
    obtain ⟨c, rest, same, first⟩ := printInt_cons x.value.num
    exact ⟨c, rest ++ '/' :: Nat.toDigits 10 x.value.den, by rw [printNumber, same]; rfl, first⟩

end Numbers

section Documents

mutual

def steps : Value → Nat
  | .array items => 1 + itemSteps items
  | .object members => 1 + memberSteps members
  | _ => 1

def itemSteps : List Value → Nat
  | [] => 0
  | item :: rest => 1 + steps item + itemSteps rest

def memberSteps : List (String × Value) → Nat
  | [] => 0
  | (_, v) :: rest => 1 + steps v + memberSteps rest

end

mutual

theorem steps_le : ∀ v : Value, steps v ≤ (print v).length
  | .null | .bool true | .bool false => by decide
  | .number n => by
    obtain ⟨c, rest, same, -⟩ := printNumber_cons n
    rw [print, same]
    exact Nat.succ_le_succ (Nat.zero_le _)
  | .text s => by simp [steps, print, quote]
  | .array items => by
    have tail := itemSteps_le items
    rw [steps, print, List.length_cons]
    omega
  | .object members => by
    have tail := memberSteps_le members
    rw [steps, print, List.length_cons]
    omega

theorem itemSteps_le : ∀ items, itemSteps items ≤ (printItems items).length
  | [] => Nat.zero_le _
  | [item] => by
    have first := steps_le item
    simp only [itemSteps, printItems, List.length_append, List.length_cons, List.length_nil]
    omega
  | item :: next :: rest => by
    have first := steps_le item
    have tail := itemSteps_le (next :: rest)
    simp only [itemSteps, printItems, List.length_append, List.length_cons] at tail ⊢
    omega

theorem memberSteps_le : ∀ members, memberSteps members ≤ (printMembers members).length
  | [] => Nat.zero_le _
  | [(name, v)] => by
    have first := steps_le v
    simp only [memberSteps, printMembers, List.length_append, List.length_cons, List.length_nil]
    omega
  | (name, v) :: next :: rest => by
    have first := steps_le v
    have tail := memberSteps_le (next :: rest)
    rw [memberSteps, printMembers, List.length_append, List.length_cons, List.length_append, List.length_cons]
    omega

end

theorem print_cons (v : Value) : ∃ c rest, print v = c :: rest ∧ c ≠ ']' := by
  cases v with
  | null => exact ⟨_, _, rfl, by decide⟩
  | bool b => cases b <;> exact ⟨_, _, rfl, by decide⟩
  | text s => exact ⟨_, _, rfl, by decide⟩
  | array items | object members => exact ⟨_, _, rfl, by decide⟩
  | number n =>
    obtain ⟨c, rest, same, first⟩ := printNumber_cons n
    refine ⟨c, rest, same, ?_⟩
    rintro rfl
    revert first
    decide

theorem ends_cons {c : Char} {rest : List Char} (digit : c.isDigit = false) (slash : c ≠ '/') : Ends (c :: rest) := by
  rintro d ⟨⟩
  exact ⟨digit, slash⟩

mutual

theorem scan_print : ∀ (v : Value) (fuel : Nat) (rest : List Char), steps v ≤ fuel → Ends rest → scan fuel (print v ++ rest) = some (v, rest)
  | .null, fuel + 1, rest, _, _ | .bool true, fuel + 1, rest, _, _ | .bool false, fuel + 1, rest, _, _ => rfl
  | .number n, fuel + 1, rest, _, ends => by
    have read := scanNumber_append n ends
    obtain ⟨c, more, same, first⟩ := printNumber_cons n
    have other : ∀ d, d.isDigit = false → d ≠ '-' → c ≠ d := by
      rintro d digit minus rfl
      rcases first with rfl | first
      · exact minus rfl
      · rw [digit] at first
        cases first
    rw [same, List.cons_append] at read
    rw [print, same, List.cons_append, scan, if_neg (other '"' (by decide) (by decide)), if_neg (other '[' (by decide) (by decide)),
      if_neg (other '{' (by decide) (by decide)), if_pos first, read, Option.map_some]
  | .text s, fuel + 1, rest, _, _ => by
    rw [print, quote_append, scan, if_pos rfl, scanText_body, Option.map_some, String.ofList_toList]
  | .array [], fuel + 1, rest, _, _ => rfl
  | .array (item :: items), fuel + 1, rest, enough, _ => by
    have read := scanItems_print item items fuel rest (by rw [steps] at enough; omega)
    obtain ⟨c, more, same, first⟩ : ∃ c more, printItems (item :: items) = c :: more ∧ c ≠ ']' := by
      obtain ⟨c, more, same, first⟩ := print_cons item
      cases items <;> exact ⟨c, _, by rw [printItems, same]; rfl, first⟩
    rw [print, List.cons_append, scan, if_neg (by decide), if_pos rfl]
    rw [same, List.cons_append] at read ⊢
    rw [List.head?_cons, if_neg fun h => first (Option.some.inj h), read, Option.map_some]
  | .object [], fuel + 1, rest, _, _ => rfl
  | .object ((name, v) :: members), fuel + 1, rest, enough, _ => by
    have read := scanMembers_print name v members fuel rest (by rw [steps] at enough; omega)
    obtain ⟨more, same⟩ : ∃ more, printMembers ((name, v) :: members) = '"' :: more := by
      cases members <;> exact ⟨_, rfl⟩
    rw [print, List.cons_append, scan, if_neg (by decide), if_neg (by decide), if_pos rfl]
    rw [same, List.cons_append] at read ⊢
    rw [if_neg (by simp), read, Option.map_some]
  | .null, 0, _, enough, _ | .bool _, 0, _, enough, _ | .number _, 0, _, enough, _ | .text _, 0, _, enough, _ => by cases enough
  | .array _, 0, _, enough, _ | .object _, 0, _, enough, _ => by rw [steps] at enough; omega

theorem scanItems_print : ∀ (item : Value) (items : List Value) (fuel : Nat) (rest : List Char), itemSteps (item :: items) ≤ fuel →
    scanItems fuel (printItems (item :: items) ++ rest) = some (item :: items, rest)
  | item, [], fuel + 1, rest, enough => by
    rw [itemSteps] at enough
    rw [printItems, List.append_assoc, List.cons_append, List.nil_append, scanItems,
      scan_print item fuel _ (by omega) (ends_cons (by decide) (by decide)), Option.bind_some]
    rfl
  | item, next :: items, fuel + 1, rest, enough => by
    rw [itemSteps] at enough
    rw [printItems, List.append_assoc, List.cons_append, scanItems,
      scan_print item fuel _ (by omega) (ends_cons (by decide) (by decide))]
    simp only [Option.bind_some, List.head?_cons, if_true, List.tail_cons]
    rw [scanItems_print next items fuel rest (by omega), Option.map_some]
  | _, _, 0, _, enough => by rw [itemSteps] at enough; omega

theorem scanMembers_print : ∀ (name : String) (v : Value) (members : List (String × Value)) (fuel : Nat) (rest : List Char),
    memberSteps ((name, v) :: members) ≤ fuel →
    scanMembers fuel (printMembers ((name, v) :: members) ++ rest) = some ((name, v) :: members, rest)
  | name, v, [], fuel + 1, rest, enough => by
    rw [memberSteps] at enough
    rw [printMembers, List.append_assoc, quote_append, scanMembers, List.head?_cons, if_pos rfl, List.tail_cons, scanText_body]
    simp only [Option.bind_some, List.cons_append, List.head?_cons, if_true, List.tail_cons, List.append_assoc, List.nil_append]
    rw [scan_print v fuel _ (by omega) (ends_cons (by decide) (by decide)), Option.bind_some, String.ofList_toList]
    rfl
  | name, v, (other, w) :: members, fuel + 1, rest, enough => by
    rw [memberSteps] at enough
    rw [printMembers, List.append_assoc, quote_append, scanMembers, List.head?_cons, if_pos rfl, List.tail_cons, scanText_body]
    simp only [Option.bind_some, List.cons_append, List.head?_cons, if_true, List.tail_cons, List.append_assoc]
    rw [scan_print v fuel _ (by omega) (ends_cons (by decide) (by decide))]
    simp only [Option.bind_some, List.head?_cons, if_true, List.tail_cons]
    rw [scanMembers_print other w members fuel rest (by omega), Option.map_some, String.ofList_toList]
  | _, _, _, 0, _, enough => by rw [memberSteps] at enough; omega

end

theorem parse_print (v : Value) : parse (String.ofList (print v)) = some v := by
  have read := scan_print v (print v).length [] (steps_le v) (by rintro _ ⟨⟩)
  rw [List.append_nil] at read
  rw [parse, String.toList_ofList, read]

/-- The plain writer, its parser and the same writer on the normal form. -/
def plainText : Serialization where
  toVec v := String.ofList (print v)
  fromSlice := parse
  canonical v := String.ofList (print v.normal)
  fromSlice_toVec v _ _ := parse_print v
  fromSlice_canonical v formed _ _ := ⟨v.normal, parse_print _, unique_of_wellFormed _ (normal_wellFormed v formed)⟩
  canonical_normal v _ _ := by rw [normal_normal]
  canonical_size v _ _ whole := by rw [normal_of_isInt v whole]

end Documents

end RssMdmAgent.JsonText
