import RssMdmAgent.ContractIdentity
import RssMdmAgent.DocumentSizes
import Mathlib.Tactic.Tauto

set_option autoImplicit false

/-! # Canonical network hosts -/

namespace RssMdmAgent.NetworkHosts
open ContractIdentity

inductive Host where
  | domain (name : String)
  | address (text : String)

def splitOn (separates : Char → Bool) : List Char → List (List Char)
  | [] => [[]]
  | c :: rest =>
    if separates c then [] :: splitOn separates rest
    else
      match splitOn separates rest with
      | [] => [[c]]
      | part :: parts => (c :: part) :: parts

def isWhitespace (c : Char) : Bool :=
  let n := c.toNat
  (9 ≤ n && n ≤ 13) || n == 32 || n == 0x85 || n == 0xa0 || n == 0x1680 || (0x2000 ≤ n && n ≤ 0x200a) || n == 0x2028 || n == 0x2029 ||
    n == 0x202f || n == 0x205f || n == 0x3000

def hostInput (input : String) : Bool :=
  input.utf8ByteSize ≤ 1024 && !input.toList.isEmpty &&
    !input.toList.any fun c => isWhitespace c || isControl c || ['/', '\\', '@', '?', '#', '%', '*'].contains c

def validLabel (label : List Char) : Bool :=
  !label.isEmpty && label.length ≤ 63 && label.head?.any Char.isAlphanum && label.getLast?.any Char.isAlphanum &&
    label.all fun b => b.isAlphanum || b == '-'

def canonicalDomain (name : List Char) : Option (List Char) :=
  let name := if name.getLast? = some '.' then name.dropLast else name
  if (String.ofList name).utf8ByteSize ≤ 253 && (splitOn (· == '.') name).all validLabel then some (name.map Char.toLower) else none

/-- The host parser of the URL crate. A host that it gives is read back as the same host. -/
class HostParser where
  parse : String → Option Host
  address_plain : ∀ {input text}, parse input = some (.address text) → hostInput text = true
  address_stable : ∀ {input text}, parse input = some (.address text) → parse text = some (.address text)
  domain_stable : ∀ {input name canonical}, parse input = some (.domain name) → canonicalDomain name.toList = some canonical →
    parse (String.ofList canonical) = some (.domain (String.ofList canonical))

def normalHost [HostParser] (input : String) : Option String :=
  if hostInput input then
    match HostParser.parse input with
    | none => none
    | some (.domain name) => (canonicalDomain name.toList).map String.ofList
    | some (.address text) => some text
  else none

structure NetworkHost [HostParser] where
  value : String
  canonical : normalHost value = some value
  deriving DecidableEq

section Hosts

theorem toLower_toNat (c : Char) : c.toLower.toNat = if 65 ≤ c.toNat ∧ c.toNat ≤ 90 then c.toNat + 32 else c.toNat := by
  unfold Char.toLower
  simp only [ge_iff_le, UInt32.le_iff_toNat_le]
  change (if h : 65 ≤ c.toNat ∧ c.toNat ≤ 90 then _ else _ : Char).toNat = _
  split
  · next upper =>
    have sum : (c.val + ('a'.val - 'A'.val)).toNat = c.toNat + 32 := by
      rw [UInt32.toNat_add]
      change (c.toNat + 32) % 2 ^ 32 = _
      omega
    exact sum
  · rfl

theorem char_ext {c d : Char} (same : c.toNat = d.toNat) : c = d := by
  rw [← Char.ofNat_toNat c, same, Char.ofNat_toNat]

theorem toLower_toLower (c : Char) : c.toLower.toLower = c.toLower := by
  apply char_ext
  rw [toLower_toNat c.toLower, toLower_toNat c]
  split
  · exact if_neg (by omega)
  · rfl

theorem toLower_alphanum (c : Char) : c.toLower.isAlphanum = c.isAlphanum := by
  rw [Bool.eq_iff_iff, isAlphanum_iff, isAlphanum_iff, toLower_toNat]
  split <;> omega

theorem toLower_eq_iff (c d : Char) (low : d.toNat < 65) : c.toLower = d ↔ c = d := by
  constructor
  · intro same
    have value := congrArg Char.toNat same
    rw [toLower_toNat] at value
    apply char_ext
    split at value <;> omega
  · rintro rfl
    apply char_ext
    rw [toLower_toNat, if_neg (by omega)]

theorem utf8Size_ascii {c : Char} (low : c.toNat < 128) : c.utf8Size = 1 := by
  unfold Char.utf8Size
  rw [if_pos]
  exact UInt32.le_iff_toNat_le.mpr (Nat.le_of_lt_succ low)

theorem splitOn_ne_nil (separates : Char → Bool) (cs : List Char) : splitOn separates cs ≠ [] := by
  induction cs with
  | nil => simp [splitOn]
  | cons c rest ih =>
    unfold splitOn
    split
    · simp
    · split <;> simp

theorem splitOn_map {separates : Char → Bool} {f : Char → Char} (same : ∀ c, separates (f c) = separates c) (cs : List Char) :
    splitOn separates (cs.map f) = (splitOn separates cs).map (List.map f) := by
  induction cs with
  | nil => rfl
  | cons c rest ih =>
    rw [List.map_cons, splitOn, splitOn, same, ih]
    split
    · rfl
    · cases splitOn separates rest <;> rfl

theorem mem_splitOn {separates : Char → Bool} {cs : List Char} {c : Char} (mem : c ∈ cs) :
    separates c = true ∨ ∃ part ∈ splitOn separates cs, c ∈ part := by
  induction cs with
  | nil => cases mem
  | cons d rest ih =>
    by_cases separator : separates d = true
    · rw [splitOn, if_pos separator]
      rcases List.mem_cons.mp mem with rfl | mem
      · exact .inl separator
      · exact (ih mem).imp_right fun ⟨part, mem, inside⟩ => ⟨part, List.mem_cons_of_mem _ mem, inside⟩
    · rw [splitOn, if_neg separator]
      rcases parts : splitOn separates rest with _ | ⟨first, others⟩
      · exact absurd parts (splitOn_ne_nil separates rest)
      rw [parts] at ih
      rcases List.mem_cons.mp mem with rfl | mem
      · exact .inr ⟨_, List.mem_cons_self, List.mem_cons_self⟩
      · rcases ih mem with separator | ⟨part, found, inside⟩
        · exact .inl separator
        · rcases List.mem_cons.mp found with rfl | found
          · exact .inr ⟨_, List.mem_cons_self, List.mem_cons_of_mem _ inside⟩
          · exact .inr ⟨part, List.mem_cons_of_mem _ found, inside⟩

theorem splitOn_last {separates : Char → Bool} {c : Char} (separator : separates c = true) (cs : List Char) :
    splitOn separates (cs ++ [c]) = splitOn separates cs ++ [[]] := by
  induction cs with
  | nil => simp [splitOn, separator]
  | cons d rest ih =>
    rw [List.cons_append, splitOn, splitOn, ih]
    split
    · rfl
    · rcases parts : splitOn separates rest with _ | ⟨first, others⟩
      · exact absurd parts (splitOn_ne_nil separates rest)
      · rfl

def DomainChar (c : Char) : Prop := c.isAlphanum = true ∨ c = '-' ∨ c = '.'

theorem domainChar_bounds {c : Char} (h : DomainChar c) : c.toNat = 45 ∨ c.toNat = 46 ∨ (48 ≤ c.toNat ∧ c.toNat ≤ 122) := by
  rcases h with h | rfl | rfl
  · have := (isAlphanum_iff c).mp h
    omega
  · exact .inl rfl
  · exact .inr (.inl rfl)

theorem labels_chars {name : List Char} (labels : (splitOn (· == '.') name).all validLabel = true) {c : Char} (mem : c ∈ name) :
    DomainChar c := by
  rcases @mem_splitOn (· == '.') _ _ mem with dot | ⟨part, found, inside⟩
  · exact .inr (.inr (by simpa using dot))
  · have label := List.all_eq_true.mp labels part found
    unfold validLabel at label
    simp only [Bool.and_eq_true, List.all_eq_true] at label
    rcases Bool.or_eq_true_iff.mp (label.2 c inside) with alphanum | dash
    · exact .inl alphanum
    · exact .inr (.inl (by simpa using dash))

theorem validLabel_toLower (label : List Char) : validLabel (label.map Char.toLower) = validLabel label := by
  have dash : ∀ b : Char, (b.toLower == '-') = (b == '-') := by
    intro b
    rw [Bool.eq_iff_iff, beq_iff_eq, beq_iff_eq]
    exact toLower_eq_iff b '-' (by decide)
  unfold validLabel
  rw [List.isEmpty_map, List.length_map, List.head?_map, List.getLast?_map, Option.any_map, Option.any_map, List.all_map]
  have alphanum : (fun b => b.toLower.isAlphanum) = Char.isAlphanum := funext toLower_alphanum
  have each : (fun b : Char => b.isAlphanum || b == '-') ∘ Char.toLower = fun b => b.isAlphanum || b == '-' := by
    funext b
    rw [Function.comp_apply, toLower_alphanum, dash]
  rw [alphanum, each]

theorem utf8ByteSize_toLower {name : List Char} (chars : ∀ c ∈ name, DomainChar c) :
    (String.ofList (name.map Char.toLower)).utf8ByteSize = (String.ofList name).utf8ByteSize := by
  rw [← JsonDocument.utf8Bytes_sum, ← JsonDocument.utf8Bytes_sum, List.map_map]
  refine congrArg List.sum (List.map_congr_left fun c mem => ?_)
  have bounds := domainChar_bounds (chars c mem)
  rw [Function.comp_apply, utf8Size_ascii (by rw [toLower_toNat]; split <;> omega), utf8Size_ascii (by omega)]

theorem nonempty_labels {name : List Char} (labels : (splitOn (· == '.') name).all validLabel = true) : name ≠ [] := by
  rintro rfl
  cases labels

theorem labels_last {name : List Char} (labels : (splitOn (· == '.') name).all validLabel = true) : name.getLast? ≠ some '.' := by
  intro last
  obtain ⟨front, rfl⟩ := List.getLast?_eq_some_iff.mp last
  rw [@splitOn_last (· == '.') '.' rfl, List.all_append, Bool.and_eq_true] at labels
  cases labels.2

theorem hostInput_domain {name : List Char} (size : (String.ofList name).utf8ByteSize ≤ 253)
    (labels : (splitOn (· == '.') name).all validLabel = true) : hostInput (String.ofList name) = true := by
  unfold hostInput
  rw [String.toList_ofList]
  simp only [Bool.and_eq_true, decide_eq_true_eq, Bool.not_eq_true', List.any_eq_false]
  refine ⟨⟨by omega, List.isEmpty_eq_false_iff.mpr (nonempty_labels labels)⟩, fun c mem => ?_⟩
  have bounds := domainChar_bounds (labels_chars labels mem)
  have listed : ['/', '\\', '@', '?', '#', '%', '*'].contains c = false := by
    rw [List.contains_eq_mem, decide_eq_false_iff_not]
    intro forbidden
    have chars := labels_chars labels mem
    simp only [List.mem_cons, List.not_mem_nil, or_false] at forbidden
    rcases forbidden with rfl | rfl | rfl | rfl | rfl | rfl | rfl <;> rcases chars with chars | chars | chars <;> revert chars <;> decide
  simp only [isWhitespace, isControl, listed, Bool.or_false, Bool.or_eq_true, Bool.and_eq_true, decide_eq_true_eq, beq_iff_eq]
  omega

theorem canonicalDomain_stable {name canonical : List Char} (h : canonicalDomain name = some canonical) :
    canonicalDomain canonical = some canonical ∧ hostInput (String.ofList canonical) = true := by
  unfold canonicalDomain at h
  dsimp only at h
  generalize (if name.getLast? = some '.' then name.dropLast else name) = bare at h
  split at h
  case isFalse => cases h
  next valid =>
  cases h
  rw [Bool.and_eq_true, decide_eq_true_eq] at valid
  obtain ⟨size, labels⟩ := valid
  have dot : ∀ c : Char, (c.toLower == '.') = (c == '.') := by
    intro c
    rw [Bool.eq_iff_iff, beq_iff_eq, beq_iff_eq]
    exact toLower_eq_iff c '.' (by decide)
  have labels' : (splitOn (· == '.') (bare.map Char.toLower)).all validLabel = true := by
    rw [splitOn_map dot, List.all_map]
    rw [show validLabel ∘ List.map Char.toLower = validLabel from funext validLabel_toLower]
    exact labels
  have size' : (String.ofList (bare.map Char.toLower)).utf8ByteSize ≤ 253 := by
    rw [utf8ByteSize_toLower fun c mem => labels_chars labels mem]
    exact size
  refine ⟨?_, hostInput_domain size' labels'⟩
  unfold canonicalDomain
  dsimp only
  rw [if_neg (labels_last labels'), if_pos (by rw [Bool.and_eq_true, decide_eq_true_eq]; exact ⟨size', labels'⟩), List.map_map]
  rw [show Char.toLower ∘ Char.toLower = Char.toLower from funext toLower_toLower]

variable [HostParser]

theorem normalHost_stable {input value : String} (h : normalHost input = some value) : normalHost value = some value := by
  unfold normalHost at h
  split at h
  case isFalse => cases h
  split at h
  · cases h
  · next name parsed =>
    obtain ⟨canonical, same, rfl⟩ := Option.map_eq_some_iff.mp h
    obtain ⟨stable, readable⟩ := canonicalDomain_stable same
    have read := HostParser.domain_stable parsed same
    unfold normalHost
    rw [if_pos readable, read]
    dsimp only
    rw [String.toList_ofList, stable, Option.map_some]
  · next text parsed =>
    cases h
    unfold normalHost
    rw [if_pos (HostParser.address_plain parsed), HostParser.address_stable parsed]

def NetworkHost.new (input : String) : Option NetworkHost :=
  (normalHost input).attach.map fun value => ⟨value.1, normalHost_stable value.2⟩

theorem NetworkHost.new_value (host : NetworkHost) : NetworkHost.new host.value = some host := by
  rw [NetworkHost.new, Option.map_eq_some_iff]
  exact ⟨⟨host.value, host.canonical⟩, Option.attach_eq_some_iff.mpr host.canonical, rfl⟩

end Hosts
end RssMdmAgent.NetworkHosts
