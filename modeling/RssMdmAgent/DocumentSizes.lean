import RssMdmAgent.ContractIdentity
import RssMdmAgent.JsonDocument
import Mathlib.Algebra.Order.BigOperators.Group.List
import Mathlib.Algebra.Order.Group.Nat

set_option autoImplicit false

/-! # Bounds of encoded sizes -/

namespace RssMdmAgent.JsonDocument

theorem natSize_le_iff {n k : Nat} (positive : 0 < k) : natSize n ≤ k ↔ n < 10 ^ k :=
  Nat.length_toDigits_le_iff (by decide) positive

theorem natSize_mono {m n : Nat} (h : m ≤ n) : natSize m ≤ natSize n := by
  have positive : 0 < natSize n := Nat.length_toDigits_pos
  exact (natSize_le_iff positive).mpr (Nat.lt_of_le_of_lt h ((natSize_le_iff positive).mp (Nat.le_refl _)))

@[simp] theorem size_nat (n : Nat) : (Json.nat n).size = natSize n := by
  simp [Json.nat, Json.size, intSize]

theorem utf8Bytes_sum (characters : List Char) : (characters.map Char.utf8Size).sum = (String.ofList characters).utf8ByteSize := by
  induction characters with
  | nil => rfl
  | cons c rest ih =>
    have split : String.ofList (c :: rest) = String.singleton c ++ String.ofList rest := by
      rw [show c :: rest = [c] ++ rest from rfl, String.ofList_append]
      rfl
    rw [List.map_cons, List.sum_cons, ih, split, String.utf8ByteSize_append, String.utf8ByteSize_singleton]

theorem textSize_le {value : String} (plain : ∀ c ∈ value.toList, escapedSize c ≤ c.utf8Size) : textSize value ≤ 2 + value.utf8ByteSize := by
  have total := List.sum_le_sum plain
  rw [utf8Bytes_sum, String.ofList_toList] at total
  exact Nat.add_le_add_left total 2

theorem escapedSize_plain {c : Char} (quote : c ≠ '"') (slash : c ≠ '\\') (printable : 0x20 ≤ c.toNat) : escapedSize c ≤ c.utf8Size := by
  have none : c.toNat ∉ [8, 9, 10, 12, 13] := by
    simp only [List.mem_cons, List.not_mem_nil, or_false]
    omega
  unfold escapedSize
  rw [if_neg (not_or.mpr ⟨quote, slash⟩), if_neg none, if_neg (Nat.not_lt.mpr printable)]

theorem escapedSize_among {c : Char} {others : List Char} (plain : (others.all fun d => escapedSize d ≤ d.utf8Size) = true)
    (h : (c.isAlphanum || others.contains c) = true) : escapedSize c ≤ c.utf8Size := by
  rcases Bool.or_eq_true_iff.mp h with alphanum | listed
  · have printable := (ContractIdentity.isAlphanum_iff c).mp alphanum
    refine escapedSize_plain ?_ ?_ (by omega)
    · rintro rfl
      revert alphanum
      decide
    · rintro rfl
      revert alphanum
      decide
  · exact of_decide_eq_true (List.all_eq_true.mp plain c (List.contains_iff_mem.mp listed))

end RssMdmAgent.JsonDocument
