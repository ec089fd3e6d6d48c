import Mathlib.Data.Nat.Digits.Lemmas
import Mathlib.Data.Ordering.Basic
import Mathlib.Order.Compare
import Mathlib.Tactic.Linarith

set_option autoImplicit false

/-! # Numbers as bytes without leading zeros, compared by length and then by bytes -/

namespace RssMdmAgent.BigEndianNumbers

def value : List UInt8 → Nat
  | [] => 0
  | b :: rest => b.toNat * 256 ^ rest.length + value rest

def Canonical : List UInt8 → Prop
  | [] => False
  | [_] => True
  | b :: _ => b ≠ 0

def toBytes (n : Nat) : List UInt8 := (Nat.digits 256 n).reverse.map UInt8.ofNat

def compareNumbers (a b : List UInt8) : Ordering := (compare a.length b.length).then (compare a b)

theorem value_lt (a : List UInt8) : value a < 256 ^ a.length := by
  induction a with
  | nil => exact Nat.one_pos
  | cons b rest ih =>
    have small : b.toNat + 1 ≤ 256 := b.toNat_lt
    calc b.toNat * 256 ^ rest.length + value rest < b.toNat * 256 ^ rest.length + 256 ^ rest.length := by omega
      _ = (b.toNat + 1) * 256 ^ rest.length := by ring
      _ ≤ 256 * 256 ^ rest.length := Nat.mul_le_mul_right _ small
      _ = 256 ^ (b :: rest).length := by rw [List.length_cons, Nat.pow_succ, Nat.mul_comm]

theorem compare_byte (x y : UInt8) : compare x y = compare x.toNat y.toNat := by
  rw [UInt8.compare_eq_toNat_compare_toNat]

theorem compare_digit {x y u v k : Nat} (small : u < k) (small' : v < k) :
    (compare x y).then (compare u v) = compare (x * k + u) (y * k + v) := by
  rcases Nat.lt_trichotomy x y with less | rfl | more
  · have room := Nat.mul_le_mul_right k (Nat.succ_le_of_lt less)
    rw [Nat.succ_mul] at room
    have first : compare x y = .lt := Nat.compare_eq_lt.mpr less
    have whole : compare (x * k + u) (y * k + v) = .lt := Nat.compare_eq_lt.mpr (by omega)
    rw [first, whole]
    rfl
  · have first : compare x x = .eq := Nat.compare_eq_eq.mpr rfl
    rw [first]
    change compare u v = _
    rcases Nat.lt_trichotomy u v with less | rfl | more
    · rw [Nat.compare_eq_lt.mpr less, Nat.compare_eq_lt.mpr (Nat.add_lt_add_left less _)]
    · rw [Nat.compare_eq_eq.mpr rfl, Nat.compare_eq_eq.mpr rfl]
    · rw [Nat.compare_eq_gt.mpr more, Nat.compare_eq_gt.mpr (Nat.add_lt_add_left more _)]
  · have room := Nat.mul_le_mul_right k (Nat.succ_le_of_lt more)
    rw [Nat.succ_mul] at room
    have first : compare x y = .gt := Nat.compare_eq_gt.mpr more
    have whole : compare (x * k + u) (y * k + v) = .gt := Nat.compare_eq_gt.mpr (by omega)
    rw [first, whole]
    rfl

theorem compare_same_length : ∀ {a b : List UInt8}, a.length = b.length → compare a b = compare (value a) (value b)
  | [], [], _ => rfl
  | x :: a, y :: b, len => by
    have len : a.length = b.length := Nat.succ.inj len
    have small' := value_lt b
    rw [← len] at small'
    rw [List.compare_cons_cons, compare_byte, compare_same_length len, compare_digit (value_lt a) small']
    show _ = compare (x.toNat * 256 ^ a.length + value a) (y.toNat * 256 ^ b.length + value b)
    rw [len]

theorem Canonical.length_pos : ∀ {a : List UInt8}, Canonical a → 0 < a.length
  | _ :: _, _ => Nat.succ_pos _

theorem Canonical.least : ∀ {a : List UInt8}, Canonical a → 1 < a.length → 256 ^ (a.length - 1) ≤ value a
  | b :: c :: rest, canonical, _ => by
    have first : 1 ≤ b.toNat := Nat.one_le_iff_ne_zero.mpr fun zero => canonical (UInt8.toNat_inj.mp zero)
    calc 256 ^ (c :: rest).length = 1 * 256 ^ (c :: rest).length := (Nat.one_mul _).symm
      _ ≤ b.toNat * 256 ^ (c :: rest).length := Nat.mul_le_mul_right _ first
      _ ≤ value (b :: c :: rest) := Nat.le_add_right _ _

theorem Canonical.lt_of_shorter {a b : List UInt8} (ha : Canonical a) (hb : Canonical b) (shorter : a.length < b.length) :
    value a < value b := by
  have some := ha.length_pos
  calc value a < 256 ^ a.length := value_lt a
    _ ≤ 256 ^ (b.length - 1) := Nat.pow_le_pow_right (by decide) (by omega)
    _ ≤ value b := hb.least (by omega)

theorem compareNumbers_eq {a b : List UInt8} (ha : Canonical a) (hb : Canonical b) :
    compareNumbers a b = compare (value a) (value b) := by
  unfold compareNumbers
  rcases Nat.lt_trichotomy a.length b.length with less | same | more
  · have lengths : compare a.length b.length = .lt := Nat.compare_eq_lt.mpr less
    rw [lengths, Nat.compare_eq_lt.mpr (ha.lt_of_shorter hb less)]
    rfl
  · have lengths : compare a.length b.length = .eq := Nat.compare_eq_eq.mpr same
    rw [lengths, compare_same_length same]
    rfl
  · have lengths : compare a.length b.length = .gt := Nat.compare_eq_gt.mpr more
    rw [lengths, Nat.compare_eq_gt.mpr (hb.lt_of_shorter ha more)]
    rfl

theorem toBytes_canonical {n : Nat} (positive : n ≠ 0) : Canonical (toBytes n) := by
  have some : Nat.digits 256 n ≠ [] := Nat.digits_ne_nil_iff_ne_zero.mpr positive
  have last : ∀ some : Nat.digits 256 n ≠ [], (Nat.digits 256 n).getLast some ≠ 0 := fun _ => Nat.getLast_digit_ne_zero 256 positive
  have small : ∀ d ∈ Nat.digits 256 n, d < 256 := fun d mem => Nat.digits_lt_base (by decide) mem
  unfold toBytes
  generalize Nat.digits 256 n = digits at some last small
  cases digits using List.reverseRecOn with
  | nil => exact absurd rfl some
  | append_singleton front d =>
    have last : d ≠ 0 := by simpa using last some
    rw [List.reverse_append, List.reverse_singleton, List.singleton_append, List.map_cons]
    cases (front.reverse.map UInt8.ofNat) with
    | nil => trivial
    | cons c rest =>
      intro zero
      have same := congrArg UInt8.toNat zero
      rw [UInt8.toNat_ofNat_of_lt' (small d (List.mem_append_right _ (List.mem_singleton_self d)))] at same
      exact last same

end RssMdmAgent.BigEndianNumbers
