import Mathlib.Tactic.Linarith

set_option autoImplicit false

/-! # Validated identifiers, digests and package text -/

namespace RssMdmAgent.ContractIdentity

def validId (value : String) : Bool :=
  match value.toList with
  | [] => false
  | first :: rest =>
    value.utf8ByteSize ≤ 128 && first.isAlphanum &&
      rest.all fun b => b.isAlphanum || ['.', '_', ':', '/', '-'].contains b

theorem isAlphanum_iff (c : Char) : c.isAlphanum = true ↔
    (48 ≤ c.toNat ∧ c.toNat ≤ 57) ∨ (65 ≤ c.toNat ∧ c.toNat ≤ 90) ∨ (97 ≤ c.toNat ∧ c.toNat ≤ 122) := by
  have digit : c.isDigit = true ↔ 48 ≤ c.toNat ∧ c.toNat ≤ 57 :=
    Bool.and_eq_true_iff.trans (and_congr decide_eq_true_iff decide_eq_true_iff)
  have upper : c.isUpper = true ↔ 65 ≤ c.toNat ∧ c.toNat ≤ 90 := decide_eq_true_iff
  have lower : c.isLower = true ↔ 97 ≤ c.toNat ∧ c.toNat ≤ 122 :=
    Bool.and_eq_true_iff.trans (and_congr decide_eq_true_iff decide_eq_true_iff)
  have alpha : c.isAlpha = true ↔ _ := Bool.or_eq_true_iff.trans (or_congr upper lower)
  rw [show c.isAlphanum = true ↔ _ from Bool.or_eq_true_iff.trans (or_congr alpha digit)]
  exact or_comm

structure Identifier where
  value : String
  valid : validId value = true
  deriving DecidableEq, Repr

abbrev ActorId := Identifier
abbrev DeviceId := Identifier
abbrev RequestId := Identifier
abbrev AttemptId := Identifier
abbrev EventId := Identifier

def validDigest (value : String) : Bool :=
  value.utf8ByteSize == 64 &&
    value.toList.all fun b => b.isDigit || ('a' ≤ b && b ≤ 'f')

structure Digest where
  value : String
  valid : validDigest value = true
  deriving DecidableEq, Repr

def isControl (c : Char) : Bool := c.toNat < 0x20 || (0x7f ≤ c.toNat && c.toNat < 0xa0)

def validPackageValue (value : String) : Bool :=
  value.utf8ByteSize ≠ 0 && value.utf8ByteSize ≤ 1024 && !value.toList.any isControl

structure PackageValue where
  value : String
  valid : validPackageValue value = true
  deriving DecidableEq, Repr

theorem Identifier.ext_value {a b : Identifier} (h : a.value = b.value) : a = b := by
  cases a
  cases b
  cases h
  rfl

theorem Identifier.size_le (id : Identifier) : id.value.utf8ByteSize ≤ 128 := by
  have valid := id.valid
  unfold validId at valid
  split at valid
  · cases valid
  · simp only [Bool.and_eq_true, decide_eq_true_eq] at valid
    exact valid.1.1

end RssMdmAgent.ContractIdentity
