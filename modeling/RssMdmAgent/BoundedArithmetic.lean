import Mathlib.Tactic.Linarith

set_option autoImplicit false

/-! # Unsigned 64-bit sums on natural numbers -/

namespace RssMdmAgent.BoundedArithmetic

def maxWord : Nat := 2 ^ 64 - 1

def checkedAdd (a b : Nat) : Option Nat := if a + b ≤ maxWord then some (a + b) else none

def checkedSub (a b : Nat) : Option Nat := if b ≤ a then some (a - b) else none

def saturatingAdd (a b : Nat) : Nat := min (a + b) maxWord

def checkedSum (values : List Nat) : Option Nat := values.foldlM checkedAdd 0

theorem checkedAdd_eq_some {a b c : Nat} :
    checkedAdd a b = some c ↔ c = a + b ∧ a + b ≤ maxWord := by
  unfold checkedAdd
  split
  · next h => simp only [Option.some.injEq, h, and_true]; exact eq_comm
  · next h => simp only [reduceCtorEq, h, and_false]

theorem checkedSub_eq_some {a b c : Nat} :
    checkedSub a b = some c ↔ b ≤ a ∧ c = a - b := by
  unfold checkedSub
  split
  · next h => simp only [Option.some.injEq, h, true_and]; exact eq_comm
  · next h => simp only [reduceCtorEq, h, false_and]

theorem saturatingAdd_of_le {a b : Nat} (h : a + b ≤ maxWord) : saturatingAdd a b = a + b :=
  Nat.min_eq_left h

end RssMdmAgent.BoundedArithmetic
