import Mathlib.Algebra.Ring.Int.Defs
import Mathlib.Tactic.NormNum
import ContractAbi.Word

/-!
# Ranges of integers

Packing and unpacking test the number of significant bits of a word, inverted first if the word is
a negative number. Here the tests are stated as what they are for: the word, read without or with a
sign, is in the range of the integer type. At the full width there is nothing to test.
-/

namespace ContractAbi

namespace Word

variable {w : Word} {bits : Nat}

theorem bitLength_le_iff : w.bitLength ≤ bits ↔ w.toNat < 2 ^ bits := by
  rw [bitLength]
  by_cases hzero : w.toNat = 0
  · rw [if_pos hzero, hzero]
    exact iff_of_true (Nat.zero_le _) (Nat.two_pow_pos _)
  · rw [if_neg hzero, Nat.succ_le_iff, Nat.log2_lt hzero]

theorem bitLength_lt_iff (hbits : 0 < bits) : w.bitLength < bits ↔ w.toNat < 2 ^ (bits - 1) := by
  rw [← bitLength_le_iff]
  omega

theorem fitsUnsigned_iff : w.FitsUnsigned bits ↔ w.toNat < 2 ^ bits := bitLength_le_iff

/-- A negative number is one less than the negated complement of its word. -/
theorem toInt_of_msb (h : w.msb = true) : w.toInt = -((~~~w).toNat : Int) - 1 := by
  have hlt := w.isLt
  rw [BitVec.toInt_eq_msb_cond, if_pos h, BitVec.toNat_not]
  omega

theorem fitsSigned_iff (hbits : 0 < bits) :
    w.FitsSigned bits ↔ -(2 ^ (bits - 1) : Int) ≤ w.toInt ∧ w.toInt < 2 ^ (bits - 1) := by
  have hcast : ((2 ^ (bits - 1) : Nat) : Int) = 2 ^ (bits - 1) := by norm_cast
  rw [FitsSigned]
  by_cases hwide : 256 ≤ bits
  · have hpow : (2 ^ 255 : Nat) ≤ 2 ^ (bits - 1) := Nat.pow_le_pow_right (by decide) (by omega)
    have hlow := w.le_toInt
    have hhigh := w.toInt_lt
    refine iff_of_true (Or.inl hwide) ?_
    constructor <;> omega
  · rw [or_iff_right hwide, bitLength_lt_iff hbits]
    by_cases hneg : w.msb = true
    · rw [if_pos hneg, toInt_of_msb hneg]
      omega
    · rw [if_neg hneg, BitVec.toInt_eq_toNat_of_msb (Bool.eq_false_of_not_eq_true hneg)]
      omega

end Word

end ContractAbi
