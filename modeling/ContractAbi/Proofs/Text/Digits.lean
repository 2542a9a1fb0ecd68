import Mathlib.Data.List.Induction
import ContractAbi.AbiType.Basic

/-!
# Decimal digits

Numbers in signatures are read with any zeros in front of them and are written without. Reading
what was written gives the number back, so the digits tell the number; writing what was read drops
the zeros.
-/

namespace ContractAbi

/-- The number that a run of digits stands for. -/
def digitsValue (digits : List Char) : Nat := Nat.ofDigitChars 10 digits 0

/-! ## Writing -/

theorem decimal_ne_nil (n : Nat) : AbiType.decimal n ≠ [] := Nat.toDigits_ne_nil

theorem isDigit_of_mem_decimal {n : Nat} {c : Char} (h : c ∈ AbiType.decimal n) :
    c.isDigit = true :=
  Nat.isDigit_of_mem_toDigits (by decide) (by decide) h

theorem digitsValue_decimal (n : Nat) : digitsValue (AbiType.decimal n) = n :=
  Nat.ofDigitChars_ten_toDigits

theorem decimal_injective : Function.Injective AbiType.decimal :=
  Function.LeftInverse.injective digitsValue_decimal

/-! ## Reading -/

theorem ne_nil_of_digitsValue {digits : List Char} (h : 1 ≤ digitsValue digits) :
    digits ≠ [] := by
  rintro rfl
  exact absurd h (by decide)

theorem ofDigits?_eq_some_iff {digits : List Char} {n : Nat} :
    Count.ofDigits? digits = some n ↔ digitsValue digits = n ∧ n ≤ Count.limit := by
  rw [Count.ofDigits?, ← digitsValue]
  constructor
  · intro h
    split at h
    · rename_i hle
      cases h
      exact ⟨rfl, hle⟩
    · cases h
  · rintro ⟨rfl, hle⟩
    exact if_pos hle

theorem digitsValue_append_singleton (digits : List Char) (c : Char) :
    digitsValue (digits ++ [c]) = 10 * digitsValue digits + (c.toNat - '0'.toNat) := by
  rw [digitsValue, Nat.ofDigitChars_append, Nat.ofDigitChars_cons, Nat.ofDigitChars_nil,
    digitsValue]

/-- A digit is written as the number it stands for. -/
theorem exists_digitChar {c : Char} (h : c.isDigit = true) :
    ∃ n < 10, c.toNat - '0'.toNat = n ∧ c = n.digitChar := by
  obtain ⟨hlow, hhigh⟩ := Char.isDigit_iff_toNat.mp h
  simp only [Char.reduceToNat] at hlow hhigh ⊢
  have hlt : c.toNat - 48 < 10 := by omega
  refine ⟨c.toNat - 48, hlt, rfl, Char.toNat_inj.mp ?_⟩
  rw [Nat.toNat_digitChar_of_lt_ten hlt]
  omega

theorem isAlpha_eq_false_of_isDigit {c : Char} (h : c.isDigit = true) : c.isAlpha = false := by
  obtain ⟨n, hn, -, rfl⟩ := exists_digitChar h
  have hall : ∀ n < 10, (Nat.digitChar n).isAlpha = false := by decide
  exact hall n hn

/-- A number that was read and is written again has lost its zeros in front; if it is zero, all of
its digits are among them. -/
theorem dropWhile_zero {digits : List Char} (h : ∀ c ∈ digits, c.isDigit = true) :
    digits.dropWhile (· = '0')
      = if digitsValue digits = 0 then [] else AbiType.decimal (digitsValue digits) := by
  -- From the last digit on, as it is the one that a number is divided from when it is written.
  induction digits using List.reverseRecOn with
  | nil => rfl
  | append_singleton digits c ih =>
    obtain ⟨hdigits, hc⟩ := List.forall_mem_append.mp h
    obtain ⟨n, hn, hvalue, rfl⟩ := exists_digitChar (hc c (List.mem_singleton_self c))
    rw [List.dropWhile_append, ih hdigits, digitsValue_append_singleton, hvalue]
    by_cases hzero : digitsValue digits = 0
    · rw [if_pos hzero, hzero, Nat.mul_zero, Nat.zero_add]
      by_cases hn0 : n = 0
      · subst hn0
        rfl
      · rw [if_neg hn0, AbiType.decimal, Nat.toDigits_of_lt_base hn]
        simp [hn0]
    · have hne : 10 * digitsValue digits + n ≠ 0 := by omega
      rw [if_neg hzero, if_neg hne, if_neg (by simp [decimal_ne_nil]), AbiType.decimal,
        AbiType.decimal, ← Nat.toDigits_append_toDigits (by decide) (Nat.pos_of_ne_zero hzero) hn,
        Nat.toDigits_of_lt_base hn]

/-- The digits of a number other than zero are some zeros and those that it is written with. -/
theorem decimal_digitsValue {digits : List Char} (h : ∀ c ∈ digits, c.isDigit = true)
    (hpos : 1 ≤ digitsValue digits) :
    AbiType.decimal (digitsValue digits) = digits.dropWhile (· = '0') := by
  rw [dropWhile_zero h, if_neg (Nat.one_le_iff_ne_zero.mp hpos)]

end ContractAbi
