/-!
# 64-bit counts

Sizes and positions are natural numbers, but a count that is reported or computed with has 64
bits. Two disciplines keep it there: the capped operations stop at the largest count, and the
checked ones give nothing beyond it.
-/

namespace ContractAbi.Count

/-- The largest 64-bit count. -/
def limit : Nat := 0xFFFFFFFFFFFFFFFF

/-! ## Capped -/

def addCapped (a b : Nat) : Nat := min (a + b) limit

def mulCapped (a b : Nat) : Nat := min (a * b) limit

/-! ## Checked -/

def add? (a b : Nat) : Option Nat :=
  if a + b ≤ limit then some (a + b) else none

def mul? (a b : Nat) : Option Nat :=
  if a * b ≤ limit then some (a * b) else none

/-- The value of a run of decimal digits. -/
def ofDigits? (digits : List Char) : Option Nat :=
  let n := Nat.ofDigitChars 10 digits 0
  if n ≤ limit then some n else none

theorem add?_eq_some_iff {a b c : Nat} : add? a b = some c ↔ a + b ≤ limit ∧ a + b = c := by
  simp [add?]

theorem mul?_eq_some_iff {a b c : Nat} : mul? a b = some c ↔ a * b ≤ limit ∧ a * b = c := by
  simp [mul?]

end ContractAbi.Count
