/-!
# Ranges of code points

A property of characters is given as the list of the code point ranges that have it, in ascending
order. Membership is a search of the list.
-/

namespace ContractAbi.Text

/-- The first and the last code point of a range, both included. -/
abbrev CodeRange := Nat × Nat

def inRanges (ranges : List CodeRange) (c : Char) : Bool :=
  ranges.any fun r ↦ r.1 ≤ c.toNat && c.toNat ≤ r.2

end ContractAbi.Text
