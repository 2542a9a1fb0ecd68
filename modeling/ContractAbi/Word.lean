import ContractAbi.Bytes

/-!
# Words

The unit of every encoding is a word of 256 bits, written as 32 bytes with the most significant
first. A word stands for a natural number, or in two's complement for an integer; whether it fits a
narrower integer type is decided by the number of its significant bits.
-/

namespace ContractAbi

/-- Bytes of a word. -/
def wordSize : Nat := 32

abbrev Word := BitVec 256

namespace Word

/-- The number of words. -/
def modulus : Nat := Nat.pow 2 256

/-! ## Bytes -/

def toBytes (w : Word) : Bytes := Bytes.bigEndian wordSize w.toNat

def ofBytes (b : Bytes) : Word := BitVec.ofNat 256 (Bytes.toNat b)

@[simp] theorem length_toBytes (w : Word) : (toBytes w).length = wordSize :=
  Bytes.length_bigEndian _ _

/-! ## Significant bits -/

/-- The number of bits from the highest one that is set down to the lowest. -/
def bitLength (w : Word) : Nat :=
  if w.toNat = 0 then 0 else w.toNat.log2 + 1

/-- Whether the word is a natural number of at most `bits` bits. -/
def FitsUnsigned (bits : Nat) (w : Word) : Prop :=
  bitLength w ≤ bits

/-- Whether the word in two's complement is an integer of `bits` bits. The complement of a
negative number `v` is `-v - 1`, so one test of magnitude serves both signs. -/
def FitsSigned (bits : Nat) (w : Word) : Prop :=
  256 ≤ bits ∨ bitLength (if w.msb then ~~~w else w) < bits

instance (bits : Nat) (w : Word) : Decidable (FitsUnsigned bits w) :=
  inferInstanceAs (Decidable (_ ≤ _))

instance (bits : Nat) (w : Word) : Decidable (FitsSigned bits w) :=
  inferInstanceAs (Decidable (_ ∨ _))

end Word

end ContractAbi
