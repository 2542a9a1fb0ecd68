/-!
# Byte strings

Payloads are lists of bytes. Besides lists this layer has numbers in base 256, most significant
byte first, byte strings of a fixed length, and the hexadecimal text of a byte string.
-/

namespace ContractAbi

abbrev Bytes := List UInt8

/-- Byte strings of length `n`. -/
abbrev Block (n : Nat) := {b : Bytes // b.length = n}

namespace Bytes

def zeros (n : Nat) : Bytes := List.replicate n 0

/-! ## Numbers in base 256 -/

/-- The `width` low-order digits of `n` in base 256, most significant first. -/
def bigEndian : (width : Nat) → (n : Nat) → Bytes
  | 0, _ => []
  | width + 1, n => bigEndian width (n / 256) ++ [UInt8.ofNat n]

/-- The number whose digits in base 256 are the bytes. -/
def toNat (b : Bytes) : Nat :=
  b.foldl (fun n x ↦ 256 * n + x.toNat) 0

@[simp] theorem length_bigEndian (width n : Nat) : (bigEndian width n).length = width := by
  induction width generalizing n with
  | zero => rfl
  | succ width ih => simp [bigEndian, ih]

/-! ## Hexadecimal text -/

def hexByte (x : UInt8) : List Char :=
  [Nat.digitChar (x.toNat / 16), Nat.digitChar (x.toNat % 16)]

/-- Two lower-case digits for each byte. -/
def hex (b : Bytes) : String :=
  String.ofList (b.flatMap hexByte)

/-- The value of a hexadecimal digit of either case. -/
def hexDigit? (c : Char) : Option Nat :=
  if c.isDigit then some (c.toNat - '0'.toNat)
  else if 'a' ≤ c ∧ c ≤ 'f' then some (c.toNat - 'a'.toNat + 10)
  else if 'A' ≤ c ∧ c ≤ 'F' then some (c.toNat - 'A'.toNat + 10)
  else none

def ofHexChars? : List Char → Option Bytes
  | [] => some []
  | [_] => none
  | c :: d :: rest => do
    let high ← hexDigit? c
    let low ← hexDigit? d
    let bytes ← ofHexChars? rest
    return UInt8.ofNat (16 * high + low) :: bytes

/-- Reads pairs of hexadecimal digits. -/
def ofHex? (s : String) : Option Bytes :=
  ofHexChars? s.toList

end Bytes

end ContractAbi
