import ContractAbi.Count
import ContractAbi.Error
import ContractAbi.Word

/-!
# Heads and tails

A block of several encodings is a head followed by a tail. A static part stands in the head as it
is; a dynamic part stands in the tail, and a word of the head says how far from the beginning of the
block it is.

The layout is made from the encodings themselves and knows nothing of types. That the head of a part
has the size its type announces is therefore a fact about packing, not something laid out here.
-/

namespace ContractAbi

/-- A count as a word. -/
def countWord (n : Nat) : Bytes := Word.toBytes (BitVec.ofNat 256 n)

/-- One of the encodings that a block is made of. -/
structure Part where
  isDynamic : Bool
  bytes : Bytes

namespace Part

/-! ## Lengths -/

/-- Bytes taken in the head. -/
def headLength (p : Part) : Nat := if p.isDynamic then wordSize else p.bytes.length

/-- Bytes taken in the tail. -/
def tailLength (p : Part) : Nat := if p.isDynamic then p.bytes.length else 0

/-! ## Sections -/

/-- The head of the block, `offset` being the distance to the first tail that is still to come. -/
def heads (offset : Nat) : List Part → Bytes
  | [] => []
  | p :: rest =>
    (if p.isDynamic then countWord offset else p.bytes) ++ heads (offset + p.tailLength) rest

def tails (parts : List Part) : Bytes :=
  parts.flatMap fun p ↦ if p.isDynamic then p.bytes else []

/-- The whole block, if its length is a 64-bit count. -/
def layout (parts : List Part) : Except AbiError Bytes :=
  match (parts.map headLength).foldlM Count.add? 0 with
  | none => .error (.offsetOverflow .headSection)
  | some headLength =>
    match (parts.map tailLength).foldlM Count.add? headLength with
    | none => .error (.offsetOverflow .encoding)
    | some _ => .ok (heads headLength parts ++ tails parts)

end Part

end ContractAbi
