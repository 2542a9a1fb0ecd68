import ContractAbi.Proofs.AbiType.HeadWidth
import ContractAbi.Proofs.Results
import ContractAbi.Decoding

/-!
# Unpacking with guarded slices

Unpacking once more, with two things made explicit. The first is where it computes: head sizes,
slots, element positions, ends of words and cut-down numbers go through an `Arithmetic`, which is
either that of the machine, with its caps, checks and low limbs, or that of the natural numbers,
with none of them. The second is what it takes out of the payload: every slice is guarded, and one
that is not inside stops the run without a result. What is refused, and with which error, is the
same text in both; the limits on an offset and on the end of a counted content are part of the
format and stay.
-/

namespace ContractAbi

namespace Decoding

/-! ## Guarded runs -/

/-- A result or an error, unless a slice was outside of what it was taken from. -/
abbrev Guarded := ExceptT AbiError Option

namespace Guarded

/-- A run that no slice stopped. -/
def ran {α : Type} (x : Except AbiError α) : Guarded α := ExceptT.mk (some x)

/-- A run that a slice stopped. -/
def stopped {α : Type} : Guarded α := ExceptT.mk none

/-- The bytes from `start` to `stop`. -/
def slice (data : Bytes) (start stop : Nat) : Guarded Bytes :=
  if start ≤ stop ∧ stop ≤ data.length then ran (.ok ((data.drop start).take (stop - start)))
  else stopped

/-- The bytes from `start` on. -/
def rest (data : Bytes) (start : Nat) : Guarded Bytes := slice data start data.length

/-- The word that ends at `stop`. -/
def wordBefore (data : Bytes) (stop : Nat) : Guarded Bytes :=
  if wordSize ≤ stop then slice data (stop - wordSize) stop else stopped

end Guarded

/-! ## Arithmetic -/

/-- How positions are computed. -/
structure Arithmetic where
  headSize : AbiType → Nat
  /-- Moves a slot on. -/
  addSlots : Nat → Nat → Nat
  add? : Nat → Nat → Option Nat
  mul? : Nat → Nat → Option Nat
  /-- Whether an offset is refused although the payload reaches that far. -/
  tooLarge : Nat → Bool
  /-- Cuts a number down to a position. -/
  toCount : Nat → Nat

namespace Arithmetic

def machine : Arithmetic where
  headSize := AbiType.headSize
  addSlots := Count.addCapped
  add? := Count.add?
  mul? := Count.mul?
  tooLarge n := offsetLimit ≤ n
  toCount := lowCount

def unbounded : Arithmetic where
  headSize := AbiType.headWidth
  addSlots m n := m + n
  add? m n := some (m + n)
  mul? m n := some (m * n)
  tooLarge _ := false
  toCount n := n

open Guarded

variable (A : Arithmetic)

/-! ## Readers -/

def readWord (data : Bytes) (index : Nat) : Guarded Word :=
  match A.add? index wordSize with
  | none => throw (beyond data index)
  | some stop =>
    if stop ≤ data.length then return Word.ofBytes (← slice data index stop)
    else throw (beyond data index)

def tupleInPlace (data : Bytes) (index : Nat) : Guarded Bytes :=
  if index ≤ data.length then rest data index else throw (beyond data index)

def arrayInPlace (data : Bytes) (index : Nat) : Guarded Bytes := do
  let _ ← A.readWord data index
  rest data index

def slotIndex (slot : Nat) : Guarded Nat :=
  match A.mul? slot wordSize with
  | none => throw (.offsetOverflow (.headSlot slot))
  | some index => return index

def contentAt (data : Bytes) (index : Nat) : Guarded (Nat × Nat) := do
  let offset := (← A.readWord data index).toNat
  let start := offset + wordSize
  if Word.modulus ≤ start then throw (.offsetOverflow (.wraps offset))
  else if data.length < start then throw (.insufficientLength data.length (.bytes start))
  else if A.tooLarge start then throw (.offsetOverflow (.offsetTooLarge start))
  else
    let length := Bytes.toNat (← wordBefore data (A.toCount start))
    let stop := start + length
    if offsetLimit ≤ stop then throw (.offsetOverflow (.lengthTooLarge length))
    else if data.length < stop then throw (.insufficientLength data.length (.bytes stop))
    else return (A.toCount start, A.toCount length)

def block (data : Bytes) (index : Nat) : Guarded Bytes := do
  let offset := (← A.readWord data index).toNat
  if data.length < offset then throw (.insufficientLength data.length (.bytes offset))
  else if A.tooLarge offset then throw (.offsetOverflow (.offsetTooLarge offset))
  else rest data (A.toCount offset)

def readSequence (elem : AbiType) (read : Nat → Guarded Value) (data : Bytes) (count : Nat) :
    Guarded Value :=
  match (A.mul? count wordSize).filter (· ≤ data.length) with
  | none => throw (.insufficientLength data.length (.words count))
  | some _ => do
    let items ← (List.range count).mapM fun i ↦
      match A.mul? i (A.headSize elem) with
      | none => throw (.offsetOverflow (.element i elem.canonical))
      | some index => read index
    return .array items

/-! ## Values -/

mutual

def unpack : AbiType → (index : Nat) → (data : Bytes) → Guarded Value
  | .uint bits, index, data => do ran (readUint bits (← A.readWord data index))
  | .int bits, index, data => do ran (readInt bits (← A.readWord data index))
  | .bool, index, data => do ran (readBool (← A.readWord data index))
  | .address, index, data => return readAddress (← A.readWord data index)
  | .fixedBytes length, index, data => do
    return .fixedBytes (← slice (Word.toBytes (← A.readWord data index)) 0 length)
  | .function, index, data => do ran (readFunction (← A.readWord data index))
  | .string, index, data => do
    let (start, length) ← A.contentAt data index
    ran (readText (← slice data start (start + length)))
  | .bytes, index, data => do
    let (start, length) ← A.contentAt data index
    return .bytes (← slice data start (start + length))
  | .slice elem, index, data => do
    let (start, length) ← A.contentAt data index
    let body ← rest data start
    A.readSequence elem (fun i ↦ unpack elem i body) body length
  | .array elem length, index, data => do
    let body ← if elem.isDynamic then A.block data index else A.arrayInPlace data index
    A.readSequence elem (fun i ↦ unpack elem i body) body length
  | .tuple _ fields, index, data => do
    let body ← if AbiType.anyDynamic fields then A.block data index else tupleInPlace data index
    return .tuple (← unpackFields fields 0 body)

def unpackFields : List (Field AbiType) → (slot : Nat) → (data : Bytes) →
    Guarded (List (String × Value))
  | [], _, _ => return []
  | f :: fields, slot, data => do
    let value ← unpack f.type (← A.slotIndex slot) data
    let entries ← unpackFields fields (A.addSlots slot (A.headSize f.type / wordSize)) data
    return (f.rawName, value) :: entries

end

end Arithmetic

end Decoding

end ContractAbi
