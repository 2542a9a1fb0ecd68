import ContractAbi.AbiType.Basic
import ContractAbi.Error
import ContractAbi.Value

/-!
# Unpacking

The value that a payload holds under a type. A payload is anything at all: every position, offset
and length that it names is checked against its length before anything is read there, so a hostile
payload is refused with an error and never read beyond its end.

## Positions

Offsets are relative to the block that holds them. Decoding a dynamic tuple, array or slice moves
on to the rest of the payload from its block's first byte, and positions start at zero again.
Offsets may lead anywhere inside the payload, backwards within a block included, and several of
them to the same place.

## Counts

Words are read as natural numbers and compared as such. Positions are kept as 64-bit counts: sums
and products that leave that range are refused or capped, and a number is cut down to a count only
after it was found to be within the payload.
-/

namespace ContractAbi

namespace Decoding

/-- Offsets and lengths have to be representable in 64 bits with a sign. -/
def offsetLimit : Nat := 0x8000000000000000

/-! ## Words -/

def beyond (data : Bytes) (index : Nat) : AbiError :=
  .insufficientLength data.length (.bytes (index + wordSize))

/-- The word at byte `index`. -/
def readWord (data : Bytes) (index : Nat) : Except AbiError Word :=
  match Count.add? index wordSize with
  | none => .error (beyond data index)
  | some stop =>
    if stop ≤ data.length then .ok (Word.ofBytes ((data.drop index).take wordSize))
    else .error (beyond data index)

/-- The rest of the payload from byte `index` on, where the fields of a tuple are in place. -/
def tupleInPlace (data : Bytes) (index : Nat) : Except AbiError Bytes :=
  if index ≤ data.length then .ok (data.drop index) else .error (beyond data index)

/-- The same for the elements of an array, where at least a word has to be left. -/
def arrayInPlace (data : Bytes) (index : Nat) : Except AbiError Bytes := do
  let _ ← readWord data index
  return data.drop index

/-- The byte index of a slot of the head. -/
def slotIndex (slot : Nat) : Except AbiError Nat :=
  match Count.mul? slot wordSize with
  | none => .error (.offsetOverflow (.headSlot slot))
  | some index => .ok index

/-! ## Offsets -/

/-- The low 64 bits, as which a position is kept. -/
def lowCount (n : Nat) : Nat := n % (Count.limit + 1)

/-- Where the content behind the offset at `index` begins, and its length: the offset leads to a
word with the length, which the content follows. -/
def contentAt (data : Bytes) (index : Nat) : Except AbiError (Nat × Nat) := do
  let offset := (← readWord data index).toNat
  let start := offset + wordSize
  if Word.modulus ≤ start then .error (.offsetOverflow (.wraps offset))
  else if data.length < start then .error (.insufficientLength data.length (.bytes start))
  else if offsetLimit ≤ start then .error (.offsetOverflow (.offsetTooLarge start))
  else
    let start' := lowCount start
    let length := Bytes.toNat ((data.drop (start' - wordSize)).take wordSize)
    let stop := start + length
    if offsetLimit ≤ stop then .error (.offsetOverflow (.lengthTooLarge length))
    else if data.length < stop then .error (.insufficientLength data.length (.bytes stop))
    else .ok (start', lowCount length)

/-- The rest of the payload from where the offset at `index` leads. -/
def block (data : Bytes) (index : Nat) : Except AbiError Bytes := do
  let offset := (← readWord data index).toNat
  if data.length < offset then .error (.insufficientLength data.length (.bytes offset))
  else if offsetLimit ≤ offset then .error (.offsetOverflow (.offsetTooLarge offset))
  else .ok (data.drop (lowCount offset))

/-! ## Leaves -/

def readUint (bits : Nat) (w : Word) : Except AbiError Value :=
  if w.FitsUnsigned bits then .ok (.uint w)
  else .error (.improperlyEncodedInt (AbiType.uint bits).canonical)

def readInt (bits : Nat) (w : Word) : Except AbiError Value :=
  if w.FitsSigned bits then .ok (.int w)
  else .error (.improperlyEncodedInt (AbiType.int bits).canonical)

def readBool (w : Word) : Except AbiError Value :=
  if w = 0 then .ok (.bool false)
  else if w = 1 then .ok (.bool true)
  else .error .improperlyEncodedBool

/-- The last 20 bytes; those before them are not looked at. -/
def readAddress (w : Word) : Value :=
  .address ⟨(Word.toBytes w).drop 12, by simp [wordSize]⟩

/-- The first bytes; those behind them are not looked at. -/
def readFixedBytes (length : Nat) (w : Word) : Value :=
  .fixedBytes ((Word.toBytes w).take length)

/-- The first 24 bytes; those behind them have to be zero. -/
def readFunction (w : Word) : Except AbiError Value :=
  if (Word.toBytes w).drop 24 = Bytes.zeros 8 then
    .ok (.function ⟨(Word.toBytes w).take 24, by simp [wordSize]⟩)
  else
    .error .improperlyEncodedFunction

/-- Text in UTF-8. -/
def readText (content : Bytes) : Except AbiError Value :=
  match String.fromUTF8? ⟨content.toArray⟩ with
  | some text => .ok (.string text)
  | none => .error .invalidUtf8

/-! ## Sequences -/

/-- Reads `count` elements from the front of `data`, one after the other. Every element is taken to
need a word at least, so the payload bounds how many are tried. -/
def readSequence (elem : AbiType) (read : Nat → Except AbiError Value) (data : Bytes)
    (count : Nat) : Except AbiError Value :=
  match (Count.mul? count wordSize).filter (· ≤ data.length) with
  | none => .error (.insufficientLength data.length (.words count))
  | some _ => do
    let items ← (List.range count).mapM fun i ↦
      match Count.mul? i elem.headSize with
      | none => .error (.offsetOverflow (.element i elem.canonical))
      | some index => read index
    return .array items

end Decoding

namespace AbiType

open Decoding

mutual

/-- The value whose head is at byte `index` of `data`. -/
def unpack : AbiType → (index : Nat) → (data : Bytes) → Except AbiError Value
  | .uint bits, index, data => do readUint bits (← readWord data index)
  | .int bits, index, data => do readInt bits (← readWord data index)
  | .bool, index, data => do readBool (← readWord data index)
  | .address, index, data => return readAddress (← readWord data index)
  | .fixedBytes length, index, data => return readFixedBytes length (← readWord data index)
  | .function, index, data => do readFunction (← readWord data index)
  | .string, index, data => do
    let (start, length) ← contentAt data index
    readText ((data.drop start).take length)
  | .bytes, index, data => do
    let (start, length) ← contentAt data index
    return .bytes ((data.drop start).take length)
  | .slice elem, index, data => do
    let (start, length) ← contentAt data index
    let body := data.drop start
    readSequence elem (fun i ↦ unpack elem i body) body length
  | .array elem length, index, data => do
    let body ← if elem.isDynamic then block data index else arrayInPlace data index
    readSequence elem (fun i ↦ unpack elem i body) body length
  | .tuple _ fields, index, data => do
    let body ← if anyDynamic fields then block data index else tupleInPlace data index
    return .tuple (← unpackFields fields 0 body)

/-- The entries of the fields, the first of which is at head slot `slot`. -/
def unpackFields : List (Field AbiType) → (slot : Nat) → (data : Bytes) →
    Except AbiError (List (String × Value))
  | [], _, _ => return []
  | f :: fields, slot, data => do
    let value ← unpack f.type (← slotIndex slot) data
    let entries ← unpackFields fields (Count.addCapped slot f.type.headSlots) data
    return (f.rawName, value) :: entries

end

end AbiType

end ContractAbi
