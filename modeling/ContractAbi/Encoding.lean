import ContractAbi.AbiType.Basic
import ContractAbi.Encoding.Layout
import ContractAbi.Value

/-!
# Packing

The encoding of a value under a type. Leaves become a word, or a counted and padded run of words;
slices, arrays and tuples become a block of heads and tails. A value is refused at the first offence
in the order of the type: a tuple's missing entry and an array's wrong length come before anything
inside them.
-/

namespace ContractAbi

namespace AbiType

/-! ## Leaves -/

/-- A word that begins with the bytes. -/
def leadingWord (b : Bytes) : Bytes :=
  b.take wordSize ++ Bytes.zeros (wordSize - b.length)

/-- A word that ends with the bytes. -/
def trailingWord (b : Bytes) : Bytes :=
  Bytes.zeros (wordSize - b.length) ++ b

/-- The length, and the content filled up to whole words. -/
def counted (content : Bytes) : Bytes :=
  let words := (content.length + (wordSize - 1)) / wordSize
  countWord content.length ++ content ++ Bytes.zeros (words * wordSize - content.length)

def outOfRange (t : AbiType) (value : Int) : Except AbiError Bytes :=
  .error (.valueOutOfRange t.canonical value)

/-- Packs a value that is neither an array nor a tuple. Integers may change their sign variant as
long as they are in the type's range. -/
def packLeaf (t : AbiType) (v : Value) : Except AbiError Bytes :=
  match t, v with
  | .uint bits, .uint w =>
    if w.FitsUnsigned bits then .ok (Word.toBytes w) else outOfRange t w.toNat
  | .uint bits, .int w =>
    if w.msb then .error .invalidSign
    else if w.FitsUnsigned bits then .ok (Word.toBytes w) else outOfRange t w.toNat
  | .int bits, .int w =>
    if w.FitsSigned bits then .ok (Word.toBytes w) else outOfRange t w.toInt
  | .int bits, .uint w =>
    -- the sign bit of the declared width has to stay clear
    if Word.bitLength w < bits then .ok (Word.toBytes w) else outOfRange t w.toNat
  | .bool, .bool b => .ok (countWord b.toNat)
  | .string, .string s => .ok (counted s.toUTF8.data.toList)
  | .bytes, .bytes b | .bytes, .fixedBytes b => .ok (counted b)
  | .fixedBytes length, .fixedBytes b | .fixedBytes length, .bytes b =>
    if b.length = length then .ok (leadingWord b)
    else .error (.typeMismatch t.canonical (.byteCount b.length))
  | .address, .address a => .ok (trailingWord a.val)
  | .function, .function f => .ok (leadingWord f.val)
  | _, _ => .error (.typeMismatch t.canonical (.kind v.kindName))

/-! ## Blocks -/

/-- The entries of a tuple that the fields ask for, in the order of the fields. -/
def select (fields : List (Field AbiType)) (entries : List (String × Value)) :
    Except AbiError (List Value) :=
  fields.mapM fun f ↦ Value.entry entries f.rawName

mutual

/-- The encoding of a value. It has no offset in front of it, even if the type is dynamic. -/
def pack : AbiType → Value → Except AbiError Bytes
  | .slice elem, .array items => do
    let parts ← items.mapM fun v ↦ return ⟨elem.isDynamic, ← pack elem v⟩
    return countWord items.length ++ (← Part.layout parts)
  | .array elem length, .array items =>
    if items.length = length then do
      let parts ← items.mapM fun v ↦ return ⟨elem.isDynamic, ← pack elem v⟩
      Part.layout parts
    else
      .error (.typeMismatch (array elem length).canonical (.arrayOfLength items.length))
  | .tuple _ fields, .tuple entries => do
    let values ← select fields entries
    Part.layout (← packFields fields values)
  | t, v => packLeaf t v

/-- The parts of a tuple, one value to a field. -/
def packFields : List (Field AbiType) → List Value → Except AbiError (List Part)
  | f :: fields, v :: values => do
    let part := ⟨f.type.isDynamic, ← pack f.type v⟩
    return part :: (← packFields fields values)
  | _, _ => return []

end

end AbiType

end ContractAbi
