import ContractAbi.AbiType.Basic
import ContractAbi.Descriptor
import ContractAbi.Error
import ContractAbi.Name
import ContractAbi.Text.Blank

/-!
# Reading types

The type of a descriptor. A signature is a base followed by bracket groups, which are peeled off
from the right; when the base is `tuple`, the fields are the types of the descriptor's components,
read in the same way.

## Nesting

Slices, arrays and tuples may be nested only so far. `room` is the number of levels that may still
be opened: peeling a group takes one, descending into the components of a tuple takes another. The
first recursion is on `room` and the second on the descriptor, so neither needs a measure.

## Order of faults

A signature can be wrong in several places, and the fault that is reported is the first one met:
brackets are counted, groups are read from the right, then the base, then the components in order.
The depth of a group is checked before the group is read.
-/

namespace ContractAbi

/-- Levels of slices, arrays and tuples on a path through a type. -/
def nestingLimit : Nat := 64

namespace AbiType

/-! ## Bracket groups -/

/-- One bracket group: `[]` makes a slice, `[k]` an array. -/
inductive Layer where
  | slice
  | array (length : Nat)
deriving DecidableEq, Repr

def Layer.wrap : Layer → AbiType → AbiType
  | .slice, elem => .slice elem
  | .array length, elem => .array elem length

/-- What precedes and what follows the last occurrence of `mark`. -/
def splitLast (mark : Char) : List Char → Option (List Char × List Char)
  | [] => none
  | c :: rest =>
    match splitLast mark rest with
    | some (before, after) => some (c :: before, after)
    | none => if c = mark then some ([], rest) else none

/-- The layer of a group, given as the text behind its opening bracket. -/
def parseGroup (signature group : List Char) : Except AbiError Layer :=
  if group.getLast? ≠ some ']' then
    .error (.invalidType (.malformedGroup (String.ofList signature)))
  else
    let inner := Text.trim group.dropLast
    if inner = [] then .ok .slice
    else if !inner.all Char.isDigit then
      .error (.invalidType (.malformedGroup (String.ofList signature)))
    else match Count.ofDigits? inner with
    | none => .error (.invalidType .arrayLengthTooLarge)
    | some 0 => .error (.invalidType (.zeroArrayLength (String.ofList signature)))
    | some length => .ok (.array length)

/-- A signature without its groups. -/
structure Peeled where
  base : List Char
  /-- The internal type without the groups that stood for the same layers. -/
  internal : List Char
  /-- Outermost first. -/
  layers : List Layer
  room : Nat

/-- Removes the groups from `base`, the rightmost first. -/
def peel (signature : List Char) : (room : Nat) → (base internal : List Char) →
    Except AbiError Peeled
  | 0, base, internal =>
    match splitLast '[' base with
    | none => .ok ⟨base, internal, [], 0⟩
    | some _ => .error (.invalidType (.nestedTooDeep nestingLimit (String.ofList signature)))
  | room + 1, base, internal =>
    match splitLast '[' base with
    | none => .ok ⟨base, internal, [], room + 1⟩
    | some (before, group) => do
      let layer ← parseGroup signature group
      let stripped := ((splitLast '[' internal).map Prod.fst).getD internal
      let peeled ← peel signature room (Text.trimEnd before) stripped
      return { peeled with layers := layer :: peeled.layers }

/-! ## Bases -/

inductive Keyword where
  | uint | int | bool | string | bytes | address | function | tuple
deriving DecidableEq, Repr

def Keyword.ofName? : String → Option Keyword
  | "uint" => some .uint
  | "int" => some .int
  | "bool" => some .bool
  | "string" => some .string
  | "bytes" => some .bytes
  | "address" => some .address
  | "function" => some .function
  | "tuple" => some .tuple
  | _ => none

/-- A base stands for a type, or announces a tuple, whose fields are not in the signature. -/
inductive Base where
  | leaf (type : AbiType)
  | tuple

def isNumber (s : List Char) : Bool :=
  s ≠ [] && s.all Char.isDigit

/-- The letters a base begins with, and the number behind them. -/
def splitSize (base : List Char) : Except AbiError (List Char × Option Nat) :=
  let letters := base.takeWhile Char.isAlpha
  let rest := base.dropWhile Char.isAlpha
  if letters = [] then .error (.invalidType (.malformedBase (String.ofList base)))
  else if rest = [] then .ok (letters, none)
  else if 'x' ∈ rest then
    if isNumber (rest.takeWhile (· ≠ 'x')) && isNumber (rest.dropWhile (· ≠ 'x')).tail then
      .error (.unsupportedType (String.ofList base))
    else
      .error (.invalidType (.malformedBase (String.ofList base)))
  else if !rest.all Char.isDigit then .error (.invalidType (.malformedBase (String.ofList base)))
  else match Count.ofDigits? rest with
  | none => .error (.invalidType .sizeTooLarge)
  | some size => .ok (letters, some size)

/-- Integers have a whole number of bytes, from one to 32 of them. -/
def integerWidth (base : String) (bits : Nat) : Except AbiError Nat :=
  if bits = 0 ∨ 256 < bits ∨ bits % 8 ≠ 0 then .error (.invalidType (.integerWidth base))
  else .ok bits

/-- A base whose letters are not a keyword stands for an address if the internal type says that it
is a contract. -/
def resolveBase (base internal : List Char) : Except AbiError Base := do
  let text := String.ofList base
  let (letters, size?) ← splitSize base
  let name := String.ofList letters
  match Keyword.ofName? name, size? with
  | some .uint, none | some .int, none => .error (.unsupportedType text)
  | some .uint, some bits => return .leaf (.uint (← integerWidth text bits))
  | some .int, some bits => return .leaf (.int (← integerWidth text bits))
  | some .bytes, none => return .leaf .bytes
  | some .bytes, some length =>
    if 32 < length then .error (.unsupportedType text)
    else if length = 0 then .error (.invalidType (.zeroByteWidth text))
    else return .leaf (.fixedBytes length)
  | some _, some _ => .error (.invalidType (.unexpectedSize name text))
  | some .bool, none => return .leaf .bool
  | some .string, none => return .leaf .string
  | some .address, none => return .leaf .address
  | some .function, none => return .leaf .function
  | some .tuple, none => return .tuple
  | none, _ =>
    if "contract ".toList.isPrefixOf internal then return .leaf .address
    else .error (.unsupportedType text)

/-! ## Fields -/

/-- The declared name of a struct, without the dots that qualify it. -/
def structNameOf (internal : List Char) : String :=
  if "struct ".toList.isPrefixOf internal then
    String.ofList ((internal.drop "struct ".length).filter (· ≠ '.'))
  else
    ""

/-- The identifier that the field at position `index` is bound to. -/
def bindingName (taken : List String) (index : Nat) (rawName : String) : Except AbiError String :=
  let camel := Name.camelCase rawName
  if camel = "" then .error (.invalidFieldName .anonymous)
  else
    let name := Name.fresh camel taken
    if Name.isIdentifier name then .ok name
    else .error (.invalidFieldName (.notIdentifier index rawName))

/-! ## Descriptors -/

mutual

/-- The type of a descriptor that may open `room` levels. -/
def ofDescriptor (room : Nat) : Descriptor → Except AbiError AbiType
  | ⟨_, type, internalType, components, _⟩ => do
    let signature := Text.trim type.toList
    if signature.count '[' ≠ signature.count ']' then
      .error (.invalidType (.unbalancedBrackets (String.ofList signature)))
    else
      let peeled ← peel signature room signature (internalType.getD "").toList
      match ← resolveBase peeled.base peeled.internal with
      | .leaf type => return peeled.layers.foldr Layer.wrap type
      | .tuple =>
        match peeled.room with
        | 0 => .error (.invalidType (.nestedTooDeep nestingLimit (String.ofList peeled.base)))
        | room + 1 =>
          let fields ← fieldsOfDescriptors room [] 0 components
          return peeled.layers.foldr Layer.wrap (.tuple (structNameOf peeled.internal) fields)

/-- The fields of a tuple from position `index` on, `taken` being the names bound before. -/
def fieldsOfDescriptors (room : Nat) (taken : List String) (index : Nat) :
    List Descriptor → Except AbiError (List (Field AbiType))
  | [] => return []
  | d :: rest => do
    let type ← ofDescriptor room d
    let name ← bindingName taken index d.name
    let fields ← fieldsOfDescriptors room (name :: taken) (index + 1) rest
    return ⟨d.name, name, type⟩ :: fields

end

/-- Reads a signature; the components are those of its tuple, if it has one. -/
def parse (signature : String) (internalType : String := "") (components : List Descriptor := []) :
    Except AbiError AbiType :=
  ofDescriptor nestingLimit ⟨"", signature, some internalType, components, false⟩

end AbiType

end ContractAbi
