import ContractAbi.AbiType.Parser
import ContractAbi.Decoding
import ContractAbi.Encoding
import Std.Data.TreeMap

/-!
# Argument lists

The parameters of a function, the fields of an event, the inputs of a custom error. Packing takes
one value to an argument. Indexed arguments are not part of a payload, so unpacking skips them, and
the values that come out belong to the other arguments in their order; they can be bound to the
names, as a tuple or in a map. Where several arguments have one name, the tuple finds the first of
them and the map holds the last.
-/

namespace ContractAbi

structure Argument where
  name : String
  type : AbiType
  /-- Logged as a topic, and so not in the payload. -/
  indexed : Bool := false
deriving DecidableEq, Repr

abbrev Arguments := List Argument

/-- Values by name, in the order of the names. -/
abbrev NamedValues := Std.TreeMap String Value

def Descriptor.toArgument (d : Descriptor) : Except AbiError Argument := do
  return ⟨d.name, ← AbiType.ofDescriptor nestingLimit d, d.indexed⟩

namespace Arguments

def ofDescriptors (ds : List Descriptor) : Except AbiError Arguments :=
  ds.mapM Descriptor.toArgument

/-- The arguments that are in the payload. -/
def nonIndexed (args : Arguments) : Arguments :=
  args.filter (!·.indexed)

/-! ## Packing -/

def parts : Arguments → List Value → Except AbiError (List Part)
  | a :: args, v :: values => do
    let part := ⟨a.type.isDynamic, ← a.type.pack v⟩
    return part :: (← parts args values)
  | _, _ => return []

/-- Packs one value to an argument, the indexed ones included. -/
def pack (args : Arguments) (values : List Value) : Except AbiError Bytes := do
  if values.length = args.length then
    Part.layout (← parts args values)
  else
    .error (.arityMismatch args.length values.length)

/-! ## Unpacking -/

/-- Unpacks arguments, the first of which is at head slot `slot`. -/
def unpackFrom (slot : Nat) (data : Bytes) : Arguments → Except AbiError (List Value)
  | [] => return []
  | a :: args => do
    let value ← a.type.unpack (← Decoding.slotIndex slot) data
    return value :: (← unpackFrom (Count.addCapped slot a.type.headSlots) data args)

def unpackValues (args : Arguments) (data : Bytes) : Except AbiError (List Value) :=
  unpackFrom 0 data args.nonIndexed

/-- An empty payload is accepted only where there is nothing to unpack. -/
def unpack (args : Arguments) (data : Bytes) : Except AbiError (List Value) :=
  if data = [] then
    if args.nonIndexed = [] then .ok [] else .error .emptyInputExpectedArguments
  else
    unpackValues args data

/-! ## Names -/

def names (args : Arguments) : List String :=
  args.nonIndexed.map Argument.name

/-- Unpacks the values, then sets the names to them one after the other, so that the last argument
of a name wins. The map is changed in place: what was set stays set however the call ends. -/
def unpackInto (args : Arguments) (data : Bytes) : EStateM AbiError NamedValues Unit := do
  let values ← liftExcept (args.unpack data)
  forM (args.names.zip values) fun (name, value) ↦ modify (·.insert name value)

/-- The values as a tuple, one entry to an argument. -/
def bind (args : Arguments) (values : List Value) : Except AbiError Value :=
  if values.length = args.nonIndexed.length then
    .ok (.tuple (args.names.zip values))
  else
    .error (.arityMismatch args.nonIndexed.length values.length)

end Arguments

end ContractAbi
