import ContractAbi.Arguments
import ContractAbi.Keccak

/-!
# Events and custom errors

Both are declared by a name and inputs, have a canonical signature, and are identified by its hash:
an event by the whole hash, its first topic, and an error by the first four bytes, which stand in
front of the packed inputs. Inputs without a name are named after their position.
-/

namespace ContractAbi

namespace Declaration

/-! ## Inputs -/

def positionalName (index : Nat) : String :=
  "arg" ++ toString index

def nameInputs (inputs : Arguments) : Arguments :=
  inputs.mapIdx fun i a ↦ if a.name = "" then { a with name := positionalName i } else a

/-! ## Texts -/

/-- Such as `Transfer(address,address,uint256)`. -/
def signature (name : String) (inputs : Arguments) : String :=
  name ++ String.ofList (AbiType.tupleSignature (inputs.map (·.type.signature)))

def describeInput (a : Argument) : String :=
  a.type.canonical ++ (if a.indexed then " indexed " else " ") ++ a.name

/-- Such as `Transfer(address indexed from, address indexed to, uint256 value)`. -/
def describe (name : String) (inputs : Arguments) : String :=
  name ++ "(" ++ ", ".intercalate (inputs.map describeInput) ++ ")"

def hash (signature : String) : Block 32 :=
  Keccak.hash signature.toUTF8.data.toList

end Declaration

/-! ## Events -/

structure Event where
  /-- The name the event is bound to; overloaded events have different ones. -/
  name : String
  rawName : String
  anonymous : Bool
  inputs : Arguments
deriving DecidableEq, Repr

namespace Event

def declare (name rawName : String) (anonymous : Bool) (inputs : Arguments) : Event :=
  ⟨name, rawName, anonymous, Declaration.nameInputs inputs⟩

def signature (e : Event) : String := Declaration.signature e.rawName e.inputs

/-- The first topic of an event that is not anonymous. -/
def id (e : Event) : Block 32 := Declaration.hash e.signature

def display (e : Event) : String := "event " ++ Declaration.describe e.rawName e.inputs

/-- Unpacks the data section of a log. -/
def unpackData (e : Event) (data : Bytes) : Except AbiError (List Value) :=
  e.inputs.unpack data

end Event

/-! ## Custom errors -/

structure CustomError where
  name : String
  inputs : Arguments
deriving DecidableEq, Repr

namespace CustomError

def selectorLength : Nat := 4

def declare (name : String) (inputs : Arguments) : CustomError :=
  ⟨name, Declaration.nameInputs inputs⟩

def signature (e : CustomError) : String := Declaration.signature e.name e.inputs

def id (e : CustomError) : Block 32 := Declaration.hash e.signature

def selector (e : CustomError) : Bytes := e.id.val.take selectorLength

def display (e : CustomError) : String := "error " ++ Declaration.describe e.name e.inputs

/-- The revert data: the selector and the packed inputs. -/
def pack (e : CustomError) (values : List Value) : Except AbiError Bytes := do
  return e.selector ++ (← e.inputs.pack values)

/-- Unpacks revert data, which has to begin with the selector. -/
def unpack (e : CustomError) (data : Bytes) : Except AbiError (List Value) :=
  if data.length < selectorLength then
    .error (.insufficientLength data.length (.atLeast selectorLength))
  else if data.take selectorLength ≠ e.selector then
    .error (.invalidSelector (Bytes.hex (data.take selectorLength)) (Bytes.hex e.selector))
  else
    e.inputs.unpack (data.drop selectorLength)

end CustomError

end ContractAbi
