import ContractAbi.Text.Quoted

/-!
# Errors

Every way in which reading a type, packing a value or unpacking a payload can fail, each with the
facts that its message shows. The wording of all of them is `AbiError.message`.
-/

namespace ContractAbi

/-! ## Causes -/

/-- Why a text is not the signature of a type. -/
inductive SignatureFault where
  | unbalancedBrackets (signature : String)
  | nestedTooDeep (limit : Nat) (signature : String)
  | malformedGroup (signature : String)
  | arrayLengthTooLarge
  | zeroArrayLength (signature : String)
  | malformedBase (base : String)
  | sizeTooLarge
  | integerWidth (base : String)
  | zeroByteWidth (base : String)
  | unexpectedSize (name base : String)
deriving DecidableEq, Repr

/-- Why a declared name cannot name the field of a tuple. -/
inductive FieldNameFault where
  | anonymous
  | notIdentifier (index : Nat) (rawName : String)
deriving DecidableEq, Repr

/-- What a value was, where its type asked for something else. -/
inductive Found where
  | kind (name : String)
  | arrayOfLength (length : Nat)
  | byteCount (count : Nat)
deriving DecidableEq, Repr

/-- The length that a payload ought to have had. -/
inductive Requirement where
  | bytes (count : Nat)
  | words (count : Nat)
  | atLeast (count : Nat)
deriving DecidableEq, Repr

/-- A position or length that cannot be computed with. -/
inductive OffsetFault where
  | wraps (offset : Nat)
  | offsetTooLarge (offset : Nat)
  | lengthTooLarge (length : Nat)
  | element (index : Nat) (type : String)
  | headSlot (slot : Nat)
  | headSection
  | encoding
deriving DecidableEq, Repr

inductive AbiError where
  | invalidType (fault : SignatureFault)
  | unsupportedType (signature : String)
  | invalidFieldName (fault : FieldNameFault)
  | typeMismatch (expected : String) (got : Found)
  | invalidSign
  | valueOutOfRange (type : String) (value : Int)
  | arityMismatch (expected got : Nat)
  | insufficientLength (available : Nat) (required : Requirement)
  | offsetOverflow (fault : OffsetFault)
  | improperlyEncodedBool
  | improperlyEncodedInt (type : String)
  | improperlyEncodedFunction
  | invalidUtf8
  | emptyInputExpectedArguments
  | fieldNotFound (name : String)
  | invalidSelector (given expected : String)
deriving DecidableEq, Repr

/-! ## Wording -/

def SignatureFault.message : SignatureFault → String
  | .unbalancedBrackets signature => s!"unbalanced brackets in {signature}"
  | .nestedTooDeep limit signature => s!"type nested deeper than {limit} levels: {signature}"
  | .malformedGroup signature => s!"invalid formatting of array type: {signature}"
  | .arrayLengthTooLarge => "error parsing array size: number too large to fit in target type"
  | .zeroArrayLength signature => s!"array length must be positive: {signature}"
  | .malformedBase base => s!"invalid type '{base}'"
  | .sizeTooLarge => "error parsing variable size: number too large to fit in target type"
  | .integerWidth base => s!"invalid integer width in {base}"
  | .zeroByteWidth base => s!"fixed bytes length must be positive: {base}"
  | .unexpectedSize name base => s!"{name} does not take a size: {base}"

def FieldNameFault.message : FieldNameFault → String
  | .anonymous => "purely anonymous or underscored field is not supported"
  | .notIdentifier index rawName => s!"field {index} has invalid name " ++ Text.quote rawName

def Found.message : Found → String
  | .kind name => name
  | .arrayOfLength length => s!"array of length {length}"
  | .byteCount count => s!"{count} bytes"

def Requirement.message : Requirement → String
  | .bytes count => toString count
  | .words count => s!"{count} words"
  | .atLeast count => s!"at least {count}"

def OffsetFault.message : OffsetFault → String
  | .wraps offset => s!"offset {offset} overflows"
  | .offsetTooLarge offset => s!"offset {offset} larger than int64"
  | .lengthTooLarge length => s!"length {length} larger than int64"
  | .element index type => s!"element {index} of {type}"
  | .headSlot slot => s!"head slot {slot}"
  | .headSection => "head section exceeds usize"
  | .encoding => "encoding exceeds usize"

def AbiError.message : AbiError → String
  | .invalidType fault => "invalid type: " ++ fault.message
  | .unsupportedType signature => s!"unsupported type: {signature}"
  | .invalidFieldName fault => "invalid field name: " ++ fault.message
  | .typeMismatch expected got =>
    "cannot use " ++ got.message ++ s!" as type {expected} as argument"
  | .invalidSign => "negatively-signed value cannot be packed into uint parameter"
  | .valueOutOfRange type value => s!"value {value} does not fit in {type}"
  | .arityMismatch expected got => s!"argument count mismatch: got {got} for {expected}"
  | .insufficientLength available required =>
    s!"length insufficient: have {available}, require " ++ required.message
  | .offsetOverflow fault => "offset overflow: " ++ fault.message
  | .improperlyEncodedBool => "improperly encoded boolean value"
  | .improperlyEncodedInt type => s!"improperly encoded {type} value"
  | .improperlyEncodedFunction => "improperly encoded function type"
  | .invalidUtf8 => "string payload is not valid utf-8"
  | .emptyInputExpectedArguments =>
    "attempting to unmarshal an empty string while arguments are expected"
  | .fieldNotFound name => s!"field {name} not found in the given value"
  | .invalidSelector given expected =>
    s!"invalid identifier: have 0x{given}, want 0x{expected}"

end ContractAbi
