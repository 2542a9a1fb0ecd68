/-!
# Descriptors

The entries of a contract description: a name, the signature of a type, and for tuples the
descriptors of the components. A descriptor is data as it was written; whether its signature is that
of a type is decided when the type is read.
-/

namespace ContractAbi

structure Descriptor where
  name : String
  type : String
  /-- The type's name in the contract's own language, such as `struct Order` or `contract Token`. -/
  internalType : Option String := none
  components : List Descriptor := []
  /-- Set on the inputs of an event that are logged as topics. -/
  indexed : Bool := false
deriving Repr, Inhabited

end ContractAbi
