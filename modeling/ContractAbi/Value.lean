import ContractAbi.Error
import ContractAbi.Word

/-!
# Values

The trees that are packed and unpacked. A value knows its kind but not its type: arrays do not say
whether their length is part of the type, and the entries of a tuple are found by the names under
which its components were declared, the first one first. Integers are kept as words with the sign
variant they came in, so equality tells `1` as an unsigned integer from `1` as a signed one.
-/

namespace ContractAbi

inductive Value where
  | uint (word : Word)
  /-- An integer in two's complement. -/
  | int (word : Word)
  | bool (value : Bool)
  | string (text : String)
  | bytes (content : Bytes)
  | fixedBytes (content : Bytes)
  | address (content : Block 20)
  | function (content : Block 24)
  | array (items : List Value)
  | tuple (entries : List (String × Value))
deriving Inhabited

namespace Value

def ofUInt64 (n : UInt64) : Value := .uint (n.toBitVec.setWidth 256)

def ofInt64 (n : Int64) : Value := .int (n.toBitVec.signExtend 256)

/-! ## Views -/

/-- The name of the value's kind in messages. -/
def kindName : Value → String
  | uint _ => "uint"
  | int _ => "int"
  | bool _ => "bool"
  | string _ => "string"
  | bytes _ => "bytes"
  | fixedBytes _ => "fixed bytes"
  | address _ => "address"
  | function _ => "function"
  | array _ => "array"
  | tuple _ => "tuple"

def uint? : Value → Option Word
  | uint word => some word
  | _ => none

def int? : Value → Option Word
  | int word => some word
  | _ => none

def bool? : Value → Option Bool
  | bool value => some value
  | _ => none

def string? : Value → Option String
  | string text => some text
  | _ => none

/-- The content of a byte string, of fixed length or not. -/
def bytes? : Value → Option Bytes
  | bytes content | fixedBytes content => some content
  | _ => none

def address? : Value → Option (Block 20)
  | address content => some content
  | _ => none

def array? : Value → Option (List Value)
  | array items => some items
  | _ => none

/-- The first entry of the name. -/
def entry (entries : List (String × Value)) (name : String) : Except AbiError Value :=
  match entries.lookup name with
  | some value => .ok value
  | none => .error (.fieldNotFound name)

/-- The first entry of the name, if the value is a tuple. -/
def field (value : Value) (name : String) : Except AbiError Value :=
  match value with
  | tuple entries => entry entries name
  | other => .error (.typeMismatch "tuple" (.kind other.kindName))

/-- Follows the names from the outside in. -/
def follow (value : Value) (path : List String) : Except AbiError Value :=
  path.foldlM field value

/-! ## Equality -/

mutual

def same : Value → Value → Bool
  | uint m, uint n | int m, int n => m == n
  | bool a, bool b => a == b
  | string a, string b => a == b
  | bytes a, bytes b | fixedBytes a, fixedBytes b => a == b
  | address a, address b => a == b
  | function a, function b => a == b
  | array xs, array ys => sameItems xs ys
  | tuple es, tuple fs => sameEntries es fs
  | _, _ => false

def sameItems : List Value → List Value → Bool
  | [], [] => true
  | x :: xs, y :: ys => same x y && sameItems xs ys
  | _, _ => false

def sameEntries : List (String × Value) → List (String × Value) → Bool
  | [], [] => true
  | e :: es, f :: fs => e.1 == f.1 && same e.2 f.2 && sameEntries es fs
  | _, _ => false

end

mutual

private theorem eq_of_same : (v w : Value) → same v w = true → v = w
  | v, w, h => by
    cases v <;> cases w <;> simp_all [same]
    case address.address a b => exact Subtype.ext h
    case function.function a b => exact Subtype.ext h
    case array.array xs ys => exact eq_of_sameItems xs ys h
    case tuple.tuple es fs => exact eq_of_sameEntries es fs h

private theorem eq_of_sameItems : (xs ys : List Value) → sameItems xs ys = true → xs = ys
  | [], [], _ => rfl
  | [], _ :: _, h => by simp [sameItems] at h
  | _ :: _, [], h => by simp [sameItems] at h
  | x :: xs, y :: ys, h => by
    simp only [sameItems, Bool.and_eq_true] at h
    rw [eq_of_same x y h.1, eq_of_sameItems xs ys h.2]

private theorem eq_of_sameEntries :
    (es fs : List (String × Value)) → sameEntries es fs = true → es = fs
  | [], [], _ => rfl
  | [], _ :: _, h => by simp [sameEntries] at h
  | _ :: _, [], h => by simp [sameEntries] at h
  | e :: es, f :: fs, h => by
    simp only [sameEntries, Bool.and_eq_true, beq_iff_eq] at h
    rw [eq_of_sameEntries es fs h.2, Prod.ext h.1.1 (eq_of_same e.2 f.2 h.1.2)]

end

mutual

private theorem same_self : (v : Value) → same v v = true
  | array xs => sameItems_self xs
  | tuple es => sameEntries_self es
  | uint _ | int _ | bool _ | string _ | bytes _ | fixedBytes _ | address _ | function _ => by
    simp [same]

private theorem sameItems_self : (xs : List Value) → sameItems xs xs = true
  | [] => rfl
  | x :: xs => by simp [sameItems, same_self x, sameItems_self xs]

private theorem sameEntries_self : (es : List (String × Value)) → sameEntries es es = true
  | [] => rfl
  | e :: es => by simp [sameEntries, same_self e.2, sameEntries_self es]

end

theorem same_iff {v w : Value} : same v w = true ↔ v = w :=
  ⟨eq_of_same v w, fun h ↦ h ▸ same_self v⟩

instance : DecidableEq Value := fun _ _ ↦ decidable_of_iff _ same_iff

end Value

end ContractAbi
