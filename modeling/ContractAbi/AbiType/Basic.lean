import ContractAbi.Count
import ContractAbi.Word

/-!
# Types

The tree of a type, and what follows from the tree alone: the canonical signature, whether values
live in the tail of their enclosing block, and the width of the head they need there. The fields of
a tuple carry two names, which play no part in any of these.

## What is stored

Nothing but the tree. The signature and the head size are functions of it, so they cannot disagree
with it, and two types are equal when their trees are.

## Head sizes

The length of an array is any 64-bit count, so the exact size of a head need not be one. The size
that is reported and computed with stops at the largest count; a payload that long cannot exist, so
a capped size is never the position of anything that can be read.
-/

namespace ContractAbi

/-- A component of a tuple: the name it was declared under, the identifier it is bound to, and its
type. -/
structure Field (α : Type) where
  rawName : String
  name : String
  type : α
deriving DecidableEq, Repr

inductive AbiType where
  | uint (bits : Nat)
  | int (bits : Nat)
  | bool
  | string
  | bytes
  | fixedBytes (length : Nat)
  | address
  /-- An address followed by a selector of four bytes. -/
  | function
  /-- Any number of elements, counted in front of them. -/
  | slice (elem : AbiType)
  /-- A fixed number of elements. -/
  | array (elem : AbiType) (length : Nat)
  | tuple (structName : String) (fields : List (Field AbiType))
deriving Repr, Inhabited

namespace AbiType

/-! ## Parts of a type -/

/-- The width in bits of an integer type, the width in bytes of a byte block, the length of an
array. -/
def size : AbiType → Nat
  | uint bits | int bits => bits
  | fixedBytes length | array _ length => length
  | address => 20
  | function => 24
  | _ => 0

def elem? : AbiType → Option AbiType
  | slice elem | array elem _ => some elem
  | _ => none

def fields : AbiType → List (Field AbiType)
  | tuple _ fields => fields
  | _ => []

def structName : AbiType → String
  | tuple structName _ => structName
  | _ => ""

/-! ## Canonical signature -/

/-- Decimal digits. -/
def decimal (n : Nat) : List Char := Nat.toDigits 10 n

/-- The signatures between parentheses, with commas between them. -/
def tupleSignature (signatures : List (List Char)) : List Char :=
  '(' :: [','].intercalate signatures ++ [')']

mutual

/-- The canonical signature as characters. -/
def signature : AbiType → List Char
  | uint bits => "uint".toList ++ decimal bits
  | int bits => "int".toList ++ decimal bits
  | bool => "bool".toList
  | string => "string".toList
  | bytes => "bytes".toList
  | fixedBytes length => "bytes".toList ++ decimal length
  | address => "address".toList
  | function => "function".toList
  | slice elem => signature elem ++ ['[', ']']
  | array elem length => signature elem ++ '[' :: decimal length ++ [']']
  | tuple _ fields => tupleSignature (signatures fields)

def signatures : List (Field AbiType) → List (List Char)
  | [] => []
  | f :: rest => signature f.type :: signatures rest

end

/-- The signature that selectors are computed from, such as `uint256[2][]` or `(address,bytes)`. -/
def canonical (t : AbiType) : String := String.ofList t.signature

/-! ## Heads -/

/-- Strings, byte strings and slices count their content in front of it. -/
def requiresLengthPrefix : AbiType → Bool
  | string | bytes | slice _ => true
  | _ => false

mutual

/-- Whether values live in the tail of the enclosing block, behind an offset in its head. -/
def isDynamic : AbiType → Bool
  | string | bytes | slice _ => true
  | array elem _ => isDynamic elem
  | tuple _ fields => anyDynamic fields
  | _ => false

def anyDynamic : List (Field AbiType) → Bool
  | [] => false
  | f :: rest => isDynamic f.type || anyDynamic rest

end

mutual

/-- Bytes in the head of the enclosing block, as a capped count. Static arrays and tuples are laid
out in place; everything else takes one word. -/
def headSize : AbiType → Nat
  | array elem length =>
    if isDynamic elem then wordSize else Count.mulCapped length (headSize elem)
  | tuple _ fields => if anyDynamic fields then wordSize else headSizes fields
  | _ => wordSize

def headSizes : List (Field AbiType) → Nat
  | [] => 0
  | f :: rest => Count.addCapped (headSize f.type) (headSizes rest)

end

/-- The head size in words. -/
def headSlots (t : AbiType) : Nat := t.headSize / wordSize

/-! ## Equality -/

mutual

/-- Whether two types agree in everything, the names of their fields included. -/
def same : AbiType → AbiType → Bool
  | uint m, uint n | int m, int n | fixedBytes m, fixedBytes n => m == n
  | bool, bool | string, string | bytes, bytes | address, address | function, function => true
  | slice t, slice u => same t u
  | array t m, array u n => same t u && m == n
  | tuple s fs, tuple s' gs => s == s' && sameFields fs gs
  | _, _ => false

def sameFields : List (Field AbiType) → List (Field AbiType) → Bool
  | [], [] => true
  | f :: fs, g :: gs =>
    f.rawName == g.rawName && f.name == g.name && same f.type g.type && sameFields fs gs
  | _, _ => false

end

mutual

private theorem eq_of_same : (t u : AbiType) → same t u = true → t = u
  | t, u, h => by
    cases t <;> cases u <;> simp_all [same]
    case slice.slice t u => exact eq_of_same t u h
    case array.array t m u n => exact eq_of_same t u h.1
    case tuple.tuple s fs s' gs => exact eq_of_sameFields fs gs h.2

private theorem eq_of_sameFields :
    (fs gs : List (Field AbiType)) → sameFields fs gs = true → fs = gs
  | [], [], _ => rfl
  | [], _ :: _, h => by simp [sameFields] at h
  | _ :: _, [], h => by simp [sameFields] at h
  | f :: fs, g :: gs, h => by
    simp only [sameFields, Bool.and_eq_true, beq_iff_eq] at h
    obtain ⟨⟨⟨hraw, hname⟩, htype⟩, hrest⟩ := h
    have := eq_of_same f.type g.type htype
    rw [eq_of_sameFields fs gs hrest]
    cases f
    cases g
    simp_all

end

mutual

private theorem same_self : (t : AbiType) → same t t = true
  | slice t => same_self t
  | array t _ => by simp [same, same_self t]
  | tuple _ fs => by simp [same, sameFields_self fs]
  | uint _ | int _ | fixedBytes _ => by simp [same]
  | bool | string | bytes | address | function => rfl

private theorem sameFields_self : (fs : List (Field AbiType)) → sameFields fs fs = true
  | [] => rfl
  | f :: fs => by simp [sameFields, same_self f.type, sameFields_self fs]

end

theorem same_iff {t u : AbiType} : same t u = true ↔ t = u :=
  ⟨eq_of_same t u, fun h ↦ h ▸ same_self t⟩

instance : DecidableEq AbiType := fun _ _ ↦ decidable_of_iff _ same_iff

end AbiType

end ContractAbi
