import ContractAbi.Proofs.AbiType.Signature

/-!
# Spellings of types

A type without components can be spelled in many ways: a group may have blanks before its brackets
and between them, and a number may have zeros in front. An `AbiType.Spelling` keeps what is written,
as a stem and the groups behind it, and cannot be built from parts that do not make a type. What is
left of it without the blanks and the zeros is the canonical signature of that type.
-/

namespace ContractAbi

namespace AbiType

/-! ## Stems -/

/-- The digits may stand behind the keyword: a width of whole bytes behind those of the integers,
which need one, and up to 32 behind that of the byte strings. -/
def Keyword.Takes (keyword : Keyword) (digits : List Char) : Prop :=
  match keyword with
  | uint | int => 8 ∣ digitsValue digits ∧ 8 ≤ digitsValue digits ∧ digitsValue digits ≤ 256
  | bytes => digits = [] ∨ 1 ≤ digitsValue digits ∧ digitsValue digits ≤ 32
  | bool | string | address | function | tuple => digits = []

theorem Keyword.Takes.digitsValue_le {keyword : Keyword} {digits : List Char}
    (h : keyword.Takes digits) : digitsValue digits ≤ 256 := by
  cases keyword with
  | uint | int => exact h.2.2
  | bytes =>
    rcases h with rfl | ⟨-, hle⟩
    · exact Nat.zero_le _
    · exact hle.trans (by decide)
  | bool | string | address | function | tuple =>
    obtain rfl : digits = [] := h
    exact Nat.zero_le _

/-- A keyword and the digits behind it. -/
structure Stem where
  keyword : Keyword
  digits : List Char
  isDigit_of_mem : ∀ c ∈ digits, c.isDigit = true
  takes : keyword.Takes digits

namespace Stem

def text (stem : Stem) : List Char := stem.keyword.letters ++ stem.digits

/-- The components of a tuple are not spelled, so it has none. -/
def type (stem : Stem) : AbiType :=
  match stem.keyword with
  | .uint => .uint (digitsValue stem.digits)
  | .int => .int (digitsValue stem.digits)
  | .bytes => if stem.digits = [] then .bytes else .fixedBytes (digitsValue stem.digits)
  | .bool => .bool
  | .string => .string
  | .address => .address
  | .function => .function
  | .tuple => .tuple "" []

/-- Without zeros in front of the number. The signature of a tuple is its list of components. -/
def plain (stem : Stem) : List Char :=
  match stem.keyword with
  | .tuple => ['(', ')']
  | keyword => keyword.letters ++ stem.digits.dropWhile (· = '0')

/-- A tuple is a level of nesting. -/
def levels (stem : Stem) : Nat := if stem.keyword = .tuple then 1 else 0

theorem signature_type (stem : Stem) : stem.type.signature = stem.plain := by
  obtain ⟨keyword, digits, hdigits, htakes⟩ := stem
  cases keyword with
  | uint | int =>
    have hpos : 1 ≤ digitsValue digits := le_trans (by decide) htakes.2.1
    exact congrArg (_ ++ ·) (decimal_digitsValue hdigits hpos)
  | bytes =>
    rcases htakes with rfl | ⟨hpos, -⟩
    · rfl
    · rw [type, if_neg (ne_nil_of_digitsValue hpos)]
      exact congrArg (_ ++ ·) (decimal_digitsValue hdigits hpos)
  | bool | string | address | function =>
    obtain rfl : digits = [] := htakes
    rfl
  | tuple => rfl

end Stem

/-! ## Groups -/

/-- A pair of brackets with digits between them, which are those of a positive count or absent, and
with the blanks around the digits and before the brackets. -/
structure BracketGroup where
  before : List Char
  opening : List Char
  digits : List Char
  closing : List Char
  blank_before : Text.Blank before
  blank_opening : Text.Blank opening
  blank_closing : Text.Blank closing
  isDigit_of_mem : ∀ c ∈ digits, c.isDigit = true
  size : digits = [] ∨ 1 ≤ digitsValue digits ∧ digitsValue digits ≤ Count.limit

namespace BracketGroup

/-- What stands behind the opening bracket. -/
def inside (g : BracketGroup) : List Char := g.opening ++ (g.digits ++ g.closing) ++ [']']

def text (g : BracketGroup) : List Char := g.before ++ '[' :: g.inside

def layer (g : BracketGroup) : Layer :=
  if g.digits = [] then .slice else .array (digitsValue g.digits)

/-- Without blanks and zeros. -/
def plain (g : BracketGroup) : List Char := '[' :: (g.digits.dropWhile (· = '0') ++ [']'])

theorem digits_layer (g : BracketGroup) : g.layer.digits = g.digits.dropWhile (· = '0') := by
  rw [layer]
  rcases g.size with hnil | ⟨hpos, -⟩
  · rw [if_pos hnil, hnil]
    rfl
  · rw [if_neg (ne_nil_of_digitsValue hpos)]
    exact decimal_digitsValue g.isDigit_of_mem hpos

end BracketGroup

/-! ## Spellings -/

/-- A stem and the groups behind it, which must not nest more levels than the limit. -/
structure Spelling where
  stem : Stem
  groups : List BracketGroup
  levels_le : groups.length + stem.levels ≤ nestingLimit

namespace Spelling

def text (p : Spelling) : List Char := p.stem.text ++ p.groups.flatMap BracketGroup.text

/-- The leftmost group is the innermost layer. -/
def type (p : Spelling) : AbiType :=
  p.groups.foldl (fun elem g ↦ g.layer.wrap elem) p.stem.type

/-- Without blanks and zeros. -/
def plain (p : Spelling) : List Char := p.stem.plain ++ p.groups.flatMap BracketGroup.plain

end Spelling

theorem signature_foldl_wrap (groups : List BracketGroup) (t : AbiType) :
    (groups.foldl (fun elem g ↦ g.layer.wrap elem) t).signature
      = t.signature ++ groups.flatMap BracketGroup.plain := by
  induction groups generalizing t with
  | nil => exact (List.append_nil _).symm
  | cons g groups ih =>
    rw [List.foldl_cons, ih, signature_wrap, g.digits_layer, List.flatMap_cons, List.append_assoc,
      BracketGroup.plain]

/-- The canonical signature is the plain spelling. -/
theorem Spelling.canonical_type (p : Spelling) : p.type.canonical = String.ofList p.plain := by
  rw [canonical, type, signature_foldl_wrap, p.stem.signature_type, plain]

end AbiType

end ContractAbi
