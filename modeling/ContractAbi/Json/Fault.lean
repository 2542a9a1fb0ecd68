import ContractAbi.Count
import ContractAbi.Error

/-!
# Faults of a text

What can be wrong with a text that should hold an argument list, and the message of a type that was
refused.

Readers of JSON end a message with the place where they stopped, ` at line L column C`. The messages
of this library say what is wrong and not where, so a message that ends like that is cut before the
place, even if it is the end of the refused signature itself.
-/

namespace ContractAbi.Json

/-- Why a text does not describe what was to be read. -/
inductive Fault where
  /-- The text is not JSON. -/
  | malformed
  /-- The text ends too early. -/
  | truncated
  /-- A JSON value of the wrong shape. -/
  | mismatched
  /-- A descriptor of the right shape that has no type. -/
  | rejected (cause : AbiError)
deriving DecidableEq, Repr

/-- The kinds of faults that a caller can tell apart. -/
inductive Fault.Category where
  | grammar
  | ending
  | data
deriving DecidableEq, Repr

def Fault.category : Fault → Category
  | malformed => .grammar
  | truncated => .ending
  | mismatched | rejected _ => .data

/-! ## Places -/

/-- What follows `word` in a text that begins with it. -/
def afterWord? (word s : List Char) : Option (List Char) :=
  if word.isPrefixOf s then some (s.drop word.length) else none

/-- What follows the digits that a text begins with, if they are the decimal form of a count. -/
def afterCount? (s : List Char) : Option (List Char) :=
  let digits := s.takeWhile Char.isDigit
  if digits = [] then none
  else (Count.ofDigits? digits).map fun _ ↦ s.dropWhile Char.isDigit

/-- A whole text that names a place, ` at line L column C`. -/
def isPlace (s : List Char) : Bool :=
  let rest := do
    let s ← afterWord? " at line ".toList s
    let s ← afterCount? s
    let s ← afterWord? " column ".toList s
    afterCount? s
  rest == some []

/-- A message up to the place that it ends with. A place begins with a blank before `at line`, which
occurs nowhere else in it, so there is one way at most to cut it off. -/
def withoutPlace : List Char → List Char
  | [] => []
  | c :: s => if isPlace (c :: s) then [] else c :: withoutPlace s

/-! ## Wording -/

def Fault.message? : Fault → Option String
  | rejected cause =>
    some ("abi json error: " ++ String.ofList (withoutPlace cause.message.toList))
  | _ => none

end ContractAbi.Json
