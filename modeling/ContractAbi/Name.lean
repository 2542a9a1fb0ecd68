import ContractAbi.Text.Alphabetic
import ContractAbi.Text.Uppercase

/-!
# Binding names

The fields of a tuple are declared under names of any form, and are bound under identifiers: words
separated by underscores are joined in camel case, and a name that is already taken is numbered.
-/

namespace ContractAbi.Name

/-! ## Camel case -/

def joinWords (atStart : Bool) : List Char → List Char
  | [] => []
  | c :: rest =>
    if c = '_' then joinWords true rest
    else (if atStart then Text.uppercase c else [c]) ++ joinWords false rest

/-- Drops the underscores and puts the first character of every word they separate in upper case. -/
def camelCase (name : String) : String :=
  String.ofList (joinWords true name.toList)

/-! ## Identifiers -/

/-- A letter of any script, or an underscore. -/
def isLetter (c : Char) : Bool :=
  c = '_' || Text.isAlphabetic c

/-- A letter followed by letters and decimal digits. -/
def isIdentifier (name : String) : Bool :=
  match name.toList with
  | [] => false
  | c :: rest => isLetter c && rest.all fun d ↦ isLetter d || d.isDigit

/-! ## Taken names -/

/-- The name with a number after it. -/
def numbered (name : String) (n : Nat) : String :=
  name ++ toString n

/-- The name itself if it is free, and otherwise the first free one of its numbered forms. There are
more of those below the length of `taken` than names left in `taken`, so the search succeeds. -/
def fresh (name : String) (taken : List String) : String :=
  if name ∈ taken then
    match (List.range taken.length).find? (numbered name · ∉ taken) with
    | some n => numbered name n
    | none => ""
  else
    name

end ContractAbi.Name
