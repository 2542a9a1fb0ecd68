import ContractAbi.Text.Printable

/-!
# Quoted text

A text between double quotes, as error messages show a name. The quote and the backslash are
escaped, four control characters have a letter of their own, and every other character that would
not show is written by its code point in hexadecimal.
-/

namespace ContractAbi.Text

/-- The code point in hexadecimal between braces. -/
def codePointEscape (c : Char) : List Char :=
  ['\\', 'u', '\x7b'] ++ Nat.toDigits 16 c.toNat ++ ['\x7d']

def escape (c : Char) : List Char :=
  if c = '\x00' then ['\\', '0']
  else if c = '\t' then ['\\', 't']
  else if c = '\r' then ['\\', 'r']
  else if c = '\n' then ['\\', 'n']
  else if c = '\\' ∨ c = '"' then ['\\', c]
  else if isExtending c || !isPrintable c then codePointEscape c
  else [c]

def quote (s : String) : String :=
  String.ofList ('"' :: s.toList.flatMap escape ++ ['"'])

end ContractAbi.Text
