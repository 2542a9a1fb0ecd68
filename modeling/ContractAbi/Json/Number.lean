import ContractAbi.Count
import ContractAbi.Json.Text

/-!
# JSON numbers

No descriptor holds a number, so a number is only ever passed over: either where something else
was expected, and then it has to be finite as a double, or inside a value that nobody reads, and
then its digits are all that counts.
-/

namespace ContractAbi.Json

structure Numeral where
  whole : List Char
  fraction : List Char := []
  /-- The sign, set when it is negative, and the digits. -/
  exponent : Option (Bool × List Char) := none

/-! ## Digits -/

/-- Takes the digits off the text, of which there has to be one. `atEnd` is the fault of a text that
ends before it. -/
def digits (atEnd : Fault) : List Char → Except Fault (List Char × List Char)
  | [] => .error atEnd
  | c :: s =>
    if c.isDigit then .ok (c :: s.takeWhile Char.isDigit, s.dropWhile Char.isDigit)
    else .error .malformed

/-- The same for the whole part, which does not begin with a zero if it has several digits. -/
def wholeDigits (atEnd : Fault) (s : List Char) : Except Fault (List Char × List Char) :=
  match digits atEnd s with
  | .error e => .error e
  | .ok ('0' :: _ :: _, _) => .error .malformed
  | .ok (ds, rest) => .ok (ds, rest)

def fractionDigits (atEnd : Fault) : List Char → Except Fault (List Char × List Char)
  | '.' :: s => digits atEnd s
  | s => .ok ([], s)

def exponentDigits (atEnd : Fault) : List Char →
    Except Fault (Option (Bool × List Char) × List Char)
  | [] => .ok (none, [])
  | c :: s =>
    if c = 'e' ∨ c = 'E' then
      match s with
      | '-' :: s => (digits atEnd s).map fun (ds, rest) ↦ (some (true, ds), rest)
      | '+' :: s => (digits atEnd s).map fun (ds, rest) ↦ (some (false, ds), rest)
      | s => (digits atEnd s).map fun (ds, rest) ↦ (some (false, ds), rest)
    else .ok (none, c :: s)

/-- Takes a number without its sign off the text. -/
def numeral (atEnd : Fault) (s : List Char) : Except Fault (Numeral × List Char) := do
  let (whole, s) ← wholeDigits atEnd s
  let (fraction, s) ← fractionDigits atEnd s
  let (exponent, s) ← exponentDigits atEnd s
  return (⟨whole, fraction, exponent⟩, s)

/-! ## Range -/

def digitValue (c : Char) : Nat := c.toNat - '0'.toNat

/-- The significand, which takes digits of the whole part as long as it is a 64-bit count, and the
number of digits left over. -/
def wholeSignificand (ds : List Char) : Nat × Nat :=
  ds.foldl
    (fun (n, dropped) c ↦
      let next := 10 * n + digitValue c
      if dropped = 0 ∧ next ≤ Count.limit then (next, 0) else (n, dropped + 1))
    (0, 0)

/-- The significand after the digits of a fraction that still fit it, and their number. -/
def fractionSignificand (n used : Nat) : List Char → Nat × Nat
  | [] => (n, used)
  | c :: ds =>
    let next := 10 * n + digitValue c
    if next ≤ Count.limit then fractionSignificand next (used + 1) ds else (n, used)

/-- The nearest number of 53 significant bits, and of two the even one. -/
def roundToDouble (n : Nat) : Nat :=
  let shift := n.log2 - 52
  let unit := Nat.pow 2 shift
  let quotient := n / unit
  let twice := 2 * (n % unit)
  if twice < unit ∨ (twice = unit ∧ quotient % 2 = 0) then quotient * unit
  else (quotient + 1) * unit

/-- Half a unit in the last place above the largest finite double, where rounding overflows. -/
def overflowThreshold : Nat := Nat.pow 2 1024 - Nat.pow 2 970

/-- Whether the product of a significand and a power of ten is finite as a double. -/
def isFiniteProduct (significand : Nat) (exponent : Int) : Bool :=
  if exponent < 0 ∨ significand = 0 then true
  else if 308 < exponent then false
  else roundToDouble significand * roundToDouble (Nat.pow 10 exponent.toNat) < overflowThreshold

/-- An exponent of this size or more settles the matter by its sign. -/
def exponentLimit : Nat := 0x80000000

def Numeral.isFinite (x : Numeral) : Bool :=
  let (n, dropped) := wholeSignificand x.whole
  let (n, used) := fractionSignificand n 0 x.fraction
  match x.exponent with
  | none => isFiniteProduct n (dropped - used)
  | some (negative, ds) =>
    let e := Nat.ofDigitChars 10 ds 0
    if exponentLimit ≤ e then negative || n = 0
    else isFiniteProduct n (dropped - used + (if negative then -(e : Int) else e))

/-! ## Passing over numbers -/

/-- Reads a number where something else was expected. -/
def number (s : List Char) : Except Fault (List Char) := do
  let (x, rest) ← numeral .truncated s
  if x.isFinite then return rest else .error .malformed

/-- Skips a number. A text that ends where a digit has to follow is not a number. -/
def skipNumber (s : List Char) : Except Fault (List Char) := do
  let (_, rest) ← numeral .malformed s
  return rest

/-! ## Values of the wrong kind -/

def faultOf : Except Fault α → Fault
  | .error e => e
  | .ok _ => .mismatched

/-- The fault of a value that begins with `c` and is not of the kind that was expected. A scalar is
read to its end first, and a fault inside it comes before the mismatch. -/
def wrongValue (c : Char) (s : List Char) : Fault :=
  if c = 'n' then faultOf (literal "ull".toList s)
  else if c = 't' then faultOf (literal "rue".toList s)
  else if c = 'f' then faultOf (literal "alse".toList s)
  else if c = '-' then faultOf (number s)
  else if c.isDigit then faultOf (number (c :: s))
  else if c = '"' then faultOf (content s)
  else if c = '[' ∨ c = '\x7b' then .mismatched
  else .malformed

/-! ## Lengths -/

theorem length_digits_lt {atEnd : Fault} {s ds r : List Char}
    (h : digits atEnd s = .ok (ds, r)) : r.length < s.length := by
  unfold digits at h
  split at h
  · simp at h
  · next c s =>
    have := (List.dropWhile_sublist (l := s) Char.isDigit).length_le
    grind

theorem length_wholeDigits_lt {atEnd : Fault} {s ds r : List Char}
    (h : wholeDigits atEnd s = .ok (ds, r)) : r.length < s.length := by
  unfold wholeDigits at h
  split at h
  · simp at h
  · simp at h
  · next hd =>
    have := length_digits_lt hd
    grind

theorem length_fractionDigits_le {atEnd : Fault} {s ds r : List Char}
    (h : fractionDigits atEnd s = .ok (ds, r)) : r.length ≤ s.length := by
  unfold fractionDigits at h
  split at h
  · have := length_digits_lt h
    grind
  · grind

theorem length_exponentDigits_le {atEnd : Fault} {s r : List Char} {x : Option (Bool × List Char)}
    (h : exponentDigits atEnd s = .ok (x, r)) : r.length ≤ s.length := by
  have mapped {s t r : List Char} {b : Bool} {x : Option (Bool × List Char)}
      (h : (digits atEnd t).map (fun (ds, rest) ↦ (some (b, ds), rest)) = .ok (x, r))
      (hle : t.length ≤ s.length) : r.length ≤ s.length := by
    cases hd : digits atEnd t with
    | error e => simp [hd, Except.map] at h
    | ok p =>
      have := length_digits_lt hd
      simp only [hd, Except.map, Except.ok.injEq, Prod.mk.injEq] at h
      grind
  unfold exponentDigits at h
  split at h
  · grind
  · split at h
    · split at h <;> exact mapped h (by simp only [List.length_cons]; omega)
    · grind

theorem length_numeral_lt {atEnd : Fault} {s r : List Char} {x : Numeral}
    (h : numeral atEnd s = .ok (x, r)) : r.length < s.length := by
  simp only [numeral, bind, Except.bind] at h
  split at h
  · simp at h
  · next hw =>
    have := length_wholeDigits_lt hw
    split at h
    · simp at h
    · next hf =>
      have := length_fractionDigits_le hf
      split at h
      · simp at h
      · next he =>
        have := length_exponentDigits_le he
        simp only [pure, Except.pure, Except.ok.injEq, Prod.mk.injEq] at h
        grind

theorem length_skipNumber_lt {s r : List Char} (h : skipNumber s = .ok r) :
    r.length < s.length := by
  simp only [skipNumber, bind, Except.bind] at h
  split at h
  · simp at h
  · next hn =>
    have := length_numeral_lt hn
    simp only [pure, Except.pure, Except.ok.injEq] at h
    grind

end ContractAbi.Json
