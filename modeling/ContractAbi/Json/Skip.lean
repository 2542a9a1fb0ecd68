import ContractAbi.Json.Number

/-!
# Skipping JSON values

Passing over a value that nobody reads. It has to be JSON, but it may be nested to any depth: the
brackets that are still open are kept in a list, and one loop serves them all.
-/

namespace ContractAbi.Json

inductive Bracket where
  | square
  | curly
deriving DecidableEq, Repr

def Bracket.closing : Bracket → Char
  | .square => ']'
  | .curly => '\x7d'

/-- What the text goes on with. -/
inductive Expected where
  | value
  /-- An item of the innermost bracket: a value, or a key and a value. -/
  | item
  /-- The same, or the closing bracket. -/
  | itemOrClose
  /-- A comma or the closing bracket. -/
  | separator
deriving DecidableEq, Repr

/-- How many steps may go by before a character is consumed. -/
def Expected.rank : Expected → Nat
  | .value | .separator => 0
  | .item => 1
  | .itemOrClose => 2

/-- Skips a value without brackets, `c` being its first character. -/
def skipScalar (c : Char) (s : List Char) : Except Fault (List Char) :=
  if c = 'n' then literal "ull".toList s
  else if c = 't' then literal "rue".toList s
  else if c = 'f' then literal "alse".toList s
  else if c = '-' then skipNumber s
  else if c.isDigit then skipNumber (c :: s)
  else if c = '"' then skipContent s
  else .error .malformed

/-- Skips the key of a member and its colon. -/
def skipKey (s : List Char) : Except Fault (List Char) :=
  match skipBlanks s with
  | [] => .error .truncated
  | c :: s =>
    if c ≠ '"' then .error .malformed
    else match skipContent s with
    | .error e => .error e
    | .ok s =>
      match skipBlanks s with
      | [] => .error .truncated
      | c :: s => if c = ':' then .ok s else .error .malformed

theorem length_skipScalar_le {c : Char} {s r : List Char} (h : skipScalar c s = .ok r) :
    r.length ≤ s.length := by
  unfold skipScalar at h
  split at h
  · exact length_literal_le h
  split at h
  · exact length_literal_le h
  split at h
  · exact length_literal_le h
  split at h
  · exact Nat.le_of_lt (length_skipNumber_lt h)
  split at h
  · exact Nat.le_of_lt_succ (length_skipNumber_lt h)
  split at h
  · exact length_skipContent_le h
  · simp at h

theorem length_skipKey_lt {s r : List Char} (h : skipKey s = .ok r) : r.length < s.length := by
  have hle := length_skipBlanks_le s
  unfold skipKey at h
  split at h
  · simp at h
  · next c s₁ heq =>
    simp only [heq, List.length_cons] at hle
    split at h
    · simp at h
    · split at h
      · simp at h
      · next s₂ hc =>
        have := length_skipContent_le hc
        have := length_skipBlanks_le s₂
        split at h
        · simp at h
        · next heq₂ =>
          simp only [heq₂, List.length_cons] at this
          grind

/-- Goes on to the end of the value that the brackets in `opened` are inside of, innermost first. -/
def skipOn (expected : Expected) (opened : List Bracket) (s : List Char) :
    Except Fault (List Char) :=
  match expected, opened with
  | .value, opened =>
    match _h : skipBlanks s with
    | [] => .error .truncated
    | c :: rest =>
      if c = '[' then skipOn .itemOrClose (.square :: opened) rest
      else if c = '\x7b' then skipOn .itemOrClose (.curly :: opened) rest
      else match _hs : skipScalar c rest with
      | .error e => .error e
      | .ok rest => skipOn .separator opened rest
  | _, [] => .ok s
  | .item, .square :: opened => skipOn .value (.square :: opened) s
  | .item, .curly :: opened =>
    match _h : skipKey s with
    | .error e => .error e
    | .ok rest => skipOn .value (.curly :: opened) rest
  | .itemOrClose, bracket :: opened =>
    match _h : skipBlanks s with
    | [] => .error .truncated
    | c :: rest =>
      if c = bracket.closing then skipOn .separator opened rest
      else skipOn .item (bracket :: opened) (c :: rest)
  | .separator, bracket :: opened =>
    match _h : skipBlanks s with
    | [] => .error .truncated
    | c :: rest =>
      if c = ',' then skipOn .item (bracket :: opened) rest
      else if c = bracket.closing then skipOn .separator opened rest
      else .error .malformed
termination_by 3 * s.length + expected.rank
decreasing_by
  all_goals simp only [Expected.rank]
  · have := length_lt_of_skipBlanks _h
    omega
  · have := length_lt_of_skipBlanks _h
    omega
  · have := length_lt_of_skipBlanks _h
    have := length_skipScalar_le _hs
    omega
  · omega
  · have := length_skipKey_lt _h
    omega
  · have := length_lt_of_skipBlanks _h
    omega
  · have := length_lt_of_skipBlanks _h
    simp only [List.length_cons]
    omega
  · have := length_lt_of_skipBlanks _h
    omega
  · have := length_lt_of_skipBlanks _h
    omega

/-- Everything but the end of the outermost bracket takes a character. -/
theorem length_skipOn {expected : Expected} {opened : List Bracket} {s r : List Char}
    (h : skipOn expected opened s = .ok r) :
    r.length ≤ s.length ∧ (expected = .value → r.length < s.length) := by
  fun_induction skipOn expected opened s with
  | case1 => simp at h
  | case2 s opened rest hs ih =>
    have := length_lt_of_skipBlanks hs
    have := ih h
    omega
  | case3 s opened rest hs _ ih =>
    have := length_lt_of_skipBlanks hs
    have := ih h
    omega
  | case4 => simp at h
  | case5 s opened c rest hs _ _ rest' hr ih =>
    have := length_lt_of_skipBlanks hs
    have := length_skipScalar_le hr
    have := ih h
    omega
  | case6 expected s hne => simp_all
  | case7 s opened ih => simp_all
  | case8 => simp at h
  | case9 s opened rest hk ih =>
    have := length_skipKey_lt hk
    have := ih h
    simp
    omega
  | case10 => simp at h
  | case11 s bracket opened rest hs ih =>
    have := length_lt_of_skipBlanks hs
    have := ih h
    simp
    omega
  | case12 s bracket opened c rest hs _ ih =>
    have := length_lt_of_skipBlanks hs
    have := (ih h).1
    simp at this ⊢
    omega
  | case13 => simp at h
  | case14 s bracket opened rest hs ih =>
    have := length_lt_of_skipBlanks hs
    have := ih h
    simp
    omega
  | case15 s bracket opened rest hs _ ih =>
    have := length_lt_of_skipBlanks hs
    have := ih h
    simp
    omega
  | case16 => simp at h

/-- Skips a value. -/
def skipValue : Reader Unit where
  run s := (skipOn .value [] s).map ((), ·)
  length_lt {s a r} h := by
    cases hs : skipOn .value [] s with
    | error e => simp [hs, Except.map] at h
    | ok r' =>
      simp only [hs, Except.map, Except.ok.injEq, Prod.mk.injEq] at h
      exact h.2 ▸ (length_skipOn hs).2 rfl

end ContractAbi.Json
