import ContractAbi.Json.Reader

/-!
# JSON strings

The content of a string, from behind its opening quote to its closing one. Characters outside the
basic plane may be escaped as a pair of surrogates, and a surrogate without its partner is refused.
Where a string is only skipped, escapes still have to be well formed but surrogates need no partner.
-/

namespace ContractAbi.Json

/-! ## Escapes -/

/-- Takes four hexadecimal digits off the text. Four bytes have to be left for them: with fewer the
text is truncated, whatever they are. -/
def hexQuad : List Char → Except Fault (Nat × List Char)
  | a :: b :: c :: d :: rest =>
    match Bytes.hexDigit? a, Bytes.hexDigit? b, Bytes.hexDigit? c, Bytes.hexDigit? d with
    | some a, some b, some c, some d => .ok (16 * (16 * (16 * a + b) + c) + d, rest)
    | _, _, _, _ => .error .malformed
  | s => .error (if 4 ≤ (String.ofList s).utf8ByteSize then .malformed else .truncated)

def isHighSurrogate (n : Nat) : Bool := 0xD800 ≤ n && n ≤ 0xDBFF

def isLowSurrogate (n : Nat) : Bool := 0xDC00 ≤ n && n ≤ 0xDFFF

/-- The second half of a pair of surrogates. -/
def lowSurrogate : List Char → Except Fault (Nat × List Char)
  | [] => .error .truncated
  | c :: s =>
    if c ≠ '\\' then .error .malformed
    else match s with
    | [] => .error .truncated
    | d :: s =>
      if d ≠ 'u' then .error .malformed
      else match hexQuad s with
      | .error e => .error e
      | .ok (n, rest) => if isLowSurrogate n then .ok (n, rest) else .error .malformed

/-- The character of an escape by its code point. -/
def codePoint (s : List Char) : Except Fault (Char × List Char) :=
  match hexQuad s with
  | .error e => .error e
  | .ok (n, rest) =>
    if isLowSurrogate n then .error .malformed
    else if isHighSurrogate n then
      match lowSurrogate rest with
      | .error e => .error e
      | .ok (m, rest) => .ok (Char.ofNat (0x10000 + 0x400 * (n - 0xD800) + (m - 0xDC00)), rest)
    else .ok (Char.ofNat n, rest)

/-- The escapes of one letter. -/
def letterEscape? : Char → Option Char
  | '"' => some '"'
  | '\\' => some '\\'
  | '/' => some '/'
  | 'b' => some '\x08'
  | 'f' => some '\x0c'
  | 'n' => some '\n'
  | 'r' => some '\r'
  | 't' => some '\t'
  | _ => none

/-- The character of an escape, from behind its backslash on. -/
def escape : List Char → Except Fault (Char × List Char)
  | [] => .error .truncated
  | c :: s =>
    match letterEscape? c with
    | some d => .ok (d, s)
    | none => if c = 'u' then codePoint s else .error .malformed

/-- Skips an escape, from behind its backslash on. -/
def skipEscape : List Char → Except Fault (List Char)
  | [] => .error .truncated
  | c :: s =>
    match letterEscape? c with
    | some _ => .ok s
    | none =>
      if c = 'u' then
        match hexQuad s with
        | .error e => .error e
        | .ok (_, rest) => .ok rest
      else .error .malformed

theorem length_hexQuad_le {s r : List Char} {n : Nat} (h : hexQuad s = .ok (n, r)) :
    r.length ≤ s.length := by
  unfold hexQuad at h
  split at h
  · split at h <;> grind
  · simp at h

theorem length_lowSurrogate_le {s r : List Char} {n : Nat} (h : lowSurrogate s = .ok (n, r)) :
    r.length ≤ s.length := by
  unfold lowSurrogate at h
  split at h
  · simp at h
  · split at h
    · simp at h
    · split at h
      · simp at h
      · split at h
        · simp at h
        · split at h
          · simp at h
          · next hq =>
            have := length_hexQuad_le hq
            grind

theorem length_codePoint_le {s r : List Char} {c : Char} (h : codePoint s = .ok (c, r)) :
    r.length ≤ s.length := by
  unfold codePoint at h
  split at h
  · simp at h
  · next hq =>
    have := length_hexQuad_le hq
    split at h
    · simp at h
    · split at h
      · split at h
        · simp at h
        · next hl =>
          have := length_lowSurrogate_le hl
          grind
      · grind

theorem length_escape_le {s r : List Char} {c : Char} (h : escape s = .ok (c, r)) :
    r.length ≤ s.length := by
  unfold escape at h
  split at h
  · simp at h
  · split at h
    · grind
    · split at h
      · have := length_codePoint_le h
        grind
      · simp at h

theorem length_skipEscape_le {s r : List Char} (h : skipEscape s = .ok r) :
    r.length ≤ s.length := by
  unfold skipEscape at h
  split at h
  · simp at h
  · split at h
    · grind
    · split at h
      · split at h
        · simp at h
        · next hq =>
          have := length_hexQuad_le hq
          grind
      · simp at h

/-! ## Content -/

/-- Characters that a string holds only as escapes. -/
def isControl (c : Char) : Bool := c.toNat < 0x20

/-- The content up to the closing quote, and what follows it. -/
def content (s : List Char) : Except Fault (List Char × List Char) :=
  match s with
  | [] => .error .truncated
  | c :: s =>
    if c = '"' then .ok ([], s)
    else if c = '\\' then
      match _h : escape s with
      | .error e => .error e
      | .ok (d, rest) =>
        match content rest with
        | .error e => .error e
        | .ok (text, rest) => .ok (d :: text, rest)
    else if isControl c then .error .malformed
    else
      match content s with
      | .error e => .error e
      | .ok (text, rest) => .ok (c :: text, rest)
termination_by s.length
decreasing_by
  · have := length_escape_le _h
    simp only [List.length_cons]
    omega
  · simp

/-- Skips the content and the closing quote. -/
def skipContent (s : List Char) : Except Fault (List Char) :=
  match s with
  | [] => .error .truncated
  | c :: s =>
    if c = '"' then .ok s
    else if c = '\\' then
      match _h : skipEscape s with
      | .error e => .error e
      | .ok rest => skipContent rest
    else if isControl c then .error .malformed
    else skipContent s
termination_by s.length
decreasing_by
  · have := length_skipEscape_le _h
    simp only [List.length_cons]
    omega
  · simp

theorem length_content_le {s r text : List Char} (h : content s = .ok (text, r)) :
    r.length ≤ s.length := by
  fun_induction content s generalizing text r with
  | case1 => simp at h
  | case2 => grind
  | case3 => simp at h
  | case4 => simp at h
  | case5 s d rest hd text' rest' he _ ih =>
    have := ih he
    have := length_escape_le hd
    grind
  | case6 => simp at h
  | case7 => simp at h
  | case8 c s hc rest hd text' rest' he ih =>
    have := ih he
    grind

theorem length_skipContent_le {s r : List Char} (h : skipContent s = .ok r) :
    r.length ≤ s.length := by
  fun_induction skipContent s generalizing r with
  | case1 => simp at h
  | case2 => grind
  | case3 => simp at h
  | case4 s rest hd _ ih =>
    have := ih h
    have := length_skipEscape_le hd
    grind
  | case5 => simp at h
  | case6 c s hc hd he ih =>
    have := ih h
    grind

end ContractAbi.Json
