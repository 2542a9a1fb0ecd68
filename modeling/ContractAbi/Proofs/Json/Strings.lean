import Mathlib.Data.List.TakeWhile
import ContractAbi.Json.Text

/-!
# Texts of strings

A string of JSON has many texts: each of its characters may stand for itself or be escaped, by a
letter, by its code point in hexadecimal digits of either case, or by two surrogates. All of them
are read back to the same content. A string that is only passed over may hold any code point,
surrogates without a partner included.
-/

namespace ContractAbi.Json

/-! ## Blanks -/

def Blanks (s : List Char) : Prop := ∀ c ∈ s, c ∈ [' ', '\t', '\n', '\r']

theorem skipBlanks_append {b : List Char} (hb : Blanks b) (s : List Char) :
    skipBlanks (b ++ s) = skipBlanks s := by
  have hall : ∀ c ∈ [' ', '\t', '\n', '\r'],
      (c = ' ' || c = '\t' || c = '\n' || c = '\r') = true := by simp
  exact List.dropWhile_append_of_pos fun c hc ↦ hall c (hb c hc)

theorem skipBlanks_cons {c : Char} (h : c ∉ [' ', '\t', '\n', '\r']) (s : List Char) :
    skipBlanks (c :: s) = c :: s := by
  simp only [List.mem_cons, List.not_mem_nil, or_false, not_or] at h
  rw [skipBlanks, List.dropWhile_cons_of_neg (by simp [h])]

/-! ## Escapes -/

/-- The letters of escapes and the characters that they stand for. -/
def letterEscapes : List (Char × Char) :=
  [('"', '"'), ('\\', '\\'), ('/', '/'), ('b', '\x08'), ('f', '\x0c'), ('n', '\n'), ('r', '\r'),
   ('t', '\t')]

/-- A hexadecimal digit and its value. -/
def HexDigit (n : Nat) (c : Char) : Prop :=
  n < 16 ∧ (c = Nat.digitChar n ∨ c = (Nat.digitChar n).toUpper)

/-- The four digits of a number. -/
inductive HexQuad : Nat → List Char → Prop
  | mk {i j k l : Nat} {a b c d : Char} : HexDigit i a → HexDigit j b → HexDigit k c →
      HexDigit l d → HexQuad (16 * (16 * (16 * i + j) + k) + l) [a, b, c, d]

theorem letterEscape?_of_mem {d c : Char} (h : (d, c) ∈ letterEscapes) :
    letterEscape? d = some c := by
  have hall : ∀ x ∈ letterEscapes, letterEscape? x.1 = some x.2 := by
    simp [letterEscapes, letterEscape?]
  exact hall _ h

theorem hexDigit?_of_hexDigit {n : Nat} {c : Char} (h : HexDigit n c) :
    Bytes.hexDigit? c = some n := by
  have hall : ∀ n < 16, Bytes.hexDigit? (Nat.digitChar n) = some n ∧
      Bytes.hexDigit? (Nat.digitChar n).toUpper = some n := by decide
  obtain ⟨hlower, hupper⟩ := hall n h.1
  rcases h.2 with rfl | rfl
  · exact hlower
  · exact hupper

theorem hexQuad_append {n : Nat} {q : List Char} (h : HexQuad n q) (rest : List Char) :
    hexQuad (q ++ rest) = .ok (n, rest) := by
  obtain ⟨ha, hb, hc, hd⟩ := h
  simp only [List.cons_append, List.nil_append, hexQuad, hexDigit?_of_hexDigit ha,
    hexDigit?_of_hexDigit hb, hexDigit?_of_hexDigit hc, hexDigit?_of_hexDigit hd]

/-! ## Strings that are read -/

/-- Characters that may stand for themselves. -/
def isPlain (c : Char) : Bool := c ≠ '"' && c ≠ '\\' && 0x20 ≤ c.toNat

/-- The texts of a character in a string. -/
inductive CharText : Char → List Char → Prop
  | plain {c : Char} : isPlain c = true → CharText c [c]
  | letter {d c : Char} : (d, c) ∈ letterEscapes → CharText c ['\\', d]
  | codePoint {c : Char} {q : List Char} : HexQuad c.toNat q → CharText c ('\\' :: 'u' :: q)
  | surrogates {c : Char} {high low : Nat} {q r : List Char} : high < 0x400 → low < 0x400 →
      c.toNat = 0x10000 + 0x400 * high + low → HexQuad (0xD800 + high) q →
      HexQuad (0xDC00 + low) r → CharText c ('\\' :: 'u' :: (q ++ '\\' :: 'u' :: r))

/-- The texts of a string's content. -/
inductive ContentText : List Char → List Char → Prop
  | nil : ContentText [] []
  | cons {c : Char} {cs s t : List Char} : CharText c s → ContentText cs t →
      ContentText (c :: cs) (s ++ t)

def StringText (text : String) (s : List Char) : Prop :=
  ∃ t, ContentText text.toList t ∧ s = '"' :: (t ++ ['"'])

/-- Content without quotes, backslashes and control characters is its own text. -/
theorem contentText_of_plain {s : List Char} (h : s.all isPlain = true) : ContentText s s := by
  induction s with
  | nil => exact .nil
  | cons c s ih =>
    rw [List.all_cons, Bool.and_eq_true] at h
    exact .cons (.plain h.1) (ih h.2)

theorem isPlain_iff {c : Char} :
    isPlain c = true ↔ c ≠ '"' ∧ c ≠ '\\' ∧ isControl c = false := by
  simp [isPlain, isControl, and_assoc]

theorem codePoint_of_hexQuad {c : Char} {q : List Char} (h : HexQuad c.toNat q)
    (rest : List Char) : codePoint (q ++ rest) = .ok (c, rest) := by
  -- a character is no surrogate
  have hvalid : c.toNat < 0xD800 ∨ 0xDFFF < c.toNat := c.valid.imp id And.left
  have hlow : isLowSurrogate c.toNat = false := by
    simp only [isLowSurrogate, Bool.and_eq_false_iff, decide_eq_false_iff_not]
    omega
  have hhigh : isHighSurrogate c.toNat = false := by
    simp only [isHighSurrogate, Bool.and_eq_false_iff, decide_eq_false_iff_not]
    omega
  simp only [codePoint, hexQuad_append h, hlow, hhigh, Bool.false_eq_true, if_false,
    Char.ofNat_toNat]

theorem lowSurrogate_of_hexQuad {low : Nat} {r : List Char} (hlow : low < 0x400)
    (h : HexQuad (0xDC00 + low) r) (rest : List Char) :
    lowSurrogate ('\\' :: 'u' :: (r ++ rest)) = .ok (0xDC00 + low, rest) := by
  have hsurrogate : isLowSurrogate (0xDC00 + low) = true := by
    simp only [isLowSurrogate, Bool.and_eq_true, decide_eq_true_eq]
    omega
  simp only [lowSurrogate, ne_eq, not_true_eq_false, if_false, hexQuad_append h, hsurrogate,
    if_true]

theorem codePoint_of_surrogates {c : Char} {high low : Nat} {q r : List Char} (hhigh : high < 0x400)
    (hlow : low < 0x400) (hc : c.toNat = 0x10000 + 0x400 * high + low)
    (hq : HexQuad (0xD800 + high) q) (hr : HexQuad (0xDC00 + low) r) (rest : List Char) :
    codePoint (q ++ '\\' :: 'u' :: (r ++ rest)) = .ok (c, rest) := by
  have hnotLow : isLowSurrogate (0xD800 + high) = false := by
    simp only [isLowSurrogate, Bool.and_eq_false_iff, decide_eq_false_iff_not]
    omega
  have hsurrogate : isHighSurrogate (0xD800 + high) = true := by
    simp only [isHighSurrogate, Bool.and_eq_true, decide_eq_true_eq]
    omega
  simp only [codePoint, hexQuad_append hq, hnotLow, hsurrogate, Bool.false_eq_true, if_false,
    if_true, lowSurrogate_of_hexQuad hlow hr, Nat.add_sub_cancel_left, ← hc, Char.ofNat_toNat]

/-- An escape is read, and the content goes on behind it. -/
theorem content_escape {c : Char} {s rest : List Char} (h : escape s = .ok (c, rest)) :
    content ('\\' :: s) = (content rest).map fun (text, r) ↦ (c :: text, r) := by
  rw [content, if_neg (by decide), if_pos rfl]
  split
  · next he => cases he.symm.trans h
  · next he =>
    cases he.symm.trans h
    cases content rest with
    | error e => rfl
    | ok read => rfl

/-- A character is read from each of its texts. -/
theorem content_of_charText {c : Char} {s : List Char} (h : CharText c s) (rest : List Char) :
    content (s ++ rest) = (content rest).map fun (text, r) ↦ (c :: text, r) := by
  cases h with
  | plain h =>
    obtain ⟨hquote, hslash, hcontrol⟩ := isPlain_iff.mp h
    rw [List.singleton_append, content, if_neg hquote, if_neg hslash, hcontrol,
      if_neg Bool.false_ne_true]
    cases content rest with
    | error e => rfl
    | ok read => rfl
  | @letter d c h =>
    have hescape : escape (d :: rest) = .ok (c, rest) := by rw [escape, letterEscape?_of_mem h]
    exact content_escape hescape
  | codePoint h => exact content_escape (codePoint_of_hexQuad h rest)
  | surrogates hhigh hlow hc hq hr =>
    rw [List.cons_append, List.cons_append, List.append_assoc, List.cons_append, List.cons_append]
    exact content_escape (codePoint_of_surrogates hhigh hlow hc hq hr rest)

theorem content_of_contentText {cs s : List Char} (h : ContentText cs s) (rest : List Char) :
    content (s ++ '"' :: rest) = .ok (cs, rest) := by
  induction h with
  | nil => rw [List.nil_append, content, if_pos rfl]
  | cons hc _ ih => rw [List.append_assoc, content_of_charText hc, ih]; rfl

/-! ## Strings that are passed over -/

/-- What may stand for a character in a string of which only the grammar matters. -/
inductive SkippedChar : List Char → Prop
  | plain {c : Char} : isPlain c = true → SkippedChar [c]
  | letter {d c : Char} : (d, c) ∈ letterEscapes → SkippedChar ['\\', d]
  | codePoint {n : Nat} {q : List Char} : HexQuad n q → SkippedChar ('\\' :: 'u' :: q)

inductive SkippedContent : List Char → Prop
  | nil : SkippedContent []
  | cons {s t : List Char} : SkippedChar s → SkippedContent t → SkippedContent (s ++ t)

theorem skipContent_escape {s rest : List Char} (h : skipEscape s = .ok rest) :
    skipContent ('\\' :: s) = skipContent rest := by
  rw [skipContent, if_neg (by decide), if_pos rfl]
  split
  · next he => cases he.symm.trans h
  · next he => cases he.symm.trans h; rfl

theorem skipContent_of_skippedChar {s : List Char} (h : SkippedChar s) (rest : List Char) :
    skipContent (s ++ rest) = skipContent rest := by
  cases h with
  | plain h =>
    obtain ⟨hquote, hslash, hcontrol⟩ := isPlain_iff.mp h
    rw [List.singleton_append, skipContent, if_neg hquote, if_neg hslash, hcontrol,
      if_neg Bool.false_ne_true]
  | @letter d c h =>
    have hescape : skipEscape (d :: rest) = .ok rest := by rw [skipEscape, letterEscape?_of_mem h]
    exact skipContent_escape hescape
  | @codePoint n q h =>
    have hletter : letterEscape? 'u' = none := rfl
    have hescape : skipEscape ('u' :: (q ++ rest)) = .ok rest := by
      rw [skipEscape, hletter, if_pos rfl, hexQuad_append h]
    exact skipContent_escape hescape

theorem skipContent_of_skippedContent {s : List Char} (h : SkippedContent s) (rest : List Char) :
    skipContent (s ++ '"' :: rest) = .ok rest := by
  induction h with
  | nil => rw [List.nil_append, skipContent, if_pos rfl]
  | cons hs _ ih => rw [List.append_assoc, skipContent_of_skippedChar hs, ih]

end ContractAbi.Json
