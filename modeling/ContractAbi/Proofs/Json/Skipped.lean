import ContractAbi.Proofs.Json.Items

/-!
# Texts of values that are passed over

A value that nobody reads may be any value of JSON, nested to any depth. Its grammar is stated by
depth, and the loop that passes over it keeps its open brackets in a list: what is open before a
value is open behind it again, so the loop goes on behind any value as if it had not been there.
-/

namespace ContractAbi.Json

/-! ## Numbers -/

def Digits (s : List Char) : Prop := s ≠ [] ∧ ∀ c ∈ s, c.isDigit = true

def FractionText (s : List Char) : Prop := s = [] ∨ ∃ ds, Digits ds ∧ s = '.' :: ds

def ExponentText (s : List Char) : Prop :=
  s = [] ∨ ∃ e sign ds, (e = 'e' ∨ e = 'E') ∧ (sign = [] ∨ sign = ['+'] ∨ sign = ['-']) ∧
    Digits ds ∧ s = e :: (sign ++ ds)

/-- A number without its sign, and with no zero in front of another digit. -/
inductive NumeralText : List Char → Prop
  | mk {whole fraction exponent : List Char} : Digits whole →
      (whole.head? = some '0' → whole = ['0']) → FractionText fraction → ExponentText exponent →
      NumeralText (whole ++ (fraction ++ exponent))

/-- The text does not go on with a digit or a fraction. -/
def EndsDigits (s : List Char) : Prop := ∀ c ∈ s.head?, c.isDigit = false ∧ c ≠ '.'

theorem Delimited.endsDigits {s : List Char} (h : Delimited s) : EndsDigits s := by
  have hall : ∀ c ∈ delimiters, c.isDigit = false ∧ c ≠ '.' := by simp [delimiters]
  exact fun c hc ↦ hall c (h c hc)

theorem ExponentText.endsDigits {s rest : List Char} (h : ExponentText s) (hrest : Delimited rest) :
    EndsDigits (s ++ rest) := by
  obtain rfl | ⟨e, sign, ds, he, -, -, rfl⟩ := h
  · exact hrest.endsDigits
  · rintro _ ⟨⟩
    rcases he with rfl | rfl <;> decide

section Digits

variable {ds rest : List Char}

theorem takeWhile_digits (hds : ∀ c ∈ ds, c.isDigit = true)
    (hrest : ∀ c ∈ rest.head?, c.isDigit = false) : (ds ++ rest).takeWhile Char.isDigit = ds := by
  rw [List.takeWhile_append_of_pos hds]
  cases rest with
  | nil => rw [List.takeWhile_nil, List.append_nil]
  | cons c rest =>
    rw [List.takeWhile_cons_of_neg (Bool.eq_false_iff.mp (hrest c rfl)), List.append_nil]

theorem dropWhile_digits (hds : ∀ c ∈ ds, c.isDigit = true)
    (hrest : ∀ c ∈ rest.head?, c.isDigit = false) : (ds ++ rest).dropWhile Char.isDigit = rest := by
  rw [List.dropWhile_append_of_pos hds]
  cases rest with
  | nil => rfl
  | cons c rest => exact List.dropWhile_cons_of_neg (Bool.eq_false_iff.mp (hrest c rfl))

theorem digits_append (h : Digits ds) (hrest : ∀ c ∈ rest.head?, c.isDigit = false)
    (atEnd : Fault) : digits atEnd (ds ++ rest) = .ok (ds, rest) := by
  obtain ⟨hne, hdigits⟩ := h
  obtain ⟨c, ds, rfl⟩ := List.exists_cons_of_ne_nil hne
  obtain ⟨hc, hds⟩ := List.forall_mem_cons.mp hdigits
  rw [List.cons_append, digits, if_pos hc, takeWhile_digits hds hrest, dropWhile_digits hds hrest]

theorem wholeDigits_append (h : Digits ds)
    (hzero : ds.head? = some '0' → ds = ['0']) (hrest : ∀ c ∈ rest.head?, c.isDigit = false)
    (atEnd : Fault) : wholeDigits atEnd (ds ++ rest) = .ok (ds, rest) := by
  rw [wholeDigits, digits_append h hrest]
  split
  · next he => cases he
  · next he =>
    cases he
    cases hzero rfl
  · next he => cases he; rfl

end Digits

theorem exists_fractionDigits {s rest : List Char} (h : FractionText s) (hrest : EndsDigits rest)
    (atEnd : Fault) : ∃ ds, fractionDigits atEnd (s ++ rest) = .ok (ds, rest) := by
  obtain rfl | ⟨ds, hds, rfl⟩ := h
  · refine ⟨[], ?_⟩
    rw [List.nil_append, fractionDigits]
    rintro t rfl
    exact (hrest '.' rfl).2 rfl
  · exact ⟨ds, digits_append hds (fun c hc ↦ (hrest c hc).1) atEnd⟩

theorem exists_exponentDigits {s rest : List Char} (h : ExponentText s) (hrest : Delimited rest)
    (atEnd : Fault) : ∃ x, exponentDigits atEnd (s ++ rest) = .ok (x, rest) := by
  obtain rfl | ⟨e, sign, ds, he, hsign, hds, rfl⟩ := h
  · refine ⟨none, ?_⟩
    rw [List.nil_append]
    cases rest with
    | nil => rfl
    | cons c rest =>
      have hall : ∀ c ∈ delimiters, ¬(c = 'e' ∨ c = 'E') := by simp [delimiters]
      simp only [exponentDigits, if_neg (hall c (hrest c rfl))]
  · have hdigits := digits_append hds (fun c hc ↦ (hrest.endsDigits c hc).1) atEnd
    obtain rfl | rfl | rfl := hsign
    · refine ⟨some (false, ds), ?_⟩
      -- a digit is no sign
      obtain ⟨d, ds, rfl⟩ := List.exists_cons_of_ne_nil hds.1
      have hd : d.isDigit = true := hds.2 d List.mem_cons_self
      rw [List.nil_append, List.cons_append, exponentDigits, if_pos he, hdigits]
      · rfl
      · rintro _ ⟨⟩
        exact absurd hd (by decide)
      · rintro _ ⟨⟩
        exact absurd hd (by decide)
    · refine ⟨some (false, ds), ?_⟩
      simp only [List.cons_append, List.nil_append, exponentDigits, if_pos he, hdigits]
      rfl
    · refine ⟨some (true, ds), ?_⟩
      simp only [List.cons_append, List.nil_append, exponentDigits, if_pos he, hdigits]
      rfl

theorem skipNumber_of_numeralText {s rest : List Char} (h : NumeralText s)
    (hrest : Delimited rest) : skipNumber (s ++ rest) = .ok rest := by
  obtain @⟨whole, fraction, exponent, hwhole, hzero, hfraction, hexponent⟩ := h
  have hends := hexponent.endsDigits hrest
  have hpoint : ∀ c ∈ (fraction ++ (exponent ++ rest)).head?, c.isDigit = false := by
    obtain rfl | ⟨ds, -, rfl⟩ := hfraction
    · exact fun c hc ↦ (hends c hc).1
    · rintro _ ⟨⟩
      rfl
  obtain ⟨ds, hds⟩ := exists_fractionDigits hfraction hends .malformed
  obtain ⟨x, hx⟩ := exists_exponentDigits hexponent hrest .malformed
  rw [List.append_assoc, List.append_assoc, skipNumber, numeral,
    wholeDigits_append hwhole hzero hpoint, ok_bind]
  simp only [hds, ok_bind, hx]
  rfl

/-! ## Values -/

inductive ScalarText : List Char → Prop
  | word {s : List Char} : s ∈ ["null".toList, "true".toList, "false".toList] → ScalarText s
  | positive {s : List Char} : NumeralText s → ScalarText s
  | negative {s : List Char} : NumeralText s → ScalarText ('-' :: s)
  | string {s : List Char} : SkippedContent s → ScalarText ('"' :: (s ++ ['"']))

def Bracket.opening : Bracket → Char
  | .square => '['
  | .curly => '\x7b'

/-- The texts of an item between the brackets, `value` being those of a value. -/
def Bracket.ItemText (value : List Char → Prop) : Bracket → List Char → Prop
  | .square => value
  | .curly => MemberText SkippedContent value

/-- The texts of the values of JSON that are nested at most `depth` deep. -/
def ValueText : (depth : Nat) → List Char → Prop
  | 0 => ScalarText
  | depth + 1 => fun s ↦ ScalarText s ∨ ∃ (bracket : Bracket) (items : List Unit) (t : List Char),
      Items (fun _ ↦ bracket.ItemText (ValueText depth)) true items t ∧
        s = bracket.opening :: (t ++ [bracket.closing])

theorem NumeralText.exists_digit {s : List Char} (h : NumeralText s) :
    ∃ c t, s = c :: t ∧ c.isDigit = true := by
  obtain @⟨whole, fraction, exponent, ⟨hne, hdigits⟩, -, -, -⟩ := h
  obtain ⟨c, whole, rfl⟩ := List.exists_cons_of_ne_nil hne
  exact ⟨c, _, rfl, hdigits c List.mem_cons_self⟩

theorem literal_append (word rest : List Char) : literal word (word ++ rest) = .ok rest := by
  induction word with
  | nil => rfl
  | cons c word ih => rw [List.cons_append, literal, if_pos rfl, ih]

/-- A scalar is passed over from its first character on. -/
theorem ScalarText.exists_head {s : List Char} (h : ScalarText s) :
    ∃ c t, s = c :: t ∧ c ∉ delimiters ∧ c ≠ '[' ∧ c ≠ '\x7b' ∧
      ∀ rest, Delimited rest → skipScalar c (t ++ rest) = .ok rest := by
  cases h with
  | word h =>
    have hliteral (word rest : List Char) (_ : Delimited rest) :
        literal word (word ++ rest) = .ok rest := literal_append word rest
    simp only [List.mem_cons, List.not_mem_nil, or_false] at h
    obtain rfl | rfl | rfl := h
    · exact ⟨'n', _, rfl, by decide, by decide, by decide, hliteral "ull".toList⟩
    · exact ⟨'t', _, rfl, by decide, by decide, by decide, hliteral "rue".toList⟩
    · exact ⟨'f', _, rfl, by decide, by decide, by decide, hliteral "alse".toList⟩
  | negative h =>
    exact ⟨'-', _, rfl, by decide, by decide, by decide, fun rest hrest ↦
      skipNumber_of_numeralText h hrest⟩
  | @string s h =>
    refine ⟨'"', s ++ ['"'], rfl, by decide, by decide, by decide, fun rest _ ↦ ?_⟩
    rw [List.append_assoc]
    exact skipContent_of_skippedContent h rest
  | positive h =>
    -- a digit is none of the characters that the other values begin with
    obtain ⟨c, t, rfl, hc⟩ := h.exists_digit
    have hne {d : Char} (hd : d.isDigit = false) : c ≠ d := by
      rintro rfl
      exact absurd hc (Bool.eq_false_iff.mp hd)
    have hdelimiters : ∀ d ∈ delimiters, d.isDigit = false := by simp [delimiters]
    refine ⟨c, t, rfl, fun h ↦ hne (hdelimiters c h) rfl, hne rfl, hne rfl, fun rest hrest ↦ ?_⟩
    rw [skipScalar, if_neg (hne rfl), if_neg (hne rfl), if_neg (hne rfl), if_neg (hne rfl),
      if_pos hc]
    exact skipNumber_of_numeralText h hrest

theorem Bracket.opening_notMem (bracket : Bracket) : bracket.opening ∉ delimiters := by
  cases bracket <;> decide

theorem ValueText.starts {depth : Nat} {s : List Char} (h : ValueText depth s) : Starts s := by
  have hscalar (h : ScalarText s) : Starts s := by
    obtain ⟨c, t, hs, hc, -⟩ := h.exists_head
    exact ⟨c, t, hs, hc⟩
  cases depth with
  | zero => exact hscalar h
  | succ depth =>
    obtain h | ⟨bracket, items, t, -, rfl⟩ := h
    · exact hscalar h
    · exact ⟨bracket.opening, _, rfl, bracket.opening_notMem⟩

/-! ## Passing over values -/

section SkipOn

variable {opened : List Bracket} {s rest : List Char}

theorem skipOn_open {bracket : Bracket} (h : skipBlanks s = bracket.opening :: rest) :
    skipOn .value opened s = skipOn .itemOrClose (bracket :: opened) rest := by
  rw [skipOn]
  split
  · next he => cases he.symm.trans h
  · next he =>
    cases he.symm.trans h
    cases bracket with
    | square => exact if_pos rfl
    | curly => exact (if_neg (by decide)).trans (if_pos rfl)

theorem skipOn_scalar {c : Char} {t : List Char} (h : skipBlanks s = c :: t) (hsquare : c ≠ '[')
    (hcurly : c ≠ '\x7b') (hscalar : skipScalar c t = .ok rest) :
    skipOn .value opened s = skipOn .separator opened rest := by
  rw [skipOn]
  split
  · next he => cases he.symm.trans h
  · next he =>
    cases he.symm.trans h
    rw [if_neg hsquare, if_neg hcurly]
    split
    · next he => cases he.symm.trans hscalar
    · next he => cases he.symm.trans hscalar; rfl

theorem skipOn_close_first {bracket : Bracket} (h : skipBlanks s = bracket.closing :: rest) :
    skipOn .itemOrClose (bracket :: opened) s = skipOn .separator opened rest := by
  rw [skipOn]
  split
  · next he => cases he.symm.trans h
  · next he => cases he.symm.trans h; exact if_pos rfl

theorem skipOn_close {bracket : Bracket} (h : skipBlanks s = bracket.closing :: rest) :
    skipOn .separator (bracket :: opened) s = skipOn .separator opened rest := by
  have hcomma : bracket.closing ≠ ',' := by cases bracket <;> decide
  rw [skipOn]
  split
  · next he => cases he.symm.trans h
  · next he => cases he.symm.trans h; rw [if_neg hcomma, if_pos rfl]

theorem skipOn_first {bracket : Bracket} {c : Char} (h : skipBlanks s = c :: rest)
    (hc : c ≠ bracket.closing) :
    skipOn .itemOrClose (bracket :: opened) s = skipOn .item (bracket :: opened) (c :: rest) := by
  rw [skipOn]
  split
  · next he => cases he.symm.trans h
  · next he => cases he.symm.trans h; rw [if_neg hc]

theorem skipOn_comma {bracket : Bracket} (h : skipBlanks s = ',' :: rest) :
    skipOn .separator (bracket :: opened) s = skipOn .item (bracket :: opened) rest := by
  rw [skipOn]
  split
  · next he => cases he.symm.trans h
  · next he => cases he.symm.trans h; rw [if_pos rfl]

end SkipOn

theorem skipKey_of_skippedContent {k b front : List Char} (hk : SkippedContent k) (hb : Blanks b)
    (hfront : Blanks front) (rest : List Char) :
    skipKey (b ++ '"' :: (k ++ '"' :: (front ++ ':' :: rest))) = .ok rest := by
  have hquote : skipBlanks (b ++ '"' :: (k ++ '"' :: (front ++ ':' :: rest)))
      = '"' :: (k ++ '"' :: (front ++ ':' :: rest)) := skipBlanks_of_notMem hb (by decide) _
  have hcolon : skipBlanks (front ++ ':' :: rest) = ':' :: rest :=
    skipBlanks_of_notMem hfront (by decide) rest
  simp only [skipKey, hquote, ne_eq, not_true_eq_false, if_false,
    skipContent_of_skippedContent hk, hcolon, if_true]

/-- The loop goes on behind a value of the kind as if it had not been there. -/
def PassedOver (value : List Char → Prop) : Prop :=
  ∀ {s b : List Char} (opened : List Bracket) {rest : List Char}, value s → Blanks b →
    Delimited rest → skipOn .value opened (b ++ (s ++ rest)) = skipOn .separator opened rest

section Items

variable {value : List Char → Prop}

theorem skipOn_item (hvalue : PassedOver value) {bracket : Bracket} {s b rest : List Char}
    (opened : List Bracket) (hs : bracket.ItemText value s) (hb : Blanks b)
    (hrest : Delimited rest) :
    skipOn .item (bracket :: opened) (b ++ (s ++ rest))
      = skipOn .separator (bracket :: opened) rest := by
  cases bracket with
  | square =>
    -- the item is the value
    rw [skipOn]
    exact hvalue _ hs hb hrest
  | curly =>
    obtain @⟨k, front, back, v, hk, hfront, hback, hv⟩ := hs
    have hkey := skipKey_of_skippedContent hk hb hfront (back ++ (v ++ rest))
    simp only [List.append_assoc, List.cons_append]
    rw [skipOn]
    split
    · next he => cases he.symm.trans hkey
    · next he => cases he.symm.trans hkey; exact hvalue _ hv hback hrest

theorem Bracket.ItemText.starts {bracket : Bracket} {s : List Char}
    (hvalue : ∀ {s}, value s → Starts s) (h : bracket.ItemText value s) : Starts s := by
  cases bracket with
  | square => exact hvalue h
  | curly =>
    cases h
    exact ⟨'"', _, rfl, by decide⟩

/-- The items are passed over up to the closing bracket, by an induction on their list. -/
theorem skipOn_items (hvalue : PassedOver value) (hstarts : ∀ {s}, value s → Starts s)
    {bracket : Bracket} {first : Bool} {items : List Unit} {s rest : List Char}
    (h : Items (fun _ ↦ bracket.ItemText value) first items s) (opened : List Bracket) :
    skipOn (if first then .itemOrClose else .separator) (bracket :: opened)
        (s ++ bracket.closing :: rest)
      = skipOn .separator opened rest := by
  have hclosing : bracket.closing ∉ [' ', '\t', '\n', '\r'] := by cases bracket <;> decide
  have hdelimiter : bracket.closing ∈ delimiters := by cases bracket <;> decide
  induction h with
  | @nil first b hb =>
    have hclose : skipBlanks (b ++ bracket.closing :: rest) = bracket.closing :: rest := by
      rw [skipBlanks_append hb, skipBlanks_cons hclosing]
    cases first with
    | true => exact skipOn_close_first hclose
    | false => exact skipOn_close hclose
  | @cons first a items b s t hlead hs hitems ih =>
    have hrest := hitems.delimited (delimited_cons hdelimiter rest)
    rw [List.append_assoc, List.append_assoc]
    refine Eq.trans ?_ ih
    cases first with
    | true =>
      -- the first item might have been the closing bracket, and is looked at twice
      obtain ⟨c, u, rfl, hc⟩ := hs.starts hstarts
      have hne : c ≠ bracket.closing := fun he ↦ hc (he ▸ hdelimiter)
      rw [if_pos rfl, List.cons_append, skipOn_first (skipBlanks_of_notMem hlead hc _) hne]
      exact skipOn_item (b := []) hvalue opened hs (List.forall_mem_nil _) hrest
    | false =>
      obtain ⟨back, hback, hcomma⟩ := hlead.exists_comma
      rw [if_neg Bool.false_ne_true, skipOn_comma (hcomma _)]
      exact skipOn_item hvalue opened hs hback hrest

end Items

theorem passedOver_scalar : PassedOver ScalarText := by
  intro s b opened rest hs hb hrest
  obtain ⟨c, t, rfl, hc, hsquare, hcurly, hscalar⟩ := hs.exists_head
  exact skipOn_scalar (skipBlanks_of_notMem hb hc (t ++ rest)) hsquare hcurly (hscalar rest hrest)

/-- **Any value is passed over**, however deep it is nested. -/
theorem passedOver_value (depth : Nat) : PassedOver (ValueText depth) := by
  induction depth with
  | zero => exact passedOver_scalar
  | succ depth ih =>
    intro s b opened rest hs hb hrest
    obtain hs | ⟨bracket, items, t, hitems, rfl⟩ := hs
    · exact passedOver_scalar opened hs hb hrest
    · rw [List.cons_append, List.append_assoc,
        skipOn_open (skipBlanks_of_notMem hb bracket.opening_notMem _)]
      exact skipOn_items ih ValueText.starts hitems opened

theorem reads_skipValue : Reads skipValue (fun (_ : Unit) s ↦ ∃ depth, ValueText depth s) .ok where
  starts h := by
    obtain ⟨depth, hs⟩ := h
    exact hs.starts
  run {a s b rest} h hb hrest := by
    obtain ⟨depth, hs⟩ := h
    have hend : skipOn .separator [] rest = .ok rest := by
      rw [skipOn]
      rintro ⟨⟩
    simp only [skipValue, passedOver_value depth [] hs hb hrest, hend]
    rfl

end ContractAbi.Json
