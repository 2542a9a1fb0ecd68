import ContractAbi.Bytes
import ContractAbi.Json.Fault

/-!
# Reading JSON

A reader takes a value off the front of a text and leaves the rest, or fails. Nothing behind the
first fault is looked at, so of two faults in a text the earlier one is found, whatever their kinds.

Every reader leaves less than it was given. That it does is part of the reader, so loops over the
elements of an array or the members of an object end by the length of what is left.
-/

namespace ContractAbi.Json

structure Reader (α : Type) where
  run : List Char → Except Fault (α × List Char)
  length_lt : ∀ {s a r}, run s = .ok (a, r) → r.length < s.length

/-! ## Blanks and literals -/

/-- Drops the blanks that JSON allows between tokens. -/
def skipBlanks (s : List Char) : List Char :=
  s.dropWhile fun c ↦ c = ' ' || c = '\t' || c = '\n' || c = '\r'

theorem length_skipBlanks_le (s : List Char) : (skipBlanks s).length ≤ s.length :=
  (List.dropWhile_sublist _).length_le

theorem length_lt_of_skipBlanks {s r : List Char} {c : Char} (h : skipBlanks s = c :: r) :
    r.length < s.length := by
  have := length_skipBlanks_le s
  simp only [h, List.length_cons] at this
  omega

/-- Takes the characters of `word` off the text. -/
def literal : (word : List Char) → List Char → Except Fault (List Char)
  | [], s => .ok s
  | _ :: _, [] => .error .truncated
  | d :: word, c :: s => if c = d then literal word s else .error .malformed

theorem length_literal_le {word s r : List Char} (h : literal word s = .ok r) :
    r.length ≤ s.length := by
  fun_induction literal word s with
  | case1 s => simp_all
  | case2 => simp at h
  | case3 d word s ih =>
    have := ih h
    simp only [List.length_cons]
    omega
  | case4 => simp at h

/-! ## Readers -/

namespace Reader

/-- The reader that skips blanks and goes on by the first character of the value. -/
def ofHead (read : Char → List Char → Except Fault (α × List Char))
    (h : ∀ {c s a r}, read c s = .ok (a, r) → r.length ≤ s.length) : Reader α where
  run s :=
    match skipBlanks s with
    | [] => .error .truncated
    | c :: rest => read c rest
  length_lt {s a r} hr := by
    have := length_skipBlanks_le s
    split at hr
    · simp at hr
    · next c rest heq =>
      have := h hr
      simp only [heq, List.length_cons] at *
      omega

/-- Judges the value that was read. -/
def check (read : Reader α) (f : α → Except Fault β) : Reader β where
  run s := do
    let (a, r) ← read.run s
    return (← f a, r)
  length_lt {s b r} h := by
    simp only [bind, Except.bind] at h
    split at h
    · simp at h
    · next ar har =>
      obtain ⟨a, r'⟩ := ar
      split at h
      · simp at h
      · simp only [pure, Except.pure, Except.ok.injEq, Prod.mk.injEq] at h
        exact h.2 ▸ read.length_lt har

end Reader

/-! ## Arrays -/

/-- What comes next inside brackets: the closing one, or an item. -/
inductive Next where
  | closed (rest : List Char)
  | item (rest : List Char)

/-- `first` says that nothing was read yet since the array's opening bracket. -/
def nextElement (first : Bool) (s : List Char) : Except Fault Next :=
  match skipBlanks s with
  | [] => .error .truncated
  | c :: r =>
    if c = ']' then .ok (.closed r)
    else if first then .ok (.item (c :: r))
    else if c = ',' then
      match skipBlanks r with
      | [] => .error .truncated
      | d :: r' => if d = ']' then .error .malformed else .ok (.item (d :: r'))
    else .error .malformed

theorem length_lt_of_closed {first : Bool} {s r : List Char}
    (h : nextElement first s = .ok (.closed r)) : r.length < s.length := by
  have hle := length_skipBlanks_le s
  unfold nextElement at h
  split at h
  · simp at h
  · next c rest heq =>
    simp only [heq, List.length_cons] at hle
    grind

theorem length_le_of_item {first : Bool} {s r : List Char}
    (h : nextElement first s = .ok (.item r)) : r.length ≤ s.length := by
  have hle := length_skipBlanks_le s
  unfold nextElement at h
  split at h
  · simp at h
  · next c rest heq =>
    have := length_skipBlanks_le rest
    simp only [heq, List.length_cons] at hle
    grind

/-- The elements up to the closing bracket, and what follows it. -/
def elements (read : Reader α) (first : Bool) (s : List Char) :
    Except Fault (List α × List Char) :=
  match _hn : nextElement first s with
  | .error e => .error e
  | .ok (.closed r) => .ok ([], r)
  | .ok (.item r) =>
    match _hr : read.run r with
    | .error e => .error e
    | .ok (a, r') =>
      match elements read false r' with
      | .error e => .error e
      | .ok (as, r'') => .ok (a :: as, r'')
termination_by s.length
decreasing_by
  have := read.length_lt _hr
  have := length_le_of_item _hn
  omega

theorem length_elements_le {read : Reader α} {first : Bool} {s r : List Char} {as : List α}
    (h : elements read first s = .ok (as, r)) : r.length ≤ s.length := by
  fun_induction elements read first s generalizing as r with
  | case1 => simp at h
  | case2 s first r' hn =>
    have := length_lt_of_closed hn
    grind
  | case3 => simp at h
  | case4 => simp at h
  | case5 s first r₁ hn a r₂ hr as' r₃ he ih =>
    have := length_le_of_item hn
    have := read.length_lt hr
    have := ih he
    grind

/-- An element that may be missing because the array ends before it. -/
def optionalElement (read : Reader α) (first : Bool) (s : List Char) :
    Except Fault (Option α × List Char) :=
  match nextElement first s with
  | .error e => .error e
  | .ok (.closed _) => .ok (none, s)
  | .ok (.item r) =>
    match read.run r with
    | .error e => .error e
    | .ok (a, r') => .ok (some a, r')

theorem length_optionalElement_le {read : Reader α} {first : Bool} {s r : List Char}
    {a : Option α} (h : optionalElement read first s = .ok (a, r)) : r.length ≤ s.length := by
  unfold optionalElement at h
  split at h
  · simp at h
  · grind
  · next r₁ hn =>
    have := length_le_of_item hn
    split at h
    · simp at h
    · next a r₂ hr =>
      have := read.length_lt hr
      grind

/-- What follows the closing bracket, where no element is left to read. -/
def closeArray (s : List Char) : Except Fault (List Char) :=
  match skipBlanks s with
  | [] => .error .truncated
  | c :: r => if c = ']' then .ok r else .error .malformed

theorem length_closeArray_le {s r : List Char} (h : closeArray s = .ok r) :
    r.length ≤ s.length := by
  have hle := length_skipBlanks_le s
  unfold closeArray at h
  split at h
  · simp at h
  · next c rest heq =>
    simp only [heq, List.length_cons] at hle
    grind

end ContractAbi.Json
