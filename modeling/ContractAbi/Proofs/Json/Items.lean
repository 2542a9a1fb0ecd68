import ContractAbi.Json.Descriptor
import ContractAbi.Proofs.Json.Strings
import ContractAbi.Proofs.Results

/-!
# Texts of lists

Arrays and objects list their items between brackets, with a comma between two of them and blanks
around each. A reader of values is taken to an array through what it does at every text of a value:
it skips the blanks in front, gives the result of the value, and leaves what follows. Then the array
gives the results of its items in their order, up to the first that is a fault.
-/

namespace ContractAbi.Json

/-! ## Lists of items -/

/-- What stands in front of an item: blanks, with a comma among them unless it is the first. -/
def Lead : (first : Bool) → List Char → Prop
  | true, s => Blanks s
  | false, s => ∃ front back, Blanks front ∧ Blanks back ∧ s = front ++ ',' :: back

section Items

variable {α : Type}

/-- The texts of a list between its brackets, `p` being the texts of an item. -/
inductive Items (p : α → List Char → Prop) : (first : Bool) → List α → List Char → Prop
  | nil {first : Bool} {s : List Char} : Blanks s → Items p first [] s
  | cons {first : Bool} {a : α} {as : List α} {b s t : List Char} : Lead first b → p a s →
      Items p false as t → Items p first (a :: as) (b ++ (s ++ t))

def ArrayText (p : α → List Char → Prop) (as : List α) (s : List Char) : Prop :=
  ∃ t, Items p true as t ∧ s = '[' :: (t ++ [']'])

/-- The item of an object: a key in quotes, and a value behind a colon. -/
inductive MemberText (key value : List Char → Prop) : List Char → Prop
  | mk {k front back v : List Char} : key k → Blanks front → Blanks back → value v →
      MemberText key value ('"' :: (k ++ '"' :: (front ++ ':' :: (back ++ v))))

/-- What may follow an item. A number is over where one of these begins. -/
def delimiters : List Char := [' ', '\t', '\n', '\r', ',', ']', '\x7d']

/-- Nothing in the text belongs to an item in front of it. -/
def Delimited (s : List Char) : Prop := ∀ c ∈ s.head?, c ∈ delimiters

/-- The text begins with a character of its own, not with one of its surroundings. -/
def Starts (s : List Char) : Prop := ∃ c t, s = c :: t ∧ c ∉ delimiters

theorem mem_delimiters_of_blank {c : Char} (h : c ∈ [' ', '\t', '\n', '\r']) : c ∈ delimiters := by
  have hall : ∀ c ∈ [' ', '\t', '\n', '\r'], c ∈ delimiters := by simp [delimiters]
  exact hall c h

theorem skipBlanks_of_notMem {b : List Char} (hb : Blanks b) {c : Char} (hc : c ∉ delimiters)
    (s : List Char) : skipBlanks (b ++ c :: s) = c :: s := by
  rw [skipBlanks_append hb, skipBlanks_cons fun h ↦ hc (mem_delimiters_of_blank h)]

/-- Behind the first item, the comma is what a reader comes to next. -/
theorem Lead.exists_comma {b : List Char} (h : Lead false b) :
    ∃ back, Blanks back ∧ ∀ s, skipBlanks (b ++ s) = ',' :: (back ++ s) := by
  obtain ⟨front, back, hfront, hback, rfl⟩ := h
  refine ⟨back, hback, fun s ↦ ?_⟩
  rw [List.append_assoc, skipBlanks_append hfront, List.cons_append, skipBlanks_cons (by decide)]

theorem Starts.append {s : List Char} (h : Starts s) (t : List Char) : Starts (s ++ t) := by
  obtain ⟨c, u, rfl, hc⟩ := h
  exact ⟨c, u ++ t, rfl, hc⟩

theorem Blanks.delimited {b s : List Char} (hb : Blanks b) (hs : Delimited s) :
    Delimited (b ++ s) := by
  cases b with
  | nil => exact hs
  | cons c b =>
    rintro _ ⟨⟩
    exact mem_delimiters_of_blank (hb c List.mem_cons_self)

theorem delimited_cons {c : Char} (h : c ∈ delimiters) (s : List Char) : Delimited (c :: s) := by
  rintro _ ⟨⟩
  exact h

/-- Behind an item there is the next one or the end. -/
theorem Items.delimited {p : α → List Char → Prop} {as : List α} {s rest : List Char}
    (h : Items p false as s) (hrest : Delimited rest) : Delimited (s ++ rest) := by
  cases h with
  | nil hb => exact hb.delimited hrest
  | cons hlead _ _ =>
    obtain ⟨front, back, hfront, -, rfl⟩ := hlead
    rw [List.append_assoc, List.append_assoc]
    exact hfront.delimited (delimited_cons (by decide) _)

end Items

/-! ## Readers of values -/

section Reads

variable {α β : Type}

/-- The reader gives the result `f a` from every text of `a`, and leaves what follows. -/
structure Reads (read : Reader β) (p : α → List Char → Prop) (f : α → Except Fault β) : Prop where
  -- so that no blank, comma or closing bracket is taken for the value
  starts : ∀ {a s}, p a s → Starts s
  run : ∀ {a s b rest}, p a s → Blanks b → Delimited rest →
    read.run (b ++ (s ++ rest)) = (f a).map (·, rest)

variable {read : Reader β} {p : α → List Char → Prop} {f : α → Except Fault β}

theorem Reads.run_of_text (h : Reads read p f) {a : α} {s rest : List Char} (ha : p a s)
    (hrest : Delimited rest) : read.run (s ++ rest) = (f a).map (·, rest) :=
  h.run ha (List.forall_mem_nil _) hrest

/-- It is enough to look at the text from its first character on. -/
theorem reads_ofHead {readFrom : Char → List Char → Except Fault (β × List Char)}
    {hle : ∀ {c s a r}, readFrom c s = .ok (a, r) → r.length ≤ s.length}
    (h : ∀ {a s}, p a s → ∃ c t, s = c :: t ∧ c ∉ delimiters ∧
      ∀ rest, Delimited rest → readFrom c (t ++ rest) = (f a).map (·, rest)) :
    Reads (.ofHead readFrom hle) p f where
  starts ha := by
    obtain ⟨c, t, hs, hc, -⟩ := h ha
    exact ⟨c, t, hs, hc⟩
  run {a s b rest} ha hb hrest := by
    obtain ⟨c, t, rfl, hc, hread⟩ := h ha
    have hhead : skipBlanks (b ++ (c :: t ++ rest)) = c :: (t ++ rest) := by
      rw [List.cons_append, skipBlanks_of_notMem hb hc]
    simp only [Reader.ofHead, hhead, hread rest hrest]

theorem Reads.check {γ : Type} (h : Reads read p f) (g : β → Except Fault γ) :
    Reads (read.check g) p fun a ↦ f a >>= g where
  starts := h.starts
  run {a s b rest} ha hb hrest := by
    simp only [Reader.check, h.run ha hb hrest]
    cases f a with
    | error e => rfl
    | ok x => cases g x <;> rfl

end Reads

/-! ## Arrays -/

theorem nextElement_close {b : List Char} (hb : Blanks b) (first : Bool) (rest : List Char) :
    nextElement first (b ++ ']' :: rest) = .ok (.closed rest) := by
  rw [nextElement, skipBlanks_append hb, skipBlanks_cons (by decide)]
  exact if_pos rfl

theorem nextElement_item {first : Bool} {b s : List Char} (hb : Lead first b) (hs : Starts s) :
    nextElement first (b ++ s) = .ok (.item s) := by
  obtain ⟨c, t, rfl, hc⟩ := hs
  have hclose : c ≠ ']' := by
    rintro rfl
    exact hc (by decide)
  cases first with
  | true =>
    simp only [nextElement, skipBlanks_of_notMem hb hc, if_neg hclose, if_true]
  | false =>
    obtain ⟨back, hback, hcomma⟩ := hb.exists_comma
    rw [nextElement, hcomma]
    simp only [skipBlanks_of_notMem hback hc, if_neg hclose, Bool.false_eq_true, if_false, if_true,
      show ',' ≠ ']' from by decide]

section Elements

variable {α β : Type} {read : Reader β} {p : α → List Char → Prop} {f : α → Except Fault β}

theorem elements_closed {first : Bool} {s r : List Char}
    (h : nextElement first s = .ok (.closed r)) : elements read first s = .ok ([], r) := by
  rw [elements]
  split
  · next hn => cases hn.symm.trans h
  · next hn => cases hn.symm.trans h; rfl
  · next hn => cases hn.symm.trans h

theorem elements_item {first : Bool} {s r : List Char}
    (h : nextElement first s = .ok (.item r)) : elements read first s = (do
      let (a, r) ← read.run r
      let (as, r) ← elements read false r
      return (a :: as, r)) := by
  rw [elements]
  split
  · next hn => cases hn.symm.trans h
  · next hn => cases hn.symm.trans h
  · next hn =>
    cases hn.symm.trans h
    split
    · next he => rw [he]; rfl
    · next hr =>
      rw [hr, ok_bind]
      simp only
      cases elements read false _ with
      | error e => rfl
      | ok pair => rfl

/-- **A list gives the results of its items** in their order. -/
theorem elements_of_items (hread : Reads read p f) {first : Bool} {as : List α} {s : List Char}
    (h : Items p first as s) (rest : List Char) :
    elements read first (s ++ ']' :: rest) = (as.mapM f).map (·, rest) := by
  induction h with
  | nil hb =>
    rw [elements_closed (nextElement_close hb _ rest)]
    rfl
  | @cons first a as b s t hlead ha hitems ih =>
    have hnext : nextElement first (b ++ (s ++ t) ++ ']' :: rest)
        = .ok (.item (s ++ (t ++ ']' :: rest))) := by
      rw [List.append_assoc, List.append_assoc]
      exact nextElement_item hlead ((hread.starts ha).append _)
    -- what follows the item is the rest of the list, so its reader stops behind it
    have hrest : Delimited (t ++ ']' :: rest) := hitems.delimited (delimited_cons (by decide) rest)
    rw [elements_item hnext, hread.run_of_text ha hrest, List.mapM_cons]
    cases f a with
    | error e => rfl
    | ok x =>
      simp only [Except.map, ok_bind, ih]
      cases as.mapM f with
      | error e => rfl
      | ok xs => rfl

theorem reads_array (hread : Reads read p f) :
    Reads (array (some read)) (ArrayText p) (·.mapM f) := by
  refine reads_ofHead ?_
  rintro as _ ⟨t, hitems, rfl⟩
  refine ⟨'[', t ++ [']'], rfl, by decide, fun rest _ ↦ ?_⟩
  rw [List.append_assoc, arrayFrom, if_pos rfl]
  exact elements_of_items hread hitems rest

end Elements

end ContractAbi.Json
