import Mathlib.Data.List.Basic
import Mathlib.Data.List.TakeWhile
import ContractAbi.AbiType.Parser
import ContractAbi.Proofs.Text.Digits

/-!
# Ends of texts

Signatures are trimmed at both ends, a base is trimmed behind each time that a group was removed
from it, and the group that is removed begins at the last opening bracket. Each of these cuts a text
into pieces, and gives the piece back when the text is put together from pieces of the right kind.
-/

namespace ContractAbi

namespace Text

/-! ## Blanks -/

/-- Every character of the text is a blank. -/
def Blank (s : List Char) : Prop := ∀ c ∈ s, isBlank c = true

/-- The text does not end with a blank. -/
def Solid (s : List Char) : Prop := ∀ c ∈ s.getLast?, isBlank c = false

variable {s front middle back : List Char}

theorem isBlank_of_isDigit {c : Char} (h : c.isDigit = true) : isBlank c = false := by
  obtain ⟨n, hn, -, rfl⟩ := exists_digitChar h
  have hall : ∀ n < 10, isBlank (Nat.digitChar n) = false := by decide
  exact hall n hn

theorem solid_of_forall (h : ∀ c ∈ s, isBlank c = false) : Solid s :=
  fun c hc ↦ h c (List.mem_of_getLast? hc)

theorem solid_append_singleton (s : List Char) {c : Char} (h : isBlank c = false) :
    Solid (s ++ [c]) := by
  intro d hd
  rw [List.getLast?_concat, Option.mem_some_iff] at hd
  exact hd ▸ h

/-! ## Trimming -/

theorem exists_trimEnd (s : List Char) : ∃ back, Blank back ∧ s = trimEnd s ++ back := by
  refine ⟨(s.reverse.takeWhile isBlank).reverse, fun c hc ↦ ?_, ?_⟩
  · exact List.mem_takeWhile_imp (List.mem_reverse.mp hc)
  · rw [trimEnd, ← List.reverse_append, List.takeWhile_append_dropWhile, List.reverse_reverse]

theorem exists_trim (s : List Char) :
    ∃ front back, Blank front ∧ Blank back ∧ s = front ++ (trim s ++ back) := by
  obtain ⟨back, hback, hs⟩ := exists_trimEnd (s.dropWhile isBlank)
  refine ⟨s.takeWhile isBlank, back, fun c hc ↦ List.mem_takeWhile_imp hc, hback, ?_⟩
  rw [trim, ← hs, List.takeWhile_append_dropWhile]

theorem trimEnd_append (hs : Solid s) (hback : Blank back) : trimEnd (s ++ back) = s := by
  rw [trimEnd, List.reverse_append,
    List.dropWhile_append_of_pos fun c hc ↦ hback c (List.mem_reverse.mp hc)]
  rcases List.eq_nil_or_concat' s with rfl | ⟨s, c, rfl⟩
  · rfl
  · have hc : isBlank c = false := hs c (by rw [List.getLast?_concat]; rfl)
    rw [List.reverse_append, List.reverse_singleton, List.singleton_append,
      List.dropWhile_cons_of_neg (Bool.eq_false_iff.mp hc), List.reverse_cons, List.reverse_reverse]

theorem trim_append (hfront : Blank front) (hmiddle : ∀ c ∈ middle, isBlank c = false)
    (hback : Blank back) : trim (front ++ (middle ++ back)) = middle := by
  rw [trim, List.dropWhile_append_of_pos hfront]
  rcases middle with - | ⟨c, middle⟩
  · rw [List.nil_append, List.dropWhile_eq_nil_iff.mpr hback]
    rfl
  · have hc : isBlank c = false := hmiddle c List.mem_cons_self
    rw [List.cons_append, List.dropWhile_cons_of_neg (Bool.eq_false_iff.mp hc), ← List.cons_append]
    exact trimEnd_append (solid_of_forall hmiddle) hback

theorem isBlank_of_trim_eq_cons {c : Char} (h : trim s = c :: back) : isBlank c = false := by
  obtain ⟨blanks, -, hs⟩ := exists_trimEnd (s.dropWhile isBlank)
  rw [← trim, h] at hs
  have hhead := List.head?_dropWhile_not isBlank s
  rwa [hs] at hhead

/-- What a trimmed text begins with has no blanks in front. -/
theorem trim_of_trim_eq_append (h : trim s = front ++ back) : trim front = trimEnd front := by
  cases front with
  | nil => rfl
  | cons c front =>
    have hc : isBlank c = false := isBlank_of_trim_eq_cons h
    rw [trim, List.dropWhile_cons_of_neg (Bool.eq_false_iff.mp hc)]

end Text

namespace AbiType

/-! ## The last mark -/

variable {mark : Char} {s before after : List Char}

theorem splitLast_eq_none_iff : splitLast mark s = none ↔ mark ∉ s := by
  induction s with
  | nil => simp [splitLast]
  | cons c s ih =>
    rw [splitLast, List.mem_cons, not_or, ← ih]
    rcases hs : splitLast mark s with - | ⟨before, after⟩
    · by_cases hc : c = mark
      · simp [hc]
      · simp [hc, Ne.symm hc]
    · simp

theorem splitLast_append (before : List Char) (h : mark ∉ after) :
    splitLast mark (before ++ mark :: after) = some (before, after) := by
  induction before with
  | nil => rw [List.nil_append, splitLast, splitLast_eq_none_iff.mpr h, if_pos rfl]
  | cons c before ih => rw [List.cons_append, splitLast, ih]

theorem splitLast_eq_some_iff :
    splitLast mark s = some (before, after) ↔ s = before ++ mark :: after ∧ mark ∉ after := by
  constructor
  · intro h
    induction s generalizing before with
    | nil => cases h
    | cons c s ih =>
      rw [splitLast] at h
      split at h
      · rename_i hs
        cases h
        obtain ⟨rfl, hafter⟩ := ih hs
        exact ⟨rfl, hafter⟩
      · rename_i hs
        split at h
        · rename_i hc
          cases h
          exact ⟨by rw [hc, List.nil_append], splitLast_eq_none_iff.mp hs⟩
        · cases h
  · rintro ⟨rfl, hafter⟩
    exact splitLast_append before hafter

end AbiType

end ContractAbi
