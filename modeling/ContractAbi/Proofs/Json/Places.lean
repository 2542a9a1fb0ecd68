import ContractAbi.Proofs.Json.Skipped
import ContractAbi.Proofs.Text.Digits

/-!
# Messages without their places

A message that ends like a place, ` at line L column C`, loses this end, and is otherwise kept as it
is. The test for a place goes through the text word by word, so it is compared with the form of a
place word by word too.
-/

namespace ContractAbi.Json

/-- ` at line L column C`, where `L` and `C` are the digits of 64-bit counts. -/
def PlaceText (s : List Char) : Prop :=
  ∃ line column, Digits line ∧ digitsValue line ≤ Count.limit ∧ Digits column ∧
    digitsValue column ≤ Count.limit ∧
    s = " at line ".toList ++ (line ++ (" column ".toList ++ column))

/-- The message `kept` is left of a message when it is cut before the place that it ends with. -/
def WithoutPlace (message kept : String) : Prop :=
  (∃ place, PlaceText place ∧ message.toList = kept.toList ++ place) ∨
    kept = message ∧ ∀ front place, PlaceText place → message.toList ≠ front ++ place

/-! ## Places -/

theorem afterWord?_eq_some_iff {word s rest : List Char} :
    afterWord? word s = some rest ↔ s = word ++ rest := by
  rw [afterWord?]
  constructor
  · intro h
    split at h
    · rename_i hprefix
      obtain ⟨tail, rfl⟩ := List.isPrefixOf_iff_prefix.mp hprefix
      rw [List.drop_left, Option.some_inj] at h
      rw [h]
    · cases h
  · rintro rfl
    rw [if_pos (List.isPrefixOf_iff_prefix.mpr (List.prefix_append _ _)), List.drop_left]

theorem afterCount?_eq_some_iff {s rest : List Char} :
    afterCount? s = some rest ↔ ∃ ds, Digits ds ∧ digitsValue ds ≤ Count.limit ∧ s = ds ++ rest ∧
      ∀ c ∈ rest.head?, c.isDigit = false := by
  constructor
  · intro h
    rw [afterCount?] at h
    split at h
    · cases h
    · rename_i hne
      obtain ⟨n, hn, rfl⟩ := Option.map_eq_some_iff.mp h
      obtain ⟨rfl, hle⟩ := ofDigits?_eq_some_iff.mp hn
      refine ⟨s.takeWhile Char.isDigit, ⟨hne, fun c hc ↦ List.mem_takeWhile_imp hc⟩, hle,
        List.takeWhile_append_dropWhile.symm, fun c hc ↦ ?_⟩
      have hhead := List.head?_dropWhile_not Char.isDigit s
      rw [Option.mem_def] at hc
      rwa [hc] at hhead
  · rintro ⟨ds, ⟨hne, hdigits⟩, hle, rfl, hrest⟩
    have hcount : Count.ofDigits? ds = some (digitsValue ds) :=
      ofDigits?_eq_some_iff.mpr ⟨rfl, hle⟩
    simp only [afterCount?, takeWhile_digits hdigits hrest, dropWhile_digits hdigits hrest,
      if_neg hne, hcount, Option.map_some]

theorem isPlace_iff {s : List Char} : isPlace s = true ↔ PlaceText s := by
  simp only [isPlace, beq_iff_eq, Option.bind_eq_some_iff, Option.bind_eq_bind,
    afterWord?_eq_some_iff, afterCount?_eq_some_iff]
  constructor
  · rintro ⟨_, rfl, _, ⟨line, hline, hle, rfl, -⟩, _, rfl, column, hcolumn, hle', rfl, -⟩
    rw [List.append_nil]
    exact ⟨line, column, hline, hle, hcolumn, hle', rfl⟩
  · rintro ⟨line, column, hline, hle, hcolumn, hle', rfl⟩
    refine ⟨_, rfl, _, ⟨line, hline, hle, rfl, ?_⟩, _, rfl, column, hcolumn, hle',
      (List.append_nil _).symm, ?_⟩
    · rintro _ ⟨⟩
      rfl
    · rintro _ ⟨⟩

/-- A message is cut before a place, or has none at its end. -/
theorem withoutPlace_withoutPlace (message : String) :
    WithoutPlace message (String.ofList (withoutPlace message.toList)) := by
  have hlist (s : List Char) : (∃ place, PlaceText place ∧ s = withoutPlace s ++ place) ∨
      withoutPlace s = s ∧ ∀ front place, PlaceText place → s ≠ front ++ place := by
    induction s with
    | nil =>
      refine Or.inr ⟨rfl, fun front place hplace h ↦ ?_⟩
      rw [(List.append_eq_nil_iff.mp h.symm).2] at hplace
      exact absurd (isPlace_iff.mpr hplace) (by decide)
    | cons c s ih =>
      rw [withoutPlace]
      by_cases hc : isPlace (c :: s) = true
      · rw [if_pos hc]
        exact Or.inl ⟨c :: s, isPlace_iff.mp hc, rfl⟩
      rw [if_neg hc]
      obtain ⟨place, hplace, hs⟩ | ⟨hs, hnone⟩ := ih
      · exact Or.inl ⟨place, hplace, by rw [List.cons_append, ← hs]⟩
      · refine Or.inr ⟨by rw [hs], fun front place hplace h ↦ ?_⟩
        cases front with
        | nil =>
          rw [List.nil_append] at h
          exact hc (h ▸ isPlace_iff.mpr hplace)
        | cons d front => exact hnone front place hplace (List.cons.inj h).2
  obtain ⟨place, hplace, hs⟩ | ⟨hs, hnone⟩ := hlist message.toList
  · exact Or.inl ⟨place, hplace, by rw [String.toList_ofList, ← hs]⟩
  · exact Or.inr ⟨by rw [hs, String.ofList_toList], hnone⟩

end ContractAbi.Json
