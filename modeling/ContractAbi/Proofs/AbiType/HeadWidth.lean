import Mathlib.Algebra.Ring.Nat
import ContractAbi.Proofs.AbiType.Nodes

/-!
# Exact head sizes

The head size of a type without the cap: a natural number, and always a multiple of the word size.
The capped head size is the smaller of this and the largest count, whatever the nesting, so the two
agree wherever a head fits a payload.
-/

namespace ContractAbi

namespace AbiType

mutual

/-- The bytes that a value takes in the head of the enclosing block, however many they are. -/
def headWidth : AbiType → Nat
  | array elem length => if isDynamic elem then wordSize else length * headWidth elem
  | tuple _ fields => if anyDynamic fields then wordSize else headWidths fields
  | _ => wordSize

def headWidths : List (Field AbiType) → Nat
  | [] => 0
  | f :: rest => headWidth f.type + headWidths rest

end

theorem headWidths_eq_sum (fields : List (Field AbiType)) :
    headWidths fields = ((fields.map Field.type).map headWidth).sum := by
  induction fields with
  | nil => rfl
  | cons f rest ih => rw [headWidths, ih]; rfl

/-! ## Dynamic types -/

theorem anyDynamic_eq_false_iff {fields : List (Field AbiType)} :
    anyDynamic fields = false ↔ ∀ f ∈ fields, isDynamic f.type = false := by
  induction fields with
  | nil => simp [anyDynamic]
  | cons f rest ih => rw [anyDynamic, Bool.or_eq_false_iff, ih, List.forall_mem_cons]

theorem anyDynamic_eq_true_iff {fields : List (Field AbiType)} :
    anyDynamic fields = true ↔ ∃ f ∈ fields, isDynamic f.type = true := by
  induction fields with
  | nil => simp [anyDynamic]
  | cons f rest ih => simp [anyDynamic, ih]

/-- A dynamic type leaves an offset in the head. -/
theorem headWidth_of_isDynamic {t : AbiType} (h : t.isDynamic = true) :
    t.headWidth = wordSize := by
  cases t with
  | array elem length => rw [headWidth, if_pos (by simpa [isDynamic] using h)]
  | tuple structName fields => rw [headWidth, if_pos (by simpa [isDynamic] using h)]
  | _ => rfl

/-! ## Alignment -/

theorem wordSize_dvd_headWidth (t : AbiType) : wordSize ∣ t.headWidth := by
  induction t using induct with
  | array elem length ih =>
    rw [headWidth]
    split
    · exact Nat.dvd_refl _
    · exact Nat.dvd_mul_left_of_dvd ih length
  | tuple structName fields ih =>
    rw [headWidth]
    split
    · exact Nat.dvd_refl _
    · rename_i hd
      clear hd
      induction fields with
      | nil => exact Nat.dvd_zero _
      | cons f rest ihrest =>
        obtain ⟨hf, hrest⟩ := List.forall_mem_cons.mp ih
        rw [headWidths]
        exact Nat.dvd_add hf (ihrest hrest)
  | _ => exact Nat.dvd_refl _

/-! ## The cap -/

theorem addCapped_min (a b : Nat) :
    Count.addCapped (min a Count.limit) (min b Count.limit) = min (a + b) Count.limit := by
  rw [Count.addCapped]
  omega

theorem mulCapped_min (k a : Nat) :
    Count.mulCapped k (min a Count.limit) = min (k * a) Count.limit := by
  rw [Count.mulCapped]
  rcases Nat.eq_zero_or_pos k with rfl | hk
  · simp
  · by_cases ha : a ≤ Count.limit
    · rw [Nat.min_eq_left ha]
    · have hcap : Count.limit ≤ k * Count.limit := Nat.le_mul_of_pos_left _ hk
      have hmul : k * Count.limit ≤ k * a := Nat.mul_le_mul_left k (by omega)
      rw [Nat.min_eq_right (Nat.le_of_not_le ha), Nat.min_eq_right hcap,
        Nat.min_eq_right (Nat.le_trans hcap hmul)]

theorem headSize_eq_min (t : AbiType) : t.headSize = min t.headWidth Count.limit := by
  have hword : wordSize = min wordSize Count.limit := by decide
  induction t using induct with
  | array elem length ih =>
    rw [headSize, headWidth, ih]
    by_cases hd : isDynamic elem = true
    · rw [if_pos hd, if_pos hd, ← hword]
    · rw [if_neg hd, if_neg hd, mulCapped_min]
  | tuple structName fields ih =>
    rw [headSize, headWidth]
    by_cases hd : anyDynamic fields = true
    · rw [if_pos hd, if_pos hd, ← hword]
    · rw [if_neg hd, if_neg hd]
      clear hd
      induction fields with
      | nil => simp [headSizes, headWidths]
      | cons f rest ihrest =>
        obtain ⟨hf, hrest⟩ := List.forall_mem_cons.mp ih
        rw [headSizes, headWidths, hf, ihrest hrest, addCapped_min]
  | _ => exact hword

theorem headSize_eq_headWidth {t : AbiType} (h : t.headWidth ≤ Count.limit) :
    t.headSize = t.headWidth := by
  rw [headSize_eq_min, Nat.min_eq_left h]

theorem headSize_eq_zero_iff {t : AbiType} : t.headSize = 0 ↔ t.headWidth = 0 := by
  have hlimit : 0 < Count.limit := by decide
  rw [headSize_eq_min]
  omega

/-- A head that takes room takes a word of it at least. -/
theorem wordSize_le_headWidth {t : AbiType} (h : t.headSize ≠ 0) : wordSize ≤ t.headWidth :=
  Nat.le_of_dvd (Nat.pos_of_ne_zero fun h0 ↦ h (headSize_eq_zero_iff.mpr h0))
    (wordSize_dvd_headWidth t)

theorem wordSize_mul_headSlots {t : AbiType} (h : t.headWidth ≤ Count.limit) :
    wordSize * t.headSlots = t.headWidth := by
  rw [headSlots, headSize_eq_headWidth h]
  exact Nat.mul_div_cancel' (wordSize_dvd_headWidth t)

end AbiType

end ContractAbi
