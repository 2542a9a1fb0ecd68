import ContractAbi.Decoding
import ContractAbi.Proofs.Results
import ContractAbi.Proofs.Segments

/-!
# What the readers find

Each reader of a word, an offset or a counted content succeeds exactly where the bytes it looks for
stand in the payload, and then gives their numbers. The payloads are those whose length has a 64-bit
sign to spare: in them every position that was compared with the length is its own low count, and no
sum of such positions reaches a limit.
-/

namespace ContractAbi

namespace Decoding

variable {data : Bytes} {index : Nat}

theorem offsetLimit_le_limit : offsetLimit ≤ Count.limit := by decide

theorem limit_lt_modulus : Count.limit < Word.modulus := by decide

theorem lowCount_eq {n : Nat} (h : n ≤ Count.limit) : lowCount n = n :=
  Nat.mod_eq_of_lt (Nat.lt_succ_of_le h)

/-! ## Words -/

theorem readWord_eq (hdata : data.length < offsetLimit) :
    readWord data index = if index + wordSize ≤ data.length then
      .ok (Word.ofBytes ((data.drop index).take wordSize)) else .error (beyond data index) := by
  have hlimit := offsetLimit_le_limit
  rw [readWord]
  by_cases hin : index + wordSize ≤ data.length
  · rw [Count.add?, if_pos (by omega), if_pos hin]
    exact if_pos hin
  · rw [if_neg hin]
    split
    · rfl
    · rename_i stop hstop
      obtain ⟨-, rfl⟩ := Count.add?_eq_some_iff.mp hstop
      rw [if_neg hin]

theorem readWord_eq_ok_iff (hdata : data.length < offsetLimit) {w : Word} :
    readWord data index = .ok w ↔ (Word.toBytes w).StandsAt data index := by
  rw [readWord_eq hdata]
  constructor
  · intro h
    by_cases hin : index + wordSize ≤ data.length
    · rw [if_pos hin, Except.ok.injEq] at h
      refine ⟨by omega, ?_⟩
      rw [← h, Word.length_toBytes, Word.toBytes_ofBytes]
      rw [List.length_take, List.length_drop]
      omega
    · rw [if_neg hin] at h
      cases h
  · intro h
    have hin := h.length_le
    have hword := h.2
    rw [Word.length_toBytes] at hin hword
    rw [if_pos hin, hword, Word.ofBytes_toBytes]

theorem add_wordSize_le_of_readWord (hdata : data.length < offsetLimit) {w : Word}
    (h : readWord data index = .ok w) : index + wordSize ≤ data.length := by
  have hle := ((readWord_eq_ok_iff hdata).mp h).length_le
  rwa [Word.length_toBytes] at hle

/-! ## Bodies -/

theorem tupleInPlace_eq_ok_iff {body : Bytes} :
    tupleInPlace data index = .ok body ↔ index ≤ data.length ∧ data.drop index = body := by
  rw [tupleInPlace]
  by_cases hin : index ≤ data.length
  · rw [if_pos hin, Except.ok.injEq]
    exact ⟨fun h ↦ ⟨hin, h⟩, And.right⟩
  · rw [if_neg hin]
    simp [hin]

theorem arrayInPlace_eq_ok_iff (hdata : data.length < offsetLimit) {body : Bytes} :
    arrayInPlace data index = .ok body ↔
      index + wordSize ≤ data.length ∧ data.drop index = body := by
  rw [arrayInPlace, readWord_eq hdata]
  by_cases hin : index + wordSize ≤ data.length
  · rw [if_pos hin]
    exact ⟨fun h ↦ ⟨hin, Except.ok.inj h⟩, fun h ↦ congrArg Except.ok h.2⟩
  · rw [if_neg hin]
    simp [hin]

/-! ## Offsets -/

/-- The reader of an offset gives the rest of the payload from where it leads. -/
theorem block_eq_ok_iff (hdata : data.length < offsetLimit) {body : Bytes} :
    block data index = .ok body ↔ ∃ w : Word, (Word.toBytes w).StandsAt data index ∧
      w.toNat ≤ data.length ∧ data.drop w.toNat = body := by
  have hlimit := offsetLimit_le_limit
  simp only [block, bind_eq_ok_iff, readWord_eq_ok_iff hdata]
  refine exists_congr fun w ↦ and_congr_right fun _ ↦ ?_
  by_cases hin : w.toNat ≤ data.length
  · rw [if_neg (by omega), if_neg (by omega), lowCount_eq (by omega), Except.ok.injEq]
    exact ⟨fun h ↦ ⟨hin, h⟩, And.right⟩
  · rw [if_pos (by omega)]
    simp [hin]

/-- The reader of a counted content finds the count where the offset leads, and room for the
content behind it. -/
theorem contentAt_eq_ok_iff (hdata : data.length < offsetLimit) {start length : Nat} :
    contentAt data index = .ok (start, length) ↔ ∃ w : Word, (Word.toBytes w).StandsAt data index ∧
      w.toNat + wordSize = start ∧ start + length ≤ data.length ∧
      (countWord length).StandsAt data w.toNat := by
  have hlimit := offsetLimit_le_limit
  have hmodulus := limit_lt_modulus
  simp only [contentAt, bind_eq_ok_iff, readWord_eq_ok_iff hdata]
  refine exists_congr fun w ↦ and_congr_right fun _ ↦ ?_
  by_cases hin : w.toNat + wordSize ≤ data.length
  · rw [if_neg (by omega), if_neg (by omega), if_neg (by omega), lowCount_eq (by omega),
      Nat.add_sub_cancel]
    have hword : ((data.drop w.toNat).take wordSize).length = wordSize := by
      rw [List.length_take, List.length_drop]
      omega
    have hcount (n : Nat) (hn : n < Word.modulus) : (countWord n).StandsAt data w.toNat ↔
        Bytes.toNat ((data.drop w.toNat).take wordSize) = n := by
      rw [Bytes.StandsAt, length_countWord]
      constructor
      · rintro ⟨-, h⟩
        rw [h, toNat_countWord hn]
      · rintro rfl
        refine ⟨by omega, ?_⟩
        rw [countWord, ← Word.ofBytes, Word.toBytes_ofBytes hword]
    generalize Bytes.toNat ((data.drop w.toNat).take wordSize) = n at hcount ⊢
    by_cases hend : w.toNat + wordSize + n ≤ data.length
    · rw [if_neg (by omega), if_neg (by omega), lowCount_eq (by omega), Except.ok.injEq,
        Prod.mk.injEq]
      constructor
      · rintro ⟨rfl, rfl⟩
        exact ⟨rfl, hend, (hcount _ (by omega)).mpr rfl⟩
      · rintro ⟨rfl, hle, h⟩
        exact ⟨rfl, (hcount _ (by omega)).mp h⟩
    · have hnone : ¬(w.toNat + wordSize = start ∧ start + length ≤ data.length ∧
          (countWord length).StandsAt data w.toNat) := by
        rintro ⟨rfl, hle, h⟩
        rw [hcount _ (by omega)] at h
        omega
      rw [iff_false_intro hnone, iff_false]
      split
      · simp
      · rw [if_pos (by omega)]
        simp
  · have hnone : ¬(w.toNat + wordSize = start ∧ start + length ≤ data.length ∧
        (countWord length).StandsAt data w.toNat) := by
      rintro ⟨rfl, hle, -⟩
      omega
    rw [iff_false_intro hnone, iff_false]
    split
    · simp
    · rw [if_pos (by omega)]
      simp

end Decoding

end ContractAbi
