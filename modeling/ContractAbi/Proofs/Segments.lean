import Mathlib.Data.List.Induction
import Mathlib.Tactic.Ring
import ContractAbi.Encoding.Layout

/-!
# Segments of a payload

Where byte strings stand inside longer ones. Packing says what stands where, unpacking reads what
stands somewhere, and neither depends on what stands elsewhere; `Bytes.StandsAt` is the relation
they share. The numbers in base 256 that words are written in come first, since a word is read back
only if its digits determine it.
-/

namespace ContractAbi

namespace Bytes

/-! ## Numbers in base 256 -/

@[simp] theorem length_zeros (n : Nat) : (zeros n).length = n := List.length_replicate

theorem toNat_append_singleton (b : Bytes) (x : UInt8) :
    toNat (b ++ [x]) = 256 * toNat b + x.toNat := by
  rw [toNat, toNat, List.foldl_append, List.foldl_cons, List.foldl_nil]

theorem toNat_lt (b : Bytes) : toNat b < 256 ^ b.length := by
  induction b using List.reverseRecOn with
  | nil => simp [toNat]
  | append_singleton b x ih =>
    rw [toNat_append_singleton, List.length_append, List.length_singleton, pow_succ]
    have hx := x.toNat_lt
    omega

/-- Digits are cut off above the width. -/
theorem toNat_bigEndian (width n : Nat) : toNat (bigEndian width n) = n % 256 ^ width := by
  induction width generalizing n with
  | zero => simp [bigEndian, toNat, Nat.mod_one]
  | succ width ih =>
    have hdigit : (UInt8.ofNat n).toNat = n % 256 := UInt8.toNat_ofNat'
    rw [bigEndian, toNat_append_singleton, ih, hdigit, pow_succ', Nat.mod_mul, Nat.add_comm]

theorem bigEndian_toNat (b : Bytes) : bigEndian b.length (toNat b) = b := by
  -- from the last digit, which is the one that both recursions take off
  induction b using List.reverseRecOn with
  | nil => rfl
  | append_singleton b x ih =>
    have hx := x.toNat_lt
    rw [toNat_append_singleton, List.length_append, List.length_singleton, bigEndian,
      show (256 * toNat b + x.toNat) / 256 = toNat b from by omega, ih]
    congr 2
    apply UInt8.toNat_inj.mp
    rw [UInt8.toNat_ofNat']
    omega

end Bytes

namespace Word

theorem modulus_eq : modulus = 256 ^ wordSize := by
  rw [modulus, wordSize]
  norm_num

@[simp] theorem toNat_toBytes (w : Word) : Bytes.toNat (toBytes w) = w.toNat := by
  rw [toBytes, Bytes.toNat_bigEndian, ← modulus_eq]
  exact Nat.mod_eq_of_lt w.isLt

@[simp] theorem ofBytes_toBytes (w : Word) : ofBytes (toBytes w) = w := by
  rw [ofBytes, toNat_toBytes, BitVec.ofNat_toNat, BitVec.setWidth_eq]

theorem toBytes_ofBytes {b : Bytes} (h : b.length = wordSize) : toBytes (ofBytes b) = b := by
  have hlt : Bytes.toNat b < 2 ^ 256 := by
    have := Bytes.toNat_lt b
    rwa [h, ← modulus_eq] at this
  rw [toBytes, ofBytes, BitVec.toNat_ofNat, Nat.mod_eq_of_lt hlt, ← h, Bytes.bigEndian_toNat]

end Word

@[simp] theorem length_countWord (n : Nat) : (countWord n).length = wordSize :=
  Word.length_toBytes _

theorem toNat_countWord {n : Nat} (h : n < Word.modulus) : Bytes.toNat (countWord n) = n := by
  rw [countWord, Word.toNat_toBytes, BitVec.toNat_ofNat]
  exact Nat.mod_eq_of_lt h

namespace Bytes

/-! ## What stands where -/

/-- The bytes of `data` from `index` on begin with `b`. -/
def StandsAt (b data : Bytes) (index : Nat) : Prop :=
  index ≤ data.length ∧ (data.drop index).take b.length = b

instance (b data : Bytes) (index : Nat) : Decidable (StandsAt b data index) :=
  inferInstanceAs (Decidable (_ ∧ _))

variable {a b c data : Bytes} {index : Nat}

theorem standsAt_iff_exists :
    StandsAt b data index ↔
      ∃ before after, data = before ++ b ++ after ∧ before.length = index := by
  constructor
  · rintro ⟨hle, htake⟩
    refine ⟨data.take index, (data.drop index).drop b.length, ?_, List.length_take_of_le hle⟩
    calc data
      _ = data.take index ++ ((data.drop index).take b.length
            ++ (data.drop index).drop b.length) := by
        rw [List.take_append_drop, List.take_append_drop]
      _ = data.take index ++ b ++ (data.drop index).drop b.length := by
        rw [htake, List.append_assoc]
  · rintro ⟨before, after, rfl, rfl⟩
    refine ⟨by simp only [List.length_append]; omega, ?_⟩
    rw [List.append_assoc, List.drop_left, List.take_left]

theorem StandsAt.length_le (h : StandsAt b data index) : index + b.length ≤ data.length := by
  obtain ⟨before, after, rfl, rfl⟩ := standsAt_iff_exists.mp h
  simp only [List.length_append]
  omega

theorem standsAt_self (b : Bytes) : StandsAt b b 0 :=
  standsAt_iff_exists.mpr ⟨[], [], by simp, rfl⟩

/-- Two byte strings one after the other. -/
theorem standsAt_append_iff :
    StandsAt (b ++ c) data index ↔
      StandsAt b data index ∧ StandsAt c data (index + b.length) := by
  constructor
  · intro h
    obtain ⟨before, after, rfl, rfl⟩ := standsAt_iff_exists.mp h
    exact ⟨standsAt_iff_exists.mpr ⟨before, c ++ after, by simp, rfl⟩,
      standsAt_iff_exists.mpr ⟨before ++ b, after, by simp, by simp⟩⟩
  · rintro ⟨hb, hc⟩
    have hle := hc.length_le
    refine ⟨hb.1, ?_⟩
    rw [List.length_append, List.take_add, hb.2, List.drop_drop, hc.2]

/-- What follows on the right does not matter. -/
theorem StandsAt.append_right (h : StandsAt b data index) (rest : Bytes) :
    StandsAt b (data ++ rest) index := by
  obtain ⟨before, after, rfl, rfl⟩ := standsAt_iff_exists.mp h
  exact standsAt_iff_exists.mpr ⟨before, after ++ rest, by simp, rfl⟩

/-- What stands at a position stands at the front of the rest from there. -/
theorem StandsAt.drop (h : StandsAt b data index) : StandsAt b (data.drop index) 0 :=
  ⟨Nat.zero_le _, h.2⟩

end Bytes

end ContractAbi
