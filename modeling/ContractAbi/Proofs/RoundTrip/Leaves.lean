import ContractAbi.Proofs.Decoding.Reading
import ContractAbi.Proofs.RoundTrip.Normal

/-!
# Reading leaves back

What packing writes for a leaf is read back as the normal value, wherever it stands. A word has no
other bytes than those written; a counted content is followed by padding, which is not looked at.
-/

namespace ContractAbi

open Decoding

variable {data : Bytes} {index : Nat} {v : Value} {b : Bytes}

namespace Decoding

theorem readWord_of_standsAt (hdata : data.length < offsetLimit) (hb : b.length = wordSize)
    (h : b.StandsAt data index) : readWord data index = .ok (Word.ofBytes b) := by
  rw [readWord_eq_ok_iff hdata, Word.toBytes_ofBytes hb]
  exact h

/-- A counted content is found behind the offset that leads to it. -/
theorem contentAt_of_counted (hdata : data.length < offsetLimit) {w : Word} {content : Bytes}
    (hw : (Word.toBytes w).StandsAt data index)
    (h : (AbiType.counted content).StandsAt data w.toNat) :
    contentAt data index = .ok (w.toNat + wordSize, content.length) ∧
      (data.drop (w.toNat + wordSize)).take content.length = content := by
  rw [AbiType.counted_eq, Bytes.standsAt_append_iff, Bytes.standsAt_append_iff,
    length_countWord] at h
  obtain ⟨hcount, hcontent, -⟩ := h
  exact ⟨(contentAt_eq_ok_iff hdata).mpr ⟨w, hw, rfl, hcontent.length_le, hcount⟩, hcontent.2⟩

end Decoding

namespace AbiType

/-! ## Words -/

theorem unpack_uint_of_standsAt {bits : Nat} (hdata : data.length < offsetLimit)
    (hpack : (uint bits).pack v = .ok b) (h : b.StandsAt data index) :
    (uint bits).unpack index data = .ok ((uint bits).normalize v) := by
  obtain ⟨w, rfl, hfits, hv⟩ := pack_uint_eq_ok_iff.mp hpack
  rw [unpack, (readWord_eq_ok_iff hdata).mpr h, ok_bind, readUint, if_pos hfits]
  rcases hv with rfl | ⟨rfl, -⟩
  · rfl
  · rfl

/-- A natural number with a bit to spare fits as an integer. -/
theorem fitsSigned_of_bitLength_lt {bits : Nat} {w : Word} (h : w.bitLength < bits) :
    w.FitsSigned bits := by
  by_cases hbits : 256 ≤ bits
  · exact Or.inl hbits
  · rw [Word.FitsSigned, msb_of_bitLength_lt (by omega), if_neg Bool.false_ne_true]
    exact Or.inr h

theorem unpack_int_of_standsAt {bits : Nat} (hdata : data.length < offsetLimit)
    (hpack : (int bits).pack v = .ok b) (h : b.StandsAt data index) :
    (int bits).unpack index data = .ok ((int bits).normalize v) := by
  obtain ⟨w, rfl, hv⟩ := pack_int_eq_ok_iff.mp hpack
  have hfits : w.FitsSigned bits := by
    rcases hv with ⟨-, hfits⟩ | ⟨-, hlt⟩
    · exact hfits
    · exact fitsSigned_of_bitLength_lt hlt
  rw [unpack, (readWord_eq_ok_iff hdata).mpr h, ok_bind, readInt, if_pos hfits]
  rcases hv with ⟨rfl, -⟩ | ⟨rfl, -⟩
  · rfl
  · rfl

theorem unpack_bool_of_standsAt (hdata : data.length < offsetLimit)
    (hpack : bool.pack v = .ok b) (h : b.StandsAt data index) :
    bool.unpack index data = .ok (bool.normalize v) := by
  obtain ⟨c, rfl, rfl⟩ := pack_bool_eq_ok_iff.mp hpack
  rw [unpack, (readWord_eq_ok_iff hdata).mpr h, ok_bind, readBool]
  cases c with
  | false => rfl
  | true => rfl

theorem unpack_fixedBytes_of_standsAt {length : Nat} (hlength : length ≤ wordSize)
    (hdata : data.length < offsetLimit) (hpack : (fixedBytes length).pack v = .ok b)
    (h : b.StandsAt data index) :
    (fixedBytes length).unpack index data = .ok ((fixedBytes length).normalize v) := by
  obtain ⟨c, hv, rfl, rfl⟩ := pack_fixedBytes_eq_ok_iff.mp hpack
  have htake : (leadingWord c).take c.length = c := by
    rw [leadingWord, List.take_of_length_le hlength, List.take_left]
  rw [unpack, readWord_of_standsAt hdata (length_leadingWord c) h, ok_bind, readFixedBytes,
    Word.toBytes_ofBytes (length_leadingWord c), htake]
  obtain rfl | rfl := Value.bytes?_eq_some_iff.mp hv
  · rfl
  · rfl

theorem unpack_address_of_standsAt (hdata : data.length < offsetLimit)
    (hpack : address.pack v = .ok b) (h : b.StandsAt data index) :
    address.unpack index data = .ok (address.normalize v) := by
  obtain ⟨a, rfl, rfl⟩ := pack_address_eq_ok_iff.mp hpack
  have hlength : (trailingWord a.val).length = wordSize :=
    length_trailingWord (by rw [a.property]; decide)
  have hdrop : (trailingWord a.val).drop 12 = a.val := by
    rw [trailingWord, a.property]
    exact List.drop_left' (Bytes.length_zeros 12)
  rw [unpack, readWord_of_standsAt hdata hlength h, ok_bind, readAddress]
  simp only [Word.toBytes_ofBytes hlength, hdrop]
  rfl

theorem unpack_function_of_standsAt (hdata : data.length < offsetLimit)
    (hpack : function.pack v = .ok b) (h : b.StandsAt data index) :
    function.unpack index data = .ok (function.normalize v) := by
  obtain ⟨f, rfl, rfl⟩ := pack_function_eq_ok_iff.mp hpack
  have hlength := length_leadingWord f.val
  have hword : leadingWord f.val = f.val ++ Bytes.zeros 8 := by
    rw [leadingWord, List.take_of_length_le (by rw [f.property]; decide), f.property]
    rfl
  have hdrop : (leadingWord f.val).drop 24 = Bytes.zeros 8 := by
    rw [hword, List.drop_left' f.property]
  have htake : (leadingWord f.val).take 24 = f.val := by
    rw [hword, List.take_left' f.property]
  rw [unpack, readWord_of_standsAt hdata hlength h, ok_bind, readFunction]
  simp only [Word.toBytes_ofBytes hlength, hdrop, htake, if_true]
  rfl

/-! ## Counted content -/

theorem fromUTF8?_toUTF8 (s : String) :
    String.fromUTF8? ⟨s.toUTF8.data.toList.toArray⟩ = some s := by
  rw [Array.toArray_toList, String.fromUTF8?]
  exact dif_pos s.isValidUTF8

theorem unpack_string_of_counted (hdata : data.length < offsetLimit)
    (hpack : string.pack v = .ok b) {w : Word} (hw : (Word.toBytes w).StandsAt data index)
    (h : b.StandsAt data w.toNat) : string.unpack index data = .ok (string.normalize v) := by
  obtain ⟨s, rfl, rfl⟩ := pack_string_eq_ok_iff.mp hpack
  obtain ⟨hcontent, htake⟩ := contentAt_of_counted hdata hw h
  rw [unpack, hcontent, ok_bind]
  dsimp only
  rw [htake, readText, fromUTF8?_toUTF8]
  rfl

theorem unpack_bytes_of_counted (hdata : data.length < offsetLimit)
    (hpack : bytes.pack v = .ok b) {w : Word} (hw : (Word.toBytes w).StandsAt data index)
    (h : b.StandsAt data w.toNat) : bytes.unpack index data = .ok (bytes.normalize v) := by
  obtain ⟨c, hv, rfl⟩ := pack_bytes_eq_ok_iff.mp hpack
  obtain ⟨hcontent, htake⟩ := contentAt_of_counted hdata hw h
  rw [unpack, hcontent, ok_bind]
  dsimp only
  rw [htake]
  obtain rfl | rfl := Value.bytes?_eq_some_iff.mp hv
  · rfl
  · rfl

end AbiType

end ContractAbi
