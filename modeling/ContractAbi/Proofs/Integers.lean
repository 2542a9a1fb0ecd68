import ContractAbi.Proofs.AbiType.WellFormed
import ContractAbi.Proofs.Encoding.Offences
import ContractAbi.Proofs.RoundTrip.Leaves

/-!
# Integers

What an integer type does with a word that it reads and with a number that it writes. Reading tests
the bits of the word and writing those of the value, in one variant or the other; said in numbers,
both test the range of the type. Reading and writing are equations here, with the range spelled out
and the error beside it.

The words that are read under a type are therefore those that are written under it. Each stands for
one number there, and the variant that a value comes in is all that can change on the way.
-/

namespace ContractAbi

open Decoding

/-- A test that gives a value or an error gives a value where it is passed. -/
theorem exists_ite_eq_ok_iff {α ε : Type} {p : Prop} [Decidable p] {a : α} {e : ε} :
    (∃ c, (if p then .ok a else .error e : Except ε α) = .ok c) ↔ p := by
  by_cases h : p
  · rw [if_pos h]
    exact iff_of_true ⟨a, rfl⟩ h
  · rw [if_neg h]
    exact iff_of_false nofun h

namespace Word

theorem toBytes_injective : Function.Injective toBytes :=
  Function.LeftInverse.injective ofBytes_toBytes

end Word

namespace Value

theorem integer?_ofUInt64 (n : UInt64) : (ofUInt64 n).integer? = some (n.toNat : Int) := by
  rw [ofUInt64, integer?, BitVec.toNat_setWidth_of_le (by decide)]
  rfl

theorem integer?_ofInt64 (n : Int64) : (ofInt64 n).integer? = some n.toInt := by
  rw [ofInt64, integer?, BitVec.toInt_signExtend_of_le (by decide)]
  rfl

end Value

namespace AbiType

variable {bits : Nat} {w : Word} {v : Value} {x : Int} {b data : Bytes} {index : Nat}

/-! ## Reading a word -/

theorem unpack_uint_eq (hdata : data.length < offsetLimit)
    (hw : (Word.toBytes w).StandsAt data index) :
    (uint bits).unpack index data = if w.toNat < 2 ^ bits then .ok (.uint w)
      else .error (.improperlyEncodedInt ("uint" ++ toString bits)) := by
  rw [unpack, (readWord_eq_ok_iff hdata).mpr hw, ok_bind, readUint, canonical_eq_assembled]
  exact if_congr Word.fitsUnsigned_iff rfl rfl

theorem unpack_int_eq (hpos : 0 < bits) (hdata : data.length < offsetLimit)
    (hw : (Word.toBytes w).StandsAt data index) :
    (int bits).unpack index data =
      if -(2 ^ (bits - 1) : Int) ≤ w.toInt ∧ w.toInt < 2 ^ (bits - 1) then .ok (.int w)
      else .error (.improperlyEncodedInt ("int" ++ toString bits)) := by
  rw [unpack, (readWord_eq_ok_iff hdata).mpr hw, ok_bind, readInt, canonical_eq_assembled]
  exact if_congr (Word.fitsSigned_iff hpos) rfl rfl

/-! ## Writing a number -/

theorem pack_uint_eq (hv : v.integer? = some x) :
    (uint bits).pack v = if x < 0 then .error .invalidSign
      else if x < 2 ^ bits then .ok (numberWord x)
      else .error (.valueOutOfRange ("uint" ++ toString bits) x) := by
  by_cases hneg : x < 0
  · rw [if_pos hneg, pack_uint_of_negative hv hneg]
  rw [if_neg hneg]
  by_cases hbelow : x < 2 ^ bits
  · obtain ⟨b, hb⟩ := pack_uint_of_conforms ⟨x, hv, Int.not_lt.mp hneg, hbelow⟩
    have hword := encoding_uint hb
    rw [encoding, hv, Option.map_some, Option.getD_some] at hword
    rw [if_pos hbelow, hb, hword]
  · rw [if_neg hbelow, pack_uint_of_above hv (Int.not_lt.mp hbelow), canonical_eq_assembled]
    rfl

theorem pack_int_eq (hpos : 0 < bits) (hv : v.integer? = some x) :
    (int bits).pack v =
      if -(2 ^ (bits - 1)) ≤ x ∧ x < 2 ^ (bits - 1) then .ok (numberWord x)
      else .error (.valueOutOfRange ("int" ++ toString bits) x) := by
  by_cases hin : -(2 ^ (bits - 1)) ≤ x ∧ x < 2 ^ (bits - 1)
  · obtain ⟨b, hb⟩ := pack_int_of_conforms hpos ⟨x, hv, hin⟩
    have hword := encoding_int hb
    rw [encoding, hv, Option.map_some, Option.getD_some] at hword
    rw [if_pos hin, hb, hword]
  · have hout : x < -(2 ^ (bits - 1)) ∨ 2 ^ (bits - 1) ≤ x := by omega
    rw [if_neg hin, pack_int_of_outside hpos hv hout, canonical_eq_assembled]
    rfl

/-! ## Words that are read and written -/

theorem exists_pack_uint_iff :
    (∃ v, (uint bits).pack v = .ok (Word.toBytes w)) ↔ w.toNat < 2 ^ bits := by
  rw [← Word.fitsUnsigned_iff]
  constructor
  · rintro ⟨v, hv⟩
    obtain ⟨u, hu, hfits, -⟩ := pack_uint_eq_ok_iff.mp hv
    rwa [← Word.toBytes_injective hu]
  · intro hfits
    exact ⟨.uint w, pack_uint_eq_ok_iff.mpr ⟨w, rfl, hfits, Or.inl rfl⟩⟩

theorem exists_pack_int_iff (hpos : 0 < bits) :
    (∃ v, (int bits).pack v = .ok (Word.toBytes w)) ↔
      -(2 ^ (bits - 1) : Int) ≤ w.toInt ∧ w.toInt < 2 ^ (bits - 1) := by
  rw [← Word.fitsSigned_iff hpos]
  constructor
  · rintro ⟨v, hv⟩
    obtain ⟨u, hu, ⟨-, hfits⟩ | ⟨-, hlt⟩⟩ := pack_int_eq_ok_iff.mp hv
    · rwa [← Word.toBytes_injective hu]
    · rw [← Word.toBytes_injective hu]
      exact fitsSigned_of_bitLength_lt hlt
  · intro hfits
    exact ⟨.int w, pack_int_eq_ok_iff.mpr ⟨w, rfl, Or.inl ⟨rfl, hfits⟩⟩⟩

theorem unpack_uint_iff_exists_pack (hdata : data.length < offsetLimit)
    (hw : (Word.toBytes w).StandsAt data index) :
    (∃ u, (uint bits).unpack index data = .ok u) ↔
      ∃ v, (uint bits).pack v = .ok (Word.toBytes w) := by
  rw [exists_pack_uint_iff, unpack_uint_eq hdata hw, exists_ite_eq_ok_iff]

theorem unpack_int_iff_exists_pack (hpos : 0 < bits) (hdata : data.length < offsetLimit)
    (hw : (Word.toBytes w).StandsAt data index) :
    (∃ u, (int bits).unpack index data = .ok u) ↔
      ∃ v, (int bits).pack v = .ok (Word.toBytes w) := by
  rw [exists_pack_int_iff hpos, unpack_int_eq hpos hdata hw, exists_ite_eq_ok_iff]

/-! ## Numbers that are written and read -/

theorem integer?_normalize_uint (h : (uint bits).pack v = .ok b) :
    ∃ x, v.integer? = some x ∧ ((uint bits).normalize v).integer? = some x := by
  obtain ⟨w, -, -, rfl | ⟨rfl, hw⟩⟩ := pack_uint_eq_ok_iff.mp h
  · exact ⟨w.toNat, rfl, rfl⟩
  · exact ⟨w.toInt, rfl, congrArg some (BitVec.toInt_eq_toNat_of_msb hw).symm⟩

theorem integer?_normalize_int (hle : bits ≤ 256) (h : (int bits).pack v = .ok b) :
    ∃ x, v.integer? = some x ∧ ((int bits).normalize v).integer? = some x := by
  obtain ⟨w, -, ⟨rfl, -⟩ | ⟨rfl, hw⟩⟩ := pack_int_eq_ok_iff.mp h
  · exact ⟨w.toInt, rfl, rfl⟩
  · have hmsb := msb_of_bitLength_lt (Nat.lt_of_lt_of_le hw hle)
    exact ⟨w.toNat, rfl, congrArg some (BitVec.toInt_eq_toNat_of_msb hmsb)⟩

/-- **Integers in and out.** A word is read under an integer type if its number is in the range of
the type, and is refused with the name of the type otherwise. A number of either variant is written
as its word in two's complement if it is in the range, and refused otherwise, by its sign or by the
range. So the words that are read are those that are written, and a number that is written is read
again; natural numbers and integers of 64 bits keep theirs from the start. -/
theorem unpack_pack_integer (hpos : 0 < bits) (hle : bits ≤ 256) :
    (∀ (w : Word) (data : Bytes) (index : Nat), data.length < offsetLimit →
      (Word.toBytes w).StandsAt data index →
        (uint bits).unpack index data = (if w.toNat < 2 ^ bits then .ok (.uint w)
          else .error (.improperlyEncodedInt ("uint" ++ toString bits))) ∧
        (int bits).unpack index data =
          (if -(2 ^ (bits - 1) : Int) ≤ w.toInt ∧ w.toInt < 2 ^ (bits - 1) then .ok (.int w)
          else .error (.improperlyEncodedInt ("int" ++ toString bits)))) ∧
    (∀ (v : Value) (x : Int), v.integer? = some x →
      (uint bits).pack v = (if x < 0 then .error .invalidSign
        else if x < 2 ^ bits then .ok (numberWord x)
        else .error (.valueOutOfRange ("uint" ++ toString bits) x)) ∧
      (int bits).pack v =
        (if -(2 ^ (bits - 1)) ≤ x ∧ x < 2 ^ (bits - 1) then .ok (numberWord x)
        else .error (.valueOutOfRange ("int" ++ toString bits) x))) ∧
    (∀ t ∈ [uint bits, int bits], ∀ (data : Bytes) (index : Nat), data.length < offsetLimit →
      (∀ w : Word, (Word.toBytes w).StandsAt data index →
        ((∃ u, t.unpack index data = .ok u) ↔ ∃ v, t.pack v = .ok (Word.toBytes w))) ∧
      ∀ (v : Value) (b : Bytes), t.pack v = .ok b → b.StandsAt data index →
        ∃ x u, v.integer? = some x ∧ t.unpack index data = .ok u ∧ u.integer? = some x) ∧
    (∀ n : UInt64, (Value.ofUInt64 n).integer? = some (n.toNat : Int)) ∧
    ∀ n : Int64, (Value.ofInt64 n).integer? = some n.toInt := by
  refine ⟨fun w data index hdata hw ↦ ⟨unpack_uint_eq hdata hw, unpack_int_eq hpos hdata hw⟩,
    fun v x hv ↦ ⟨pack_uint_eq hv, pack_int_eq hpos hv⟩, ?_, Value.integer?_ofUInt64,
    Value.integer?_ofInt64⟩
  refine List.forall_mem_cons.mpr ⟨?_, List.forall_mem_singleton.mpr ?_⟩
  · refine fun data index hdata ↦ ⟨fun w hw ↦ unpack_uint_iff_exists_pack hdata hw,
      fun v b hpack hb ↦ ?_⟩
    obtain ⟨x, hv, hnormal⟩ := integer?_normalize_uint hpack
    exact ⟨x, _, hv, unpack_uint_of_standsAt hdata hpack hb, hnormal⟩
  · refine fun data index hdata ↦ ⟨fun w hw ↦ unpack_int_iff_exists_pack hpos hdata hw,
      fun v b hpack hb ↦ ?_⟩
    obtain ⟨x, hv, hnormal⟩ := integer?_normalize_int hle hpack
    exact ⟨x, _, hv, unpack_int_of_standsAt hdata hpack hb, hnormal⟩

/-- The two ends of eight bits with a sign, read behind another byte and written in either
variant. -/
theorem unpack_pack_integer_at_bounds :
    (int 8).unpack 1 (9 :: numberWord (-128)) = .ok (.int (BitVec.ofInt 256 (-128))) ∧
      (int 8).unpack 1 (9 :: numberWord 128) = .error (.improperlyEncodedInt "int8") ∧
      (int 8).pack (.ofInt64 (-128)) = .ok (numberWord (-128)) ∧
      (int 8).pack (.uint 128) = .error (.valueOutOfRange "int8" 128) ∧
      (uint 8).pack (.ofInt64 (-128)) = .error .invalidSign ∧
      ∃ x u, (Value.uint 127).integer? = some x ∧
        (int 8).unpack 1 (9 :: numberWord 127) = .ok u ∧ u.integer? = some x := by
  obtain ⟨hread, hwrite, hboth, -, hint⟩ := @unpack_pack_integer 8 (by decide) (by decide)
  have hlowest := hwrite _ _ (hint (-128))
  have hlong (x : Int) : (9 :: numberWord x).length < offsetLimit := by
    rw [List.length_cons, numberWord, Word.length_toBytes]
    decide
  refine ⟨?_, ?_, ?_, ?_, ?_, ?_⟩
  · exact (hread (BitVec.ofInt 256 (-128)) _ 1 (hlong _) (by decide +kernel)).2.trans
      (if_pos (by decide))
  · exact (hread (BitVec.ofInt 256 128) _ 1 (hlong _) (by decide +kernel)).2.trans
      (if_neg (by decide))
  · exact hlowest.2.trans (if_pos (by decide))
  · exact (hwrite (.uint 128) 128 rfl).2.trans (if_neg (by decide))
  · exact hlowest.1.trans (if_pos (by decide))
  · exact (hboth (int 8) (by decide) _ 1 (hlong _)).2 (.uint 127) (numberWord 127)
      (by decide +kernel) (by decide +kernel)

end AbiType

end ContractAbi
