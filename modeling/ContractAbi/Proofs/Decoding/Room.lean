import ContractAbi.Proofs.AbiType.Nodes
import ContractAbi.Proofs.Decoding.Positions

/-!
# Room for what was read

Whatever is read under a type has room for its exact head in the payload, by induction over the
type: `AbiType.fitsWhereRead`. With it the loops over elements, fields and arguments are reads at
exact positions without further conditions.
-/

namespace ContractAbi

open Decoding

variable {data : Bytes} {index : Nat}

namespace Decoding

/-! ## Heads of one word -/

theorem add_wordSize_le_of_contentAt (hdata : data.length < offsetLimit) {p : Nat × Nat}
    (h : contentAt data index = .ok p) : index + wordSize ≤ data.length := by
  obtain ⟨start, length⟩ := p
  obtain ⟨w, hw, -⟩ := (contentAt_eq_ok_iff hdata).mp h
  have hle := hw.length_le
  rwa [Word.length_toBytes] at hle

theorem add_wordSize_le_of_block (hdata : data.length < offsetLimit) {body : Bytes}
    (h : block data index = .ok body) : index + wordSize ≤ data.length := by
  obtain ⟨w, hw, -⟩ := (block_eq_ok_iff hdata).mp h
  have hle := hw.length_le
  rwa [Word.length_toBytes] at hle

end Decoding

/-- A part of a payload is no longer than the payload. -/
theorem length_drop_lt {n : Nat} (hdata : data.length < offsetLimit) :
    (data.drop n).length < offsetLimit := by
  rw [List.length_drop]
  omega

theorem readSequence_eq_ok_iff (hdata : data.length < offsetLimit) {elem : AbiType}
    (helem : elem.FitsWhereRead) {count : Nat} {v : Value} :
    readSequence elem (fun i ↦ elem.unpack i data) data count = .ok v ↔
      count * wordSize ≤ data.length ∧
        ∃ items, unpackTypes data (List.replicate count elem) 0 = .ok items ∧ .array items = v := by
  rw [readSequence_eq hdata helem]
  by_cases hcount : count * wordSize ≤ data.length
  · rw [if_pos hcount, bind_eq_ok_iff]
    simp only [hcount, true_and, pure_eq_ok, Except.ok.injEq]
  · rw [if_neg hcount]
    simp [hcount]

theorem unpackFields_eq_ok_iff (hdata : data.length < offsetLimit) {fields : List (Field AbiType)}
    (hfields : ∀ f ∈ fields, f.type.FitsWhereRead) {entries : List (String × Value)} :
    AbiType.unpackFields fields 0 data = .ok entries ↔
      ∃ values, unpackTypes data (fields.map Field.type) 0 = .ok values ∧
        (fields.map Field.rawName).zip values = entries := by
  rw [unpackFields_eq hdata hfields (by omega), Nat.zero_mul,
    bind_eq_ok_iff]
  simp only [pure_eq_ok, Except.ok.injEq]

namespace AbiType

/-- A static array or tuple that was read in place had room for all its parts. -/
private theorem add_sum_le_of_drop (hdata : data.length < offsetLimit)
    (hindex : index ≤ data.length) {ts : List AbiType} (hts : ∀ t ∈ ts, t.FitsWhereRead)
    {vs : List Value}
    (h : unpackTypes (data.drop index) ts 0 = .ok vs) :
    index + (ts.map headWidth).sum ≤ data.length := by
  have hle := add_sum_headWidth_le (length_drop_lt hdata) hts (Nat.zero_le _) h
  rw [List.length_drop] at hle
  omega

/-! ## Arrays and tuples in place -/

/-- A static array is read from its elements, which are where the array is. -/
theorem unpack_array_inPlace_iff {elem : AbiType} {length : Nat} (hdata : data.length < offsetLimit)
    (helem : elem.FitsWhereRead) (hs : elem.isDynamic = false) {v : Value} :
    (array elem length).unpack index data = .ok v ↔ index + wordSize ≤ data.length ∧
      length * wordSize ≤ (data.drop index).length ∧
        ∃ items, unpackTypes (data.drop index) (List.replicate length elem) 0 = .ok items ∧
          .array items = v := by
  rw [unpack, hs, if_neg Bool.false_ne_true]
  simp only [bind_eq_ok_iff, arrayInPlace_eq_ok_iff hdata]
  constructor
  · rintro ⟨body, ⟨hin, rfl⟩, h⟩
    exact ⟨hin, (readSequence_eq_ok_iff (length_drop_lt hdata) helem).mp h⟩
  · rintro ⟨hin, h⟩
    exact ⟨_, ⟨hin, rfl⟩, (readSequence_eq_ok_iff (length_drop_lt hdata) helem).mpr h⟩

/-- A static tuple is read from its fields, which are where the tuple is. -/
theorem unpack_tuple_inPlace_iff {structName : String} {fields : List (Field AbiType)}
    (hdata : data.length < offsetLimit) (hfields : ∀ f ∈ fields, f.type.FitsWhereRead)
    (hs : anyDynamic fields = false) {v : Value} :
    (tuple structName fields).unpack index data = .ok v ↔ index ≤ data.length ∧
      ∃ values, unpackTypes (data.drop index) (fields.map Field.type) 0 = .ok values ∧
        .tuple ((fields.map Field.rawName).zip values) = v := by
  rw [unpack, hs, if_neg Bool.false_ne_true]
  simp only [bind_eq_ok_iff, tupleInPlace_eq_ok_iff, pure_eq_ok, Except.ok.injEq]
  constructor
  · rintro ⟨body, ⟨hin, rfl⟩, entries, hentries, rfl⟩
    obtain ⟨values, hvalues, rfl⟩ :=
      (unpackFields_eq_ok_iff (length_drop_lt hdata) hfields).mp hentries
    exact ⟨hin, values, hvalues, rfl⟩
  · rintro ⟨hin, values, hvalues, rfl⟩
    exact ⟨_, ⟨hin, rfl⟩, _,
      (unpackFields_eq_ok_iff (length_drop_lt hdata) hfields).mpr ⟨values, hvalues, rfl⟩, rfl⟩

/-! ## Room for the head -/

private theorem fitsWhereRead_word {t : AbiType} (ht : t.headWidth = wordSize)
    {read : Word → Except AbiError Value}
    (hread : ∀ index data, t.unpack index data = readWord data index >>= read) :
    t.FitsWhereRead := by
  intro index data v hdata h
  rw [hread, bind_eq_ok_iff] at h
  obtain ⟨w, hw, -⟩ := h
  rw [ht]
  exact add_wordSize_le_of_readWord hdata hw

private theorem fitsWhereRead_content {t : AbiType} (ht : t.headWidth = wordSize)
    {read : Bytes → Nat × Nat → Except AbiError Value}
    (hread : ∀ index data, t.unpack index data = contentAt data index >>= read data) :
    t.FitsWhereRead := by
  intro index data v hdata h
  rw [hread, bind_eq_ok_iff] at h
  obtain ⟨p, hp, -⟩ := h
  rw [ht]
  exact add_wordSize_le_of_contentAt hdata hp

/-- **Reading needs room for the exact head.** -/
theorem fitsWhereRead (t : AbiType) : t.FitsWhereRead := by
  induction t using induct with
  | uint bits => exact fitsWhereRead_word rfl fun _ _ ↦ by rw [unpack]
  | int bits => exact fitsWhereRead_word rfl fun _ _ ↦ by rw [unpack]
  | bool => exact fitsWhereRead_word rfl fun _ _ ↦ by rw [unpack]
  | fixedBytes length => exact fitsWhereRead_word rfl fun _ _ ↦ by rw [unpack]
  | address => exact fitsWhereRead_word rfl fun _ _ ↦ by rw [unpack]
  | function => exact fitsWhereRead_word rfl fun _ _ ↦ by rw [unpack]
  | string => exact fitsWhereRead_content rfl fun _ _ ↦ by rw [unpack]
  | bytes => exact fitsWhereRead_content rfl fun _ _ ↦ by rw [unpack]
  | slice elem ih => exact fitsWhereRead_content rfl fun _ _ ↦ by rw [unpack]
  | array elem length ih =>
    intro index data v hdata h
    rw [headWidth]
    by_cases hd : isDynamic elem = true
    · rw [unpack, if_pos hd] at h
      obtain ⟨body, hbody, -⟩ := bind_eq_ok_iff.mp h
      rw [if_pos hd]
      exact add_wordSize_le_of_block hdata hbody
    · -- in place the elements are the head, and all of them were read
      obtain ⟨hin, -, items, hitems, -⟩ :=
        (unpack_array_inPlace_iff hdata ih (Bool.eq_false_of_not_eq_true hd)).mp h
      have hle := add_sum_le_of_drop hdata (by omega)
        (fun t ht ↦ by rwa [List.eq_of_mem_replicate ht]) hitems
      rwa [if_neg hd, ← List.sum_replicate_nat, ← List.map_replicate]
  | tuple structName fields ih =>
    intro index data v hdata h
    rw [headWidth]
    by_cases hd : anyDynamic fields = true
    · rw [unpack, if_pos hd] at h
      obtain ⟨body, hbody, -⟩ := bind_eq_ok_iff.mp h
      rw [if_pos hd]
      exact add_wordSize_le_of_block hdata hbody
    · obtain ⟨hin, values, hvalues, -⟩ :=
        (unpack_tuple_inPlace_iff hdata ih (Bool.eq_false_of_not_eq_true hd)).mp h
      rw [if_neg hd, headWidths_eq_sum]
      exact add_sum_le_of_drop hdata hin (List.forall_mem_map.mpr ih) hvalues

end AbiType

end ContractAbi
