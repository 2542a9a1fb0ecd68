import ContractAbi.Proofs.Decoding.Room
import ContractAbi.Proofs.RoundTrip.Leaves

/-!
# Reading back at any placement

What packing writes is read back from wherever it stands, whatever surrounds it. The statement that
carries the induction over the type is about a part and a position: if a reader at the position
finds the part, it reads the normal value. The parts of a block are found at the exact positions of
their heads, and exact positions are where the loops of unpacking read.

## Elements without room

A sequence is refused if the payload has no word for each of its elements. Elements whose head takes
no room, such as empty tuples, are packed to nothing, so a sequence of them is not read back, and
types with such elements are left out.
-/

namespace ContractAbi

open Decoding

namespace AbiType

/-- The elements of the outermost node take room in a head. -/
def ElemsTakeRoom (t : AbiType) : Prop :=
  ∀ elem ∈ t.elem?, elem.headSize ≠ 0

instance : DecidablePred ElemsTakeRoom := fun t ↦
  inferInstanceAs (Decidable (∀ elem ∈ t.elem?, elem.headSize ≠ 0))

/-- A reader that finds the part reads the normal value. -/
def ReadBack (x : AbiType × Value) (p : Part) : Prop :=
  ∀ {data : Bytes} {index : Nat}, data.length < offsetLimit → p.PlacedAt data index →
    x.1.unpack index data = .ok (x.1.normalize x.2)

variable {data : Bytes} {index : Nat}

/-! ## Blocks -/

section Blocks

variable {xs : List (AbiType × Value)} {parts : List Part}

theorem unpackTypes_of_allPlaced (hdata : data.length < offsetLimit)
    (h : List.Forall₂ Sized xs parts) (hread : ∀ x ∈ xs, ∀ p, Packed x p → ReadBack x p)
    (hplaced : Part.AllPlaced parts data index) :
    unpackTypes data (xs.map Prod.fst) index = .ok (xs.map fun x ↦ x.1.normalize x.2) := by
  induction h generalizing index with
  | nil => rfl
  | @cons x p _ _ hx _ ih =>
    obtain ⟨hhead, hrest⟩ := List.forall_mem_cons.mp hread
    obtain ⟨hp, hps⟩ := hplaced
    rw [hx.headLength] at hps
    rw [List.map_cons, unpackTypes, hhead p hx.1 hdata hp, ok_bind, ih hrest hps]
    rfl

/-- The block at the front of a payload is read part by part. -/
theorem unpackTypes_of_block (hdata : data.length < offsetLimit)
    (h : List.Forall₂ Sized xs parts) (hread : ∀ x ∈ xs, ∀ p, Packed x p → ReadBack x p)
    (hblock : (Part.block parts).StandsAt data 0) :
    unpackTypes data (xs.map Prod.fst) 0 = .ok (xs.map fun x ↦ x.1.normalize x.2) := by
  have hlimit := offsetLimit_le_limit
  have hmodulus := limit_lt_modulus
  exact unpackTypes_of_allPlaced hdata h hread (Part.allPlaced_of_block (by omega) hblock)

end Blocks

section Items

variable {elem : AbiType} {items : List Value} {parts : List Part}

/-- The head of a block of elements has a word for each of them. -/
theorem length_mul_wordSize_le_headTotal (h : List.Forall₂ Sized (items.map (elem, ·)) parts)
    (hroom : elem.headSize ≠ 0) : items.length * wordSize ≤ Part.headTotal parts := by
  have htotal := headTotal_eq_sum h
  rw [map_fst_map_pair, List.map_replicate, List.sum_replicate_nat] at htotal
  rw [htotal]
  exact Nat.mul_le_mul_left _ (wordSize_le_headWidth hroom)

theorem length_mul_wordSize_le (h : List.Forall₂ Sized (items.map (elem, ·)) parts)
    (hroom : elem.headSize ≠ 0) : items.length * wordSize ≤ (Part.block parts).length := by
  rw [Part.length_block]
  exact Nat.le_add_right_of_le (length_mul_wordSize_le_headTotal h hroom)

theorem readSequence_of_block (hdata : data.length < offsetLimit)
    (h : List.Forall₂ Sized (items.map (elem, ·)) parts) (hroom : elem.headSize ≠ 0)
    (hread : ∀ v p, Packed (elem, v) p → ReadBack (elem, v) p)
    (hblock : (Part.block parts).StandsAt data 0) :
    readSequence elem (fun i ↦ elem.unpack i data) data items.length
      = .ok (.array (items.map fun v ↦ elem.normalize v)) := by
  have hitems := unpackTypes_of_block hdata h (List.forall_mem_map.mpr fun v _ ↦ hread v) hblock
  rw [map_fst_map_pair, List.map_map] at hitems
  have hle := length_mul_wordSize_le h hroom
  have hblock := hblock.length_le
  rw [readSequence_eq_ok_iff hdata elem.fitsWhereRead]
  exact ⟨by omega, _, hitems, rfl⟩

end Items

theorem unpackFields_of_block (hdata : data.length < offsetLimit) {fields : List (Field AbiType)}
    {entries : List (String × Value)} {values : List Value} {parts : List Part}
    (hvalues : List.Forall₂ (FirstEntry entries) fields values)
    (h : List.Forall₂ Sized ((fields.map Field.type).zip values) parts)
    (hread : ∀ f ∈ fields, ∀ v p, Packed (f.type, v) p → ReadBack (f.type, v) p)
    (hblock : (Part.block parts).StandsAt data 0) :
    unpackFields fields 0 data = .ok (normalizeFields fields entries) := by
  have hfields := unpackTypes_of_block hdata h (forall_mem_zip_types hread) hblock
  rw [map_fst_zip_types hvalues] at hfields
  rw [unpackFields_eq_ok_iff hdata fun f _ ↦ f.type.fitsWhereRead]
  exact ⟨_, hfields, (normalizeFields_eq hvalues).symm⟩

end AbiType

/-! ## Placement of one part -/

namespace Part

variable {p : Part} {data : Bytes} {index : Nat}

theorem placedAt_static_iff (h : p.isDynamic = false) :
    p.PlacedAt data index ↔ p.bytes.StandsAt data index := by
  rw [PlacedAt, h, if_neg Bool.false_ne_true]

theorem placedAt_dynamic_iff (h : p.isDynamic = true) :
    p.PlacedAt data index ↔ ∃ w : Word, (Word.toBytes w).StandsAt data index ∧
      p.bytes.StandsAt data w.toNat := by
  rw [PlacedAt, if_pos h]

end Part

namespace AbiType

variable {data : Bytes} {index : Nat}

/-- A block behind an offset is at the front of what the offset leads to. -/
theorem block_of_standsAt (hdata : data.length < offsetLimit) {b : Bytes} {w : Word}
    (hw : (Word.toBytes w).StandsAt data index) (hb : b.StandsAt data w.toNat) :
    Decoding.block data index = .ok (data.drop w.toNat) ∧ b.StandsAt (data.drop w.toNat) 0 :=
  ⟨(block_eq_ok_iff hdata).mpr ⟨w, hw, hb.1, rfl⟩, hb.drop⟩

/-! ## Composite types -/

section Sequences

variable {elem : AbiType} {v : Value} {p : Part}

theorem readBack_slice (hn : elem.Everywhere NumbersInRange) (hroom : elem.headSize ≠ 0)
    (helem : ∀ v p, Packed (elem, v) p → ReadBack (elem, v) p) (h : Packed (slice elem, v) p) :
    ReadBack (slice elem, v) p := by
  obtain ⟨hd, hpack⟩ := h
  intro data index hdata hplaced
  obtain ⟨w, hw, hb⟩ := (Part.placedAt_dynamic_iff hd).mp hplaced
  obtain ⟨items, parts, rfl, hparts, -, hbytes⟩ := pack_slice_eq_ok_iff.mp hpack
  rw [← hbytes, Bytes.standsAt_append_iff, length_countWord] at hb
  obtain ⟨hcount, hblock⟩ := hb
  have hsized := sized_of_numbersInRange hparts (List.forall_mem_map.mpr fun _ _ ↦ hn)
  have hfits : w.toNat + wordSize + items.length ≤ data.length := by
    have hle := hblock.length_le
    have hitems := length_mul_wordSize_le hsized hroom
    rw [wordSize] at hle hitems ⊢
    omega
  have hcontent : contentAt data index = .ok (w.toNat + wordSize, items.length) :=
    (contentAt_eq_ok_iff hdata).mpr ⟨w, hw, rfl, hfits, hcount⟩
  rw [unpack, hcontent, ok_bind]
  dsimp only
  rw [readSequence_of_block (length_drop_lt hdata) hsized hroom helem hblock.drop, normalize]

theorem readBack_array {length : Nat} (hlength : 0 < length)
    (hn : elem.Everywhere NumbersInRange) (hroom : elem.headSize ≠ 0)
    (helem : ∀ v p, Packed (elem, v) p → ReadBack (elem, v) p)
    (h : Packed (array elem length, v) p) : ReadBack (array elem length, v) p := by
  obtain ⟨hd, hpack⟩ := h
  intro data index hdata hplaced
  obtain ⟨items, parts, rfl, rfl, hparts, -, hbytes⟩ := pack_array_eq_ok_iff.mp hpack
  have hsized := sized_of_numbersInRange hparts (List.forall_mem_map.mpr fun _ _ ↦ hn)
  rw [isDynamic] at hd
  rw [unpack]
  by_cases helemd : elem.isDynamic = true
  · rw [helemd] at hd
    obtain ⟨w, hw, hb⟩ := (Part.placedAt_dynamic_iff hd).mp hplaced
    rw [← hbytes] at hb
    obtain ⟨hbody, hblock⟩ := block_of_standsAt hdata hw hb
    rw [if_pos helemd, hbody, ok_bind]
    dsimp only
    rw [readSequence_of_block (length_drop_lt hdata) hsized hroom helem hblock, normalize]
  · rw [Bool.eq_false_of_not_eq_true helemd] at hd
    have hb := (Part.placedAt_static_iff hd).mp hplaced
    rw [← hbytes] at hb
    -- the first element is why a word is there to be read
    have hword : index + wordSize ≤ data.length := by
      have hle := hb.length_le
      have hitems := length_mul_wordSize_le hsized hroom
      rw [wordSize] at hitems ⊢
      omega
    have hbody : arrayInPlace data index = .ok (data.drop index) :=
      (arrayInPlace_eq_ok_iff hdata).mpr ⟨hword, rfl⟩
    rw [if_neg helemd, hbody, ok_bind]
    dsimp only
    rw [readSequence_of_block (length_drop_lt hdata) hsized hroom helem hb.drop, normalize]

end Sequences

theorem readBack_tuple {structName : String} {fields : List (Field AbiType)} {v : Value} {p : Part}
    (hn : ∀ f ∈ fields, f.type.Everywhere NumbersInRange)
    (hfields : ∀ f ∈ fields, ∀ v p, Packed (f.type, v) p → ReadBack (f.type, v) p)
    (h : Packed (tuple structName fields, v) p) : ReadBack (tuple structName fields, v) p := by
  obtain ⟨hd, hpack⟩ := h
  intro data index hdata hplaced
  obtain ⟨entries, values, parts, rfl, hvalues, hparts, -, hbytes⟩ := pack_tuple_eq_ok_iff.mp hpack
  have hsized := sized_of_numbersInRange hparts (forall_mem_zip_types fun f hf _ ↦ hn f hf)
  rw [isDynamic] at hd
  rw [unpack]
  by_cases hany : anyDynamic fields = true
  · rw [hany] at hd
    obtain ⟨w, hw, hb⟩ := (Part.placedAt_dynamic_iff hd).mp hplaced
    rw [← hbytes] at hb
    obtain ⟨hbody, hblock⟩ := block_of_standsAt hdata hw hb
    rw [if_pos hany, hbody, ok_bind]
    dsimp only
    rw [unpackFields_of_block (length_drop_lt hdata) hvalues hsized hfields hblock, normalize]
    rfl
  · rw [Bool.eq_false_of_not_eq_true hany] at hd
    have hb := (Part.placedAt_static_iff hd).mp hplaced
    rw [← hbytes] at hb
    have hbody : tupleInPlace data index = .ok (data.drop index) :=
      tupleInPlace_eq_ok_iff.mpr ⟨hb.1, rfl⟩
    rw [if_neg hany, hbody, ok_bind]
    dsimp only
    rw [unpackFields_of_block (length_drop_lt hdata) hvalues hsized hfields hb.drop, normalize]
    rfl

/-- Whatever is packed is read back. -/
theorem readBack_of_packed {t : AbiType} (hn : t.Everywhere NumbersInRange)
    (hr : t.Everywhere ElemsTakeRoom) {v : Value} {p : Part} (h : Packed (t, v) p) :
    ReadBack (t, v) p := by
  induction t using induct generalizing v p with
  | uint bits =>
    intro data index hdata hplaced
    exact unpack_uint_of_standsAt hdata h.2 ((Part.placedAt_static_iff h.1).mp hplaced)
  | int bits =>
    intro data index hdata hplaced
    exact unpack_int_of_standsAt hdata h.2 ((Part.placedAt_static_iff h.1).mp hplaced)
  | bool =>
    intro data index hdata hplaced
    exact unpack_bool_of_standsAt hdata h.2 ((Part.placedAt_static_iff h.1).mp hplaced)
  | fixedBytes length =>
    intro data index hdata hplaced
    exact unpack_fixedBytes_of_standsAt hn.here.2 hdata h.2
      ((Part.placedAt_static_iff h.1).mp hplaced)
  | address =>
    intro data index hdata hplaced
    exact unpack_address_of_standsAt hdata h.2 ((Part.placedAt_static_iff h.1).mp hplaced)
  | function =>
    intro data index hdata hplaced
    exact unpack_function_of_standsAt hdata h.2 ((Part.placedAt_static_iff h.1).mp hplaced)
  | string =>
    intro data index hdata hplaced
    obtain ⟨w, hw, hb⟩ := (Part.placedAt_dynamic_iff h.1).mp hplaced
    exact unpack_string_of_counted hdata h.2 hw hb
  | bytes =>
    intro data index hdata hplaced
    obtain ⟨w, hw, hb⟩ := (Part.placedAt_dynamic_iff h.1).mp hplaced
    exact unpack_bytes_of_counted hdata h.2 hw hb
  | slice elem ih =>
    obtain ⟨-, hne⟩ := everywhere_slice_iff.mp hn
    obtain ⟨hroom, hre⟩ := everywhere_slice_iff.mp hr
    exact readBack_slice hne (hroom elem rfl) (fun _ _ ↦ ih hne hre) h
  | array elem length ih =>
    obtain ⟨hrange, hne⟩ := everywhere_array_iff.mp hn
    obtain ⟨hroom, hre⟩ := everywhere_array_iff.mp hr
    exact readBack_array hrange.1 hne (hroom elem rfl) (fun _ _ ↦ ih hne hre) h
  | tuple structName fields ih =>
    obtain ⟨-, hnf⟩ := everywhere_tuple_iff.mp hn
    obtain ⟨-, hrf⟩ := everywhere_tuple_iff.mp hr
    exact readBack_tuple hnf (fun f hf _ _ ↦ ih f hf (hnf f hf) (hrf f hf)) h

/-- **Round trip at any placement.** A static encoding is read back where it stands, a dynamic one
from any word that leads to it, whatever the other bytes of the payload are. -/
theorem unpack_of_pack {t : AbiType} (ht : t.Parsed) (hr : t.Everywhere ElemsTakeRoom) {v : Value}
    {b : Bytes} (hpack : t.pack v = .ok b) (hdata : data.length < offsetLimit)
    (hplaced : t.isDynamic = false ∧ b.StandsAt data index ∨
      t.isDynamic = true ∧
        ∃ w : Word, (Word.toBytes w).StandsAt data index ∧ b.StandsAt data w.toNat) :
    t.unpack index data = .ok (t.normalize v) ∧ t.NormalizesTo v (t.normalize v) ∧
      (t.NormalizesTo v v → t.unpack index data = .ok v) := by
  have hn := ht.numbersInRange
  have hp : (Part.mk t.isDynamic b).PlacedAt data index := by
    rcases hplaced with ⟨hs, hb⟩ | ⟨hd, hb⟩
    · exact (Part.placedAt_static_iff hs).mpr hb
    · exact (Part.placedAt_dynamic_iff hd).mpr hb
  have hread := readBack_of_packed hn hr (v := v) (p := ⟨t.isDynamic, b⟩) ⟨rfl, hpack⟩ hdata hp
  refine ⟨hread, normalizesTo_normalize hn hpack, fun hv ↦ ?_⟩
  rw [hread, normalize_eq_of_normalizesTo hv]

/-- Entries in another order than declared, with one too many, behind an offset. -/
theorem unpack_reordered_tuple :
    (tuple "" [⟨"a", "A", array (uint 8) 2⟩, ⟨"b", "B", bytes⟩]).unpack 1
        (1 :: countWord 40 ++ Bytes.zeros 7 ++
          (Word.toBytes 5 ++ Word.toBytes 3 ++ countWord 96 ++ counted [7]))
      = .ok (.tuple [("a", .array [.uint 5, .uint 3]), ("b", .bytes [7])]) := by
  have hparsed : Parsed (tuple "" [⟨"a", "A", array (uint 8) 2⟩, ⟨"b", "B", bytes⟩]) :=
    ⟨"tuple", "", [⟨"a", "uint8[2]", none, [], false⟩, ⟨"b", "bytes", none, [], false⟩], rfl⟩
  have hpack : (tuple "" [⟨"a", "A", array (uint 8) 2⟩, ⟨"b", "B", bytes⟩]).pack
      (.tuple [("b", .fixedBytes [7]), ("a", .array [.int 5, .uint 3]), ("c", .bool true)])
        = .ok (Word.toBytes 5 ++ Word.toBytes 3 ++ countWord 96 ++ counted [7]) := by
    decide +kernel
  exact (unpack_of_pack hparsed (by decide) hpack (by decide +kernel)
    (Or.inr ⟨rfl, 40, by decide +kernel, by decide +kernel⟩)).1

end AbiType

end ContractAbi
