import ContractAbi.Proofs.Encoding.Standard
import ContractAbi.Proofs.Ranges

/-!
# Conforming values

The values that a type takes, said in numbers and without packing them: an integer of either variant
in the range of the type, a byte string of either kind, of the right length if the type has one, as
many items as an array has, and for each field of a tuple the first entry of its raw name. Other
entries may stand beside those.

Every conforming value packs to its encoding, provided that the length of the encoding is a count.
That proviso is all there is: a block is measured when it is laid out, and no block on the way is
longer than the whole.
-/

namespace ContractAbi

/-- Every part is somewhere in the block. -/
theorem Part.length_le_length_block {parts : List Part} {p : Part} (hp : p ∈ parts) :
    p.bytes.length ≤ (block parts).length := by
  have hhead : p.headLength ≤ headTotal parts := List.le_sum_of_mem (List.mem_map_of_mem hp)
  have htail : p.tailLength ≤ tailTotal parts := List.le_sum_of_mem (List.mem_map_of_mem hp)
  rw [length_block]
  rw [headLength] at hhead
  rw [tailLength] at htail
  split at hhead
  · rename_i hd
    rw [if_pos hd] at htail
    omega
  · omega

namespace AbiType

/-! ## Definition -/

mutual

/-- The type takes the value. -/
def Conforms : AbiType → Value → Prop
  | .uint bits, v => ∃ x, v.integer? = some x ∧ 0 ≤ x ∧ x < 2 ^ bits
  | .int bits, v => ∃ x, v.integer? = some x ∧ -(2 ^ (bits - 1)) ≤ x ∧ x < 2 ^ (bits - 1)
  | .bytes, v => ∃ content, v.bytes? = some content
  | .fixedBytes length, v => ∃ content, v.bytes? = some content ∧ content.length = length
  | .slice elem, .array items => ∀ v ∈ items, Conforms elem v
  | .array elem length, .array items => items.length = length ∧ ∀ v ∈ items, Conforms elem v
  | .tuple _ fields, .tuple entries => FieldsConform fields entries
  | .bool, .bool _ | .string, .string _ | .address, .address _ | .function, .function _ => True
  | _, _ => False

/-- For each field the first entry of its raw name is there and conforms. -/
def FieldsConform : List (Field AbiType) → List (String × Value) → Prop
  | [], _ => True
  | f :: fields, entries =>
    (∃ v, entries.lookup f.rawName = some v ∧ Conforms f.type v) ∧ FieldsConform fields entries

end

theorem fieldsConform_iff {fields : List (Field AbiType)} {entries : List (String × Value)} :
    FieldsConform fields entries ↔
      ∀ f ∈ fields, ∃ v, FirstEntry entries f v ∧ f.type.Conforms v := by
  induction fields with
  | nil => exact iff_of_true trivial (List.forall_mem_nil _)
  | cons f fields ih => rw [FieldsConform, ih, List.forall_mem_cons]; rfl

/-- The entries that the fields ask for, in their order. -/
theorem exists_firstEntries {fields : List (Field AbiType)} {entries : List (String × Value)}
    (h : ∀ f ∈ fields, ∃ v, FirstEntry entries f v) :
    ∃ values, List.Forall₂ (FirstEntry entries) fields values := by
  induction fields with
  | nil => exact ⟨[], List.Forall₂.nil⟩
  | cons f fields ih =>
    obtain ⟨⟨v, hv⟩, hrest⟩ := List.forall_mem_cons.mp h
    obtain ⟨values, hvalues⟩ := ih hrest
    exact ⟨v :: values, List.Forall₂.cons hv hvalues⟩

/-- There is one first entry of a name at most. -/
theorem fieldsConform_iff_forall₂ {fields : List (Field AbiType)} {entries : List (String × Value)}
    {values : List Value} (hvalues : List.Forall₂ (FirstEntry entries) fields values) :
    FieldsConform fields entries ↔ List.Forall₂ Conforms (fields.map Field.type) values := by
  induction hvalues with
  | nil => exact iff_of_true trivial List.Forall₂.nil
  | cons hv _ ih =>
    rw [FirstEntry] at hv
    rw [FieldsConform, ih, List.map_cons, List.forall₂_cons, hv]
    simp only [Option.some.injEq, exists_eq_left']

/-! ## Integers -/

theorem pack_uint_of_conforms {bits : Nat} {v : Value} (h : (uint bits).Conforms v) :
    ∃ b, (uint bits).pack v = .ok b := by
  obtain ⟨x, hx, hlow, hhigh⟩ := h
  have hcast : ((2 ^ bits : Nat) : Int) = 2 ^ bits := by norm_cast
  cases v with
  | uint w =>
    obtain rfl := Option.some.inj hx
    exact ⟨_, pack_uint_eq_ok_iff.mpr ⟨w, rfl, Word.fitsUnsigned_iff.mpr (by omega), Or.inl rfl⟩⟩
  | int w =>
    obtain rfl := Option.some.inj hx
    have hmsb : w.msb = false := by
      rw [BitVec.msb_eq_toInt]
      exact decide_eq_false (by omega)
    rw [BitVec.toInt_eq_toNat_of_msb hmsb] at hhigh
    exact ⟨_, pack_uint_eq_ok_iff.mpr
      ⟨w, rfl, Word.fitsUnsigned_iff.mpr (by omega), Or.inr ⟨rfl, hmsb⟩⟩⟩
  | _ => cases hx

theorem pack_int_of_conforms {bits : Nat} (hbits : 0 < bits) {v : Value}
    (h : (int bits).Conforms v) : ∃ b, (int bits).pack v = .ok b := by
  obtain ⟨x, hx, hlow, hhigh⟩ := h
  cases v with
  | uint w =>
    obtain rfl := Option.some.inj hx
    have hcast : ((2 ^ (bits - 1) : Nat) : Int) = 2 ^ (bits - 1) := by norm_cast
    exact ⟨_, pack_int_eq_ok_iff.mpr
      ⟨w, rfl, Or.inr ⟨rfl, (Word.bitLength_lt_iff hbits).mpr (by omega)⟩⟩⟩
  | int w =>
    obtain rfl := Option.some.inj hx
    exact ⟨_, pack_int_eq_ok_iff.mpr
      ⟨w, rfl, Or.inl ⟨rfl, (Word.fitsSigned_iff hbits).mpr ⟨hlow, hhigh⟩⟩⟩⟩
  | _ => cases hx

/-! ## Conforming values pack -/

/-- Components pack if each of them does, provided that their block is not too long. -/
theorem packed_standardPart {xs : List (AbiType × Value)}
    (hn : ∀ x ∈ xs, x.1.Everywhere NumbersInRange)
    (hlength : (Part.standardBlock (xs.map standardPart)).length ≤ Count.limit)
    (hpack : ∀ x ∈ xs, (x.1.encoding x.2).length ≤ Count.limit → ∃ b, x.1.pack x.2 = .ok b) :
    List.Forall₂ Packed xs (xs.map standardPart) := by
  rw [Part.standardBlock_eq] at hlength
  rw [List.forall₂_map_right_iff, List.forall₂_same]
  intro x hx
  have hmem : standardPart x ∈ xs.map standardPart := List.mem_map_of_mem hx
  obtain ⟨b, hb⟩ := hpack x hx ((Part.length_le_length_block hmem).trans hlength)
  refine ⟨rfl, ?_⟩
  rw [hb, standardPart, (standard_of_pack (hn x hx) hb).1]

theorem exists_pack_of_conforms {t : AbiType} (hn : t.Everywhere NumbersInRange) {v : Value}
    (h : t.Conforms v) (hlength : (t.encoding v).length ≤ Count.limit) :
    ∃ b, t.pack v = .ok b := by
  induction t using induct generalizing v with
  | uint bits => exact pack_uint_of_conforms h
  | int bits => exact pack_int_of_conforms hn.here.1 h
  | bool =>
    cases v with
    | bool c => exact ⟨_, rfl⟩
    | _ => cases h
  | string =>
    cases v with
    | string s => exact ⟨_, rfl⟩
    | _ => cases h
  | bytes =>
    obtain ⟨c, hc⟩ := h
    exact ⟨_, pack_bytes_eq_ok_iff.mpr ⟨c, hc, rfl⟩⟩
  | fixedBytes length =>
    obtain ⟨c, hc, hcount⟩ := h
    exact ⟨_, pack_fixedBytes_eq_ok_iff.mpr ⟨c, hc, hcount, rfl⟩⟩
  | address =>
    cases v with
    | address a => exact ⟨_, rfl⟩
    | _ => cases h
  | function =>
    cases v with
    | function f => exact ⟨_, rfl⟩
    | _ => cases h
  | slice elem ih =>
    have helem := (everywhere_slice_iff.mp hn).2
    cases v with
    | array items =>
      rw [encoding, ← itemParts, itemParts_eq, List.length_append] at hlength
      have hblock := Nat.le_of_add_left_le hlength
      have hparts := packed_standardPart (List.forall_mem_map.mpr fun _ _ ↦ helem) hblock
        (List.forall_mem_map.mpr fun v hv hle ↦ ih helem (h v hv) hle)
      rw [Part.standardBlock_eq] at hblock
      exact ⟨_, pack_slice_eq_ok_iff.mpr ⟨items, _, rfl, hparts, hblock, rfl⟩⟩
    | _ => cases h
  | array elem length ih =>
    have helem := (everywhere_array_iff.mp hn).2
    cases v with
    | array items =>
      obtain ⟨hcount, hitems⟩ := h
      rw [encoding, ← itemParts, itemParts_eq] at hlength
      have hparts := packed_standardPart (List.forall_mem_map.mpr fun _ _ ↦ helem) hlength
        (List.forall_mem_map.mpr fun v hv hle ↦ ih helem (hitems v hv) hle)
      rw [Part.standardBlock_eq] at hlength
      exact ⟨_, pack_array_eq_ok_iff.mpr ⟨items, _, rfl, hcount, hparts, hlength, rfl⟩⟩
    | _ => cases h
  | tuple structName fields ih =>
    have hfields := (everywhere_tuple_iff.mp hn).2
    cases v with
    | tuple entries =>
      obtain ⟨values, hvalues⟩ := exists_firstEntries fun f hf ↦
        (fieldsConform_iff.mp h f hf).imp fun _ ↦ And.left
      rw [encoding, fieldParts_eq hvalues] at hlength
      have hpack : ∀ x ∈ (fields.map Field.type).zip values,
          (x.1.encoding x.2).length ≤ Count.limit → ∃ b, x.1.pack x.2 = .ok b := by
        rintro ⟨t, v⟩ hx hle
        have hv := List.forall₂_zip ((fieldsConform_iff_forall₂ hvalues).mp h) hx
        obtain ⟨f, hf, rfl⟩ := List.mem_map.mp (List.of_mem_zip hx).1
        exact ih f hf (hfields f hf) hv hle
      have hparts :=
        packed_standardPart (forall_mem_zip_types fun f hf _ ↦ hfields f hf) hlength hpack
      rw [Part.standardBlock_eq] at hlength
      exact ⟨_, pack_tuple_eq_ok_iff.mpr
        ⟨entries, values, _, rfl, hvalues, hparts, hlength, rfl⟩⟩
    | _ => cases h

end AbiType

end ContractAbi
