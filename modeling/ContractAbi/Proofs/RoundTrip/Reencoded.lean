import ContractAbi.Proofs.Decoding.Inhabitants
import ContractAbi.Proofs.Encoding.Conforming
import ContractAbi.Proofs.RoundTrip.Placement

/-!
# Packing what was read

A value that was read packs, and its encoding is read as the same value, wherever the first one came
from. This needs the fields of each tuple to have raw names of their own: packing finds the value of
a field by the raw name, and of two fields with one name it gives both the value of the first.

Offsets may lead to the same bytes many times over, so a short payload can hold a value with a long
encoding. That it packs is a matter of the length of the encoding alone.
-/

namespace ContractAbi

open Decoding

namespace AbiType

/-- The fields of the outermost node have raw names of their own. -/
def DistinctRawNames : AbiType → Prop
  | tuple _ fields => (fields.map Field.rawName).Nodup
  | _ => True

instance : DecidablePred DistinctRawNames
  | tuple _ fields => inferInstanceAs (Decidable (fields.map Field.rawName).Nodup)
  | uint _ | int _ | bool | string | bytes | fixedBytes _ | address | function | slice _
  | array _ _ => inferInstanceAs (Decidable True)

/-! ## Entries -/

/-- Under distinct names every entry is the first one of its name. -/
theorem forall₂_firstEntry_of_nodup {fields : List (Field AbiType)} {values : List Value}
    (hnames : (fields.map Field.rawName).Nodup) (hlength : fields.length = values.length) :
    List.Forall₂ (FirstEntry ((fields.map Field.rawName).zip values)) fields values := by
  induction fields generalizing values with
  | nil =>
    rw [List.eq_nil_of_length_eq_zero hlength.symm]
    exact List.Forall₂.nil
  | cons f fields ih =>
    obtain ⟨v, rest, rfl⟩ := List.exists_cons_of_length_eq_add_one hlength.symm
    rw [List.map_cons, List.nodup_cons] at hnames
    rw [List.map_cons, List.zip_cons_cons]
    refine List.Forall₂.cons List.lookup_cons_self ?_
    have hother : ∀ g ∈ fields, (g.rawName == f.rawName) = false := fun g hg ↦
      beq_false_of_ne fun heq ↦ hnames.1 (heq ▸ List.mem_map_of_mem hg)
    refine List.Forall₂.imp ?_ ((List.forall₂_and_left fields rest).mpr
      ⟨hother, ih hnames.2 (Nat.succ.inj hlength)⟩)
    rintro g w ⟨hne, hg⟩
    rw [FirstEntry, List.lookup_cons, hne]
    exact hg

/-- A tuple of the type has its own value under each field. -/
theorem firstEntry_of_fieldsInhabited {fields : List (Field AbiType)}
    {entries : List (String × Value)} (hnames : (fields.map Field.rawName).Nodup)
    (h : FieldsInhabited fields entries) :
    ∃ values, List.Forall₂ FieldInhabited fields values ∧
      List.Forall₂ (FirstEntry entries) fields values ∧
      (fields.map Field.rawName).zip values = entries := by
  obtain ⟨values, hvalues, rfl⟩ := fieldsInhabited_iff.mp h
  exact ⟨values, hvalues, forall₂_firstEntry_of_nodup hnames hvalues.length_eq, rfl⟩

/-! ## Normal values -/

theorem map_normalize_zip {fields : List (Field AbiType)} {values : List Value}
    (h : List.Forall₂ FieldInhabited fields values)
    (hfields : ∀ f ∈ fields, ∀ v, f.type.Inhabits v → f.type.normalize v = v) :
    (((fields.map Field.type).zip values).map fun x ↦ x.1.normalize x.2) = values := by
  induction h with
  | nil => rfl
  | @cons f v _ _ hv _ ih =>
    obtain ⟨hf, hrest⟩ := List.forall_mem_cons.mp hfields
    rw [List.map_cons, List.zip_cons_cons, List.map_cons, ih hrest, hf v hv]

/-- What belongs to a type is as the type writes it. -/
theorem normalize_eq_self {t : AbiType} (hd : t.Everywhere DistinctRawNames) {v : Value}
    (h : t.Inhabits v) : t.normalize v = v := by
  induction t using induct generalizing v with
  | uint bits => cases v <;> first | rfl | cases h
  | int bits => cases v <;> first | rfl | cases h
  | bytes => cases v <;> first | rfl | cases h
  | fixedBytes length => cases v <;> first | rfl | cases h
  | slice elem ih =>
    have hdelem := (everywhere_slice_iff.mp hd).2
    cases v with
    | array items => rw [normalize, List.map_congr_left fun v hv ↦ ih hdelem (h v hv), List.map_id']
    | _ => cases h
  | array elem length ih =>
    have hdelem := (everywhere_array_iff.mp hd).2
    cases v with
    | array items =>
      rw [normalize, List.map_congr_left fun v hv ↦ ih hdelem (h.2 v hv), List.map_id']
    | _ => cases h
  | tuple structName fields ih =>
    obtain ⟨hnames, hdfields⟩ := everywhere_tuple_iff.mp hd
    cases v with
    | tuple entries =>
      obtain ⟨values, hin, hfirst, hzip⟩ := firstEntry_of_fieldsInhabited hnames h
      rw [normalize, normalizeFields_eq hfirst,
        map_normalize_zip hin fun f hf _ hv ↦ ih f hf (hdfields f hf) hv, hzip]
    | _ => cases h
  | _ => rfl

/-! ## Packing -/

/-- What belongs to a type is taken by it. -/
theorem conforms_of_inhabits {t : AbiType} (hn : t.Everywhere NumbersInRange)
    (hd : t.Everywhere DistinctRawNames) {v : Value} (h : t.Inhabits v) : t.Conforms v := by
  induction t using induct generalizing v with
  | uint bits =>
    cases v with
    | uint w =>
      have hcast : ((2 ^ bits : Nat) : Int) = 2 ^ bits := by norm_cast
      have hlt := Word.fitsUnsigned_iff.mp h
      exact ⟨w.toNat, rfl, by omega, by omega⟩
    | _ => cases h
  | int bits =>
    cases v with
    | int w => exact ⟨w.toInt, rfl, (Word.fitsSigned_iff hn.here.1).mp h⟩
    | _ => cases h
  | bytes =>
    cases v with
    | bytes c => exact ⟨c, rfl⟩
    | _ => cases h
  | fixedBytes length =>
    cases v with
    | fixedBytes c => exact ⟨c, rfl, h⟩
    | _ => cases h
  | slice elem ih =>
    have hne := (everywhere_slice_iff.mp hn).2
    have hde := (everywhere_slice_iff.mp hd).2
    cases v with
    | array items => exact fun v hv ↦ ih hne hde (h v hv)
    | _ => cases h
  | array elem length ih =>
    have hne := (everywhere_array_iff.mp hn).2
    have hde := (everywhere_array_iff.mp hd).2
    cases v with
    | array items => exact ⟨h.1, fun v hv ↦ ih hne hde (h.2 v hv)⟩
    | _ => cases h
  | tuple structName fields ih =>
    have hnf := (everywhere_tuple_iff.mp hn).2
    obtain ⟨hnames, hdf⟩ := everywhere_tuple_iff.mp hd
    cases v with
    | tuple entries =>
      obtain ⟨values, hin, hfirst, -⟩ := firstEntry_of_fieldsInhabited hnames h
      have hfields : ∀ f ∈ fields, ∀ v, f.type.Inhabits v → f.type.Conforms v :=
        fun f hf _ hv ↦ ih f hf (hnf f hf) (hdf f hf) hv
      rw [Conforms, fieldsConform_iff_forall₂ hfirst, List.forall₂_map_left_iff]
      refine List.Forall₂.imp ?_ ((List.forall₂_and_left fields values).mpr ⟨hfields, hin⟩)
      rintro f v ⟨hf, hv⟩
      exact hf v hv
    | _ => cases h
  | _ => cases v <;> trivial

theorem exists_pack_of_inhabits {t : AbiType} (hn : t.Everywhere NumbersInRange)
    (hd : t.Everywhere DistinctRawNames) {v : Value} (h : t.Inhabits v)
    (hlength : (t.encoding v).length ≤ Count.limit) : ∃ b, t.pack v = .ok b :=
  exists_pack_of_conforms hn (conforms_of_inhabits hn hd h) hlength

/-! ## Reading again -/

/-- **What was read is packed, and read again from its encoding**, if the fields of each tuple have
raw names of their own and the encoding is no longer than a count. -/
theorem unpack_pack_of_unpack {t : AbiType} (ht : t.Parsed) (hr : t.Everywhere ElemsTakeRoom)
    (hd : t.Everywhere DistinctRawNames) {index : Nat} {data : Bytes} {v : Value}
    (hdata : data.length < offsetLimit) (h : t.unpack index data = .ok v)
    (hlength : (t.encoding v).length ≤ Count.limit) :
    ∃ b, t.pack v = .ok b ∧ (b.length + wordSize < offsetLimit →
      (t.isDynamic = false → t.unpack 0 b = .ok v) ∧
        (t.isDynamic = true → t.unpack 0 (countWord wordSize ++ b) = .ok v)) := by
  have hn := ht.numbersInRange
  have hv := inhabits_of_unpack hn index data v hdata h
  obtain ⟨b, hb⟩ := exists_pack_of_inhabits hn hd hv hlength
  have hread {payload : Bytes} (hlt : payload.length < offsetLimit)
      (hplaced : (Part.mk t.isDynamic b).PlacedAt payload 0) : t.unpack 0 payload = .ok v := by
    rw [readBack_of_packed hn hr ⟨rfl, hb⟩ hlt hplaced, normalize_eq_self hd hv]
  refine ⟨b, hb, fun hlt ↦ ⟨fun hs ↦ ?_, fun hdyn ↦ ?_⟩⟩
  · exact hread (by omega) ((Part.placedAt_static_iff hs).mpr (Bytes.standsAt_self b))
  · have hblock := Bytes.standsAt_self (countWord wordSize ++ b)
    rw [Bytes.standsAt_append_iff, length_countWord] at hblock
    refine hread ?_ ((Part.placedAt_dynamic_iff hdyn).mpr ⟨_, hblock.1, hblock.2⟩)
    rw [List.length_append, length_countWord]
    omega

/-- Two elements that lie in the same place are packed one after the other. -/
theorem unpack_pack_of_unpack_overlapping :
    (slice bytes).unpack 1 (0 :: countWord 33 ++ countWord 2 ++ countWord 64 ++ countWord 64
        ++ countWord 1 ++ [7]) = .ok (.array [.bytes [7], .bytes [7]]) ∧
      (slice bytes).pack (.array [.bytes [7], .bytes [7]])
        = .ok (countWord 2 ++ countWord 64 ++ countWord 128 ++ counted [7] ++ counted [7]) ∧
      (slice bytes).unpack 0 (countWord wordSize ++
          (countWord 2 ++ countWord 64 ++ countWord 128 ++ counted [7] ++ counted [7]))
        = .ok (.array [.bytes [7], .bytes [7]]) := by
  have hparsed : (slice bytes).Parsed := ⟨"bytes[]", "", [], rfl⟩
  have hread : (slice bytes).unpack 1 (0 :: countWord 33 ++ countWord 2 ++ countWord 64
      ++ countWord 64 ++ countWord 1 ++ [7]) = .ok (.array [.bytes [7], .bytes [7]]) := by
    decide +kernel
  have hpack : (slice bytes).pack (.array [.bytes [7], .bytes [7]])
      = .ok (countWord 2 ++ countWord 64 ++ countWord 128 ++ counted [7] ++ counted [7]) := by
    decide +kernel
  obtain ⟨b, hb, hagain⟩ := unpack_pack_of_unpack hparsed (by decide) (by decide)
    (by decide +kernel) hread (by decide +kernel)
  obtain rfl := Except.ok.inj (hb.symm.trans hpack)
  exact ⟨hread, hb, (hagain (by decide +kernel)).2 rfl⟩

/-- Of two fields with one raw name the second one is packed with the value of the first. -/
theorem unpack_pack_ne_of_same_raw_name :
    (tuple "" [⟨"a", "A", uint 8⟩, ⟨"a", "A0", uint 8⟩]).Parsed ∧
      (tuple "" [⟨"a", "A", uint 8⟩, ⟨"a", "A0", uint 8⟩]).Everywhere ElemsTakeRoom ∧
      (tuple "" [⟨"a", "A", uint 8⟩, ⟨"a", "A0", uint 8⟩]).unpack 0 (countWord 1 ++ countWord 2)
        = .ok (.tuple [("a", .uint 1), ("a", .uint 2)]) ∧
      (tuple "" [⟨"a", "A", uint 8⟩, ⟨"a", "A0", uint 8⟩]).pack
        (.tuple [("a", .uint 1), ("a", .uint 2)]) = .ok (countWord 1 ++ countWord 1) ∧
      (tuple "" [⟨"a", "A", uint 8⟩, ⟨"a", "A0", uint 8⟩]).unpack 0 (countWord 1 ++ countWord 1)
        = .ok (.tuple [("a", .uint 1), ("a", .uint 1)]) := by
  refine ⟨⟨"tuple", "", [⟨"a", "uint8", none, [], false⟩, ⟨"a", "uint8", none, [], false⟩], ?_⟩,
    by decide, ?_, ?_, ?_⟩
  · decide +kernel
  · decide +kernel
  · decide +kernel
  · decide +kernel

end AbiType

end ContractAbi
