import Mathlib.Algebra.Order.BigOperators.Group.List
import ContractAbi.Arguments
import ContractAbi.Proofs.AbiType.HeadWidth
import ContractAbi.Proofs.AbiType.Parsed
import ContractAbi.Proofs.Encoding.Blocks
import ContractAbi.Proofs.Encoding.Leaves

/-!
# What packing produces

Slices, arrays, tuples and argument lists are packed by three loops that do one thing: they pack a
list of types and values to a list of parts, which is then laid out. `AbiType.Packed` is that
relation, pair by pair. From it follows what the layout cannot know: the part of a static type is
as long as its exact head size, whatever the value, so the positions that packing measures are those
that unpacking computes.
-/

namespace ContractAbi

namespace AbiType

/-! ## Pairs and parts -/

/-- The part is the encoding of the value under the type. -/
def Packed (x : AbiType × Value) (p : Part) : Prop :=
  p.isDynamic = x.1.isDynamic ∧ x.1.pack x.2 = .ok p.bytes

/-- The part that a value becomes. -/
def packPart (x : AbiType × Value) : Except AbiError Part := do
  return ⟨x.1.isDynamic, ← x.1.pack x.2⟩

theorem packPart_eq_ok_iff {x : AbiType × Value} {p : Part} :
    packPart x = .ok p ↔ Packed x p := by
  rw [packPart, bind_eq_ok_iff, Packed]
  constructor
  · rintro ⟨b, hb, h⟩
    rw [← Except.ok.inj h]
    exact ⟨rfl, hb⟩
  · rintro ⟨hd, hb⟩
    exact ⟨p.bytes, hb, by rw [← hd]; rfl⟩

theorem mapM_packPart_eq_ok_iff {xs : List (AbiType × Value)} {parts : List Part} :
    xs.mapM packPart = .ok parts ↔ List.Forall₂ Packed xs parts := by
  rw [mapM_eq_ok_iff]
  simp only [packPart_eq_ok_iff]

/-- What holds of the types in a list holds of its pairs with any values. -/
theorem forall_mem_zip_types {α : Type} {type : α → AbiType} {as : List α} {values : List Value}
    {p : AbiType × Value → Prop} (h : ∀ a ∈ as, ∀ v, p (type a, v)) :
    ∀ x ∈ (as.map type).zip values, p x := by
  rintro ⟨t, v⟩ hx
  obtain ⟨a, ha, rfl⟩ := List.mem_map.mp (List.of_mem_zip hx).1
  exact h a ha v

/-- Every pair of a list that packs is packed to something. -/
theorem exists_pack_of_mem {xs : List (AbiType × Value)} {parts : List Part}
    (h : List.Forall₂ Packed xs parts) {x : AbiType × Value} (hx : x ∈ xs) :
    ∃ b, x.1.pack x.2 = .ok b := by
  have hall : ∀ x ∈ xs, ∃ b, x.1.pack x.2 = .ok b :=
    forall_mem_of_forall₂ h.flip fun p _ _ hp ↦ ⟨p.bytes, hp.2⟩
  exact hall x hx

theorem packFields_eq (fields : List (Field AbiType)) (values : List Value) :
    packFields fields values = ((fields.map Field.type).zip values).mapM packPart := by
  induction fields generalizing values with
  | nil => cases values <;> rfl
  | cons f fields ih =>
    cases values with
    | nil => rfl
    | cons v values =>
      rw [packFields, ih, List.map_cons, List.zip_cons_cons, List.mapM_cons, packPart]
      simp only [bind_assoc, pure_bind]

theorem parts_eq (args : Arguments) (values : List Value) :
    args.parts values = ((args.map Argument.type).zip values).mapM packPart := by
  induction args generalizing values with
  | nil => cases values <;> rfl
  | cons a args ih =>
    cases values with
    | nil => rfl
    | cons v values =>
      rw [Arguments.parts, ih, List.map_cons, List.zip_cons_cons, List.mapM_cons, packPart]
      simp only [bind_assoc, pure_bind]

/-! ## Composite types -/

theorem pack_slice_eq (elem : AbiType) (items : List Value) :
    (slice elem).pack (.array items) = do
      let parts ← (items.map (elem, ·)).mapM packPart
      return countWord items.length ++ (← Part.layout parts) := by
  rw [pack, List.mapM_map]
  rfl

theorem pack_array_eq (elem : AbiType) (length : Nat) (items : List Value) :
    (array elem length).pack (.array items) = if items.length = length then do
        let parts ← (items.map (elem, ·)).mapM packPart
        Part.layout parts
      else .error (.typeMismatch (array elem length).canonical (.arrayOfLength items.length)) := by
  rw [pack, List.mapM_map]
  rfl

theorem pack_slice_eq_ok_iff {elem : AbiType} {v : Value} {b : Bytes} :
    (slice elem).pack v = .ok b ↔ ∃ items parts, v = .array items ∧
      List.Forall₂ Packed (items.map (elem, ·)) parts ∧
      (Part.block parts).length ≤ Count.limit ∧ countWord items.length ++ Part.block parts = b := by
  cases v with
  | array items =>
    rw [pack_slice_eq, bind_eq_ok_iff]
    constructor
    · rintro ⟨parts, hparts, h⟩
      obtain ⟨body, hbody, h⟩ := bind_eq_ok_iff.mp h
      obtain ⟨hlen, rfl⟩ := Part.layout_eq_ok_iff.mp hbody
      exact ⟨items, parts, rfl, mapM_packPart_eq_ok_iff.mp hparts, hlen, Except.ok.inj h⟩
    · rintro ⟨items, parts, hitems, hparts, hlen, rfl⟩
      cases hitems
      have hbody : Part.layout parts = .ok (Part.block parts) :=
        Part.layout_eq_ok_iff.mpr ⟨hlen, rfl⟩
      exact ⟨parts, mapM_packPart_eq_ok_iff.mpr hparts, by rw [hbody]; rfl⟩
  | _ => simp [pack, packLeaf]

theorem pack_array_eq_ok_iff {elem : AbiType} {length : Nat} {v : Value} {b : Bytes} :
    (array elem length).pack v = .ok b ↔ ∃ items parts, v = .array items ∧ items.length = length ∧
      List.Forall₂ Packed (items.map (elem, ·)) parts ∧
      (Part.block parts).length ≤ Count.limit ∧ Part.block parts = b := by
  cases v with
  | array items =>
    rw [pack_array_eq]
    by_cases hlength : items.length = length
    · rw [if_pos hlength, bind_eq_ok_iff]
      constructor
      · rintro ⟨parts, hparts, h⟩
        exact ⟨items, parts, rfl, hlength, mapM_packPart_eq_ok_iff.mp hparts,
          Part.layout_eq_ok_iff.mp h⟩
      · rintro ⟨items, parts, hitems, -, hparts, h⟩
        cases hitems
        exact ⟨parts, mapM_packPart_eq_ok_iff.mpr hparts, Part.layout_eq_ok_iff.mpr h⟩
    · rw [if_neg hlength]
      constructor
      · intro h
        cases h
      · rintro ⟨items, parts, hitems, hlen, -⟩
        cases hitems
        exact absurd hlen hlength
  | _ => simp [pack, packLeaf]

/-- The first entry of a field's raw name. -/
def FirstEntry (entries : List (String × Value)) (f : Field AbiType) (v : Value) : Prop :=
  entries.lookup f.rawName = some v

theorem select_eq_ok_iff {fields : List (Field AbiType)} {entries : List (String × Value)}
    {values : List Value} :
    select fields entries = .ok values ↔ List.Forall₂ (FirstEntry entries) fields values := by
  rw [select, mapM_eq_ok_iff]
  have hentry (f : Field AbiType) (v : Value) :
      Value.entry entries f.rawName = .ok v ↔ FirstEntry entries f v := by
    rw [Value.entry, FirstEntry]
    split
    · rename_i w hw
      rw [hw, Except.ok.injEq, Option.some.injEq]
    · rename_i hnone
      simp [hnone]
  simp only [hentry]

theorem pack_tuple_eq_ok_iff {structName : String} {fields : List (Field AbiType)} {v : Value}
    {b : Bytes} :
    (tuple structName fields).pack v = .ok b ↔ ∃ entries values parts, v = .tuple entries ∧
      List.Forall₂ (FirstEntry entries) fields values ∧
      List.Forall₂ Packed ((fields.map Field.type).zip values) parts ∧
      (Part.block parts).length ≤ Count.limit ∧ Part.block parts = b := by
  cases v with
  | tuple entries =>
    rw [pack, bind_eq_ok_iff]
    constructor
    · rintro ⟨values, hvalues, h⟩
      obtain ⟨parts, hparts, h⟩ := bind_eq_ok_iff.mp h
      rw [packFields_eq, mapM_packPart_eq_ok_iff] at hparts
      exact ⟨entries, values, parts, rfl, select_eq_ok_iff.mp hvalues, hparts,
        Part.layout_eq_ok_iff.mp h⟩
    · rintro ⟨entries, values, parts, hentries, hvalues, hparts, h⟩
      cases hentries
      refine ⟨values, select_eq_ok_iff.mpr hvalues, bind_eq_ok_iff.mpr ⟨parts, ?_, ?_⟩⟩
      · rw [packFields_eq]
        exact mapM_packPart_eq_ok_iff.mpr hparts
      · exact Part.layout_eq_ok_iff.mpr h
  | _ => simp [pack, packLeaf]

end AbiType

theorem Arguments.pack_eq_ok_iff {args : Arguments} {values : List Value} {b : Bytes} :
    args.pack values = .ok b ↔ ∃ parts, values.length = args.length ∧
      List.Forall₂ AbiType.Packed ((args.map Argument.type).zip values) parts ∧
      (Part.block parts).length ≤ Count.limit ∧ Part.block parts = b := by
  rw [pack, AbiType.parts_eq]
  by_cases hlength : values.length = args.length
  · rw [if_pos hlength, bind_eq_ok_iff]
    simp only [AbiType.mapM_packPart_eq_ok_iff, Part.layout_eq_ok_iff, hlength, true_and]
  · rw [if_neg hlength]
    simp [hlength]

namespace AbiType

/-! ## Lengths -/

/-- The length of an encoding under the type: whole words, as many as the head size says if the
type is static, and one at least if it is dynamic. -/
structure Measures (t : AbiType) (b : Bytes) : Prop where
  aligned : wordSize ∣ b.length
  static : t.isDynamic = false → b.length = t.headWidth
  dynamic : t.isDynamic = true → wordSize ≤ b.length

/-- The relation of pairs and parts, with the lengths of the parts. -/
def Sized (x : AbiType × Value) (p : Part) : Prop :=
  Packed x p ∧ x.1.Measures p.bytes

theorem Sized.headLength {x : AbiType × Value} {p : Part} (h : Sized x p) :
    p.headLength = x.1.headWidth := by
  obtain ⟨⟨hd, -⟩, hm⟩ := h
  by_cases hx : x.1.isDynamic = true
  · rw [Part.headLength_of_dynamic (by rw [hd, hx]), headWidth_of_isDynamic hx]
  · rw [Bool.not_eq_true] at hx
    rw [Part.headLength_of_static (by rw [hd, hx]), hm.static hx]

theorem Sized.wordSize_dvd_tailLength {x : AbiType × Value} {p : Part} (h : Sized x p) :
    wordSize ∣ p.tailLength := by
  rw [Part.tailLength]
  split
  · exact h.2.aligned
  · exact Nat.dvd_zero _

section Blocks

variable {xs : List (AbiType × Value)} {parts : List Part}

theorem sized_of_packed (h : List.Forall₂ Packed xs parts)
    (hm : ∀ x ∈ xs, ∀ b, x.1.pack x.2 = .ok b → x.1.Measures b) : List.Forall₂ Sized xs parts := by
  refine List.Forall₂.imp ?_ ((List.forall₂_and_left xs parts).mpr ⟨hm, h⟩)
  rintro x p ⟨hx, hp⟩
  exact ⟨hp, hx _ hp.2⟩

theorem headTotal_eq_sum (h : List.Forall₂ Sized xs parts) :
    Part.headTotal parts = ((xs.map Prod.fst).map headWidth).sum := by
  induction h with
  | nil => rfl
  | cons hx _ ih => rw [Part.headTotal_cons, hx.headLength, ih]; rfl

theorem wordSize_dvd_headTotal (h : List.Forall₂ Sized xs parts) :
    wordSize ∣ Part.headTotal parts := by
  induction h with
  | nil => exact Nat.dvd_zero _
  | @cons x p _ _ hx _ ih =>
    rw [Part.headTotal_cons, hx.headLength]
    exact Nat.dvd_add (wordSize_dvd_headWidth x.1) ih

theorem wordSize_dvd_tailTotal (h : List.Forall₂ Sized xs parts) :
    wordSize ∣ Part.tailTotal parts := by
  induction h with
  | nil => exact Nat.dvd_zero _
  | cons hx _ ih =>
    rw [Part.tailTotal_cons]
    exact Nat.dvd_add hx.wordSize_dvd_tailLength ih

theorem wordSize_dvd_length_block (h : List.Forall₂ Sized xs parts) :
    wordSize ∣ (Part.block parts).length := by
  rw [Part.length_block]
  exact Nat.dvd_add (wordSize_dvd_headTotal h) (wordSize_dvd_tailTotal h)

theorem tailTotal_eq_zero (h : List.Forall₂ Sized xs parts)
    (hs : ∀ x ∈ xs, x.1.isDynamic = false) : Part.tailTotal parts = 0 := by
  induction h with
  | nil => rfl
  | cons hx _ ih =>
    obtain ⟨hstatic, hrest⟩ := List.forall_mem_cons.mp hs
    rw [Part.tailTotal_cons, ih hrest, Part.tailLength_of_static (by rw [hx.1.1, hstatic])]

/-- A block of static parts is all head. -/
theorem length_block_of_static (h : List.Forall₂ Sized xs parts)
    (hs : ∀ x ∈ xs, x.1.isDynamic = false) :
    (Part.block parts).length = ((xs.map Prod.fst).map headWidth).sum := by
  rw [Part.length_block, tailTotal_eq_zero h hs, Nat.add_zero, headTotal_eq_sum h]

/-- One dynamic part makes the head a word long. -/
theorem wordSize_le_length_block (h : List.Forall₂ Sized xs parts) {x : AbiType × Value}
    (hx : x ∈ xs) (hd : x.1.isDynamic = true) : wordSize ≤ (Part.block parts).length := by
  have hle : x.1.headWidth ≤ ((xs.map Prod.fst).map headWidth).sum :=
    List.le_sum_of_mem (List.mem_map_of_mem (List.mem_map_of_mem hx))
  rw [headWidth_of_isDynamic hd, ← headTotal_eq_sum h] at hle
  rw [Part.length_block]
  exact Nat.le_add_right_of_le hle

end Blocks

theorem Measures.of_word {t : AbiType} (hs : t.isDynamic = false) (hw : t.headWidth = wordSize)
    {b : Bytes} (hb : b.length = wordSize) : t.Measures b where
  aligned := by rw [hb]
  static _ := by rw [hb, hw]
  dynamic hd := by rw [hs] at hd; cases hd

theorem Measures.of_counted {t : AbiType} (hd : t.isDynamic = true) (content : Bytes) :
    t.Measures (counted content) where
  aligned := by
    rw [length_counted]
    exact Nat.dvd_add (Nat.dvd_refl _) (wordSize_dvd_length_append_padding content)
  static hs := by rw [hd] at hs; cases hs
  dynamic _ := by
    rw [length_counted]
    exact Nat.le_add_right _ _

theorem map_fst_map_pair (elem : AbiType) (items : List Value) :
    (items.map (elem, ·)).map Prod.fst = List.replicate items.length elem := by
  rw [List.map_map, ← List.map_const']
  rfl

theorem map_fst_zip_types {fields : List (Field AbiType)} {entries : List (String × Value)}
    {values : List Value} (h : List.Forall₂ (FirstEntry entries) fields values) :
    ((fields.map Field.type).zip values).map Prod.fst = fields.map Field.type :=
  List.map_fst_zip (by rw [List.length_map, h.length_eq])

/-- Encodings have the length that the head size announces. -/
theorem measures_of_pack {t : AbiType} (hn : t.Everywhere NumbersInRange) {v : Value} {b : Bytes}
    (h : t.pack v = .ok b) : t.Measures b := by
  induction t using induct generalizing v b with
  | uint bits =>
    obtain ⟨w, rfl, -⟩ := pack_uint_eq_ok_iff.mp h
    exact Measures.of_word rfl rfl (Word.length_toBytes w)
  | int bits =>
    obtain ⟨w, rfl, -⟩ := pack_int_eq_ok_iff.mp h
    exact Measures.of_word rfl rfl (Word.length_toBytes w)
  | bool =>
    obtain ⟨c, -, rfl⟩ := pack_bool_eq_ok_iff.mp h
    exact Measures.of_word rfl rfl (length_countWord _)
  | string =>
    obtain ⟨s, -, rfl⟩ := pack_string_eq_ok_iff.mp h
    exact Measures.of_counted rfl _
  | bytes =>
    obtain ⟨c, -, rfl⟩ := pack_bytes_eq_ok_iff.mp h
    exact Measures.of_counted rfl c
  | fixedBytes length =>
    obtain ⟨c, -, -, rfl⟩ := pack_fixedBytes_eq_ok_iff.mp h
    exact Measures.of_word rfl rfl (length_leadingWord c)
  | address =>
    obtain ⟨a, -, rfl⟩ := pack_address_eq_ok_iff.mp h
    exact Measures.of_word rfl rfl (length_trailingWord (by rw [a.property]; decide))
  | function =>
    obtain ⟨f, -, rfl⟩ := pack_function_eq_ok_iff.mp h
    exact Measures.of_word rfl rfl (length_leadingWord f.val)
  | slice elem ih =>
    obtain ⟨items, parts, rfl, hparts, -, rfl⟩ := pack_slice_eq_ok_iff.mp h
    have hsized := sized_of_packed hparts
      (List.forall_mem_map.mpr fun _ _ _ hb ↦ ih (everywhere_slice_iff.mp hn).2 hb)
    refine ⟨?_, (by cases ·), fun _ ↦ ?_⟩
    · rw [List.length_append, length_countWord]
      exact Nat.dvd_add (Nat.dvd_refl _) (wordSize_dvd_length_block hsized)
    · rw [List.length_append, length_countWord]
      exact Nat.le_add_right _ _
  | array elem length ih =>
    obtain ⟨hrange, helem⟩ := everywhere_array_iff.mp hn
    obtain ⟨items, parts, rfl, rfl, hparts, -, rfl⟩ := pack_array_eq_ok_iff.mp h
    have hsized := sized_of_packed hparts (List.forall_mem_map.mpr fun _ _ _ hb ↦ ih helem hb)
    refine ⟨wordSize_dvd_length_block hsized, fun hs ↦ ?_, fun hd ↦ ?_⟩
    · rw [isDynamic] at hs
      have hstatic : ∀ x ∈ items.map (elem, ·), x.1.isDynamic = false :=
        List.forall_mem_map.mpr fun _ _ ↦ hs
      rw [length_block_of_static hsized hstatic, map_fst_map_pair, List.map_replicate,
        List.sum_replicate_nat, headWidth, hs, if_neg Bool.false_ne_true]
    · rw [isDynamic] at hd
      obtain ⟨item, hitem⟩ := List.exists_mem_of_length_pos hrange.1
      exact wordSize_le_length_block hsized (List.mem_map_of_mem hitem) hd
  | tuple structName fields ih =>
    obtain ⟨-, hfields⟩ := everywhere_tuple_iff.mp hn
    obtain ⟨entries, values, parts, rfl, hvalues, hparts, -, rfl⟩ := pack_tuple_eq_ok_iff.mp h
    have htypes := map_fst_zip_types hvalues
    have hsized := sized_of_packed hparts
      (forall_mem_zip_types fun f hf _ _ hb ↦ ih f hf (hfields f hf) hb)
    refine ⟨wordSize_dvd_length_block hsized, fun hs ↦ ?_, fun hd ↦ ?_⟩
    · rw [isDynamic] at hs
      have hstatic : ∀ x ∈ (fields.map Field.type).zip values, x.1.isDynamic = false :=
        forall_mem_zip_types fun f hf _ ↦ anyDynamic_eq_false_iff.mp hs f hf
      rw [length_block_of_static hsized hstatic, htypes, headWidth, hs, if_neg Bool.false_ne_true,
        headWidths_eq_sum]
    · rw [isDynamic] at hd
      obtain ⟨f, hf, hfd⟩ := anyDynamic_eq_true_iff.mp hd
      have htype := List.mem_map_of_mem (f := Field.type) hf
      rw [← htypes] at htype
      obtain ⟨x, hx, hxf⟩ := List.mem_map.mp htype
      exact wordSize_le_length_block hsized hx (by rw [hxf, hfd])

/-- Parts of types in range are as long as their types announce. -/
theorem sized_of_numbersInRange {xs : List (AbiType × Value)} {parts : List Part}
    (h : List.Forall₂ Packed xs parts) (hn : ∀ x ∈ xs, x.1.Everywhere NumbersInRange) :
    List.Forall₂ Sized xs parts :=
  sized_of_packed h fun x hx _ hb ↦ measures_of_pack (hn x hx) hb

end AbiType

end ContractAbi
