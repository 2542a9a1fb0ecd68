import ContractAbi.Proofs.Encoding.Packing

/-!
# Normal values

A value may be written in more than one way under a type: an integer in either sign variant, a byte
string with or without a fixed length, a tuple with entries in any order and more of them than
asked for. An encoding does not record which, so unpacking gives one of them, the normal one.
`AbiType.normalize` rewrites a value to it. What a normal value has in common with the one it comes
from is `AbiType.NormalizesTo`, which is about numbers and contents and not about words.
-/

namespace ContractAbi

namespace AbiType

mutual

/-- The value in the variants of the type, with exactly the declared fields in their order. -/
def normalize : AbiType → Value → Value
  | .uint _, .int w => .uint w
  | .int _, .uint w => .int w
  | .bytes, .fixedBytes content => .bytes content
  | .fixedBytes _, .bytes content => .fixedBytes content
  | .slice elem, .array items => .array (items.map fun v ↦ normalize elem v)
  | .array elem _, .array items => .array (items.map fun v ↦ normalize elem v)
  | .tuple _ fields, .tuple entries => .tuple (normalizeFields fields entries)
  | _, v => v

/-- For each field the first entry of its raw name. -/
def normalizeFields : List (Field AbiType) → List (String × Value) → List (String × Value)
  | [], _ => []
  | f :: fields, entries =>
    ((entries.lookup f.rawName).map fun v ↦ (f.rawName, normalize f.type v)).toList ++
      normalizeFields fields entries

end

mutual

/-- The second value is the first one as the type writes it: the same number in the variant of the
type, the same content, the same items, and for each declared field, in their order, the first entry
of its raw name. -/
def NormalizesTo : AbiType → Value → Value → Prop
  | .uint _, v, .uint w => v.integer? = some (w.toNat : Int)
  | .int _, v, .int w => v.integer? = some w.toInt
  | .bytes, v, .bytes content => v.bytes? = some content
  | .fixedBytes _, v, .fixedBytes content => v.bytes? = some content
  | .slice elem, .array items, .array items' => List.Forall₂ (NormalizesTo elem) items items'
  | .array elem _, .array items, .array items' => List.Forall₂ (NormalizesTo elem) items items'
  | .tuple _ fields, .tuple entries, .tuple entries' => FieldsNormalizeTo fields entries entries'
  | .bool, .bool c, .bool c' => c = c'
  | .string, .string s, .string s' => s = s'
  | .address, .address a, .address a' => a = a'
  | .function, .function f, .function f' => f = f'
  | _, _, _ => False

def FieldsNormalizeTo : List (Field AbiType) → List (String × Value) → List (String × Value) → Prop
  | [], _, [] => True
  | f :: fields, entries, (name, v') :: rest =>
    name = f.rawName ∧ (∃ v, entries.lookup f.rawName = some v ∧ NormalizesTo f.type v v') ∧
      FieldsNormalizeTo fields entries rest
  | _, _, _ => False

end

/-! ## Fields -/

theorem normalizeFields_eq {fields : List (Field AbiType)} {entries : List (String × Value)}
    {values : List Value} (h : List.Forall₂ (FirstEntry entries) fields values) :
    normalizeFields fields entries = (fields.map Field.rawName).zip
      (((fields.map Field.type).zip values).map fun x ↦ x.1.normalize x.2) := by
  induction h with
  | nil => rfl
  | @cons f v _ _ hf _ ih =>
    rw [FirstEntry] at hf
    rw [normalizeFields, ih, hf]
    rfl

/-! ## Signs -/

theorem msb_of_bitLength_lt {w : Word} (h : w.bitLength < 256) : w.msb = false := by
  rw [BitVec.msb_eq_false_iff_two_mul_lt]
  rw [Word.bitLength] at h
  split at h
  · omega
  · rename_i hpos
    have hlt : w.toNat < 2 ^ 255 := (Nat.log2_lt hpos).mp (by omega)
    omega

theorem eq_of_toInt_eq_toNat {u w : Word} (h : u.toInt = w.toNat) : u = w := by
  have hu := u.isLt
  have hw := w.isLt
  apply BitVec.eq_of_toNat_eq
  rw [BitVec.toInt] at h
  split at h <;> omega

/-! ## The normal value is the same value -/

private theorem forall₂_normalizesTo {elem : AbiType} {items : List Value} {parts : List Part}
    (hparts : List.Forall₂ Packed (items.map (elem, ·)) parts)
    (helem : ∀ v b, elem.pack v = .ok b → elem.NormalizesTo v (elem.normalize v)) :
    List.Forall₂ elem.NormalizesTo items (items.map fun v ↦ elem.normalize v) := by
  rw [List.forall₂_map_right_iff, List.forall₂_same]
  intro item hitem
  obtain ⟨c, hc⟩ := exists_pack_of_mem hparts (List.mem_map_of_mem hitem)
  exact helem item c hc

theorem normalizesTo_normalize {t : AbiType} (hn : t.Everywhere NumbersInRange) {v : Value}
    {b : Bytes} (h : t.pack v = .ok b) : t.NormalizesTo v (t.normalize v) := by
  induction t using induct generalizing v b with
  | uint bits =>
    obtain ⟨w, -, -, rfl | ⟨rfl, hw⟩⟩ := pack_uint_eq_ok_iff.mp h
    · rfl
    · rw [normalize, NormalizesTo, Value.integer?, BitVec.toInt_eq_toNat_of_msb hw]
  | int bits =>
    obtain ⟨w, -, ⟨rfl, -⟩ | ⟨rfl, hw⟩⟩ := pack_int_eq_ok_iff.mp h
    · rfl
    · have hle : bits ≤ 256 := hn.here.2.1
      rw [normalize, NormalizesTo, Value.integer?,
        BitVec.toInt_eq_toNat_of_msb (msb_of_bitLength_lt (by omega))]
  | bool =>
    obtain ⟨c, rfl, -⟩ := pack_bool_eq_ok_iff.mp h
    rfl
  | string =>
    obtain ⟨s, rfl, -⟩ := pack_string_eq_ok_iff.mp h
    rfl
  | bytes =>
    obtain ⟨c, hc, -⟩ := pack_bytes_eq_ok_iff.mp h
    obtain rfl | rfl := Value.bytes?_eq_some_iff.mp hc
    · rfl
    · rfl
  | fixedBytes length =>
    obtain ⟨c, hc, -⟩ := pack_fixedBytes_eq_ok_iff.mp h
    obtain rfl | rfl := Value.bytes?_eq_some_iff.mp hc
    · rfl
    · rfl
  | address =>
    obtain ⟨a, rfl, -⟩ := pack_address_eq_ok_iff.mp h
    rfl
  | function =>
    obtain ⟨f, rfl, -⟩ := pack_function_eq_ok_iff.mp h
    rfl
  | slice elem ih =>
    have helem := (everywhere_slice_iff.mp hn).2
    obtain ⟨items, parts, rfl, hparts, -⟩ := pack_slice_eq_ok_iff.mp h
    rw [normalize, NormalizesTo]
    exact forall₂_normalizesTo hparts fun _ _ hc ↦ ih helem hc
  | array elem length ih =>
    have helem := (everywhere_array_iff.mp hn).2
    obtain ⟨items, parts, rfl, -, hparts, -⟩ := pack_array_eq_ok_iff.mp h
    rw [normalize, NormalizesTo]
    exact forall₂_normalizesTo hparts fun _ _ hc ↦ ih helem hc
  | tuple structName fields ih =>
    have hfields := (everywhere_tuple_iff.mp hn).2
    obtain ⟨entries, values, parts, rfl, hvalues, hparts, -⟩ := pack_tuple_eq_ok_iff.mp h
    rw [normalize, NormalizesTo]
    -- over the fields, with the entries of the whole tuple fixed
    clear h hn
    induction hvalues generalizing parts with
    | nil => trivial
    | @cons f v fs vs hf hrest ihrest =>
      obtain ⟨hfield, hothers⟩ := List.forall_mem_cons.mp hfields
      obtain ⟨ihf, ihfs⟩ := List.forall_mem_cons.mp ih
      rw [List.map_cons, List.zip_cons_cons, List.forall₂_cons_left_iff] at hparts
      obtain ⟨p, ps, hp, hps, rfl⟩ := hparts
      rw [FirstEntry] at hf
      rw [normalizeFields, hf]
      exact ⟨rfl, ⟨v, hf, ihf hfield hp.2⟩, ihrest ihfs hothers ps hps⟩

private theorem map_eq_of_forall₂ {elem : AbiType} {items items' : List Value}
    (helem : ∀ v v', elem.NormalizesTo v v' → elem.normalize v = v')
    (h : List.Forall₂ elem.NormalizesTo items items') :
    (items.map fun v ↦ elem.normalize v) = items' := by
  rw [← List.forall₂_eq_eq_eq, List.forall₂_map_left_iff]
  exact h.imp helem

private theorem normalizeFields_eq_of_fieldsNormalizeTo {fields : List (Field AbiType)}
    {entries entries' : List (String × Value)}
    (hfields : ∀ f ∈ fields, ∀ v v', f.type.NormalizesTo v v' → f.type.normalize v = v')
    (h : FieldsNormalizeTo fields entries entries') :
    normalizeFields fields entries = entries' := by
  induction fields generalizing entries' with
  | nil =>
    cases entries' with
    | nil => rfl
    | cons e rest => cases h
  | cons f fields ih =>
    obtain ⟨hf, hrest⟩ := List.forall_mem_cons.mp hfields
    cases entries' with
    | nil => cases h
    | cons e rest =>
      obtain ⟨name, v'⟩ := e
      obtain ⟨rfl, ⟨v, hv, hnorm⟩, hothers⟩ := h
      rw [normalizeFields, hv, ih hrest hothers, Option.map_some, hf v _ hnorm]
      rfl

/-- There is one normal value at most. -/
theorem normalize_eq_of_normalizesTo {t : AbiType} {v v' : Value} (h : t.NormalizesTo v v') :
    t.normalize v = v' := by
  induction t using induct generalizing v v' with
  | uint bits =>
    cases v' with
    | uint w =>
      rw [NormalizesTo] at h
      cases v with
      | uint u =>
        rw [Value.integer?, Option.some.injEq, Int.natCast_inj] at h
        exact congrArg Value.uint (BitVec.eq_of_toNat_eq h)
      | int u =>
        rw [Value.integer?, Option.some.injEq] at h
        exact congrArg Value.uint (eq_of_toInt_eq_toNat h)
      | _ => cases h
    | _ => cases h
  | int bits =>
    cases v' with
    | int w =>
      rw [NormalizesTo] at h
      cases v with
      | uint u =>
        rw [Value.integer?, Option.some.injEq] at h
        exact congrArg Value.int (eq_of_toInt_eq_toNat h.symm).symm
      | int u =>
        rw [Value.integer?, Option.some.injEq] at h
        exact congrArg Value.int (BitVec.eq_of_toInt_eq h)
      | _ => cases h
    | _ => cases h
  | bytes =>
    cases v' with
    | bytes c =>
      rw [NormalizesTo] at h
      obtain rfl | rfl := Value.bytes?_eq_some_iff.mp h
      · rfl
      · rfl
    | _ => cases h
  | fixedBytes length =>
    cases v' with
    | fixedBytes c =>
      rw [NormalizesTo] at h
      obtain rfl | rfl := Value.bytes?_eq_some_iff.mp h
      · rfl
      · rfl
    | _ => cases h
  | bool =>
    cases v <;> cases v' <;> cases h
    rfl
  | string =>
    cases v <;> cases v' <;> cases h
    rfl
  | address =>
    cases v <;> cases v' <;> cases h
    rfl
  | function =>
    cases v <;> cases v' <;> cases h
    rfl
  | slice elem ih =>
    cases v with
    | array items =>
      cases v' with
      | array items' => rw [normalize, map_eq_of_forall₂ (fun _ _ ↦ ih) h]
      | _ => cases h
    | _ => cases v' <;> cases h
  | array elem length ih =>
    cases v with
    | array items =>
      cases v' with
      | array items' => rw [normalize, map_eq_of_forall₂ (fun _ _ ↦ ih) h]
      | _ => cases h
    | _ => cases v' <;> cases h
  | tuple structName fields ih =>
    cases v with
    | tuple entries =>
      cases v' with
      | tuple entries' =>
        rw [NormalizesTo] at h
        rw [normalize, normalizeFields_eq_of_fieldsNormalizeTo (fun f hf _ _ ↦ ih f hf) h]
      | _ => cases h
    | _ => cases v' <;> cases h

end AbiType

end ContractAbi
