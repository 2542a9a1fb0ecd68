import ContractAbi.Proofs.AbiType.Parsed
import ContractAbi.Proofs.Decoding.Parts

/-!
# Values of a type

`AbiType.Inhabits` says which values belong to a type: integers in its variant and range, contents
of its length, arrays of its length, and tuples with exactly its fields in their order. Whatever is
read under a type is one of them, from any payload: `AbiType.inhabits_of_unpack`. The bits that a
reader does not look at and the ways in which offsets may lead have no part in it.
-/

namespace ContractAbi

open Decoding

namespace AbiType

mutual

/-- The value is one that the type has, with its fields under their raw names. -/
def Inhabits : AbiType → Value → Prop
  | .uint bits, .uint w => w.FitsUnsigned bits
  | .int bits, .int w => w.FitsSigned bits
  | .fixedBytes length, .fixedBytes content => content.length = length
  | .slice elem, .array items => ∀ v ∈ items, Inhabits elem v
  | .array elem length, .array items => items.length = length ∧ ∀ v ∈ items, Inhabits elem v
  | .tuple _ fields, .tuple entries => FieldsInhabited fields entries
  | .bool, .bool _ | .string, .string _ | .bytes, .bytes _ | .address, .address _
  | .function, .function _ => True
  | _, _ => False

def FieldsInhabited : List (Field AbiType) → List (String × Value) → Prop
  | [], [] => True
  | f :: fields, (name, v) :: entries =>
    name = f.rawName ∧ Inhabits f.type v ∧ FieldsInhabited fields entries
  | _, _ => False

end

/-- The value of a field belongs to its type. -/
def FieldInhabited (f : Field AbiType) (v : Value) : Prop := f.type.Inhabits v

theorem fieldsInhabited_iff {fields : List (Field AbiType)} {entries : List (String × Value)} :
    FieldsInhabited fields entries ↔ ∃ values, List.Forall₂ FieldInhabited fields values ∧
      (fields.map Field.rawName).zip values = entries := by
  induction fields generalizing entries with
  | nil =>
    cases entries with
    | nil => simp [FieldsInhabited]
    | cons e entries => simp [FieldsInhabited]
  | cons f fields ih =>
    cases entries with
    | nil =>
      refine iff_of_false id ?_
      rintro ⟨values, h, heq⟩
      rw [List.forall₂_cons_left_iff] at h
      obtain ⟨v, vs, -, -, rfl⟩ := h
      cases heq
    | cons e entries =>
      obtain ⟨name, v⟩ := e
      rw [FieldsInhabited, ih]
      constructor
      · rintro ⟨rfl, hv, values, hvalues, rfl⟩
        exact ⟨v :: values, List.Forall₂.cons hv hvalues, rfl⟩
      · rintro ⟨values, h, heq⟩
        rw [List.forall₂_cons_left_iff] at h
        obtain ⟨v', vs, hv, hvs, rfl⟩ := h
        rw [List.map_cons, List.zip_cons_cons] at heq
        obtain ⟨hhead, rfl⟩ := List.cons.inj heq
        obtain ⟨rfl, rfl⟩ := Prod.mk.inj hhead
        exact ⟨rfl, hv, vs, hvs, rfl⟩

/-! ## What is read belongs to its type -/

/-- Whatever is read under the type belongs to it. -/
def ReadsInhabitants (t : AbiType) : Prop :=
  ∀ (index : Nat) (data : Bytes) (v : Value), data.length < offsetLimit →
    t.unpack index data = .ok v → t.Inhabits v

/-- **Whatever is read under a type belongs to it**, from any payload. -/
theorem inhabits_of_unpack {t : AbiType} (hn : t.Everywhere NumbersInRange) :
    t.ReadsInhabitants := by
  induction t using induct with
  | uint bits =>
    intro index data v hdata h
    rw [unpack] at h
    obtain ⟨w, -, h⟩ := bind_eq_ok_iff.mp h
    rw [readUint] at h
    split at h
    · rename_i hfits
      cases h
      exact hfits
    · cases h
  | int bits =>
    intro index data v hdata h
    rw [unpack] at h
    obtain ⟨w, -, h⟩ := bind_eq_ok_iff.mp h
    rw [readInt] at h
    split at h
    · rename_i hfits
      cases h
      exact hfits
    · cases h
  | bool =>
    intro index data v hdata h
    rw [unpack] at h
    obtain ⟨w, -, h⟩ := bind_eq_ok_iff.mp h
    rw [readBool] at h
    split at h
    · cases h
      trivial
    · split at h
      · cases h
        trivial
      · cases h
  | string =>
    intro index data v hdata h
    rw [unpack] at h
    obtain ⟨p, -, h⟩ := bind_eq_ok_iff.mp h
    simp only [readText] at h
    split at h
    · cases h
      trivial
    · cases h
  | bytes =>
    intro index data v hdata h
    rw [unpack] at h
    obtain ⟨p, -, h⟩ := bind_eq_ok_iff.mp h
    cases h
    trivial
  | fixedBytes length =>
    intro index data v hdata h
    rw [unpack] at h
    obtain ⟨w, -, h⟩ := bind_eq_ok_iff.mp h
    cases h
    have hrange : 0 < length ∧ length ≤ wordSize := hn.here
    rw [readFixedBytes, Inhabits, List.length_take, Word.length_toBytes]
    exact Nat.min_eq_left hrange.2
  | address =>
    intro index data v hdata h
    rw [unpack] at h
    obtain ⟨w, -, h⟩ := bind_eq_ok_iff.mp h
    cases h
    trivial
  | function =>
    intro index data v hdata h
    rw [unpack] at h
    obtain ⟨w, -, h⟩ := bind_eq_ok_iff.mp h
    rw [readFunction] at h
    split at h
    · cases h
      trivial
    · cases h
  | slice elem ih =>
    intro index data v hdata h
    obtain ⟨-, start, items, rfl, -, -, hitems⟩ :=
      exists_items_of_unpack hdata (show (Layer.slice.wrap elem).unpack index data = .ok v from h)
    have helem := ih (everywhere_slice_iff.mp hn).2
    intro item hitem
    obtain ⟨i, hread⟩ := hitems item hitem
    exact helem i _ item (length_drop_lt hdata) hread
  | array elem length ih =>
    intro index data v hdata h
    obtain ⟨-, start, items, rfl, hlength, -, hitems⟩ := exists_items_of_unpack hdata
      (show ((Layer.array length).wrap elem).unpack index data = .ok v from h)
    have helem := ih (everywhere_array_iff.mp hn).2
    refine ⟨hlength length rfl, fun item hitem ↦ ?_⟩
    obtain ⟨i, hread⟩ := hitems item hitem
    exact helem i _ item (length_drop_lt hdata) hread
  | tuple structName fields ih =>
    intro index data v hdata h
    obtain ⟨start, values, rfl, hvalues⟩ := exists_values_of_unpack hdata h
    have hfields (f : Field AbiType) (hf : f ∈ fields) : f.type.ReadsInhabitants :=
      ih f hf ((everywhere_tuple_iff.mp hn).2 f hf)
    refine fieldsInhabited_iff.mpr ⟨values, ?_, rfl⟩
    refine ((List.forall₂_and_left _ _).mpr ⟨hfields, hvalues⟩).imp fun f value hf ↦ ?_
    obtain ⟨hf, i, hread⟩ := hf
    exact hf i _ value (length_drop_lt hdata) hread

end AbiType

end ContractAbi
