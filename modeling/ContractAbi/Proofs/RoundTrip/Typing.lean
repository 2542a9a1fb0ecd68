import ContractAbi.Proofs.Ranges
import ContractAbi.Proofs.RoundTrip.Reencoded

/-!
# Typed values

`AbiType.HasType` has one rule for each kind of type and speaks of numbers: an unsigned integer is
below a power of two, a signed one between two of them, and the entries of a tuple are those of its
fields, in their order and under their raw names. The readers test bits instead, and
`AbiType.Inhabits` repeats their tests; a value that passes them is typed by the rules, so whatever
is read is typed.

The names in a tuple need not be distinct for that. They are needed for the way back: a value that
was read is packed to its encoding and is read from there as it is.
-/

namespace ContractAbi

open Decoding

namespace AbiType

/-! ## Rules -/

mutual

/-- The value is one of the type, in the one form that reading gives it. -/
inductive HasType : AbiType → Value → Prop
  | uint {bits : Nat} {w : Word} : w.toNat < 2 ^ bits → HasType (.uint bits) (.uint w)
  | int {bits : Nat} {w : Word} :
    -(2 ^ (bits - 1) : Int) ≤ w.toInt → w.toInt < 2 ^ (bits - 1) → HasType (.int bits) (.int w)
  | bool (b : Bool) : HasType .bool (.bool b)
  | string (text : String) : HasType .string (.string text)
  | bytes (content : Bytes) : HasType .bytes (.bytes content)
  | fixedBytes {length : Nat} {content : Bytes} :
    content.length = length → HasType (.fixedBytes length) (.fixedBytes content)
  | address (content : Block 20) : HasType .address (.address content)
  | function (content : Block 24) : HasType .function (.function content)
  | slice {elem : AbiType} {items : List Value} :
    (∀ v ∈ items, HasType elem v) → HasType (.slice elem) (.array items)
  | array {elem : AbiType} {length : Nat} {items : List Value} :
    items.length = length → (∀ v ∈ items, HasType elem v) →
      HasType (.array elem length) (.array items)
  | tuple {structName : String} {fields : List (Field AbiType)} {entries : List (String × Value)} :
    HasTypes fields entries → HasType (.tuple structName fields) (.tuple entries)

/-- One entry to a field, under its raw name. -/
inductive HasTypes : List (Field AbiType) → List (String × Value) → Prop
  | nil : HasTypes [] []
  | cons {f : Field AbiType} {v : Value} {fields : List (Field AbiType)}
      {entries : List (String × Value)} :
    HasType f.type v → HasTypes fields entries → HasTypes (f :: fields) ((f.rawName, v) :: entries)

end

/-! ## What passes the tests is typed -/

theorem hasTypes_of_fieldsInhabited {fields : List (Field AbiType)}
    {entries : List (String × Value)}
    (hfields : ∀ f ∈ fields, ∀ v, f.type.Inhabits v → f.type.HasType v)
    (h : FieldsInhabited fields entries) : HasTypes fields entries := by
  induction fields generalizing entries with
  | nil =>
    cases entries with
    | nil => exact HasTypes.nil
    | cons e entries => cases h
  | cons f fields ih =>
    obtain ⟨hf, hrest⟩ := List.forall_mem_cons.mp hfields
    cases entries with
    | nil => cases h
    | cons e entries =>
      obtain ⟨name, v⟩ := e
      obtain ⟨rfl, hv, hentries⟩ := h
      exact HasTypes.cons (hf v hv) (ih hrest hentries)

theorem hasType_of_inhabits {t : AbiType} (hn : t.Everywhere NumbersInRange) {v : Value}
    (h : t.Inhabits v) : t.HasType v := by
  induction t using induct generalizing v with
  | uint bits =>
    cases v with
    | uint w => exact HasType.uint (Word.fitsUnsigned_iff.mp h)
    | _ => cases h
  | int bits =>
    cases v with
    | int w =>
      obtain ⟨hlow, hhigh⟩ := (Word.fitsSigned_iff hn.here.1).mp h
      exact HasType.int hlow hhigh
    | _ => cases h
  | bool =>
    cases v with
    | bool b => exact HasType.bool b
    | _ => cases h
  | string =>
    cases v with
    | string text => exact HasType.string text
    | _ => cases h
  | bytes =>
    cases v with
    | bytes content => exact HasType.bytes content
    | _ => cases h
  | fixedBytes length =>
    cases v with
    | fixedBytes content => exact HasType.fixedBytes h
    | _ => cases h
  | address =>
    cases v with
    | address content => exact HasType.address content
    | _ => cases h
  | function =>
    cases v with
    | function content => exact HasType.function content
    | _ => cases h
  | slice elem ih =>
    have helem := (everywhere_slice_iff.mp hn).2
    cases v with
    | array items => exact HasType.slice fun v hv ↦ ih helem (h v hv)
    | _ => cases h
  | array elem length ih =>
    have helem := (everywhere_array_iff.mp hn).2
    cases v with
    | array items => exact HasType.array h.1 fun v hv ↦ ih helem (h.2 v hv)
    | _ => cases h
  | tuple structName fields ih =>
    have hfields := (everywhere_tuple_iff.mp hn).2
    cases v with
    | tuple entries =>
      exact HasType.tuple
        (hasTypes_of_fieldsInhabited (fun f hf v hv ↦ ih f hf (hfields f hf) hv) h)
    | _ => cases h

/-! ## Soundness -/

/-- **Whatever is read under a type is typed**, from any payload. If the fields of each tuple have
raw names of their own it is also in normal form, and packs to its encoding if that is not too long;
from there it is read again as it is, wherever the encoding is placed. -/
theorem hasType_of_unpack {t : AbiType} (ht : t.Parsed) {index : Nat} {data : Bytes} {v : Value}
    (hdata : data.length < offsetLimit) (h : t.unpack index data = .ok v) :
    t.HasType v ∧ (t.Everywhere DistinctRawNames → t.normalize v = v ∧
      ((t.encoding v).length < offsetLimit → t.pack v = .ok (t.encoding v) ∧
        (t.Everywhere ElemsTakeRoom → ∀ (payload : Bytes) (place : Nat),
          payload.length < offsetLimit →
          (Part.mk t.isDynamic (t.encoding v)).PlacedAt payload place →
          t.unpack place payload = .ok v))) := by
  have hn := ht.numbersInRange
  have hv := inhabits_of_unpack hn index data v hdata h
  refine ⟨hasType_of_inhabits hn hv, fun hd ↦ ?_⟩
  have hnormal := normalize_eq_self hd hv
  refine ⟨hnormal, fun hlength ↦ ?_⟩
  have hlimit := offsetLimit_le_limit
  obtain ⟨b, hb⟩ := exists_pack_of_inhabits hn hd hv (by omega)
  obtain rfl := (standard_of_pack hn hb).1
  refine ⟨hb, fun hr payload place hpayload hplaced ↦ ?_⟩
  rw [readBack_of_packed hn hr ⟨rfl, hb⟩ hpayload hplaced, hnormal]

/-- A negative number, and two byte blocks with bytes behind them that are not looked at. -/
theorem hasType_of_unpack_padded :
    (tuple "" [⟨"a", "A", int 16⟩, ⟨"b", "B", slice (fixedBytes 2)⟩]).unpack 3
        ([9, 9, 9] ++ countWord 36 ++ [9] ++ (numberWord (-2) ++ countWord 64 ++ countWord 2 ++
          ([1, 2] ++ List.replicate 30 7) ++ ([3, 4] ++ List.replicate 30 7)))
        = .ok (.tuple [("a", .int (BitVec.ofInt 256 (-2))),
          ("b", .array [.fixedBytes [1, 2], .fixedBytes [3, 4]])]) ∧
      (tuple "" [⟨"a", "A", int 16⟩, ⟨"b", "B", slice (fixedBytes 2)⟩]).HasType
        (.tuple [("a", .int (BitVec.ofInt 256 (-2))),
          ("b", .array [.fixedBytes [1, 2], .fixedBytes [3, 4]])]) ∧
      (tuple "" [⟨"a", "A", int 16⟩, ⟨"b", "B", slice (fixedBytes 2)⟩]).unpack 0
        (countWord 32 ++ (numberWord (-2) ++ countWord 64 ++ countWord 2 ++
          ([1, 2] ++ Bytes.zeros 30) ++ ([3, 4] ++ Bytes.zeros 30)))
        = .ok (.tuple [("a", .int (BitVec.ofInt 256 (-2))),
          ("b", .array [.fixedBytes [1, 2], .fixedBytes [3, 4]])]) := by
  have hparsed : (tuple "" [⟨"a", "A", int 16⟩, ⟨"b", "B", slice (fixedBytes 2)⟩]).Parsed :=
    ⟨"tuple", "", [⟨"a", "int16", none, [], false⟩, ⟨"b", "bytes2[]", none, [], false⟩], rfl⟩
  have hread : (tuple "" [⟨"a", "A", int 16⟩, ⟨"b", "B", slice (fixedBytes 2)⟩]).unpack 3
      ([9, 9, 9] ++ countWord 36 ++ [9] ++ (numberWord (-2) ++ countWord 64 ++ countWord 2 ++
        ([1, 2] ++ List.replicate 30 7) ++ ([3, 4] ++ List.replicate 30 7)))
      = .ok (.tuple [("a", .int (BitVec.ofInt 256 (-2))),
        ("b", .array [.fixedBytes [1, 2], .fixedBytes [3, 4]])]) := by
    decide +kernel
  obtain ⟨htyped, hnormal⟩ := hasType_of_unpack hparsed (by decide +kernel) hread
  obtain ⟨-, hpack⟩ := hnormal (by decide)
  obtain ⟨-, hagain⟩ := hpack (by decide +kernel)
  refine ⟨hread, htyped, hagain (by decide) _ _ (by decide +kernel)
    ((Part.placedAt_dynamic_iff rfl).mpr ⟨32, ?_, ?_⟩)⟩
  · decide +kernel
  · decide +kernel

end AbiType

end ContractAbi
