import ContractAbi.Proofs.AbiType.BindingNames
import ContractAbi.Proofs.AbiType.Unlimited
import ContractAbi.Proofs.RoundTrip.Cut
import ContractAbi.Proofs.RoundTrip.Reencoded

/-!
# Argument lists and tuples

An argument list and the tuple of the same components are two ways to one format. They are read
from the descriptors, packed and unpacked by functions of their own: an argument may nest a level
more than a field, a tuple looks its values up by name where arguments go by position, and a dynamic
tuple has an offset in front of it where the arguments are the whole payload. If the names are
distinct, nothing of this can be seen from the outside, whatever the values and the payload are.

The offset makes the payload of a tuple longer by a word. It leads to what follows it, which is the
payload of the arguments, so the lengths that errors report are the same.
-/

namespace ContractAbi

open Decoding

/-- The descriptor of a value that is in the payload. -/
def Descriptor.unindexed (d : Descriptor) : Descriptor := { d with indexed := false }

/-- The argument that a field is outside of its tuple. -/
def Field.toArgument (f : Field AbiType) : Argument := ⟨f.rawName, f.type, false⟩

/-! ## Reading -/

namespace AbiType

/-- A signature that is the word for a tuple has no groups to remove, so the fields take up all
levels but one. -/
theorem parse_tuple_eq_ok {internalType : String} {components : List Descriptor} {t : AbiType}
    (h : parse "tuple" internalType components = .ok t) :
    ∃ structName fields, t = tuple structName fields ∧
      fieldsOfDescriptors (nestingLimit - 1) [] 0 components = .ok fields := by
  have htrim : Text.trim "tuple".toList = "tuple".toList := by decide
  have hpeel : peel "tuple".toList nestingLimit "tuple".toList internalType.toList
      = .ok ⟨"tuple".toList, internalType.toList, [], nestingLimit⟩ := rfl
  have hbase : resolveBase "tuple".toList internalType.toList = .ok .tuple := by rfl
  rw [parse, ofDescriptor_of_balanced _ _ (by rw [htrim]; rfl), htrim, Option.getD_some, hpeel,
    ok_bind, complete, hbase, ok_bind] at h
  obtain ⟨fields, hfields, h⟩ := bind_eq_ok_iff.mp h
  exact ⟨_, fields, (Except.ok.inj h).symm, hfields⟩

/-- More room does not change what is read. -/
theorem ofDescriptor_mono {room room' : Nat} (hroom : room ≤ room') {d : Descriptor} {t : AbiType}
    (h : ofDescriptor room d = .ok t) : ofDescriptor room' d = .ok t := by
  rw [ofDescriptor_eq_ok_iff] at h ⊢
  exact ⟨h.1, h.2.trans hroom⟩

end AbiType

theorem Descriptor.toArgument_unindexed {d : Descriptor} {type : AbiType}
    (h : AbiType.ofDescriptor nestingLimit d = .ok type) :
    d.unindexed.toArgument = .ok ⟨d.name, type, false⟩ := by
  obtain ⟨name, signature, internalType, components, indexed⟩ := d
  rw [AbiType.ofDescriptor] at h
  rw [toArgument, unindexed, AbiType.ofDescriptor, h]
  rfl

namespace Arguments

/-- The components of a tuple are read as its fields would be without the tuple. -/
theorem ofDescriptors_of_fieldsOfDescriptors {room : Nat} (hroom : room ≤ nestingLimit)
    {taken : List String} {index : Nat} {ds : List Descriptor} {fields : List (Field AbiType)}
    (h : AbiType.fieldsOfDescriptors room taken index ds = .ok fields) :
    ofDescriptors (ds.map Descriptor.unindexed) = .ok (fields.map Field.toArgument) := by
  induction ds generalizing taken index fields with
  | nil =>
    rw [AbiType.fieldsOfDescriptors] at h
    rw [← Except.ok.inj h]
    rfl
  | cons d rest ih =>
    rw [AbiType.fieldsOfDescriptors] at h
    obtain ⟨type, htype, h⟩ := bind_eq_ok_iff.mp h
    obtain ⟨name, -, h⟩ := bind_eq_ok_iff.mp h
    obtain ⟨others, hothers, h⟩ := bind_eq_ok_iff.mp h
    have hargument := Descriptor.toArgument_unindexed (AbiType.ofDescriptor_mono hroom htype)
    have hrest := ih hothers
    rw [ofDescriptors] at hrest ⊢
    rw [← Except.ok.inj h, List.map_cons, List.mapM_cons, hargument, ok_bind, hrest]
    rfl

/-! ## Packing -/

section Fields

variable {structName : String} {fields : List (Field AbiType)}

theorem map_type_toArgument (fields : List (Field AbiType)) :
    (fields.map Field.toArgument).map Argument.type = fields.map Field.type := by
  rw [List.map_map]
  rfl

/-- With distinct names a value is found where its argument is. -/
theorem pack_toArgument (hnames : (fields.map Field.rawName).Nodup) {values : List Value}
    (hlength : values.length = fields.length) :
    pack (fields.map Field.toArgument) values
      = (AbiType.tuple structName fields).pack
          (.tuple ((fields.map Field.rawName).zip values)) := by
  have hselect := AbiType.select_eq_ok_iff.mpr
    (AbiType.forall₂_firstEntry_of_nodup hnames hlength.symm)
  rw [pack, if_pos (by rw [hlength, List.length_map]), AbiType.parts_eq, map_type_toArgument,
    AbiType.pack, hselect, ok_bind, AbiType.packFields_eq]

/-! ## Unpacking -/

variable {data : Bytes}

theorem nonIndexed_toArgument (fields : List (Field AbiType)) :
    nonIndexed (fields.map Field.toArgument) = fields.map Field.toArgument :=
  nonIndexed_eq_self (List.forall_mem_map.mpr fun _ _ ↦ rfl)

theorem names_toArgument (fields : List (Field AbiType)) :
    names (fields.map Field.toArgument) = fields.map Field.rawName := by
  rw [names, nonIndexed_toArgument, List.map_map]
  rfl

/-- What is unpacked can be bound, and then is what the fields of a tuple are unpacked to. -/
theorem unpackValues_bind_toArgument (hdata : data.length < offsetLimit) :
    (unpackValues (fields.map Field.toArgument) data >>= bind (fields.map Field.toArgument))
      = return .tuple (← AbiType.unpackFields fields 0 data) := by
  rw [unpackValues_eq hdata, nonIndexed_toArgument, map_type_toArgument,
    unpackFields_eq hdata (fun f _ ↦ f.type.fitsWhereRead) (by omega), Nat.zero_mul]
  cases hvalues : unpackTypes data (fields.map Field.type) 0 with
  | error e => rfl
  | ok values =>
    have hlength := length_of_unpackTypes hvalues
    rw [List.length_map] at hlength
    rw [ok_bind, bind, nonIndexed_toArgument, if_pos (by rw [hlength, List.length_map]),
      names_toArgument]
    rfl

end Fields

end Arguments

namespace AbiType

variable {structName : String} {fields : List (Field AbiType)} {data : Bytes}

theorem unpack_tuple_of_static (h : anyDynamic fields = false) :
    (tuple structName fields).unpack 0 data
      = return .tuple (← unpackFields fields 0 data) := by
  have hbody : tupleInPlace data 0 = .ok data :=
    tupleInPlace_eq_ok_iff.mpr ⟨Nat.zero_le _, List.drop_zero⟩
  rw [unpack, h, if_neg Bool.false_ne_true, hbody, ok_bind]

/-- The offset leads to what follows it. -/
theorem unpack_tuple_of_dynamic (h : anyDynamic fields = true)
    (hdata : data.length + wordSize < offsetLimit) :
    (tuple structName fields).unpack 0 (countWord wordSize ++ data)
      = return .tuple (← unpackFields fields 0 data) := by
  have hlength : (countWord wordSize ++ data).length = wordSize + data.length := by
    rw [List.length_append, length_countWord]
  have hoffset : (BitVec.ofNat 256 wordSize).toNat = wordSize := by decide
  have hbody : block (countWord wordSize ++ data) 0 = .ok data := by
    refine (block_eq_ok_iff (by omega)).mpr ⟨BitVec.ofNat 256 wordSize, ?_, ?_, ?_⟩
    · exact (Bytes.standsAt_append_iff.mp (Bytes.standsAt_self (countWord wordSize ++ data))).1
    · omega
    · rw [hoffset]
      exact List.drop_left' (length_countWord wordSize)
  rw [unpack, h, if_pos rfl, hbody, ok_bind]

end AbiType

/-- **One format.** The components of a tuple are read as an argument list too. If their names are
distinct, the arguments pack any values to what the tuple does, and unpack any payload to what the
tuple does behind its offset, errors and their texts included. -/
theorem Arguments.format_eq_tuple {internalType : String} {components : List Descriptor}
    {t : AbiType} (hnames : (components.map Descriptor.name).Nodup)
    (h : AbiType.parse "tuple" internalType components = .ok t) :
    ∃ args, ofDescriptors (components.map Descriptor.unindexed) = .ok args ∧
      (∀ values : List Value, values.length = components.length →
        args.pack values = t.pack (.tuple ((components.map Descriptor.name).zip values))) ∧
      ∀ data : Bytes, data.length + wordSize < offsetLimit →
        (args.unpackValues data >>= args.bind)
          = if t.isDynamic then t.unpack 0 (countWord wordSize ++ data) else t.unpack 0 data := by
  obtain ⟨structName, fields, rfl, hfields⟩ := AbiType.parse_tuple_eq_ok h
  obtain ⟨hraw, -⟩ := AbiType.names_of_fieldsOfDescriptors hfields
  rw [← hraw] at hnames ⊢
  refine ⟨fields.map Field.toArgument,
    ofDescriptors_of_fieldsOfDescriptors (Nat.sub_le _ _) hfields, fun values hlength ↦ ?_,
    fun data hdata ↦ ?_⟩
  · refine pack_toArgument hnames ?_
    rw [hlength, ← List.length_map Descriptor.name, ← hraw, List.length_map]
  · rw [unpackValues_bind_toArgument (by omega), AbiType.isDynamic]
    by_cases hdynamic : AbiType.anyDynamic fields = true
    · rw [if_pos hdynamic, AbiType.unpack_tuple_of_dynamic hdynamic hdata]
    · rw [if_neg hdynamic, AbiType.unpack_tuple_of_static (Bool.eq_false_of_not_eq_true hdynamic)]

/-- A payload that ends too early is refused with its own length, which is not that of the payload
of the tuple. -/
theorem Arguments.format_eq_tuple_too_short :
    let components : List Descriptor :=
      [⟨"a", "uint8", none, [], true⟩, ⟨"b", "string", none, [], false⟩]
    let t : AbiType := .tuple "" [⟨"a", "A", .uint 8⟩, ⟨"b", "B", .string⟩]
    (components.map Descriptor.name).Nodup ∧ AbiType.parse "tuple" "" components = .ok t ∧
      ∃ args, ofDescriptors (components.map Descriptor.unindexed) = .ok args ∧
        args.pack [.uint 7, .string "x"] = t.pack (.tuple [("a", .uint 7), ("b", .string "x")]) ∧
        (args.unpackValues (countWord 7 ++ countWord 64) >>= args.bind)
          = t.unpack 0 (countWord wordSize ++ (countWord 7 ++ countWord 64)) ∧
        t.unpack 0 (countWord wordSize ++ (countWord 7 ++ countWord 64))
          = .error (.insufficientLength 64 (.bytes 96)) := by
  intro components t
  have hnames : (components.map Descriptor.name).Nodup := by decide
  have hparse : AbiType.parse "tuple" "" components = .ok t := by decide +kernel
  obtain ⟨args, hargs, hpack, hunpack⟩ := Arguments.format_eq_tuple hnames hparse
  have hread := hunpack (countWord 7 ++ countWord 64) (by decide +kernel)
  rw [if_pos (show t.isDynamic = true from rfl)] at hread
  exact ⟨hnames, hparse, args, hargs, hpack [.uint 7, .string "x"] rfl, hread, by decide +kernel⟩

end ContractAbi
