import ContractAbi.Proofs.AbiType.BindingNames
import ContractAbi.Proofs.AbiType.Unlimited

/-!
# Well-formed types

Packing and unpacking take the tree of a type as it is. What they rely on is checked once, when the
type is read, and is gathered here as `AbiType.WellFormed`: numbers in their ranges, levels within
the limit, a signature that is put together from those of the parts, and fields that are the
components of the descriptor, bound to identifiers that are distinct within a tuple.
-/

namespace ContractAbi

namespace AbiType

/-! ## Signatures -/

/-- The canonical signature of a type, put together from those of its parts. -/
def assembled : AbiType → String
  | uint bits => "uint" ++ toString bits
  | int bits => "int" ++ toString bits
  | bool => "bool"
  | string => "string"
  | bytes => "bytes"
  | fixedBytes length => "bytes" ++ toString length
  | address => "address"
  | function => "function"
  | slice elem => elem.canonical ++ "[]"
  | array elem length => elem.canonical ++ "[" ++ toString length ++ "]"
  | tuple _ fields => "(" ++ ",".intercalate (fields.map fun f ↦ f.type.canonical) ++ ")"

theorem toList_toString (n : Nat) : (toString n).toList = decimal n := by
  rw [Nat.toString_eq_ofList_toDigits, String.toList_ofList, decimal]

theorem canonical_eq_assembled (t : AbiType) : t.canonical = t.assembled := by
  refine String.toList_inj.mp ?_
  rw [toList_canonical]
  cases t with
  | uint n | int n | fixedBytes n =>
    rw [assembled, String.toList_append, toList_toString n]
    rfl
  | slice elem =>
    rw [assembled, String.toList_append, toList_canonical]
    rfl
  | array elem length =>
    rw [assembled, String.toList_append, String.toList_append, String.toList_append,
      toList_canonical, toList_toString length, List.append_assoc elem.signature]
    rfl
  | tuple structName fields =>
    have hparts : (fields.map fun f ↦ f.type.canonical).map String.toList
        = fields.map fun f ↦ f.type.signature := by
      rw [List.map_map]
      exact List.map_congr_left fun f _ ↦ toList_canonical f.type
    rw [assembled, String.toList_append, String.toList_append, String.toList_intercalate, hparts,
      signature_tuple, tupleSignature]
    rfl
  | _ => rfl

/-! ## Components -/

/-- The fields of the tuple in the type, and those of the tuples in these in turn, are declared by
the components one by one. -/
inductive DeclaredBy : List Descriptor → AbiType → Prop
  | leaf {components : List Descriptor} {t : AbiType} : t.IsLeaf → DeclaredBy components t
  | slice {components : List Descriptor} {elem : AbiType} :
    DeclaredBy components elem → DeclaredBy components (.slice elem)
  | array {components : List Descriptor} {elem : AbiType} (length : Nat) :
    DeclaredBy components elem → DeclaredBy components (.array elem length)
  | tuple {components : List Descriptor} {fields : List (Field AbiType)} (structName : String) :
    fields.map Field.rawName = components.map Descriptor.name →
    List.Forall₂ (fun d f ↦ DeclaredBy d.components f.type) components fields →
    DeclaredBy components (.tuple structName fields)

theorem DeclaredBy.foldr_wrap {components : List Descriptor} {t : AbiType}
    (h : DeclaredBy components t) (layers : List Layer) :
    DeclaredBy components (layers.foldr Layer.wrap t) := by
  induction layers with
  | nil => exact h
  | cons layer layers ih =>
    cases layer with
    | slice => exact .slice ih
    | array length => exact .array length ih

mutual

theorem declaredBy_of_ofDescriptor : (d : Descriptor) → ∀ {room : Nat} {t : AbiType},
    ofDescriptor room d = .ok t → DeclaredBy d.components t
  | ⟨name, type, internalType, components, indexed⟩, room, t, h => by
    obtain ⟨signature, peeled, -, ⟨leaf, hleaf, rfl⟩ | ⟨inner, fields, hfields, rfl⟩⟩ :=
      ofDescriptor_eq_ok h
    · exact (DeclaredBy.leaf (leaf_of_resolveBase hleaf).1).foldr_wrap _
    · exact (DeclaredBy.tuple _ (names_of_fieldsOfDescriptors hfields).1
        (declaredBy_of_fieldsOfDescriptors components hfields)).foldr_wrap _

theorem declaredBy_of_fieldsOfDescriptors : (ds : List Descriptor) →
    ∀ {room : Nat} {taken : List String} {index : Nat} {fields : List (Field AbiType)},
    fieldsOfDescriptors room taken index ds = .ok fields →
    List.Forall₂ (fun d f ↦ DeclaredBy d.components f.type) ds fields
  | [], room, taken, index, fields, h => by
    rw [fieldsOfDescriptors] at h
    rw [← Except.ok.inj h]
    exact .nil
  | d :: rest, room, taken, index, fields, h => by
    rw [fieldsOfDescriptors] at h
    obtain ⟨type, htype, h⟩ := bind_eq_ok_iff.mp h
    obtain ⟨name, -, h⟩ := bind_eq_ok_iff.mp h
    obtain ⟨others, hothers, h⟩ := bind_eq_ok_iff.mp h
    rw [← Except.ok.inj h]
    exact .cons (declaredBy_of_ofDescriptor d htype)
      (declaredBy_of_fieldsOfDescriptors rest hothers)

end

/-! ## Names -/

/-- The fields of the outermost node are bound to identifiers, and no two of them to one. -/
def WellNamed : AbiType → Prop
  | tuple _ fields =>
    (∀ f ∈ fields, f.name ≠ "" ∧ Name.isIdentifier f.name = true) ∧ (fields.map Field.name).Nodup
  | _ => True

theorem heldByReading_wellNamed : HeldByReading WellNamed where
  leaf t hleaf _ := by
    cases t with
    | slice _ | array _ _ | tuple _ _ => exact hleaf.elim
    | _ => trivial
  layer layer _ t := by cases layer <;> trivial
  tuple room components fields internal h := by
    obtain ⟨hnames, hnodup⟩ := bindingNames_eq_ok (names_of_fieldsOfDescriptors h).2
    refine ⟨fun f hf ↦ ?_, hnodup⟩
    have hidentifier := (hnames f.name (List.mem_map_of_mem hf)).2
    refine ⟨fun hempty ↦ ?_, hidentifier⟩
    rw [hempty] at hidentifier
    cases hidentifier

/-! ## All of it -/

/-- What holds of a type that was read with the components. -/
structure WellFormed (components : List Descriptor) (t : AbiType) : Prop where
  numbersInRange : t.Everywhere NumbersInRange
  levels_le : t.levels ≤ nestingLimit
  canonical_eq : t.Everywhere fun u ↦ u.canonical = u.assembled
  declared : DeclaredBy components t
  wellNamed : t.Everywhere WellNamed

/-- **Types that were read are well-formed**, whatever the signature and the names of the components
are. -/
theorem wellFormed_of_parse {signature internalType : String} {components : List Descriptor}
    {t : AbiType} (h : parse signature internalType components = .ok t) :
    WellFormed components t := by
  have hparsed : t.Parsed := ⟨signature, internalType, components, h⟩
  exact {
    numbersInRange := hparsed.numbersInRange
    levels_le := (ofDescriptor_eq_ok_iff.mp h).2
    canonical_eq := fun u _ ↦ canonical_eq_assembled u
    declared := declaredBy_of_ofDescriptor _ h
    wellNamed := hparsed.everywhere heldByReading_wellNamed }

/-- Two declared names of one camel case form, below a group and in two tuples. -/
theorem wellFormed_of_parse_clashing :
    let components : List Descriptor :=
      [⟨"a_b", "uint0256[ 3 ]", none, [], false⟩, ⟨"aB", "tuple", some "struct S.T",
        [⟨"_a", "bytes32", none, [], true⟩, ⟨"a", "address", none, [], false⟩], false⟩]
    let type : AbiType :=
      .slice (.tuple "" [⟨"a_b", "AB", .array (.uint 256) 3⟩, ⟨"aB", "AB0",
        .tuple "ST" [⟨"_a", "A", .fixedBytes 32⟩, ⟨"a", "A0", .address⟩]⟩])
    parse "tuple[]" "" components = .ok type ∧ WellFormed components type := by
  intro components type
  have hparse : parse "tuple[]" "" components = .ok type := by decide +kernel
  exact ⟨hparse, wellFormed_of_parse hparse⟩

end AbiType

end ContractAbi
