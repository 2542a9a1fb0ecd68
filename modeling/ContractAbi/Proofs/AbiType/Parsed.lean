import ContractAbi.Arguments
import ContractAbi.Proofs.AbiType.Signature
import ContractAbi.Proofs.Results

/-!
# Types that were read

The tree of a type can hold any numbers. One that was read from a signature holds only those that
the reader lets through, at every node: `AbiType.Parsed.numbersInRange`. Packing and unpacking rely
on it without testing it again. The types of arguments come from descriptors, so an argument list is
shown to have such types by reading it: `Arguments.parsed_of_ofDescriptors`.
-/

namespace ContractAbi

namespace AbiType

/-- Types that are read from some signature, internal type and components. -/
def Parsed (t : AbiType) : Prop :=
  ∃ signature internalType components, parse signature internalType components = .ok t

/-- The numbers of the outermost node are those of some signature. -/
def NumbersInRange : AbiType → Prop
  | uint bits | int bits => 0 < bits ∧ bits ≤ 256 ∧ bits % 8 = 0
  | fixedBytes length => 0 < length ∧ length ≤ wordSize
  | array _ length => 0 < length ∧ length ≤ Count.limit
  | _ => True

theorem parsed_of_ofDescriptor {d : Descriptor} {t : AbiType}
    (h : ofDescriptor nestingLimit d = .ok t) : t.Parsed := by
  obtain ⟨name, type, internalType, components, indexed⟩ := d
  refine ⟨type, internalType.getD "", components, ?_⟩
  rw [← h, parse, ofDescriptor, ofDescriptor, Option.getD_some]

/-! ## Layers -/

def Layer.InRange : Layer → Prop
  | .slice => True
  | .array length => 0 < length ∧ length ≤ Count.limit

/-- What stands between the brackets of a group that is read, without the blanks around it. -/
theorem digits_of_parseGroup {signature group : List Char} {layer : Layer}
    (h : parseGroup signature group = .ok layer) :
    ∃ content, group = content ++ [']'] ∧ (∀ c ∈ Text.trim content, c.isDigit = true) ∧
      (Text.trim content = [] ∧ layer = .slice ∨
        1 ≤ digitsValue (Text.trim content) ∧ digitsValue (Text.trim content) ≤ Count.limit ∧
          layer = .array (digitsValue (Text.trim content))) := by
  rw [parseGroup] at h
  split at h
  · cases h
  rename_i hlast
  obtain ⟨content, rfl⟩ := List.getLast?_eq_some_iff.mp (not_not.mp hlast)
  rw [List.dropLast_concat] at h
  refine ⟨content, rfl, ?_⟩
  dsimp only at h
  split at h
  · rename_i hnil
    rw [hnil]
    exact ⟨List.forall_mem_nil _, Or.inl ⟨rfl, (Except.ok.inj h).symm⟩⟩
  split at h
  · cases h
  rename_i hall
  rw [Bool.not_eq_true', Bool.not_eq_false] at hall
  refine ⟨List.all_eq_true.mp hall, Or.inr ?_⟩
  split at h
  · cases h
  · cases h
  rename_i n hzero hn
  obtain ⟨rfl, hle⟩ := ofDigits?_eq_some_iff.mp hn
  exact ⟨Nat.one_le_iff_ne_zero.mpr fun h0 ↦ hzero h0, hle, (Except.ok.inj h).symm⟩

theorem inRange_of_parseGroup {signature group : List Char} {layer : Layer}
    (h : parseGroup signature group = .ok layer) : layer.InRange := by
  obtain ⟨content, -, -, ⟨-, rfl⟩ | ⟨hpos, hle, rfl⟩⟩ := digits_of_parseGroup h
  · trivial
  · exact ⟨hpos, hle⟩

theorem layers_inRange_of_peel {signature : List Char} {room : Nat} {base internal : List Char}
    {peeled : Peeled} (h : peel signature room base internal = .ok peeled) :
    ∀ layer ∈ peeled.layers, layer.InRange := by
  induction room generalizing base internal peeled with
  | zero =>
    rw [peel] at h
    split at h
    · rw [← Except.ok.inj h]
      exact List.forall_mem_nil _
    · cases h
  | succ room ih =>
    rw [peel] at h
    split at h
    · rw [← Except.ok.inj h]
      exact List.forall_mem_nil _
    · obtain ⟨layer, hlayer, h⟩ := bind_eq_ok_iff.mp h
      obtain ⟨inner, hinner, h⟩ := bind_eq_ok_iff.mp h
      rw [← Except.ok.inj h]
      exact List.forall_mem_cons.mpr ⟨inRange_of_parseGroup hlayer, ih hinner⟩

theorem everywhere_wrap_iff {p : AbiType → Prop} {layer : Layer} {t : AbiType} :
    (layer.wrap t).Everywhere p ↔ p (layer.wrap t) ∧ t.Everywhere p := by
  cases layer with
  | slice => exact everywhere_slice_iff
  | array length => exact everywhere_array_iff

theorem everywhere_foldr_wrap {p : AbiType → Prop} {layers : List Layer} {t : AbiType}
    (hlayers : ∀ layer ∈ layers, ∀ u, p (layer.wrap u)) (ht : t.Everywhere p) :
    (layers.foldr Layer.wrap t).Everywhere p := by
  induction layers with
  | nil => exact ht
  | cons layer layers ih =>
    obtain ⟨hlayer, hrest⟩ := List.forall_mem_cons.mp hlayers
    exact everywhere_wrap_iff.mpr ⟨hlayer _, ih hrest⟩

/-! ## Bases -/

theorem integerWidth_eq_ok_iff {base : String} {bits n : Nat} :
    integerWidth base bits = .ok n ↔ bits = n ∧ 0 < n ∧ n ≤ 256 ∧ n % 8 = 0 := by
  rw [integerWidth]
  constructor
  · intro h
    split at h
    · cases h
    · obtain rfl := Except.ok.inj h
      omega
  · rintro ⟨rfl, hwidth⟩
    exact if_neg (by omega)

theorem leaf_of_resolveBase {base internal : List Char} {t : AbiType}
    (h : resolveBase base internal = .ok (.leaf t)) : t.IsLeaf ∧ t.NumbersInRange := by
  simp only [resolveBase] at h
  obtain ⟨⟨letters, size⟩, -, h⟩ := bind_eq_ok_iff.mp h
  split at h
  · cases h
  · cases h
  · obtain ⟨n, hn, h⟩ := bind_eq_ok_iff.mp h
    cases h
    exact ⟨trivial, (integerWidth_eq_ok_iff.mp hn).2⟩
  · obtain ⟨n, hn, h⟩ := bind_eq_ok_iff.mp h
    cases h
    exact ⟨trivial, (integerWidth_eq_ok_iff.mp hn).2⟩
  · cases h
    exact ⟨trivial, trivial⟩
  · split at h
    · cases h
    · split at h
      · cases h
      · cases h
        exact ⟨trivial, by omega, by rw [wordSize]; omega⟩
  · cases h
  · cases h
    exact ⟨trivial, trivial⟩
  · cases h
    exact ⟨trivial, trivial⟩
  · cases h
    exact ⟨trivial, trivial⟩
  · cases h
    exact ⟨trivial, trivial⟩
  · cases h
  · split at h
    · cases h
      exact ⟨trivial, trivial⟩
    · cases h

/-! ## Descriptors -/

/-- What is read from a descriptor: its layers around a leaf, or around the tuple of its
components. -/
theorem ofDescriptor_eq_ok {room : Nat} {d : Descriptor} {t : AbiType}
    (h : ofDescriptor room d = .ok t) :
    ∃ signature peeled,
      peel signature room signature (d.internalType.getD "").toList = .ok peeled ∧
      ((∃ leaf, resolveBase peeled.base peeled.internal = .ok (.leaf leaf) ∧
          t = peeled.layers.foldr Layer.wrap leaf) ∨
        ∃ inner fields, fieldsOfDescriptors inner [] 0 d.components = .ok fields ∧
          t = peeled.layers.foldr Layer.wrap (.tuple (structNameOf peeled.internal) fields)) := by
  obtain ⟨name, type, internalType, components, indexed⟩ := d
  simp only [ofDescriptor, pure_eq_ok] at h
  split at h
  · cases h
  · obtain ⟨peeled, hpeel, h⟩ := bind_eq_ok_iff.mp h
    refine ⟨_, peeled, hpeel, ?_⟩
    obtain ⟨base, hbase, h⟩ := bind_eq_ok_iff.mp h
    split at h
    · exact Or.inl ⟨_, hbase, (Except.ok.inj h).symm⟩
    · split at h
      · cases h
      · obtain ⟨fields, hfields, h⟩ := bind_eq_ok_iff.mp h
        exact Or.inr ⟨_, fields, hfields, (Except.ok.inj h).symm⟩

/-- Every step of reading gives a node with the property. -/
structure HeldByReading (p : AbiType → Prop) : Prop where
  leaf : ∀ t : AbiType, t.IsLeaf → t.NumbersInRange → p t
  layer : ∀ layer : Layer, layer.InRange → ∀ t, p (layer.wrap t)
  tuple : ∀ room components fields internal,
    fieldsOfDescriptors room [] 0 components = .ok fields →
      p (.tuple (structNameOf internal) fields)

mutual

theorem everywhere_of_ofDescriptor {p : AbiType → Prop} (hp : HeldByReading p) :
    (d : Descriptor) → ∀ {room : Nat} {t : AbiType}, ofDescriptor room d = .ok t → t.Everywhere p
  | ⟨name, type, internalType, components, indexed⟩, room, t, h => by
    obtain ⟨signature, peeled, hpeel, hbase⟩ := ofDescriptor_eq_ok h
    have hlayers : ∀ layer ∈ peeled.layers, ∀ u, p (layer.wrap u) :=
      fun layer hmem ↦ hp.layer layer (layers_inRange_of_peel hpeel layer hmem)
    obtain ⟨leaf, hresolve, rfl⟩ | ⟨inner, fields, hfields, rfl⟩ := hbase
    · obtain ⟨hleaf, hnumbers⟩ := leaf_of_resolveBase hresolve
      exact everywhere_foldr_wrap hlayers (hleaf.everywhere_iff.mpr (hp.leaf leaf hleaf hnumbers))
    · exact everywhere_foldr_wrap hlayers (everywhere_tuple_iff.mpr
        ⟨hp.tuple inner components fields _ hfields,
          everywhere_of_fieldsOfDescriptors hp components hfields⟩)

theorem everywhere_of_fieldsOfDescriptors {p : AbiType → Prop} (hp : HeldByReading p) :
    (ds : List Descriptor) →
    ∀ {room : Nat} {taken : List String} {index : Nat} {fields : List (Field AbiType)},
    fieldsOfDescriptors room taken index ds = .ok fields →
    ∀ f ∈ fields, f.type.Everywhere p
  | [], room, taken, index, fields, h => by
    rw [fieldsOfDescriptors] at h
    rw [← Except.ok.inj h]
    exact List.forall_mem_nil _
  | d :: rest, room, taken, index, fields, h => by
    rw [fieldsOfDescriptors] at h
    obtain ⟨type, htype, h⟩ := bind_eq_ok_iff.mp h
    obtain ⟨name, -, h⟩ := bind_eq_ok_iff.mp h
    obtain ⟨others, hothers, h⟩ := bind_eq_ok_iff.mp h
    rw [← Except.ok.inj h]
    exact List.forall_mem_cons.mpr
      ⟨everywhere_of_ofDescriptor hp d htype, everywhere_of_fieldsOfDescriptors hp rest hothers⟩

end

/-- What holds of each node as it is read holds everywhere in a type that was read. -/
theorem Parsed.everywhere {p : AbiType → Prop} {t : AbiType} (h : t.Parsed)
    (hp : HeldByReading p) : t.Everywhere p := by
  obtain ⟨signature, internalType, components, h⟩ := h
  exact everywhere_of_ofDescriptor hp _ h

theorem heldByReading_numbersInRange : HeldByReading NumbersInRange where
  leaf _ _ hnumbers := hnumbers
  layer layer hlayer t := by
    cases layer with
    | slice => trivial
    | array length => exact hlayer
  tuple _ _ _ _ _ := trivial

theorem Parsed.numbersInRange {t : AbiType} (h : t.Parsed) : t.Everywhere NumbersInRange :=
  h.everywhere heldByReading_numbersInRange

end AbiType

/-- Arguments that are read from descriptors have types that were read. -/
theorem Arguments.parsed_of_ofDescriptors {ds : List Descriptor} {args : Arguments}
    (h : ofDescriptors ds = .ok args) : ∀ a ∈ args, a.type.Parsed := by
  rw [ofDescriptors, mapM_eq_ok_iff] at h
  refine forall_mem_of_forall₂ h fun d _ a hd ↦ ?_
  rw [Descriptor.toArgument, bind_eq_ok_iff] at hd
  obtain ⟨t, ht, hd⟩ := hd
  rw [← Except.ok.inj hd]
  exact AbiType.parsed_of_ofDescriptor ht

end ContractAbi
