import ContractAbi.Proofs.AbiType.BindingNames
import ContractAbi.Proofs.AbiType.Unlimited

/-!
# Describing types

A type that was read can be written as a descriptor again, and reading that gives the type back. The
descriptor has the canonical signature of a leaf or the keyword of a tuple, and the groups of the
layers behind it. The struct of a tuple goes into the internal type, with the same groups behind it
that will be removed together with those of the signature, and so a struct name may have brackets of
its own. The fields are described under their declared names alone: the bound ones depend on nothing
else.

There is a level of the type for each level of the descriptor, so the argument is about reading
without a limit. The limit then allows the one as it allowed the other.
-/

namespace ContractAbi

namespace AbiType

/-! ## Descriptors of types -/

/-- The bracket group of a layer. -/
def Layer.text (layer : Layer) : List Char := '[' :: (layer.digits ++ [']'])

end AbiType

/-- The descriptor with one more group behind its signature, and behind its internal type if it has
one. -/
def Descriptor.inLayer (d : Descriptor) (layer : AbiType.Layer) : Descriptor :=
  { d with
    type := d.type ++ String.ofList layer.text
    internalType := d.internalType.map (· ++ String.ofList layer.text) }

namespace AbiType

mutual

/-- A descriptor of the type, under a name. -/
def describe (name : String) : AbiType → Descriptor
  | slice elem => (describe name elem).inLayer .slice
  | array elem length => (describe name elem).inLayer (.array length)
  | tuple structName fields =>
    { name := name
      type := "tuple"
      internalType := if structName = "" then none else some ("struct " ++ structName)
      components := describeFields fields }
  | t => { name := name, type := t.canonical }

def describeFields : List (Field AbiType) → List Descriptor
  | [] => []
  | f :: rest => describe f.rawName f.type :: describeFields rest

end

theorem describe_wrap (name : String) (layer : Layer) (t : AbiType) :
    describe name (layer.wrap t) = (describe name t).inLayer layer := by
  cases layer <;> rfl

theorem describe_of_isLeaf (name : String) {t : AbiType} (h : t.IsLeaf) :
    describe name t = { name := name, type := t.canonical } := by
  cases t with
  | slice _ | array _ _ | tuple _ _ => exact h.elim
  | _ => rfl

theorem name_describe (name : String) (t : AbiType) : (describe name t).name = name := by
  induction t using inductLayer with
  | leaf t hleaf => rw [describe_of_isLeaf name hleaf]
  | wrap layer t ih => rw [describe_wrap, Descriptor.inLayer, ih]
  | tuple structName fields _ => rfl

/-! ## Texts without blanks -/

/-- There is no blank in the text, so trimming leaves it as it is. -/
def BlankFree (s : List Char) : Prop := ∀ c ∈ s, Text.isBlank c = false

theorem BlankFree.append {s u : List Char} (hs : BlankFree s) (hu : BlankFree u) :
    BlankFree (s ++ u) :=
  List.forall_mem_append.mpr ⟨hs, hu⟩

theorem BlankFree.trim_eq {s : List Char} (h : BlankFree s) : Text.trim s = s := by
  have htrim := Text.trim_append (List.forall_mem_nil _) h (List.forall_mem_nil _)
  rwa [List.nil_append, List.append_nil] at htrim

theorem Layer.blankFree_text (layer : Layer) : BlankFree layer.text := by
  intro c hc
  rw [text, List.mem_cons, List.mem_append, List.mem_singleton] at hc
  rcases hc with rfl | hdigit | rfl
  · decide
  · exact Text.isBlank_of_isDigit (isDigit_of_mem_sizeDigits hdigit)
  · decide

theorem IsLeaf.blankFree_signature {t : AbiType} (h : t.IsLeaf) : BlankFree t.signature := by
  obtain ⟨k, size, -, hs⟩ := h.exists_keyword
  have hletters : k.letters.all (!Text.isBlank ·) = true := by cases k <;> rfl
  rw [hs]
  refine BlankFree.append (fun c hc ↦ ?_) fun c hc ↦ ?_
  · exact (Bool.not_eq_true' _).mp (List.all_eq_true.mp hletters c hc)
  · exact Text.isBlank_of_isDigit (isDigit_of_mem_sizeDigits hc)

theorem toList_type_inLayer (d : Descriptor) (layer : Layer) :
    (d.inLayer layer).type.toList = d.type.toList ++ layer.text := by
  rw [Descriptor.inLayer, String.toList_append, String.toList_ofList]

theorem blankFree_describe (name : String) (t : AbiType) :
    BlankFree (describe name t).type.toList := by
  induction t using inductLayer with
  | leaf t hleaf =>
    rw [describe_of_isLeaf name hleaf, toList_canonical]
    exact hleaf.blankFree_signature
  | wrap layer t ih =>
    rw [describe_wrap, toList_type_inLayer]
    exact ih.append layer.blankFree_text
  | tuple structName fields _ =>
    have hall : "tuple".toList.all (!Text.isBlank ·) = true := rfl
    exact fun c hc ↦ (Bool.not_eq_true' _).mp (List.all_eq_true.mp hall c hc)

/-! ## Reading one layer -/

/-- A layer as it is written, which has no blanks and no zeros in front of its number. -/
def Layer.group (layer : Layer) (h : layer.InRange) : BracketGroup where
  before := []
  opening := []
  digits := layer.digits
  closing := []
  blank_before := List.forall_mem_nil _
  blank_opening := List.forall_mem_nil _
  blank_closing := List.forall_mem_nil _
  isDigit_of_mem := fun _ ↦ isDigit_of_mem_sizeDigits
  size := by
    cases layer with
    | slice => exact Or.inl rfl
    | array length =>
      rw [Layer.digits, Layer.length?, sizeDigits, Option.elim_some, digitsValue_decimal]
      exact Or.inr h

theorem Layer.layer_group (layer : Layer) (h : layer.InRange) :
    (layer.group h).layer = layer := by
  cases layer with
  | slice => rfl
  | array length =>
    exact (if_neg (decimal_ne_nil length)).trans (congrArg Layer.array (digitsValue_decimal length))

theorem parseGroup_digits (signature : List Char) {layer : Layer} (h : layer.InRange) :
    parseGroup signature (layer.digits ++ [']']) = .ok layer := by
  have hgroup := (layer.group h).parseGroup_inside signature
  rwa [layer.layer_group, BracketGroup.inside, Layer.group, List.nil_append, List.append_nil]
    at hgroup

theorem not_mem_digits (layer : Layer) : '[' ∉ layer.digits ++ [']'] := by
  rw [List.mem_append, not_or]
  exact ⟨fun hc ↦ absurd (isDigit_of_mem_sizeDigits hc) (by decide), by decide⟩

theorem lastGroup?_append_text (text : List Char) {layer : Layer} (h : layer.InRange) :
    lastGroup? (text ++ layer.text) = some (text, layer) := by
  rw [lastGroup?, Layer.text, splitLast_append text (not_mem_digits layer)]
  simp only [Option.bind_eq_bind, Option.bind_some, parseGroup_digits _ h]
  rfl

theorem withoutGroup_append_text (internal : List Char) (layer : Layer) :
    withoutGroup (internal ++ layer.text) = internal := by
  rw [withoutGroup, Layer.text, splitLast_append internal (not_mem_digits layer)]
  rfl

namespace Unlimited

theorem ofDescriptor_eq (d : Descriptor) :
    ofDescriptor d = ofSignature (fieldsOfDescriptors [] 0 d.components) d.type.toList
      (d.internalType.getD "").toList := by
  cases d
  rw [ofDescriptor]

theorem ofSignature_of_lastGroup? {fields? : Option (List (Field AbiType))}
    {text internal before : List Char} {layer : Layer}
    (h : lastGroup? (Text.trim text) = some (before, layer)) :
    ofSignature fields? text internal
      = (ofSignature fields? before (withoutGroup internal)).map layer.wrap := by
  rw [ofSignature]
  split
  · rename_i hlast
    rw [h] at hlast
    obtain ⟨rfl, rfl⟩ := Prod.mk.inj (Option.some.inj hlast)
    rfl
  · rename_i hlast
    rw [h] at hlast
    cases hlast

/-- One more group on either side is one more layer around what is read. -/
theorem ofDescriptor_inLayer {d : Descriptor} {layer : Layer} (hlayer : layer.InRange)
    (hblank : BlankFree d.type.toList) :
    ofDescriptor (d.inLayer layer) = (ofDescriptor d).map layer.wrap := by
  have hlast : lastGroup? (Text.trim (d.inLayer layer).type.toList)
      = some (d.type.toList, layer) := by
    rw [toList_type_inLayer, (hblank.append layer.blankFree_text).trim_eq]
    exact lastGroup?_append_text _ hlayer
  have hinternal : withoutGroup ((d.inLayer layer).internalType.getD "").toList
      = (d.internalType.getD "").toList := by
    rw [Descriptor.inLayer]
    cases d.internalType with
    | none => rfl
    | some internal =>
      simp only [Option.map_some, Option.getD_some, String.toList_append, String.toList_ofList]
      exact withoutGroup_append_text _ layer
  rw [ofDescriptor_eq, ofSignature_of_lastGroup? hlast, hinternal, ofDescriptor_eq]
  rfl

/-- Nothing is removed from a base. -/
theorem ofSignature_of_bracketFree {fields? : Option (List (Field AbiType))}
    {text : List Char} (internal : List Char) (hblank : BlankFree text) (hbracket : '[' ∉ text) :
    ofSignature fields? text internal =
      match resolveBase text internal with
      | .ok (.leaf type) => some type
      | .ok .tuple => fields?.map (.tuple (structNameOf internal))
      | .error _ => none := by
  have hlast : lastGroup? (Text.trim text) = none := by
    rw [hblank.trim_eq, lastGroup?, splitLast_eq_none_iff.mpr hbracket]
    rfl
  rw [ofSignature]
  split
  · rename_i hsome
    rw [hlast] at hsome
    cases hsome
  · rcases hbase : resolveBase text internal with e | type | -
    all_goals simp only [hblank.trim_eq, hbase]

end Unlimited

/-! ## Reading the whole -/

theorem IsLeaf.exists_stem {t : AbiType} (hleaf : t.IsLeaf) (hnumbers : t.NumbersInRange) :
    ∃ stem : Stem, stem.text = t.signature ∧ stem.base = .leaf t := by
  have hdigits (n : Nat) : ∀ c ∈ decimal n, c.isDigit = true := fun _ ↦ isDigit_of_mem_decimal
  have hempty : ∀ c ∈ ([] : List Char), c.isDigit = true := List.forall_mem_nil _
  -- the keywords of the integers take the same numbers
  have hwidth {bits : Nat} (h : 0 < bits ∧ bits ≤ 256 ∧ bits % 8 = 0) :
      Keyword.uint.Takes (decimal bits) := by
    obtain ⟨hpos, hle, hmod⟩ := h
    rw [Keyword.Takes, digitsValue_decimal]
    exact ⟨Nat.dvd_of_mod_eq_zero hmod, by omega, hle⟩
  cases t with
  | slice _ | array _ _ | tuple _ _ => exact hleaf.elim
  | uint bits =>
    exact ⟨⟨.uint, decimal bits, hdigits bits, hwidth hnumbers⟩, rfl,
      congrArg (Base.leaf ∘ AbiType.uint) (digitsValue_decimal bits)⟩
  | int bits =>
    exact ⟨⟨.int, decimal bits, hdigits bits, hwidth hnumbers⟩, rfl,
      congrArg (Base.leaf ∘ AbiType.int) (digitsValue_decimal bits)⟩
  | fixedBytes length =>
    have htakes : Keyword.bytes.Takes (decimal length) := by
      rw [Keyword.Takes, digitsValue_decimal]
      exact Or.inr hnumbers
    refine ⟨⟨.bytes, decimal length, hdigits length, htakes⟩, rfl, ?_⟩
    rw [Stem.base, if_neg (by simp), Stem.type, if_neg (decimal_ne_nil length),
      digitsValue_decimal]
  | bool => exact ⟨⟨.bool, [], hempty, rfl⟩, rfl, rfl⟩
  | string => exact ⟨⟨.string, [], hempty, rfl⟩, rfl, rfl⟩
  | bytes => exact ⟨⟨.bytes, [], hempty, Or.inl rfl⟩, rfl, rfl⟩
  | address => exact ⟨⟨.address, [], hempty, rfl⟩, rfl, rfl⟩
  | function => exact ⟨⟨.function, [], hempty, rfl⟩, rfl, rfl⟩

/-- The outermost node has the names that it would be given, and no dot in that of its struct. -/
def NamedAsRead : AbiType → Prop
  | tuple structName fields =>
    '.' ∉ structName.toList ∧
      bindingNames [] 0 (fields.map Field.rawName) = .ok (fields.map Field.name)
  | _ => True

theorem not_mem_structNameOf (internal : List Char) : '.' ∉ (structNameOf internal).toList := by
  rw [structNameOf]
  split
  · rw [String.toList_ofList, List.mem_filter]
    exact fun h ↦ of_decide_eq_true h.2 rfl
  · exact List.not_mem_nil

theorem heldByReading_namedAsRead : HeldByReading NamedAsRead where
  leaf t hleaf _ := by
    cases t with
    | slice _ | array _ _ | tuple _ _ => exact hleaf.elim
    | _ => trivial
  layer layer _ t := by cases layer <;> trivial
  tuple room components fields internal h := by
    obtain ⟨hraw, hbound⟩ := names_of_fieldsOfDescriptors h
    exact ⟨not_mem_structNameOf internal, hraw ▸ hbound⟩

theorem structNameOf_describe {structName : String} (h : '.' ∉ structName.toList) :
    structNameOf ((if structName = "" then none else some ("struct " ++ structName)).getD "").toList
      = structName := by
  split
  · rename_i hempty
    rw [hempty]
    rfl
  · have hstarts : "struct ".toList.isPrefixOf ("struct ".toList ++ structName.toList) = true :=
      List.isPrefixOf_iff_prefix.mpr (List.prefix_append _ _)
    have hrest : ("struct ".toList ++ structName.toList).drop "struct ".length
        = structName.toList := List.drop_left
    have hdots : structName.toList.filter (· ≠ '.') = structName.toList :=
      List.filter_eq_self.mpr fun c hc ↦ decide_eq_true fun hdot ↦ h (hdot ▸ hc)
    rw [Option.getD_some, String.toList_append, structNameOf, if_pos hstarts, hrest, hdots,
      String.ofList_toList]

theorem fieldsOfDescriptors_describeFields {fields : List (Field AbiType)}
    (hread : ∀ f ∈ fields, ∀ name, Unlimited.ofDescriptor (describe name f.type) = some f.type)
    {taken : List String} {index : Nat}
    (hnames : bindingNames taken index (fields.map Field.rawName) = .ok (fields.map Field.name)) :
    Unlimited.fieldsOfDescriptors taken index (describeFields fields) = some fields := by
  induction fields generalizing taken index with
  | nil => rfl
  | cons f fields ih =>
    obtain ⟨hf, hrest⟩ := List.forall_mem_cons.mp hread
    rw [List.map_cons, List.map_cons, bindingNames] at hnames
    obtain ⟨name, hname, hnames⟩ := bind_eq_ok_iff.mp hnames
    obtain ⟨names, hothers, hnames⟩ := bind_eq_ok_iff.mp hnames
    obtain ⟨rfl, rfl⟩ := List.cons.inj (Except.ok.inj hnames)
    rw [describeFields, Unlimited.fieldsOfDescriptors, hf, name_describe, hname]
    simp only [Option.bind_eq_bind, Option.bind_some, Except.toOption, ih hrest hothers]
    rfl

theorem ofDescriptor_describe {t : AbiType} (hnumbers : t.Everywhere NumbersInRange)
    (hnames : t.Everywhere NamedAsRead) (name : String) :
    Unlimited.ofDescriptor (describe name t) = some t := by
  induction t using inductLayer generalizing name with
  | leaf t hleaf =>
    obtain ⟨stem, htext, hbase⟩ := hleaf.exists_stem (hleaf.everywhere_iff.mp hnumbers)
    have hresolve : resolveBase t.signature [] = .ok (.leaf t) := by
      rw [← htext, stem.resolveBase_text, hbase]
    rw [describe_of_isLeaf name hleaf, Unlimited.ofDescriptor_eq]
    dsimp only
    rw [toList_canonical, Unlimited.ofSignature_of_bracketFree _ hleaf.blankFree_signature
      (bracketFree_of_resolveBase hresolve).1]
    have hempty : (none.getD "").toList = [] := rfl
    rw [hempty, hresolve]
  | wrap layer t ih =>
    obtain ⟨hlayer, hnumbers⟩ := everywhere_wrap_iff.mp hnumbers
    obtain ⟨-, hnames⟩ := everywhere_wrap_iff.mp hnames
    have hinRange : layer.InRange := by
      cases layer with
      | slice => trivial
      | array length => exact hlayer
    rw [describe_wrap, Unlimited.ofDescriptor_inLayer hinRange (blankFree_describe name t),
      ih hnumbers hnames]
    rfl
  | tuple structName fields ih =>
    obtain ⟨-, hnumbers⟩ := everywhere_tuple_iff.mp hnumbers
    obtain ⟨⟨hdot, hbound⟩, hnames⟩ := everywhere_tuple_iff.mp hnames
    have hfields := fieldsOfDescriptors_describeFields
      (fun f hf ↦ ih f hf (hnumbers f hf) (hnames f hf)) hbound
    have hresolve (internal : List Char) : resolveBase "tuple".toList internal = .ok .tuple := rfl
    have hbracket : '[' ∉ "tuple".toList := by decide
    have hblank := blankFree_describe name (tuple structName fields)
    rw [describe] at hblank ⊢
    rw [Unlimited.ofDescriptor_eq, Unlimited.ofSignature_of_bracketFree _ hblank hbracket, hfields]
    dsimp only
    rw [hresolve, structNameOf_describe hdot]
    rfl

/-! ## Types that were read -/

/-- There is no tuple in the type: it is a leaf in any number of slices and arrays. -/
def TupleFree : AbiType → Prop
  | slice elem => TupleFree elem
  | array elem _ => TupleFree elem
  | tuple _ _ => False
  | _ => True

/-- Without tuples there is nothing to say but the canonical signature. -/
theorem describe_of_tupleFree (name : String) {t : AbiType} (h : t.TupleFree) :
    describe name t = { name := name, type := t.canonical } := by
  induction t using inductLayer with
  | leaf t hleaf => exact describe_of_isLeaf name hleaf
  | wrap layer t ih =>
    have hinner : t.TupleFree := by cases layer <;> exact h
    have hsignature : t.canonical ++ String.ofList layer.text = (layer.wrap t).canonical := by
      rw [canonical, canonical, signature_wrap, Layer.text, String.ofList_append]
    rw [describe_wrap, ih hinner, Descriptor.inLayer, ← hsignature]
    rfl
  | tuple structName fields _ => exact h.elim

/-- **Describing a type that was read.** Its descriptor is read as the type itself, with the names
of its structs and fields; and if there is no tuple in it, the canonical signature is enough. -/
theorem parse_describe {t : AbiType} (h : t.Parsed) :
    (∀ name, parse (t.describe name).type ((t.describe name).internalType.getD "")
      (t.describe name).components = .ok t) ∧
    (t.TupleFree → parse t.canonical = .ok t) := by
  obtain ⟨signature, internalType, components, hparse⟩ := id h
  have hlevels : t.levels ≤ nestingLimit := (ofDescriptor_eq_ok_iff.mp hparse).2
  have hdescribed (name : String) : parse (t.describe name).type
      ((t.describe name).internalType.getD "") (t.describe name).components = .ok t := by
    have hread := ofDescriptor_describe h.numbersInRange
      (h.everywhere heldByReading_namedAsRead) name
    rw [Unlimited.ofDescriptor_eq] at hread
    rw [parse, ofDescriptor_eq_ok_iff, Unlimited.ofDescriptor_eq]
    exact ⟨hread, hlevels⟩
  refine ⟨hdescribed, fun hfree ↦ ?_⟩
  have hcanonical := hdescribed ""
  rwa [describe_of_tupleFree "" hfree] at hcanonical

/-- The struct has brackets in its name, and those of the layers behind it; two fields clash. -/
theorem parse_describe_bracketed :
    let struct : AbiType :=
      .slice (.array (.tuple "AB[5]" [⟨"a_b", "AB", .array (.uint 8) 3⟩, ⟨"aB", "AB0",
        .tuple "" [⟨"_x", "X", .bool⟩]⟩]) 2)
    let numbers : AbiType := .slice (.array (.int 256) 3)
    (struct.Parsed ∧ (struct.describe "s").type = "tuple[2][]" ∧
      (struct.describe "s").internalType = some "struct AB[5][2][]" ∧
      parse "tuple[2][]" "struct AB[5][2][]" (struct.describe "s").components = .ok struct) ∧
    (numbers.Parsed ∧ numbers.TupleFree ∧ parse numbers.canonical = .ok numbers) := by
  intro struct numbers
  have hstruct : struct.Parsed := by
    refine ⟨" tuple [2 ] []", "struct A.B[5][07][]", [⟨"a_b", "uint08[3]", none, [], false⟩,
      ⟨"aB", "tuple", some "struct", [⟨"_x", "bool", none, [], false⟩], false⟩], ?_⟩
    decide +kernel
  have hnumbers : numbers.Parsed := ⟨"int256[ 003 ][]", "", [], by decide +kernel⟩
  have htype : (struct.describe "s").type = "tuple[2][]" := by decide +kernel
  have hinternal : (struct.describe "s").internalType = some "struct AB[5][2][]" := by
    decide +kernel
  have hread := (parse_describe hstruct).1 "s"
  rw [htype, hinternal] at hread
  exact ⟨⟨hstruct, htype, hinternal, hread⟩, hnumbers, trivial, (parse_describe hnumbers).2 trivial⟩

end AbiType

end ContractAbi
