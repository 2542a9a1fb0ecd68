import Mathlib.Algebra.BigOperators.Ring.List
import Mathlib.Algebra.Order.BigOperators.Group.List
import ContractAbi.Proofs.Decoding.Inhabitants

/-!
# How large a value can be

Counts and lengths come from the payload, and lengths of arrays from the type. Neither can ask for
much: an array needs a word for each element in the part of the payload that it was read from, and
a text or a byte string needs its bytes there. `Value.SizeWithin` says so of one node, and holds of
all nodes of what is read.

The elements of a sequence may share the bytes behind their offsets, so nesting is what lets a value
outgrow its payload. Each slice or array on a path multiplies the leaves below it by the words of
the payload at most: `AbiType.leafCount_le_of_unpack`.
-/

namespace ContractAbi

open Decoding

namespace Value

/-! ## Nodes of a value -/

mutual

/-- The value and all values inside it. -/
def nodes : Value → List Value
  | array items => array items :: nodesOfItems items
  | tuple entries => tuple entries :: nodesOfEntries entries
  | v => [v]

def nodesOfItems : List Value → List Value
  | [] => []
  | v :: rest => nodes v ++ nodesOfItems rest

def nodesOfEntries : List (String × Value) → List Value
  | [] => []
  | e :: rest => nodes e.2 ++ nodesOfEntries rest

end

theorem nodes_array (items : List Value) :
    (array items).nodes = array items :: items.flatMap nodes := by
  have hitems : nodesOfItems items = items.flatMap nodes := by
    induction items with
    | nil => rfl
    | cons v rest ih => rw [nodesOfItems, List.flatMap_cons, ih]
  rw [nodes, hitems]

theorem nodes_tuple (entries : List (String × Value)) :
    (tuple entries).nodes = tuple entries :: (entries.map Prod.snd).flatMap nodes := by
  have hentries : nodesOfEntries entries = (entries.map Prod.snd).flatMap nodes := by
    induction entries with
    | nil => rfl
    | cons e rest ih => rw [nodesOfEntries, List.map_cons, List.flatMap_cons, ih]
  rw [nodes, hentries]

/-- Values without parts: all but arrays and tuples. -/
def IsLeaf : Value → Prop
  | array _ | tuple _ => False
  | _ => True

instance : DecidablePred IsLeaf
  | array _ | tuple _ => inferInstanceAs (Decidable False)
  | uint _ | int _ | bool _ | string _ | bytes _ | fixedBytes _ | address _ | function _ =>
    inferInstanceAs (Decidable True)

theorem IsLeaf.nodes_eq {v : Value} (h : v.IsLeaf) : v.nodes = [v] := by
  cases v with
  | array _ | tuple _ => exact h.elim
  | _ => rfl

/-! ## Leaves -/

/-- The number of leaves of the kinds that were chosen. -/
def leafCount (kinds : String → Bool) (v : Value) : Nat :=
  v.nodes.countP fun u ↦ u.IsLeaf ∧ kinds u.kindName

variable (kinds : String → Bool)

theorem leafCount_array (items : List Value) :
    (array items).leafCount kinds = (items.map (leafCount kinds)).sum := by
  rw [leafCount, nodes_array, List.countP_cons_of_neg (by simp [IsLeaf]), List.countP_flatMap]
  rfl

theorem leafCount_tuple (entries : List (String × Value)) :
    (tuple entries).leafCount kinds = ((entries.map Prod.snd).map (leafCount kinds)).sum := by
  rw [leafCount, nodes_tuple, List.countP_cons_of_neg (by simp [IsLeaf]), List.countP_flatMap]
  rfl

variable {kinds}

theorem IsLeaf.leafCount_eq {v : Value} (h : v.IsLeaf) :
    v.leafCount kinds = if kinds v.kindName then 1 else 0 := by
  rw [leafCount, h.nodes_eq, List.countP_singleton]
  simp only [h, true_and, decide_eq_true_eq]

/-! ## Sizes -/

/-- The value, whatever its parts may be, is no larger than a payload of that size: it has a word
there for each element, or all bytes of its content. -/
def SizeWithin (size : Nat) : Value → Prop
  | array items => items.length ≤ size / wordSize
  | string text => text.utf8ByteSize ≤ size
  | bytes content => content.length ≤ size
  | _ => True

theorem SizeWithin.mono {m n : Nat} (hle : m ≤ n) {v : Value} (h : v.SizeWithin m) :
    v.SizeWithin n := by
  cases v with
  | array items => exact Nat.le_trans h (Nat.div_le_div_right hle)
  | string text => exact Nat.le_trans h hle
  | bytes content => exact Nat.le_trans h hle
  | _ => trivial

end Value

namespace AbiType

/-! ## Leaves of a type -/

instance : DecidablePred IsLeaf
  | slice _ | array _ _ | tuple _ _ => inferInstanceAs (Decidable False)
  | uint _ | int _ | bool | string | bytes | fixedBytes _ | address | function =>
    inferInstanceAs (Decidable True)

/-- The kind of the values of the type. -/
def kindName : AbiType → String
  | uint _ => "uint"
  | int _ => "int"
  | bool => "bool"
  | string => "string"
  | bytes => "bytes"
  | fixedBytes _ => "fixed bytes"
  | address => "address"
  | function => "function"
  | slice _ | array _ _ => "array"
  | tuple _ _ => "tuple"

/-- The number of leaves of the kinds that were chosen. The element of a slice or an array counts
once. -/
def leafCount (kinds : String → Bool) (t : AbiType) : Nat :=
  t.nodes.countP fun u ↦ u.IsLeaf ∧ kinds u.kindName

section LeafCount

variable {kinds : String → Bool}

theorem leafCount_wrap (layer : Layer) (elem : AbiType) :
    (layer.wrap elem).leafCount kinds = elem.leafCount kinds := by
  have hnot : ¬(layer.wrap elem).IsLeaf := by cases layer <;> exact id
  have hnodes : (layer.wrap elem).nodes = layer.wrap elem :: elem.nodes := by cases layer <;> rfl
  rw [leafCount, hnodes, List.countP_cons_of_neg (by simp [hnot]), leafCount]

theorem leafCount_tuple (structName : String) (fields : List (Field AbiType)) :
    (tuple structName fields).leafCount kinds
      = (fields.map fun f ↦ f.type.leafCount kinds).sum := by
  rw [leafCount, nodes_tuple, List.countP_cons_of_neg (by simp [IsLeaf]), List.countP_flatMap]
  rfl

theorem IsLeaf.leafCount_eq {t : AbiType} (h : t.IsLeaf) :
    t.leafCount kinds = if kinds t.kindName then 1 else 0 := by
  rw [leafCount, h.nodes_eq, List.countP_singleton]
  simp only [h, true_and, decide_eq_true_eq]

end LeafCount

/-! ## Depth -/

mutual

/-- The most slices and arrays that lie on a path from the root to a leaf. -/
def sequenceDepth : AbiType → Nat
  | slice elem => sequenceDepth elem + 1
  | array elem _ => sequenceDepth elem + 1
  | tuple _ fields => sequenceDepthOfFields fields
  | _ => 0

def sequenceDepthOfFields : List (Field AbiType) → Nat
  | [] => 0
  | f :: rest => max (sequenceDepth f.type) (sequenceDepthOfFields rest)

end

theorem sequenceDepth_wrap (layer : Layer) (elem : AbiType) :
    (layer.wrap elem).sequenceDepth = elem.sequenceDepth + 1 := by
  cases layer <;> rfl

theorem IsLeaf.sequenceDepth_eq_zero {t : AbiType} (h : t.IsLeaf) : t.sequenceDepth = 0 := by
  cases t with
  | slice _ | array _ _ | tuple _ _ => exact h.elim
  | _ => rfl

theorem sequenceDepthOfFields_le_iff {fields : List (Field AbiType)} {n : Nat} :
    sequenceDepthOfFields fields ≤ n ↔ ∀ f ∈ fields, f.type.sequenceDepth ≤ n := by
  induction fields with
  | nil => simp [sequenceDepthOfFields]
  | cons f rest ih => rw [sequenceDepthOfFields, Nat.max_le, ih, List.forall_mem_cons]

/-! ## Sizes of what is read -/

variable {data : Bytes} {index : Nat}

/-- The values of a leaf are leaves of its kind. -/
theorem isLeaf_of_inhabits {t : AbiType} (ht : t.IsLeaf) {v : Value} (h : t.Inhabits v) :
    v.IsLeaf ∧ v.kindName = t.kindName := by
  cases t with
  | slice _ | array _ _ | tuple _ _ => exact ht.elim
  | _ => cases v <;> first | exact ⟨trivial, rfl⟩ | exact h.elim

theorem exists_items_of_inhabits {layer : Layer} {elem : AbiType} {v : Value}
    (h : (layer.wrap elem).Inhabits v) :
    ∃ items, .array items = v ∧ ∀ item ∈ items, elem.Inhabits item := by
  cases layer with
  | slice =>
    cases v with
    | array items => exact ⟨items, rfl, h⟩
    | _ => exact h.elim
  | array length =>
    cases v with
    | array items => exact ⟨items, rfl, h.2⟩
    | _ => exact h.elim

theorem utf8ByteSize_of_fromUTF8? {b : ByteArray} {text : String}
    (h : String.fromUTF8? b = some text) : text.utf8ByteSize = b.size := by
  rw [String.fromUTF8?, Option.dite_none_right_eq_some] at h
  obtain ⟨_, h⟩ := h
  rw [← Option.some.inj h]
  rfl

/-- The content of a text or a byte string is a part of the payload. -/
theorem sizeWithin_of_unpack_leaf {t : AbiType} (ht : t.IsLeaf)
    (hn : t.Everywhere NumbersInRange) (hdata : data.length < offsetLimit) {v : Value}
    (h : t.unpack index data = .ok v) : v.SizeWithin data.length := by
  have htake (start length : Nat) : ((data.drop start).take length).length ≤ data.length := by
    rw [List.length_take, List.length_drop]
    omega
  cases t with
  | string =>
    rw [unpack] at h
    obtain ⟨⟨start, length⟩, -, h⟩ := bind_eq_ok_iff.mp h
    simp only [readText] at h
    split at h
    · rename_i text htext
      cases h
      rw [Value.SizeWithin, utf8ByteSize_of_fromUTF8? htext]
      exact htake start length
    · cases h
  | bytes =>
    rw [unpack] at h
    obtain ⟨⟨start, length⟩, -, h⟩ := bind_eq_ok_iff.mp h
    cases h
    exact htake start length
  | slice _ | array _ _ | tuple _ _ => exact ht.elim
  | _ =>
    have hv := inhabits_of_unpack hn index data v hdata h
    cases v <;> first | exact trivial | exact hv.elim

/-- **Every node of what is read is within the payload.** -/
theorem sizeWithin_of_unpack {t : AbiType} (hn : t.Everywhere NumbersInRange)
    (hdata : data.length < offsetLimit) {v : Value} (h : t.unpack index data = .ok v) :
    ∀ u ∈ v.nodes, u.SizeWithin data.length := by
  induction t using inductLayer generalizing index data v with
  | leaf t ht =>
    have hv := (isLeaf_of_inhabits ht (inhabits_of_unpack hn index data v hdata h)).1
    rw [hv.nodes_eq]
    exact List.forall_mem_singleton.mpr (sizeWithin_of_unpack_leaf ht hn hdata h)
  | wrap layer elem ih =>
    obtain ⟨-, start, items, rfl, -, hroom, hitems⟩ := exists_items_of_unpack hdata h
    have hpart : (data.drop start).length ≤ data.length := by simp
    rw [Value.nodes_array, List.forall_mem_cons]
    refine ⟨(Nat.le_div_iff_mul_le (by decide)).mpr (Nat.le_trans hroom hpart), fun u hu ↦ ?_⟩
    obtain ⟨item, hitem, hu⟩ := List.mem_flatMap.mp hu
    obtain ⟨i, hread⟩ := hitems item hitem
    exact (ih (everywhere_wrap_iff.mp hn).2 (length_drop_lt hdata) hread u hu).mono hpart
  | tuple structName fields ih =>
    obtain ⟨start, values, rfl, hvalues⟩ := exists_values_of_unpack hdata h
    have hpart : (data.drop start).length ≤ data.length := by simp
    have hlength := hvalues.length_eq
    rw [Value.nodes_tuple, List.forall_mem_cons, List.map_snd_zip (by simp [hlength])]
    refine ⟨trivial, fun u hu ↦ ?_⟩
    obtain ⟨value, hvalue, hu⟩ := List.mem_flatMap.mp hu
    have hread : ∀ value ∈ values, ∀ u ∈ value.nodes, u.SizeWithin (data.drop start).length :=
      forall_mem_of_forall₂ hvalues fun f hf value ⟨i, hi⟩ ↦
        ih f hf ((everywhere_tuple_iff.mp hn).2 f hf) (length_drop_lt hdata) hi
    exact (hread value hvalue u hu).mono hpart

/-- Behind a slice or an array there is a word at least, whether or not it has elements. -/
theorem wordSize_le_of_unpack {t : AbiType} (ht : t.sequenceDepth ≠ 0)
    (hdata : data.length < offsetLimit) {v : Value} (h : t.unpack index data = .ok v) :
    wordSize ≤ data.length := by
  induction t using inductLayer generalizing index data v with
  | leaf t hleaf => exact absurd hleaf.sequenceDepth_eq_zero ht
  | wrap layer elem _ => exact (exists_items_of_unpack hdata h).1
  | tuple structName fields ih =>
    obtain ⟨start, values, rfl, hvalues⟩ := exists_values_of_unpack hdata h
    by_contra hlt
    -- then no field that was read has a sequence in it
    have hzero : ∀ f ∈ fields, f.type.sequenceDepth ≤ 0 :=
      forall_mem_of_forall₂ ((List.forall₂_and_left _ _).mpr ⟨ih, hvalues⟩).flip
        fun value _ f ⟨hf, i, hi⟩ ↦ by
          by_contra hdepth
          have hpart := hf (by omega) (length_drop_lt hdata) hi
          rw [List.length_drop] at hpart
          omega
    have hle : sequenceDepthOfFields fields ≤ 0 := sequenceDepthOfFields_le_iff.mpr hzero
    exact ht (Nat.le_zero.mp hle)

/-! ## Leaves of what is read -/

theorem pow_div_le_pow_div {size m n : Nat} (hle : m ≤ n) (hword : n ≠ 0 → wordSize ≤ size) :
    (size / wordSize) ^ m ≤ (size / wordSize) ^ n := by
  rcases Nat.eq_zero_or_pos n with rfl | hn
  · rw [Nat.le_zero.mp hle]
  · exact Nat.pow_le_pow_right (Nat.div_pos (hword (by omega)) (by decide)) hle

/-- **Each sequence on a path multiplies the leaves below it by the words of the payload at
most.** -/
theorem leafCount_le_of_inhabits {kinds : String → Bool} {size : Nat} {t : AbiType} {v : Value}
    (h : t.Inhabits v) (hsize : ∀ u ∈ v.nodes, u.SizeWithin size)
    (hword : t.sequenceDepth ≠ 0 → wordSize ≤ size) :
    v.leafCount kinds ≤ t.leafCount kinds * (size / wordSize) ^ t.sequenceDepth := by
  induction t using inductLayer generalizing v with
  | leaf t ht =>
    obtain ⟨hv, hkind⟩ := isLeaf_of_inhabits ht h
    rw [hv.leafCount_eq, ht.leafCount_eq, hkind, ht.sequenceDepth_eq_zero, Nat.pow_zero,
      Nat.mul_one]
  | wrap layer elem ih =>
    obtain ⟨items, rfl, hitems⟩ := exists_items_of_inhabits h
    rw [Value.nodes_array, List.forall_mem_cons] at hsize
    obtain ⟨hcount, hparts⟩ := hsize
    have hitem : ∀ n ∈ items.map (Value.leafCount kinds),
        n ≤ elem.leafCount kinds * (size / wordSize) ^ elem.sequenceDepth := by
      refine List.forall_mem_map.mpr fun item hitem ↦ ih (hitems item hitem) ?_ ?_
      · exact fun u hu ↦ hparts u (List.mem_flatMap_of_mem hitem hu)
      · exact fun _ ↦ hword (by rw [sequenceDepth_wrap]; omega)
    have hsum := List.sum_le_card_nsmul _ _ hitem
    rw [List.length_map, Nat.nsmul_eq_mul] at hsum
    rw [Value.leafCount_array, leafCount_wrap, sequenceDepth_wrap]
    calc (items.map (Value.leafCount kinds)).sum
      _ ≤ items.length * (elem.leafCount kinds * (size / wordSize) ^ elem.sequenceDepth) := hsum
      _ ≤ size / wordSize * (elem.leafCount kinds * (size / wordSize) ^ elem.sequenceDepth) :=
        Nat.mul_le_mul_right _ hcount
      _ = elem.leafCount kinds * (size / wordSize) ^ (elem.sequenceDepth + 1) := by
        rw [Nat.pow_succ', Nat.mul_left_comm]
  | tuple structName fields ih =>
    cases v with
    | tuple entries =>
      obtain ⟨values, hvalues, rfl⟩ := fieldsInhabited_iff.mp h
      have hlength := hvalues.length_eq
      have hsnd : ((fields.map Field.rawName).zip values).map Prod.snd = values :=
        List.map_snd_zip (by simp [hlength])
      rw [Value.nodes_tuple, List.forall_mem_cons, hsnd] at hsize
      rw [Value.leafCount_tuple, hsnd, leafCount_tuple, ← List.sum_map_mul_right]
      refine List.Forall₂.sum_le_sum ?_
      rw [List.forall₂_map_left_iff, List.forall₂_map_right_iff]
      refine List.Forall₂.flip (List.forall₂_iff_zip.mpr ⟨hlength, fun {f value} hmem ↦ ?_⟩)
      obtain ⟨hf, hvalue⟩ := List.of_mem_zip hmem
      have hdepth : f.type.sequenceDepth ≤ (tuple structName fields).sequenceDepth :=
        sequenceDepthOfFields_le_iff.mp (Nat.le_refl _) f hf
      have hle := ih f hf (List.forall₂_zip hvalues hmem)
        (fun u hu ↦ hsize.2 u (List.mem_flatMap_of_mem hvalue hu)) fun hne ↦ hword (by omega)
      exact Nat.le_trans hle (Nat.mul_le_mul_left _ (pow_div_le_pow_div hdepth hword))
    | _ => exact h.elim

end AbiType

end ContractAbi
