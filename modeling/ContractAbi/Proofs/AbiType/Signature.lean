import Mathlib.Data.List.Forall2
import ContractAbi.Proofs.AbiType.Nodes
import ContractAbi.Proofs.Text.Digits
import ContractAbi.Proofs.Text.Ends
import ContractAbi.Proofs.Text.Lists

/-!
# Canonical signatures

Types have the same structure if they differ in the names of their tuples and fields at most, and
then they have the same signature. A signature is taken apart here to show that no others have.

Its last character tells the outermost node: a bracket ends a slice or an array, a parenthesis a
tuple, and a letter or a digit everything else. In front of the last bracket group there is the
signature of the element, and between the parentheses of a tuple there are those of its fields.
-/

namespace ContractAbi

namespace AbiType

/-! ## Keywords -/

/-- The letters that a keyword is written with. -/
def Keyword.letters : Keyword → List Char
  | uint => "uint".toList
  | int => "int".toList
  | bool => "bool".toList
  | string => "string".toList
  | bytes => "bytes".toList
  | address => "address".toList
  | function => "function".toList
  | tuple => "tuple".toList

theorem Keyword.ofName?_letters (k : Keyword) : ofName? (String.ofList k.letters) = some k := by
  cases k <;> rfl

theorem Keyword.letters_injective : Function.Injective letters := by
  intro k k' h
  rw [← Option.some.injEq, ← ofName?_letters k, h, ofName?_letters]

theorem Keyword.letters_ne_nil (k : Keyword) : k.letters ≠ [] := by
  cases k <;> decide

theorem Keyword.isAlpha_of_mem_letters {k : Keyword} {c : Char} (h : c ∈ k.letters) :
    c.isAlpha = true := by
  have hall : k.letters.all Char.isAlpha = true := by cases k <;> rfl
  exact List.all_eq_true.mp hall c h

/-- The digits behind a keyword are none of its letters. -/
theorem Keyword.takeWhile_isAlpha (k : Keyword) {digits : List Char}
    (h : ∀ c ∈ digits, c.isDigit = true) :
    (k.letters ++ digits).takeWhile Char.isAlpha = k.letters := by
  rw [List.takeWhile_append_of_pos fun c hc ↦ isAlpha_of_mem_letters hc]
  rcases digits with - | ⟨d, digits⟩
  · exact List.append_nil _
  · rw [List.takeWhile_cons_of_neg, List.append_nil]
    exact Bool.eq_false_iff.mp (isAlpha_eq_false_of_isDigit (h d List.mem_cons_self))

theorem Keyword.dropWhile_isAlpha (k : Keyword) {digits : List Char}
    (h : ∀ c ∈ digits, c.isDigit = true) :
    (k.letters ++ digits).dropWhile Char.isAlpha = digits := by
  have hsplit := List.takeWhile_append_dropWhile (p := Char.isAlpha) (l := k.letters ++ digits)
  rw [k.takeWhile_isAlpha h] at hsplit
  exact List.append_cancel_left hsplit

/-! ## Leaves -/

/-- Types without parts: all but slices, arrays and tuples. -/
def IsLeaf : AbiType → Prop
  | slice _ | array _ _ | tuple _ _ => False
  | _ => True

theorem IsLeaf.nodes_eq {t : AbiType} (h : t.IsLeaf) : t.nodes = [t] := by
  cases t with
  | slice _ | array _ _ | tuple _ _ => exact h.elim
  | _ => rfl

theorem IsLeaf.everywhere_iff {p : AbiType → Prop} {t : AbiType} (h : t.IsLeaf) :
    t.Everywhere p ↔ p t := by
  rw [Everywhere, h.nodes_eq, List.forall_mem_singleton]

/-- The keyword of a leaf, and the number that is written behind it. -/
def keyword? : AbiType → Option (Keyword × Option Nat)
  | uint bits => some (.uint, some bits)
  | int bits => some (.int, some bits)
  | bool => some (.bool, none)
  | string => some (.string, none)
  | bytes => some (.bytes, none)
  | fixedBytes length => some (.bytes, some length)
  | address => some (.address, none)
  | function => some (.function, none)
  | slice _ | array _ _ | tuple _ _ => none

/-- The digits of a number, if there is one. -/
def sizeDigits (size : Option Nat) : List Char := size.elim [] decimal

theorem isDigit_of_mem_sizeDigits {size : Option Nat} {c : Char} (h : c ∈ sizeDigits size) :
    c.isDigit = true := by
  rcases size with - | n
  · cases h
  · exact isDigit_of_mem_decimal h

theorem sizeDigits_injective : Function.Injective sizeDigits := by
  rintro (- | m) (- | n) h
  · rfl
  · exact absurd h.symm (decimal_ne_nil n)
  · exact absurd h (decimal_ne_nil m)
  · rw [decimal_injective h]

theorem IsLeaf.exists_keyword {t : AbiType} (h : t.IsLeaf) :
    ∃ k size, t.keyword? = some (k, size) ∧ t.signature = k.letters ++ sizeDigits size := by
  cases t with
  | slice _ | array _ _ | tuple _ _ => exact h.elim
  | _ => exact ⟨_, _, rfl, rfl⟩

theorem eq_of_keyword?_eq {t u : AbiType} {p : Keyword × Option Nat} (ht : t.keyword? = some p)
    (hu : u.keyword? = some p) : t = u := by
  cases t <;> cases ht <;> cases u <;> cases hu <;> rfl

theorem toList_canonical (t : AbiType) : t.canonical.toList = t.signature := by
  rw [canonical, String.toList_ofList]

/-- The signature of a leaf has letters and digits only. -/
theorem IsLeaf.isAlphanum_of_mem {t : AbiType} (h : t.IsLeaf) {c : Char} (hc : c ∈ t.signature) :
    c.isAlphanum = true := by
  obtain ⟨k, size, -, hs⟩ := h.exists_keyword
  rw [hs, List.mem_append] at hc
  rw [Char.isAlphanum, Bool.or_eq_true]
  exact hc.imp Keyword.isAlpha_of_mem_letters isDigit_of_mem_sizeDigits

/-- The letters that a leaf begins with are its keyword, and what follows them is its number. -/
theorem IsLeaf.eq_of_signature_eq {t u : AbiType} (ht : t.IsLeaf) (hu : u.IsLeaf)
    (h : t.signature = u.signature) : t = u := by
  obtain ⟨k, size, hkt, hst⟩ := ht.exists_keyword
  obtain ⟨k', size', hku, hsu⟩ := hu.exists_keyword
  have hsize : ∀ c ∈ sizeDigits size, c.isDigit = true := fun _ ↦ isDigit_of_mem_sizeDigits
  have hsize' : ∀ c ∈ sizeDigits size', c.isDigit = true := fun _ ↦ isDigit_of_mem_sizeDigits
  have hk : k = k' := Keyword.letters_injective <| by
    rw [← k.takeWhile_isAlpha hsize, ← hst, h, hsu, k'.takeWhile_isAlpha hsize']
  have hs : size = size' := sizeDigits_injective <| by
    rw [← k.dropWhile_isAlpha hsize, ← hst, h, hsu, k'.dropWhile_isAlpha hsize']
  subst hk hs
  exact eq_of_keyword?_eq hkt hku

/-! ## Layers -/

def Layer.length? : Layer → Option Nat
  | slice => none
  | array length => some length

/-- What stands between the brackets of a group. -/
def Layer.digits (layer : Layer) : List Char := sizeDigits layer.length?

theorem Layer.digits_injective : Function.Injective digits := by
  have hlength : Function.Injective length? := by
    rintro (- | m) (- | n) h <;> cases h <;> rfl
  exact sizeDigits_injective.comp hlength

theorem signature_wrap (layer : Layer) (t : AbiType) :
    (layer.wrap t).signature = t.signature ++ '[' :: (layer.digits ++ [']']) := by
  cases layer with
  | slice => rfl
  | array length => exact List.append_assoc _ _ _

theorem signature_wrap_congr (layer : Layer) {t u : AbiType} (h : t.signature = u.signature) :
    (layer.wrap t).signature = (layer.wrap u).signature := by
  rw [signature_wrap, h, signature_wrap]

theorem signatures_eq_map (fields : List (Field AbiType)) :
    signatures fields = fields.map fun f ↦ f.type.signature := by
  induction fields with
  | nil => rfl
  | cons f fields ih => rw [signatures, List.map_cons, ih]

theorem signature_tuple (structName : String) (fields : List (Field AbiType)) :
    (tuple structName fields).signature = tupleSignature (fields.map fun f ↦ f.type.signature) :=
  congrArg tupleSignature (signatures_eq_map fields)

theorem isLeaf_or_wrap_or_tuple (t : AbiType) :
    t.IsLeaf ∨ (∃ (layer : Layer) (elem : AbiType), t = layer.wrap elem) ∨
      ∃ structName fields, t = tuple structName fields := by
  cases t with
  | slice elem => exact Or.inr (Or.inl ⟨.slice, elem, rfl⟩)
  | array elem length => exact Or.inr (Or.inl ⟨.array length, elem, rfl⟩)
  | tuple structName fields => exact Or.inr (Or.inr ⟨structName, fields, rfl⟩)
  | _ => exact Or.inl trivial

/-- Induction over a type, with slices and arrays as one case and the leaves as another. -/
@[elab_as_elim]
theorem inductLayer {motive : AbiType → Prop} (leaf : ∀ t : AbiType, t.IsLeaf → motive t)
    (wrap : ∀ (layer : Layer) (t : AbiType), motive t → motive (layer.wrap t))
    (tuple : ∀ structName fields, (∀ f ∈ fields, motive f.type) →
      motive (tuple structName fields)) (t : AbiType) : motive t := by
  induction t using induct with
  | slice elem ih => exact wrap .slice elem ih
  | array elem length ih => exact wrap (.array length) elem ih
  | tuple structName fields ih => exact tuple structName fields ih
  | _ => exact leaf _ trivial

/-- Brackets end slices and arrays only. -/
theorem exists_wrap_of_signature_eq {u : AbiType} {layer : Layer} {s : List Char}
    (h : u.signature = s ++ '[' :: (layer.digits ++ [']'])) :
    ∃ elem, u = layer.wrap elem ∧ elem.signature = s := by
  have hlast : u.signature.getLast? = some ']' := by
    rw [h, ← List.cons_append, ← List.append_assoc, List.getLast?_concat]
  rcases isLeaf_or_wrap_or_tuple u with hleaf | ⟨layer', elem, rfl⟩ | ⟨structName, fields, rfl⟩
  · exact absurd (hleaf.isAlphanum_of_mem (List.mem_of_getLast? hlast)) (by decide)
  · -- Only digits follow the opening bracket of a group, so it is the last one on both sides.
    have hbracket (l : Layer) : '[' ∉ l.digits ++ [']'] := by
      rw [List.mem_append, not_or]
      exact ⟨fun hc ↦ absurd (isDigit_of_mem_sizeDigits hc) (by decide), by decide⟩
    have hsplit := splitLast_append s (hbracket layer)
    rw [← h, signature_wrap, splitLast_append _ (hbracket layer'), Option.some.injEq,
      Prod.mk.injEq] at hsplit
    obtain ⟨hs, hdigits⟩ := hsplit
    rw [Layer.digits_injective (List.append_cancel_right hdigits)]
    exact ⟨elem, rfl, hs⟩
  · rw [signature_tuple, tupleSignature, List.getLast?_concat] at hlast
    exact absurd hlast (by decide)

/-- A parenthesis at the end is that of a tuple. -/
theorem exists_tuple_of_signature_eq {u : AbiType} {ss : List (List Char)}
    (h : u.signature = tupleSignature ss) :
    ∃ structName fields, u = tuple structName fields := by
  have hlast : u.signature.getLast? = some ')' := by
    rw [h, tupleSignature, List.getLast?_concat]
  rcases isLeaf_or_wrap_or_tuple u with hleaf | ⟨layer, elem, rfl⟩ | htuple
  · exact absurd (hleaf.isAlphanum_of_mem (List.mem_of_getLast? hlast)) (by decide)
  · rw [signature_wrap, ← List.cons_append, ← List.append_assoc, List.getLast?_concat] at hlast
    exact absurd hlast (by decide)
  · exact htuple

/-- Nothing that ends a leaf ends another type. -/
theorem IsLeaf.of_signature_eq {t u : AbiType} (ht : t.IsLeaf) (h : t.signature = u.signature) :
    u.IsLeaf := by
  rcases isLeaf_or_wrap_or_tuple u with hleaf | ⟨layer, elem, rfl⟩ | ⟨structName, fields, rfl⟩
  · exact hleaf
  · rw [signature_wrap] at h
    obtain ⟨e, rfl, -⟩ := exists_wrap_of_signature_eq h
    cases layer <;> exact ht.elim
  · rw [signature_tuple] at h
    obtain ⟨name, others, rfl⟩ := exists_tuple_of_signature_eq h
    exact ht.elim

/-! ## Lists of signatures -/

theorem enclosed_of_isAlphanum {s : List Char} (h : ∀ c ∈ s, c.isAlphanum = true) :
    Enclosed s := by
  refine enclosed_of_forall_ne fun c hc ↦ ?_
  have halnum := h c hc
  refine ⟨?_, ?_, ?_⟩ <;> rintro rfl <;> cases halnum

theorem enclosed_wrap (layer : Layer) {t : AbiType} (h : Enclosed t.signature) :
    Enclosed (layer.wrap t).signature := by
  have hopen : Enclosed ['['] := enclosed_of_forall_ne (List.forall_mem_singleton.mpr (by decide))
  have hclose : Enclosed [']'] := enclosed_of_forall_ne (List.forall_mem_singleton.mpr (by decide))
  have hdigits : Enclosed layer.digits := enclosed_of_isAlphanum fun c hc ↦ by
    rw [Char.isAlphanum, isDigit_of_mem_sizeDigits hc, Bool.or_true]
  rw [signature_wrap]
  exact h.append (hopen.append (hdigits.append hclose))

theorem IsLeaf.enclosed {t : AbiType} (h : t.IsLeaf) : Enclosed t.signature :=
  enclosed_of_isAlphanum fun _ ↦ h.isAlphanum_of_mem

theorem enclosed_signature (t : AbiType) : Enclosed t.signature := by
  induction t using induct with
  | slice elem ih => exact enclosed_wrap .slice ih
  | array elem length ih => exact enclosed_wrap (.array length) ih
  | tuple structName fields ih =>
    rw [signature_tuple]
    exact enclosed_tupleSignature (List.forall_mem_map.mpr ih)
  | _ => exact IsLeaf.enclosed trivial

theorem signature_ne_nil (t : AbiType) : t.signature ≠ [] := by
  rcases isLeaf_or_wrap_or_tuple t with hleaf | ⟨layer, elem, rfl⟩ | ⟨structName, fields, rfl⟩
  · obtain ⟨k, size, -, hs⟩ := hleaf.exists_keyword
    rw [hs]
    exact List.append_ne_nil_of_left_ne_nil k.letters_ne_nil _
  · rw [signature_wrap]
    exact List.append_ne_nil_of_right_ne_nil _ (List.cons_ne_nil _ _)
  · rw [signature_tuple, tupleSignature]
    exact List.append_ne_nil_of_right_ne_nil _ (List.cons_ne_nil _ _)

/-- A list of signatures between parentheses is that of another list, of fields or of arguments,
only if the signatures agree one by one. -/
theorem tupleSignature_map_eq_iff {α β : Type} {typeOf : α → AbiType} {typeOf' : β → AbiType}
    {as : List α} {bs : List β} :
    tupleSignature (as.map fun a ↦ (typeOf a).signature)
        = tupleSignature (bs.map fun b ↦ (typeOf' b).signature) ↔
      List.Forall₂ (fun a b ↦ (typeOf a).signature = (typeOf' b).signature) as bs := by
  have hlist {γ : Type} (f : γ → AbiType) (cs : List γ) :
      ∀ s ∈ cs.map fun c ↦ (f c).signature, Enclosed s ∧ s ≠ [] :=
    List.forall_mem_map.mpr fun c _ ↦ ⟨enclosed_signature (f c), signature_ne_nil (f c)⟩
  have hmaps : as.map (fun a ↦ (typeOf a).signature) = bs.map (fun b ↦ (typeOf' b).signature) ↔
      List.Forall₂ (fun a b ↦ (typeOf a).signature = (typeOf' b).signature) as bs := by
    rw [← List.forall₂_eq_eq_eq, List.forall₂_map_left_iff, List.forall₂_map_right_iff]
  rw [← hmaps]
  exact ⟨tupleSignature_inj (hlist typeOf as) (hlist typeOf' bs), congrArg tupleSignature⟩

/-! ## Structure -/

/-- The types differ in the names of tuples and of fields at most. Leaves have no names, so they
have to be equal, with their widths and lengths. -/
inductive SameStructure : AbiType → AbiType → Prop
  | leaf {t : AbiType} : t.IsLeaf → SameStructure t t
  | slice {t u : AbiType} : SameStructure t u → SameStructure (.slice t) (.slice u)
  | array {t u : AbiType} (length : Nat) :
    SameStructure t u → SameStructure (.array t length) (.array u length)
  | tuple {structName structName' : String} {fields fields' : List (Field AbiType)} :
    List.Forall₂ (fun f g ↦ SameStructure f.type g.type) fields fields' →
      SameStructure (.tuple structName fields) (.tuple structName' fields')

/-- Induction over two types of the same structure, with the statement at hand for every pair of
fields. -/
@[elab_as_elim]
theorem SameStructure.inductPairs {motive : (t u : AbiType) → t.SameStructure u → Prop}
    (leaf : ∀ (t : AbiType) (h : t.IsLeaf), motive t t (.leaf h))
    (slice : ∀ (t u : AbiType) (h : t.SameStructure u), motive t u h →
      motive (.slice t) (.slice u) (.slice h))
    (array : ∀ (t u : AbiType) (length : Nat) (h : t.SameStructure u), motive t u h →
      motive (.array t length) (.array u length) (.array length h))
    (tuple : ∀ (structName structName' : String) (fields fields' : List (Field AbiType))
      (h : List.Forall₂ (fun f g ↦ f.type.SameStructure g.type) fields fields'),
      List.Forall₂ (fun f g ↦ ∃ h, motive f.type g.type h) fields fields' →
      motive (.tuple structName fields) (.tuple structName' fields') (.tuple h))
    {t u : AbiType} (h : t.SameStructure u) : motive t u h := by
  induction t using induct generalizing u with
  | slice elem ih =>
    cases h with
    | leaf hleaf => exact hleaf.elim
    | slice h => exact slice _ _ h (ih h)
  | array elem length ih =>
    cases h with
    | leaf hleaf => exact hleaf.elim
    | array _ h => exact array _ _ length h (ih h)
  | tuple structName fields ih =>
    cases h with
    | leaf hleaf => exact hleaf.elim
    | tuple h =>
      refine tuple _ _ _ _ h ?_
      exact ((List.forall₂_and_left _ _).mpr ⟨ih, h⟩).imp fun f g ⟨hf, hfg⟩ ↦ ⟨hfg, hf hfg⟩
  | _ =>
    cases h with
    | leaf hleaf => exact leaf _ hleaf

theorem SameStructure.signature_eq {t u : AbiType} (h : t.SameStructure u) :
    t.signature = u.signature := by
  induction h using inductPairs with
  | leaf t _ => rfl
  | slice t u _ ih => exact signature_wrap_congr .slice ih
  | array t u length _ ih => exact signature_wrap_congr (.array length) ih
  | tuple structName structName' fields fields' _ ih =>
    rw [signature_tuple, signature_tuple, tupleSignature_map_eq_iff]
    exact ih.imp fun _ _ ⟨_, hf⟩ ↦ hf

theorem IsLeaf.sameStructure {t u : AbiType} (ht : t.IsLeaf) (h : t.signature = u.signature) :
    t.SameStructure u := by
  rw [← ht.eq_of_signature_eq (ht.of_signature_eq h) h]
  exact .leaf ht

theorem sameStructure_of_signature_eq {t u : AbiType} (h : t.signature = u.signature) :
    t.SameStructure u := by
  -- The end of the signature is that of `t`, and tells the outermost node of `u`.
  induction t using induct generalizing u with
  | slice elem ih =>
    obtain ⟨e, rfl, he⟩ := exists_wrap_of_signature_eq (h.symm.trans (signature_wrap .slice elem))
    exact .slice (ih he.symm)
  | array elem length ih =>
    obtain ⟨e, rfl, he⟩ :=
      exists_wrap_of_signature_eq (h.symm.trans (signature_wrap (.array length) elem))
    exact .array length (ih he.symm)
  | tuple structName fields ih =>
    rw [signature_tuple] at h
    obtain ⟨name, others, rfl⟩ := exists_tuple_of_signature_eq h.symm
    rw [signature_tuple, tupleSignature_map_eq_iff] at h
    exact .tuple (((List.forall₂_and_left _ _).mpr ⟨ih, h⟩).imp fun f g ⟨hf, hfg⟩ ↦ hf hfg)
  | _ => exact IsLeaf.sameStructure trivial h

theorem signature_eq_iff {t u : AbiType} : t.signature = u.signature ↔ t.SameStructure u :=
  ⟨sameStructure_of_signature_eq, SameStructure.signature_eq⟩

end AbiType

end ContractAbi
