import ContractAbi.Proofs.Encoding.Standard

/-!
# What an encoding ends with

The last bytes of an encoding belong to its last dynamic component, and inside that again to the
last dynamic one, down to a string, a byte string or an empty slice; without dynamic components they
are a static word. `AbiType.endContent` follows this path. Where it leads to a content, the encoding
ends with the padding of that content, and the padding is all at the end that no reader looks at.
-/

namespace ContractAbi

/-! ## The last tail of a block -/

namespace Part

variable {α : Type}

/-- What comes with the last dynamic part, each part having something or nothing with it. -/
def ofLastDynamic : List Part → List (Option α) → Option α
  | p :: rest, a :: as =>
    if rest.any isDynamic then ofLastDynamic rest as else if p.isDynamic then a else none
  | _, _ => none

theorem tails_eq_nil {parts : List Part} (h : parts.any isDynamic = false) : tails parts = [] := by
  induction parts with
  | nil => rfl
  | cons p rest ih =>
    rw [List.any_cons, Bool.or_eq_false_iff] at h
    rw [tails_cons, ih h.2, tail, h.1, if_neg Bool.false_ne_true, List.append_nil]

theorem tailTotal_eq_zero {parts : List Part} (h : parts.any isDynamic = false) :
    tailTotal parts = 0 := by
  rw [← length_tails, tails_eq_nil h]
  rfl

theorem ofLastDynamic_eq_none {parts : List Part} (as : List (Option α))
    (h : parts.any isDynamic = false) : ofLastDynamic parts as = none := by
  cases parts with
  | nil => rfl
  | cons p rest =>
    rw [List.any_cons, Bool.or_eq_false_iff] at h
    cases as with
    | nil => rfl
    | cons a as =>
      rw [ofLastDynamic, h.1, h.2, if_neg Bool.false_ne_true, if_neg Bool.false_ne_true]

theorem ofLastDynamic_cons_static {p : Part} {rest : List Part} {a : Option α}
    {as : List (Option α)} (h : p.isDynamic = false) :
    ofLastDynamic (p :: rest) (a :: as) = ofLastDynamic rest as := by
  rw [ofLastDynamic, h, if_neg Bool.false_ne_true]
  split
  · rfl
  · rename_i hrest
    rw [ofLastDynamic_eq_none as (Bool.eq_false_of_not_eq_true hrest)]

/-- The tails end with what the last dynamic part ends with. -/
theorem suffix_tails_of_ofLastDynamic {parts : List Part} {as : List (Option α)} {a : α}
    {b : Bytes} (h : ofLastDynamic parts as = some a)
    (hends : List.Forall₂ (fun o p ↦ o = some a → b <:+ p.bytes) as parts) :
    b <:+ tails parts := by
  induction hends with
  | nil => cases h
  | @cons o p os rest hp _ ih =>
    rw [ofLastDynamic] at h
    rw [tails_cons]
    by_cases hrest : rest.any isDynamic = true
    · rw [if_pos hrest] at h
      exact (ih h).trans (List.suffix_append _ _)
    · rw [if_neg hrest] at h
      rw [tails_eq_nil (Bool.eq_false_of_not_eq_true hrest), List.append_nil, tail]
      by_cases hd : p.isDynamic = true
      · rw [if_pos hd] at h ⊢
        exact hp h
      · rw [if_neg hd] at h
        cases h

end Part

/-! ## The path to the end -/

namespace AbiType

mutual

/-- The content of the string or byte string whose words the encoding ends with. There is none if
the encoding ends with a static word or with the count of an empty slice. -/
def endContent : AbiType → Value → Option Bytes
  | .string, .string s => some s.toUTF8.data.toList
  | .bytes, v => v.bytes?
  | .slice elem, .array items | .array elem _, .array items =>
    Part.ofLastDynamic (itemParts elem items) (items.map fun v ↦ endContent elem v)
  | .tuple _ fields, .tuple entries =>
    Part.ofLastDynamic (fieldParts fields entries) (fieldEnds fields entries)
  | _, _ => none

def fieldEnds : List (Field AbiType) → List (String × Value) → List (Option Bytes)
  | [], _ => []
  | f :: fields, entries =>
    (entries.lookup f.rawName).bind (endContent f.type) :: fieldEnds fields entries

end

end AbiType

namespace Arguments

def endContent (args : Arguments) (values : List Value) : Option Bytes :=
  Part.ofLastDynamic (args.components values)
    ((args.zip values).map fun (a, v) ↦ a.type.endContent v)

end Arguments

/-- The length of the padding behind a content, zero if there is no content. -/
def paddingLength (content : Option Bytes) : Nat :=
  (content.map fun c ↦ (AbiType.padding c).length).getD 0

@[simp] theorem paddingLength_none : paddingLength none = 0 := rfl

/-- What ends with a counted content is longer than the padding. -/
theorem paddingLength_add_wordSize_le {content : Option Bytes} {b : Bytes}
    (h : ∀ c, content = some c → AbiType.counted c <:+ b) :
    paddingLength content = 0 ∨ paddingLength content + wordSize ≤ b.length := by
  cases content with
  | none => exact Or.inl rfl
  | some c =>
    have hle := (h c rfl).length_le
    rw [AbiType.length_counted, List.length_append] at hle
    rw [paddingLength, Option.map_some, Option.getD_some]
    exact Or.inr (by omega)

namespace AbiType

/-! ## Components -/

/-- What the components of a block end with. -/
def endOf (xs : List (AbiType × Value)) : Option Bytes :=
  Part.ofLastDynamic (xs.map standardPart) (xs.map fun x ↦ x.1.endContent x.2)

theorem fieldEnds_eq {fields : List (Field AbiType)} {entries : List (String × Value)}
    {values : List Value} (h : List.Forall₂ (FirstEntry entries) fields values) :
    fieldEnds fields entries
      = ((fields.map Field.type).zip values).map fun x ↦ x.1.endContent x.2 := by
  induction h with
  | nil => rfl
  | @cons f v _ _ hf _ ih =>
    rw [FirstEntry] at hf
    rw [fieldEnds, ih, hf, List.map_cons, List.zip_cons_cons, List.map_cons]
    rfl

theorem endContent_items (elem : AbiType) (items : List Value) :
    Part.ofLastDynamic (itemParts elem items) (items.map fun v ↦ elem.endContent v)
      = endOf (items.map (elem, ·)) := by
  rw [endOf, itemParts_eq, List.map_map, List.map_map]
  rfl

theorem endContent_fields {fields : List (Field AbiType)} {entries : List (String × Value)}
    {values : List Value} (h : List.Forall₂ (FirstEntry entries) fields values) :
    Part.ofLastDynamic (fieldParts fields entries) (fieldEnds fields entries)
      = endOf ((fields.map Field.type).zip values) := by
  rw [endOf, fieldParts_eq h, fieldEnds_eq h]

theorem endContent_arguments (args : Arguments) (values : List Value) :
    args.endContent values = endOf ((args.map Argument.type).zip values) := by
  rw [Arguments.endContent, endOf, components_eq, List.zip_map_left, List.map_map, List.map_map]
  rfl

/-- Parts that were packed are those of the definition. -/
theorem map_standardPart_eq {xs : List (AbiType × Value)} {parts : List Part}
    (h : List.Forall₂ Packed xs parts) (hn : ∀ x ∈ xs, x.1.Everywhere NumbersInRange) :
    xs.map standardPart = parts :=
  eq_map_standardPart h fun x hx _ hb ↦ (standard_of_pack (hn x hx) hb).1

/-! ## The end -/

section Blocks

variable {xs : List (AbiType × Value)} {parts : List Part} {c : Bytes}

theorem endOf_eq (h : List.Forall₂ Packed xs parts)
    (hn : ∀ x ∈ xs, x.1.Everywhere NumbersInRange) :
    endOf xs = Part.ofLastDynamic parts (xs.map fun x ↦ x.1.endContent x.2) := by
  rw [endOf, map_standardPart_eq h hn]

theorem suffix_tails_of_endOf (h : List.Forall₂ Packed xs parts)
    (hn : ∀ x ∈ xs, x.1.Everywhere NumbersInRange) (hc : endOf xs = some c)
    (hends : ∀ x ∈ xs, ∀ b, x.1.pack x.2 = .ok b → x.1.endContent x.2 = some c → counted c <:+ b) :
    counted c <:+ Part.tails parts := by
  rw [endOf_eq h hn] at hc
  refine Part.suffix_tails_of_ofLastDynamic hc ?_
  rw [List.forall₂_map_left_iff]
  refine List.Forall₂.imp ?_ ((List.forall₂_and_left xs parts).mpr ⟨hends, h⟩)
  rintro x p ⟨hx, hp⟩
  exact hx _ hp.2

end Blocks

/-- An encoding ends with the content that its path leads to, counted and padded. -/
theorem suffix_of_endContent {t : AbiType} (hn : t.Everywhere NumbersInRange) {v : Value}
    {b c : Bytes} (h : t.pack v = .ok b) (hc : t.endContent v = some c) : counted c <:+ b := by
  induction t using induct generalizing v b with
  | string =>
    obtain ⟨s, rfl, rfl⟩ := pack_string_eq_ok_iff.mp h
    rw [endContent, Option.some.injEq] at hc
    subst hc
    exact List.suffix_refl _
  | bytes =>
    obtain ⟨c', hc', rfl⟩ := pack_bytes_eq_ok_iff.mp h
    rw [endContent, hc', Option.some.injEq] at hc
    subst hc
    exact List.suffix_refl _
  | slice elem ih =>
    have helem := (everywhere_slice_iff.mp hn).2
    obtain ⟨items, parts, rfl, hparts, -, rfl⟩ := pack_slice_eq_ok_iff.mp h
    rw [endContent, endContent_items] at hc
    have htails := suffix_tails_of_endOf hparts (List.forall_mem_map.mpr fun _ _ ↦ helem) hc
      (List.forall_mem_map.mpr fun _ _ _ hb hend ↦ ih helem hb hend)
    exact htails.trans ((List.suffix_append _ _).trans (List.suffix_append _ _))
  | array elem length ih =>
    have helem := (everywhere_array_iff.mp hn).2
    obtain ⟨items, parts, rfl, -, hparts, -, rfl⟩ := pack_array_eq_ok_iff.mp h
    rw [endContent, endContent_items] at hc
    have htails := suffix_tails_of_endOf hparts (List.forall_mem_map.mpr fun _ _ ↦ helem) hc
      (List.forall_mem_map.mpr fun _ _ _ hb hend ↦ ih helem hb hend)
    exact htails.trans (List.suffix_append _ _)
  | tuple structName fields ih =>
    have hfields := (everywhere_tuple_iff.mp hn).2
    obtain ⟨entries, values, parts, rfl, hvalues, hparts, -, rfl⟩ := pack_tuple_eq_ok_iff.mp h
    rw [endContent, endContent_fields hvalues] at hc
    have htails := suffix_tails_of_endOf hparts (forall_mem_zip_types fun f hf _ ↦ hfields f hf) hc
      (forall_mem_zip_types fun f hf _ _ hb hend ↦ ih f hf (hfields f hf) hb hend)
    exact htails.trans (List.suffix_append _ _)
  | _ => simp [endContent] at hc

/-- The padding is part of the tails. -/
theorem paddingLength_endOf_le {xs : List (AbiType × Value)} {parts : List Part}
    (h : List.Forall₂ Packed xs parts) (hn : ∀ x ∈ xs, x.1.Everywhere NumbersInRange) :
    paddingLength (endOf xs) ≤ Part.tailTotal parts := by
  have hle := paddingLength_add_wordSize_le fun c hc ↦
    suffix_tails_of_endOf h hn hc fun x hx _ hb ↦ suffix_of_endContent (hn x hx) hb
  rw [Part.length_tails] at hle
  omega

end AbiType

end ContractAbi
