import ContractAbi.Proofs.Encoding.Conforming

/-!
# Offences

Why a value is refused. `AbiType.FirstOffence` has one rule for each kind of offence, with the error
that names it, and says which comes first where there are several. A wrong kind, a wrong count and a
missing entry are found before anything inside the value is looked at; after that the first member
that does not conform is the one that is blamed, by its own first offence.

The rules know nothing of packing. Three facts tie them to it: every value conforms or offends, what
conforms packs, and packing answers a first offence with its error. So packing accepts the
conforming values and no others, and each of the others has one first offence.
-/

namespace ContractAbi

namespace AbiType

/-! ## Rules -/

/-- The value is of a kind that the type takes, whatever it holds. -/
def TakesKind : AbiType → Value → Prop
  | .uint _, v | .int _, v => v.integer?.isSome
  | .bytes, v | .fixedBytes _, v => v.bytes?.isSome
  | .bool, .bool _ | .string, .string _ | .address, .address _ | .function, .function _ => True
  | .slice _, .array _ | .array _ _, .array _ | .tuple _ _, .tuple _ => True
  | _, _ => False

/-- The error is that of the value's first offence against the type. -/
inductive FirstOffence : AbiType → Value → AbiError → Prop
  | kind {t : AbiType} {v : Value} : ¬t.TakesKind v →
    FirstOffence t v (.typeMismatch t.canonical (.kind v.kindName))
  | negative {bits : Nat} {v : Value} {x : Int} : v.integer? = some x → x < 0 →
    FirstOffence (uint bits) v .invalidSign
  | aboveUint {bits : Nat} {v : Value} {x : Int} : v.integer? = some x → 2 ^ bits ≤ x →
    FirstOffence (uint bits) v (.valueOutOfRange (uint bits).canonical x)
  | outsideInt {bits : Nat} {v : Value} {x : Int} : v.integer? = some x →
    x < -(2 ^ (bits - 1)) ∨ 2 ^ (bits - 1) ≤ x →
    FirstOffence (int bits) v (.valueOutOfRange (int bits).canonical x)
  | byteCount {length : Nat} {v : Value} {content : Bytes} : v.bytes? = some content →
    content.length ≠ length →
    FirstOffence (fixedBytes length) v
      (.typeMismatch (fixedBytes length).canonical (.byteCount content.length))
  | itemCount {elem : AbiType} {length : Nat} {items : List Value} : items.length ≠ length →
    FirstOffence (array elem length) (.array items)
      (.typeMismatch (array elem length).canonical (.arrayOfLength items.length))
  | missingEntry {structName : String} {before after : List (Field AbiType)} {f : Field AbiType}
      {entries : List (String × Value)} :
    (∀ g ∈ before, ∃ v, FirstEntry entries g v) → entries.lookup f.rawName = none →
    FirstOffence (tuple structName (before ++ f :: after)) (.tuple entries)
      (.fieldNotFound f.rawName)
  | sliceItem {elem : AbiType} {before after : List Value} {v : Value} {e : AbiError} :
    (∀ u ∈ before, elem.Conforms u) → FirstOffence elem v e →
    FirstOffence (slice elem) (.array (before ++ v :: after)) e
  | arrayItem {elem : AbiType} {length : Nat} {before after : List Value} {v : Value}
      {e : AbiError} :
    (before ++ v :: after).length = length → (∀ u ∈ before, elem.Conforms u) →
    FirstOffence elem v e → FirstOffence (array elem length) (.array (before ++ v :: after)) e
  | entry {structName : String} {before after : List (Field AbiType)} {f : Field AbiType}
      {entries : List (String × Value)} {v : Value} {e : AbiError} :
    (∀ g ∈ before ++ f :: after, ∃ w, FirstEntry entries g w) →
    (∀ g ∈ before, ∃ w, FirstEntry entries g w ∧ g.type.Conforms w) →
    FirstEntry entries f v → FirstOffence f.type v e →
    FirstOffence (tuple structName (before ++ f :: after)) (.tuple entries) e

/-! ## Every value conforms or offends -/

/-- Either all elements have the property, or there is a first one that has not. -/
private theorem forall_or_first {α : Type} (p : α → Prop) (xs : List α) :
    (∀ x ∈ xs, p x) ∨ ∃ before x after, xs = before ++ x :: after ∧ (∀ y ∈ before, p y) ∧ ¬p x := by
  induction xs with
  | nil => exact Or.inl (List.forall_mem_nil _)
  | cons x xs ih =>
    by_cases hx : p x
    · rcases ih with hall | ⟨before, y, after, rfl, hbefore, hy⟩
      · exact Or.inl (List.forall_mem_cons.mpr ⟨hx, hall⟩)
      · exact Or.inr ⟨x :: before, y, after, rfl, List.forall_mem_cons.mpr ⟨hx, hbefore⟩, hy⟩
    · exact Or.inr ⟨[], x, xs, rfl, List.forall_mem_nil _, hx⟩

theorem conforms_or_offends_uint (bits : Nat) (v : Value) :
    (uint bits).Conforms v ∨ ∃ e, (uint bits).FirstOffence v e := by
  rcases hv : v.integer? with _ | x
  · exact Or.inr ⟨_, FirstOffence.kind (by simp [TakesKind, hv])⟩
  · by_cases hneg : x < 0
    · exact Or.inr ⟨_, FirstOffence.negative hv hneg⟩
    · by_cases hhigh : 2 ^ bits ≤ x
      · exact Or.inr ⟨_, FirstOffence.aboveUint hv hhigh⟩
      · exact Or.inl ⟨x, hv, Int.not_lt.mp hneg, Int.not_le.mp hhigh⟩

theorem conforms_or_offends_int (bits : Nat) (v : Value) :
    (int bits).Conforms v ∨ ∃ e, (int bits).FirstOffence v e := by
  rcases hv : v.integer? with _ | x
  · exact Or.inr ⟨_, FirstOffence.kind (by simp [TakesKind, hv])⟩
  · by_cases hout : x < -(2 ^ (bits - 1)) ∨ 2 ^ (bits - 1) ≤ x
    · exact Or.inr ⟨_, FirstOffence.outsideInt hv hout⟩
    · obtain ⟨hlow, hhigh⟩ := not_or.mp hout
      exact Or.inl ⟨x, hv, Int.not_lt.mp hlow, Int.not_le.mp hhigh⟩

theorem conforms_or_offends_fixedBytes (length : Nat) (v : Value) :
    (fixedBytes length).Conforms v ∨ ∃ e, (fixedBytes length).FirstOffence v e := by
  rcases hv : v.bytes? with _ | content
  · exact Or.inr ⟨_, FirstOffence.kind (by simp [TakesKind, hv])⟩
  · by_cases hcount : content.length = length
    · exact Or.inl ⟨content, hv, hcount⟩
    · exact Or.inr ⟨_, FirstOffence.byteCount hv hcount⟩

theorem conforms_or_offends_entries {fields : List (Field AbiType)} (structName : String)
    (entries : List (String × Value))
    (hfields : ∀ f ∈ fields, ∀ v, f.type.Conforms v ∨ ∃ e, f.type.FirstOffence v e) :
    (tuple structName fields).Conforms (.tuple entries) ∨
      ∃ e, (tuple structName fields).FirstOffence (.tuple entries) e := by
  rcases forall_or_first (fun f ↦ ∃ v, FirstEntry entries f v) fields with
    hall | ⟨before, f, after, rfl, hbefore, hf⟩
  · rcases forall_or_first (fun f ↦ ∃ v, FirstEntry entries f v ∧ f.type.Conforms v) fields with
      hconform | ⟨before, f, after, rfl, hbefore, hf⟩
    · exact Or.inl (fieldsConform_iff.mpr hconform)
    · have hmem : f ∈ before ++ f :: after := List.mem_append_cons_self
      obtain ⟨v, hv⟩ := hall f hmem
      obtain ⟨e, he⟩ := (hfields f hmem v).resolve_left fun hconforms ↦ hf ⟨v, hv, hconforms⟩
      exact Or.inr ⟨e, FirstOffence.entry hall hbefore hv he⟩
  · have hnone : entries.lookup f.rawName = none :=
      Option.eq_none_iff_forall_ne_some.mpr fun v hv ↦ hf ⟨v, hv⟩
    exact Or.inr ⟨_, FirstOffence.missingEntry hbefore hnone⟩

theorem conforms_or_offends (t : AbiType) (v : Value) :
    t.Conforms v ∨ ∃ e, t.FirstOffence v e := by
  induction t using induct generalizing v with
  | uint bits => exact conforms_or_offends_uint bits v
  | int bits => exact conforms_or_offends_int bits v
  | fixedBytes length => exact conforms_or_offends_fixedBytes length v
  | bytes =>
    rcases hv : v.bytes? with _ | content
    · exact Or.inr ⟨_, FirstOffence.kind (by simp [TakesKind, hv])⟩
    · exact Or.inl ⟨content, hv⟩
  | slice elem ih =>
    cases v with
    | array items =>
      rcases forall_or_first elem.Conforms items with hall | ⟨before, v, after, rfl, hbefore, hv⟩
      · exact Or.inl hall
      · obtain ⟨e, he⟩ := (ih v).resolve_left hv
        exact Or.inr ⟨e, FirstOffence.sliceItem hbefore he⟩
    | _ => exact Or.inr ⟨_, FirstOffence.kind id⟩
  | array elem length ih =>
    cases v with
    | array items =>
      by_cases hcount : items.length = length
      · rcases forall_or_first elem.Conforms items with hall | ⟨before, v, after, rfl, hbefore, hv⟩
        · exact Or.inl ⟨hcount, hall⟩
        · obtain ⟨e, he⟩ := (ih v).resolve_left hv
          exact Or.inr ⟨e, FirstOffence.arrayItem hcount hbefore he⟩
      · exact Or.inr ⟨_, FirstOffence.itemCount hcount⟩
    | _ => exact Or.inr ⟨_, FirstOffence.kind id⟩
  | tuple structName fields ih =>
    cases v with
    | tuple entries => exact conforms_or_offends_entries structName entries ih
    | _ => exact Or.inr ⟨_, FirstOffence.kind id⟩
  | bool =>
    cases v with
    | bool _ => exact Or.inl trivial
    | _ => exact Or.inr ⟨_, FirstOffence.kind id⟩
  | string =>
    cases v with
    | string _ => exact Or.inl trivial
    | _ => exact Or.inr ⟨_, FirstOffence.kind id⟩
  | address =>
    cases v with
    | address _ => exact Or.inl trivial
    | _ => exact Or.inr ⟨_, FirstOffence.kind id⟩
  | function =>
    cases v with
    | function _ => exact Or.inl trivial
    | _ => exact Or.inr ⟨_, FirstOffence.kind id⟩

/-! ## Offences are reported -/

theorem pack_of_not_takesKind {t : AbiType} {v : Value} (h : ¬t.TakesKind v) :
    t.pack v = .error (.typeMismatch t.canonical (.kind v.kindName)) := by
  cases t with
  | uint bits | int bits =>
    cases v with
    | uint w | int w => exact absurd rfl h
    | _ => rfl
  | bytes | fixedBytes length =>
    cases v with
    | bytes content | fixedBytes content => exact absurd rfl h
    | _ => rfl
  | bool =>
    cases v with
    | bool b => exact absurd trivial h
    | _ => rfl
  | string =>
    cases v with
    | string text => exact absurd trivial h
    | _ => rfl
  | address =>
    cases v with
    | address content => exact absurd trivial h
    | _ => rfl
  | function =>
    cases v with
    | function content => exact absurd trivial h
    | _ => rfl
  | slice elem | array elem length =>
    cases v with
    | array items => exact absurd trivial h
    | _ => rfl
  | tuple structName fields =>
    cases v with
    | tuple entries => exact absurd trivial h
    | _ => rfl

/-! ### Integers and byte blocks -/

theorem pack_uint_of_negative {bits : Nat} {v : Value} {x : Int} (hv : v.integer? = some x)
    (hx : x < 0) : (uint bits).pack v = .error .invalidSign := by
  cases v with
  | uint w =>
    obtain rfl := Option.some.inj hv
    omega
  | int w =>
    obtain rfl := Option.some.inj hv
    have hmsb : w.msb = true := by
      rw [BitVec.msb_eq_toInt]
      exact decide_eq_true hx
    exact if_pos hmsb
  | _ => cases hv

theorem pack_uint_of_above {bits : Nat} {v : Value} {x : Int} (hv : v.integer? = some x)
    (hx : 2 ^ bits ≤ x) :
    (uint bits).pack v = .error (.valueOutOfRange (uint bits).canonical x) := by
  have hcast : ((2 ^ bits : Nat) : Int) = 2 ^ bits := by norm_cast
  cases v with
  | uint w =>
    obtain rfl := Option.some.inj hv
    exact if_neg fun hfits ↦ by
      have hlt := Word.fitsUnsigned_iff.mp hfits
      omega
  | int w =>
    obtain rfl := Option.some.inj hv
    have hpos : (0 : Int) < 2 ^ bits := pow_pos (by decide) bits
    have hmsb : w.msb = false := by
      rw [BitVec.msb_eq_toInt]
      exact decide_eq_false (by omega)
    have hword := BitVec.toInt_eq_toNat_of_msb hmsb
    have hfits : ¬w.FitsUnsigned bits := fun hfits ↦ by
      have hlt := Word.fitsUnsigned_iff.mp hfits
      omega
    rw [hword]
    exact (if_neg (Bool.eq_false_iff.mp hmsb)).trans (if_neg hfits)
  | _ => cases hv

theorem pack_int_of_outside {bits : Nat} (hbits : 0 < bits) {v : Value} {x : Int}
    (hv : v.integer? = some x) (hx : x < -(2 ^ (bits - 1)) ∨ 2 ^ (bits - 1) ≤ x) :
    (int bits).pack v = .error (.valueOutOfRange (int bits).canonical x) := by
  cases v with
  | uint w =>
    obtain rfl := Option.some.inj hv
    have hcast : ((2 ^ (bits - 1) : Nat) : Int) = 2 ^ (bits - 1) := by norm_cast
    exact if_neg fun hlt ↦ by
      have := (Word.bitLength_lt_iff hbits).mp hlt
      omega
  | int w =>
    obtain rfl := Option.some.inj hv
    exact if_neg fun hfits ↦ by
      have := (Word.fitsSigned_iff hbits).mp hfits
      omega
  | _ => cases hv

theorem pack_fixedBytes_of_byteCount {length : Nat} {v : Value} {content : Bytes}
    (hv : v.bytes? = some content) (hcount : content.length ≠ length) :
    (fixedBytes length).pack v
      = .error (.typeMismatch (fixedBytes length).canonical (.byteCount content.length)) := by
  obtain rfl | rfl := Value.bytes?_eq_some_iff.mp hv
  · exact if_neg hcount
  · exact if_neg hcount

/-! ### Members -/

theorem packPart_of_ok {x : AbiType × Value} (h : ∃ b, x.1.pack x.2 = .ok b) :
    ∃ p, packPart x = .ok p := by
  obtain ⟨b, hb⟩ := h
  exact ⟨⟨x.1.isDynamic, b⟩, packPart_eq_ok_iff.mpr ⟨rfl, hb⟩⟩

theorem packPart_of_error {x : AbiType × Value} {e : AbiError} (h : x.1.pack x.2 = .error e) :
    packPart x = .error e := by
  rw [packPart, h, error_bind]

/-- The loop over items ends with the first item that does not pack. -/
theorem mapM_packPart_items {elem : AbiType} {before after : List Value} {v : Value} {e : AbiError}
    (hbefore : ∀ u ∈ before, ∃ b, elem.pack u = .ok b) (hv : elem.pack v = .error e) :
    ((before ++ v :: after).map (elem, ·)).mapM packPart = .error e := by
  rw [List.map_append, List.map_cons]
  exact mapM_eq_error (List.forall_mem_map.mpr fun u hu ↦ packPart_of_ok (hbefore u hu))
    (packPart_of_error hv)

/-- The encoding of an item is no longer than the block. -/
theorem length_encoding_item_le {elem : AbiType} {items : List Value} {v : Value} (hv : v ∈ items) :
    (elem.encoding v).length ≤ (Part.standardBlock (itemParts elem items)).length := by
  rw [Part.standardBlock_eq]
  exact Part.length_le_length_block (p := ⟨elem.isDynamic, elem.encoding v⟩)
    (List.mem_map_of_mem hv)

theorem mem_fieldParts {fields : List (Field AbiType)} {entries : List (String × Value)}
    {f : Field AbiType} {v : Value} (hf : f ∈ fields) (hv : FirstEntry entries f v) :
    ⟨f.type.isDynamic, f.type.encoding v⟩ ∈ fieldParts fields entries := by
  induction fields with
  | nil => cases hf
  | cons g fields ih =>
    rw [fieldParts]
    rcases List.mem_cons.mp hf with rfl | hf
    · rw [FirstEntry] at hv
      rw [hv]
      exact List.mem_cons_self
    · exact List.mem_cons_of_mem _ (ih hf)

theorem length_encoding_entry_le {fields : List (Field AbiType)} {entries : List (String × Value)}
    {f : Field AbiType} {v : Value} (hf : f ∈ fields) (hv : FirstEntry entries f v) :
    (f.type.encoding v).length ≤ (Part.standardBlock (fieldParts fields entries)).length := by
  rw [Part.standardBlock_eq]
  exact Part.length_le_length_block (mem_fieldParts hf hv)

theorem entry_of_firstEntry {entries : List (String × Value)} {f : Field AbiType} {v : Value}
    (h : FirstEntry entries f v) : Value.entry entries f.rawName = .ok v := by
  rw [FirstEntry] at h
  rw [Value.entry, h]

/-- The first field without an entry is the one that is reported. -/
theorem select_eq_error {before after : List (Field AbiType)} {f : Field AbiType}
    {entries : List (String × Value)} (hbefore : ∀ g ∈ before, ∃ v, FirstEntry entries g v)
    (hnone : entries.lookup f.rawName = none) :
    select (before ++ f :: after) entries = .error (.fieldNotFound f.rawName) := by
  refine mapM_eq_error (fun g hg ↦ ?_) ?_
  · obtain ⟨v, hv⟩ := hbefore g hg
    exact ⟨v, entry_of_firstEntry hv⟩
  · rw [Value.entry, hnone]

/-- Once the entries are found, the loop over the fields looks each of them up and packs it. -/
theorem packFields_of_firstEntries {fields : List (Field AbiType)}
    {entries : List (String × Value)} {values : List Value}
    (h : List.Forall₂ (FirstEntry entries) fields values) :
    packFields fields values
      = fields.mapM fun f ↦ Value.entry entries f.rawName >>= fun v ↦ packPart (f.type, v) := by
  induction h with
  | nil => rfl
  | cons hv _ ih =>
    rw [packFields_eq, List.map_cons, List.zip_cons_cons, List.mapM_cons, ← packFields_eq, ih,
      List.mapM_cons, entry_of_firstEntry hv, ok_bind]

/-- The loop over the fields ends with the first one whose entry does not pack. -/
theorem packFields_eq_error {before after : List (Field AbiType)} {f : Field AbiType}
    {entries : List (String × Value)} {values : List Value} {v : Value} {e : AbiError}
    (hvalues : List.Forall₂ (FirstEntry entries) (before ++ f :: after) values)
    (hbefore : ∀ g ∈ before, ∃ w, FirstEntry entries g w ∧ ∃ b, g.type.pack w = .ok b)
    (hv : FirstEntry entries f v) (he : f.type.pack v = .error e) :
    packFields (before ++ f :: after) values = .error e := by
  rw [packFields_of_firstEntries hvalues]
  refine mapM_eq_error (fun g hg ↦ ?_) ?_
  · obtain ⟨w, hw, hpack⟩ := hbefore g hg
    rw [entry_of_firstEntry hw, ok_bind]
    exact packPart_of_ok hpack
  · rw [entry_of_firstEntry hv, ok_bind]
    exact packPart_of_error he

/-! ### All kinds -/

/-- Packing answers a first offence with its error, unless a conforming member in front of it is too
long to be laid out. -/
theorem pack_of_firstOffence {t : AbiType} {v : Value} {e : AbiError} (h : t.FirstOffence v e)
    (hn : t.Everywhere NumbersInRange) (hlength : (t.encoding v).length ≤ Count.limit) :
    t.pack v = .error e := by
  induction h with
  | kind hkind => exact pack_of_not_takesKind hkind
  | negative hv hx => exact pack_uint_of_negative hv hx
  | aboveUint hv hx => exact pack_uint_of_above hv hx
  | outsideInt hv hx => exact pack_int_of_outside hn.here.1 hv hx
  | byteCount hv hcount => exact pack_fixedBytes_of_byteCount hv hcount
  | itemCount hcount => rw [pack_array_eq, if_neg hcount]
  | missingEntry hbefore hnone => rw [pack, select_eq_error hbefore hnone, error_bind]
  | sliceItem hbefore _ ih =>
    have helem := (everywhere_slice_iff.mp hn).2
    rw [encoding, ← itemParts, List.length_append] at hlength
    have hitem {u : Value} (hu : u ∈ _) :=
      (length_encoding_item_le hu).trans (Nat.le_of_add_left_le hlength)
    have herror := ih helem (hitem List.mem_append_cons_self)
    rw [pack_slice_eq, mapM_packPart_items (fun u hu ↦ exists_pack_of_conforms helem (hbefore u hu)
      (hitem (List.mem_append_left _ hu))) herror, error_bind]
  | arrayItem hcount hbefore _ ih =>
    have helem := (everywhere_array_iff.mp hn).2
    rw [encoding, ← itemParts] at hlength
    have hitem {u : Value} (hu : u ∈ _) := (length_encoding_item_le hu).trans hlength
    have herror := ih helem (hitem List.mem_append_cons_self)
    rw [pack_array_eq, if_pos hcount, mapM_packPart_items (fun u hu ↦ exists_pack_of_conforms helem
      (hbefore u hu) (hitem (List.mem_append_left _ hu))) herror, error_bind]
  | @entry structName before after f entries v e hall hbefore hv _ ih =>
    have hfields := (everywhere_tuple_iff.mp hn).2
    rw [encoding] at hlength
    have hentry {g : Field AbiType} {w : Value} (hg : g ∈ before ++ f :: after)
        (hw : FirstEntry entries g w) := (length_encoding_entry_le hg hw).trans hlength
    have herror := ih (hfields _ List.mem_append_cons_self) (hentry List.mem_append_cons_self hv)
    obtain ⟨values, hvalues⟩ := exists_firstEntries hall
    rw [pack, select_eq_ok_iff.mpr hvalues, ok_bind, packFields_eq_error hvalues (fun g hg ↦ ?_) hv
      herror, error_bind]
    obtain ⟨w, hw, hconforms⟩ := hbefore g hg
    have hmem := List.mem_append_left (f :: after) hg
    exact ⟨w, hw, exists_pack_of_conforms (hfields g hmem) hconforms (hentry hmem hw)⟩

/-- **Packing takes the conforming values and no others**, and refuses each of the others with the
error of its first offence. -/
theorem pack_eq_ok_iff_conforms {t : AbiType} (ht : t.Parsed) {v : Value}
    (hlength : (t.encoding v).length ≤ Count.limit) :
    ((∃ b, t.pack v = .ok b) ↔ t.Conforms v) ∧ ∀ e, t.pack v = .error e ↔ t.FirstOffence v e := by
  have hn := ht.numbersInRange
  have hreported {e : AbiError} (he : t.FirstOffence v e) := pack_of_firstOffence he hn hlength
  refine ⟨⟨?_, fun h ↦ exists_pack_of_conforms hn h hlength⟩, fun e ↦ ⟨fun he ↦ ?_, hreported⟩⟩
  · rintro ⟨b, hb⟩
    refine (conforms_or_offends t v).resolve_right ?_
    rintro ⟨e, he⟩
    cases hb.symm.trans (hreported he)
  · rcases conforms_or_offends t v with hconforms | ⟨e', he'⟩
    · obtain ⟨b, hb⟩ := exists_pack_of_conforms hn hconforms hlength
      cases hb.symm.trans he
    · cases he.symm.trans (hreported he')
      exact he'

/-- A missing entry comes before an item out of range, and the item of one field before the entry of
the next. -/
theorem pack_eq_ok_iff_conforms_two_offences :
    (tuple "" [⟨"a", "A", array (uint 8) 2⟩, ⟨"b", "B", int 8⟩]).pack
        (.tuple [("c", .bool true), ("a", .array [.uint 256, .int 1])])
        = .error (.fieldNotFound "b") ∧
      (tuple "" [⟨"a", "A", array (uint 8) 2⟩, ⟨"b", "B", int 8⟩]).pack
        (.tuple [("b", .uint 128), ("a", .array [.int 255, .uint 256])])
        = .error (.valueOutOfRange "uint8" 256) ∧
      ∃ b, (tuple "" [⟨"a", "A", array (uint 8) 2⟩, ⟨"b", "B", int 8⟩]).pack
        (.tuple [("b", .uint 127), ("a", .array [.int 255, .uint 0])]) = .ok b := by
  have hparsed : (tuple "" [⟨"a", "A", array (uint 8) 2⟩, ⟨"b", "B", int 8⟩]).Parsed :=
    ⟨"tuple", "", [⟨"a", "uint8[2]", none, [], false⟩, ⟨"b", "int8", none, [], false⟩], rfl⟩
  refine ⟨((pack_eq_ok_iff_conforms hparsed (by decide +kernel)).2 _).mpr ?_,
    ((pack_eq_ok_iff_conforms hparsed (by decide +kernel)).2 _).mpr ?_,
    (pack_eq_ok_iff_conforms hparsed (by decide +kernel)).1.mpr ?_⟩
  · exact @FirstOffence.missingEntry "" [⟨"a", "A", array (uint 8) 2⟩] [] ⟨"b", "B", int 8⟩ _
      (List.forall_mem_singleton.mpr ⟨_, rfl⟩) rfl
  · refine @FirstOffence.entry "" [] [⟨"b", "B", int 8⟩] ⟨"a", "A", array (uint 8) 2⟩ _ _ _
      (List.forall_mem_cons.mpr ⟨⟨_, rfl⟩, List.forall_mem_singleton.mpr ⟨_, rfl⟩⟩)
      (List.forall_mem_nil _) rfl ?_
    exact @FirstOffence.arrayItem (uint 8) 2 [.int 255] [] (.uint 256) _ rfl
      (List.forall_mem_singleton.mpr ⟨255, rfl, by decide, by decide⟩)
      (FirstOffence.aboveUint rfl (by decide))
  · exact ⟨⟨_, rfl, rfl, List.forall_mem_cons.mpr ⟨⟨255, rfl, by decide, by decide⟩,
      List.forall_mem_singleton.mpr ⟨0, rfl, by decide, by decide⟩⟩⟩,
      ⟨_, rfl, 127, rfl, by decide, by decide⟩, trivial⟩

end AbiType

end ContractAbi
