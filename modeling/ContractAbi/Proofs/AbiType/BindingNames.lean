import ContractAbi.Proofs.AbiType.Parsed
import ContractAbi.Proofs.FreshNames

/-!
# Binding names

The fields of a tuple are bound one after the other, each to the first free one among its camel case
name and the numbered forms of that. A free one is always found, and whatever is not an identifier
is refused. So the names of a tuple are identifiers and distinct.

The declared names alone decide the names that are bound: `bindingNames` computes the ones from the
others, and a tuple that was read holds its result. A declared name is refused for its own sake:
digits behind an identifier leave it one, and digits behind anything else do not make it one, so
the number that a name gets when it clashes has no part in `Name.IsBindable`.
-/

namespace ContractAbi

/-! ## Characters -/

namespace Text

theorem uppercase_ne_nil (c : Char) : uppercase c ≠ [] := by
  have hexpansions : ∀ e ∈ upperExpansions, e.2 ≠ [] := by decide
  rw [uppercase]
  split
  · rename_i codes hcodes
    obtain ⟨before, after, htable, -⟩ := List.lookup_eq_some_iff.mp hcodes
    have hmem : (c.toNat, codes) ∈ upperExpansions := by simp [htable]
    exact fun hnil ↦ hexpansions _ hmem (List.map_eq_nil_iff.mp hnil)
  · split
    · exact List.cons_ne_nil _ _
    · exact List.cons_ne_nil _ _

theorem isAlphabetic_of_isDigit {c : Char} (h : c.isDigit = true) : isAlphabetic c = false := by
  have hdigits : ∀ n < 10, isAlphabetic n.digitChar = false := by decide +kernel
  obtain ⟨n, hn, -, rfl⟩ := exists_digitChar h
  exact hdigits n hn

end Text

namespace Name

theorem isLetter_of_isDigit {c : Char} (h : c.isDigit = true) : isLetter c = false := by
  have hunderscore : c ≠ '_' := by
    rintro rfl
    cases h
  rw [isLetter, Text.isAlphabetic_of_isDigit h, Bool.or_false, decide_eq_false_iff_not]
  exact hunderscore

/-! ## Declared names -/

theorem joinWords_eq_nil_iff {atStart : Bool} {cs : List Char} :
    joinWords atStart cs = [] ↔ ∀ c ∈ cs, c = '_' := by
  induction cs generalizing atStart with
  | nil => exact iff_of_true rfl (List.forall_mem_nil _)
  | cons c rest ih =>
    rw [joinWords, List.forall_mem_cons]
    split
    · rename_i hunderscore
      rw [ih, and_iff_right hunderscore]
    · rename_i hother
      refine iff_of_false (fun hnil ↦ ?_) fun h ↦ hother h.1
      have hfirst := (List.append_eq_nil_iff.mp hnil).1
      split at hfirst
      · exact Text.uppercase_ne_nil c hfirst
      · cases hfirst

/-- Nothing is left of a name that has no words. -/
theorem camelCase_eq_empty_iff {rawName : String} :
    camelCase rawName = "" ↔ ∀ c ∈ rawName.toList, c = '_' := by
  rw [camelCase, String.ofList_eq_empty_iff, joinWords_eq_nil_iff]

/-- A number behind a name neither makes it an identifier nor keeps it from being one. -/
theorem isIdentifier_numbered (name : String) (n : Nat) :
    isIdentifier (numbered name n) = isIdentifier name := by
  have hdigits : ∀ d ∈ AbiType.decimal n, d.isDigit = true := fun _ ↦ isDigit_of_mem_decimal
  rw [isIdentifier, isIdentifier, toList_numbered]
  cases name.toList with
  | nil =>
    obtain ⟨d, rest, hdecimal⟩ := List.exists_cons_of_ne_nil (decimal_ne_nil n)
    have hfirst := isLetter_of_isDigit (hdigits d (by rw [hdecimal]; exact List.mem_cons_self))
    rw [hdecimal, List.nil_append]
    dsimp only
    rw [hfirst, Bool.false_and]
  | cons c rest =>
    have hall : (AbiType.decimal n).all (fun d ↦ isLetter d || d.isDigit) = true :=
      List.all_eq_true.mpr fun d hd ↦ by rw [hdigits d hd, Bool.or_true]
    rw [List.cons_append]
    dsimp only
    rw [List.all_append, hall, Bool.and_true]

theorem isIdentifier_fresh (name : String) (taken : List String) :
    isIdentifier (fresh name taken) = isIdentifier name := by
  have hfirst := firstFree_fresh name taken
  generalize fresh name taken = result at hfirst
  cases hfirst with
  | self _ => rfl
  | numbered _ _ _ => exact isIdentifier_numbered name _

/-- The name can be bound, as far as it alone is concerned. -/
def IsBindable (rawName : String) : Prop :=
  ¬(∀ c ∈ rawName.toList, c = '_') ∧ isIdentifier (camelCase rawName) = true

theorem not_isBindable_iff {rawName : String} :
    ¬IsBindable rawName ↔
      (∀ c ∈ rawName.toList, c = '_') ∨ isIdentifier (camelCase rawName) = false := by
  rw [IsBindable, not_and_or, not_not, Bool.not_eq_true]

end Name

namespace AbiType

/-! ## Names of a tuple -/

/-- The names that the fields declared under the given ones are bound to. -/
def bindingNames (taken : List String) (index : Nat) :
    List String → Except AbiError (List String)
  | [] => return []
  | rawName :: rest => do
    let name ← bindingName taken index rawName
    return name :: (← bindingNames (name :: taken) (index + 1) rest)

variable {taken : List String} {index : Nat}

theorem bindingName_eq_ok_iff {rawName name : String} :
    bindingName taken index rawName = .ok name ↔
      Name.IsBindable rawName ∧ Name.fresh (Name.camelCase rawName) taken = name := by
  rw [Name.IsBindable, ← Name.camelCase_eq_empty_iff, bindingName]
  dsimp only
  rw [Name.isIdentifier_fresh]
  split
  · rename_i hempty
    exact iff_of_false nofun fun h ↦ h.1.1 hempty
  · rename_i hwords
    split
    · rename_i hidentifier
      rw [Except.ok.injEq, and_iff_right ⟨hwords, hidentifier⟩]
    · rename_i hother
      exact iff_of_false nofun fun h ↦ hother h.1.2

theorem invalidFieldName_of_bindingName {rawName : String} {e : AbiError}
    (h : bindingName taken index rawName = .error e) : ∃ fault, e = .invalidFieldName fault := by
  rw [bindingName] at h
  dsimp only at h
  split at h
  · exact ⟨_, (Except.error.inj h).symm⟩
  · split at h
    · cases h
    · exact ⟨_, (Except.error.inj h).symm⟩

theorem bindingName_eq_ok {rawName name : String}
    (h : bindingName taken index rawName = .ok name) :
    name ∉ taken ∧ Name.isIdentifier name = true := by
  obtain ⟨⟨-, hidentifier⟩, rfl⟩ := bindingName_eq_ok_iff.mp h
  exact ⟨Name.fresh_notMem _ taken, (Name.isIdentifier_fresh _ taken).trans hidentifier⟩

/-- Each name is kept away from those before it, which are among the taken ones by then. -/
theorem bindingNames_eq_ok {rawNames names : List String}
    (h : bindingNames taken index rawNames = .ok names) :
    (∀ name ∈ names, name ∉ taken ∧ Name.isIdentifier name = true) ∧ names.Nodup := by
  induction rawNames generalizing taken index names with
  | nil =>
    rw [bindingNames] at h
    rw [← Except.ok.inj h]
    exact ⟨List.forall_mem_nil _, List.nodup_nil⟩
  | cons rawName rest ih =>
    rw [bindingNames] at h
    obtain ⟨name, hname, h⟩ := bind_eq_ok_iff.mp h
    obtain ⟨others, hothers, h⟩ := bind_eq_ok_iff.mp h
    rw [← Except.ok.inj h]
    obtain ⟨hall, hnodup⟩ := ih hothers
    refine ⟨List.forall_mem_cons.mpr ⟨bindingName_eq_ok hname, fun other hother ↦ ?_⟩, ?_⟩
    · obtain ⟨hfree, hidentifier⟩ := hall other hother
      exact ⟨fun htaken ↦ hfree (List.mem_cons_of_mem _ htaken), hidentifier⟩
    · exact List.nodup_cons.mpr ⟨fun hmem ↦ (hall name hmem).1 List.mem_cons_self, hnodup⟩

/-- Each name is the first free one, and what is taken for it are the names of the fields before. -/
theorem firstFree_of_bindingNames {rawNames names : List String}
    (h : bindingNames taken index rawNames = .ok names) {k : Nat} {rawName name : String}
    (hraw : rawNames[k]? = some rawName) (hname : names[k]? = some name) :
    Name.FirstFree (Name.camelCase rawName) (names.take k ++ taken) name := by
  induction rawNames generalizing taken index names k with
  | nil => cases hraw
  | cons first rest ih =>
    rw [bindingNames] at h
    obtain ⟨firstName, hfirst, h⟩ := bind_eq_ok_iff.mp h
    obtain ⟨others, hothers, h⟩ := bind_eq_ok_iff.mp h
    obtain rfl := Except.ok.inj h
    cases k with
    | zero =>
      obtain rfl := Option.some.inj hraw
      obtain rfl := Option.some.inj hname
      rw [← (bindingName_eq_ok_iff.mp hfirst).2]
      exact Name.firstFree_fresh _ taken
    | succ k =>
      refine (ih hothers hraw hname).congr fun other ↦ ?_
      rw [List.take_succ_cons, List.cons_append, List.mem_append, List.mem_cons, List.mem_cons,
        List.mem_append]
      exact or_left_comm

/-- Names are bound if each of them can be, and what is refused is a name. -/
theorem exists_bindingNames_iff {rawNames : List String} :
    (∃ names, bindingNames taken index rawNames = .ok names) ↔
      ∀ rawName ∈ rawNames, Name.IsBindable rawName := by
  induction rawNames generalizing taken index with
  | nil => exact iff_of_true ⟨[], rfl⟩ (List.forall_mem_nil _)
  | cons rawName rest ih =>
    rw [List.forall_mem_cons, bindingNames]
    simp only [bind_eq_ok_iff, pure_eq_ok, bindingName_eq_ok_iff]
    constructor
    · rintro ⟨_, _, ⟨hbindable, -⟩, others, hothers, -⟩
      exact ⟨hbindable, ih.mp ⟨others, hothers⟩⟩
    · rintro ⟨hbindable, hrest⟩
      obtain ⟨others, hothers⟩ := ih.mpr hrest
      exact ⟨_, _, ⟨hbindable, rfl⟩, others, hothers, rfl⟩

theorem invalidFieldName_of_bindingNames {rawNames : List String} {e : AbiError}
    (h : bindingNames taken index rawNames = .error e) : ∃ fault, e = .invalidFieldName fault := by
  induction rawNames generalizing taken index with
  | nil => cases h
  | cons rawName rest ih =>
    rw [bindingNames] at h
    cases hname : bindingName taken index rawName with
    | error e' =>
      rw [hname, error_bind] at h
      exact invalidFieldName_of_bindingName (hname.trans (congrArg _ (Except.error.inj h)))
    | ok name =>
      rw [hname, ok_bind] at h
      cases hrest : bindingNames (name :: taken) (index + 1) rest with
      | error e' =>
        rw [hrest, error_bind] at h
        exact ih (hrest.trans (congrArg _ (Except.error.inj h)))
      | ok others =>
        rw [hrest] at h
        cases h

/-! ## Fields -/

/-- The fields have the declared names of the components, and the names bound to these. -/
theorem names_of_fieldsOfDescriptors {room : Nat} {ds : List Descriptor}
    {fields : List (Field AbiType)}
    (h : fieldsOfDescriptors room taken index ds = .ok fields) :
    fields.map Field.rawName = ds.map Descriptor.name ∧
      bindingNames taken index (ds.map Descriptor.name) = .ok (fields.map Field.name) := by
  induction ds generalizing taken index fields with
  | nil =>
    rw [fieldsOfDescriptors] at h
    rw [← Except.ok.inj h]
    exact ⟨rfl, rfl⟩
  | cons d rest ih =>
    rw [fieldsOfDescriptors] at h
    obtain ⟨type, -, h⟩ := bind_eq_ok_iff.mp h
    obtain ⟨name, hname, h⟩ := bind_eq_ok_iff.mp h
    obtain ⟨others, hothers, h⟩ := bind_eq_ok_iff.mp h
    rw [← Except.ok.inj h]
    obtain ⟨hraw, hbound⟩ := ih hothers
    refine ⟨congrArg (d.name :: ·) hraw, ?_⟩
    rw [List.map_cons, bindingNames, hname, ok_bind, hbound]
    rfl

/-- Where the types of all components are read, the names alone decide. -/
theorem map_name_fieldsOfDescriptors {room : Nat} {ds : List Descriptor}
    (htypes : ∀ d ∈ ds, ∃ t, ofDescriptor room d = .ok t) :
    List.map Field.name <$> fieldsOfDescriptors room taken index ds
      = bindingNames taken index (ds.map Descriptor.name) := by
  induction ds generalizing taken index with
  | nil => rfl
  | cons d rest ih =>
    obtain ⟨⟨t, ht⟩, hrest⟩ := List.forall_mem_cons.mp htypes
    rw [fieldsOfDescriptors, ht, ok_bind, List.map_cons, bindingNames]
    simp only [← ih hrest, map_bind, bind_map_left, map_pure, List.map_cons]

/-- A name is at fault exactly if one of them cannot be bound. -/
theorem invalidFieldName_iff {room : Nat} {ds : List Descriptor}
    (htypes : ∀ d ∈ ds, ∃ t, ofDescriptor room d = .ok t) :
    (∃ fault, fieldsOfDescriptors room taken index ds = .error (.invalidFieldName fault)) ↔
      ∃ d ∈ ds, ¬Name.IsBindable d.name := by
  have hnames : List.map Field.name <$> fieldsOfDescriptors room taken index ds
      = bindingNames taken index (ds.map Descriptor.name) := map_name_fieldsOfDescriptors htypes
  have hbound : (∃ names, bindingNames taken index (ds.map Descriptor.name) = .ok names) ↔
      ∀ d ∈ ds, Name.IsBindable d.name := exists_bindingNames_iff.trans List.forall_mem_map
  constructor
  · rintro ⟨fault, h⟩
    by_contra hall
    obtain ⟨names, hok⟩ := hbound.mpr fun d hd ↦ by_contra fun hd' ↦ hall ⟨d, hd, hd'⟩
    rw [h, hok] at hnames
    cases hnames
  · rintro ⟨d, hd, hrefused⟩
    cases hfields : fieldsOfDescriptors room taken index ds with
    | ok fields =>
      rw [hfields] at hnames
      exact absurd (hbound.mp ⟨_, hnames.symm⟩ d hd) hrefused
    | error e =>
      rw [hfields] at hnames
      obtain ⟨fault, rfl⟩ := invalidFieldName_of_bindingNames hnames.symm
      exact ⟨fault, rfl⟩

/-- **The names of a tuple.** Each field is bound to the first form of its camel case name that no
field before it is bound to, so no two are bound to one name. Where the types of the components are
read, a name is at fault exactly if one of them has no words, or is not an identifier in camel case:
the names around it do not matter, since numbering changes nothing about that. -/
theorem fieldNames_bound_or_refused (room : Nat) (ds : List Descriptor) :
    (∀ fields, fieldsOfDescriptors room [] 0 ds = .ok fields →
      fields.map Field.rawName = ds.map Descriptor.name ∧
        (∀ k f, fields[k]? = some f →
          Name.FirstFree (Name.camelCase f.rawName) ((fields.take k).map Field.name) f.name) ∧
        (fields.map Field.name).Nodup) ∧
    ((∀ d ∈ ds, ∃ t, ofDescriptor room d = .ok t) →
      ((∃ fault, fieldsOfDescriptors room [] 0 ds = .error (.invalidFieldName fault)) ↔
        ∃ d ∈ ds, (∀ c ∈ d.name.toList, c = '_') ∨
          Name.isIdentifier (Name.camelCase d.name) = false)) ∧
    ∀ name n, Name.isIdentifier (Name.numbered name n) = Name.isIdentifier name := by
  refine ⟨fun fields h ↦ ?_, fun htypes ↦ ?_, Name.isIdentifier_numbered⟩
  · obtain ⟨hraw, hnames⟩ := names_of_fieldsOfDescriptors h
    refine ⟨hraw, fun k f hf ↦ ?_, (bindingNames_eq_ok hnames).2⟩
    have hfirst : Name.FirstFree (Name.camelCase f.rawName)
        ((fields.map Field.name).take k ++ []) f.name := by
      refine firstFree_of_bindingNames hnames ?_ ?_
      · rw [← hraw, List.getElem?_map, hf]
        rfl
      · rw [List.getElem?_map, hf]
        rfl
    rwa [List.append_nil, ← List.map_take] at hfirst
  · rw [invalidFieldName_iff htypes]
    simp only [Name.not_isBindable_iff]

/-- Names that clash with each other and with numbered forms, and behind them one that starts with a
digit. -/
theorem fieldNames_bound_or_refused_clashing :
    let component (name : String) : Descriptor := ⟨name, "uint8", none, [], false⟩
    let ds := ["a", "a", "a0", "A0", "a_0"].map component
    (∃ fields, fieldsOfDescriptors 0 [] 0 ds = .ok fields ∧
      fields.map Field.name = ["A", "A0", "A00", "A01", "A02"] ∧
      Name.FirstFree "A0" ["A", "A0", "A00", "A01"] "A02") ∧
    ∃ fault, fieldsOfDescriptors 0 [] 0 (ds ++ [component "1_a"])
      = .error (.invalidFieldName fault) := by
  intro component ds
  constructor
  · have hfields : fieldsOfDescriptors 0 [] 0 ds = .ok [⟨"a", "A", .uint 8⟩, ⟨"a", "A0", .uint 8⟩,
        ⟨"a0", "A00", .uint 8⟩, ⟨"A0", "A01", .uint 8⟩, ⟨"a_0", "A02", .uint 8⟩] := by
      decide +kernel
    have hlast := ((fieldNames_bound_or_refused 0 ds).1 _ hfields).2.1 4 _ rfl
    have hcamel : Name.camelCase "a_0" = "A0" := by decide +kernel
    dsimp only at hlast
    rw [hcamel] at hlast
    exact ⟨_, hfields, rfl, hlast⟩
  · have htypes : ∀ d ∈ ds ++ [component "1_a"], ofDescriptor 0 d = .ok (.uint 8) := by
      decide +kernel
    refine ((fieldNames_bound_or_refused 0 (ds ++ [component "1_a"])).2.1
      fun d hd ↦ ⟨_, htypes d hd⟩).mpr ?_
    exact ⟨component "1_a", List.mem_append_right ds (List.mem_singleton_self _),
      Or.inr (by decide +kernel)⟩

end AbiType

end ContractAbi
