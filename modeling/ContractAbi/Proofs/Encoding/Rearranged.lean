import ContractAbi.Proofs.Encoding.Offences
import ContractAbi.Proofs.NamedValues

/-!
# Rearranged values

Packing looks the entries of a tuple up by the names of the fields, so their order and any entries
beside them should make no difference, in a refusal no less than in an encoding.
`AbiType.Rearranged` relates values that differ in this way, anywhere under arrays and tuples, by
one rule for each change.

## What is kept

A change may lead through values that have a name twice, as long as no field has that name. What
all changes keep is that each field finds at most one entry, `AbiType.SingleEntries`, and with it
the result of packing. Both are statements about two values that can be reversed and chained, so
one induction over the rules carries them together.
-/

namespace ContractAbi

/-! ## Distinct names -/

namespace Value

mutual

/-- The entries of every tuple in the value have names of their own. -/
def DistinctNames : Value → Prop
  | array items => ItemsDistinct items
  | tuple entries => (entries.map Prod.fst).Nodup ∧ EntriesDistinct entries
  | _ => True

def ItemsDistinct : List Value → Prop
  | [] => True
  | v :: items => DistinctNames v ∧ ItemsDistinct items

def EntriesDistinct : List (String × Value) → Prop
  | [] => True
  | e :: entries => DistinctNames e.2 ∧ EntriesDistinct entries

end

theorem distinctNames_array_iff {items : List Value} :
    (array items).DistinctNames ↔ ∀ v ∈ items, v.DistinctNames := by
  rw [DistinctNames]
  induction items with
  | nil => exact iff_of_true trivial (List.forall_mem_nil _)
  | cons v items ih => rw [ItemsDistinct, ih, List.forall_mem_cons]

theorem distinctNames_tuple_iff {entries : List (String × Value)} :
    (tuple entries).DistinctNames ↔
      (entries.map Prod.fst).Nodup ∧ ∀ e ∈ entries, e.2.DistinctNames := by
  rw [DistinctNames]
  refine and_congr_right fun _ ↦ ?_
  clear * -
  induction entries with
  | nil => exact iff_of_true trivial (List.forall_mem_nil _)
  | cons e entries ih => rw [EntriesDistinct, ih, List.forall_mem_cons]

end Value

namespace AbiType

/-! ## Changes -/

/-- One value arises from the other by changing the order of entries in tuples, and by adding and
removing entries that no field of their tuple asks for. Under a type that does not take arrays or
tuples there are no elements and no fields to ask for anything. -/
inductive Rearranged : AbiType → Value → Value → Prop
  | refl {t : AbiType} {v : Value} : Rearranged t v v
  | symm {t : AbiType} {v w : Value} : Rearranged t v w → Rearranged t w v
  | trans {t : AbiType} {u v w : Value} : Rearranged t u v → Rearranged t v w → Rearranged t u w
  | order {t : AbiType} {entries entries' : List (String × Value)} : entries.Perm entries' →
    Rearranged t (.tuple entries) (.tuple entries')
  | surplus {t : AbiType} {name : String} {v : Value} {entries : List (String × Value)} :
    name ∉ t.fields.map Field.rawName →
    Rearranged t (.tuple ((name, v) :: entries)) (.tuple entries)
  | item {t : AbiType} {v w : Value} {before after : List Value} :
    (∀ elem ∈ t.elem?, Rearranged elem v w) →
    Rearranged t (.array (before ++ v :: after)) (.array (before ++ w :: after))
  | entry {t : AbiType} {name : String} {v w : Value} {before after : List (String × Value)} :
    (∀ f ∈ t.fields, f.rawName = name → Rearranged f.type v w) →
    Rearranged t (.tuple (before ++ (name, v) :: after)) (.tuple (before ++ (name, w) :: after))

/-! ## One entry to a field -/

mutual

/-- No field of a tuple, at any depth, finds more than one entry of its name. -/
def SingleEntries : AbiType → Value → Prop
  | .slice elem, .array items | .array elem _, .array items => ∀ v ∈ items, SingleEntries elem v
  | .tuple _ fields, .tuple entries => FieldsSingle fields entries
  | _, _ => True

def FieldsSingle : List (Field AbiType) → List (String × Value) → Prop
  | [], _ => True
  | f :: fields, entries =>
    ((entries.map Prod.fst).count f.rawName ≤ 1 ∧
      ∀ v, (f.rawName, v) ∈ entries → SingleEntries f.type v) ∧ FieldsSingle fields entries

end

theorem singleEntries_array_iff {t : AbiType} {items : List Value} :
    t.SingleEntries (.array items) ↔ ∀ elem ∈ t.elem?, ∀ v ∈ items, elem.SingleEntries v := by
  cases t with
  | slice elem | array elem length =>
    rw [SingleEntries, elem?]
    exact ⟨fun h u hu ↦ by rwa [← Option.mem_some.mp hu], fun h ↦ h elem rfl⟩
  | _ => exact iff_of_true trivial nofun

theorem singleEntries_tuple_iff {t : AbiType} {entries : List (String × Value)} :
    t.SingleEntries (.tuple entries) ↔
      ∀ f ∈ t.fields, (entries.map Prod.fst).count f.rawName ≤ 1 ∧
        ∀ v, (f.rawName, v) ∈ entries → f.type.SingleEntries v := by
  cases t with
  | tuple structName fields =>
    rw [SingleEntries, AbiType.fields]
    induction fields with
    | nil => exact iff_of_true trivial (List.forall_mem_nil _)
    | cons f fields ih => rw [FieldsSingle, ih, List.forall_mem_cons]
  | _ => exact iff_of_true trivial (List.forall_mem_nil _)

theorem singleEntries_of_distinctNames (t : AbiType) {v : Value} (h : v.DistinctNames) :
    t.SingleEntries v := by
  induction t using induct generalizing v with
  | slice elem ih =>
    cases v with
    | array items => exact fun v hv ↦ ih (Value.distinctNames_array_iff.mp h v hv)
    | _ => trivial
  | array elem length ih =>
    cases v with
    | array items => exact fun v hv ↦ ih (Value.distinctNames_array_iff.mp h v hv)
    | _ => trivial
  | tuple structName fields ih =>
    cases v with
    | tuple entries =>
      obtain ⟨hnames, hvalues⟩ := Value.distinctNames_tuple_iff.mp h
      exact singleEntries_tuple_iff.mpr fun f hf ↦
        ⟨List.nodup_iff_count_le_one.mp hnames _, fun v hv ↦ ih f hf (hvalues _ hv)⟩
    | _ => trivial
  | _ => cases v <;> trivial

/-! ## What packing looks at -/

/-- Whether there is an entry for the field. -/
def checkEntry (entries : List (String × Value)) (f : Field AbiType) : Except AbiError Unit :=
  (fun _ ↦ ()) <$> Value.entry entries f.rawName

/-- The part that the entry for the field becomes. -/
def packEntry (entries : List (String × Value)) (f : Field AbiType) : Except AbiError Part := do
  packPart (f.type, ← Value.entry entries f.rawName)

/-- The entries are found first, and what they hold does not matter until all are. -/
theorem pack_tuple_eq (structName : String) (fields : List (Field AbiType))
    (entries : List (String × Value)) :
    (tuple structName fields).pack (.tuple entries) = fields.mapM (checkEntry entries) >>= fun _ ↦
      fields.mapM (packEntry entries) >>= Part.layout := by
  have hcheck : fields.mapM (checkEntry entries)
      = List.map (fun _ ↦ ()) <$> select fields entries := (map_mapM _ _ _).symm
  rw [pack, hcheck]
  cases hvalues : select fields entries with
  | error e => rfl
  | ok values =>
    rw [ok_bind, packFields_of_firstEntries (select_eq_ok_iff.mp hvalues)]
    rfl

/-- A tuple is packed by what its fields find, once that is packed. -/
theorem pack_tuple_congr {t : AbiType} {entries entries' : List (String × Value)}
    (h : ∀ f ∈ t.fields, (entries.lookup f.rawName).map f.type.pack
      = (entries'.lookup f.rawName).map f.type.pack) :
    t.pack (.tuple entries) = t.pack (.tuple entries') := by
  cases t with
  | tuple structName fields =>
    have hfield : ∀ f ∈ fields, checkEntry entries f = checkEntry entries' f ∧
        packEntry entries f = packEntry entries' f := by
      intro f hf
      have hfound := h f hf
      rw [checkEntry, checkEntry, packEntry, packEntry, Value.entry, Value.entry]
      cases hv : entries.lookup f.rawName with
      | none =>
        rw [hv, Option.map_none, eq_comm, Option.map_eq_none_iff] at hfound
        rw [hfound]
        exact ⟨rfl, rfl⟩
      | some v =>
        rw [hv, Option.map_some, eq_comm, Option.map_eq_some_iff] at hfound
        obtain ⟨w, hw, hpack⟩ := hfound
        rw [hw]
        refine ⟨rfl, ?_⟩
        simp only [ok_bind, packPart, hpack]
    rw [pack_tuple_eq, pack_tuple_eq, mapM_congr fun f hf ↦ (hfield f hf).1,
      mapM_congr fun f hf ↦ (hfield f hf).2]
  | _ => rfl

theorem pack_array_congr {t : AbiType} {v w : Value} {before after : List Value}
    (h : ∀ elem ∈ t.elem?, elem.pack v = elem.pack w) :
    t.pack (.array (before ++ v :: after)) = t.pack (.array (before ++ w :: after)) := by
  have hparts {elem : AbiType} (helem : elem.pack v = elem.pack w) :
      ((before ++ v :: after).map (elem, ·)).mapM packPart
        = ((before ++ w :: after).map (elem, ·)).mapM packPart := by
    simp only [List.map_append, List.map_cons, List.mapM_append, List.mapM_cons, packPart, helem]
  have hlength : (before ++ v :: after).length = (before ++ w :: after).length := by
    rw [List.length_append, List.length_append, List.length_cons, List.length_cons]
  cases t with
  | slice elem => rw [pack_slice_eq, pack_slice_eq, hparts (h elem rfl), hlength]
  | array elem length => rw [pack_array_eq, pack_array_eq, hparts (h elem rfl), hlength]
  | _ => rfl

/-! ## What a change keeps -/

/-- A change keeps that fields find at most one entry, and then the result of packing. -/
def PacksAlike (t : AbiType) (v w : Value) : Prop :=
  (t.SingleEntries v ↔ t.SingleEntries w) ∧ (t.SingleEntries v → t.pack v = t.pack w)

theorem packsAlike_order {t : AbiType} {entries entries' : List (String × Value)}
    (h : entries.Perm entries') : t.PacksAlike (.tuple entries) (.tuple entries') := by
  have hcount (name : String) : (entries.map Prod.fst).count name
      = (entries'.map Prod.fst).count name := (h.map Prod.fst).count_eq name
  constructor
  · simp only [singleEntries_tuple_iff, hcount, h.mem_iff]
  · intro hsingle
    refine pack_tuple_congr fun f hf ↦ ?_
    have hone := (singleEntries_tuple_iff.mp hsingle f hf).1
    congr 1
    refine Option.ext fun v ↦ ?_
    rw [lookup_eq_some_iff_mem hone, lookup_eq_some_iff_mem (hcount _ ▸ hone), h.mem_iff]

theorem packsAlike_surplus {t : AbiType} {name : String} {v : Value}
    {entries : List (String × Value)} (hname : name ∉ t.fields.map Field.rawName) :
    t.PacksAlike (.tuple ((name, v) :: entries)) (.tuple entries) := by
  have hother : ∀ f ∈ t.fields, f.rawName ≠ name := by
    rintro f hf rfl
    exact hname (List.mem_map_of_mem hf)
  constructor
  · rw [singleEntries_tuple_iff, singleEntries_tuple_iff]
    refine forall₂_congr fun f hf ↦ ?_
    have hne := hother f hf
    rw [List.map_cons, List.count_cons_of_ne hne.symm]
    simp only [List.mem_cons, Prod.mk.injEq, hne, false_and, false_or]
  · intro _
    refine pack_tuple_congr fun f hf ↦ ?_
    rw [List.lookup_cons, beq_false_of_ne (hother f hf)]

theorem packsAlike_item {t : AbiType} {v w : Value} {before after : List Value}
    (h : ∀ elem ∈ t.elem?, elem.PacksAlike v w) :
    t.PacksAlike (.array (before ++ v :: after)) (.array (before ++ w :: after)) := by
  constructor
  · rw [singleEntries_array_iff, singleEntries_array_iff]
    refine forall₂_congr fun elem helem ↦ ?_
    rw [List.forall_mem_append, List.forall_mem_append, List.forall_mem_cons, List.forall_mem_cons,
      (h elem helem).1]
  · intro hsingle
    refine pack_array_congr fun elem helem ↦ (h elem helem).2 ?_
    exact singleEntries_array_iff.mp hsingle elem helem v List.mem_append_cons_self

private theorem forall_entry_iff {p : Value → Prop} {key name : String} {v : Value}
    {before after : List (String × Value)} :
    (∀ u, (key, u) ∈ before ++ (name, v) :: after → p u) ↔
      (key = name → p v) ∧ ∀ u, (key, u) ∈ before ++ after → p u := by
  simp only [List.perm_middle.mem_iff, List.mem_cons, Prod.mk.injEq, or_imp, forall_and, and_imp]
  exact and_congr_left fun _ ↦ ⟨fun h hkey ↦ h v hkey rfl, fun h _ hkey hu ↦ hu ▸ h hkey⟩

theorem packsAlike_entry {t : AbiType} {name : String} {v w : Value}
    {before after : List (String × Value)}
    (h : ∀ f ∈ t.fields, f.rawName = name → f.type.PacksAlike v w) :
    t.PacksAlike (.tuple (before ++ (name, v) :: after))
      (.tuple (before ++ (name, w) :: after)) := by
  constructor
  · rw [singleEntries_tuple_iff, singleEntries_tuple_iff]
    refine forall₂_congr fun f hf ↦ and_congr ?_ ?_
    · simp only [List.map_append, List.map_cons]
    · rw [forall_entry_iff, forall_entry_iff]
      exact and_congr_left fun _ ↦ forall_congr' fun hname ↦ (h f hf hname).1
  · intro hsingle
    refine pack_tuple_congr fun f hf ↦ ?_
    rw [List.lookup_append, List.lookup_append, List.lookup_cons, List.lookup_cons]
    by_cases hname : f.rawName = name
    · have hpack := (h f hf hname).2 ((singleEntries_tuple_iff.mp hsingle f hf).2 v
        (hname ▸ List.mem_append_cons_self))
      rw [beq_iff_eq.mpr hname]
      cases before.lookup f.rawName with
      | none => exact congrArg some hpack
      | some u => rfl
    · rw [beq_false_of_ne hname]

theorem packsAlike_of_rearranged {t : AbiType} {v w : Value} (h : t.Rearranged v w) :
    t.PacksAlike v w := by
  induction h with
  | refl => exact ⟨Iff.rfl, fun _ ↦ rfl⟩
  | symm _ ih => exact ⟨ih.1.symm, fun hw ↦ (ih.2 (ih.1.mpr hw)).symm⟩
  | trans _ _ ih ih' =>
    exact ⟨ih.1.trans ih'.1, fun hu ↦ (ih.2 hu).trans (ih'.2 (ih.1.mp hu))⟩
  | order h => exact packsAlike_order h
  | surplus hname => exact packsAlike_surplus hname
  | item _ ih => exact packsAlike_item ih
  | entry _ ih => exact packsAlike_entry ih

theorem pack_eq_of_rearranged {t : AbiType} {v w : Value} (hv : v.DistinctNames)
    (h : t.Rearranged v w) : t.pack v = t.pack w :=
  (packsAlike_of_rearranged h).2 (t.singleEntries_of_distinctNames hv)

end AbiType

namespace Arguments

/-- As many values, each a rearrangement under the type of its argument. -/
def Rearranged (args : Arguments) (values values' : List Value) : Prop :=
  values.length = values'.length ∧
    ∀ x ∈ args.zip (values.zip values'), x.1.type.Rearranged x.2.1 x.2.2

theorem parts_eq_of_rearranged {args : Arguments} {values values' : List Value}
    (hv : ∀ v ∈ values, v.DistinctNames) (h : args.Rearranged values values') :
    args.parts values = args.parts values' := by
  obtain ⟨hlength, hall⟩ := h
  induction args generalizing values values' with
  | nil => cases values <;> cases values' <;> rfl
  | cons a args ih =>
    cases values with
    | nil =>
      rw [List.eq_nil_of_length_eq_zero hlength.symm]
    | cons v values =>
      obtain ⟨w, values', rfl⟩ := List.exists_cons_of_length_eq_add_one hlength.symm
      obtain ⟨hhead, hrest⟩ := List.forall_mem_cons.mp hv
      rw [List.zip_cons_cons, List.zip_cons_cons, List.forall_mem_cons] at hall
      rw [parts, parts, AbiType.pack_eq_of_rearranged hhead hall.1,
        ih hrest (Nat.succ.inj hlength) hall.2]

end Arguments

/-- **Order and surplus do not matter.** Values whose tuples have distinct names pack to the same
result, the same bytes or the same error, as those that arise from them by reordering the entries
of tuples and by adding and removing entries that no field asks for, at any depth. So do the values
of an argument list, argument by argument. -/
theorem pack_eq_of_reordered_or_surplus :
    (∀ (t : AbiType) (v w : Value), v.DistinctNames → t.Rearranged v w → t.pack v = t.pack w) ∧
      ∀ (args : Arguments) (values values' : List Value), (∀ v ∈ values, v.DistinctNames) →
        args.Rearranged values values' → args.pack values = args.pack values' := by
  refine ⟨fun t v w hv h ↦ AbiType.pack_eq_of_rearranged hv h, fun args values values' hv h ↦ ?_⟩
  rw [Arguments.pack, Arguments.pack, Arguments.parts_eq_of_rearranged hv h, h.1]

/-- Two fields the other way round, an entry between them and one in front of a field below a
slice: the bytes and the error are those without. -/
theorem pack_eq_of_reordered_or_surplus_nested :
    let type : AbiType := .tuple "" [⟨"b", "B", .int 8⟩,
      ⟨"a", "A", .slice (.tuple "" [⟨"x", "X", .uint 8⟩])⟩]
    let plain (x : Word) : Value := .tuple [("a", .array [.tuple [("x", .uint x)]]), ("b", .int 2)]
    let mixed (x : Word) : Value := .tuple [("b", .int 2), ("z", .bool true),
      ("a", .array [.tuple [("y", .string "s"), ("x", .uint x)]])]
    type.pack (mixed 1) = .ok (countWord 2 ++ countWord 64 ++ countWord 1 ++ countWord 1) ∧
      type.pack (mixed 256) = .error (.valueOutOfRange "uint8" 256) ∧
      Arguments.pack [⟨"p", type, false⟩] [plain 1]
        = Arguments.pack [⟨"p", type, false⟩] [mixed 1] := by
  intro type plain mixed
  obtain ⟨hpack, hargs⟩ := pack_eq_of_reordered_or_surplus
  have hdistinct (x : Word) : (plain x).DistinctNames :=
    ⟨(by decide : ["a", "b"].Nodup),
      ⟨⟨(by decide : ["x"].Nodup), trivial, trivial⟩, trivial⟩, trivial, trivial⟩
  have hrearranged (x : Word) : type.Rearranged (plain x) (mixed x) := by
    have hitem : (AbiType.slice (.tuple "" [⟨"x", "X", .uint 8⟩])).Rearranged
        (.array [.tuple [("x", .uint x)]])
        (.array [.tuple [("y", .string "s"), ("x", .uint x)]]) := by
      refine @AbiType.Rearranged.item _ _ _ [] [] fun elem helem ↦ ?_
      rw [← Option.mem_some.mp helem]
      exact .symm (.surplus (by decide))
    have hentry : ∀ f ∈ type.fields, f.rawName = "a" → f.type.Rearranged _ _ :=
      List.forall_mem_cons.mpr ⟨fun h ↦ absurd h (by decide),
        List.forall_mem_singleton.mpr fun _ ↦ hitem⟩
    refine .trans (@AbiType.Rearranged.entry type "a" _ _ [] _ hentry) (.trans (.symm (.surplus ?_))
      (.order (@List.perm_append_comm _ [_, _] [_])))
    decide
  refine ⟨?_, ?_, ?_⟩
  · rw [← hpack type _ _ (hdistinct 1) (hrearranged 1)]
    decide +kernel
  · rw [← hpack type _ _ (hdistinct 256) (hrearranged 256)]
    decide +kernel
  · exact hargs _ _ _ (List.forall_mem_singleton.mpr (hdistinct 1))
      ⟨rfl, List.forall_mem_singleton.mpr (hrearranged 1)⟩

end ContractAbi
