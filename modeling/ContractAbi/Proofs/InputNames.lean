import ContractAbi.Declaration
import ContractAbi.Proofs.AbiType.BindingNames
import ContractAbi.Proofs.NamedValues

/-!
# Names of inputs

Inputs of events and custom errors that have no name are named after their position, so that every
input has a name. `Arguments.KeptByName` says what the names are for: the values of a payload can be
kept in a map, each under its own name.

Names after positions do not clash with each other, but nothing keeps an input from having such a
name from the start. Declared inputs are kept by name exactly if none has the name that an unnamed
one is given. Fields of tuples are not at risk in this way, since a name that is taken is numbered
there.
-/

namespace ContractAbi

/-! ## Maps without loss -/

theorem size_insertMany_of_nodup {entries : List (String × Value)}
    (hnames : (entries.map Prod.fst).Nodup) :
    ((∅ : NamedValues).insertMany entries).size = entries.length := by
  have hdistinct : entries.Pairwise fun a b ↦ ¬compare a.1 b.1 = .eq := by
    rw [List.Nodup, List.pairwise_map] at hnames
    exact hnames.imp fun hne ↦ mt Std.compare_eq_iff_eq.mp hne
  rw [Std.TreeMap.size_insertMany_list hdistinct (fun _ h ↦ absurd h Std.TreeMap.not_mem_emptyc),
    Std.TreeMap.size_emptyc, Nat.zero_add]

namespace Arguments

/-- All arguments have names, no two of them the same, and of every payload that is unpacked into an
empty map each argument's value is there under its name, and nothing else is. -/
structure KeptByName (args : Arguments) : Prop where
  named : ∀ a ∈ args, a.name ≠ ""
  distinct : (args.map Argument.name).Nodup
  kept : ∀ (data : Bytes) (values : List Value), args.unpack data = .ok values →
    ∃ map, (args.unpackInto data).run ∅ = .ok () map ∧ map.size = args.nonIndexed.length ∧
      ∀ (i : Nat) (a : Argument), args.nonIndexed[i]? = some a →
        ∃ v, values[i]? = some v ∧ map[a.name]? = some v

/-- Distinct names are enough. -/
theorem keptByName_of_nodup {args : Arguments} (hnamed : ∀ a ∈ args, a.name ≠ "")
    (hnodup : (args.map Argument.name).Nodup) : KeptByName args where
  named := hnamed
  distinct := hnodup
  kept data values h := by
    have hlength := length_of_unpack h
    have hnames : ((args.names.zip values).map Prod.fst).Nodup := by
      rw [map_fst_entries hlength]
      exact hnodup.sublist (List.filter_sublist.map _)
    refine ⟨_, unpackInto_of_ok h ∅, ?_, fun i a ha ↦ ?_⟩
    · rw [size_insertMany_of_nodup hnames, List.length_zip, names, List.length_map, hlength,
        Nat.min_self]
    · have hi : i < values.length := hlength ▸ (List.getElem?_eq_some_iff.mp ha).1
      have hv : values[i]? = some values[i] := List.getElem?_eq_getElem hi
      have hname : args.names[i]? = some a.name := by
        rw [names, List.getElem?_map, ha]
        rfl
      have hentry : (a.name, values[i]) ∈ args.names.zip values :=
        List.mem_of_getElem? (List.getElem?_zip_eq_some.mpr ⟨hname, hv⟩)
      refine ⟨_, hv, ?_⟩
      rw [getElem?_insertMany, lookup_reverse_eq_lookup hnames,
        (lookup_eq_some_iff_mem (List.nodup_iff_count_le_one.mp hnames _)).mpr hentry,
        Option.some_or]

end Arguments

namespace Declaration

/-! ## Names after positions -/

theorem positionalName_injective : Function.Injective positionalName :=
  Name.numbered_injective "arg"

theorem positionalName_ne_empty (index : Nat) : positionalName index ≠ "" := by
  intro h
  have htext := congrArg String.toList h
  rw [positionalName, String.toList_append] at htext
  exact List.append_ne_nil_of_left_ne_nil (by decide) _ htext

variable {inputs : Arguments}

/-- The inputs that have a name have different ones. -/
def NamedApart (inputs : Arguments) : Prop :=
  ((inputs.map Argument.name).filter (· ≠ "")).Nodup

/-- No input has the name that an unnamed one is given. -/
def PositionsFree (inputs : Arguments) : Prop :=
  ∀ i (h : i < inputs.length), inputs[i].name = "" →
    positionalName i ∉ inputs.map Argument.name

instance : Decidable (NamedApart inputs) :=
  inferInstanceAs (Decidable (List.Nodup _))

instance : Decidable (PositionsFree inputs) :=
  inferInstanceAs (Decidable (∀ i (_ : i < inputs.length), _ → _))

theorem NamedApart.eq_of_name_eq (hapart : NamedApart inputs) {i j : Nat} {hi : i < inputs.length}
    {hj : j < inputs.length} (hname : inputs[i].name ≠ "") (h : inputs[i].name = inputs[j].name) :
    i = j := by
  rw [NamedApart, List.Nodup, List.pairwise_filter, List.pairwise_map,
    List.pairwise_iff_getElem] at hapart
  rcases Nat.lt_trichotomy i j with hij | hij | hij
  · exact absurd h (hapart i j hi hj hij (by simpa using hname) (by simpa [← h] using hname))
  · exact hij
  · exact absurd h.symm (hapart j i hj hi hij (by simpa [← h] using hname) (by simpa using hname))

/-! ## Inputs behind the naming -/

theorem length_nameInputs : (nameInputs inputs).length = inputs.length :=
  List.length_mapIdx

theorem name_nameInputs {i : Nat} (hi : i < inputs.length)
    (hnamed : i < (nameInputs inputs).length) : (nameInputs inputs)[i].name
      = if inputs[i].name = "" then positionalName i else inputs[i].name := by
  simp only [nameInputs, List.getElem_mapIdx]
  split <;> rfl

theorem name_ne_empty_of_mem_nameInputs {a : Argument} (h : a ∈ nameInputs inputs) :
    a.name ≠ "" := by
  obtain ⟨i, hi, rfl⟩ := List.getElem_of_mem h
  rw [name_nameInputs (length_nameInputs ▸ hi) hi]
  split
  · exact positionalName_ne_empty i
  · assumption

/-- With the given names apart, only a name after a position can be there twice, and only because an
input has it from the start. -/
theorem nodup_nameInputs_iff (hapart : NamedApart inputs) :
    ((nameInputs inputs).map Argument.name).Nodup ↔ PositionsFree inputs := by
  constructor
  · intro hnodup i hi hempty hmem
    obtain ⟨b, hb, hname⟩ := List.mem_map.mp hmem
    obtain ⟨j, hj, rfl⟩ := List.getElem_of_mem hb
    have hgiven : inputs[j].name ≠ "" := hname ▸ positionalName_ne_empty i
    have hi' : i < ((nameInputs inputs).map Argument.name).length := by
      rwa [List.length_map, length_nameInputs]
    have hj' : j < ((nameInputs inputs).map Argument.name).length := by
      rwa [List.length_map, length_nameInputs]
    have hsame : ((nameInputs inputs).map Argument.name)[i]
        = ((nameInputs inputs).map Argument.name)[j] := by
      rw [List.getElem_map, List.getElem_map, name_nameInputs hi, name_nameInputs hj,
        if_pos hempty, if_neg hgiven, hname]
    obtain rfl := hnodup.getElem_inj_iff.mp hsame
    exact hgiven hempty
  · intro hfree
    rw [List.Nodup, List.pairwise_map, List.pairwise_iff_getElem]
    intro i j hi' hj' hij hsame
    have hi : i < inputs.length := length_nameInputs ▸ hi'
    have hj : j < inputs.length := length_nameInputs ▸ hj'
    rw [name_nameInputs hi hi', name_nameInputs hj hj'] at hsame
    split at hsame
    · rename_i hempty
      split at hsame
      · exact Nat.ne_of_lt hij (positionalName_injective hsame)
      · exact hfree i hi hempty (hsame ▸ List.mem_map_of_mem (List.getElem_mem hj))
    · rename_i hgiven
      split at hsame
      · rename_i hempty
        exact hfree j hj hempty (hsame ▸ List.mem_map_of_mem (List.getElem_mem hi))
      · exact Nat.ne_of_lt hij (hapart.eq_of_name_eq hgiven hsame)

theorem keptByName_nameInputs_iff (hapart : NamedApart inputs) :
    Arguments.KeptByName (nameInputs inputs) ↔ PositionsFree inputs := by
  rw [← nodup_nameInputs_iff hapart]
  exact ⟨Arguments.KeptByName.distinct,
    Arguments.keptByName_of_nodup fun _ ↦ name_ne_empty_of_mem_nameInputs⟩

/-- **Names of declared inputs.** If the inputs that have a name have different ones, those of the
event and of the custom error are kept by name exactly if no input has the name that an unnamed one
is given. -/
theorem keptByName_declare_iff (hapart : NamedApart inputs) :
    (∀ name rawName anonymous,
      Arguments.KeptByName (Event.declare name rawName anonymous inputs).inputs ↔
        PositionsFree inputs) ∧
    ∀ name, Arguments.KeptByName (CustomError.declare name inputs).inputs ↔ PositionsFree inputs :=
  ⟨fun _ _ _ ↦ keptByName_nameInputs_iff hapart, fun _ ↦ keptByName_nameInputs_iff hapart⟩

/-- An input with a name between two that have none, one of these a topic. -/
theorem keptByName_declare_iff_between :
    let inputs : Arguments := [⟨"", .uint 8, false⟩, ⟨"who", .address, false⟩, ⟨"", .bytes, true⟩]
    NamedApart inputs ∧ Arguments.KeptByName (Event.declare "Ping" "Ping" true inputs).inputs ∧
      Arguments.KeptByName (CustomError.declare "Ping" inputs).inputs := by
  intro inputs
  have hapart : NamedApart inputs := by decide
  have hfree : PositionsFree inputs := by decide +kernel
  obtain ⟨hevent, herror⟩ := keptByName_declare_iff hapart
  exact ⟨hapart, (hevent _ _ _).mpr hfree, (herror _).mpr hfree⟩

/-- The first input has the name that the second is given. -/
theorem unpackInto_declare_of_taken :
    let inputs : Arguments := [⟨"arg1", .uint 8, false⟩, ⟨"", .uint 8, false⟩]
    let payload := countWord 1 ++ countWord 2
    let event := Event.declare "T" "T" false inputs
    let error := CustomError.declare "T" inputs
    NamedApart inputs ∧
      event.inputs.map Argument.name = ["arg1", "arg1"] ∧
      error.inputs.map Argument.name = ["arg1", "arg1"] ∧
      event.inputs.unpack payload = .ok [.uint 1, .uint 2] ∧
      error.inputs.unpack payload = .ok [.uint 1, .uint 2] ∧
      (∃ map, (event.inputs.unpackInto payload).run ∅ = .ok () map ∧
        map.toList = [("arg1", .uint 2)]) ∧
      ∃ map, (error.inputs.unpackInto payload).run ∅ = .ok () map ∧
        map.toList = [("arg1", .uint 2)] := by
  intro inputs payload event error
  have hevent : event.inputs.unpack payload = .ok [.uint 1, .uint 2] := by decide +kernel
  have herror : error.inputs.unpack payload = .ok [.uint 1, .uint 2] := by decide +kernel
  exact ⟨by decide, by decide +kernel, by decide +kernel, hevent, herror,
    ⟨_, Arguments.unpackInto_of_ok hevent ∅, by decide +kernel⟩,
    ⟨_, Arguments.unpackInto_of_ok herror ∅, by decide +kernel⟩⟩

end Declaration

end ContractAbi
