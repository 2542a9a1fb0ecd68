import ContractAbi.Proofs.Results
import ContractAbi.Proofs.Signatures

/-!
# Names in what is read

The canonical signature of a type says everything about its payloads. Types of one signature have
the same structure and differ in names at most, and names are only attached to what was read: they
lead to no other byte and stand in no error.

Two runs over one payload are compared here, under two types of the same structure.
`Value.withoutNames` takes the names out of a value, so the runs agree if their results do after it.
Errors have to be equal as they are, and the only one that shows a type shows its signature.
-/

namespace ContractAbi

open Decoding

namespace Value

/-! ## Values without names -/

mutual

/-- The value with an empty name at every entry of a tuple. -/
def withoutNames : Value → Value
  | array items => array (itemsWithoutNames items)
  | tuple entries => tuple (entriesWithoutNames entries)
  | v => v

def itemsWithoutNames : List Value → List Value
  | [] => []
  | v :: rest => withoutNames v :: itemsWithoutNames rest

def entriesWithoutNames : List (String × Value) → List (String × Value)
  | [] => []
  | e :: rest => ("", withoutNames e.2) :: entriesWithoutNames rest

end

theorem withoutNames_array (items : List Value) :
    (array items).withoutNames = array (items.map withoutNames) := by
  rw [withoutNames]
  congr 1
  induction items with
  | nil => rfl
  | cons v items ih => rw [itemsWithoutNames, ih, List.map_cons]

theorem withoutNames_tuple (entries : List (String × Value)) :
    (tuple entries).withoutNames = tuple (entriesWithoutNames entries) := by
  rw [withoutNames]

end Value

/-! ## Types of the same structure -/

namespace AbiType

theorem anyDynamic_eq_of_forall₂ {fields fields' : List (Field AbiType)}
    (h : List.Forall₂ (fun f g ↦ f.type.isDynamic = g.type.isDynamic) fields fields') :
    anyDynamic fields = anyDynamic fields' := by
  induction h with
  | nil => rfl
  | cons hf _ ih => rw [anyDynamic, anyDynamic, hf, ih]

theorem headSizes_eq_of_forall₂ {fields fields' : List (Field AbiType)}
    (h : List.Forall₂ (fun f g ↦ f.type.headSize = g.type.headSize) fields fields') :
    headSizes fields = headSizes fields' := by
  induction h with
  | nil => rfl
  | cons hf _ ih => rw [headSizes, headSizes, hf, ih]

/-- The structure decides where values live. -/
theorem SameStructure.isDynamic_eq {t u : AbiType} (h : t.SameStructure u) :
    t.isDynamic = u.isDynamic := by
  induction h using inductPairs with
  | leaf t _ => rfl
  | slice t u _ _ => rfl
  | array t u length _ ih =>
    rw [isDynamic, isDynamic]
    exact ih
  | tuple _ _ fields fields' _ ih =>
    rw [isDynamic, isDynamic]
    exact anyDynamic_eq_of_forall₂ (ih.imp fun _ _ ⟨_, hf⟩ ↦ hf)

/-- The structure decides how much room a value takes in a head. -/
theorem SameStructure.headSize_eq {t u : AbiType} (h : t.SameStructure u) :
    t.headSize = u.headSize := by
  induction h using inductPairs with
  | leaf t _ => rfl
  | slice t u _ _ => rfl
  | array t u length h ih => rw [headSize, headSize, h.isDynamic_eq, ih]
  | tuple _ _ fields fields' h ih =>
    rw [headSize, headSize, anyDynamic_eq_of_forall₂ (h.imp fun _ _ ↦ isDynamic_eq),
      headSizes_eq_of_forall₂ (ih.imp fun _ _ ⟨_, hf⟩ ↦ hf)]

/-- Whatever is read under the two types from one place differs in names at most. -/
def ReadAlike (t u : AbiType) : Prop :=
  ∀ (index : Nat) (data : Bytes),
    Value.withoutNames <$> t.unpack index data = Value.withoutNames <$> u.unpack index data

end AbiType

/-! ## Sequences and fields -/

/-- Elements that are read alike, by readers that find them at the same positions. -/
theorem readSequence_withoutNames (data : Bytes) {elem elem' : AbiType}
    (h : elem.SameStructure elem')
    {read read' : Nat → Except AbiError Value}
    (hread : ∀ i, Value.withoutNames <$> read i = Value.withoutNames <$> read' i) (count : Nat) :
    Value.withoutNames <$> readSequence elem read data count
      = Value.withoutNames <$> readSequence elem' read' data count := by
  have hitems (f : Nat → Except AbiError Value) :
      Value.withoutNames <$> (do return .array (← (List.range count).mapM f))
        = Value.array <$> (List.range count).mapM fun i ↦ Value.withoutNames <$> f i := by
    rw [← map_mapM, map_bind, map_eq_pure_bind, bind_map_left]
    refine bind_congr fun items ↦ ?_
    rw [map_pure, Value.withoutNames_array]
  rw [readSequence, readSequence]
  split
  · rfl
  · rw [hitems, hitems]
    refine congrArg (Value.array <$> ·) (congrArg (List.range count).mapM (funext fun i ↦ ?_))
    rw [h.headSize_eq, AbiType.canonical_eq_iff.mpr h]
    split
    · rfl
    · exact hread _

variable {data : Bytes}

/-- The entries of a tuple, with the names taken out as they are read. -/
theorem unpackFields_cons_withoutNames (f : Field AbiType) (fields : List (Field AbiType))
    (slot : Nat) :
    Value.entriesWithoutNames <$> AbiType.unpackFields (f :: fields) slot data = (do
      let index ← slotIndex slot
      let value ← Value.withoutNames <$> f.type.unpack index data
      let entries ← Value.entriesWithoutNames <$>
        AbiType.unpackFields fields (Count.addCapped slot f.type.headSlots) data
      return ("", value) :: entries) := by
  rw [AbiType.unpackFields]
  simp only [map_bind, bind_map_left, map_pure, Value.entriesWithoutNames]

theorem unpackFields_withoutNames {fields fields' : List (Field AbiType)}
    (h : List.Forall₂ (fun f g ↦ ∃ _ : f.type.SameStructure g.type, f.type.ReadAlike g.type)
      fields fields') (slot : Nat) :
    Value.entriesWithoutNames <$> AbiType.unpackFields fields slot data
      = Value.entriesWithoutNames <$> AbiType.unpackFields fields' slot data := by
  induction h generalizing slot with
  | nil => rfl
  | cons hf _ ih =>
    obtain ⟨hstructure, hread⟩ := hf
    rw [unpackFields_cons_withoutNames, unpackFields_cons_withoutNames, AbiType.headSlots,
      AbiType.headSlots, hstructure.headSize_eq]
    simp only [hread _ data, ih]

namespace AbiType

/-! ## Values -/

/-- **Names lead nowhere.** Types of the same structure read the same from any payload, up to the
names of the entries, or refuse it with the same error. -/
theorem SameStructure.readAlike {t u : AbiType} (h : t.SameStructure u) : t.ReadAlike u := by
  induction h using inductPairs with
  | leaf t _ => exact fun _ _ ↦ rfl
  | slice t u h ih =>
    intro index data
    rw [unpack, unpack, map_bind, map_bind]
    exact bind_congr fun content ↦ readSequence_withoutNames _ h (ih · _) _
  | array t u length h ih =>
    intro index data
    have hbody (body : Bytes) := readSequence_withoutNames body h (ih · body) length
    rw [unpack, unpack, h.isDynamic_eq]
    split
    · rw [map_bind, map_bind]
      exact bind_congr hbody
    · rw [map_bind, map_bind]
      exact bind_congr hbody
  | tuple _ _ fields fields' h ih =>
    intro index data
    have hentries (fs : List (Field AbiType)) (body : Bytes) :
        Value.withoutNames <$> (do return .tuple (← unpackFields fs 0 body))
          = Value.tuple <$> Value.entriesWithoutNames <$> unpackFields fs 0 body := by
      simp only [Value.withoutNames_tuple, map_eq_pure_bind, bind_assoc, pure_bind]
    have hbody (body : Bytes) :
        Value.withoutNames <$> (do return .tuple (← unpackFields fields 0 body))
          = Value.withoutNames <$> (do return .tuple (← unpackFields fields' 0 body)) := by
      rw [hentries, hentries, unpackFields_withoutNames ih]
    rw [unpack, unpack, anyDynamic_eq_of_forall₂ (h.imp fun _ _ ↦ isDynamic_eq)]
    split
    · rw [map_bind, map_bind]
      exact bind_congr hbody
    · rw [map_bind, map_bind]
      exact bind_congr hbody

end AbiType

/-! ## Argument lists -/

namespace Arguments

/-- What is in the payload of two lists of arguments has the same structure if all of the arguments
do and the same ones are indexed. -/
theorem SameStructure.nonIndexed {args args' : Arguments} (h : args.SameStructure args')
    (hindexed : args.map Argument.indexed = args'.map Argument.indexed) :
    args.nonIndexed.SameStructure args'.nonIndexed := by
  induction h with
  | nil => exact .nil
  | @cons a b args args' hab _ ih =>
    obtain ⟨hhead, hrest⟩ := List.cons.inj hindexed
    rw [Arguments.nonIndexed, Arguments.nonIndexed, List.filter_cons, List.filter_cons, hhead]
    split
    · exact .cons hab (ih hrest)
    · exact ih hrest

theorem unpackFrom_withoutNames {args args' : Arguments} (h : args.SameStructure args')
    (slot : Nat) (data : Bytes) :
    List.map Value.withoutNames <$> unpackFrom slot data args
      = List.map Value.withoutNames <$> unpackFrom slot data args' := by
  have hcons (a : Argument) (args : Arguments) (slot : Nat) :
      List.map Value.withoutNames <$> unpackFrom slot data (a :: args) = (do
        let index ← slotIndex slot
        let value ← Value.withoutNames <$> a.type.unpack index data
        let values ← List.map Value.withoutNames <$>
          unpackFrom (Count.addCapped slot a.type.headSlots) data args
        return value :: values) := by
    rw [unpackFrom]
    simp only [map_bind, bind_map_left, map_pure, List.map_cons]
  induction h generalizing slot with
  | nil => rfl
  | cons hab _ ih =>
    rw [hcons, hcons, AbiType.headSlots, AbiType.headSlots, hab.headSize_eq]
    simp only [hab.readAlike _ data, ih]

theorem unpack_withoutNames {args args' : Arguments} (h : args.SameStructure args')
    (hindexed : args.map Argument.indexed = args'.map Argument.indexed) (data : Bytes) :
    List.map Value.withoutNames <$> args.unpack data
      = List.map Value.withoutNames <$> args'.unpack data := by
  have hpayload := h.nonIndexed hindexed
  have hnone : args.nonIndexed = [] ↔ args'.nonIndexed = [] := by
    rw [← List.length_eq_zero_iff, hpayload.length_eq, List.length_eq_zero_iff]
  rw [unpack, unpack]
  simp only [hnone]
  split
  · rfl
  · exact unpackFrom_withoutNames hpayload 0 data

end Arguments

/-! ## What signatures settle -/

/-- **One signature, one wire format.** Types of one canonical signature agree in where their values
live and in the room that these take in a head, and from any payload they read the same values but
for the names, or refuse it with the same error. So do custom errors, or events, of one signature,
if no parenthesis is in their names and the same inputs are indexed. -/
theorem unpack_eq_upToNames_of_canonical_eq :
    (∀ t u : AbiType, t.canonical = u.canonical →
      t.isDynamic = u.isDynamic ∧ t.headSize = u.headSize ∧
      ∀ (index : Nat) (data : Bytes),
        Value.withoutNames <$> t.unpack index data = Value.withoutNames <$> u.unpack index data) ∧
    (∀ e e' : CustomError, '(' ∉ e.name.toList → '(' ∉ e'.name.toList →
      e.signature = e'.signature → e.inputs.map Argument.indexed = e'.inputs.map Argument.indexed →
      ∀ data : Bytes, List.map Value.withoutNames <$> e.unpack data
        = List.map Value.withoutNames <$> e'.unpack data) ∧
    ∀ e e' : Event, '(' ∉ e.rawName.toList → '(' ∉ e'.rawName.toList →
      e.signature = e'.signature → e.inputs.map Argument.indexed = e'.inputs.map Argument.indexed →
      ∀ data : Bytes, List.map Value.withoutNames <$> e.unpackData data
        = List.map Value.withoutNames <$> e'.unpackData data := by
  refine ⟨fun t u h ↦ ?_, fun e e' hname hname' h hindexed data ↦ ?_,
    fun e e' hname hname' h hindexed data ↦ ?_⟩
  · have hstructure := AbiType.canonical_eq_iff.mp h
    exact ⟨hstructure.isDynamic_eq, hstructure.headSize_eq, hstructure.readAlike⟩
  · obtain ⟨-, hinputs⟩ := (Declaration.signature_eq_iff hname hname').mp h
    have hselector : e.selector = e'.selector := by
      rw [CustomError.selector, CustomError.selector, CustomError.id, CustomError.id, h]
    rw [CustomError.unpack, CustomError.unpack, hselector]
    split
    · rfl
    · split
      · rfl
      · exact Arguments.unpack_withoutNames hinputs hindexed _
  · obtain ⟨-, hinputs⟩ := (Declaration.signature_eq_iff hname hname').mp h
    exact Arguments.unpack_withoutNames hinputs hindexed data

/-- Two structs of one signature read an entry under two names, and blame the length of a payload
that ends in the second word with one text. So do two custom errors with inputs of these types. -/
theorem unpack_eq_upToNames_of_renamed_struct :
    let t : AbiType := .tuple "Order" [⟨"id", "Id", .uint 8⟩, ⟨"paid", "Paid", .bool⟩]
    let u : AbiType := .tuple "" [⟨"a", "A", .uint 8⟩, ⟨"b", "B", .bool⟩]
    let e : CustomError := ⟨"Unpaid", [⟨"order", t, false⟩]⟩
    let e' : CustomError := ⟨"Unpaid", [⟨"arg0", u, false⟩]⟩
    let payload := countWord 7 ++ countWord 1
    t.canonical = u.canonical ∧
      t.unpack 0 payload = .ok (.tuple [("id", .uint 7), ("paid", .bool true)]) ∧
      Value.withoutNames <$> t.unpack 0 payload = Value.withoutNames <$> u.unpack 0 payload ∧
      u.unpack 0 payload = .ok (.tuple [("a", .uint 7), ("b", .bool true)]) ∧
      Value.withoutNames <$> t.unpack 0 (payload.take 40)
        = Value.withoutNames <$> u.unpack 0 (payload.take 40) ∧
      t.unpack 0 (payload.take 40) = .error (.insufficientLength 40 (.bytes 64)) ∧
      ('(' ∉ e.name.toList ∧ '(' ∉ e'.name.toList ∧ e.signature = e'.signature ∧
        e.inputs.map Argument.indexed = e'.inputs.map Argument.indexed) ∧
      List.map Value.withoutNames <$> e.unpack (e.selector ++ payload)
        = List.map Value.withoutNames <$> e'.unpack (e.selector ++ payload) := by
  intro t u e e' payload
  have hcanonical : t.canonical = u.canonical := by decide
  have hname : '(' ∉ e.name.toList := by decide
  have hname' : '(' ∉ e'.name.toList := by decide
  have hsignature : e.signature = e'.signature := by decide
  obtain ⟨htypes, herrors, -⟩ := unpack_eq_upToNames_of_canonical_eq
  obtain ⟨-, -, hread⟩ := htypes t u hcanonical
  exact ⟨hcanonical, by decide +kernel, hread 0 payload, by decide +kernel,
    hread 0 (payload.take 40), by decide +kernel, ⟨hname, hname', hsignature, rfl⟩,
    herrors e e' hname hname' hsignature rfl _⟩

end ContractAbi
