import ContractAbi.Declaration
import ContractAbi.Proofs.AbiType.Signature

/-!
# What signatures tell

The canonical signature of a type tells its structure, and those of events and custom errors tell
the name and the structure of the inputs. Nothing else has a part in them, so nothing else has a
part in the hashes by which events and errors are identified.

A name is any text. It ends where the parenthesis opens the list of inputs, and that one is found if
there is none in the name itself.
-/

namespace ContractAbi

theorem AbiType.canonical_eq_iff {t u : AbiType} :
    t.canonical = u.canonical ↔ t.SameStructure u := by
  rw [canonical, canonical, String.ofList_inj, signature_eq_iff]

/-- The inputs of the two lists have types of the same structure, one by one. -/
def Arguments.SameStructure (args args' : Arguments) : Prop :=
  List.Forall₂ (fun a b ↦ a.type.SameStructure b.type) args args'

namespace Declaration

variable {name name' : String} {inputs inputs' : Arguments}

/-- Naming the inputs does not change the signature. -/
theorem signature_nameInputs (name : String) (inputs : Arguments) :
    signature name (nameInputs inputs) = signature name inputs := by
  have htypes : (nameInputs inputs).map (·.type.signature) = inputs.map (·.type.signature) := by
    refine List.ext_getElem (by simp [nameInputs]) fun i hi hi' ↦ ?_
    simp only [nameInputs, List.getElem_map, List.getElem_mapIdx]
    split <;> rfl
  rw [signature, signature, htypes]

theorem tupleSignature_eq_iff :
    AbiType.tupleSignature (inputs.map (·.type.signature))
        = AbiType.tupleSignature (inputs'.map (·.type.signature)) ↔
      inputs.SameStructure inputs' := by
  rw [AbiType.tupleSignature_map_eq_iff, Arguments.SameStructure]
  simp only [AbiType.signature_eq_iff]

/-- The name is what stands before the first parenthesis. -/
theorem takeWhile_signature (h : '(' ∉ name.toList) :
    (signature name inputs).toList.takeWhile (· ≠ '(') = name.toList := by
  have hname : ∀ c ∈ name.toList, decide (c ≠ '(') = true := by
    intro c hc
    rw [decide_eq_true_eq]
    rintro rfl
    exact h hc
  rw [signature, String.toList_append, String.toList_ofList, List.takeWhile_append_of_pos hname,
    AbiType.tupleSignature, List.cons_append, List.takeWhile_cons_of_neg (by decide),
    List.append_nil]

theorem signature_eq_of_sameStructure (name : String) (h : inputs.SameStructure inputs') :
    signature name inputs = signature name inputs' := by
  rw [signature, signature, tupleSignature_eq_iff.mpr h]

theorem signature_eq_iff (h : '(' ∉ name.toList) (h' : '(' ∉ name'.toList) :
    signature name inputs = signature name' inputs' ↔
      name = name' ∧ inputs.SameStructure inputs' := by
  constructor
  · intro heq
    have hname : name = name' := by
      rw [← String.toList_inj, ← takeWhile_signature h, heq, takeWhile_signature h']
    subst hname
    rw [signature, signature, String.append_right_inj, String.ofList_inj] at heq
    exact ⟨rfl, tupleSignature_eq_iff.mp heq⟩
  · rintro ⟨rfl, hinputs⟩
    exact signature_eq_of_sameStructure name hinputs

end Declaration

/-- **Signatures tell structures.** Two types have one canonical signature exactly if they have the
same structure. Two events, or two custom errors, have one signature exactly if they have the same
name and inputs of the same structure, provided that no parenthesis is in their names; and whatever
the name is, inputs of the same structure make no difference to the signature, to the hash of it or
to the selector. -/
theorem signature_eq_iff_sameStructure :
    (∀ t u : AbiType, t.canonical = u.canonical ↔ t.SameStructure u) ∧
    (∀ (name name' rawName rawName' : String) (anonymous anonymous' : Bool)
      (inputs inputs' : Arguments), '(' ∉ rawName.toList → '(' ∉ rawName'.toList →
      ((Event.declare name rawName anonymous inputs).signature
          = (Event.declare name' rawName' anonymous' inputs').signature ↔
        rawName = rawName' ∧ inputs.SameStructure inputs')) ∧
    (∀ (name name' : String) (inputs inputs' : Arguments),
      '(' ∉ name.toList → '(' ∉ name'.toList →
      ((CustomError.declare name inputs).signature
          = (CustomError.declare name' inputs').signature ↔
        name = name' ∧ inputs.SameStructure inputs')) ∧
    (∀ (name name' rawName : String) (anonymous anonymous' : Bool) (inputs inputs' : Arguments),
      inputs.SameStructure inputs' →
      (Event.declare name rawName anonymous inputs).signature
          = (Event.declare name' rawName anonymous' inputs').signature ∧
        (Event.declare name rawName anonymous inputs).id
          = (Event.declare name' rawName anonymous' inputs').id) ∧
    (∀ (name : String) (inputs inputs' : Arguments), inputs.SameStructure inputs' →
      (CustomError.declare name inputs).signature = (CustomError.declare name inputs').signature ∧
        (CustomError.declare name inputs).id = (CustomError.declare name inputs').id ∧
        (CustomError.declare name inputs).selector
          = (CustomError.declare name inputs').selector) := by
  have hevent (name rawName : String) (anonymous : Bool) (inputs : Arguments) :
      (Event.declare name rawName anonymous inputs).signature
        = Declaration.signature rawName inputs :=
    Declaration.signature_nameInputs rawName inputs
  have herror (name : String) (inputs : Arguments) :
      (CustomError.declare name inputs).signature = Declaration.signature name inputs :=
    Declaration.signature_nameInputs name inputs
  refine ⟨fun t u ↦ AbiType.canonical_eq_iff, ?_, ?_, ?_, ?_⟩
  · intro name name' rawName rawName' anonymous anonymous' inputs inputs' h h'
    rw [hevent, hevent]
    exact Declaration.signature_eq_iff h h'
  · intro name name' inputs inputs' h h'
    rw [herror, herror]
    exact Declaration.signature_eq_iff h h'
  · intro name name' rawName anonymous anonymous' inputs inputs' h
    rw [Event.id, Event.id, hevent, hevent, Declaration.signature_eq_of_sameStructure rawName h]
    exact ⟨rfl, rfl⟩
  · intro name inputs inputs' h
    rw [CustomError.selector, CustomError.selector, CustomError.id, CustomError.id, herror, herror,
      Declaration.signature_eq_of_sameStructure name h]
    exact ⟨rfl, rfl, rfl⟩

/-- Whether and how an input is named or indexed makes no difference, but a tuple of one field is
not that field. -/
theorem signature_eq_iff_sameStructure_one_field :
    '(' ∉ "Sent".toList ∧
      (Event.declare "Sent" "Sent" false [⟨"to", .address, true⟩]).signature
        = (Event.declare "Sent0" "Sent" true [⟨"", .address, false⟩]).signature ∧
      (Event.declare "Sent" "Sent" false [⟨"to", .address, true⟩]).signature
        ≠ (Event.declare "Sent" "Sent" false
            [⟨"to", .tuple "" [⟨"to", "To", .address⟩], true⟩]).signature := by
  have hname : '(' ∉ "Sent".toList := by decide
  have hevents := signature_eq_iff_sameStructure.2.1
  refine ⟨hname, ?_, fun h ↦ ?_⟩
  · exact (hevents _ _ _ _ _ _ _ _ hname hname).mpr ⟨rfl, .cons (.leaf trivial) .nil⟩
  · obtain ⟨-, hinputs⟩ := (hevents _ _ _ _ _ _ _ _ hname hname).mp h
    rcases hinputs with - | ⟨hinput, -⟩
    cases hinput

end ContractAbi
