import ContractAbi.AbiType.Basic

/-!
# Nodes of a type

A property of types is proved by induction over the tree, the fields of a tuple being a list of
subtrees. Conditions on a whole type, such as the ranges of its numbers, hold at every node, and
`AbiType.Everywhere` says so.
-/

namespace ContractAbi

namespace AbiType

/-! ## Induction -/

private theorem sizeOf_type_lt {fields : List (Field AbiType)} {f : Field AbiType}
    (hf : f ∈ fields) (structName : String) : sizeOf f.type < sizeOf (tuple structName fields) := by
  have hlt := List.sizeOf_lt_of_mem hf
  have htype : sizeOf f.type < sizeOf f := by
    cases f
    simp only [Field.mk.sizeOf_spec]
    omega
  simp only [tuple.sizeOf_spec]
  omega

/-- Induction over a type, with the statement at hand for every field of a tuple. -/
@[elab_as_elim]
theorem induct {motive : AbiType → Prop}
    (uint : ∀ bits, motive (uint bits))
    (int : ∀ bits, motive (int bits))
    (bool : motive bool)
    (string : motive string)
    (bytes : motive bytes)
    (fixedBytes : ∀ length, motive (fixedBytes length))
    (address : motive address)
    (function : motive function)
    (slice : ∀ elem, motive elem → motive (slice elem))
    (array : ∀ elem length, motive elem → motive (array elem length))
    (tuple : ∀ structName fields, (∀ f ∈ fields, motive f.type) →
      motive (tuple structName fields)) :
    (t : AbiType) → motive t
  | .uint bits => uint bits
  | .int bits => int bits
  | .bool => bool
  | .string => string
  | .bytes => bytes
  | .fixedBytes length => fixedBytes length
  | .address => address
  | .function => function
  | .slice elem => slice elem (induct uint int bool string bytes fixedBytes address function
      slice array tuple elem)
  | .array elem length => array elem length (induct uint int bool string bytes fixedBytes address
      function slice array tuple elem)
  | .tuple structName fields => tuple structName fields fun f _ ↦
      induct uint int bool string bytes fixedBytes address function slice array tuple f.type
termination_by t => sizeOf t
decreasing_by
  · simp
  · simp only [AbiType.array.sizeOf_spec]
    omega
  · exact sizeOf_type_lt ‹_› _

/-! ## Nodes -/

mutual

/-- The type and all types inside it. -/
def nodes : AbiType → List AbiType
  | slice elem => slice elem :: nodes elem
  | array elem length => array elem length :: nodes elem
  | tuple structName fields => tuple structName fields :: nodesOfFields fields
  | t => [t]

def nodesOfFields : List (Field AbiType) → List AbiType
  | [] => []
  | f :: rest => nodes f.type ++ nodesOfFields rest

end

theorem nodes_tuple (structName : String) (fields : List (Field AbiType)) :
    (tuple structName fields).nodes
      = tuple structName fields :: fields.flatMap fun f ↦ f.type.nodes := by
  have hfields : nodesOfFields fields = fields.flatMap fun f ↦ f.type.nodes := by
    induction fields with
    | nil => rfl
    | cons f rest ih => rw [nodesOfFields, List.flatMap_cons, ih]
  rw [nodes, hfields]

/-- The property holds at every node of the type. -/
def Everywhere (p : AbiType → Prop) (t : AbiType) : Prop :=
  ∀ u ∈ t.nodes, p u

instance (p : AbiType → Prop) [DecidablePred p] (t : AbiType) : Decidable (Everywhere p t) :=
  inferInstanceAs (Decidable (∀ u ∈ t.nodes, p u))

variable {p : AbiType → Prop}

theorem everywhere_slice_iff {elem : AbiType} :
    Everywhere p (slice elem) ↔ p (slice elem) ∧ Everywhere p elem := by
  rw [Everywhere, nodes, List.forall_mem_cons, Everywhere]

theorem everywhere_array_iff {elem : AbiType} {length : Nat} :
    Everywhere p (array elem length) ↔ p (array elem length) ∧ Everywhere p elem := by
  rw [Everywhere, nodes, List.forall_mem_cons, Everywhere]

theorem everywhere_tuple_iff {structName : String} {fields : List (Field AbiType)} :
    Everywhere p (tuple structName fields) ↔
      p (tuple structName fields) ∧ ∀ f ∈ fields, Everywhere p f.type := by
  rw [Everywhere, nodes_tuple, List.forall_mem_cons, List.forall_mem_flatMap]
  rfl

theorem Everywhere.here {t : AbiType} (h : Everywhere p t) : p t := by
  refine h t ?_
  cases t <;> simp [nodes]

end AbiType

end ContractAbi
