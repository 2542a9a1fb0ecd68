import ContractAbi.Proofs.Encoding.Standard

/-!
# Elements without room

A tuple without components is packed to nothing, and so is everything that is made of such tuples
alone. A slice or an array of them has elements but no bytes, while a reader wants to see a word for
each element before it reads the first one. `AbiType.runs` lists these sequences with the place of
their blocks in the encoding; whether what follows in the payload is long enough to cover them
decides whether the value can be read back.
-/

namespace ContractAbi

/-- Elements without room: `count` of them in a block at byte `start`. -/
structure Run where
  start : Nat
  count : Nat
deriving DecidableEq, Repr

namespace Run

/-- The end of a run if each of its elements were a word. -/
def stop (r : Run) : Nat := r.start + r.count * wordSize

/-- The run as seen from `n` bytes before. -/
def shift (n : Nat) (r : Run) : Run := ⟨n + r.start, r.count⟩

@[simp] theorem stop_shift (n : Nat) (r : Run) : (r.shift n).stop = n + r.stop :=
  Nat.add_assoc n r.start (r.count * wordSize)

end Run

namespace Part

/-- The runs of a block's parts, the rest of the heads beginning at `index` and the rest of the
tails at `offset`. -/
def runsFrom : (index offset : Nat) → List Part → List (List Run) → List Run
  | index, offset, p :: rest, rs :: rss =>
    rs.map (Run.shift (if p.isDynamic then offset else index)) ++
      runsFrom (index + p.headLength) (offset + p.tailLength) rest rss
  | _, _, _, _ => []

def runs (parts : List Part) (rss : List (List Run)) : List Run :=
  runsFrom 0 (headTotal parts) parts rss

end Part

namespace AbiType

/-- A whole block as a run, if its elements take no room. -/
def ownRun (elem : AbiType) (count : Nat) : List Run :=
  if elem.headSize = 0 then [⟨0, count⟩] else []

mutual

/-- The runs in the encoding of a value. -/
def runs : AbiType → Value → List Run
  | .slice elem, .array items =>
    (ownRun elem items.length ++
      Part.runs (itemParts elem items) (items.map fun v ↦ runs elem v)).map (Run.shift wordSize)
  | .array elem _, .array items =>
    ownRun elem items.length ++ Part.runs (itemParts elem items) (items.map fun v ↦ runs elem v)
  | .tuple _ fields, .tuple entries =>
    Part.runs (fieldParts fields entries) (fieldRuns fields entries)
  | _, _ => []

def fieldRuns : List (Field AbiType) → List (String × Value) → List (List Run)
  | [], _ => []
  | f :: fields, entries =>
    ((entries.lookup f.rawName).map (runs f.type)).getD [] :: fieldRuns fields entries

end

end AbiType

namespace Arguments

def runs (args : Arguments) (values : List Value) : List Run :=
  Part.runs (args.components values) ((args.zip values).map fun (a, v) ↦ a.type.runs v)

end Arguments

namespace AbiType

theorem forall_mem_ownRun_iff {elem : AbiType} {count start length : Nat} :
    (∀ r ∈ ownRun elem count, start + r.stop ≤ length) ↔
      (elem.headSize = 0 → start + count * wordSize ≤ length) := by
  rw [ownRun]
  by_cases hroom : elem.headSize = 0
  · rw [if_pos hroom, List.forall_mem_singleton, Run.stop, Nat.zero_add]
    exact ⟨fun hle _ ↦ hle, fun hle ↦ hle hroom⟩
  · rw [if_neg hroom]
    simp [hroom]

/-! ## Components -/

/-- The runs in the block of some components. -/
def runsOf (xs : List (AbiType × Value)) : List Run :=
  Part.runs (xs.map standardPart) (xs.map fun x ↦ x.1.runs x.2)

theorem fieldRuns_eq {fields : List (Field AbiType)} {entries : List (String × Value)}
    {values : List Value} (h : List.Forall₂ (FirstEntry entries) fields values) :
    fieldRuns fields entries
      = ((fields.map Field.type).zip values).map fun x ↦ x.1.runs x.2 := by
  induction h with
  | nil => rfl
  | @cons f v _ _ hf _ ih =>
    rw [FirstEntry] at hf
    rw [fieldRuns, ih, hf, List.map_cons, List.zip_cons_cons, List.map_cons]
    rfl

theorem runs_items (elem : AbiType) (items : List Value) :
    Part.runs (itemParts elem items) (items.map fun v ↦ elem.runs v)
      = runsOf (items.map (elem, ·)) := by
  rw [runsOf, itemParts_eq, List.map_map, List.map_map]
  rfl

theorem runs_fields {fields : List (Field AbiType)} {entries : List (String × Value)}
    {values : List Value} (h : List.Forall₂ (FirstEntry entries) fields values) :
    Part.runs (fieldParts fields entries) (fieldRuns fields entries)
      = runsOf ((fields.map Field.type).zip values) := by
  rw [runsOf, fieldParts_eq h, fieldRuns_eq h]

theorem runs_arguments (args : Arguments) (values : List Value) :
    args.runs values = runsOf ((args.map Argument.type).zip values) := by
  rw [Arguments.runs, runsOf, components_eq, List.zip_map_left, List.map_map, List.map_map]
  rfl

end AbiType

end ContractAbi
