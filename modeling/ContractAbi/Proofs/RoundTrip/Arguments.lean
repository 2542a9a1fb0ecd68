import ContractAbi.Declaration
import ContractAbi.Proofs.RoundTrip.Placement

/-!
# Reading argument lists back

The values of a list of arguments are packed without its indexed entries, and unpacking skips the
same entries, so the slot counter walks over exactly the heads that are there. Where the counter
stands is `Arguments.slotBehind`: on the head of the next argument, past all words of the static
arrays and tuples before it.
-/

namespace ContractAbi

open Decoding

namespace Arguments

variable {data : Bytes}

/-! ## The slot counter -/

/-- The slot that the counter holds behind the arguments. -/
def slotBehind (slot : Nat) : Arguments → Nat
  | [] => slot
  | a :: args => slotBehind (Count.addCapped slot a.type.headSlots) args

/-- Unpacking goes on behind some arguments from where the counter stands. -/
theorem unpackFrom_append (slot : Nat) (data : Bytes) (before after : Arguments) :
    unpackFrom slot data (before ++ after) = do
      let values ← unpackFrom slot data before
      let others ← unpackFrom (slotBehind slot before) data after
      return values ++ others := by
  induction before generalizing slot with
  | nil =>
    rw [List.nil_append, unpackFrom, slotBehind, pure_bind]
    exact (bind_pure _).symm
  | cons a before ih =>
    rw [List.cons_append, unpackFrom, unpackFrom, slotBehind]
    simp only [ih, bind_assoc, pure_bind, List.cons_append]

/-- The head of every argument is where the counter stands. -/
theorem placedAt_slotBehind {args : Arguments} {values : List Value} {parts : List Part}
    {slot : Nat}
    (h : List.Forall₂ AbiType.Sized ((args.map Argument.type).zip values) parts)
    (hlength : values.length = args.length) (hplaced : Part.AllPlaced parts data (slot * wordSize))
    (hcap : slot * wordSize + Part.headTotal parts ≤ Count.limit)
    {before after : Arguments} {a : Argument} (hsplit : args = before ++ a :: after) :
    ∃ v p, values[before.length]? = some v ∧ AbiType.Packed (a.type, v) p ∧
      p.PlacedAt data (slotBehind slot before * wordSize) := by
  induction before generalizing args values parts slot with
  | nil =>
    subst hsplit
    obtain ⟨v, rest, rfl⟩ := List.exists_cons_of_length_eq_add_one hlength
    rw [List.nil_append, List.map_cons, List.zip_cons_cons, List.forall₂_cons_left_iff] at h
    obtain ⟨p, ps, hp, -, rfl⟩ := h
    exact ⟨v, p, rfl, hp.1, hplaced.1⟩
  | cons c before ih =>
    subst hsplit
    obtain ⟨v, rest, rfl⟩ := List.exists_cons_of_length_eq_add_one hlength
    rw [List.cons_append, List.map_cons, List.zip_cons_cons, List.forall₂_cons_left_iff] at h
    obtain ⟨p, ps, hp, hps, rfl⟩ := h
    have hhead := hp.headLength
    dsimp only at hhead
    rw [Part.headTotal_cons, hhead, ← Nat.add_assoc] at hcap
    have hnext : Count.addCapped slot c.type.headSlots * wordSize
        = slot * wordSize + c.type.headWidth := addCapped_headSlots (by omega)
    obtain ⟨hp', hps'⟩ := hplaced
    rw [hhead, ← hnext] at hps'
    rw [← hnext] at hcap
    exact ih hps (Nat.succ.inj hlength) hps' hcap rfl

/-! ## Names -/

/-- What unpacking reads depends on the types of the arguments in the payload only. -/
theorem unpackValues_eq (hdata : data.length < offsetLimit) (args : Arguments) :
    args.unpackValues data = unpackTypes data (args.nonIndexed.map Argument.type) 0 := by
  rw [unpackValues, unpackFrom_eq hdata (fun a _ ↦ a.type.fitsWhereRead)
    (by omega), Nat.zero_mul]

private theorem map_type_nonIndexed_mapIdx (args : Arguments) {f : Nat → Argument → Argument}
    (hf : ∀ i a, (f i a).type = a.type ∧ (f i a).indexed = a.indexed) :
    (nonIndexed (args.mapIdx f)).map Argument.type = args.nonIndexed.map Argument.type := by
  induction args generalizing f with
  | nil => rfl
  | cons a args ih =>
    have hrest := ih fun i ↦ hf (i + 1)
    rw [nonIndexed, nonIndexed] at hrest ⊢
    rw [List.mapIdx_cons, List.filter_cons, List.filter_cons, (hf 0 a).2]
    split
    · rw [List.map_cons, List.map_cons, hrest, (hf 0 a).1]
    · exact hrest

theorem map_type_nonIndexed_nameInputs (args : Arguments) :
    (nonIndexed (Declaration.nameInputs args)).map Argument.type
      = args.nonIndexed.map Argument.type := by
  rw [Declaration.nameInputs]
  refine map_type_nonIndexed_mapIdx args fun i a ↦ ?_
  split
  · exact ⟨rfl, rfl⟩
  · exact ⟨rfl, rfl⟩

/-- Naming the inputs of an event does not change what is unpacked. -/
theorem unpack_nameInputs (hdata : data.length < offsetLimit) (args : Arguments) :
    unpack (Declaration.nameInputs args) data = args.unpack data := by
  have htypes := map_type_nonIndexed_nameInputs args
  have hempty : nonIndexed (Declaration.nameInputs args) = [] ↔ args.nonIndexed = [] := by
    rw [← List.map_eq_nil_iff, htypes, List.map_eq_nil_iff]
  rw [unpack, unpack, unpackValues_eq hdata, unpackValues_eq hdata, htypes]
  simp only [hempty]

/-! ## Round trip -/

theorem unpackValues_of_block {args : Arguments} {values : List Value} {parts : List Part}
    (hdata : data.length < offsetLimit) (hlength : values.length = args.nonIndexed.length)
    (h : List.Forall₂ AbiType.Sized ((args.nonIndexed.map Argument.type).zip values) parts)
    (hread : ∀ a ∈ args.nonIndexed, ∀ v p, AbiType.Packed (a.type, v) p →
      AbiType.ReadBack (a.type, v) p)
    (hblock : (Part.block parts).StandsAt data 0) :
    args.unpackValues data
      = .ok ((args.nonIndexed.zip values).map fun (a, v) ↦ a.type.normalize v) := by
  have hvalues := AbiType.unpackTypes_of_block hdata h (AbiType.forall_mem_zip_types hread) hblock
  rw [List.map_fst_zip (by rw [List.length_map, hlength])] at hvalues
  rw [unpackValues_eq hdata, hvalues, List.zip_map_left, List.map_map]
  rfl

/-- **Round trip of argument lists.** The values of the arguments that are not indexed are read back
in their order, each from the head that the slot counter is on, whatever follows the payload, and
the same holds for the data of an event with these inputs. -/
theorem unpack_append_of_pack {args : Arguments} (ht : ∀ a ∈ args.nonIndexed, a.type.Parsed)
    (hr : ∀ a ∈ args.nonIndexed, a.type.Everywhere AbiType.ElemsTakeRoom) {values : List Value}
    {b : Bytes} (hpack : args.nonIndexed.pack values = .ok b) (hb : b ≠ [] ∨ args.nonIndexed = [])
    {rest : Bytes} (hdata : (b ++ rest).length < offsetLimit) :
    args.unpack (b ++ rest)
        = .ok ((args.nonIndexed.zip values).map fun (a, v) ↦ a.type.normalize v) ∧
      (∀ x ∈ args.nonIndexed.zip values, x.1.type.NormalizesTo x.2 (x.1.type.normalize x.2)) ∧
      (∀ before a after, args.nonIndexed = before ++ a :: after →
        ∃ v p, values[before.length]? = some v ∧ AbiType.Packed (a.type, v) p ∧
          p.PlacedAt (b ++ rest) (slotBehind 0 before * wordSize)) ∧
      ∀ name rawName anonymous,
        (Event.declare name rawName anonymous args).unpackData (b ++ rest)
          = args.unpack (b ++ rest) := by
  have hlimit := offsetLimit_le_limit
  have hmodulus := limit_lt_modulus
  have hn (a : Argument) (ha : a ∈ args.nonIndexed) := (ht a ha).numbersInRange
  obtain ⟨parts, hlength, hparts, hle, rfl⟩ := pack_eq_ok_iff.mp hpack
  have hsized := AbiType.sized_of_numbersInRange hparts
    (AbiType.forall_mem_zip_types fun a ha _ ↦ hn a ha)
  have hblock := (Bytes.standsAt_self (Part.block parts)).append_right rest
  refine ⟨?_, ?_, ?_, ?_⟩
  · rw [unpack]
    -- an empty payload is refused unless there is nothing to read
    by_cases hempty : Part.block parts ++ rest = []
    · have hnone : args.nonIndexed = [] :=
        hb.resolve_left fun h ↦ h (List.append_eq_nil_iff.mp hempty).1
      rw [if_pos hempty, if_pos hnone, hnone]
      rfl
    · rw [if_neg hempty]
      exact unpackValues_of_block hdata hlength hsized
        (fun a ha _ _ ↦ AbiType.readBack_of_packed (hn a ha) (hr a ha)) hblock
  · rintro ⟨a, v⟩ hx
    have hmem : (a.type, v) ∈ (args.nonIndexed.map Argument.type).zip values := by
      rw [List.zip_map_left]
      exact List.mem_map_of_mem (f := Prod.map Argument.type id) hx
    obtain ⟨c, hc⟩ := AbiType.exists_pack_of_mem hparts hmem
    exact AbiType.normalizesTo_normalize (hn a (List.of_mem_zip hx).1) hc
  · intro before a after hsplit
    have hplaced := Part.allPlaced_of_block (by omega) hblock
    rw [← Nat.zero_mul wordSize] at hplaced
    refine placedAt_slotBehind hsized hlength hplaced ?_ hsplit
    rw [Part.length_block] at hle
    omega
  · intro name rawName anonymous
    exact unpack_nameInputs hdata args

/-- Between two indexed arguments an array of two words, and bytes behind it. -/
theorem unpack_between_indexed :
    unpack [⟨"from", .address, true⟩, ⟨"pair", .array (.uint 8) 2, false⟩,
        ⟨"id", .uint 256, true⟩, ⟨"data", .bytes, false⟩]
      (Word.toBytes 5 ++ Word.toBytes 3 ++ countWord 96 ++ AbiType.counted [7] ++ [1, 2])
      = .ok [.array [.uint 5, .uint 3], .bytes [7]] := by
  have hread : ofDescriptors [{ name := "from", type := "address", indexed := true },
      { name := "pair", type := "uint8[2]" }, { name := "id", type := "uint256", indexed := true },
      { name := "data", type := "bytes" }]
      = .ok [⟨"from", .address, true⟩, ⟨"pair", .array (.uint 8) 2, false⟩,
        ⟨"id", .uint 256, true⟩, ⟨"data", .bytes, false⟩] := rfl
  have hparsed : ∀ a ∈ nonIndexed [⟨"from", .address, true⟩, ⟨"pair", .array (.uint 8) 2, false⟩,
      ⟨"id", .uint 256, true⟩, ⟨"data", .bytes, false⟩], a.type.Parsed :=
    fun a ha ↦ parsed_of_ofDescriptors hread a (List.mem_of_mem_filter ha)
  have hpack : pack (nonIndexed [⟨"from", .address, true⟩, ⟨"pair", .array (.uint 8) 2, false⟩,
      ⟨"id", .uint 256, true⟩, ⟨"data", .bytes, false⟩])
        [.array [.int 5, .uint 3], .fixedBytes [7]]
      = .ok (Word.toBytes 5 ++ Word.toBytes 3 ++ countWord 96 ++ AbiType.counted [7]) := by
    decide +kernel
  exact (unpack_append_of_pack hparsed (by decide) hpack (Or.inl (by decide +kernel))
    (by decide +kernel)).1

end Arguments

end ContractAbi
