import ContractAbi.Proofs.RoundTrip.Cut
import ContractAbi.Proofs.RoundTrip.Reencoded

/-!
# Reading back values without room

Values of types without room are packed to nothing. Alone, as fields of tuples and next to other
values they are read back like any other. Two guards of unpacking are in their way: an empty payload
is refused if there are arguments, and a sequence is refused if the payload does not have a word for
each of its elements, whatever they need. So a sequence of elements without room is read back if
enough bytes of something else follow it.
-/

namespace ContractAbi

open Decoding

namespace Arguments

variable {args : Arguments} {values : List Value} {b : Bytes}

/-- Values that belong to their types are read back as they are. -/
theorem map_normalize_eq_self (hd : ∀ a ∈ args, a.type.Everywhere AbiType.DistinctRawNames)
    (hlength : values.length = args.length) (hv : ∀ x ∈ args.zip values, x.1.type.Inhabits x.2) :
    ((args.zip values).map fun (a, v) ↦ a.type.normalize v) = values := by
  calc ((args.zip values).map fun (a, v) ↦ a.type.normalize v)
    _ = (args.zip values).map Prod.snd :=
      List.map_congr_left fun x hx ↦
        AbiType.normalize_eq_self (hd x.1 (List.of_mem_zip hx).1) (hv x hx)
    _ = values := List.map_snd_zip (by omega)

/-- **When values without room are read back.** A payload gives its values back exactly if it is not
empty, or there are no arguments, and it reaches to the end of every run of elements without room,
each counted as a word. -/
theorem unpack_eq_ok_iff_of_pack (ht : ∀ a ∈ args, a.type.Parsed)
    (hi : ∀ a ∈ args, a.indexed = false)
    (hd : ∀ a ∈ args, a.type.Everywhere AbiType.DistinctRawNames)
    (hv : ∀ x ∈ args.zip values, x.1.type.Inhabits x.2) (hpack : args.pack values = .ok b)
    (hlt : b.length < offsetLimit) :
    args.unpack b = .ok values ↔
      (b = [] → args = []) ∧ ∀ r ∈ args.runs values, r.stop ≤ b.length := by
  have hn (a : Argument) (ha : a ∈ args) := (ht a ha).numbersInRange
  obtain ⟨-, hlength, -⟩ := pack_eq_ok_iff.mp hpack
  have hself := List.append_nil b
  have hvalues : args.unpackValues b = .ok values ↔ ∀ r ∈ args.runs values, r.stop ≤ b.length := by
    have hfront := unpackValues_front_iff hn hi hpack (by rwa [hself])
      (by rw [hself]; exact Bytes.standsAt_self b)
    rw [map_normalize_eq_self hd hlength hv] at hfront
    rw [hfront]
    exact and_iff_right (Nat.le_add_right _ _)
  rw [unpack, nonIndexed_eq_self hi]
  by_cases hb : b = []
  · rw [if_pos hb]
    by_cases hargs : args = []
    · subst hargs
      obtain rfl := List.eq_nil_of_length_eq_zero hlength
      rw [if_pos rfl]
      exact iff_of_true rfl ⟨fun _ ↦ rfl, List.forall_mem_nil _⟩
    · rw [if_neg hargs]
      refine iff_of_false (fun hok ↦ ?_) fun h ↦ hargs (h.1 hb)
      cases hok
  · rw [if_neg hb, hvalues]
    exact (and_iff_right fun h ↦ absurd h hb).symm

/-- Two elements without room in front of two words. -/
theorem unpack_eq_ok_iff_of_pack_covered :
    unpack [⟨"e", .array (.tuple "" []) 2, false⟩, ⟨"n", .array (.uint 8) 2, false⟩]
      (countWord 5 ++ countWord 3)
        = .ok [.array [.tuple [], .tuple []], .array [.uint 5, .uint 3]] := by
  have hread : ofDescriptors [{ name := "e", type := "tuple[2]" },
      { name := "n", type := "uint8[2]" }]
      = .ok [⟨"e", .array (.tuple "" []) 2, false⟩, ⟨"n", .array (.uint 8) 2, false⟩] := rfl
  have hvalues : ∀ x ∈ List.zip ([⟨"e", .array (.tuple "" []) 2, false⟩,
      ⟨"n", .array (.uint 8) 2, false⟩] : Arguments)
        [.array [.tuple [], .tuple []], .array [.uint 5, .uint 3]], x.1.type.Inhabits x.2 := by
    refine List.forall_mem_cons.mpr ⟨⟨rfl, ?_⟩, List.forall_mem_singleton.mpr ⟨rfl, ?_⟩⟩
    · exact List.forall_mem_cons.mpr ⟨trivial, List.forall_mem_singleton.mpr trivial⟩
    · exact List.forall_mem_cons.mpr ⟨(by decide : (5 : Word).FitsUnsigned 8),
        List.forall_mem_singleton.mpr (by decide : (3 : Word).FitsUnsigned 8)⟩
  refine (unpack_eq_ok_iff_of_pack (parsed_of_ofDescriptors hread) (by decide) (by decide) hvalues
    (by decide +kernel) (by decide +kernel)).mpr ⟨?_, ?_⟩
  · decide +kernel
  · decide +kernel

/-- Neither a slice of an empty tuple nor an empty tuple alone is read back. -/
theorem unpack_pack_ne_of_empty_tuple :
    (AbiType.slice (.tuple "" [])).Parsed ∧ (AbiType.tuple "" []).Parsed ∧
      (AbiType.slice (.tuple "" [])).Everywhere AbiType.DistinctRawNames ∧
      (AbiType.slice (.tuple "" [])).Inhabits (.array [.tuple []]) ∧
      pack [⟨"x", .slice (.tuple "" []), false⟩] [.array [.tuple []]]
        = .ok (countWord 32 ++ countWord 1) ∧
      unpack [⟨"x", .slice (.tuple "" []), false⟩] (countWord 32 ++ countWord 1)
        = .error (.insufficientLength 64 (.bytes 65)) ∧
      pack [⟨"x", .tuple "" [], false⟩] [.tuple []] = .ok [] ∧
      unpack [⟨"x", .tuple "" [], false⟩] [] = .error .emptyInputExpectedArguments := by
  refine ⟨⟨"tuple[]", "", [], rfl⟩, ⟨"tuple", "", [], rfl⟩, by decide, ?_, ?_, ?_, ?_, ?_⟩
  · exact List.forall_mem_singleton.mpr trivial
  · decide +kernel
  · decide +kernel
  · decide +kernel
  · decide +kernel

end Arguments

end ContractAbi
