import ContractAbi.Proofs.Decoding.Refusals
import ContractAbi.Proofs.RoundTrip.Arguments
import ContractAbi.Proofs.RoundTrip.Cut

/-!
# Reading revert data back

Revert data is the selector of a custom error and the packed inputs behind it. The offsets of the
inputs count from behind the selector, so unpacking them from there is unpacking an argument list,
and the four bytes in front shift nothing.

The selector is all that ties revert data to its error. It is compared before the inputs are looked
at, so data that two errors can be unpacked from has the selector of both.
-/

namespace ContractAbi

open Decoding

namespace Arguments

variable {args : Arguments} {values : List Value} {b rest : Bytes}

/-- What a list without indexed arguments packs is aligned, and read back whatever follows it. -/
theorem unpack_append_of_unindexed (hn : ∀ a ∈ args, a.type.Everywhere AbiType.NumbersInRange)
    (hi : ∀ a ∈ args, a.indexed = false)
    (hr : ∀ a ∈ args, a.type.Everywhere AbiType.ElemsTakeRoom)
    (hpack : args.pack values = .ok b) (hb : b ≠ [] ∨ args = [])
    (hdata : (b ++ rest).length < offsetLimit) :
    args.unpack (b ++ rest) = .ok ((args.zip values).map fun (a, v) ↦ a.type.normalize v) := by
  obtain ⟨parts, hlength, hparts, -, rfl⟩ := pack_eq_ok_iff.mp hpack
  have hsized := AbiType.sized_of_numbersInRange hparts
    (AbiType.forall_mem_zip_types fun a ha _ ↦ hn a ha)
  have hblock := (Bytes.standsAt_self (Part.block parts)).append_right rest
  have hpayload := nonIndexed_eq_self hi
  rw [unpack]
  by_cases hempty : Part.block parts ++ rest = []
  · have hnone : args = [] := hb.resolve_left fun h ↦ h (List.append_eq_nil_iff.mp hempty).1
    rw [if_pos hempty, hpayload, if_pos hnone, hnone]
    rfl
  · have hvalues : args.unpackValues (Part.block parts ++ rest)
        = .ok ((args.nonIndexed.zip values).map fun (a, v) ↦ a.type.normalize v) := by
      refine unpackValues_of_block hdata ?_ ?_ ?_ hblock
      · rw [hpayload, hlength]
      · rwa [hpayload]
      · rw [hpayload]
        exact fun a ha _ _ ↦ AbiType.readBack_of_packed (hn a ha) (hr a ha)
    rw [if_neg hempty, hvalues, hpayload]

theorem wordSize_dvd_length_of_pack (hn : ∀ a ∈ args, a.type.Everywhere AbiType.NumbersInRange)
    (hpack : args.pack values = .ok b) : wordSize ∣ b.length := by
  obtain ⟨parts, -, hparts, -, rfl⟩ := pack_eq_ok_iff.mp hpack
  exact AbiType.wordSize_dvd_length_block (AbiType.sized_of_numbersInRange hparts
    (AbiType.forall_mem_zip_types fun a ha _ ↦ hn a ha))

/-- There is a normal value for every value that was packed. -/
theorem normalizesTo_of_pack (hn : ∀ a ∈ args, a.type.Everywhere AbiType.NumbersInRange)
    (hpack : args.pack values = .ok b) :
    ∀ x ∈ args.zip values, x.1.type.NormalizesTo x.2 (x.1.type.normalize x.2) := by
  obtain ⟨parts, -, hparts, -, -⟩ := pack_eq_ok_iff.mp hpack
  rintro ⟨a, v⟩ hx
  have hmem : (a.type, v) ∈ (args.map Argument.type).zip values := by
    rw [List.zip_map_left]
    exact List.mem_map_of_mem (f := Prod.map Argument.type id) hx
  obtain ⟨c, hc⟩ := AbiType.exists_pack_of_mem hparts hmem
  exact AbiType.normalizesTo_normalize (hn a (List.of_mem_zip hx).1) hc

end Arguments

namespace CustomError

theorem length_selector (e : CustomError) : e.selector.length = selectorLength := by
  rw [selector, List.length_take, e.id.property]
  rfl

theorem pack_eq_ok_iff {e : CustomError} {values : List Value} {d : Bytes} :
    e.pack values = .ok d ↔ ∃ body, e.inputs.pack values = .ok body ∧ e.selector ++ body = d := by
  simp only [pack, bind_eq_ok_iff, pure_eq_ok, Except.ok.injEq]

/-- **Revert data.** What a custom error without indexed inputs packs begins with its selector, goes
on in whole words, and is read back to the normal values whatever follows it, unless there are
inputs that were packed to nothing. Data that two custom errors can be unpacked from is behind the
selector of both, and data that is long enough for a selector is refused for it exactly if it is
another one. -/
theorem pack_unpack_selector :
    (∀ (e : CustomError) (values : List Value) (d : Bytes),
      (∀ a ∈ e.inputs, a.indexed = false ∧ a.type.Parsed ∧
        a.type.Everywhere AbiType.ElemsTakeRoom) →
      e.pack values = .ok d → selectorLength < d.length ∨ e.inputs = [] →
      d.take selectorLength = e.selector ∧ wordSize ∣ (d.drop selectorLength).length ∧
      (∀ x ∈ e.inputs.zip values, x.1.type.NormalizesTo x.2 (x.1.type.normalize x.2)) ∧
      ∀ rest : Bytes, (d ++ rest).length < offsetLimit →
        e.unpack (d ++ rest)
          = .ok ((e.inputs.zip values).map fun (a, v) ↦ a.type.normalize v)) ∧
    (∀ (e e' : CustomError) (data : Bytes) (values values' : List Value),
      e.unpack data = .ok values → e'.unpack data = .ok values' → e.selector = e'.selector) ∧
    ∀ (e : CustomError) (data : Bytes), selectorLength ≤ data.length →
      ((∃ given expected, e.unpack data = .error (.invalidSelector given expected)) ↔
        data.take selectorLength ≠ e.selector) := by
  refine ⟨fun e values d hinputs hpack hd ↦ ?_, fun e e' data values values' h h' ↦ ?_,
    fun e data ↦ unpack_eq_invalidSelector_iff⟩
  · have hn (a : Argument) (ha : a ∈ e.inputs) := (hinputs a ha).2.1.numbersInRange
    obtain ⟨body, hbody, rfl⟩ := pack_eq_ok_iff.mp hpack
    have hselector := e.length_selector
    rw [List.length_append] at hd
    have hempty : body ≠ [] ∨ e.inputs = [] := by
      refine hd.imp_left fun h ↦ List.ne_nil_of_length_pos ?_
      omega
    refine ⟨List.take_left' hselector, ?_, Arguments.normalizesTo_of_pack hn hbody,
      fun rest hdata ↦ ?_⟩
    · rw [List.drop_left' hselector]
      exact Arguments.wordSize_dvd_length_of_pack hn hbody
    · rw [List.append_assoc] at hdata ⊢
      have hrest : (body ++ rest).length < offsetLimit := by
        rw [List.length_append] at hdata
        omega
      rw [unpack_of_selector (List.take_left' hselector)
        (by rw [List.length_append]; omega), List.drop_left' hselector]
      exact Arguments.unpack_append_of_unindexed hn (fun a ha ↦ (hinputs a ha).1)
        (fun a ha ↦ (hinputs a ha).2.2) hbody hempty hrest
  · rw [← take_eq_selector_of_unpack h, take_eq_selector_of_unpack h']

/-- A code that was given as a signed integer comes back unsigned, with a reason of two characters,
from revert data that a byte follows. Another error that only names the inputs otherwise reads the
same data. -/
theorem pack_unpack_selector_reason :
    let e : CustomError := ⟨"Failed", [⟨"code", .uint 8, false⟩, ⟨"reason", .string, false⟩]⟩
    let e' : CustomError := ⟨"Failed", [⟨"arg0", .uint 8, false⟩, ⟨"arg1", .string, false⟩]⟩
    let body := countWord 7 ++ countWord 64 ++ AbiType.counted [110, 111]
    e.pack [.int 7, .string "no"] = .ok (e.selector ++ body) ∧
      e.unpack (e.selector ++ body ++ [1]) = .ok [.uint 7, .string "no"] ∧
      e'.unpack (e.selector ++ body ++ [1]) = .ok [.uint 7, .string "no"] ∧
      e.selector = e'.selector ∧
      ((∃ given expected, e.unpack [0, 0, 0, 0] = .error (.invalidSelector given expected)) ↔
        [0, 0, 0, 0] ≠ e.selector) := by
  intro e e' body
  obtain ⟨hround, hshared, hforeign⟩ := pack_unpack_selector
  have hcode : (AbiType.uint 8).Everywhere AbiType.ElemsTakeRoom := by decide
  have hreason : AbiType.string.Everywhere AbiType.ElemsTakeRoom := by decide
  have hinputs (code reason : String) :
      ∀ a ∈ [(⟨code, .uint 8, false⟩ : Argument), ⟨reason, .string, false⟩],
        a.indexed = false ∧ a.type.Parsed ∧ a.type.Everywhere AbiType.ElemsTakeRoom := by
    have hread : Arguments.ofDescriptors [{ name := code, type := "uint8" },
        { name := reason, type := "string" }]
        = .ok [⟨code, .uint 8, false⟩, ⟨reason, .string, false⟩] := rfl
    have hroom : ∀ a ∈ [(⟨code, .uint 8, false⟩ : Argument), ⟨reason, .string, false⟩],
        a.indexed = false ∧ a.type.Everywhere AbiType.ElemsTakeRoom :=
      List.forall_mem_cons.mpr ⟨⟨rfl, hcode⟩, List.forall_mem_singleton.mpr ⟨rfl, hreason⟩⟩
    exact fun a ha ↦
      ⟨(hroom a ha).1, Arguments.parsed_of_ofDescriptors hread a ha, (hroom a ha).2⟩
  have hpack : e.inputs.pack [.int 7, .string "no"] = .ok body := by decide +kernel
  have hpack' : e'.inputs.pack [.int 7, .string "no"] = .ok body := by decide +kernel
  have hbody : body.length = 128 := by decide +kernel
  have hlength : (e.selector ++ body).length = 132 := by
    rw [List.length_append, length_selector, hbody]
    rfl
  have hselector : e.selector = e'.selector := by
    have hsignature : e.signature = e'.signature := by decide
    rw [selector, selector, id, id, hsignature]
  have hrest : (e.selector ++ body ++ [1]).length < offsetLimit := by
    rw [List.length_append, hlength]
    decide
  have hlong : selectorLength < (e.selector ++ body).length := by
    rw [hlength]
    decide
  have hread : e.unpack (e.selector ++ body ++ [1]) = .ok [.uint 7, .string "no"] := by
    obtain ⟨-, -, -, h⟩ := hround e _ _ (hinputs "code" "reason")
      (pack_eq_ok_iff.mpr ⟨body, hpack, rfl⟩) (Or.inl hlong)
    exact h [1] hrest
  have hread' : e'.unpack (e.selector ++ body ++ [1]) = .ok [.uint 7, .string "no"] := by
    rw [hselector] at hrest hlong ⊢
    obtain ⟨-, -, -, h⟩ := hround e' _ _ (hinputs "arg0" "arg1")
      (pack_eq_ok_iff.mpr ⟨body, hpack', rfl⟩) (Or.inl hlong)
    exact h [1] hrest
  exact ⟨pack_eq_ok_iff.mpr ⟨body, hpack, rfl⟩, hread, hread', hshared e e' _ _ _ hread hread',
    hforeign e [0, 0, 0, 0] (by decide)⟩

end CustomError

end ContractAbi
