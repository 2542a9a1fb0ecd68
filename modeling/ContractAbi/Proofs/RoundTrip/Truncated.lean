import ContractAbi.Proofs.RoundTrip.Cut

/-!
# Truncated payloads

A payload that lost bytes at its end is refused for its length, unless all it lost is padding: the
zeros behind the content that the payload ends with, if it ends with one. Nothing shorter is taken
for a payload of other values, and nothing is refused for another reason.

The two halves come from different theories. Which fronts give the values back is decided by
`AbiType.readBackIff_of_packed`. A front that does not give them back cannot give anything else, nor
fail for anything but its length, because such a verdict would be that of the whole payload as well:
`Arguments.unpackValues_carries`.
-/

namespace ContractAbi

open Decoding

/-! ## Runs of elements with room -/

theorem Part.runsFrom_eq_nil {parts : List Part} {rss : List (List Run)} {index offset : Nat}
    (h : ∀ rs ∈ rss, rs = []) : runsFrom index offset parts rss = [] := by
  induction parts generalizing rss index offset with
  | nil => rfl
  | cons p rest ih =>
    cases rss with
    | nil => rfl
    | cons rs rss =>
      obtain ⟨rfl, hrest⟩ := List.forall_mem_cons.mp h
      rw [runsFrom, ih hrest]
      rfl

namespace AbiType

theorem ownRun_eq_nil {elem : AbiType} (h : elem.headSize ≠ 0) (count : Nat) :
    ownRun elem count = [] := if_neg h

theorem fieldRuns_eq_nil {fields : List (Field AbiType)} {entries : List (String × Value)}
    (h : ∀ f ∈ fields, ∀ v, f.type.runs v = []) : ∀ rs ∈ fieldRuns fields entries, rs = [] := by
  induction fields with
  | nil => exact List.forall_mem_nil _
  | cons f fields ih =>
    obtain ⟨hf, hrest⟩ := List.forall_mem_cons.mp h
    rw [fieldRuns]
    refine List.forall_mem_cons.mpr ⟨?_, ih hrest⟩
    cases entries.lookup f.rawName with
    | none => rfl
    | some v => exact hf v

/-- Where all elements take room there are no runs. -/
theorem runs_eq_nil {t : AbiType} (hr : t.Everywhere ElemsTakeRoom) (v : Value) :
    t.runs v = [] := by
  induction t using induct generalizing v with
  | slice elem ih =>
    obtain ⟨hroom, hre⟩ := everywhere_slice_iff.mp hr
    cases v with
    | array items =>
      rw [runs, ownRun_eq_nil (hroom elem rfl), Part.runs,
        Part.runsFrom_eq_nil (List.forall_mem_map.mpr fun v _ ↦ ih hre v)]
      rfl
    | _ => simp only [runs]
  | array elem length ih =>
    obtain ⟨hroom, hre⟩ := everywhere_array_iff.mp hr
    cases v with
    | array items =>
      rw [runs, ownRun_eq_nil (hroom elem rfl), Part.runs,
        Part.runsFrom_eq_nil (List.forall_mem_map.mpr fun v _ ↦ ih hre v)]
      rfl
    | _ => simp only [runs]
  | tuple structName fields ih =>
    obtain ⟨-, hrf⟩ := everywhere_tuple_iff.mp hr
    cases v with
    | tuple entries =>
      rw [runs, Part.runs]
      exact Part.runsFrom_eq_nil (fieldRuns_eq_nil fun f hf v ↦ ih f hf (hrf f hf) v)
    | _ => simp only [runs]
  | _ => simp only [runs]

end AbiType

namespace Arguments

variable {args : Arguments} {values : List Value} {b : Bytes}

/-- A payload ends with the content that its path leads to. -/
theorem suffix_of_endContent (hn : ∀ a ∈ args, a.type.Everywhere AbiType.NumbersInRange)
    (hpack : args.pack values = .ok b) {content : Bytes}
    (hc : args.endContent values = some content) : AbiType.counted content <:+ b := by
  obtain ⟨parts, -, hparts, -, rfl⟩ := pack_eq_ok_iff.mp hpack
  rw [AbiType.endContent_arguments] at hc
  have htails := AbiType.suffix_tails_of_endOf hparts
    (AbiType.forall_mem_zip_types fun a ha _ ↦ hn a ha) hc
    (AbiType.forall_mem_zip_types fun a ha _ _ hb hend ↦
      AbiType.suffix_of_endContent (hn a ha) hb hend)
  exact htails.trans (List.suffix_append _ _)

theorem runs_eq_nil (hr : ∀ a ∈ args, a.type.Everywhere AbiType.ElemsTakeRoom) :
    args.runs values = [] := by
  refine Part.runsFrom_eq_nil (List.forall_mem_map.mpr ?_)
  rintro ⟨a, v⟩ hx
  exact AbiType.runs_eq_nil (hr a (List.of_mem_zip hx).1) v

theorem unpackValues_take_iff (hn : ∀ a ∈ args, a.type.Everywhere AbiType.NumbersInRange)
    (hi : ∀ a ∈ args, a.indexed = false) (hr : ∀ a ∈ args, a.type.Everywhere AbiType.ElemsTakeRoom)
    (hpack : args.pack values = .ok b) (hlt : b.length < offsetLimit) {n : Nat}
    (hle : n ≤ b.length) :
    args.unpackValues (b.take n)
        = .ok ((args.zip values).map fun (a, v) ↦ a.type.normalize v) ↔
      b.length ≤ n + paddingLength (args.endContent values) := by
  have hwhole : b.take n ++ b.drop n = b := List.take_append_drop n b
  rw [unpackValues_front_iff hn hi hpack (by rwa [hwhole])
    (by rw [hwhole]; exact Bytes.standsAt_self b), runs_eq_nil hr, List.length_take_of_le hle]
  exact and_iff_left (List.forall_mem_nil _)

/-- **Truncation is detected exactly.** A payload that lost a part of the padding at its end, or
nothing, gives the same values. One that lost more is refused for its length, and one that lost
everything for being empty. -/
theorem unpack_take_of_pack (ht : ∀ a ∈ args, a.type.Parsed) (hi : ∀ a ∈ args, a.indexed = false)
    (hr : ∀ a ∈ args, a.type.Everywhere AbiType.ElemsTakeRoom) (hpack : args.pack values = .ok b)
    (hb : b ≠ []) (hlt : b.length < offsetLimit) :
    args.unpack b = .ok ((args.zip values).map fun (a, v) ↦ a.type.normalize v) ∧
      (∀ content, args.endContent values = some content → AbiType.counted content <:+ b) ∧
      ∀ n ≤ b.length,
        (b.length - paddingLength (args.endContent values) ≤ n →
          args.unpack (b.take n) = args.unpack b) ∧
        (0 < n → n < b.length - paddingLength (args.endContent values) →
          ∃ available required,
            args.unpack (b.take n) = .error (.insufficientLength available required)) ∧
        (n = 0 → args.unpack (b.take n) = .error .emptyInputExpectedArguments) := by
  have hn (a : Argument) (ha : a ∈ args) := (ht a ha).numbersInRange
  have hsuffix (content : Bytes) (hc : args.endContent values = some content) :=
    suffix_of_endContent hn hpack hc
  have hpadding := paddingLength_add_wordSize_le hsuffix
  rw [wordSize] at hpadding
  have hlength := List.length_pos_of_ne_nil hb
  have hfront {n : Nat} (hle : n ≤ b.length) := unpackValues_take_iff hn hi hr hpack hlt hle
  have hvalues := (hfront (Nat.le_refl _)).mpr (Nat.le_add_right _ _)
  rw [List.take_length] at hvalues
  have hunpack {n : Nat} (hpos : 0 < n) :
      args.unpack (b.take n) = args.unpackValues (b.take n) := by
    refine if_neg fun h ↦ ?_
    rcases List.take_eq_nil_iff.mp h with h0 | h0
    · omega
    · exact hb h0
  have hwhole : args.unpack b = args.unpackValues b := if_neg hb
  rw [hwhole, hvalues]
  refine ⟨rfl, hsuffix, fun n hle ↦ ⟨fun hfull ↦ ?_, fun hpos hcut ↦ ?_, ?_⟩⟩
  · have hpos : 0 < n := by omega
    rw [hunpack hpos, (hfront hle).mpr (by omega)]
  · rw [hunpack hpos]
    have hsplit : (b.take n ++ b.drop n).length < offsetLimit := by rwa [List.take_append_drop]
    have hcarries := args.unpackValues_carries hsplit
    rw [List.take_append_drop] at hcarries
    refine (hcarries.eq_ok_or_insufficient hvalues).resolve_left fun hok ↦ ?_
    have hle := (hfront hle).mp hok
    omega
  · rintro rfl
    -- without arguments the payload would be empty
    have hargs : args.nonIndexed ≠ [] := by
      rw [nonIndexed_eq_self hi]
      rintro rfl
      obtain ⟨parts, -, hparts, -, rfl⟩ := pack_eq_ok_iff.mp hpack
      cases hparts
      exact hb rfl
    rw [List.take_zero, unpack, if_pos rfl, if_neg hargs]

/-- A number and a byte of content. Of 128 bytes the last 31 are padding. -/
theorem unpack_take_of_pack_byte :
    unpack [⟨"n", .uint 8, false⟩, ⟨"b", .bytes, false⟩]
        ((countWord 5 ++ countWord 64 ++ AbiType.counted [7]).take 97) = .ok [.uint 5, .bytes [7]] ∧
      ∃ available required, unpack [⟨"n", .uint 8, false⟩, ⟨"b", .bytes, false⟩]
        ((countWord 5 ++ countWord 64 ++ AbiType.counted [7]).take 96)
          = .error (.insufficientLength available required) := by
  have hread : ofDescriptors [{ name := "n", type := "uint8" }, { name := "b", type := "bytes" }]
      = .ok [⟨"n", .uint 8, false⟩, ⟨"b", .bytes, false⟩] := rfl
  have hpack : pack [⟨"n", .uint 8, false⟩, ⟨"b", .bytes, false⟩] [.uint 5, .fixedBytes [7]]
      = .ok (countWord 5 ++ countWord 64 ++ AbiType.counted [7]) := by decide +kernel
  obtain ⟨hwhole, -, hcut⟩ := unpack_take_of_pack (parsed_of_ofDescriptors hread) (by decide)
    (by decide) hpack (by decide +kernel) (by decide +kernel)
  constructor
  · rw [(hcut 97 (by decide +kernel)).1 (by decide +kernel), hwhole]
    rfl
  · exact (hcut 96 (by decide +kernel)).2.1 (by decide) (by decide +kernel)

end Arguments

end ContractAbi
