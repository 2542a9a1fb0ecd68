import ContractAbi.Proofs.Decoding.Positions
import ContractAbi.Proofs.Encoding.Packing

/-!
# Positions of heads

Packing measures the heads of a block by the bytes that it has written, and unpacking computes them
from the types alone, with capped sizes and slots. Both come to the same positions in every block
that is short enough for a payload: `AbiType.HeadsAgree` says so of the heads and of what stands at
them, and each of the three loops that read components has an equation, which says that it reads at
the measured positions, from whatever payload.

A cap would show only in a head that is longer than a count. A block with such a head is not packed.
-/

namespace ContractAbi

open Decoding

namespace Part

/-! ## Measured positions -/

/-- The positions of the heads of the parts, the first of which is at `index`. -/
def headStarts : (index : Nat) → List Part → List Nat
  | _, [] => []
  | index, p :: rest => index :: headStarts (index + p.headLength) rest

theorem AllPlaced.forall₂ {parts : List Part} {data : Bytes} {index : Nat}
    (h : AllPlaced parts data index) :
    List.Forall₂ (fun p start ↦ p.PlacedAt data start) parts (headStarts index parts) := by
  induction parts generalizing index with
  | nil => exact .nil
  | cons p rest ih => exact .cons h.1 (ih h.2)

section Width

variable {width : Nat} {parts : List Part}

/-- Heads of one width are at its multiples. -/
theorem headStarts_of_width (h : ∀ p ∈ parts, p.headLength = width) (first : Nat) :
    headStarts (first * width) parts = (List.range' first parts.length).map (· * width) := by
  induction parts generalizing first with
  | nil => rfl
  | cons p rest ih =>
    obtain ⟨hp, hrest⟩ := List.forall_mem_cons.mp h
    rw [headStarts, hp, ← Nat.succ_mul, ih hrest, List.length_cons, List.range'_succ, List.map_cons]

theorem headTotal_of_width (h : ∀ p ∈ parts, p.headLength = width) :
    headTotal parts = parts.length * width := by
  rw [headTotal, List.sum_eq_card_nsmul _ width (List.forall_mem_map.mpr h), List.length_map,
    nsmul_eq_mul, Nat.cast_id]

end Width

end Part

namespace AbiType

/-! ## Reading at measured positions -/

/-- The part has a head of the exact head size of the type. -/
def HasWidth (t : AbiType) (p : Part) : Prop :=
  p.headLength = t.headWidth

/-- Past a head that is within a count the slot moves to the next measured position. -/
theorem addCapped_of_hasWidth {t : AbiType} {p : Part} (hp : t.HasWidth p) {slot start : Nat}
    (hslot : slot * wordSize = start) (hcap : start + p.headLength ≤ Count.limit) :
    Count.addCapped slot t.headSlots * wordSize = start + p.headLength := by
  rw [hp] at hcap ⊢
  rw [← hslot] at hcap ⊢
  exact addCapped_headSlots hcap

/-- Fields are read at the heads of the parts. -/
theorem unpackFields_eq_mapM {fields : List (Field AbiType)} {parts : List Part}
    (h : List.Forall₂ (fun f p ↦ f.type.HasWidth p) fields parts) {slot start : Nat}
    (hslot : slot * wordSize = start) (hcap : start + Part.headTotal parts ≤ Count.limit)
    (data : Bytes) :
    unpackFields fields slot data
      = (fields.zip (Part.headStarts start parts)).mapM fun (f, start) ↦ do
        return (f.rawName, ← f.type.unpack start data) := by
  induction h generalizing slot start with
  | nil => rfl
  | @cons f p _ _ hf _ ih =>
    rw [Part.headTotal_cons, ← Nat.add_assoc] at hcap
    have hnext := addCapped_of_hasWidth hf hslot (by omega)
    rw [unpackFields, slotIndex_eq (by omega), ok_bind, ih hnext hcap, hslot, Part.headStarts,
      List.zip_cons_cons, List.mapM_cons]
    simp only [bind_assoc, pure_bind]

/-- Arguments are read at the heads of the parts. -/
theorem unpackFrom_eq_mapM {args : Arguments} {parts : List Part}
    (h : List.Forall₂ (fun a p ↦ a.type.HasWidth p) args parts) {slot start : Nat}
    (hslot : slot * wordSize = start) (hcap : start + Part.headTotal parts ≤ Count.limit)
    (data : Bytes) :
    Arguments.unpackFrom slot data args
      = (args.zip (Part.headStarts start parts)).mapM fun (a, start) ↦
        a.type.unpack start data := by
  induction h generalizing slot start with
  | nil => rfl
  | @cons a p _ _ ha _ ih =>
    rw [Part.headTotal_cons, ← Nat.add_assoc] at hcap
    have hnext := addCapped_of_hasWidth ha hslot (by omega)
    rw [Arguments.unpackFrom, slotIndex_eq (by omega), ok_bind, ih hnext hcap, hslot,
      Part.headStarts, List.zip_cons_cons, List.mapM_cons]

/-- The loop over elements reads them at the heads of the parts. -/
def ItemsReadAt (elem : AbiType) (parts : List Part) : Prop :=
  ∀ (read : Nat → Except AbiError Value) (data : Bytes), data.length < offsetLimit →
    readSequence elem read data parts.length =
      if parts.length * wordSize ≤ data.length then do
        return .array (← (Part.headStarts 0 parts).mapM read)
      else .error (.insufficientLength data.length (.words parts.length))

theorem itemsReadAt_of_hasWidth {elem : AbiType} {parts : List Part}
    (h : ∀ p ∈ parts, elem.HasWidth p) (hcap : Part.headTotal parts ≤ Count.limit) :
    elem.ItemsReadAt parts := by
  intro read data hdata
  have hindex (i : Nat) (hi : i ∈ List.range' 0 parts.length) :
      Count.mul? i elem.headSize = some (i * elem.headWidth) := by
    have hle : i * elem.headWidth ≤ parts.length * elem.headWidth :=
      Nat.mul_le_mul_right _ (by rw [List.mem_range'_1] at hi; omega)
    rw [← Part.headTotal_of_width h] at hle
    exact mul?_headSize (by omega)
  have hstarts := Part.headStarts_of_width h 0
  rw [Nat.zero_mul] at hstarts
  rw [readSequence, filter_mul?_eq hdata, hstarts, List.mapM_map, List.range_eq_range']
  by_cases hroom : parts.length * wordSize ≤ data.length
  · rw [if_pos hroom, if_pos hroom]
    refine congrArg (· >>= fun items ↦ pure (Value.array items)) (mapM_congr fun i hi ↦ ?_)
    rw [hindex i hi]
    rfl
  · rw [if_neg hroom, if_neg hroom]

/-! ## Agreement -/

/-- The pairs are packed to the block, the head of each is as long as the head size of its type says
and a word if its type is dynamic, and a reader at the measured positions finds the parts. -/
structure HeadsAgree (xs : List (AbiType × Value)) (parts : List Part) (block : Bytes) :
    Prop where
  packed : List.Forall₂ Packed xs parts
  block_eq : Part.block parts = block
  width : List.Forall₂ (fun x p ↦ p.headLength = x.1.headSize) xs parts
  word : List.Forall₂ (fun x p ↦ x.1.isDynamic = true → p.headLength = wordSize) xs parts
  placed : List.Forall₂ (fun p start ↦ p.PlacedAt block start) parts (Part.headStarts 0 parts)

section Blocks

variable {xs : List (AbiType × Value)} {parts : List Part}

theorem hasWidth_of_packed (h : List.Forall₂ Packed xs parts)
    (hn : ∀ x ∈ xs, x.1.Everywhere NumbersInRange) :
    List.Forall₂ (fun x p ↦ HasWidth x.1 p) xs parts :=
  (sized_of_numbersInRange h hn).imp fun _ _ ↦ Sized.headLength

/-- A head that is within a count is as long as the capped size. -/
theorem headLength_eq_headSize (h : List.Forall₂ (fun x p ↦ HasWidth x.1 p) xs parts)
    (hcap : Part.headTotal parts ≤ Count.limit) :
    List.Forall₂ (fun x p ↦ p.headLength = x.1.headSize) xs parts := by
  induction h with
  | nil => exact .nil
  | @cons x p _ _ hx _ ih =>
    rw [Part.headTotal_cons, hx] at hcap
    exact .cons (hx.trans (headSize_eq_headWidth (by omega)).symm) (ih (by omega))

theorem headTotal_le_of_length_lt (hlength : (Part.block parts).length < offsetLimit) :
    Part.headTotal parts ≤ Count.limit := by
  have hlimit := offsetLimit_le_limit
  rw [Part.length_block] at hlength
  omega

theorem headsAgree_of_packed (h : List.Forall₂ Packed xs parts)
    (hn : ∀ x ∈ xs, x.1.Everywhere NumbersInRange)
    (hlength : (Part.block parts).length < offsetLimit) :
    HeadsAgree xs parts (Part.block parts) where
  packed := h
  block_eq := rfl
  width := headLength_eq_headSize (hasWidth_of_packed h hn)
    (headTotal_le_of_length_lt hlength)
  word := h.imp fun _ _ hx hd ↦ Part.headLength_of_dynamic (hx.1.trans hd)
  placed := by
    have hlimit := offsetLimit_le_limit
    have hmodulus := limit_lt_modulus
    exact (Part.allPlaced_of_block (by omega) (Bytes.standsAt_self _)).forall₂

end Blocks

/-- The block of the elements of a slice or an array. -/
theorem headsAgree_items {elem : AbiType} {items : List Value} {parts : List Part}
    (h : List.Forall₂ Packed (items.map (elem, ·)) parts) (hn : elem.Everywhere NumbersInRange)
    (hlength : (Part.block parts).length < offsetLimit) :
    HeadsAgree (items.map (elem, ·)) parts (Part.block parts) ∧ elem.ItemsReadAt parts := by
  have hrange : ∀ x ∈ items.map (elem, ·), x.1.Everywhere NumbersInRange :=
    List.forall_mem_map.mpr fun _ _ ↦ hn
  have hwidth := hasWidth_of_packed h hrange
  rw [List.forall₂_map_left_iff] at hwidth
  refine ⟨headsAgree_of_packed h hrange hlength,
    itemsReadAt_of_hasWidth ?_ (headTotal_le_of_length_lt hlength)⟩
  exact forall_mem_of_forall₂ hwidth fun _ _ _ hp ↦ hp

/-- The block of the components of a tuple or an argument list, told by what has the types. -/
theorem headsAgree_zip {α : Type} {type : α → AbiType} {as : List α} {values : List Value}
    {parts : List Part} (hcount : values.length = as.length)
    (h : List.Forall₂ Packed ((as.map type).zip values) parts)
    (hn : ∀ a ∈ as, (type a).Everywhere NumbersInRange)
    (hlength : (Part.block parts).length < offsetLimit) :
    HeadsAgree ((as.map type).zip values) parts (Part.block parts) ∧
      List.Forall₂ (fun a p ↦ (type a).HasWidth p) as parts := by
  have hrange : ∀ x ∈ (as.map type).zip values, x.1.Everywhere NumbersInRange :=
    forall_mem_zip_types fun a ha _ ↦ hn a ha
  have hwidth := hasWidth_of_packed h hrange
  rw [← List.forall₂_map_left_iff (f := Prod.fst), List.map_fst_zip (by simp [hcount]),
    List.forall₂_map_left_iff] at hwidth
  exact ⟨headsAgree_of_packed h hrange hlength, hwidth⟩

/-! ## Head sizes -/

theorem headSize_of_static {t : AbiType} (hn : t.Everywhere NumbersInRange)
    (hs : t.isDynamic = false) {v : Value} {b : Bytes} (h : t.pack v = .ok b)
    (hb : b.length < offsetLimit) :
    b.length = t.headSize ∧ t.headSize = wordSize * t.headSlots := by
  have hlimit := offsetLimit_le_limit
  have hwidth := (measures_of_pack hn h).static hs
  have hsize : t.headSize = t.headWidth := headSize_eq_headWidth (by omega)
  exact ⟨by rw [hwidth, hsize], by rw [hsize, wordSize_mul_headSlots (by omega)]⟩

/-- What is left of a dynamic component in a head is the offset. -/
theorem headSize_of_dynamic {t : AbiType} (hd : t.isDynamic = true) :
    t.headSize = wordSize ∧ t.headSlots = 1 := by
  have hwidth := headWidth_of_isDynamic hd
  have hsize : t.headSize = wordSize := by
    rw [headSize_eq_headWidth (by rw [hwidth]; decide), hwidth]
  exact ⟨hsize, by rw [headSlots, hsize]; rfl⟩

/-- **Head sizes are the widths of encodings.** An encoding is whole words, as many as the head size
says if its type is static, and one at least if it is dynamic, when the head size is a word. In the
block of a slice, an array, a tuple or an argument list the heads are as long as the head sizes say,
and the loop that reads the components of the block looks for them where the heads were written. -/
theorem headSize_is_width :
    (∀ (t : AbiType) (v : Value) (b : Bytes), t.Parsed → t.pack v = .ok b →
      b.length < offsetLimit →
      wordSize ∣ b.length ∧
        (t.isDynamic = false → b.length = t.headSize ∧ t.headSize = wordSize * t.headSlots) ∧
        (t.isDynamic = true →
          wordSize ≤ b.length ∧ t.headSize = wordSize ∧ t.headSlots = 1)) ∧
    (∀ (elem : AbiType) (items : List Value) (b : Bytes), (slice elem).Parsed →
      (slice elem).pack (.array items) = .ok b → b.length < offsetLimit →
      ∃ parts body, countWord items.length ++ body = b ∧
        HeadsAgree (items.map (elem, ·)) parts body ∧ elem.ItemsReadAt parts) ∧
    (∀ (elem : AbiType) (length : Nat) (items : List Value) (b : Bytes),
      (array elem length).Parsed → (array elem length).pack (.array items) = .ok b →
      b.length < offsetLimit →
      ∃ parts, HeadsAgree (items.map (elem, ·)) parts b ∧ elem.ItemsReadAt parts) ∧
    (∀ (structName : String) (fields : List (Field AbiType)) (entries : List (String × Value))
        (b : Bytes),
      (tuple structName fields).Parsed → (tuple structName fields).pack (.tuple entries) = .ok b →
      b.length < offsetLimit →
      ∃ values parts, List.Forall₂ (FirstEntry entries) fields values ∧
        HeadsAgree ((fields.map Field.type).zip values) parts b ∧
        ∀ data, unpackFields fields 0 data
          = (fields.zip (Part.headStarts 0 parts)).mapM fun (f, start) ↦ do
            return (f.rawName, ← f.type.unpack start data)) ∧
    ∀ (args : Arguments) (values : List Value) (b : Bytes), (∀ a ∈ args, a.type.Parsed) →
      args.pack values = .ok b → b.length < offsetLimit →
      ∃ parts, HeadsAgree ((args.map Argument.type).zip values) parts b ∧
        ∀ data, Arguments.unpackFrom 0 data args
          = (args.zip (Part.headStarts 0 parts)).mapM fun (a, start) ↦
            a.type.unpack start data := by
  refine ⟨?_, ?_, ?_, ?_, ?_⟩
  · intro t v b ht h hb
    have hn := ht.numbersInRange
    have hm := measures_of_pack hn h
    exact ⟨hm.aligned, fun hs ↦ headSize_of_static hn hs h hb,
      fun hd ↦ ⟨hm.dynamic hd, headSize_of_dynamic hd⟩⟩
  · intro elem items b ht h hb
    obtain ⟨_, parts, hitems, hparts, -, rfl⟩ := pack_slice_eq_ok_iff.mp h
    obtain rfl := Value.array.inj hitems
    rw [List.length_append] at hb
    exact ⟨parts, _, rfl,
      headsAgree_items hparts (everywhere_slice_iff.mp ht.numbersInRange).2 (by omega)⟩
  · intro elem length items b ht h hb
    obtain ⟨_, parts, hitems, -, hparts, -, rfl⟩ := pack_array_eq_ok_iff.mp h
    obtain rfl := Value.array.inj hitems
    exact ⟨parts, headsAgree_items hparts (everywhere_array_iff.mp ht.numbersInRange).2 hb⟩
  · intro structName fields entries b ht h hb
    obtain ⟨_, values, parts, hentries, hvalues, hparts, -, rfl⟩ := pack_tuple_eq_ok_iff.mp h
    obtain rfl := Value.tuple.inj hentries
    obtain ⟨hagree, hwidth⟩ := headsAgree_zip hvalues.length_eq.symm hparts
      (everywhere_tuple_iff.mp ht.numbersInRange).2 hb
    have hcap := headTotal_le_of_length_lt hb
    exact ⟨values, parts, hvalues, hagree,
      unpackFields_eq_mapM hwidth (Nat.zero_mul _) (by rwa [Nat.zero_add])⟩
  · intro args values b ht h hb
    obtain ⟨parts, hcount, hparts, -, rfl⟩ := Arguments.pack_eq_ok_iff.mp h
    obtain ⟨hagree, hwidth⟩ := headsAgree_zip hcount hparts (fun a ha ↦ (ht a ha).numbersInRange) hb
    have hcap := headTotal_le_of_length_lt hb
    exact ⟨parts, hagree, unpackFrom_eq_mapM hwidth (Nat.zero_mul _) (by rwa [Nat.zero_add])⟩

/-- An array of two words, and the tuple of it and of bytes behind it. -/
theorem headSize_is_width_pair :
    let pair : Field AbiType := ⟨"pair", "Pair", .array (.uint 8) 2⟩
    let content : Field AbiType := ⟨"content", "Content", .bytes⟩
    (Word.toBytes 5 ++ Word.toBytes 6).length = pair.type.headSize ∧
      pair.type.headSize = wordSize * pair.type.headSlots ∧
      ∀ data, unpackFields [pair, content] 0 data
        = [(pair, 0), (content, 64)].mapM fun (f, start) ↦ do
          return (f.rawName, ← f.type.unpack start data) := by
  intro pair content
  have hpair : pair.type.Parsed := ⟨"uint8[2]", "", [], rfl⟩
  have htuple : (tuple "" [pair, content]).Parsed :=
    ⟨"tuple", "", [⟨"pair", "uint8[2]", none, [], false⟩, ⟨"content", "bytes", none, [], false⟩],
      rfl⟩
  obtain ⟨hlengths, -, -, htuples, -⟩ := headSize_is_width
  obtain ⟨-, hstatic, -⟩ := hlengths pair.type (.array [.uint 5, .uint 6])
    (Word.toBytes 5 ++ Word.toBytes 6) hpair (by decide +kernel) (by decide +kernel)
  obtain ⟨values, parts, hvalues, hagree, hread⟩ := htuples "" [pair, content]
    [("pair", .array [.uint 5, .uint 6]), ("content", .bytes [7])]
    (Word.toBytes 5 ++ Word.toBytes 6 ++ countWord 96 ++ counted [7]) htuple (by decide +kernel)
    (by decide +kernel)
  obtain ⟨v, w, rfl⟩ := List.length_eq_two.mp hvalues.length_eq.symm
  obtain ⟨p, _, hp, hrest, rfl⟩ := List.forall₂_cons_left_iff.mp hagree.width
  obtain ⟨q, _, -, -, rfl⟩ := List.forall₂_cons_left_iff.mp hrest
  have hhead : p.headLength = 64 := hp
  refine ⟨(hstatic rfl).1, (hstatic rfl).2, fun data ↦ ?_⟩
  rw [hread, Part.headStarts, Part.headStarts, hhead]
  rfl

end AbiType

end ContractAbi
