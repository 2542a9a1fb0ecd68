import ContractAbi.Proofs.Encoding.Ends
import ContractAbi.Proofs.RoundTrip.Reencoded

/-!
# What reading in place ignores

A static value is read from the bytes of its head alone, and packing gives these bytes back, except
for the padding that the reader does not look at: the bytes in front of an address, and those behind
a byte string of a fixed length. `AbiType.ignored` marks them in the head, and `Bytes.clear` sets
them to zero. So apart from the padding there is one encoding of a static value that is accepted.
-/

namespace ContractAbi

open Decoding

/-! ## Marked bytes -/

namespace Bytes

/-- The bytes with the marked ones set to zero. -/
def clear (b : Bytes) (marks : List Bool) : Bytes :=
  List.zipWith (fun x mark ↦ if mark then 0 else x) b marks

variable {b c : Bytes} {marks marks' : List Bool} {n : Nat}

theorem clear_append (h : b.length = marks.length) :
    clear (b ++ c) (marks ++ marks') = clear b marks ++ clear c marks' :=
  List.zipWith_append h

theorem length_clear (h : b.length = marks.length) : (clear b marks).length = b.length := by
  rw [clear, List.length_zipWith, h, Nat.min_self]

theorem clear_replicate_false (h : b.length = n) : clear b (List.replicate n false) = b := by
  subst h
  induction b with
  | nil => rfl
  | cons x b ih => exact congrArg (x :: ·) ih

theorem clear_replicate_true (h : b.length = n) : clear b (List.replicate n true) = zeros n := by
  subst h
  induction b with
  | nil => rfl
  | cons x b ih => exact congrArg (0 :: ·) ih

theorem clear_front {m : Nat} (h : b.length = n + m) :
    clear b (List.replicate n true ++ List.replicate m false) = zeros n ++ b.drop n := by
  have hfront : (b.take n).length = n := by rw [List.length_take]; omega
  have hback : (b.drop n).length = m := by rw [List.length_drop]; omega
  nth_rewrite 1 [← List.take_append_drop n b]
  rw [clear_append (by rw [hfront, List.length_replicate]), clear_replicate_true hfront,
    clear_replicate_false hback]

theorem clear_back {m : Nat} (h : b.length = n + m) :
    clear b (List.replicate n false ++ List.replicate m true) = b.take n ++ zeros m := by
  have hfront : (b.take n).length = n := by rw [List.length_take]; omega
  have hback : (b.drop n).length = m := by rw [List.length_drop]; omega
  nth_rewrite 1 [← List.take_append_drop n b]
  rw [clear_append (by rw [hfront, List.length_replicate]), clear_replicate_false hfront,
    clear_replicate_true hback]

end Bytes

namespace AbiType

mutual

/-- Marks the bytes of the head that are not looked at when a value is read. Offsets are read as a
whole. -/
def ignored : AbiType → List Bool
  | address => List.replicate 12 true ++ List.replicate 20 false
  | fixedBytes length => List.replicate length false ++ List.replicate (wordSize - length) true
  | array elem length =>
    if isDynamic elem then List.replicate wordSize false
    else (List.replicate length (ignored elem)).flatten
  | tuple _ fields =>
    if anyDynamic fields then List.replicate wordSize false else ignoredInFields fields
  | _ => List.replicate wordSize false

def ignoredInFields : List (Field AbiType) → List Bool
  | [] => []
  | f :: rest => ignored f.type ++ ignoredInFields rest

end

theorem ignoredInFields_eq (fields : List (Field AbiType)) :
    ignoredInFields fields = (fields.map Field.type).flatMap ignored := by
  induction fields with
  | nil => rfl
  | cons f rest ih => rw [ignoredInFields, ih]; rfl

theorem length_flatMap_ignored {ts : List AbiType}
    (h : ∀ t ∈ ts, t.ignored.length = t.headWidth) :
    (ts.flatMap ignored).length = (ts.map headWidth).sum := by
  rw [List.length_flatMap, List.map_congr_left h]

/-- The marks are for the exact head. -/
theorem length_ignored {t : AbiType} (hn : t.Everywhere NumbersInRange) :
    t.ignored.length = t.headWidth := by
  induction t using induct with
  | fixedBytes length =>
    have hrange : 0 < length ∧ length ≤ wordSize := hn.here
    rw [ignored, List.length_append, List.length_replicate, List.length_replicate]
    exact Nat.add_sub_cancel' hrange.2
  | array elem length ih =>
    rw [ignored, headWidth]
    split
    · exact List.length_replicate
    · rw [List.length_flatten, List.map_replicate, List.sum_replicate_nat,
        ih (everywhere_array_iff.mp hn).2]
  | tuple structName fields ih =>
    rw [ignored, headWidth]
    split
    · exact List.length_replicate
    · rw [ignoredInFields_eq, headWidths_eq_sum]
      exact length_flatMap_ignored (List.forall_mem_map.mpr fun f hf ↦
        ih f hf ((everywhere_tuple_iff.mp hn).2 f hf))
  | _ => rfl

/-! ## Types without padding -/

/-- All bytes of a word of the type are looked at. -/
def ReadWhole : AbiType → Prop
  | address => False
  | fixedBytes length => length = wordSize
  | _ => True

instance : DecidablePred ReadWhole
  | address => inferInstanceAs (Decidable False)
  | fixedBytes length => inferInstanceAs (Decidable (length = wordSize))
  | uint _ | int _ | bool | string | bytes | function | slice _ | array _ _ | tuple _ _ =>
    inferInstanceAs (Decidable True)

theorem ignoredInFields_eq_replicate {fields : List (Field AbiType)}
    (h : ∀ f ∈ fields, f.type.ignored = List.replicate f.type.headWidth false) :
    ignoredInFields fields = List.replicate (headWidths fields) false := by
  induction fields with
  | nil => rfl
  | cons f rest ih =>
    obtain ⟨hf, hrest⟩ := List.forall_mem_cons.mp h
    rw [ignoredInFields, headWidths, hf, ih hrest, List.replicate_append_replicate]

theorem ignored_eq_replicate {t : AbiType} (h : t.Everywhere ReadWhole) :
    t.ignored = List.replicate t.headWidth false := by
  induction t using induct with
  | address => exact absurd h.here id
  | fixedBytes length =>
    obtain rfl : length = wordSize := h.here
    rfl
  | array elem length ih =>
    rw [ignored, headWidth]
    split
    · rfl
    · rw [ih (everywhere_array_iff.mp h).2, List.flatten_replicate_replicate]
  | tuple structName fields ih =>
    rw [ignored, headWidth]
    split
    · rfl
    · exact ignoredInFields_eq_replicate fun f hf ↦ ih f hf ((everywhere_tuple_iff.mp h).2 f hf)
  | _ => rfl

end AbiType

/-! ## Blocks of static parts -/

namespace Part

theorem heads_of_static {parts : List Part} (h : parts.any isDynamic = false) (offset : Nat) :
    heads offset parts = parts.flatMap bytes := by
  induction parts generalizing offset with
  | nil => rfl
  | cons p rest ih =>
    rw [List.any_cons, Bool.or_eq_false_iff] at h
    rw [heads_cons, ih h.2, headAt, h.1, if_neg Bool.false_ne_true, List.flatMap_cons]

/-- Static parts stand one after the other. -/
theorem standardBlock_of_static {parts : List Part} (h : parts.any isDynamic = false) :
    standardBlock parts = parts.flatMap bytes := by
  rw [standardBlock_eq, block, heads_of_static h, tails_eq_nil h, List.append_nil]

end Part

namespace AbiType

theorem standardBlock_map_standardPart {xs : List (AbiType × Value)}
    (h : ∀ x ∈ xs, x.1.isDynamic = false) :
    Part.standardBlock (xs.map standardPart) = xs.flatMap fun x ↦ x.1.encoding x.2 := by
  have hstatic : (xs.map standardPart).any Part.isDynamic = false := by
    rw [List.any_map, List.any_eq_false]
    exact fun x hx ↦ by simpa [standardPart] using h x hx
  rw [Part.standardBlock_of_static hstatic, List.flatMap_map]
  rfl

/-! ## Reading in place -/

/-- The head of the type at the position is the encoding of the value, up to the marked bytes. -/
def InPlace (t : AbiType) (data : Bytes) (index : Nat) (v : Value) : Prop :=
  ∃ b : Bytes, b.StandsAt data index ∧ b.length = t.headWidth ∧ t.encoding v = b.clear t.ignored

/-- Whatever is read under the type is in place. -/
def ReadInPlace (t : AbiType) : Prop :=
  ∀ (index : Nat) (data : Bytes) (v : Value), data.length < offsetLimit →
    t.unpack index data = .ok v → t.InPlace data index v

variable {data : Bytes} {index : Nat}

/-- Values that are read one after the other are in place one after the other. -/
theorem exists_standsAt_of_unpackTypes (hdata : data.length < offsetLimit) {ts : List AbiType}
    (hts : ∀ t ∈ ts, t.ReadInPlace) (hlengths : ∀ t ∈ ts, t.ignored.length = t.headWidth)
    (hindex : index ≤ data.length) {vs : List Value} (h : unpackTypes data ts index = .ok vs) :
    ∃ b : Bytes, b.StandsAt data index ∧ b.length = (ts.map headWidth).sum ∧
      ((ts.zip vs).flatMap fun x ↦ x.1.encoding x.2) = b.clear (ts.flatMap ignored) := by
  induction ts generalizing index vs with
  | nil => exact ⟨[], ⟨hindex, rfl⟩, rfl, rfl⟩
  | cons t ts ih =>
    obtain ⟨ht, hrest⟩ := List.forall_mem_cons.mp hts
    obtain ⟨hlength, hlengths⟩ := List.forall_mem_cons.mp hlengths
    obtain ⟨v, vs, hv, hvs, rfl⟩ := unpackTypes_cons_eq_ok_iff.mp h
    obtain ⟨b, hb, hwidth, hclear⟩ := ht _ _ _ hdata hv
    obtain ⟨c, hc, hsum, hclears⟩ := ih hrest hlengths (fitsWhereRead t hdata hv) hvs
    refine ⟨b ++ c, ?_, ?_, ?_⟩
    · rw [Bytes.standsAt_append_iff, hwidth]
      exact ⟨hb, hc⟩
    · rw [List.length_append, hwidth, hsum, List.map_cons, List.sum_cons]
    · rw [List.zip_cons_cons, List.flatMap_cons, List.flatMap_cons, hclear, hclears,
        Bytes.clear_append (by rw [hwidth, hlength])]

private theorem standsAt_of_drop {b : Bytes} (hindex : index ≤ data.length)
    (h : b.StandsAt (data.drop index) 0) : b.StandsAt data index :=
  ⟨hindex, h.2⟩

/-- A leaf is in place if its word comes back up to the marked bytes. -/
theorem readInPlace_word {t : AbiType} (ht : t.headWidth = wordSize)
    {read : Word → Except AbiError Value}
    (hread : ∀ index data, t.unpack index data = readWord data index >>= read)
    (hclear : ∀ w v, read w = .ok v → t.encoding v = (Word.toBytes w).clear t.ignored) :
    t.ReadInPlace := by
  intro index data v hdata h
  rw [hread, bind_eq_ok_iff] at h
  obtain ⟨w, hw, hv⟩ := h
  exact ⟨Word.toBytes w, (readWord_eq_ok_iff hdata).mp hw, by rw [ht, Word.length_toBytes],
    hclear w v hv⟩

/-- Of a word that is looked at as a whole all bytes come back. -/
theorem readInPlace_whole {t : AbiType} (ht : t.headWidth = wordSize)
    (hmarks : t.ignored = List.replicate wordSize false) {read : Word → Except AbiError Value}
    (hread : ∀ index data, t.unpack index data = readWord data index >>= read)
    (hword : ∀ w v, read w = .ok v → t.encoding v = Word.toBytes w) : t.ReadInPlace := by
  refine readInPlace_word ht hread fun w v h ↦ ?_
  rw [hmarks, Bytes.clear_replicate_false (Word.length_toBytes w), hword w v h]

theorem readInPlace_uint (bits : Nat) : (uint bits).ReadInPlace := by
  refine readInPlace_whole rfl rfl (fun _ _ ↦ by rw [unpack]) fun w v h ↦ ?_
  rw [readUint] at h
  split at h
  · cases h
    exact numberWord_toNat w
  · cases h

theorem readInPlace_int (bits : Nat) : (int bits).ReadInPlace := by
  refine readInPlace_whole rfl rfl (fun _ _ ↦ by rw [unpack]) fun w v h ↦ ?_
  rw [readInt] at h
  split at h
  · cases h
    exact numberWord_toInt w
  · cases h

/-- Only the words 0 and 1 are taken for booleans. -/
theorem readInPlace_bool : bool.ReadInPlace := by
  refine readInPlace_whole rfl rfl (fun _ _ ↦ by rw [unpack]) fun w v h ↦ ?_
  rw [readBool] at h
  split at h
  · subst w
    cases h
    rfl
  · split at h
    · subst w
      cases h
      rfl
    · cases h

/-- The bytes behind the function have been compared with zeros. -/
theorem readInPlace_function : function.ReadInPlace := by
  refine readInPlace_whole rfl rfl (fun _ _ ↦ by rw [unpack]) fun w v h ↦ ?_
  rw [readFunction] at h
  split at h
  · rename_i hzeros
    cases h
    rw [encoding, ← hzeros, List.take_append_drop]
  · cases h

theorem readInPlace_address : address.ReadInPlace := by
  refine readInPlace_word rfl (fun _ _ ↦ by rw [unpack]) fun w v h ↦ ?_
  cases h
  rw [readAddress, encoding, ignored, Bytes.clear_front (Word.length_toBytes w)]

theorem readInPlace_fixedBytes {length : Nat} (hlength : length ≤ wordSize) :
    (fixedBytes length).ReadInPlace := by
  refine readInPlace_word rfl (fun _ _ ↦ by rw [unpack]) fun w v h ↦ ?_
  cases h
  rw [readFixedBytes, encoding, ignored, Bytes.clear_back
    (by rw [Word.length_toBytes, Nat.add_sub_cancel' hlength])]
  rfl

/-- Elements that were read in place are the array's encoding, up to the marked bytes. -/
theorem readInPlace_array {elem : AbiType} {length : Nat}
    (hn : elem.Everywhere NumbersInRange) (hs : elem.isDynamic = false) (helem : elem.ReadInPlace) :
    (array elem length).ReadInPlace := by
  intro index data v hdata h
  obtain ⟨hin, -, items, hitems, rfl⟩ :=
    (unpack_array_inPlace_iff hdata elem.fitsWhereRead hs).mp h
  have hlength := length_of_unpackTypes hitems
  rw [List.length_replicate] at hlength
  obtain ⟨b, hb, hwidth, hclear⟩ := exists_standsAt_of_unpackTypes (length_drop_lt hdata)
    (fun t ht ↦ by rwa [List.eq_of_mem_replicate ht])
    (fun t ht ↦ by rw [List.eq_of_mem_replicate ht, length_ignored hn]) (Nat.zero_le _) hitems
  have hzip : items.map (elem, ·) = (List.replicate length elem).zip items :=
    List.zip_of_prod (hlength ▸ map_fst_map_pair elem items) (by
      rw [List.map_map]
      exact List.map_id items)
  refine ⟨b, standsAt_of_drop (by omega) hb, ?_, ?_⟩
  · rw [hwidth, List.map_replicate, List.sum_replicate_nat, headWidth, hs,
      if_neg Bool.false_ne_true]
  · rw [encoding, ← itemParts, itemParts_eq,
      standardBlock_map_standardPart (List.forall_mem_map.mpr fun _ _ ↦ hs), hzip, hclear,
      ignored, hs, if_neg Bool.false_ne_true, List.flatMap_replicate]

/-- Fields are found by their raw names, so these have to be distinct for each to get its own value
back. -/
theorem readInPlace_tuple {structName : String} {fields : List (Field AbiType)}
    (hn : ∀ f ∈ fields, f.type.Everywhere NumbersInRange)
    (hnames : (fields.map Field.rawName).Nodup) (hs : anyDynamic fields = false)
    (hfields : ∀ f ∈ fields, f.type.ReadInPlace) : (tuple structName fields).ReadInPlace := by
  intro index data v hdata h
  obtain ⟨hin, values, hvalues, rfl⟩ :=
    (unpack_tuple_inPlace_iff hdata (fun f _ ↦ f.type.fitsWhereRead) hs).mp h
  have hlength := length_of_unpackTypes hvalues
  rw [List.length_map] at hlength
  obtain ⟨b, hb, hwidth, hclear⟩ := exists_standsAt_of_unpackTypes (length_drop_lt hdata)
    (List.forall_mem_map.mpr hfields)
    (List.forall_mem_map.mpr fun f hf ↦ length_ignored (hn f hf)) (Nat.zero_le _) hvalues
  refine ⟨b, standsAt_of_drop hin hb, ?_, ?_⟩
  · rw [hwidth, headWidth, hs, if_neg Bool.false_ne_true, headWidths_eq_sum]
  · rw [encoding, fieldParts_eq (forall₂_firstEntry_of_nodup hnames hlength.symm),
      standardBlock_map_standardPart (forall_mem_zip_types fun f hf _ ↦
        anyDynamic_eq_false_iff.mp hs f hf), hclear, ignored, hs, if_neg Bool.false_ne_true,
      ignoredInFields_eq]

/-- Static values are read in place, whatever the nesting. -/
theorem readInPlace_of_static {t : AbiType} (hn : t.Everywhere NumbersInRange)
    (hd : t.Everywhere DistinctRawNames) (hs : t.isDynamic = false) : t.ReadInPlace := by
  induction t using induct with
  | uint bits => exact readInPlace_uint bits
  | int bits => exact readInPlace_int bits
  | bool => exact readInPlace_bool
  | string => cases hs
  | bytes => cases hs
  | fixedBytes length =>
    have hrange : 0 < length ∧ length ≤ wordSize := hn.here
    exact readInPlace_fixedBytes hrange.2
  | address => exact readInPlace_address
  | function => exact readInPlace_function
  | slice elem _ => cases hs
  | array elem length ih =>
    rw [isDynamic] at hs
    have helem := (everywhere_array_iff.mp hn).2
    exact readInPlace_array helem hs (ih helem (everywhere_array_iff.mp hd).2 hs)
  | tuple structName fields ih =>
    rw [isDynamic] at hs
    have hfields := (everywhere_tuple_iff.mp hn).2
    obtain ⟨hnames, hdistinct⟩ := everywhere_tuple_iff.mp hd
    exact readInPlace_tuple hfields hnames hs fun f hf ↦
      ih f hf (hfields f hf) (hdistinct f hf) (anyDynamic_eq_false_iff.mp hs f hf)

/-- **What reading in place ignores.** A static value that was read had its exact head in the
payload, and it packs to the bytes that were there, with the padding set to zero; if the type has
no padding, to exactly these bytes. Wherever else the same value is read, the bytes that count are
the same. -/
theorem pack_eq_clear_of_unpack {t : AbiType} (ht : t.Parsed) (hs : t.isDynamic = false)
    (hd : t.Everywhere DistinctRawNames) {index : Nat} {data : Bytes} {v : Value}
    (hdata : data.length < offsetLimit) (h : t.unpack index data = .ok v) :
    index + t.headSize ≤ data.length ∧
      t.pack v = .ok (Bytes.clear ((data.drop index).take t.headSize) t.ignored) ∧
      (t.Everywhere ReadWhole → t.pack v = .ok ((data.drop index).take t.headSize)) ∧
      ∀ (index' : Nat) (data' : Bytes), data'.length < offsetLimit →
        t.unpack index' data' = .ok v →
        Bytes.clear ((data'.drop index').take t.headSize) t.ignored
          = Bytes.clear ((data.drop index).take t.headSize) t.ignored := by
  have hn := ht.numbersInRange
  have hlimit := offsetLimit_le_limit
  have hread {index : Nat} {data : Bytes} (hdata : data.length < offsetLimit)
      (h : t.unpack index data = .ok v) : index + t.headWidth ≤ data.length ∧
        t.encoding v = Bytes.clear ((data.drop index).take t.headWidth) t.ignored := by
    obtain ⟨b, hb, hwidth, hclear⟩ := readInPlace_of_static hn hd hs _ _ _ hdata h
    rw [← hwidth, hb.2]
    exact ⟨hb.length_le, hclear⟩
  obtain ⟨hle, hclear⟩ := hread hdata h
  have hlength : ((data.drop index).take t.headWidth).length = t.headWidth := by
    rw [List.length_take, List.length_drop]
    omega
  have hencoding : (t.encoding v).length ≤ Count.limit := by
    rw [hclear, Bytes.length_clear (by rw [hlength, length_ignored hn]), hlength]
    omega
  have hpack : t.pack v = .ok (t.encoding v) := by
    obtain ⟨b, hb⟩ := exists_pack_of_inhabits hn hd (inhabits_of_unpack hn _ _ _ hdata h) hencoding
    rw [hb, (standard_of_pack hn hb).1]
  rw [headSize_eq_headWidth (by omega)]
  refine ⟨hle, hclear ▸ hpack, fun hwhole ↦ ?_, fun index' data' hdata' h' ↦ ?_⟩
  · rwa [hclear, ignored_eq_replicate hwhole, Bytes.clear_replicate_false hlength] at hpack
  · rw [← hclear, ← (hread hdata' h').2]

/-- Padding that is not zero comes back as zero; integers, booleans and functions have none. -/
theorem pack_eq_clear_of_unpack_padded :
    let padded := tuple "" [⟨"owners", "Owners", array address 2⟩, ⟨"tag", "Tag", fixedBytes 2⟩]
    let whole := tuple "" [⟨"level", "Level", int 8⟩, ⟨"f", "F", function⟩,
      ⟨"set", "Set", array bool 2⟩]
    let owner (x : UInt8) : Block 20 := ⟨List.replicate 20 x, List.length_replicate⟩
    let v := Value.tuple [("owners", .array [.address (owner 1), .address (owner 2)]),
      ("tag", .fixedBytes [3, 4])]
    let dirty := 0 :: (List.replicate 12 7 ++ (owner 1).val ++ List.replicate 12 8 ++ (owner 2).val
      ++ [3, 4] ++ List.replicate 30 9)
    let clean := Bytes.zeros 12 ++ (owner 1).val ++ Bytes.zeros 12 ++ (owner 2).val ++ [3, 4]
      ++ Bytes.zeros 30
    let v' := Value.tuple [("level", .int (-1)), ("f", .function ⟨List.replicate 24 5, rfl⟩),
      ("set", .array [.bool true, .bool false])]
    let block := List.replicate 32 255 ++ List.replicate 24 5 ++ Bytes.zeros 8 ++ countWord 1
      ++ countWord 0
    (padded.unpack 1 dirty = .ok v ∧ padded.pack v = .ok clean ∧ padded.unpack 0 clean = .ok v) ∧
      whole.unpack 1 (0 :: block) = .ok v' ∧ whole.pack v' = .ok block := by
  intro padded whole owner v dirty clean v' block
  have hpadded : padded.Parsed := ⟨"tuple", "", [⟨"owners", "address[2]", none, [], false⟩,
    ⟨"tag", "bytes2", none, [], false⟩], by decide +kernel⟩
  have hwhole : whole.Parsed := ⟨"tuple", "", [⟨"level", "int8", none, [], false⟩,
    ⟨"f", "function", none, [], false⟩, ⟨"set", "bool[2]", none, [], false⟩], by decide +kernel⟩
  have hdirty : padded.unpack 1 dirty = .ok v := by decide +kernel
  have hclean : padded.unpack 0 clean = .ok v := by decide +kernel
  have hblock : whole.unpack 1 (0 :: block) = .ok v' := by decide +kernel
  obtain ⟨-, hpack, -, -⟩ := pack_eq_clear_of_unpack hpadded (by decide) (by decide)
    (by decide +kernel) hdirty
  obtain ⟨-, -, hpack', -⟩ := pack_eq_clear_of_unpack hwhole (by decide) (by decide)
    (by decide +kernel) hblock
  refine ⟨⟨hdirty, ?_, hclean⟩, hblock, ?_⟩
  · rw [hpack]
    decide +kernel
  · rw [hpack' (by decide)]
    decide +kernel

end AbiType

end ContractAbi
