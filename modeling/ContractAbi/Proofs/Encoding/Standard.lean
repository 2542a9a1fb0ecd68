import ContractAbi.Proofs.Encoding.Packing
import ContractAbi.Proofs.Encoding.Tiling

/-!
# The encoding of the format

`AbiType.encoding` is the encoding as the format defines it: by recursion on the type, with numbers
as numbers and blocks by sums. It says nothing about values that a type does not take. Whatever
packing accepts it encodes so, and every block on the way, at any depth, is tiled.
-/

namespace ContractAbi

namespace AbiType

/-! ## Definition -/

/-- The word of a number, in two's complement. -/
def numberWord (n : Int) : Bytes := Word.toBytes (BitVec.ofInt 256 n)

/-- Content behind its length, filled up to whole words. -/
def contentWords (content : Bytes) : Bytes :=
  countWord content.length ++ (content ++ padding content)

mutual

def encoding : AbiType → Value → Bytes
  | .uint _, v | .int _, v => (v.integer?.map numberWord).getD []
  | .bool, .bool c => numberWord (if c then 1 else 0)
  | .string, .string s => contentWords s.toUTF8.data.toList
  | .bytes, v => (v.bytes?.map contentWords).getD []
  | .fixedBytes length, v => (v.bytes?.map (· ++ Bytes.zeros (wordSize - length))).getD []
  | .address, .address a => Bytes.zeros 12 ++ a.val
  | .function, .function f => f.val ++ Bytes.zeros 8
  | .slice elem, .array items =>
    countWord items.length ++
      Part.standardBlock (items.map fun v ↦ ⟨elem.isDynamic, encoding elem v⟩)
  | .array elem _, .array items =>
    Part.standardBlock (items.map fun v ↦ ⟨elem.isDynamic, encoding elem v⟩)
  | .tuple _ fields, .tuple entries => Part.standardBlock (fieldParts fields entries)
  | _, _ => []

/-- The components of a tuple in the order of the fields, each with the first entry of its name. -/
def fieldParts : List (Field AbiType) → List (String × Value) → List Part
  | [], _ => []
  | f :: fields, entries =>
    ⟨f.type.isDynamic, ((entries.lookup f.rawName).map (encoding f.type)).getD []⟩ ::
      fieldParts fields entries

end

/-- The components of a slice or an array. -/
def itemParts (elem : AbiType) (items : List Value) : List Part :=
  items.map fun v ↦ ⟨elem.isDynamic, encoding elem v⟩

mutual

/-- The components of all blocks in the encoding of a value, block by block. -/
def blocks : AbiType → Value → List (List Part)
  | .slice elem, .array items | .array elem _, .array items =>
    itemParts elem items :: items.flatMap fun v ↦ blocks elem v
  | .tuple _ fields, .tuple entries => fieldParts fields entries :: fieldBlocks fields entries
  | _, _ => []

def fieldBlocks : List (Field AbiType) → List (String × Value) → List (List Part)
  | [], _ => []
  | f :: fields, entries =>
    ((entries.lookup f.rawName).map (blocks f.type)).getD [] ++ fieldBlocks fields entries

end

end AbiType

namespace Arguments

/-- The components of an argument list, one argument each. -/
def components (args : Arguments) (values : List Value) : List Part :=
  (args.zip values).map fun (a, v) ↦ ⟨a.type.isDynamic, a.type.encoding v⟩

def blocks (args : Arguments) (values : List Value) : List (List Part) :=
  args.components values :: (args.zip values).flatMap fun (a, v) ↦ a.type.blocks v

end Arguments

namespace AbiType

/-! ## Leaves -/

theorem numberWord_toNat (w : Word) : numberWord w.toNat = Word.toBytes w := by
  rw [numberWord, BitVec.ofInt_natCast, BitVec.ofNat_toNat, BitVec.setWidth_eq]

theorem numberWord_toInt (w : Word) : numberWord w.toInt = Word.toBytes w := by
  rw [numberWord, BitVec.ofInt_toInt]

theorem encoding_uint {bits : Nat} {v : Value} {b : Bytes} (h : (uint bits).pack v = .ok b) :
    (uint bits).encoding v = b := by
  obtain ⟨w, rfl, -, rfl | ⟨rfl, -⟩⟩ := pack_uint_eq_ok_iff.mp h
  · exact numberWord_toNat w
  · exact numberWord_toInt w

theorem encoding_int {bits : Nat} {v : Value} {b : Bytes} (h : (int bits).pack v = .ok b) :
    (int bits).encoding v = b := by
  obtain ⟨w, rfl, ⟨rfl, -⟩ | ⟨rfl, -⟩⟩ := pack_int_eq_ok_iff.mp h
  · exact numberWord_toInt w
  · exact numberWord_toNat w

theorem leadingWord_eq {b : Bytes} (h : b.length ≤ wordSize) :
    leadingWord b = b ++ Bytes.zeros (wordSize - b.length) := by
  rw [leadingWord, List.take_of_length_le h]

/-! ## Components -/

/-- The part of a pair, by the definition of the format. -/
def standardPart (x : AbiType × Value) : Part := ⟨x.1.isDynamic, x.1.encoding x.2⟩

theorem eq_map_standardPart {xs : List (AbiType × Value)} {parts : List Part}
    (h : List.Forall₂ Packed xs parts)
    (he : ∀ x ∈ xs, ∀ b, x.1.pack x.2 = .ok b → x.1.encoding x.2 = b) :
    xs.map standardPart = parts := by
  induction h with
  | nil => rfl
  | @cons x p _ _ hx _ ih =>
    obtain ⟨hhead, hrest⟩ := List.forall_mem_cons.mp he
    rw [List.map_cons, ih hrest, standardPart, hhead _ hx.2, ← hx.1]

theorem itemParts_eq (elem : AbiType) (items : List Value) :
    itemParts elem items = (items.map (elem, ·)).map standardPart := by
  rw [itemParts, List.map_map]
  rfl

theorem fieldParts_eq {fields : List (Field AbiType)} {entries : List (String × Value)}
    {values : List Value} (h : List.Forall₂ (FirstEntry entries) fields values) :
    fieldParts fields entries = ((fields.map Field.type).zip values).map standardPart := by
  induction h with
  | nil => rfl
  | @cons f v _ _ hf _ ih =>
    rw [FirstEntry] at hf
    rw [fieldParts, ih, hf, List.map_cons, List.zip_cons_cons, List.map_cons]
    rfl

theorem components_eq (args : Arguments) (values : List Value) :
    args.components values = ((args.map Argument.type).zip values).map standardPart := by
  rw [Arguments.components, List.zip_map_left, List.map_map]
  rfl

theorem wellSized_of_sized {xs : List (AbiType × Value)} {parts : List Part}
    (h : List.Forall₂ Sized xs parts) (hlen : (Part.block parts).length ≤ Count.limit) :
    Part.WellSized parts := by
  have hmem : ∀ p ∈ parts, ∃ x, Sized x p := forall_mem_of_forall₂ h fun x _ _ hx ↦ ⟨x, hx⟩
  refine ⟨fun p hp ↦ ?_, fun p hp hd ↦ ?_, hlen⟩
  · obtain ⟨x, hx⟩ := hmem p hp
    exact hx.2.aligned
  · obtain ⟨x, hx⟩ := hmem p hp
    have hle := hx.2.dynamic (by rw [← hx.1.1, hd])
    exact List.ne_nil_of_length_pos (Nat.lt_of_lt_of_le (by decide) hle)

/-! ## Packing follows the definition -/

/-- The bytes are the encoding of the value, and every block in it is tiled. -/
def Standard (t : AbiType) (v : Value) (b : Bytes) : Prop :=
  t.encoding v = b ∧ ∀ parts ∈ t.blocks v, Part.Tiled parts

/-- The block of pairs that are encoded by the definition. -/
theorem standard_block {xs : List (AbiType × Value)} {parts : List Part}
    (h : List.Forall₂ Packed xs parts) (hlen : (Part.block parts).length ≤ Count.limit)
    (hn : ∀ x ∈ xs, x.1.Everywhere NumbersInRange)
    (hs : ∀ x ∈ xs, ∀ b, x.1.pack x.2 = .ok b → x.1.Standard x.2 b) :
    Part.standardBlock (xs.map standardPart) = Part.block parts ∧
      ∀ ps ∈ xs.map standardPart :: xs.flatMap fun x ↦ x.1.blocks x.2, Part.Tiled ps := by
  rw [eq_map_standardPart h fun x hx b hb ↦ (hs x hx b hb).1]
  refine ⟨Part.standardBlock_eq parts, List.forall_mem_cons.mpr ⟨?_, fun ps hps ↦ ?_⟩⟩
  · exact (wellSized_of_sized (sized_of_numbersInRange h hn) hlen).tiled
  · obtain ⟨x, hx, hps⟩ := List.mem_flatMap.mp hps
    obtain ⟨b, hb⟩ := exists_pack_of_mem h hx
    exact (hs x hx b hb).2 ps hps

theorem blocks_items (elem : AbiType) (items : List Value) :
    (items.flatMap fun v ↦ elem.blocks v)
      = (items.map (elem, ·)).flatMap fun x ↦ x.1.blocks x.2 := by
  rw [List.flatMap_map]

theorem blocks_arguments (args : Arguments) (values : List Value) :
    ((args.zip values).flatMap fun (a, v) ↦ a.type.blocks v)
      = ((args.map Argument.type).zip values).flatMap fun x ↦ x.1.blocks x.2 := by
  rw [List.zip_map_left, List.flatMap_map]
  rfl

theorem fieldBlocks_eq {fields : List (Field AbiType)} {entries : List (String × Value)}
    {values : List Value} (h : List.Forall₂ (FirstEntry entries) fields values) :
    fieldBlocks fields entries
      = ((fields.map Field.type).zip values).flatMap fun x ↦ x.1.blocks x.2 := by
  induction h with
  | nil => rfl
  | @cons f v _ _ hf _ ih =>
    rw [FirstEntry] at hf
    rw [fieldBlocks, ih, hf, List.map_cons, List.zip_cons_cons, List.flatMap_cons]
    rfl

theorem standard_of_pack {t : AbiType} (hn : t.Everywhere NumbersInRange) {v : Value} {b : Bytes}
    (h : t.pack v = .ok b) : t.Standard v b := by
  induction t using induct generalizing v b with
  | uint bits => exact ⟨encoding_uint h, List.forall_mem_nil _⟩
  | int bits => exact ⟨encoding_int h, List.forall_mem_nil _⟩
  | bool =>
    obtain ⟨c, rfl, rfl⟩ := pack_bool_eq_ok_iff.mp h
    refine ⟨?_, List.forall_mem_nil _⟩
    cases c <;> rfl
  | string =>
    obtain ⟨s, rfl, rfl⟩ := pack_string_eq_ok_iff.mp h
    exact ⟨(counted_eq _).symm, List.forall_mem_nil _⟩
  | bytes =>
    obtain ⟨c, hc, rfl⟩ := pack_bytes_eq_ok_iff.mp h
    refine ⟨?_, List.forall_mem_nil _⟩
    rw [encoding, hc, counted_eq]
    rfl
  | fixedBytes length =>
    obtain ⟨c, hc, rfl, rfl⟩ := pack_fixedBytes_eq_ok_iff.mp h
    refine ⟨?_, List.forall_mem_nil _⟩
    rw [encoding, hc, leadingWord_eq hn.here.2]
    rfl
  | address =>
    obtain ⟨a, rfl, rfl⟩ := pack_address_eq_ok_iff.mp h
    refine ⟨?_, List.forall_mem_nil _⟩
    rw [encoding, trailingWord, a.property]
    rfl
  | function =>
    obtain ⟨f, rfl, rfl⟩ := pack_function_eq_ok_iff.mp h
    refine ⟨?_, List.forall_mem_nil _⟩
    rw [encoding, leadingWord_eq (by rw [f.property]; decide), f.property]
    rfl
  | slice elem ih =>
    have helem := (everywhere_slice_iff.mp hn).2
    obtain ⟨items, parts, rfl, hparts, hlen, rfl⟩ := pack_slice_eq_ok_iff.mp h
    obtain ⟨hblock, htiled⟩ := standard_block hparts hlen
      (List.forall_mem_map.mpr fun _ _ ↦ helem)
      (List.forall_mem_map.mpr fun _ _ _ hb ↦ ih helem hb)
    rw [← itemParts_eq] at hblock htiled
    rw [Standard, encoding, ← itemParts, hblock, blocks, blocks_items]
    exact ⟨rfl, htiled⟩
  | array elem length ih =>
    have helem := (everywhere_array_iff.mp hn).2
    obtain ⟨items, parts, rfl, -, hparts, hlen, rfl⟩ := pack_array_eq_ok_iff.mp h
    obtain ⟨hblock, htiled⟩ := standard_block hparts hlen
      (List.forall_mem_map.mpr fun _ _ ↦ helem)
      (List.forall_mem_map.mpr fun _ _ _ hb ↦ ih helem hb)
    rw [← itemParts_eq] at hblock htiled
    rw [Standard, encoding, ← itemParts, hblock, blocks, blocks_items]
    exact ⟨rfl, htiled⟩
  | tuple structName fields ih =>
    have hfields := (everywhere_tuple_iff.mp hn).2
    obtain ⟨entries, values, parts, rfl, hvalues, hparts, hlen, rfl⟩ := pack_tuple_eq_ok_iff.mp h
    obtain ⟨hblock, htiled⟩ := standard_block hparts hlen
      (forall_mem_zip_types fun f hf _ ↦ hfields f hf)
      (forall_mem_zip_types fun f hf _ _ hb ↦ ih f hf (hfields f hf) hb)
    rw [← fieldParts_eq hvalues] at hblock htiled
    rw [Standard, encoding, hblock, blocks, fieldBlocks_eq hvalues]
    exact ⟨rfl, htiled⟩

end AbiType

/-- **Packing is the encoding of the format**, for values and for argument lists, and the offsets
of every block in it lead to payloads that fill the block. -/
theorem pack_eq_encoding :
    (∀ (t : AbiType) (v : Value) (b : Bytes), t.Parsed → t.pack v = .ok b →
      b = t.encoding v ∧ ∀ parts ∈ t.blocks v, Part.Tiled parts) ∧
    (∀ (args : Arguments) (values : List Value) (b : Bytes), (∀ a ∈ args, a.type.Parsed) →
      args.pack values = .ok b →
      b = Part.standardBlock (args.components values) ∧
        ∀ parts ∈ args.blocks values, Part.Tiled parts) := by
  refine ⟨fun t v b ht h ↦ ?_, fun args values b hargs h ↦ ?_⟩
  · obtain ⟨hb, htiled⟩ := AbiType.standard_of_pack ht.numbersInRange h
    exact ⟨hb.symm, htiled⟩
  · obtain ⟨parts, -, hparts, hlen, rfl⟩ := Arguments.pack_eq_ok_iff.mp h
    have hn (a : Argument) (ha : a ∈ args) := (hargs a ha).numbersInRange
    obtain ⟨hblock, htiled⟩ := AbiType.standard_block hparts hlen
      (AbiType.forall_mem_zip_types fun a ha _ ↦ hn a ha)
      (AbiType.forall_mem_zip_types fun a ha _ _ hb ↦ AbiType.standard_of_pack (hn a ha) hb)
    rw [← AbiType.components_eq] at hblock htiled
    rw [Arguments.blocks, AbiType.blocks_arguments]
    exact ⟨hblock.symm, htiled⟩

/-- An array of two byte strings, and the same array behind a number as two arguments. -/
theorem pack_eq_encoding_byte_strings :
    countWord 64 ++ countWord 128 ++ AbiType.counted [1] ++ AbiType.counted [2, 3]
        = (AbiType.array .bytes 2).encoding (.array [.bytes [1], .bytes [2, 3]]) ∧
      countWord 5 ++ countWord 64 ++ countWord 64 ++ countWord 128 ++ AbiType.counted [1]
          ++ AbiType.counted [2, 3]
        = Part.standardBlock (Arguments.components
            [⟨"n", .uint 8, false⟩, ⟨"b", .array .bytes 2, false⟩]
            [.uint 5, .array [.bytes [1], .bytes [2, 3]]]) := by
  have hbytes : (AbiType.array .bytes 2).Parsed := ⟨"bytes[2]", "", [], rfl⟩
  have hargs : Arguments.ofDescriptors [{ name := "n", type := "uint8" },
      { name := "b", type := "bytes[2]" }]
      = .ok [⟨"n", .uint 8, false⟩, ⟨"b", .array .bytes 2, false⟩] := rfl
  constructor
  · exact (pack_eq_encoding.1 _ _ _ hbytes (by decide +kernel)).1
  · exact (pack_eq_encoding.2 _ _ _ (Arguments.parsed_of_ofDescriptors hargs)
      (by decide +kernel)).1

end ContractAbi
