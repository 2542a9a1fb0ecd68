import ContractAbi.Proofs.Segments

/-!
# Blocks

What a block of heads and tails looks like from outside. It is written in one pass with a running
offset; here it is compared with the definition by sums, where the offset of a part is the length
of all heads and of the tails before it, and with what a reader of the block finds at the position
of each head.

## Placement

`Part.PlacedAt` is the reader's view of one part: a static part stands at its position, a dynamic
part stands where the word at its position says. `Part.AllPlaced` is the same for parts whose heads
follow one another. Both only speak of what is there, so they hold of every payload that has the
block at its front.
-/

namespace ContractAbi

namespace Part

/-! ## Lengths -/

def headTotal (parts : List Part) : Nat := (parts.map headLength).sum

def tailTotal (parts : List Part) : Nat := (parts.map tailLength).sum

@[simp] theorem headTotal_nil : headTotal [] = 0 := rfl

@[simp] theorem headTotal_cons (p : Part) (rest : List Part) :
    headTotal (p :: rest) = p.headLength + headTotal rest := by
  rw [headTotal, headTotal, List.map_cons, List.sum_cons]

@[simp] theorem tailTotal_nil : tailTotal [] = 0 := rfl

@[simp] theorem tailTotal_cons (p : Part) (rest : List Part) :
    tailTotal (p :: rest) = p.tailLength + tailTotal rest := by
  rw [tailTotal, tailTotal, List.map_cons, List.sum_cons]

theorem headLength_of_dynamic {p : Part} (h : p.isDynamic = true) : p.headLength = wordSize := by
  rw [headLength, if_pos h]

theorem headLength_of_static {p : Part} (h : p.isDynamic = false) :
    p.headLength = p.bytes.length := by
  rw [headLength, h, if_neg Bool.false_ne_true]

theorem tailLength_of_dynamic {p : Part} (h : p.isDynamic = true) :
    p.tailLength = p.bytes.length := by
  rw [tailLength, if_pos h]

theorem tailLength_of_static {p : Part} (h : p.isDynamic = false) : p.tailLength = 0 := by
  rw [tailLength, h, if_neg Bool.false_ne_true]

/-! ## The head and the tail of a block -/

/-- What a part puts into the head, its tail being `offset` bytes from the front. -/
def headAt (offset : Nat) (p : Part) : Bytes :=
  if p.isDynamic then countWord offset else p.bytes

def tail (p : Part) : Bytes :=
  if p.isDynamic then p.bytes else []

theorem heads_cons (offset : Nat) (p : Part) (rest : List Part) :
    heads offset (p :: rest) = p.headAt offset ++ heads (offset + p.tailLength) rest := rfl

theorem tails_cons (p : Part) (rest : List Part) : tails (p :: rest) = p.tail ++ tails rest := rfl

@[simp] theorem length_headAt (offset : Nat) (p : Part) :
    (p.headAt offset).length = p.headLength := by
  rw [headAt, headLength]
  split
  · exact length_countWord offset
  · rfl

@[simp] theorem length_tail (p : Part) : p.tail.length = p.tailLength := by
  rw [tail, tailLength]
  split <;> rfl

@[simp] theorem length_heads (offset : Nat) (parts : List Part) :
    (heads offset parts).length = headTotal parts := by
  induction parts generalizing offset with
  | nil => rfl
  | cons p rest ih => rw [heads_cons, List.length_append, length_headAt, ih, headTotal_cons]

@[simp] theorem length_tails (parts : List Part) : (tails parts).length = tailTotal parts := by
  induction parts with
  | nil => rfl
  | cons p rest ih => rw [tails_cons, List.length_append, length_tail, ih, tailTotal_cons]

/-! ## Blocks -/

/-- The block of the parts, however long. -/
def block (parts : List Part) : Bytes :=
  heads (headTotal parts) parts ++ tails parts

theorem length_block (parts : List Part) :
    (block parts).length = headTotal parts + tailTotal parts := by
  rw [block, List.length_append, length_heads, length_tails]

private theorem foldlM_add?_eq_some_iff (ns : List Nat) {a c : Nat} (ha : a ≤ Count.limit) :
    ns.foldlM Count.add? a = some c ↔ a + ns.sum ≤ Count.limit ∧ a + ns.sum = c := by
  induction ns generalizing a with
  | nil => simp [ha]
  | cons n ns ih =>
    rw [List.foldlM_cons, List.sum_cons, ← Nat.add_assoc]
    by_cases hn : a + n ≤ Count.limit
    · rw [Count.add?_eq_some_iff.mpr ⟨hn, rfl⟩]
      exact ih hn
    · rw [Count.add?, if_neg hn]
      constructor
      · intro h
        cases h
      · rintro ⟨h, -⟩
        omega

/-- A layout is the block, provided that its length is a count. -/
theorem layout_eq_ok_iff {parts : List Part} {b : Bytes} :
    layout parts = .ok b ↔ (block parts).length ≤ Count.limit ∧ block parts = b := by
  have hhead {c : Nat} : (parts.map headLength).foldlM Count.add? 0 = some c ↔
      headTotal parts ≤ Count.limit ∧ headTotal parts = c := by
    rw [foldlM_add?_eq_some_iff _ (Nat.zero_le _), Nat.zero_add, headTotal]
  rw [layout, length_block]
  split
  · rename_i hnone
    constructor
    · intro h
      cases h
    · rintro ⟨hle, -⟩
      have hsome := hhead.mpr ⟨Nat.le_of_add_right_le hle, rfl⟩
      rw [hnone] at hsome
      cases hsome
  · rename_i total htotal
    obtain ⟨hle, rfl⟩ := hhead.mp htotal
    have htail {c : Nat} : (parts.map tailLength).foldlM Count.add? (headTotal parts) = some c ↔
        headTotal parts + tailTotal parts ≤ Count.limit ∧
          headTotal parts + tailTotal parts = c :=
      foldlM_add?_eq_some_iff _ hle
    split
    · rename_i hnone
      constructor
      · intro h
        cases h
      · rintro ⟨hle, -⟩
        have hsome := htail.mpr ⟨hle, rfl⟩
        rw [hnone] at hsome
        cases hsome
    · rename_i whole hwhole
      rw [Except.ok.injEq, block]
      exact ⟨fun h ↦ ⟨(htail.mp hwhole).1, h⟩, And.right⟩

/-! ## Placement -/

/-- A reader at `index` of the block that is at the front of `data` finds the part. -/
def PlacedAt (p : Part) (data : Bytes) (index : Nat) : Prop :=
  if p.isDynamic then
    ∃ w : Word, (Word.toBytes w).StandsAt data index ∧ p.bytes.StandsAt data w.toNat
  else
    p.bytes.StandsAt data index

/-- The same for all parts, the head of the first one being at `index`. -/
def AllPlaced : List Part → (data : Bytes) → (index : Nat) → Prop
  | [], _, _ => True
  | p :: rest, data, index => p.PlacedAt data index ∧ AllPlaced rest data (index + p.headLength)

/-- With a running offset: the rest of the heads at `index`, the rest of the tails at `offset`. -/
theorem allPlaced_of_heads_of_tails {data : Bytes} (hdata : data.length < Word.modulus)
    {parts : List Part} {offset index : Nat} (hheads : (heads offset parts).StandsAt data index)
    (htails : (tails parts).StandsAt data offset) : AllPlaced parts data index := by
  induction parts generalizing offset index with
  | nil => trivial
  | cons p rest ih =>
    rw [heads_cons, Bytes.standsAt_append_iff, length_headAt] at hheads
    rw [tails_cons, Bytes.standsAt_append_iff, length_tail] at htails
    refine ⟨?_, ih hheads.2 htails.2⟩
    have hhead := hheads.1
    have htail := htails.1
    rw [headAt] at hhead
    rw [tail] at htail
    rw [PlacedAt]
    split
    · rename_i hd
      rw [if_pos hd] at hhead htail
      -- the offset is a position of the payload, so the word holds it in full
      have hoffset : (BitVec.ofNat 256 offset).toNat = offset :=
        Nat.mod_eq_of_lt (Nat.lt_of_le_of_lt htail.1 hdata)
      exact ⟨BitVec.ofNat 256 offset, hhead, by rwa [hoffset]⟩
    · rename_i hs
      rwa [if_neg hs] at hhead

/-- The offsets lead to the tails, whatever follows the block. -/
theorem allPlaced_of_block {data : Bytes} (hdata : data.length < Word.modulus)
    {parts : List Part} (h : (block parts).StandsAt data 0) : AllPlaced parts data 0 := by
  rw [block, Bytes.standsAt_append_iff, length_heads, Nat.zero_add] at h
  exact allPlaced_of_heads_of_tails hdata h.1 h.2

end Part

end ContractAbi
