import ContractAbi.Proofs.Encoding.Blocks

/-!
# The layout by sums

The format defines a block without a running offset: the offset of a dynamic part is the length of
all heads and of the tails before it. `Part.standardBlock` is that definition, and the block that
packing writes is the same. What it says about a block is gathered in `Part.Tiled`: its offsets
increase by whole words from the end of the head, and the payloads they lead to fill the rest of the
block, with no gap and no overlap.
-/

namespace ContractAbi

namespace Part

/-! ## Definition by sums -/

/-- Where the tail of the part at position `i` begins: behind the heads of all parts and the tails
of the parts before it. -/
def tailStart (parts : List Part) (i : Nat) : Nat :=
  headTotal parts + tailTotal (parts.take i)

/-- `head(X1) .. head(Xk) tail(X1) .. tail(Xk)`. -/
def standardBlock (parts : List Part) : Bytes :=
  (parts.mapIdx fun i p ↦ p.headAt (tailStart parts i)).flatten ++ (parts.map tail).flatten

theorem tails_eq_flatten (parts : List Part) : tails parts = (parts.map tail).flatten := by
  rw [tails, List.flatMap_def]
  rfl

theorem tailTotal_append (ps qs : List Part) :
    tailTotal (ps ++ qs) = tailTotal ps + tailTotal qs := by
  rw [tailTotal, List.map_append, List.sum_append]
  rfl

/-- The running offset at a part is the sum up to it. -/
theorem heads_eq_flatten (before rest : List Part) :
    heads (headTotal (before ++ rest) + tailTotal before) rest
      = (rest.mapIdx fun i p ↦
          p.headAt (tailStart (before ++ rest) (before.length + i))).flatten := by
  induction rest generalizing before with
  | nil => rfl
  | cons p rest ih =>
    -- the part goes over to those before, which moves both sums by its lengths
    have hstep := ih (before ++ [p])
    rw [List.append_assoc, List.singleton_append, tailTotal_append, tailTotal_cons,
      tailTotal_nil, Nat.add_zero, ← Nat.add_assoc, List.length_append,
      List.length_singleton] at hstep
    have hstart : tailStart (before ++ p :: rest) before.length
        = headTotal (before ++ p :: rest) + tailTotal before := by
      rw [tailStart, List.take_left]
    rw [heads_cons, hstep, List.mapIdx_cons, List.flatten_cons]
    simp only [Nat.add_zero, hstart, Nat.add_assoc, Nat.add_comm 1]

theorem standardBlock_eq (parts : List Part) : standardBlock parts = block parts := by
  have hheads := heads_eq_flatten [] parts
  simp only [List.nil_append, tailTotal_nil, Nat.add_zero, List.length_nil, Nat.zero_add] at hheads
  rw [standardBlock, block, hheads, tails_eq_flatten]

/-! ## Offsets and payloads -/

/-- The number that a block of parts holds in the head of each dynamic part, with the payload it is
for. The heads begin at `index`. -/
def pointers (data : Bytes) : (index : Nat) → List Part → List (Nat × Bytes)
  | _, [] => []
  | index, p :: rest =>
    if p.isDynamic then
      (Bytes.toNat ((data.drop index).take wordSize), p.bytes) ::
        pointers data (index + p.headLength) rest
    else
      pointers data (index + p.headLength) rest

/-- The payloads stand at their offsets, the first of them at `start`, each one behind the one
before it, and the last one ends the block. -/
def Tiles (data : Bytes) : (start : Nat) → List (Nat × Bytes) → Prop
  | start, [] => start = data.length
  | start, (offset, payload) :: rest =>
    offset = start ∧ payload.StandsAt data offset ∧ Tiles data (offset + payload.length) rest

/-- The block of the parts is filled without a gap. -/
structure Tiled (parts : List Part) : Prop where
  /-- Offsets are whole words. -/
  aligned : ∀ x ∈ pointers (standardBlock parts) 0 parts, wordSize ∣ x.1
  increasing : (pointers (standardBlock parts) 0 parts).Pairwise fun x y ↦ x.1 < y.1
  /-- The first offset is the length of the head. -/
  first : ∀ x ∈ (pointers (standardBlock parts) 0 parts).head?, x.1 = headTotal parts
  tiles : Tiles (standardBlock parts) (headTotal parts) (pointers (standardBlock parts) 0 parts)

/-- Parts as packing makes them. -/
structure WellSized (parts : List Part) : Prop where
  aligned : ∀ p ∈ parts, wordSize ∣ p.bytes.length
  dynamic : ∀ p ∈ parts, p.isDynamic = true → p.bytes ≠ []
  length_le : (block parts).length ≤ Count.limit

/-- The offsets and payloads that go with a running offset. -/
private def running : (offset : Nat) → List Part → List (Nat × Bytes)
  | _, [] => []
  | offset, p :: rest =>
    if p.isDynamic then (offset, p.bytes) :: running (offset + p.tailLength) rest
    else running (offset + p.tailLength) rest

private theorem pointers_eq_running {data : Bytes} {parts : List Part} {offset index : Nat}
    (hheads : (heads offset parts).StandsAt data index)
    (hoffset : offset + tailTotal parts < Word.modulus) :
    pointers data index parts = running offset parts := by
  induction parts generalizing offset index with
  | nil => rfl
  | cons p rest ih =>
    rw [heads_cons, Bytes.standsAt_append_iff, length_headAt] at hheads
    rw [tailTotal_cons, ← Nat.add_assoc] at hoffset
    rw [pointers, running, ih hheads.2 hoffset]
    split
    · rename_i hd
      have hword := hheads.1.2
      rw [length_headAt, headLength_of_dynamic hd, headAt, if_pos hd] at hword
      rw [hword, toNat_countWord (by omega)]
    · rfl

private theorem le_of_mem_running {parts : List Part} {offset : Nat} {x : Nat × Bytes}
    (hx : x ∈ running offset parts) : offset ≤ x.1 := by
  induction parts generalizing offset with
  | nil => cases hx
  | cons p rest ih =>
    rw [running] at hx
    split at hx
    · rcases List.mem_cons.mp hx with rfl | hx
      · exact Nat.le_refl _
      · exact Nat.le_of_add_right_le (ih hx)
    · exact Nat.le_of_add_right_le (ih hx)

private theorem dvd_of_mem_running {parts : List Part} {offset : Nat} {x : Nat × Bytes}
    (ha : ∀ p ∈ parts, wordSize ∣ p.bytes.length) (hoffset : wordSize ∣ offset)
    (hx : x ∈ running offset parts) : wordSize ∣ x.1 := by
  induction parts generalizing offset with
  | nil => cases hx
  | cons p rest ih =>
    obtain ⟨hp, hrest⟩ := List.forall_mem_cons.mp ha
    have hnext : wordSize ∣ offset + p.tailLength := by
      rw [tailLength]
      split
      · exact Nat.dvd_add hoffset hp
      · exact hoffset
    rw [running] at hx
    split at hx
    · rcases List.mem_cons.mp hx with rfl | hx
      · exact hoffset
      · exact ih hrest hnext hx
    · exact ih hrest hnext hx

private theorem pairwise_running {parts : List Part} (offset : Nat)
    (hd : ∀ p ∈ parts, p.isDynamic = true → p.bytes ≠ []) :
    (running offset parts).Pairwise fun x y ↦ x.1 < y.1 := by
  induction parts generalizing offset with
  | nil => exact List.Pairwise.nil
  | cons p rest ih =>
    obtain ⟨hp, hrest⟩ := List.forall_mem_cons.mp hd
    rw [running]
    split
    · rename_i hdyn
      refine List.Pairwise.cons ?_ (ih _ hrest)
      intro x hx
      have hle := le_of_mem_running hx
      have hpos := List.length_pos_iff.mpr (hp hdyn)
      rw [tailLength_of_dynamic hdyn] at hle
      dsimp only
      omega
    · exact ih _ hrest

private theorem tiles_running {data : Bytes} {parts : List Part} {offset : Nat}
    (htails : (tails parts).StandsAt data offset)
    (hend : offset + tailTotal parts = data.length) :
    Tiles data offset (running offset parts) := by
  induction parts generalizing offset with
  | nil => exact hend
  | cons p rest ih =>
    rw [tails_cons, Bytes.standsAt_append_iff, length_tail] at htails
    rw [tailTotal_cons, ← Nat.add_assoc] at hend
    rw [running]
    split
    · rename_i hd
      have htail := htails.1
      rw [tail, if_pos hd] at htail
      rw [tailLength_of_dynamic hd] at htails hend ⊢
      exact ⟨rfl, htail, ih htails.2 hend⟩
    · rename_i hs
      rw [Bool.not_eq_true] at hs
      rw [tailLength_of_static hs, Nat.add_zero] at htails hend ⊢
      exact ih htails.2 hend

theorem WellSized.wordSize_dvd_headTotal {parts : List Part} (h : WellSized parts) :
    wordSize ∣ headTotal parts := by
  have ha := h.aligned
  clear h
  induction parts with
  | nil => exact Nat.dvd_zero _
  | cons p rest ih =>
    obtain ⟨hp, hrest⟩ := List.forall_mem_cons.mp ha
    rw [headTotal_cons, headLength]
    split
    · exact Nat.dvd_add (Nat.dvd_refl _) (ih hrest)
    · exact Nat.dvd_add hp (ih hrest)

private theorem Tiles.first {data : Bytes} {start : Nat} {xs : List (Nat × Bytes)}
    (h : Tiles data start xs) : ∀ x ∈ xs.head?, x.1 = start := by
  cases xs with
  | nil => simp
  | cons x rest => simpa using h.1

/-- **Blocks have no gap.** -/
theorem WellSized.tiled {parts : List Part} (h : WellSized parts) : Tiled parts := by
  have hblock := Bytes.standsAt_self (standardBlock parts)
  have hlength := length_block parts
  have hle := h.length_le
  have hlimit : Count.limit < Word.modulus := by decide
  rw [← standardBlock_eq] at hlength hle
  rw [standardBlock_eq, block, Bytes.standsAt_append_iff, length_heads, Nat.zero_add, ← block,
    ← standardBlock_eq] at hblock
  have hpointers := pointers_eq_running hblock.1 (by omega)
  have htiles := tiles_running hblock.2 hlength.symm
  rw [← hpointers] at htiles
  refine ⟨?_, ?_, htiles.first, htiles⟩
  · rw [hpointers]
    exact fun x hx ↦ dvd_of_mem_running h.aligned h.wordSize_dvd_headTotal hx
  · rw [hpointers]
    exact pairwise_running _ h.dynamic

end Part

end ContractAbi
