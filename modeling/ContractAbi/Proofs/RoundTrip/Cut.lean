import ContractAbi.Proofs.Decoding.Continued
import ContractAbi.Proofs.Encoding.Ends
import ContractAbi.Proofs.Encoding.Runs
import ContractAbi.Proofs.RoundTrip.Arguments

/-!
# Reading from the front of a payload

An encoding stands in a payload, of which a reader has only the front. The value is read back
exactly if the front holds the head, the rest of the encoding up to the padding at its end, and a
word for each element of the sequences whose elements take no room. `AbiType.Enough` is this
condition, and `AbiType.ReadBackIff` the statement that carries the induction over the type.

That nothing less is enough needs no second induction over the ways in which reading can fail. A
value that is read back has its own length, so its counts are those of the encoding, and with them
every test that was passed is a bound on the length of the front. The bounds of the parts of a block
add up to that of the last part, since the tails follow one another.
-/

namespace ContractAbi

open Decoding

variable {data rest : Bytes} {index : Nat}

/-! ## Fronts -/

namespace Bytes

/-- What lies in front of the cut is there before and after it. -/
theorem standsAt_append_right_iff {b : Bytes} (h : index + b.length ≤ data.length) :
    b.StandsAt (data ++ rest) index ↔ b.StandsAt data index := by
  rw [StandsAt, StandsAt, take_drop_append h, List.length_append]
  exact and_congr_left' ⟨fun _ ↦ by omega, fun _ ↦ by omega⟩

/-- From a position in front of the cut. -/
theorem StandsAt.drop_append {b : Bytes} {start : Nat} (h : b.StandsAt (data ++ rest) start)
    (hstart : start ≤ data.length) : b.StandsAt (data.drop start ++ rest) 0 := by
  rw [← List.drop_append_of_le_length hstart]
  exact h.drop

end Bytes

theorem length_drop_append_lt (h : (data ++ rest).length < offsetLimit) {n : Nat} :
    (data.drop n ++ rest).length < offsetLimit := by
  rw [List.length_append] at h ⊢
  rw [List.length_drop]
  omega

/-- The encoding begins at byte `start`: at the position of its head if it is static, and otherwise
where the word there says. -/
def Part.LiesAt (p : Part) (data : Bytes) (index start : Nat) : Prop :=
  p.bytes.StandsAt data start ∧
    if p.isDynamic then (countWord start).StandsAt data index else start = index

theorem Part.liesAt_static_iff {p : Part} {start : Nat} (h : p.isDynamic = false) :
    p.LiesAt data index start ↔ p.bytes.StandsAt data start ∧ start = index := by
  rw [LiesAt, h, if_neg Bool.false_ne_true]

theorem Part.liesAt_dynamic_iff {p : Part} {start : Nat} (h : p.isDynamic = true) :
    p.LiesAt data index start ↔
      p.bytes.StandsAt data start ∧ (countWord start).StandsAt data index := by
  rw [LiesAt, if_pos h]

/-! ## Offsets -/

namespace Decoding

/-- A position of a payload is a word. -/
theorem toNat_ofNat_of_le {start : Nat} (h : data.length < offsetLimit)
    (hstart : start ≤ data.length) : (BitVec.ofNat 256 start).toNat = start := by
  have hlimit := offsetLimit_le_limit
  have hmodulus := limit_lt_modulus
  exact Nat.mod_eq_of_lt (show start < Word.modulus by omega)

section Offsets

variable {start : Nat}

/-- A word that can be read at the position of an offset is the offset. -/
theorem standsAt_offset_iff (hw : (countWord start).StandsAt (data ++ rest) index) {w : Word} :
    (Word.toBytes w).StandsAt data index ↔
      index + wordSize ≤ data.length ∧ w = BitVec.ofNat 256 start := by
  constructor
  · intro hin
    refine ⟨by simpa using hin.length_le, ?_⟩
    have hword := (hin.append_right rest).2
    have hoffset := hw.2
    rw [Word.length_toBytes] at hword
    rw [length_countWord, hword] at hoffset
    rw [← Word.ofBytes_toBytes w, hoffset, countWord, Word.ofBytes_toBytes]
  · rintro ⟨hin, rfl⟩
    exact (Bytes.standsAt_append_right_iff (by rwa [Word.length_toBytes])).mp hw

variable (h : (data ++ rest).length < offsetLimit)
  (hw : (countWord start).StandsAt (data ++ rest) index) (hstart : start ≤ (data ++ rest).length)

include h hw hstart

theorem block_front_iff {body : Bytes} : block data index = .ok body ↔
    index + wordSize ≤ data.length ∧ start ≤ data.length ∧ data.drop start = body := by
  have hoffset := toNat_ofNat_of_le h hstart
  rw [block_eq_ok_iff (length_lt_of_append h)]
  simp only [standsAt_offset_iff hw]
  constructor
  · rintro ⟨w, ⟨hin, rfl⟩, hle, hbody⟩
    rw [hoffset] at hle hbody
    exact ⟨hin, hle, hbody⟩
  · rintro ⟨hin, hle, hbody⟩
    exact ⟨_, ⟨hin, rfl⟩, by rwa [hoffset], by rwa [hoffset]⟩

theorem contentAt_front_iff {s n : Nat} : contentAt data index = .ok (s, n) ↔
    index + wordSize ≤ data.length ∧ start + wordSize = s ∧ s + n ≤ data.length ∧
      (countWord n).StandsAt data start := by
  have hoffset := toNat_ofNat_of_le h hstart
  rw [contentAt_eq_ok_iff (length_lt_of_append h)]
  simp only [standsAt_offset_iff hw]
  constructor
  · rintro ⟨w, ⟨hin, rfl⟩, hs, hend, hcount⟩
    rw [hoffset] at hs hcount
    exact ⟨hin, hs, hend, hcount⟩
  · rintro ⟨hin, hs, hend, hcount⟩
    exact ⟨_, ⟨hin, rfl⟩, by rwa [hoffset], hend, by rwa [hoffset]⟩

end Offsets

end Decoding

namespace AbiType

/-! ## The condition -/

/-- The first `length` bytes of the payload are enough to read the value of a part back. -/
structure Enough (x : AbiType × Value) (p : Part) (index start length : Nat) : Prop where
  head : index + p.headLength ≤ length
  content : start + p.bytes.length ≤ length + paddingLength (x.1.endContent x.2)
  runs : ∀ r ∈ x.1.runs x.2, start + r.stop ≤ length

theorem enough_static_iff {x : AbiType × Value} {p : Part} {length : Nat}
    (hs : p.isDynamic = false) : Enough x p index index length ↔
      index + p.headLength ≤ length ∧ ∀ r ∈ x.1.runs x.2, index + r.stop ≤ length := by
  constructor
  · rintro ⟨hhead, -, hruns⟩
    exact ⟨hhead, hruns⟩
  · rintro ⟨hhead, hruns⟩
    rw [Part.headLength_of_static hs] at hhead
    exact ⟨by rwa [Part.headLength_of_static hs], by omega, hruns⟩

/-- The value is read back from the front of a payload exactly if the front is enough. -/
def ReadBackIff (x : AbiType × Value) (p : Part) : Prop :=
  ∀ (data rest : Bytes) (index start : Nat), (data ++ rest).length < offsetLimit →
    p.LiesAt (data ++ rest) index start →
    (x.1.unpack index data = .ok (x.1.normalize x.2) ↔ Enough x p index start data.length)

theorem head_le_of_unpack {t : AbiType} {v v' : Value} {p : Part}
    (hn : t.Everywhere NumbersInRange) (hp : Packed (t, v) p) (hdata : data.length < offsetLimit)
    (h : t.unpack index data = .ok v') : index + p.headLength ≤ data.length := by
  have hsized : Sized (t, v) p := ⟨hp, measures_of_pack hn hp.2⟩
  rw [hsized.headLength]
  exact t.fitsWhereRead hdata h

/-! ## Leaves -/

/-- A word is in the front or not. -/
theorem readBackIff_word {t : AbiType} {v : Value} {p : Part} (hd : p.isDynamic = false)
    (hlength : p.bytes.length = t.headWidth) (hruns : t.runs v = [])
    (hread : ∀ {data : Bytes} {index : Nat}, data.length < offsetLimit →
      p.bytes.StandsAt data index → t.unpack index data = .ok (t.normalize v)) :
    ReadBackIff (t, v) p := by
  intro data rest index start h hlies
  obtain ⟨hb, rfl⟩ := (Part.liesAt_static_iff hd).mp hlies
  have hdata := length_lt_of_append h
  constructor
  · intro hok
    have hfits := t.fitsWhereRead hdata hok
    refine ⟨?_, by omega, ?_⟩
    · rwa [Part.headLength_of_static hd, hlength]
    · rw [hruns]
      exact List.forall_mem_nil _
  · intro henough
    have hhead := henough.head
    rw [Part.headLength_of_static hd] at hhead
    exact hread hdata ((Bytes.standsAt_append_right_iff hhead).mp hb)

section Content

variable {v : Value} {start : Nat}

/-- A counted content is found from the front of a payload if all but its padding is there. -/
theorem contentAt_counted_iff {content : Bytes} (h : (data ++ rest).length < offsetLimit)
    (hw : (countWord start).StandsAt (data ++ rest) index)
    (hb : (counted content).StandsAt (data ++ rest) start) {q : Nat × Nat} :
    contentAt data index = .ok q ↔ q = (start + wordSize, content.length) ∧
      index + wordSize ≤ data.length ∧ start + wordSize + content.length ≤ data.length := by
  have hlimit := offsetLimit_le_limit
  have hmodulus := limit_lt_modulus
  have hlength : content.length < Word.modulus := by
    have hle := hb.length_le
    rw [length_counted, List.length_append] at hle
    omega
  rw [counted_eq, Bytes.standsAt_append_iff] at hb
  obtain ⟨s, n⟩ := q
  rw [contentAt_front_iff h hw hb.1.1, Prod.mk.injEq]
  constructor
  · rintro ⟨hin, rfl, hend, hn⟩
    -- both counts are the number in one word
    have hcount := hb.1.2
    have hword := (hn.append_right rest).2
    rw [length_countWord] at hcount hword
    rw [hword] at hcount
    have hsame : n = content.length := by
      rw [← toNat_countWord (n := n) (by rw [List.length_append] at h; omega), hcount,
        toNat_countWord hlength]
    exact ⟨⟨rfl, hsame⟩, hin, by omega⟩
  · rintro ⟨⟨rfl, rfl⟩, hin, hend⟩
    exact ⟨hin, rfl, hend,
      (Bytes.standsAt_append_right_iff (by rw [length_countWord]; omega)).mp hb.1⟩

/-- What is needed of a string or a byte string is its offset and all but its padding. -/
theorem enough_counted_iff {t : AbiType} {p : Part} {content : Bytes} {length : Nat}
    (hd : p.isDynamic = true) (hbytes : counted content = p.bytes)
    (hend : t.endContent v = some content) (hruns : t.runs v = []) :
    Enough (t, v) p index start length ↔
      index + wordSize ≤ length ∧ start + wordSize + content.length ≤ length := by
  have hpad : paddingLength (t.endContent v) = (padding content).length := by
    rw [hend]
    rfl
  constructor
  · rintro ⟨hhead, hcontent, -⟩
    rw [Part.headLength_of_dynamic hd] at hhead
    rw [hpad, ← hbytes, length_counted, List.length_append] at hcontent
    exact ⟨hhead, by omega⟩
  · rintro ⟨hhead, hcontent⟩
    refine ⟨by rwa [Part.headLength_of_dynamic hd], ?_, by rw [hruns]; exact List.forall_mem_nil _⟩
    rw [hpad, ← hbytes, length_counted, List.length_append]
    omega

theorem readBackIff_counted {t : AbiType} {p : Part} {content : Bytes}
    (hd : p.isDynamic = true) (hbytes : counted content = p.bytes)
    (hend : t.endContent v = some content) (hruns : t.runs v = [])
    (read : Bytes → Except AbiError Value) (hread : read content = .ok (t.normalize v))
    (hunpack : ∀ index data, t.unpack index data
      = contentAt data index >>= fun q ↦ read ((data.drop q.1).take q.2)) :
    ReadBackIff (t, v) p := by
  intro data rest index start h hlies
  obtain ⟨hb, hw⟩ := (Part.liesAt_dynamic_iff hd).mp hlies
  rw [← hbytes] at hb
  rw [enough_counted_iff hd hbytes hend hruns, hunpack, bind_eq_ok_iff]
  constructor
  · rintro ⟨q, hq, -⟩
    exact ((contentAt_counted_iff h hw hb).mp hq).2
  · intro hin
    refine ⟨_, (contentAt_counted_iff h hw hb).mpr ⟨rfl, hin⟩, ?_⟩
    rw [counted_eq, Bytes.standsAt_append_iff, Bytes.standsAt_append_iff, length_countWord] at hb
    dsimp only
    rw [((Bytes.standsAt_append_right_iff hin.2).mp hb.2.1).2, hread]

end Content

/-! ## Blocks -/

section Blocks

variable {xs : List (AbiType × Value)} {parts : List Part}

/-- The first `length` bytes of the payload are enough to read back the values of parts whose heads
begin at `index` and whose tails begin at `offset`. Of the tails only the last one may lack bytes,
and only its padding. -/
structure AllEnough (xs : List (AbiType × Value)) (parts : List Part) (index offset length : Nat) :
    Prop where
  heads : index + Part.headTotal parts ≤ length
  tails : parts.any Part.isDynamic = true → offset + Part.tailTotal parts
    ≤ length + paddingLength (Part.ofLastDynamic parts (xs.map fun x ↦ x.1.endContent x.2))
  runs : ∀ r ∈ Part.runsFrom index offset parts (xs.map fun x ↦ x.1.runs x.2), r.stop ≤ length

theorem allEnough_cons_static_iff {x : AbiType × Value} {p : Part} {offset length : Nat}
    (hs : p.isDynamic = false) :
    AllEnough (x :: xs) (p :: parts) index offset length ↔
      Enough x p index index length ∧
        AllEnough xs parts (index + p.headLength) offset length := by
  have hruns : (∀ r ∈ Part.runsFrom index offset (p :: parts)
        ((x :: xs).map fun x ↦ x.1.runs x.2), r.stop ≤ length) ↔
      (∀ r ∈ x.1.runs x.2, index + r.stop ≤ length) ∧
        ∀ r ∈ Part.runsFrom (index + p.headLength) offset parts (xs.map fun x ↦ x.1.runs x.2),
          r.stop ≤ length := by
    rw [List.map_cons, Part.runsFrom, List.forall_mem_append, hs, if_neg Bool.false_ne_true,
      Part.tailLength_of_static hs, Nat.add_zero]
    simp only [List.forall_mem_map, Run.stop_shift]
  rw [enough_static_iff hs]
  constructor
  · rintro ⟨hheads, htails, hall⟩
    rw [Part.headTotal_cons] at hheads
    rw [List.any_cons, hs, Bool.false_or, Part.tailTotal_cons, Part.tailLength_of_static hs,
      Nat.zero_add, List.map_cons, Part.ofLastDynamic_cons_static hs] at htails
    obtain ⟨hown, hothers⟩ := hruns.mp hall
    exact ⟨⟨by omega, hown⟩, by omega, htails, hothers⟩
  · rintro ⟨⟨hhead, hown⟩, hheads, htails, hothers⟩
    refine ⟨?_, ?_, hruns.mpr ⟨hown, hothers⟩⟩
    · rw [Part.headTotal_cons]
      omega
    · rw [List.any_cons, hs, Bool.false_or, Part.tailTotal_cons, Part.tailLength_of_static hs,
        Nat.zero_add, List.map_cons, Part.ofLastDynamic_cons_static hs]
      exact htails

/-- A tail with another one behind it has to be there in full, because the padding that may be
missing is a part of the others. -/
theorem tails_cons_dynamic_iff {x : AbiType × Value} {p : Part} {offset length : Nat}
    (hd : p.isDynamic = true)
    (hpadding : paddingLength (Part.ofLastDynamic parts (xs.map fun x ↦ x.1.endContent x.2))
      ≤ Part.tailTotal parts) :
    offset + Part.tailTotal (p :: parts) ≤ length + paddingLength
        (Part.ofLastDynamic (p :: parts) ((x :: xs).map fun x ↦ x.1.endContent x.2)) ↔
      offset + p.bytes.length ≤ length + paddingLength (x.1.endContent x.2) ∧
        (parts.any Part.isDynamic = true → offset + p.tailLength + Part.tailTotal parts
          ≤ length + paddingLength
            (Part.ofLastDynamic parts (xs.map fun x ↦ x.1.endContent x.2))) := by
  have htail := Part.tailLength_of_dynamic hd
  rw [Part.tailTotal_cons, List.map_cons, Part.ofLastDynamic, hd, if_pos rfl]
  by_cases hany : parts.any Part.isDynamic = true
  · rw [if_pos hany]
    constructor
    · intro htails
      exact ⟨by omega, fun _ ↦ by omega⟩
    · rintro ⟨-, htails⟩
      have htails := htails hany
      omega
  · rw [if_neg hany, Part.tailTotal_eq_zero (Bool.eq_false_of_not_eq_true hany)]
    constructor
    · intro hcontent
      exact ⟨by omega, fun h ↦ absurd h hany⟩
    · rintro ⟨hcontent, -⟩
      omega

theorem allEnough_cons_dynamic_iff {x : AbiType × Value} {p : Part} {offset length : Nat}
    (hd : p.isDynamic = true)
    (hpadding : paddingLength (Part.ofLastDynamic parts (xs.map fun x ↦ x.1.endContent x.2))
      ≤ Part.tailTotal parts) :
    AllEnough (x :: xs) (p :: parts) index offset length ↔
      Enough x p index offset length ∧
        AllEnough xs parts (index + p.headLength) (offset + p.tailLength) length := by
  have hruns : (∀ r ∈ Part.runsFrom index offset (p :: parts)
        ((x :: xs).map fun x ↦ x.1.runs x.2), r.stop ≤ length) ↔
      (∀ r ∈ x.1.runs x.2, offset + r.stop ≤ length) ∧
        ∀ r ∈ Part.runsFrom (index + p.headLength) (offset + p.tailLength) parts
          (xs.map fun x ↦ x.1.runs x.2), r.stop ≤ length := by
    rw [List.map_cons, Part.runsFrom, List.forall_mem_append, hd, if_pos rfl]
    simp only [List.forall_mem_map, Run.stop_shift]
  have hany : (p :: parts).any Part.isDynamic = true := by
    rw [List.any_cons, hd]
    rfl
  constructor
  · rintro ⟨hheads, htails, hall⟩
    rw [Part.headTotal_cons] at hheads
    obtain ⟨hcontent, htails⟩ := (tails_cons_dynamic_iff hd hpadding).mp (htails hany)
    obtain ⟨hown, hothers⟩ := hruns.mp hall
    exact ⟨⟨by omega, hcontent, hown⟩, by omega, htails, hothers⟩
  · rintro ⟨⟨-, hcontent, hown⟩, hheads, htails, hothers⟩
    refine ⟨?_, fun _ ↦ ?_, hruns.mpr ⟨hown, hothers⟩⟩
    · rw [Part.headTotal_cons]
      omega
    · exact (tails_cons_dynamic_iff hd hpadding).mpr ⟨hcontent, htails⟩

/-- Types are read back one after the other as long as each front is enough. -/
theorem unpackTypes_front_iff (h : (data ++ rest).length < offsetLimit)
    (hsized : List.Forall₂ Sized xs parts) (hn : ∀ x ∈ xs, x.1.Everywhere NumbersInRange)
    (hread : ∀ x ∈ xs, ∀ p, Packed x p → ReadBackIff x p) {offset : Nat}
    (hheads : (Part.heads offset parts).StandsAt (data ++ rest) index)
    (htails : (Part.tails parts).StandsAt (data ++ rest) offset) (hindex : index ≤ data.length) :
    unpackTypes data (xs.map Prod.fst) index = .ok (xs.map fun x ↦ x.1.normalize x.2) ↔
      AllEnough xs parts index offset data.length := by
  induction hsized generalizing index offset with
  | nil =>
    exact iff_of_true rfl ⟨hindex, fun hany ↦ absurd hany Bool.false_ne_true, List.forall_mem_nil _⟩
  | @cons x p xs parts hx hxs ih =>
    obtain ⟨hnx, hnxs⟩ := List.forall_mem_cons.mp hn
    obtain ⟨hreadx, hreadxs⟩ := List.forall_mem_cons.mp hread
    have hcons : unpackTypes data ((x :: xs).map Prod.fst) index
          = .ok ((x :: xs).map fun x ↦ x.1.normalize x.2) ↔
        x.1.unpack index data = .ok (x.1.normalize x.2) ∧
          unpackTypes data (xs.map Prod.fst) (index + p.headLength)
            = .ok (xs.map fun x ↦ x.1.normalize x.2) := by
      rw [List.map_cons, List.map_cons, unpackTypes_cons_eq_ok_iff, hx.headLength]
      constructor
      · rintro ⟨v, vs, hv, hvs, heq⟩
        obtain ⟨rfl, rfl⟩ := List.cons.inj heq
        exact ⟨hv, hvs⟩
      · rintro ⟨hv, hvs⟩
        exact ⟨_, _, hv, hvs, rfl⟩
    rw [Part.heads_cons, Bytes.standsAt_append_iff, Part.length_headAt] at hheads
    rw [Part.tails_cons, Bytes.standsAt_append_iff, Part.length_tail] at htails
    rw [hcons]
    by_cases hd : p.isDynamic = true
    · have hlies : p.LiesAt (data ++ rest) index offset := by
        rw [Part.liesAt_dynamic_iff hd]
        rw [Part.headAt, if_pos hd] at hheads
        rw [Part.tail, if_pos hd] at htails
        exact ⟨htails.1, hheads.1⟩
      have hpadding := paddingLength_endOf_le (hxs.imp fun _ _ ↦ And.left) hnxs
      rw [endOf_eq (hxs.imp fun _ _ ↦ And.left) hnxs] at hpadding
      rw [hreadx p hx.1 _ _ _ _ h hlies, allEnough_cons_dynamic_iff hd hpadding]
      exact and_congr_right fun henough ↦ ih hnxs hreadxs hheads.2 htails.2 henough.head
    · have hs := Bool.eq_false_of_not_eq_true hd
      have hlies : p.LiesAt (data ++ rest) index index := by
        rw [Part.liesAt_static_iff hs]
        rw [Part.headAt, if_neg hd] at hheads
        exact ⟨hheads.1, rfl⟩
      rw [Part.tailLength_of_static hs, Nat.add_zero] at hheads htails
      rw [hreadx p hx.1 _ _ _ _ h hlies, allEnough_cons_static_iff hs]
      exact and_congr_right fun henough ↦ ih hnxs hreadxs hheads.2 htails.2 henough.head

/-- The block at byte `start` of a payload, read from there. -/
theorem unpackTypes_block_iff (h : (data ++ rest).length < offsetLimit)
    (hsized : List.Forall₂ Sized xs parts) (hn : ∀ x ∈ xs, x.1.Everywhere NumbersInRange)
    (hread : ∀ x ∈ xs, ∀ p, Packed x p → ReadBackIff x p) {start : Nat}
    (hblock : (Part.block parts).StandsAt (data ++ rest) start) (hstart : start ≤ data.length) :
    unpackTypes (data.drop start) (xs.map Prod.fst) 0 = .ok (xs.map fun x ↦ x.1.normalize x.2) ↔
      start + (Part.block parts).length ≤ data.length + paddingLength (endOf xs) ∧
        ∀ r ∈ runsOf xs, start + r.stop ≤ data.length := by
  have hpacked := hsized.imp fun _ _ ↦ And.left
  have hpadding := paddingLength_endOf_le hpacked hn
  have hlength := Part.length_block parts
  have hfront := hblock.drop_append hstart
  rw [Part.block, Bytes.standsAt_append_iff, Part.length_heads, Nat.zero_add] at hfront
  have htypes := unpackTypes_front_iff (length_drop_append_lt h) hsized hn hread hfront.1 hfront.2
    (Nat.zero_le _)
  have hruns : (∀ r ∈ runsOf xs, start + r.stop ≤ data.length) ↔
      ∀ r ∈ Part.runsFrom 0 (Part.headTotal parts) parts (xs.map fun x ↦ x.1.runs x.2),
        r.stop ≤ data.length - start := by
    rw [runsOf, Part.runs, map_standardPart_eq hpacked hn]
    exact forall₂_congr fun r _ ↦ by omega
  rw [List.length_drop] at htypes
  rw [htypes, hruns, endOf_eq hpacked hn]
  rw [endOf_eq hpacked hn] at hpadding
  by_cases hany : parts.any Part.isDynamic = true
  · constructor
    · rintro ⟨-, htails, hothers⟩
      have htails := htails hany
      exact ⟨by omega, hothers⟩
    · rintro ⟨hle, hothers⟩
      exact ⟨by omega, fun _ ↦ by omega, hothers⟩
  · have hnone := Part.tailTotal_eq_zero (Bool.eq_false_of_not_eq_true hany)
    constructor
    · rintro ⟨hheads, -, hothers⟩
      exact ⟨by omega, hothers⟩
    · rintro ⟨hle, hothers⟩
      exact ⟨by omega, fun hd ↦ absurd hd hany, hothers⟩

end Blocks

/-! ## Composite types -/

section Sequences

variable {elem : AbiType} {items : List Value} {parts : List Part}

/-- Besides the block, a reader asks for a word for each element. -/
theorem readSequence_block_iff (h : (data ++ rest).length < offsetLimit)
    (hsized : List.Forall₂ Sized (items.map (elem, ·)) parts)
    (hn : elem.Everywhere NumbersInRange)
    (hread : ∀ v p, Packed (elem, v) p → ReadBackIff (elem, v) p) {start : Nat}
    (hblock : (Part.block parts).StandsAt (data ++ rest) start) (hstart : start ≤ data.length) :
    readSequence elem (fun i ↦ elem.unpack i (data.drop start)) (data.drop start) items.length
        = .ok (.array (items.map fun v ↦ elem.normalize v)) ↔
      start + (Part.block parts).length
          ≤ data.length + paddingLength (endOf (items.map (elem, ·))) ∧
        ∀ r ∈ ownRun elem items.length ++ runsOf (items.map (elem, ·)),
          start + r.stop ≤ data.length := by
  have hn' : ∀ x ∈ items.map (elem, ·), x.1.Everywhere NumbersInRange :=
    List.forall_mem_map.mpr fun _ _ ↦ hn
  have hpadding := paddingLength_endOf_le (hsized.imp fun _ _ ↦ And.left) hn'
  have hitems := unpackTypes_block_iff h hsized hn'
    (List.forall_mem_map.mpr fun v _ ↦ hread v) hblock hstart
  rw [map_fst_map_pair, List.map_map] at hitems
  rw [readSequence_eq_ok_iff (length_drop_lt (length_lt_of_append h)) elem.fitsWhereRead,
    List.forall_mem_append, forall_mem_ownRun_iff, List.length_drop]
  constructor
  · rintro ⟨hcount, values, hvalues, heq⟩
    cases heq
    obtain ⟨hle, hruns⟩ := hitems.mp hvalues
    exact ⟨hle, fun _ ↦ by omega, hruns⟩
  · rintro ⟨hle, hown, hruns⟩
    refine ⟨?_, _, hitems.mpr ⟨hle, hruns⟩, rfl⟩
    by_cases hroom : elem.headSize = 0
    · have hown := hown hroom
      omega
    -- elements with room have their heads in the front
    · have hheads := length_mul_wordSize_le_headTotal hsized hroom
      rw [Part.length_block] at hle
      omega

/-- As many elements are read as are asked for. -/
theorem length_of_readSequence (hdata : data.length < offsetLimit) {count : Nat}
    {values : List Value}
    (h : readSequence elem (fun i ↦ elem.unpack i data) data count = .ok (.array values)) :
    values.length = count ∧ count * wordSize ≤ data.length := by
  obtain ⟨hcount, values', hvalues, heq⟩ :=
    (readSequence_eq_ok_iff hdata elem.fitsWhereRead).mp h
  cases heq
  exact ⟨by rw [length_of_unpackTypes hvalues, List.length_replicate], hcount⟩

variable {v : Value} {p : Part}

/-- A slice has the block of its items behind its count. -/
theorem enough_slice_iff {start length : Nat} (hd : p.isDynamic = true)
    (hbytes : countWord items.length ++ Part.block parts = p.bytes) :
    Enough (slice elem, .array items) p index start length ↔
      index + wordSize ≤ length ∧
        start + wordSize + (Part.block parts).length
          ≤ length + paddingLength (endOf (items.map (elem, ·))) ∧
        ∀ r ∈ ownRun elem items.length ++ runsOf (items.map (elem, ·)),
          start + wordSize + r.stop ≤ length := by
  have hlength : p.bytes.length = wordSize + (Part.block parts).length := by
    rw [← hbytes, List.length_append, length_countWord]
  have hruns : (∀ r ∈ (slice elem).runs (.array items), start + r.stop ≤ length) ↔
      ∀ r ∈ ownRun elem items.length ++ runsOf (items.map (elem, ·)),
        start + wordSize + r.stop ≤ length := by
    rw [runs, runs_items]
    simp only [List.forall_mem_map, Run.stop_shift, ← Nat.add_assoc]
  have hend : (slice elem).endContent (.array items) = endOf (items.map (elem, ·)) := by
    rw [endContent, endContent_items]
  rw [← hruns, ← hend, Nat.add_assoc, ← hlength]
  constructor
  · rintro ⟨hhead, hcontent, hall⟩
    rw [Part.headLength_of_dynamic hd] at hhead
    exact ⟨hhead, hcontent, hall⟩
  · rintro ⟨hhead, hcontent, hall⟩
    exact ⟨by rwa [Part.headLength_of_dynamic hd], hcontent, hall⟩

theorem readBackIff_slice (hn : elem.Everywhere NumbersInRange)
    (helem : ∀ v p, Packed (elem, v) p → ReadBackIff (elem, v) p) (hp : Packed (slice elem, v) p) :
    ReadBackIff (slice elem, v) p := by
  intro data rest index start h hlies
  obtain ⟨hd, hpack⟩ := hp
  obtain ⟨hb, hw⟩ := (Part.liesAt_dynamic_iff hd).mp hlies
  obtain ⟨items, parts, rfl, hparts, -, hbytes⟩ := pack_slice_eq_ok_iff.mp hpack
  have hn' : ∀ x ∈ items.map (elem, ·), x.1.Everywhere NumbersInRange :=
    List.forall_mem_map.mpr fun _ _ ↦ hn
  have hsized := sized_of_numbersInRange hparts hn'
  have hpadding := paddingLength_endOf_le hparts hn'
  have hdata := length_lt_of_append h
  have hblockLength := Part.length_block parts
  rw [← hbytes, Bytes.standsAt_append_iff, length_countWord] at hb
  obtain ⟨hcount, hblock⟩ := hb
  rw [enough_slice_iff hd hbytes, unpack, bind_eq_ok_iff, normalize]
  constructor
  · rintro ⟨⟨s, n⟩, hq, hread⟩
    obtain ⟨hin, rfl, hend, -⟩ := (contentAt_front_iff h hw hcount.1).mp hq
    dsimp only at hread
    -- the value is as long as the slice that was packed
    obtain ⟨hlen, -⟩ := length_of_readSequence (length_drop_lt hdata) hread
    rw [List.length_map] at hlen
    subst hlen
    exact ⟨hin, (readSequence_block_iff h hsized hn helem hblock (by omega)).mp hread⟩
  · rintro ⟨hin, hblockRuns⟩
    have hstart : start + wordSize ≤ data.length := by
      have hle := hblockRuns.1
      omega
    have hread := (readSequence_block_iff h hsized hn helem hblock hstart).mpr hblockRuns
    have hitems := (length_of_readSequence (length_drop_lt hdata) hread).2
    rw [List.length_drop] at hitems
    have hend : start + wordSize + items.length ≤ data.length := by
      rw [wordSize] at hitems hstart ⊢
      omega
    have hcountIn := (Bytes.standsAt_append_right_iff (by rwa [length_countWord])).mp hcount
    exact ⟨(start + wordSize, items.length),
      (contentAt_front_iff h hw hcount.1).mpr ⟨hin, rfl, hend, hcountIn⟩, hread⟩

/-- The block of an array begins where its encoding does, behind the offset or in place. -/
theorem unpack_array_eq_ok_iff {length start : Nat} (h : (data ++ rest).length < offsetLimit)
    (hlies : p.LiesAt (data ++ rest) index start) (hd : p.isDynamic = elem.isDynamic) {v' : Value} :
    (array elem length).unpack index data = .ok v' ↔
      index + wordSize ≤ data.length ∧ start ≤ data.length ∧
        readSequence elem (fun i ↦ elem.unpack i (data.drop start)) (data.drop start) length
          = .ok v' := by
  rw [unpack]
  by_cases helemd : elem.isDynamic = true
  · obtain ⟨hb, hw⟩ := (Part.liesAt_dynamic_iff (hd.trans helemd)).mp hlies
    rw [if_pos helemd, bind_eq_ok_iff]
    simp only [block_front_iff h hw hb.1]
    constructor
    · rintro ⟨_, ⟨hin, hstart, rfl⟩, hread⟩
      exact ⟨hin, hstart, hread⟩
    · rintro ⟨hin, hstart, hread⟩
      exact ⟨_, ⟨hin, hstart, rfl⟩, hread⟩
  · obtain ⟨-, rfl⟩ := (Part.liesAt_static_iff
      (hd.trans (Bool.eq_false_of_not_eq_true helemd))).mp hlies
    rw [if_neg helemd, bind_eq_ok_iff]
    simp only [arrayInPlace_eq_ok_iff (length_lt_of_append h)]
    constructor
    · rintro ⟨_, ⟨hin, rfl⟩, hread⟩
      exact ⟨hin, by omega, hread⟩
    · rintro ⟨hin, -, hread⟩
      exact ⟨_, ⟨hin, rfl⟩, hread⟩

theorem readBackIff_array {length : Nat} (hn : (array elem length).Everywhere NumbersInRange)
    (helem : ∀ v p, Packed (elem, v) p → ReadBackIff (elem, v) p)
    (hp : Packed (array elem length, v) p) : ReadBackIff (array elem length, v) p := by
  intro data rest index start h hlies
  have hdata := length_lt_of_append h
  have hhead (v' : Value) (hok : (array elem length).unpack index data = .ok v') :=
    head_le_of_unpack hn hp hdata hok
  obtain ⟨hrange, hne⟩ := everywhere_array_iff.mp hn
  obtain ⟨hd, hpack⟩ := hp
  obtain ⟨items, parts, rfl, rfl, hparts, -, hbytes⟩ := pack_array_eq_ok_iff.mp hpack
  have hn' : ∀ x ∈ items.map (elem, ·), x.1.Everywhere NumbersInRange :=
    List.forall_mem_map.mpr fun _ _ ↦ hne
  have hsized := sized_of_numbersInRange hparts hn'
  have hpadding := paddingLength_endOf_le hparts hn'
  have hblock := hlies.1
  have hlength := Part.length_block parts
  rw [← hbytes] at hblock
  rw [isDynamic] at hd
  rw [normalize]
  constructor
  · intro hok
    obtain ⟨-, hstart, hread⟩ := (unpack_array_eq_ok_iff h hlies hd).mp hok
    rw [readSequence_block_iff h hsized hne helem hblock hstart] at hread
    refine ⟨hhead _ hok, ?_, ?_⟩
    · rw [endContent, endContent_items, ← hbytes]
      exact hread.1
    · rw [runs, runs_items]
      exact hread.2
  · rintro ⟨hhead, hcontent, hruns⟩
    rw [endContent, endContent_items, ← hbytes] at hcontent
    rw [runs, runs_items] at hruns
    have hstart : start ≤ data.length := by omega
    have hread := (readSequence_block_iff h hsized hne helem hblock hstart).mpr ⟨hcontent, hruns⟩
    refine (unpack_array_eq_ok_iff h hlies hd).mpr ⟨?_, hstart, hread⟩
    by_cases helemd : elem.isDynamic = true
    · rwa [Part.headLength_of_dynamic (hd.trans helemd)] at hhead
    -- in place the first element is why a word is there to be read
    · have hitems := (length_of_readSequence (length_drop_lt hdata) hread).2
      obtain ⟨-, rfl⟩ := (Part.liesAt_static_iff
        (hd.trans (Bool.eq_false_of_not_eq_true helemd))).mp hlies
      have hword := Nat.le_mul_of_pos_left wordSize hrange.1
      rw [List.length_drop] at hitems
      rw [wordSize] at hitems hword ⊢
      omega

end Sequences

section Fields

variable {structName : String} {fields : List (Field AbiType)} {v : Value} {p : Part}

theorem unpackFields_block_iff (h : (data ++ rest).length < offsetLimit)
    {entries : List (String × Value)} {values : List Value} {parts : List Part}
    (hvalues : List.Forall₂ (FirstEntry entries) fields values)
    (hsized : List.Forall₂ Sized ((fields.map Field.type).zip values) parts)
    (hn : ∀ f ∈ fields, f.type.Everywhere NumbersInRange)
    (hread : ∀ f ∈ fields, ∀ v p, Packed (f.type, v) p → ReadBackIff (f.type, v) p) {start : Nat}
    (hblock : (Part.block parts).StandsAt (data ++ rest) start) (hstart : start ≤ data.length) :
    unpackFields fields 0 (data.drop start) = .ok (normalizeFields fields entries) ↔
      start + (Part.block parts).length
          ≤ data.length + paddingLength (endOf ((fields.map Field.type).zip values)) ∧
        ∀ r ∈ runsOf ((fields.map Field.type).zip values), start + r.stop ≤ data.length := by
  have htypes := unpackTypes_block_iff h hsized (forall_mem_zip_types fun f hf _ ↦ hn f hf)
    (forall_mem_zip_types hread) hblock hstart
  rw [map_fst_zip_types hvalues] at htypes
  have hbody : (data.drop start).length < offsetLimit := length_drop_lt (length_lt_of_append h)
  rw [unpackFields_eq_ok_iff hbody fun f _ ↦ f.type.fitsWhereRead, normalizeFields_eq hvalues,
    ← htypes]
  constructor
  · rintro ⟨values', hvalues', heq⟩
    have hlength := length_of_unpackTypes hvalues'
    rw [List.length_map] at hlength
    -- the entries determine the values
    have hsnd := congrArg (List.map Prod.snd) heq
    rw [List.map_snd_zip (by rw [List.length_map, hlength]), List.map_snd_zip] at hsnd
    · rw [← hsnd, hvalues']
    · rw [List.length_map, List.length_zip, List.length_map, List.length_map]
      omega
  · intro hok
    exact ⟨_, hok, rfl⟩

theorem unpack_tuple_eq_ok_iff {start : Nat} (h : (data ++ rest).length < offsetLimit)
    (hlies : p.LiesAt (data ++ rest) index start) (hd : p.isDynamic = anyDynamic fields)
    {entries : List (String × Value)} :
    (tuple structName fields).unpack index data = .ok (.tuple entries) ↔
      (p.isDynamic = true → index + wordSize ≤ data.length) ∧ start ≤ data.length ∧
        unpackFields fields 0 (data.drop start) = .ok entries := by
  have hentries {body : Bytes} : (unpackFields fields 0 body >>= fun es ↦ pure (Value.tuple es))
      = Except.ok (.tuple entries) ↔ unpackFields fields 0 body = .ok entries := by
    rw [bind_eq_ok_iff]
    constructor
    · rintro ⟨es, hes, heq⟩
      cases heq
      exact hes
    · intro hes
      exact ⟨_, hes, rfl⟩
  rw [unpack]
  by_cases hany : anyDynamic fields = true
  · obtain ⟨hb, hw⟩ := (Part.liesAt_dynamic_iff (hd.trans hany)).mp hlies
    rw [if_pos hany, bind_eq_ok_iff]
    simp only [block_front_iff h hw hb.1, hentries]
    constructor
    · rintro ⟨_, ⟨hin, hstart, rfl⟩, hread⟩
      exact ⟨fun _ ↦ hin, hstart, hread⟩
    · rintro ⟨hin, hstart, hread⟩
      exact ⟨_, ⟨hin (hd.trans hany), hstart, rfl⟩, hread⟩
  · have hs := hd.trans (Bool.eq_false_of_not_eq_true hany)
    obtain ⟨-, rfl⟩ := (Part.liesAt_static_iff hs).mp hlies
    rw [if_neg hany, bind_eq_ok_iff]
    simp only [tupleInPlace_eq_ok_iff, hentries]
    constructor
    · rintro ⟨_, ⟨hin, rfl⟩, hread⟩
      exact ⟨fun hdyn ↦ absurd hdyn (by rw [hs]; exact Bool.false_ne_true), hin, hread⟩
    · rintro ⟨-, hin, hread⟩
      exact ⟨_, ⟨hin, rfl⟩, hread⟩

theorem readBackIff_tuple (hn : (tuple structName fields).Everywhere NumbersInRange)
    (hfields : ∀ f ∈ fields, ∀ v p, Packed (f.type, v) p → ReadBackIff (f.type, v) p)
    (hp : Packed (tuple structName fields, v) p) : ReadBackIff (tuple structName fields, v) p := by
  intro data rest index start h hlies
  have hdata := length_lt_of_append h
  have hhead (v' : Value) (hok : (tuple structName fields).unpack index data = .ok v') :=
    head_le_of_unpack hn hp hdata hok
  obtain ⟨-, hnf⟩ := everywhere_tuple_iff.mp hn
  obtain ⟨hd, hpack⟩ := hp
  obtain ⟨entries, values, parts, rfl, hvalues, hparts, -, hbytes⟩ := pack_tuple_eq_ok_iff.mp hpack
  have hn' : ∀ x ∈ (fields.map Field.type).zip values, x.1.Everywhere NumbersInRange :=
    forall_mem_zip_types fun f hf _ ↦ hnf f hf
  have hsized := sized_of_numbersInRange hparts hn'
  have hpadding := paddingLength_endOf_le hparts hn'
  have hblock := hlies.1
  have hlength := Part.length_block parts
  rw [← hbytes] at hblock
  rw [isDynamic] at hd
  rw [normalize]
  constructor
  · intro hok
    obtain ⟨-, hstart, hread⟩ := (unpack_tuple_eq_ok_iff h hlies hd).mp hok
    rw [unpackFields_block_iff h hvalues hsized hnf hfields hblock hstart] at hread
    refine ⟨hhead _ hok, ?_, ?_⟩
    · rw [endContent, endContent_fields hvalues, ← hbytes]
      exact hread.1
    · rw [runs, runs_fields hvalues]
      exact hread.2
  · rintro ⟨hhead, hcontent, hruns⟩
    rw [endContent, endContent_fields hvalues, ← hbytes] at hcontent
    rw [runs, runs_fields hvalues] at hruns
    have hstart : start ≤ data.length := by omega
    refine (unpack_tuple_eq_ok_iff h hlies hd).mpr ⟨fun hdyn ↦ ?_, hstart, ?_⟩
    · rwa [Part.headLength_of_dynamic hdyn] at hhead
    · exact (unpackFields_block_iff h hvalues hsized hnf hfields hblock hstart).mpr
        ⟨hcontent, hruns⟩

end Fields

/-- **A value is read back from the front of a payload exactly if the front is enough.** -/
theorem readBackIff_of_packed {t : AbiType} (hn : t.Everywhere NumbersInRange) {v : Value}
    {p : Part} (hp : Packed (t, v) p) : ReadBackIff (t, v) p := by
  induction t using induct generalizing v p with
  | uint bits =>
    exact readBackIff_word hp.1 ((measures_of_pack hn hp.2).static rfl) rfl fun hdata hb ↦
      unpack_uint_of_standsAt hdata hp.2 hb
  | int bits =>
    exact readBackIff_word hp.1 ((measures_of_pack hn hp.2).static rfl) rfl fun hdata hb ↦
      unpack_int_of_standsAt hdata hp.2 hb
  | bool =>
    exact readBackIff_word hp.1 ((measures_of_pack hn hp.2).static rfl) rfl fun hdata hb ↦
      unpack_bool_of_standsAt hdata hp.2 hb
  | fixedBytes length =>
    exact readBackIff_word hp.1 ((measures_of_pack hn hp.2).static rfl) rfl fun hdata hb ↦
      unpack_fixedBytes_of_standsAt hn.here.2 hdata hp.2 hb
  | address =>
    exact readBackIff_word hp.1 ((measures_of_pack hn hp.2).static rfl) rfl fun hdata hb ↦
      unpack_address_of_standsAt hdata hp.2 hb
  | function =>
    exact readBackIff_word hp.1 ((measures_of_pack hn hp.2).static rfl) rfl fun hdata hb ↦
      unpack_function_of_standsAt hdata hp.2 hb
  | string =>
    obtain ⟨s, hv, hbytes⟩ := pack_string_eq_ok_iff.mp hp.2
    subst hv
    refine readBackIff_counted hp.1 hbytes rfl rfl readText ?_ fun index data ↦ ?_
    · rw [readText, fromUTF8?_toUTF8]
      rfl
    · rw [unpack]
  | bytes =>
    obtain ⟨c, hv, hbytes⟩ := pack_bytes_eq_ok_iff.mp hp.2
    refine readBackIff_counted (t := bytes) hp.1 hbytes hv ?_ (fun b ↦ .ok (.bytes b)) ?_
      fun index data ↦ ?_
    · obtain rfl | rfl := Value.bytes?_eq_some_iff.mp hv
      · rfl
      · rfl
    · obtain rfl | rfl := Value.bytes?_eq_some_iff.mp hv
      · rfl
      · rfl
    · rw [unpack]
      rfl
  | slice elem ih =>
    have hne := (everywhere_slice_iff.mp hn).2
    exact readBackIff_slice hne (fun _ _ ↦ ih hne) hp
  | array elem length ih =>
    have hne := (everywhere_array_iff.mp hn).2
    exact readBackIff_array hn (fun _ _ ↦ ih hne) hp
  | tuple structName fields ih =>
    have hnf := (everywhere_tuple_iff.mp hn).2
    exact readBackIff_tuple hn (fun f hf _ _ ↦ ih f hf (hnf f hf)) hp

end AbiType

/-! ## Argument lists -/

namespace Arguments

variable {args : Arguments} {values : List Value} {b : Bytes}

theorem nonIndexed_eq_self (hi : ∀ a ∈ args, a.indexed = false) : args.nonIndexed = args := by
  rw [nonIndexed, List.filter_eq_self]
  intro a ha
  rw [hi a ha]
  rfl

/-- The values come back from the front of a payload exactly if all of it is there but the padding
at the end, and the elements without room are covered. -/
theorem unpackValues_front_iff (hn : ∀ a ∈ args, a.type.Everywhere AbiType.NumbersInRange)
    (hi : ∀ a ∈ args, a.indexed = false) (hpack : args.pack values = .ok b)
    (h : (data ++ rest).length < offsetLimit) (hb : b.StandsAt (data ++ rest) 0) :
    args.unpackValues data = .ok ((args.zip values).map fun (a, v) ↦ a.type.normalize v) ↔
      b.length ≤ data.length + paddingLength (args.endContent values) ∧
        ∀ r ∈ args.runs values, r.stop ≤ data.length := by
  obtain ⟨parts, hlength, hparts, -, rfl⟩ := pack_eq_ok_iff.mp hpack
  have hn' : ∀ x ∈ (args.map Argument.type).zip values,
      x.1.Everywhere AbiType.NumbersInRange := AbiType.forall_mem_zip_types fun a ha _ ↦ hn a ha
  have hread : ∀ x ∈ (args.map Argument.type).zip values, ∀ p, AbiType.Packed x p →
      AbiType.ReadBackIff x p := fun x hx _ hp ↦ AbiType.readBackIff_of_packed (hn' x hx) hp
  have hvalues := AbiType.unpackTypes_block_iff h (AbiType.sized_of_numbersInRange hparts hn') hn'
    hread hb (Nat.zero_le _)
  rw [List.map_fst_zip (by rw [List.length_map, hlength])] at hvalues
  simp only [List.drop_zero, Nat.zero_add] at hvalues
  rw [unpackValues_eq (length_lt_of_append h), nonIndexed_eq_self hi,
    AbiType.endContent_arguments, AbiType.runs_arguments, ← hvalues, List.zip_map_left,
    List.map_map]
  rfl

end Arguments

end ContractAbi
