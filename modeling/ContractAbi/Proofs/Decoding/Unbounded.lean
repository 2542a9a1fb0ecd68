import ContractAbi.Proofs.AbiType.Parsed
import ContractAbi.Proofs.Decoding.Guarded
import ContractAbi.Proofs.Decoding.Room

/-!
# Machine arithmetic does not show

Unpacking gives the same result whether it computes with the arithmetic of the machine or with
natural numbers, and no slice it takes is outside the payload. Both follow from what the two
arithmetics share, `Arithmetic.Sound`: they are right below the limits. Reading keeps below the
limits since a position is only computed behind values that were read, and those had room for their
exact heads.
-/

namespace ContractAbi

namespace Decoding

/-! ## Runs that nothing stops -/

namespace Guarded

variable {α β : Type}

/-- Steps that agree with a result, one after the other. -/
theorem bind_eq_ran {x : Guarded α} {y : Except AbiError α} {f : α → Guarded β}
    {g : α → Except AbiError β} (hx : x = ran y) (hf : ∀ a, y = .ok a → f a = ran (g a)) :
    x >>= f = ran (y >>= g) := by
  rw [hx]
  cases y with
  | error e => rfl
  | ok a => exact hf a rfl

theorem ran_ok_bind (a : α) (f : α → Guarded β) : ran (.ok a) >>= f = f a := rfl

theorem pure_eq_ran (a : α) : (pure a : Guarded α) = ran (.ok a) := rfl

theorem throw_eq_ran (e : AbiError) : (throw e : Guarded α) = ran (.error e) := rfl

theorem slice_eq {data : Bytes} {start stop : Nat} (hstart : start ≤ stop)
    (hstop : stop ≤ data.length) :
    slice data start stop = ran (.ok ((data.drop start).take (stop - start))) := by
  rw [slice, if_pos ⟨hstart, hstop⟩]

theorem rest_eq {data : Bytes} {start : Nat} (h : start ≤ data.length) :
    rest data start = ran (.ok (data.drop start)) := by
  rw [rest, slice_eq h (Nat.le_refl _), List.take_of_length_le (by rw [List.length_drop])]

theorem wordBefore_eq {data : Bytes} {stop : Nat} (hstart : wordSize ≤ stop)
    (hstop : stop ≤ data.length) :
    wordBefore data stop = ran (.ok ((data.drop (stop - wordSize)).take wordSize)) := by
  rw [wordBefore, if_pos hstart, slice_eq (Nat.sub_le _ _) hstop, Nat.sub_sub_self hstart]

end Guarded

open Guarded

namespace Arithmetic

/-! ## What the two have in common -/

/-- Right wherever the result is a count, and nothing is refused before it. -/
structure Sound (A : Arithmetic) : Prop where
  headSize_eq {t : AbiType} : t.headWidth ≤ Count.limit → A.headSize t = t.headWidth
  addSlots_eq {m n : Nat} : m + n ≤ Count.limit → A.addSlots m n = m + n
  add?_eq {m n : Nat} : m + n ≤ Count.limit → A.add? m n = some (m + n)
  eq_of_add? {m n k : Nat} : A.add? m n = some k → m + n = k
  mul?_eq {m n : Nat} : m * n ≤ Count.limit → A.mul? m n = some (m * n)
  eq_of_mul? {m n k : Nat} : A.mul? m n = some k → m * n = k
  tooLarge_eq {n : Nat} : n < offsetLimit → A.tooLarge n = false
  toCount_eq {n : Nat} : n ≤ Count.limit → A.toCount n = n

theorem machine_sound : machine.Sound where
  headSize_eq := AbiType.headSize_eq_headWidth
  addSlots_eq h := Nat.min_eq_left h
  add?_eq h := Count.add?_eq_some_iff.mpr ⟨h, rfl⟩
  eq_of_add? h := (Count.add?_eq_some_iff.mp h).2
  mul?_eq h := Count.mul?_eq_some_iff.mpr ⟨h, rfl⟩
  eq_of_mul? h := (Count.mul?_eq_some_iff.mp h).2
  tooLarge_eq h := decide_eq_false (Nat.not_le_of_lt h)
  toCount_eq := lowCount_eq

theorem unbounded_sound : unbounded.Sound where
  headSize_eq _ := rfl
  addSlots_eq _ := rfl
  add?_eq _ := rfl
  eq_of_add? h := Option.some.inj h
  mul?_eq _ := rfl
  eq_of_mul? h := Option.some.inj h
  tooLarge_eq _ := rfl
  toCount_eq _ := rfl

namespace Sound

variable {A : Arithmetic} (hA : A.Sound) {data : Bytes} {index : Nat}

/-! ## Readers -/

include hA

theorem readWord_eq (hdata : data.length < offsetLimit) :
    A.readWord data index = ran (Decoding.readWord data index) := by
  have hlimit := offsetLimit_le_limit
  rw [Decoding.readWord_eq hdata, Arithmetic.readWord]
  by_cases hin : index + wordSize ≤ data.length
  · rw [hA.add?_eq (by omega), if_pos hin]
    dsimp only
    rw [if_pos hin, slice_eq (Nat.le_add_right _ _) hin, Nat.add_sub_cancel_left]
    rfl
  · rw [if_neg hin]
    split
    · rfl
    · rename_i stop hstop
      rw [← hA.eq_of_add? hstop, if_neg hin]
      rfl

omit hA in
theorem tupleInPlace_eq :
    Arithmetic.tupleInPlace data index = ran (Decoding.tupleInPlace data index) := by
  rw [Arithmetic.tupleInPlace, Decoding.tupleInPlace]
  by_cases hin : index ≤ data.length
  · rw [if_pos hin, if_pos hin, rest_eq hin]
  · rw [if_neg hin, if_neg hin]
    rfl

theorem arrayInPlace_eq (hdata : data.length < offsetLimit) :
    A.arrayInPlace data index = ran (Decoding.arrayInPlace data index) := by
  refine bind_eq_ran (hA.readWord_eq hdata) fun w hw ↦ ?_
  have hle := add_wordSize_le_of_readWord hdata hw
  exact rest_eq (by omega)

theorem block_eq (hdata : data.length < offsetLimit) :
    A.block data index = ran (Decoding.block data index) := by
  have hlimit := offsetLimit_le_limit
  refine bind_eq_ran (hA.readWord_eq hdata) fun w _ ↦ ?_
  dsimp only
  by_cases hin : w.toNat ≤ data.length
  · rw [if_neg (by omega), hA.tooLarge_eq (by omega), if_neg Bool.false_ne_true, if_neg (by omega),
      if_neg (by omega), hA.toCount_eq (by omega), lowCount_eq (by omega), rest_eq hin]
  · rw [if_pos (by omega), if_pos (by omega), throw_eq_ran]

theorem contentAt_eq (hdata : data.length < offsetLimit) :
    A.contentAt data index = ran (Decoding.contentAt data index) := by
  have hlimit := offsetLimit_le_limit
  refine bind_eq_ran (hA.readWord_eq hdata) fun w _ ↦ ?_
  dsimp only
  -- the error that stays comes first; no payload reaches far enough for the one that goes
  by_cases hwraps : Word.modulus ≤ w.toNat + wordSize
  · rw [if_pos hwraps, if_pos hwraps, throw_eq_ran]
  rw [if_neg hwraps, if_neg hwraps]
  by_cases hin : w.toNat + wordSize ≤ data.length
  · rw [if_neg (by omega), hA.tooLarge_eq (by omega), if_neg Bool.false_ne_true, if_neg (by omega),
      if_neg (by omega), hA.toCount_eq (by omega), lowCount_eq (by omega),
      wordBefore_eq (Nat.le_add_left _ _) hin, ran_ok_bind]
    generalize Bytes.toNat ((data.drop (w.toNat + wordSize - wordSize)).take wordSize) = length
    by_cases hlarge : offsetLimit ≤ w.toNat + wordSize + length
    · rw [if_pos hlarge, if_pos hlarge, throw_eq_ran]
    rw [if_neg hlarge, if_neg hlarge]
    by_cases hend : w.toNat + wordSize + length ≤ data.length
    · rw [if_neg (by omega), if_neg (by omega), hA.toCount_eq (by omega), lowCount_eq (by omega),
        pure_eq_ran]
    · rw [if_pos (by omega), if_pos (by omega), throw_eq_ran]
  · rw [if_pos (by omega), if_pos (by omega), throw_eq_ran]

theorem slotIndex_eq {slot : Nat} (h : slot * wordSize ≤ Count.limit) :
    A.slotIndex slot = ran (Decoding.slotIndex slot) := by
  rw [Arithmetic.slotIndex, hA.mul?_eq h, ContractAbi.slotIndex_eq h]
  rfl

/-- Both counters move on alike past a head that is within a count. -/
theorem addSlots_headSize {slot : Nat} {t : AbiType}
    (h : slot * wordSize + t.headWidth ≤ Count.limit) :
    A.addSlots slot (A.headSize t / wordSize) = Count.addCapped slot t.headSlots := by
  have hhead : t.headWidth ≤ Count.limit := Nat.le_of_add_left_le h
  have hcap := add_headSlots_le h
  rw [hA.headSize_eq hhead, ← AbiType.headSize_eq_headWidth hhead, ← AbiType.headSlots,
    hA.addSlots_eq hcap, Count.addCapped, Nat.min_eq_left hcap]

theorem mul?_headSize {elem : AbiType} {i : Nat} (h : i * elem.headWidth ≤ Count.limit) :
    A.mul? i (A.headSize elem) = some (i * elem.headWidth) := by
  rcases Nat.eq_zero_or_pos i with rfl | hi
  -- the first element is at the front, whatever its size was capped to
  · rw [hA.mul?_eq (by simp), Nat.zero_mul, Nat.zero_mul]
  · have hone : elem.headWidth ≤ Count.limit :=
      Nat.le_trans (Nat.le_mul_of_pos_left _ hi) h
    rw [hA.headSize_eq hone, hA.mul?_eq h]

/-! ## Loops -/

omit hA in
/-- Two loops over indices that agree as long as there is room for the elements before. -/
theorem mapM_range'_eq_ran (hdata : data.length < offsetLimit) (elem : AbiType)
    {guarded : Nat → Guarded Value} {read : Nat → Except AbiError Value}
    (hagree : ∀ i, i * elem.headWidth ≤ data.length → guarded i = ran (read i))
    (hread : ∀ i, i * elem.headWidth ≤ data.length →
      read i = elem.unpack (i * elem.headWidth) data)
    (count : Nat) {first : Nat} (hfirst : first * elem.headWidth ≤ data.length) :
    (List.range' first count).mapM guarded = ran ((List.range' first count).mapM read) := by
  induction count generalizing first with
  | zero => rfl
  | succ count ih =>
    rw [List.range'_succ, List.mapM_cons, List.mapM_cons]
    refine bind_eq_ran (hagree first hfirst) fun v hv ↦ ?_
    -- an element was read, so the next position is inside as well
    rw [hread first hfirst] at hv
    have hle := elem.fitsWhereRead hdata hv
    rw [← Nat.succ_mul] at hle
    exact bind_eq_ran (ih hle) fun _ _ ↦ rfl

theorem readSequence_eq (hdata : data.length < offsetLimit) {elem : AbiType}
    (helem : ∀ index, A.unpack elem index data = ran (elem.unpack index data)) (count : Nat) :
    A.readSequence elem (fun i ↦ A.unpack elem i data) data count
      = ran (Decoding.readSequence elem (fun i ↦ elem.unpack i data) data count) := by
  have hlimit := offsetLimit_le_limit
  have hfits : (A.mul? count wordSize).filter (· ≤ data.length)
      = (Count.mul? count wordSize).filter (· ≤ data.length) := by
    rw [filter_mul?_eq hdata]
    exact filter_le_eq (fun h ↦ hA.mul?_eq (by omega)) fun _ h ↦ hA.eq_of_mul? h
  rw [Arithmetic.readSequence, Decoding.readSequence, hfits]
  cases (Count.mul? count wordSize).filter (· ≤ data.length) with
  | none => rfl
  | some _ =>
    dsimp only
    rw [List.range_eq_range']
    refine bind_eq_ran (mapM_range'_eq_ran hdata elem (fun i hi ↦ ?_) (fun i hi ↦ ?_)
      count (by omega)) fun _ _ ↦ rfl
    · rw [hA.mul?_headSize (by omega), ContractAbi.mul?_headSize (by omega)]
      exact helem _
    · rw [ContractAbi.mul?_headSize (by omega)]

theorem unpackFields_eq (hdata : data.length < offsetLimit) {fields : List (Field AbiType)}
    (hfields : ∀ f ∈ fields, ∀ index, A.unpack f.type index data = ran (f.type.unpack index data))
    {slot : Nat} (hslot : slot * wordSize ≤ data.length) :
    A.unpackFields fields slot data = ran (AbiType.unpackFields fields slot data) := by
  have hlimit := offsetLimit_le_limit
  induction fields generalizing slot with
  | nil => rfl
  | cons f fields ih =>
    obtain ⟨hf, hrest⟩ := List.forall_mem_cons.mp hfields
    rw [Arithmetic.unpackFields, AbiType.unpackFields]
    refine bind_eq_ran (hA.slotIndex_eq (by omega)) fun index hindex ↦ ?_
    rw [ContractAbi.slotIndex_eq (by omega), Except.ok.injEq] at hindex
    subst hindex
    refine bind_eq_ran (hf _) fun v hv ↦ ?_
    -- the field was read, so its exact head is inside and the counters are below their caps
    have hle := f.type.fitsWhereRead hdata hv
    have hnext : Count.addCapped slot f.type.headSlots * wordSize
        = slot * wordSize + f.type.headWidth := addCapped_headSlots (by omega)
    rw [hA.addSlots_headSize (by omega)]
    exact bind_eq_ran (ih hrest (by omega)) fun _ _ ↦ rfl

/-! ## Values -/

/-- Either arithmetic gives the result of unpacking, and no slice stops it. -/
theorem unpack_eq {t : AbiType} (hn : t.Everywhere AbiType.NumbersInRange)
    (hdata : data.length < offsetLimit) :
    A.unpack t index data = ran (t.unpack index data) := by
  induction t using AbiType.induct generalizing index data with
  | uint bits => exact bind_eq_ran (hA.readWord_eq hdata) fun _ _ ↦ rfl
  | int bits => exact bind_eq_ran (hA.readWord_eq hdata) fun _ _ ↦ rfl
  | bool => exact bind_eq_ran (hA.readWord_eq hdata) fun _ _ ↦ rfl
  | address => exact bind_eq_ran (hA.readWord_eq hdata) fun _ _ ↦ rfl
  | function => exact bind_eq_ran (hA.readWord_eq hdata) fun _ _ ↦ rfl
  | fixedBytes length =>
    refine bind_eq_ran (hA.readWord_eq hdata) fun w _ ↦ ?_
    have hle : length ≤ (Word.toBytes w).length := by
      rw [Word.length_toBytes]
      exact hn.here.2
    rw [slice_eq (Nat.zero_le _) hle]
    rfl
  | string =>
    refine bind_eq_ran (hA.contentAt_eq hdata) fun (start, length) h ↦ ?_
    obtain ⟨_, -, -, hle, -⟩ := (contentAt_eq_ok_iff hdata).mp h
    dsimp only
    rw [slice_eq (Nat.le_add_right _ _) hle, Nat.add_sub_cancel_left, ran_ok_bind]
  | bytes =>
    refine bind_eq_ran (hA.contentAt_eq hdata) fun (start, length) h ↦ ?_
    obtain ⟨_, -, -, hle, -⟩ := (contentAt_eq_ok_iff hdata).mp h
    dsimp only
    rw [slice_eq (Nat.le_add_right _ _) hle, Nat.add_sub_cancel_left]
    rfl
  | slice elem ih =>
    have helem := (AbiType.everywhere_slice_iff.mp hn).2
    refine bind_eq_ran (hA.contentAt_eq hdata) fun (start, length) h ↦ ?_
    obtain ⟨_, -, -, hle, -⟩ := (contentAt_eq_ok_iff hdata).mp h
    dsimp only
    rw [rest_eq (by omega), ran_ok_bind]
    exact hA.readSequence_eq (length_drop_lt hdata) (fun _ ↦ ih helem (length_drop_lt hdata)) length
  | array elem length ih =>
    have helem := (AbiType.everywhere_array_iff.mp hn).2
    rw [Arithmetic.unpack, AbiType.unpack]
    by_cases hd : elem.isDynamic = true
    · rw [if_pos hd, if_pos hd]
      refine bind_eq_ran (hA.block_eq hdata) fun body hbody ↦ ?_
      obtain ⟨_, -, -, rfl⟩ := (block_eq_ok_iff hdata).mp hbody
      exact hA.readSequence_eq (length_drop_lt hdata)
        (fun _ ↦ ih helem (length_drop_lt hdata)) length
    · rw [if_neg hd, if_neg hd]
      refine bind_eq_ran (hA.arrayInPlace_eq hdata) fun body hbody ↦ ?_
      obtain ⟨-, rfl⟩ := (arrayInPlace_eq_ok_iff hdata).mp hbody
      exact hA.readSequence_eq (length_drop_lt hdata)
        (fun _ ↦ ih helem (length_drop_lt hdata)) length
  | tuple structName fields ih =>
    have hfields := (AbiType.everywhere_tuple_iff.mp hn).2
    have hbody {n : Nat} : A.unpackFields fields 0 (data.drop n)
        = ran (AbiType.unpackFields fields 0 (data.drop n)) :=
      hA.unpackFields_eq (length_drop_lt hdata)
        (fun f hf _ ↦ ih f hf (hfields f hf) (length_drop_lt hdata))
        (by omega)
    rw [Arithmetic.unpack, AbiType.unpack]
    by_cases hd : AbiType.anyDynamic fields = true
    · rw [if_pos hd, if_pos hd]
      refine bind_eq_ran (hA.block_eq hdata) fun body hblock ↦ ?_
      obtain ⟨_, -, -, rfl⟩ := (block_eq_ok_iff hdata).mp hblock
      exact bind_eq_ran hbody fun _ _ ↦ rfl
    · rw [if_neg hd, if_neg hd]
      refine bind_eq_ran tupleInPlace_eq fun body hplace ↦ ?_
      obtain ⟨-, rfl⟩ := tupleInPlace_eq_ok_iff.mp hplace
      exact bind_eq_ran hbody fun _ _ ↦ rfl

end Sound

end Arithmetic

end Decoding

namespace AbiType

open Decoding

/-- **The arithmetic of the machine does not show.** Unpacking gives the value or error that it
gives with natural numbers, every slice is inside the payload with either arithmetic, and a value
that was read had room for its exact head. -/
theorem unpack_eq_unbounded {t : AbiType} (ht : t.Parsed) {data : Bytes}
    (hdata : data.length < offsetLimit) (index : Nat) :
    (Arithmetic.unbounded.unpack t index data).run = some (t.unpack index data) ∧
      (Arithmetic.machine.unpack t index data).run = some (t.unpack index data) ∧
      ∀ v, t.unpack index data = .ok v → index + t.headWidth ≤ data.length := by
  have hn := ht.numbersInRange
  refine ⟨?_, ?_, ?_⟩
  · exact Arithmetic.unbounded_sound.unpack_eq hn hdata
  · exact Arithmetic.machine_sound.unpack_eq hn hdata
  · intro v hv
    exact t.fitsWhereRead hdata hv

/-- A head of 2^85 bytes, in a payload of a single word. -/
theorem unpack_unbounded_too_long :
    (Arithmetic.unbounded.unpack (array (array (uint 8) 1099511627776) 1099511627776) 0
        (Bytes.zeros 32)).run
      = some (.error (.insufficientLength 32 (.words 1099511627776))) := by
  have hparsed : (array (array (uint 8) 1099511627776) 1099511627776).Parsed :=
    ⟨"uint8[1099511627776][1099511627776]", "", [], rfl⟩
  rw [(unpack_eq_unbounded hparsed (by decide) 0).1]
  decide +kernel

end AbiType

end ContractAbi
