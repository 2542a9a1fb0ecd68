import ContractAbi.Proofs.Decoding.Room

/-!
# Longer payloads

What is read from a payload is read again when bytes are appended to it, and what is refused is
refused again with the same error, unless it was refused for its length. So a verdict that does not
blame the length is final.

Two runs are compared here, over payloads of different length. Each bound that a reader tests is a
bound on the length, which only grows; the runs can differ in a single way, that the shorter one
fails such a test. `Carries` says that they differ in no other. It goes along with a sequence of
steps, so the first error of the shorter run stays the first error of the longer one, whatever way
the offsets lead.
-/

namespace ContractAbi

open Decoding

/-! ## Two runs -/

section Runs

variable {α β γ δ : Type}

/-- A result that does not blame the length of the payload. -/
def Settled (x : Except AbiError α) : Prop :=
  ∀ available required, x ≠ .error (.insufficientLength available required)

/-- The second run ends as the first one does, with a related value or the same error, unless the
first one blames the length of its payload. -/
def Carries (R : α → β → Prop) : Except AbiError α → Except AbiError β → Prop
  | .ok a, y => ∃ b, y = .ok b ∧ R a b
  | .error e, y => (∃ available required, e = .insufficientLength available required) ∨ y = .error e

theorem carries_ok {R : α → β → Prop} {a : α} {b : β} (h : R a b) : Carries R (.ok a) (.ok b) :=
  ⟨b, rfl, h⟩

theorem carries_error (R : α → β → Prop) (e : AbiError) : Carries R (.error e) (.error e) :=
  Or.inr rfl

theorem carries_insufficient (R : α → β → Prop) (available : Nat) (required : Requirement)
    (y : Except AbiError β) : Carries R (.error (.insufficientLength available required)) y :=
  Or.inl ⟨available, required, rfl⟩

/-- Steps that carry over, one after the other. -/
theorem Carries.bind {R : α → β → Prop} {S : γ → δ → Prop} {x : Except AbiError α}
    {y : Except AbiError β} {f : α → Except AbiError γ} {g : β → Except AbiError δ}
    (h : Carries R x y) (hf : ∀ a b, R a b → Carries S (f a) (g b)) :
    Carries S (x >>= f) (y >>= g) := by
  cases x with
  | ok a =>
    obtain ⟨b, rfl, hab⟩ := h
    exact hf a b hab
  | error e =>
    rcases h with ⟨available, required, rfl⟩ | rfl
    · exact carries_insufficient S available required _
    · exact carries_error S e

/-- A step that carries over, with the same way on. -/
theorem Carries.bind_eq {x y : Except AbiError α} (h : Carries Eq x y)
    (f : α → Except AbiError γ) : Carries Eq (x >>= f) (y >>= f) := by
  refine h.bind fun a b hab ↦ ?_
  subst hab
  cases f a with
  | ok c => exact carries_ok rfl
  | error e => exact carries_error Eq e

theorem Carries.eq_of_settled {x y : Except AbiError α} (h : Carries Eq x y) (hx : Settled x) :
    y = x := by
  cases x with
  | ok a =>
    obtain ⟨b, rfl, rfl⟩ := h
    rfl
  | error e =>
    rcases h with ⟨available, required, rfl⟩ | rfl
    · exact absurd rfl (hx available required)
    · rfl

/-- A run that carries over to one with a value has that value already, or blames the length. -/
theorem Carries.eq_ok_or_insufficient {x y : Except AbiError α} (h : Carries Eq x y) {a : α}
    (hy : y = .ok a) :
    x = .ok a ∨ ∃ available required, x = .error (.insufficientLength available required) := by
  subst hy
  cases x with
  | ok b =>
    obtain ⟨c, hc, rfl⟩ := h
    exact Or.inl hc.symm
  | error e =>
    rcases h with ⟨available, required, rfl⟩ | he
    · exact Or.inr ⟨available, required, rfl⟩
    · cases he

end Runs

/-! ## Readers

Every reader without its limits on counts, which no payload of a signed length reaches: what is left
are tests of the length. -/

namespace Decoding

variable {data : Bytes} {index : Nat}

theorem arrayInPlace_eq (hdata : data.length < offsetLimit) :
    arrayInPlace data index =
      if index + wordSize ≤ data.length then .ok (data.drop index)
      else .error (beyond data index) := by
  rw [arrayInPlace, readWord_eq hdata]
  by_cases hin : index + wordSize ≤ data.length
  · rw [if_pos hin, if_pos hin]
    rfl
  · rw [if_neg hin, if_neg hin]
    rfl

theorem block_eq (hdata : data.length < offsetLimit) :
    block data index = (readWord data index >>= fun w ↦
      if w.toNat ≤ data.length then .ok (data.drop w.toNat)
      else .error (.insufficientLength data.length (.bytes w.toNat))) := by
  have hlimit := offsetLimit_le_limit
  refine congrArg (readWord data index >>= ·) (funext fun w ↦ ?_)
  by_cases hin : w.toNat ≤ data.length
  · rw [if_neg (by omega), if_neg (by omega), lowCount_eq (by omega), if_pos hin]
  · rw [if_pos (by omega), if_neg hin]

/-- The count of a content that begins at byte `start`, behind the count. -/
def countBefore (data : Bytes) (start : Nat) : Nat :=
  Bytes.toNat ((data.drop (start - wordSize)).take wordSize)

theorem contentAt_eq (hdata : data.length < offsetLimit) :
    contentAt data index = (readWord data index >>= fun w ↦
      let start := w.toNat + wordSize
      if Word.modulus ≤ start then .error (.offsetOverflow (.wraps w.toNat))
      else if start ≤ data.length then
        if offsetLimit ≤ start + countBefore data start then
          .error (.offsetOverflow (.lengthTooLarge (countBefore data start)))
        else if start + countBefore data start ≤ data.length then
          .ok (start, countBefore data start)
        else .error (.insufficientLength data.length (.bytes (start + countBefore data start)))
      else .error (.insufficientLength data.length (.bytes start))) := by
  have hlimit := offsetLimit_le_limit
  refine congrArg (readWord data index >>= ·) (funext fun w ↦ ?_)
  dsimp only
  by_cases hwraps : Word.modulus ≤ w.toNat + wordSize
  · rw [if_pos hwraps, if_pos hwraps]
  rw [if_neg hwraps, if_neg hwraps]
  by_cases hin : w.toNat + wordSize ≤ data.length
  · rw [if_neg (by omega), if_neg (by omega), if_pos hin, lowCount_eq (by omega), ← countBefore]
    by_cases hlarge : offsetLimit ≤ w.toNat + wordSize + countBefore data (w.toNat + wordSize)
    · rw [if_pos hlarge, if_pos hlarge]
    rw [if_neg hlarge, if_neg hlarge]
    by_cases hend : w.toNat + wordSize + countBefore data (w.toNat + wordSize) ≤ data.length
    · rw [if_neg (by omega), if_pos hend, lowCount_eq (by omega)]
    · rw [if_pos (by omega), if_neg hend]
  · rw [if_pos (by omega), if_neg hin]

end Decoding

/-! ## Readers of a longer payload -/

variable {data extra : Bytes} {index : Nat}

/-- The rest of a payload, and the rest of a longer one from the same position. -/
def Extended (extra body body' : Bytes) : Prop :=
  body' = body ++ extra ∧ body'.length < offsetLimit

theorem extended_drop (h : (data ++ extra).length < offsetLimit) {n : Nat} (hn : n ≤ data.length) :
    Extended extra (data.drop n) ((data ++ extra).drop n) :=
  ⟨List.drop_append_of_le_length hn, length_drop_lt h⟩

theorem length_lt_of_append (h : (data ++ extra).length < offsetLimit) :
    data.length < offsetLimit := by
  rw [List.length_append] at h
  omega

/-- What lies inside the shorter payload is the same in both. -/
theorem take_drop_append {start length : Nat} (h : start + length ≤ data.length) :
    ((data ++ extra).drop start).take length = (data.drop start).take length := by
  rw [List.drop_append_of_le_length (by omega),
    List.take_append_of_le_length (by rw [List.length_drop]; omega)]

/-- A test of the length that the shorter payload passes is passed by the longer one. -/
theorem carries_ite_le {α β : Type} {R : α → β → Prop} {x : Except AbiError α}
    {y z : Except AbiError β} {n available : Nat} {required : Requirement}
    (h : n ≤ data.length → Carries R x y) :
    Carries R (if n ≤ data.length then x else .error (.insufficientLength available required))
      (if n ≤ (data ++ extra).length then y else z) := by
  by_cases hin : n ≤ data.length
  · rw [if_pos hin, if_pos (by rw [List.length_append]; omega)]
    exact h hin
  · rw [if_neg hin]
    exact carries_insufficient R available required _

namespace Decoding

theorem readWord_carries (h : (data ++ extra).length < offsetLimit) :
    Carries Eq (readWord data index) (readWord (data ++ extra) index) := by
  rw [readWord_eq (length_lt_of_append h), readWord_eq h]
  refine carries_ite_le fun hin ↦ ?_
  rw [take_drop_append hin]
  exact carries_ok rfl

theorem tupleInPlace_carries (h : (data ++ extra).length < offsetLimit) :
    Carries (Extended extra) (tupleInPlace data index) (tupleInPlace (data ++ extra) index) :=
  carries_ite_le fun hin ↦ carries_ok (extended_drop h hin)

theorem arrayInPlace_carries (h : (data ++ extra).length < offsetLimit) :
    Carries (Extended extra) (arrayInPlace data index) (arrayInPlace (data ++ extra) index) := by
  rw [arrayInPlace_eq (length_lt_of_append h), arrayInPlace_eq h]
  exact carries_ite_le fun hin ↦ carries_ok (extended_drop h (Nat.le_of_add_right_le hin))

/-- A block lies as far from the front of either payload. -/
theorem block_carries (h : (data ++ extra).length < offsetLimit) :
    Carries (Extended extra) (block data index) (block (data ++ extra) index) := by
  rw [block_eq (length_lt_of_append h), block_eq h]
  refine (readWord_carries h).bind fun w _ hw ↦ ?_
  subst hw
  exact carries_ite_le fun hin ↦ carries_ok (extended_drop h hin)

/-- A counted content is at the same place, and inside the shorter payload. -/
theorem contentAt_carries (h : (data ++ extra).length < offsetLimit) :
    Carries (fun p q ↦ p = q ∧ p.1 + p.2 ≤ data.length) (contentAt data index)
      (contentAt (data ++ extra) index) := by
  rw [contentAt_eq (length_lt_of_append h), contentAt_eq h]
  refine (readWord_carries h).bind fun w _ hw ↦ ?_
  subst hw
  dsimp only
  -- the two refusals that do not blame the length stand before the test that does
  by_cases hwraps : Word.modulus ≤ w.toNat + wordSize
  · rw [if_pos hwraps, if_pos hwraps]
    exact carries_error _ _
  rw [if_neg hwraps, if_neg hwraps]
  refine carries_ite_le fun hin ↦ ?_
  have hcount : countBefore (data ++ extra) (w.toNat + wordSize)
      = countBefore data (w.toNat + wordSize) := by
    rw [countBefore, countBefore, Nat.add_sub_cancel, take_drop_append hin]
  rw [hcount]
  by_cases hlarge : offsetLimit ≤ w.toNat + wordSize + countBefore data (w.toNat + wordSize)
  · rw [if_pos hlarge, if_pos hlarge]
    exact carries_error _ _
  rw [if_neg hlarge, if_neg hlarge]
  exact carries_ite_le fun hend ↦ carries_ok ⟨rfl, hend⟩

end Decoding

/-! ## Types one after the other -/

/-- What is read under the type, or refused for another reason than the length, is so in every
longer payload. -/
def AbiType.CarriesOver (t : AbiType) : Prop :=
  ∀ {data extra : Bytes} {index : Nat}, (data ++ extra).length < offsetLimit →
    Carries Eq (t.unpack index data) (t.unpack index (data ++ extra))

theorem unpackTypes_carries (h : (data ++ extra).length < offsetLimit) {ts : List AbiType}
    (hts : ∀ t ∈ ts, t.CarriesOver) :
    Carries Eq (unpackTypes data ts index) (unpackTypes (data ++ extra) ts index) := by
  induction ts generalizing index with
  | nil => exact carries_ok rfl
  | cons t ts ih =>
    obtain ⟨ht, hrest⟩ := List.forall_mem_cons.mp hts
    rw [unpackTypes, unpackTypes]
    refine (ht h).bind fun v _ hv ↦ ?_
    subst hv
    exact (ih hrest).bind_eq _

theorem readSequence_carries {elem : AbiType} (helem : elem.CarriesOver) {body body' : Bytes}
    (h : Extended extra body body') (count : Nat) :
    Carries Eq (readSequence elem (fun i ↦ elem.unpack i body) body count)
      (readSequence elem (fun i ↦ elem.unpack i body') body' count) := by
  obtain ⟨rfl, h⟩ := h
  rw [readSequence_eq (length_lt_of_append h) elem.fitsWhereRead,
    readSequence_eq h elem.fitsWhereRead]
  refine carries_ite_le fun _ ↦ (unpackTypes_carries h fun t ht ↦ ?_).bind_eq _
  rwa [List.eq_of_mem_replicate ht]

theorem unpackFields_carries {fields : List (Field AbiType)}
    (hfields : ∀ f ∈ fields, f.type.CarriesOver) {body body' : Bytes}
    (h : Extended extra body body') :
    Carries Eq (AbiType.unpackFields fields 0 body) (AbiType.unpackFields fields 0 body') := by
  obtain ⟨rfl, h⟩ := h
  rw [unpackFields_eq (length_lt_of_append h) (fun f _ ↦ f.type.fitsWhereRead) (by omega),
    unpackFields_eq h (fun f _ ↦ f.type.fitsWhereRead) (by omega)]
  exact (unpackTypes_carries h (List.forall_mem_map.mpr hfields)).bind_eq _

namespace AbiType

/-! ## Values -/

theorem carriesOver (t : AbiType) : t.CarriesOver := by
  induction t using induct with
  | uint bits =>
    intro data extra index h
    exact (readWord_carries h).bind_eq _
  | int bits =>
    intro data extra index h
    exact (readWord_carries h).bind_eq _
  | bool =>
    intro data extra index h
    exact (readWord_carries h).bind_eq _
  | address =>
    intro data extra index h
    exact (readWord_carries h).bind_eq _
  | fixedBytes length =>
    intro data extra index h
    exact (readWord_carries h).bind_eq _
  | function =>
    intro data extra index h
    exact (readWord_carries h).bind_eq _
  | string =>
    intro data extra index h
    rw [unpack, unpack]
    refine (contentAt_carries h).bind fun content _ hp ↦ ?_
    obtain ⟨rfl, hin⟩ := hp
    dsimp only
    rw [take_drop_append hin]
    exact Carries.bind_eq (carries_ok rfl) readText
  | bytes =>
    intro data extra index h
    rw [unpack, unpack]
    refine (contentAt_carries h).bind fun content _ hp ↦ ?_
    obtain ⟨rfl, hin⟩ := hp
    dsimp only
    rw [take_drop_append hin]
    exact carries_ok rfl
  | slice elem ih =>
    intro data extra index h
    rw [unpack, unpack]
    refine (contentAt_carries h).bind fun content _ hp ↦ ?_
    obtain ⟨rfl, hin⟩ := hp
    exact readSequence_carries ih (extended_drop h (Nat.le_of_add_right_le hin)) content.2
  | array elem length ih =>
    intro data extra index h
    rw [unpack, unpack]
    by_cases hd : elem.isDynamic = true
    · rw [if_pos hd, if_pos hd]
      exact (block_carries h).bind fun _ _ hbody ↦ readSequence_carries ih hbody length
    · rw [if_neg hd, if_neg hd]
      exact (arrayInPlace_carries h).bind fun _ _ hbody ↦ readSequence_carries ih hbody length
  | tuple structName fields ih =>
    intro data extra index h
    rw [unpack, unpack]
    by_cases hd : anyDynamic fields = true
    · rw [if_pos hd, if_pos hd]
      exact (block_carries h).bind fun _ _ hbody ↦ (unpackFields_carries ih hbody).bind_eq _
    · rw [if_neg hd, if_neg hd]
      exact (tupleInPlace_carries h).bind fun _ _ hbody ↦ (unpackFields_carries ih hbody).bind_eq _

end AbiType

/-! ## Argument lists -/

namespace Arguments

theorem unpackValues_carries (args : Arguments) (h : (data ++ extra).length < offsetLimit) :
    Carries Eq (args.unpackValues data) (args.unpackValues (data ++ extra)) := by
  rw [unpackValues, unpackValues,
    unpackFrom_eq (length_lt_of_append h) (fun a _ ↦ a.type.fitsWhereRead) (by omega),
    unpackFrom_eq h (fun a _ ↦ a.type.fitsWhereRead) (by omega)]
  exact unpackTypes_carries h (List.forall_mem_map.mpr fun a _ ↦ a.type.carriesOver)

/-- The same for payloads that may be empty, which are not refused for their length. -/
theorem unpack_carries (args : Arguments) (h : (data ++ extra).length < offsetLimit)
    (hempty : args.unpack data ≠ .error .emptyInputExpectedArguments) :
    Carries Eq (args.unpack data) (args.unpack (data ++ extra)) := by
  by_cases hdata : data = []
  · by_cases hnone : args.nonIndexed = []
    · have hnothing (payload : Bytes) : args.unpack payload = .ok [] := by
        rw [unpack, unpackValues, hnone, if_pos rfl, unpackFrom]
        split
        · rfl
        · rfl
      rw [hnothing, hnothing]
      exact carries_ok rfl
    · rw [unpack, if_pos hdata, if_neg hnone] at hempty
      exact absurd rfl hempty
  · have happend : data ++ extra ≠ [] := fun h0 ↦ hdata (List.append_eq_nil_iff.mp h0).1
    rw [unpack, unpack, if_neg hdata, if_neg happend]
    exact unpackValues_carries args h

end Arguments

/-- **A verdict that does not blame the length is final.** Appended bytes change neither a value nor
the error that a payload is refused with, except that a payload which was too short may be accepted
or refused otherwise, and an empty one may no longer be empty. -/
theorem unpack_append_of_settled :
    (∀ (t : AbiType) (index : Nat) (data extra : Bytes), (data ++ extra).length < offsetLimit →
      Settled (t.unpack index data) → t.unpack index (data ++ extra) = t.unpack index data) ∧
    ∀ (args : Arguments) (data extra : Bytes), (data ++ extra).length < offsetLimit →
      (Settled (args.unpackValues data) →
        args.unpackValues (data ++ extra) = args.unpackValues data) ∧
      (Settled (args.unpack data) → args.unpack data ≠ .error .emptyInputExpectedArguments →
        args.unpack (data ++ extra) = args.unpack data) := by
  refine ⟨fun t index data extra h hs ↦ ?_, fun args data extra h ↦ ⟨fun hs ↦ ?_, fun hs he ↦ ?_⟩⟩
  · exact (t.carriesOver h).eq_of_settled hs
  · exact (args.unpackValues_carries h).eq_of_settled hs
  · exact (args.unpack_carries h he).eq_of_settled hs

/-- A second element that is no truth value, and a string whose offset leads back to the offset
itself, which is then its length. -/
theorem unpack_append_of_bad_bool :
    (AbiType.array .bool 2).unpack 0 (Word.toBytes 1 ++ Word.toBytes 2 ++ [7])
        = .error .improperlyEncodedBool ∧
      Arguments.unpackValues [⟨"s", .string, false⟩] (countWord 0 ++ [7]) = .ok [.string ""] ∧
      Arguments.unpack [⟨"s", .string, false⟩] (countWord 0 ++ [7]) = .ok [.string ""] := by
  have hbool : (AbiType.array .bool 2).unpack 0 (Word.toBytes 1 ++ Word.toBytes 2)
      = .error .improperlyEncodedBool := by decide +kernel
  have hvalues : Arguments.unpackValues [⟨"s", .string, false⟩] (countWord 0)
      = .ok [.string ""] := by decide +kernel
  have hunpack : Arguments.unpack [⟨"s", .string, false⟩] (countWord 0) = .ok [.string ""] := by
    decide +kernel
  refine ⟨?_, ?_, ?_⟩
  · rw [unpack_append_of_settled.1 _ _ _ _ (by decide) (fun _ _ ↦ by rw [hbool]; nofun), hbool]
  · rw [(unpack_append_of_settled.2 _ _ _ (by decide)).1 (fun _ _ ↦ by rw [hvalues]; nofun),
      hvalues]
  · rw [(unpack_append_of_settled.2 _ _ _ (by decide)).2 (fun _ _ ↦ by rw [hunpack]; nofun)
      (by rw [hunpack]; nofun), hunpack]

end ContractAbi
