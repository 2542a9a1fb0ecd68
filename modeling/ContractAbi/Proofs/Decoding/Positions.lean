import ContractAbi.Arguments
import ContractAbi.Proofs.AbiType.HeadWidth
import ContractAbi.Proofs.Decoding.Reading

/-!
# Where values are read

Fields, elements and arguments are read by three loops that keep their position in three ways: a
capped slot counter, a checked product, and the slot counter again. With exact positions they are
one loop, `unpackTypes`, which reads types one after the other, each behind the exact heads of those
before it.

## Why the caps do not show

A value that was read had room for its exact head: `AbiType.FitsWhereRead`. So whenever a loop
goes on to another position, the exact position is within the payload, far below any cap, and the
counter holds it. A head too large for a count belongs to a value that cannot be read, and the loop
ends there before its size is used. The bound and the loops need each other, the bound of a type
resting on the loops over its parts, and are proved together along the type.
-/

namespace ContractAbi

open Decoding

/-- Reads values of the types one after the other, the head of the first one at byte `index`. -/
def unpackTypes (data : Bytes) : List AbiType → (index : Nat) → Except AbiError (List Value)
  | [], _ => return []
  | t :: ts, index => do
    let value ← t.unpack index data
    let values ← unpackTypes data ts (index + t.headWidth)
    return value :: values

/-- What is read under the type had room for its exact head. -/
def AbiType.FitsWhereRead (t : AbiType) : Prop :=
  ∀ {index : Nat} {data : Bytes} {v : Value}, data.length < offsetLimit →
    t.unpack index data = .ok v → index + t.headWidth ≤ data.length

variable {data : Bytes} {index : Nat}

theorem unpackTypes_cons_eq_ok_iff {t : AbiType} {ts : List AbiType} {vs : List Value} :
    unpackTypes data (t :: ts) index = .ok vs ↔ ∃ v rest, t.unpack index data = .ok v ∧
      unpackTypes data ts (index + t.headWidth) = .ok rest ∧ v :: rest = vs := by
  simp only [unpackTypes, bind_eq_ok_iff, pure_eq_ok, Except.ok.injEq]
  constructor
  · rintro ⟨v, hv, rest, hrest, h⟩
    exact ⟨v, rest, hv, hrest, h⟩
  · rintro ⟨v, rest, hv, hrest, h⟩
    exact ⟨v, hv, rest, hrest, h⟩

theorem length_of_unpackTypes {ts : List AbiType} {vs : List Value}
    (h : unpackTypes data ts index = .ok vs) : vs.length = ts.length := by
  induction ts generalizing index vs with
  | nil =>
    rw [← Except.ok.inj h]
    rfl
  | cons t ts ih =>
    obtain ⟨v, rest, -, hrest, rfl⟩ := unpackTypes_cons_eq_ok_iff.mp h
    rw [List.length_cons, List.length_cons, ih hrest]

/-- Everything that was read in a row had room. -/
theorem add_sum_headWidth_le (hdata : data.length < offsetLimit) {ts : List AbiType}
    (hts : ∀ t ∈ ts, t.FitsWhereRead) {vs : List Value} (hindex : index ≤ data.length)
    (h : unpackTypes data ts index = .ok vs) :
    index + (ts.map AbiType.headWidth).sum ≤ data.length := by
  induction ts generalizing index vs with
  | nil => exact hindex
  | cons t ts ih =>
    obtain ⟨ht, hrest⟩ := List.forall_mem_cons.mp hts
    obtain ⟨v, rest, hv, hvs, -⟩ := unpackTypes_cons_eq_ok_iff.mp h
    rw [List.map_cons, List.sum_cons, ← Nat.add_assoc]
    exact ih hrest (ht hdata hv) hvs

/-! ## Slots -/

theorem slotIndex_eq {slot : Nat} (h : slot * wordSize ≤ Count.limit) :
    slotIndex slot = .ok (slot * wordSize) := by
  rw [slotIndex, Count.mul?, if_pos h]

theorem add_headSlots_le {slot : Nat} {t : AbiType}
    (h : slot * wordSize + t.headWidth ≤ Count.limit) : slot + t.headSlots ≤ Count.limit := by
  have hslots := AbiType.wordSize_mul_headSlots (Nat.le_of_add_left_le h)
  rw [wordSize] at h hslots
  omega

/-- The slot behind a head that is within a count. -/
theorem addCapped_headSlots {slot : Nat} {t : AbiType}
    (h : slot * wordSize + t.headWidth ≤ Count.limit) :
    Count.addCapped slot t.headSlots * wordSize = slot * wordSize + t.headWidth := by
  rw [Count.addCapped, Nat.min_eq_left (add_headSlots_le h), Nat.add_mul,
    ← AbiType.wordSize_mul_headSlots (Nat.le_of_add_left_le h), Nat.mul_comm wordSize]

theorem unpackFields_eq (hdata : data.length < offsetLimit) {fields : List (Field AbiType)}
    (hfields : ∀ f ∈ fields, f.type.FitsWhereRead) {slot : Nat}
    (hslot : slot * wordSize ≤ data.length) :
    AbiType.unpackFields fields slot data = do
      let values ← unpackTypes data (fields.map Field.type) (slot * wordSize)
      return (fields.map Field.rawName).zip values := by
  have hlimit := offsetLimit_le_limit
  induction fields generalizing slot with
  | nil => rfl
  | cons f fields ih =>
    obtain ⟨hf, hrest⟩ := List.forall_mem_cons.mp hfields
    rw [AbiType.unpackFields, slotIndex_eq (by omega), List.map_cons, unpackTypes, ok_bind]
    cases hv : f.type.unpack (slot * wordSize) data with
    | error e => rfl
    | ok v =>
      -- only a field that was read moves the slot, and it had room
      have hle := hf hdata hv
      have hnext : Count.addCapped slot f.type.headSlots * wordSize
          = slot * wordSize + f.type.headWidth := addCapped_headSlots (by omega)
      rw [ok_bind, ok_bind, ih hrest (by omega), hnext]
      simp only [bind_assoc, pure_bind, List.map_cons, List.zip_cons_cons]

theorem unpackFrom_eq (hdata : data.length < offsetLimit) {args : Arguments}
    (hargs : ∀ a ∈ args, a.type.FitsWhereRead) {slot : Nat}
    (hslot : slot * wordSize ≤ data.length) :
    Arguments.unpackFrom slot data args
      = unpackTypes data (args.map Argument.type) (slot * wordSize) := by
  have hlimit := offsetLimit_le_limit
  induction args generalizing slot with
  | nil => rfl
  | cons a args ih =>
    obtain ⟨ha, hrest⟩ := List.forall_mem_cons.mp hargs
    rw [Arguments.unpackFrom, slotIndex_eq (by omega), List.map_cons, unpackTypes, ok_bind]
    cases hv : a.type.unpack (slot * wordSize) data with
    | error e => rfl
    | ok v =>
      have hle := ha hdata hv
      have hnext : Count.addCapped slot a.type.headSlots * wordSize
          = slot * wordSize + a.type.headWidth := addCapped_headSlots (by omega)
      rw [ok_bind, ok_bind, ih hrest (by omega), hnext]

/-! ## Elements -/

/-- An element behind others that were read is at its exact position. -/
theorem mul?_headSize {elem : AbiType} {i : Nat} (h : i * elem.headWidth ≤ Count.limit) :
    Count.mul? i elem.headSize = some (i * elem.headWidth) := by
  rw [Count.mul?_eq_some_iff]
  rcases Nat.eq_zero_or_pos i with rfl | hi
  -- a capped size is multiplied by zero only
  · simp
  · have hone : elem.headWidth ≤ Count.limit :=
      Nat.le_trans (Nat.le_mul_of_pos_left _ hi) h
    rw [AbiType.headSize_eq_headWidth hone]
    exact ⟨h, rfl⟩

/-- A loop over indices that finds each element at its exact position. -/
theorem mapM_range'_eq (hdata : data.length < offsetLimit) {elem : AbiType}
    (helem : elem.FitsWhereRead) {read : Nat → Except AbiError Value}
    (hread : ∀ i, i * elem.headWidth ≤ data.length →
      read i = elem.unpack (i * elem.headWidth) data)
    (count : Nat) {first : Nat} (hfirst : first * elem.headWidth ≤ data.length) :
    (List.range' first count).mapM read
      = unpackTypes data (List.replicate count elem) (first * elem.headWidth) := by
  induction count generalizing first with
  | zero => rfl
  | succ count ih =>
    rw [List.range'_succ, List.mapM_cons, List.replicate_succ, unpackTypes, hread first hfirst]
    cases hv : elem.unpack (first * elem.headWidth) data with
    | error e => rfl
    | ok v =>
      have hle := helem hdata hv
      rw [← Nat.succ_mul] at hle ⊢
      rw [ok_bind, ok_bind, ih hle]

/-- A product that may have overflowed, compared with a length that is below the overflow. -/
theorem filter_le_eq {o : Option Nat} {n length : Nat} (hsome : n ≤ length → o = some n)
    (heq : ∀ m, o = some m → n = m) :
    o.filter (· ≤ length) = if n ≤ length then some n else none := by
  by_cases hn : n ≤ length
  · rw [if_pos hn, hsome hn]
    exact Option.filter_some_pos (decide_eq_true hn)
  · rw [if_neg hn, Option.filter_eq_none_iff]
    intro m hm
    rwa [← heq m hm, decide_eq_true_eq]

theorem filter_mul?_eq (hdata : data.length < offsetLimit) (count : Nat) :
    (Count.mul? count wordSize).filter (· ≤ data.length)
      = if count * wordSize ≤ data.length then some (count * wordSize) else none := by
  have hlimit := offsetLimit_le_limit
  exact filter_le_eq (fun h ↦ Count.mul?_eq_some_iff.mpr ⟨by omega, rfl⟩)
    fun _ h ↦ (Count.mul?_eq_some_iff.mp h).2

theorem readSequence_eq (hdata : data.length < offsetLimit) {elem : AbiType}
    (helem : elem.FitsWhereRead) (count : Nat) :
    readSequence elem (fun i ↦ elem.unpack i data) data count =
      if count * wordSize ≤ data.length then do
        return .array (← unpackTypes data (List.replicate count elem) 0)
      else .error (.insufficientLength data.length (.words count)) := by
  have hlimit := offsetLimit_le_limit
  rw [readSequence, List.range_eq_range', mapM_range'_eq hdata helem (fun i hi ↦ by
    rw [mul?_headSize (by omega)]) count (by omega), Nat.zero_mul,
    filter_mul?_eq hdata]
  by_cases hcount : count * wordSize ≤ data.length
  · rw [if_pos hcount, if_pos hcount]
  · rw [if_neg hcount, if_neg hcount]

end ContractAbi
