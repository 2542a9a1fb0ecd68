import ContractAbi.Declaration
import ContractAbi.Proofs.AbiType.Nodes
import ContractAbi.Proofs.Results

/-!
# Why payloads are refused

Unpacking fails for the payload's sake only: it is too short, names a position that cannot be
computed with, or holds a word or a text that stands for no value of the type. Each reader has
errors of these kinds, and a sequence of steps has those of its steps.

The arguments of a list add the refusal of an empty payload, and custom errors that of a foreign
selector. So when revert data is refused for its selector, it is the comparison of selectors that
failed and nothing behind it.
-/

namespace ContractAbi

open Decoding

/-- The error says what is wrong with a payload. -/
def AbiError.BlamesPayload : AbiError → Prop
  | insufficientLength _ _ | offsetOverflow _ | improperlyEncodedBool | improperlyEncodedInt _
  | improperlyEncodedFunction | invalidUtf8 => True
  | _ => False

section Steps

variable {α β : Type}

/-- A step that fails with errors which blame the payload, if it fails. -/
def Refuses (x : Except AbiError α) : Prop :=
  ∀ e, x = .error e → e.BlamesPayload

theorem refuses_ok (a : α) : Refuses (.ok a : Except AbiError α) := nofun

theorem refuses_error {e : AbiError} (h : e.BlamesPayload) :
    Refuses (.error e : Except AbiError α) := by
  intro e' he
  rwa [← Except.error.inj he]

theorem Refuses.ite {c : Prop} [Decidable c] {x y : Except AbiError α} (hx : Refuses x)
    (hy : Refuses y) : Refuses (if c then x else y) := by
  split
  · exact hx
  · exact hy

theorem Refuses.bind {x : Except AbiError α} {f : α → Except AbiError β} (hx : Refuses x)
    (hf : ∀ a, Refuses (f a)) : Refuses (x >>= f) := by
  cases x with
  | ok a => exact hf a
  | error e => exact refuses_error (hx e rfl)

theorem Refuses.mapM {f : α → Except AbiError β} (hf : ∀ a, Refuses (f a)) (as : List α) :
    Refuses (as.mapM f) := by
  induction as with
  | nil => exact refuses_ok []
  | cons a as ih =>
    rw [List.mapM_cons]
    exact (hf a).bind fun b ↦ ih.bind fun bs ↦ refuses_ok (b :: bs)

end Steps

/-! ## Readers -/

namespace Decoding

variable (data : Bytes) (index : Nat)

theorem readWord_refuses : Refuses (readWord data index) := by
  rw [readWord]
  split
  · exact refuses_error trivial
  · exact (refuses_ok _).ite (refuses_error trivial)

theorem slotIndex_refuses (slot : Nat) : Refuses (slotIndex slot) := by
  rw [slotIndex]
  split
  · exact refuses_error trivial
  · exact refuses_ok _

theorem tupleInPlace_refuses : Refuses (tupleInPlace data index) :=
  (refuses_ok _).ite (refuses_error trivial)

theorem arrayInPlace_refuses : Refuses (arrayInPlace data index) :=
  (readWord_refuses data index).bind fun _ ↦ refuses_ok _

theorem block_refuses : Refuses (block data index) := by
  refine (readWord_refuses data index).bind fun w ↦ ?_
  exact .ite (refuses_error (by trivial)) (.ite (refuses_error (by trivial)) (refuses_ok _))

theorem contentAt_refuses : Refuses (contentAt data index) := by
  refine (readWord_refuses data index).bind fun w ↦ ?_
  refine .ite (refuses_error (by trivial)) (.ite (refuses_error (by trivial)) ?_)
  refine .ite (refuses_error (by trivial)) ?_
  exact .ite (refuses_error (by trivial)) (.ite (refuses_error (by trivial)) (refuses_ok _))

theorem readText_refuses (content : Bytes) : Refuses (readText content) := by
  rw [readText]
  split
  · exact refuses_ok _
  · exact refuses_error trivial

theorem readBool_refuses (w : Word) : Refuses (readBool w) :=
  (refuses_ok _).ite ((refuses_ok _).ite (refuses_error trivial))

theorem readSequence_refuses {elem : AbiType} {read : Nat → Except AbiError Value}
    (hread : ∀ i, Refuses (read i)) (count : Nat) :
    Refuses (readSequence elem read data count) := by
  rw [readSequence]
  split
  · exact refuses_error trivial
  · refine (Refuses.mapM (fun i ↦ ?_) _).bind fun _ ↦ refuses_ok _
    split
    · exact refuses_error trivial
    · exact hread _

end Decoding

/-! ## Types -/

namespace AbiType

theorem unpackFields_refuses {fields : List (Field AbiType)}
    (hfields : ∀ f ∈ fields, ∀ index data, Refuses (f.type.unpack index data)) (slot : Nat)
    (data : Bytes) : Refuses (unpackFields fields slot data) := by
  induction fields generalizing slot with
  | nil => exact refuses_ok []
  | cons f fields ih =>
    obtain ⟨hf, hrest⟩ := List.forall_mem_cons.mp hfields
    rw [unpackFields]
    exact (slotIndex_refuses slot).bind fun index ↦ (hf index data).bind fun v ↦
      (ih hrest _).bind fun entries ↦ refuses_ok _

/-- **Unpacking blames the payload**, whatever it is, if it fails. -/
theorem unpack_refuses (t : AbiType) (index : Nat) (data : Bytes) :
    Refuses (t.unpack index data) := by
  induction t using induct generalizing index data with
  | uint bits =>
    exact (readWord_refuses data index).bind fun w ↦ (refuses_ok _).ite (refuses_error trivial)
  | int bits =>
    exact (readWord_refuses data index).bind fun w ↦ (refuses_ok _).ite (refuses_error trivial)
  | bool => exact (readWord_refuses data index).bind readBool_refuses
  | address => exact (readWord_refuses data index).bind fun w ↦ refuses_ok _
  | fixedBytes length => exact (readWord_refuses data index).bind fun w ↦ refuses_ok _
  | function =>
    exact (readWord_refuses data index).bind fun w ↦ (refuses_ok _).ite (refuses_error trivial)
  | string => exact (contentAt_refuses data index).bind fun content ↦ readText_refuses _
  | bytes => exact (contentAt_refuses data index).bind fun content ↦ refuses_ok _
  | slice elem ih =>
    exact (contentAt_refuses data index).bind fun content ↦
      readSequence_refuses _ (fun i ↦ ih i _) _
  | array elem length ih =>
    have hbody (body : Bytes) :
        Refuses (readSequence elem (fun i ↦ elem.unpack i body) body length) :=
      readSequence_refuses body (fun i ↦ ih i body) length
    rw [unpack]
    split
    · exact (block_refuses data index).bind hbody
    · exact (arrayInPlace_refuses data index).bind hbody
  | tuple structName fields ih =>
    have hbody (body : Bytes) : Refuses (do return Value.tuple (← unpackFields fields 0 body)) :=
      (unpackFields_refuses ih 0 body).bind fun entries ↦ refuses_ok _
    rw [unpack]
    split
    · exact (block_refuses data index).bind hbody
    · exact (tupleInPlace_refuses data index).bind hbody

end AbiType

/-! ## Argument lists and custom errors -/

namespace Arguments

theorem unpackFrom_refuses (slot : Nat) (data : Bytes) (args : Arguments) :
    Refuses (unpackFrom slot data args) := by
  induction args generalizing slot with
  | nil => exact refuses_ok []
  | cons a args ih =>
    rw [unpackFrom]
    exact (slotIndex_refuses slot).bind fun index ↦ (a.type.unpack_refuses index data).bind
      fun v ↦ (ih _).bind fun values ↦ refuses_ok _

/-- A payload that is not empty is refused for what is in it. -/
theorem unpack_eq_error {args : Arguments} {data : Bytes} {e : AbiError}
    (h : args.unpack data = .error e) :
    e.BlamesPayload ∨ e = .emptyInputExpectedArguments := by
  rw [unpack] at h
  split at h
  · split at h
    · cases h
    · exact Or.inr (Except.error.inj h).symm
  · exact Or.inl (unpackFrom_refuses 0 data _ e h)

end Arguments

namespace CustomError

variable {e : CustomError} {data : Bytes}

/-- Revert data behind its own selector is that of the inputs. -/
theorem unpack_of_selector (h : data.take selectorLength = e.selector)
    (hlength : selectorLength ≤ data.length) :
    e.unpack data = e.inputs.unpack (data.drop selectorLength) := by
  rw [unpack, if_neg (by omega), if_neg (not_not.mpr h)]

/-- What is unpacked stands behind the selector. -/
theorem take_eq_selector_of_unpack {values : List Value} (h : e.unpack data = .ok values) :
    data.take selectorLength = e.selector := by
  rw [unpack] at h
  split at h
  · cases h
  · split at h
    · cases h
    · rename_i hselector
      exact not_not.mp hselector

/-- **The selector is blamed exactly if it is foreign.** -/
theorem unpack_eq_invalidSelector_iff (hlength : selectorLength ≤ data.length) :
    (∃ given expected, e.unpack data = .error (.invalidSelector given expected)) ↔
      data.take selectorLength ≠ e.selector := by
  constructor
  · rintro ⟨given, expected, h⟩ hselector
    rw [unpack_of_selector hselector hlength] at h
    obtain hblames | hempty := Arguments.unpack_eq_error h
    · exact hblames
    · cases hempty
  · intro hselector
    rw [unpack, if_neg (by omega), if_pos hselector]
    exact ⟨_, _, rfl⟩

end CustomError

end ContractAbi
