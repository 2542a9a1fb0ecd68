import ContractAbi.AbiType.Parser
import ContractAbi.Proofs.Decoding.Room

/-!
# The parts of what was read

An array or a tuple that was read has parts, and every part was read from the same end of the
payload: from where the value is in place, or from where its offset leads. Whatever is shown of
values that were read is shown by induction over the type, with these two lemmas for its steps.
-/

namespace ContractAbi

open Decoding

variable {data : Bytes} {index : Nat}

/-! ## Where parts are read from -/

namespace Decoding

/-- The elements of an array are in place, or where its offset leads. In both cases there is a word
to begin with. -/
theorem exists_drop_of_arrayBody (hdata : data.length < offsetLimit) {dynamic : Bool}
    {body : Bytes}
    (h : (if dynamic then block data index else arrayInPlace data index) = .ok body) :
    wordSize ≤ data.length ∧ ∃ start, data.drop start = body := by
  by_cases hd : dynamic = true
  · rw [if_pos hd] at h
    have hword := add_wordSize_le_of_block hdata h
    obtain ⟨w, -, -, hdrop⟩ := (block_eq_ok_iff hdata).mp h
    exact ⟨by omega, w.toNat, hdrop⟩
  · rw [if_neg hd] at h
    obtain ⟨hword, hdrop⟩ := (arrayInPlace_eq_ok_iff hdata).mp h
    exact ⟨by omega, index, hdrop⟩

/-- The fields of a tuple are in place, or where its offset leads. -/
theorem exists_drop_of_tupleBody (hdata : data.length < offsetLimit) {dynamic : Bool}
    {body : Bytes}
    (h : (if dynamic then block data index else tupleInPlace data index) = .ok body) :
    ∃ start, data.drop start = body := by
  by_cases hd : dynamic = true
  · rw [if_pos hd] at h
    obtain ⟨w, -, -, hdrop⟩ := (block_eq_ok_iff hdata).mp h
    exact ⟨w.toNat, hdrop⟩
  · rw [if_neg hd] at h
    exact ⟨index, (tupleInPlace_eq_ok_iff.mp h).2⟩

end Decoding

namespace AbiType

theorem unpack_array_eq (elem : AbiType) (length index : Nat) (data : Bytes) :
    (array elem length).unpack index data
      = (if elem.isDynamic then block data index else arrayInPlace data index) >>= fun body ↦
          readSequence elem (fun i ↦ elem.unpack i body) body length := by
  rw [unpack]
  split <;> rfl

theorem unpack_tuple_eq (structName : String) (fields : List (Field AbiType)) (index : Nat)
    (data : Bytes) :
    (tuple structName fields).unpack index data
      = (if anyDynamic fields then block data index else tupleInPlace data index) >>= fun body ↦
          return .tuple (← unpackFields fields 0 body) := by
  rw [unpack]
  split <;> rfl

/-! ## The parts -/

/-- The values in a row were read one by one. -/
theorem forall₂_of_unpackTypes {ts : List AbiType} {vs : List Value}
    (h : unpackTypes data ts index = .ok vs) :
    List.Forall₂ (fun t v ↦ ∃ i, unpack t i data = .ok v) ts vs := by
  induction ts generalizing index vs with
  | nil =>
    rw [← Except.ok.inj h]
    exact List.Forall₂.nil
  | cons t ts ih =>
    obtain ⟨v, rest, hv, hrest, rfl⟩ := unpackTypes_cons_eq_ok_iff.mp h
    exact List.Forall₂.cons ⟨_, hv⟩ (ih hrest)

/-- The elements of a sequence have a word each in the part of the payload that they were read
from, whatever they need there. -/
theorem exists_items_of_readSequence (hdata : data.length < offsetLimit) {elem : AbiType}
    {count : Nat} {v : Value}
    (h : readSequence elem (fun i ↦ elem.unpack i data) data count = .ok v) :
    ∃ items, .array items = v ∧ items.length = count ∧ items.length * wordSize ≤ data.length ∧
      ∀ item ∈ items, ∃ i, elem.unpack i data = .ok item := by
  obtain ⟨hcount, items, hitems, rfl⟩ := (readSequence_eq_ok_iff hdata elem.fitsWhereRead).mp h
  have hlength : items.length = count := by
    rw [length_of_unpackTypes hitems, List.length_replicate]
  refine ⟨items, rfl, hlength, by rwa [hlength], ?_⟩
  refine forall_mem_of_forall₂ (forall₂_of_unpackTypes hitems) fun t ht item hread ↦ ?_
  rwa [List.eq_of_mem_replicate ht] at hread

/-- A slice or an array was read behind a word: its offset, or the word that has to be left for
elements in place. -/
theorem exists_items_of_unpack (hdata : data.length < offsetLimit) {layer : Layer}
    {elem : AbiType} {v : Value} (h : (layer.wrap elem).unpack index data = .ok v) :
    wordSize ≤ data.length ∧ ∃ start items, .array items = v ∧
      (∀ length, layer = .array length → items.length = length) ∧
      items.length * wordSize ≤ (data.drop start).length ∧
      ∀ item ∈ items, ∃ i, elem.unpack i (data.drop start) = .ok item := by
  cases layer with
  | slice =>
    rw [Layer.wrap, unpack] at h
    obtain ⟨⟨start, length⟩, hcontent, h⟩ := bind_eq_ok_iff.mp h
    have hword := add_wordSize_le_of_contentAt hdata hcontent
    obtain ⟨items, rfl, -, hitems⟩ := exists_items_of_readSequence (length_drop_lt hdata) h
    exact ⟨by omega, start, items, rfl, (fun n hn ↦ by cases hn), hitems⟩
  | array length =>
    rw [Layer.wrap, unpack_array_eq] at h
    obtain ⟨body, hbody, h⟩ := bind_eq_ok_iff.mp h
    obtain ⟨hword, start, rfl⟩ := exists_drop_of_arrayBody hdata hbody
    obtain ⟨items, rfl, hlength, hitems⟩ := exists_items_of_readSequence (length_drop_lt hdata) h
    exact ⟨hword, start, items, rfl, fun n hn ↦ by rw [hlength, Layer.array.inj hn], hitems⟩

/-- The fields of a tuple were read from one part of the payload. -/
theorem exists_values_of_unpack (hdata : data.length < offsetLimit) {structName : String}
    {fields : List (Field AbiType)} {v : Value}
    (h : (tuple structName fields).unpack index data = .ok v) :
    ∃ start values, .tuple ((fields.map Field.rawName).zip values) = v ∧
      List.Forall₂ (fun f value ↦ ∃ i, unpack f.type i (data.drop start) = .ok value) fields
        values := by
  rw [unpack_tuple_eq] at h
  obtain ⟨body, hbody, h⟩ := bind_eq_ok_iff.mp h
  obtain ⟨start, rfl⟩ := exists_drop_of_tupleBody hdata hbody
  obtain ⟨entries, hentries, h⟩ := bind_eq_ok_iff.mp h
  obtain ⟨values, hvalues, rfl⟩ := (unpackFields_eq_ok_iff (length_drop_lt hdata)
    fun f _ ↦ f.type.fitsWhereRead).mp hentries
  exact ⟨start, values, Except.ok.inj h,
    List.forall₂_map_left_iff.mp (forall₂_of_unpackTypes hvalues)⟩

end AbiType

end ContractAbi
