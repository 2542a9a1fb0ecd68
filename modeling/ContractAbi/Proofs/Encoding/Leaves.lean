import ContractAbi.Encoding
import ContractAbi.Proofs.Results
import ContractAbi.Proofs.Segments

/-!
# Packing leaves

For every type that is neither a slice, an array nor a tuple: which values it takes, and what they
become. Under all but strings and byte strings that is a single word.
-/

namespace ContractAbi

/-- The number that an integer of either variant stands for. -/
def Value.integer? : Value → Option Int
  | uint w => some w.toNat
  | int w => some w.toInt
  | _ => none

theorem Value.bytes?_eq_some_iff {v : Value} {c : Bytes} :
    v.bytes? = some c ↔ v = .bytes c ∨ v = .fixedBytes c := by
  cases v <;> simp [bytes?]

namespace AbiType

/-! ## Lengths -/

@[simp] theorem length_leadingWord (b : Bytes) : (leadingWord b).length = wordSize := by
  rw [leadingWord, List.length_append, List.length_take, Bytes.length_zeros]
  omega

theorem length_trailingWord {b : Bytes} (h : b.length ≤ wordSize) :
    (trailingWord b).length = wordSize := by
  rw [trailingWord, List.length_append, Bytes.length_zeros]
  omega

/-- The zeros that fill the content up to whole words. -/
def padding (content : Bytes) : Bytes :=
  Bytes.zeros ((wordSize - content.length % wordSize) % wordSize)

theorem counted_eq (content : Bytes) :
    counted content = countWord content.length ++ (content ++ padding content) := by
  have hpad : (content.length + (wordSize - 1)) / wordSize * wordSize - content.length
      = (wordSize - content.length % wordSize) % wordSize := by
    simp only [wordSize]
    omega
  simp only [counted, hpad, padding, List.append_assoc]

theorem wordSize_dvd_length_append_padding (content : Bytes) :
    wordSize ∣ (content ++ padding content).length := by
  rw [List.length_append, padding, Bytes.length_zeros]
  simp only [wordSize]
  omega

theorem length_counted (content : Bytes) :
    (counted content).length = wordSize + (content ++ padding content).length := by
  rw [counted_eq, List.length_append, length_countWord]

/-! ## Values of leaf types -/

variable {v : Value} {b : Bytes}

attribute [local simp] pack packLeaf outOfRange Value.bytes?

theorem pack_uint_eq_ok_iff {bits : Nat} :
    (uint bits).pack v = .ok b ↔ ∃ w : Word, Word.toBytes w = b ∧ w.FitsUnsigned bits ∧
      (v = .uint w ∨ v = .int w ∧ w.msb = false) := by
  cases v with
  | uint w =>
    by_cases hw : w.FitsUnsigned bits
    · simp [hw]
    · simp [hw]
  | int w =>
    by_cases hneg : w.msb = true
    · simp [hneg]
    · by_cases hw : w.FitsUnsigned bits
      · simp [hneg, hw]
      · simp [hneg, hw]
  | _ => simp

theorem pack_int_eq_ok_iff {bits : Nat} :
    (int bits).pack v = .ok b ↔ ∃ w : Word, Word.toBytes w = b ∧
      (v = .int w ∧ w.FitsSigned bits ∨ v = .uint w ∧ w.bitLength < bits) := by
  cases v with
  | uint w =>
    by_cases hw : w.bitLength < bits
    · simp [hw]
    · simp [hw]
  | int w =>
    by_cases hw : w.FitsSigned bits
    · simp [hw]
    · simp [hw]
  | _ => simp

theorem pack_bool_eq_ok_iff :
    bool.pack v = .ok b ↔ ∃ c, v = .bool c ∧ countWord c.toNat = b := by
  cases v <;> simp

theorem pack_string_eq_ok_iff :
    string.pack v = .ok b ↔ ∃ s, v = .string s ∧ counted s.toUTF8.data.toList = b := by
  cases v <;> simp

theorem pack_bytes_eq_ok_iff :
    bytes.pack v = .ok b ↔ ∃ c, v.bytes? = some c ∧ counted c = b := by
  cases v <;> simp

theorem pack_fixedBytes_eq_ok_iff {length : Nat} :
    (fixedBytes length).pack v = .ok b ↔
      ∃ c, v.bytes? = some c ∧ c.length = length ∧ leadingWord c = b := by
  cases v with
  | bytes c =>
    by_cases hc : c.length = length
    · simp [hc]
    · simp [hc]
  | fixedBytes c =>
    by_cases hc : c.length = length
    · simp [hc]
    · simp [hc]
  | _ => simp

theorem pack_address_eq_ok_iff :
    address.pack v = .ok b ↔ ∃ a, v = .address a ∧ trailingWord a.val = b := by
  cases v <;> simp

theorem pack_function_eq_ok_iff :
    function.pack v = .ok b ↔ ∃ f, v = .function f ∧ leadingWord f.val = b := by
  cases v <;> simp

end AbiType

end ContractAbi
