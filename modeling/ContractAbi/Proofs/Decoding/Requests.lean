import ContractAbi.Proofs.Decoding.Sizes

/-!
# Buffers asked for

Unpacking asks for a buffer before it reads the elements of a sequence or the fields of a tuple,
with room for all of them. A run that fails on the way has asked for buffers too, of which its
result says nothing, so unpacking is written once more with a list of its requests.

Forgetting the list gives back the result of unpacking, `Metered.result_unpack`. A sequence is asked
for only behind the test that the payload has a word for each element, and a tuple has the fields
that its type has; `Metered.asks_unpack` says so of every request of every run.
-/

namespace ContractAbi

namespace Decoding

/-- A buffer that is asked for before it is filled. -/
inductive Request where
  /-- For the elements of a slice or an array. -/
  | items (capacity : Nat)
  /-- For the entries of a tuple. -/
  | entries (capacity : Nat)
deriving DecidableEq, Repr

/-- A run with its requests in their order. They stay when it fails. -/
structure Metered (α : Type) where
  result : Except AbiError α
  requests : List Request

namespace Metered

variable {α β : Type}

/-! ## Runs -/

/-- A run that asks for nothing. -/
def ofResult (x : Except AbiError α) : Metered α := ⟨x, []⟩

def request (r : Request) : Metered Unit := ⟨.ok (), [r]⟩

/-- What follows is run only if there is a value to go on with. -/
def andThen (x : Metered α) (f : α → Metered β) : Metered β :=
  match x.result with
  | .ok a => ⟨(f a).result, x.requests ++ (f a).requests⟩
  | .error e => ⟨.error e, x.requests⟩

instance : Monad Metered where
  pure a := ofResult (.ok a)
  bind := andThen

instance : LawfulMonad Metered := LawfulMonad.mk' Metered
  (by rintro α ⟨_ | _, _⟩ <;> simp [Functor.map, andThen, ofResult])
  (by intro α β a f; simp [bind, pure, andThen, ofResult])
  (by
    rintro α β γ ⟨_ | a, _⟩ f g
    · rfl
    · simp only [bind, andThen]
      cases (f a).result <;> simp)

@[simp] theorem result_ofResult (x : Except AbiError α) : (ofResult x).result = x := rfl

@[simp] theorem result_pure (a : α) : (pure a : Metered α).result = .ok a := rfl

@[simp] theorem result_bind (x : Metered α) (f : α → Metered β) :
    (x >>= f).result = x.result >>= fun a ↦ (f a).result := by
  obtain ⟨_ | a, _⟩ := x <;> rfl

@[simp] theorem result_request (r : Request) : (request r).result = .ok () := rfl

theorem result_mapM (f : α → Metered β) (xs : List α) :
    (xs.mapM f).result = xs.mapM fun x ↦ (f x).result := by
  induction xs with
  | nil => rfl
  | cons x xs ih => simp only [List.mapM_cons, result_bind, ih, result_pure, pure_eq_ok]

/-- Every request of the run is as it says, however the run ends. -/
def Asks (p : Request → Prop) (x : Metered α) : Prop := ∀ r ∈ x.requests, p r

variable {p q : Request → Prop}

theorem asks_ofResult (x : Except AbiError α) : Asks p (ofResult x) := List.forall_mem_nil _

theorem Asks.mono (hpq : ∀ r, p r → q r) {x : Metered α} (h : Asks p x) : Asks q x :=
  fun r hr ↦ hpq r (h r hr)

theorem asks_request {r : Request} (h : p r) : Asks p (request r) :=
  List.forall_mem_singleton.mpr h

theorem Asks.bind {x : Metered α} {f : α → Metered β} (hx : Asks p x)
    (hf : ∀ a, x.result = .ok a → Asks p (f a)) : Asks p (x >>= f) := by
  obtain ⟨_ | a, requests⟩ := x
  · exact hx
  · exact List.forall_mem_append.mpr ⟨hx, hf a rfl⟩

theorem asks_mapM {f : α → Metered β} {xs : List α} (h : ∀ x ∈ xs, Asks p (f x)) :
    Asks p (xs.mapM f) := by
  induction xs with
  | nil => exact asks_ofResult _
  | cons x xs ih =>
    obtain ⟨hx, hrest⟩ := List.forall_mem_cons.mp h
    rw [List.mapM_cons]
    exact hx.bind fun _ _ ↦ (ih hrest).bind fun _ _ ↦ asks_ofResult _

/-! ## Unpacking -/

def readSequence (elem : AbiType) (read : Nat → Metered Value) (data : Bytes) (count : Nat) :
    Metered Value :=
  match (Count.mul? count wordSize).filter (· ≤ data.length) with
  | none => ofResult (.error (.insufficientLength data.length (.words count)))
  | some _ => do
    request (.items count)
    let items ← (List.range count).mapM fun i ↦
      match Count.mul? i elem.headSize with
      | none => ofResult (.error (.offsetOverflow (.element i elem.canonical)))
      | some index => read index
    return .array items

mutual

/-- The value whose head is at byte `index` of `data`, and what is asked for on the way to it. -/
def unpack : AbiType → (index : Nat) → (data : Bytes) → Metered Value
  | .slice elem, index, data => do
    let (start, length) ← ofResult (contentAt data index)
    let body := data.drop start
    readSequence elem (fun i ↦ unpack elem i body) body length
  | .array elem length, index, data => do
    let body ← ofResult (if elem.isDynamic then block data index else arrayInPlace data index)
    readSequence elem (fun i ↦ unpack elem i body) body length
  | .tuple _ fields, index, data => do
    let body ← ofResult
      (if AbiType.anyDynamic fields then block data index else tupleInPlace data index)
    request (.entries fields.length)
    return .tuple (← unpackFields fields 0 body)
  -- a leaf has no parts to ask room for
  | t, index, data => ofResult (t.unpack index data)

def unpackFields : List (Field AbiType) → (slot : Nat) → (data : Bytes) →
    Metered (List (String × Value))
  | [], _, _ => return []
  | f :: fields, slot, data => do
    let value ← unpack f.type (← ofResult (slotIndex slot)) data
    let entries ← unpackFields fields (Count.addCapped slot f.type.headSlots) data
    return (f.rawName, value) :: entries

end

variable {data : Bytes} {index : Nat}

/-! ## Forgetting the requests -/

theorem result_readSequence {elem : AbiType} {read : Nat → Metered Value}
    {read' : Nat → Except AbiError Value} (hread : ∀ i, (read i).result = read' i)
    (data : Bytes) (count : Nat) :
    (readSequence elem read data count).result = Decoding.readSequence elem read' data count := by
  rw [readSequence, Decoding.readSequence]
  cases (Count.mul? count wordSize).filter (· ≤ data.length) with
  | none => rfl
  | some _ =>
    simp only [result_bind, result_request, ok_bind, result_mapM, result_pure, pure_eq_ok]
    congr 1
    refine mapM_congr fun i _ ↦ ?_
    cases Count.mul? i elem.headSize with
    | none => rfl
    | some index => exact hread index

theorem result_unpackFields {fields : List (Field AbiType)} {slot : Nat}
    (hfields : ∀ f ∈ fields, ∀ i, (unpack f.type i data).result = f.type.unpack i data) :
    (unpackFields fields slot data).result = AbiType.unpackFields fields slot data := by
  induction fields generalizing slot with
  | nil => rfl
  | cons f fields ih =>
    obtain ⟨hf, hrest⟩ := List.forall_mem_cons.mp hfields
    rw [unpackFields, AbiType.unpackFields]
    simp only [result_bind, result_ofResult, result_pure, pure_eq_ok, hf, ih hrest]

/-- **Asking for buffers changes no result.** -/
theorem result_unpack (t : AbiType) (index : Nat) (data : Bytes) :
    (unpack t index data).result = t.unpack index data := by
  induction t using AbiType.induct generalizing index data with
  | slice elem ih =>
    rw [unpack, AbiType.unpack, result_bind]
    exact bind_congr fun p ↦ result_readSequence (fun i ↦ ih i _) _ _
  | array elem length ih =>
    rw [unpack, AbiType.unpack_array_eq, result_bind]
    exact bind_congr fun body ↦ result_readSequence (fun i ↦ ih i body) body length
  | tuple structName fields ih =>
    rw [unpack, AbiType.unpack_tuple_eq, result_bind]
    refine bind_congr fun body ↦ ?_
    simp only [result_bind, result_request, ok_bind, result_pure, pure_eq_ok,
      result_unpackFields fun f hf i ↦ ih f hf i body]
  | _ => rfl

end Metered

/-! ## Bounds on the requests -/

/-- A sequence has a word for each element in a payload of that size, and a tuple the fields of a
tuple in the type. -/
def Request.Within (t : AbiType) (size : Nat) : Request → Prop
  | items capacity => capacity ≤ size / wordSize
  | entries capacity =>
    ∃ structName fields, .tuple structName fields ∈ t.nodes ∧ fields.length = capacity

theorem Request.Within.mono {t u : AbiType} {m n : Nat} (hnodes : ∀ node ∈ t.nodes, node ∈ u.nodes)
    (hle : m ≤ n) {r : Request} (h : r.Within t m) : r.Within u n := by
  cases r with
  | items capacity => exact Nat.le_trans h (Nat.div_le_div_right hle)
  | entries capacity =>
    obtain ⟨structName, fields, hmem, hlength⟩ := h
    exact ⟨structName, fields, hnodes _ hmem, hlength⟩

namespace Metered

variable {data : Bytes} {index : Nat}

theorem asks_readSequence {t elem : AbiType} {size : Nat} {read : Nat → Metered Value}
    (hdata : data.length ≤ size) (hread : ∀ i, Asks (Request.Within t size) (read i))
    (count : Nat) : Asks (Request.Within t size) (readSequence elem read data count) := by
  rw [readSequence]
  cases hfits : (Count.mul? count wordSize).filter (· ≤ data.length) with
  | none => exact asks_ofResult _
  | some _ =>
    -- the test has been passed before the buffer is asked for
    obtain ⟨hmul, hle⟩ := Option.filter_eq_some_iff.mp hfits
    obtain ⟨-, rfl⟩ := Count.mul?_eq_some_iff.mp hmul
    have hcount : count ≤ size / wordSize := (Nat.le_div_iff_mul_le (by decide)).mpr
      (Nat.le_trans (of_decide_eq_true hle) hdata)
    refine (asks_request hcount).bind fun _ _ ↦ ?_
    refine (asks_mapM fun i _ ↦ ?_).bind fun _ _ ↦ asks_ofResult _
    cases Count.mul? i elem.headSize with
    | none => exact asks_ofResult _
    | some index => exact hread index

theorem asks_unpackFields {p : Request → Prop} {fields : List (Field AbiType)} {slot : Nat}
    (hfields : ∀ f ∈ fields, ∀ i, Asks p (unpack f.type i data)) :
    Asks p (unpackFields fields slot data) := by
  induction fields generalizing slot with
  | nil => exact asks_ofResult _
  | cons f fields ih =>
    obtain ⟨hf, hrest⟩ := List.forall_mem_cons.mp hfields
    rw [unpackFields]
    refine (asks_ofResult _).bind fun i _ ↦ (hf i).bind fun value _ ↦ ?_
    exact (ih hrest).bind fun entries _ ↦ asks_ofResult _

/-- **Every request is within the payload or the type**, whether or not the run succeeds. -/
theorem asks_unpack (t : AbiType) (hdata : data.length < offsetLimit) :
    Asks (Request.Within t data.length) (unpack t index data) := by
  induction t using AbiType.induct generalizing index data with
  | slice elem ih =>
    rw [unpack]
    refine (asks_ofResult _).bind fun ⟨start, length⟩ _ ↦ ?_
    have hle : (data.drop start).length ≤ data.length := by simp
    refine asks_readSequence hle (fun i ↦ (ih (length_drop_lt hdata)).mono fun r hr ↦ ?_) length
    exact hr.mono (fun _ ↦ List.mem_cons_of_mem _) hle
  | array elem length ih =>
    rw [unpack]
    refine (asks_ofResult _).bind fun body hbody ↦ ?_
    obtain ⟨-, start, rfl⟩ := exists_drop_of_arrayBody hdata hbody
    have hle : (data.drop start).length ≤ data.length := by simp
    refine asks_readSequence hle (fun i ↦ (ih (length_drop_lt hdata)).mono fun r hr ↦ ?_) length
    exact hr.mono (fun _ ↦ List.mem_cons_of_mem _) hle
  | tuple structName fields ih =>
    rw [unpack]
    refine (asks_ofResult _).bind fun body hbody ↦ ?_
    obtain ⟨start, rfl⟩ := exists_drop_of_tupleBody hdata hbody
    have hentries : (Request.entries fields.length).Within (.tuple structName fields)
        data.length := ⟨structName, fields, List.mem_cons_self, rfl⟩
    refine (asks_request hentries).bind fun _ _ ↦ Asks.bind ?_ fun _ _ ↦ asks_ofResult _
    refine asks_unpackFields fun f hf i ↦ (ih f hf (length_drop_lt hdata)).mono fun r hr ↦ ?_
    refine hr.mono (fun node hnode ↦ ?_) (by simp)
    rw [AbiType.nodes_tuple]
    exact List.mem_cons_of_mem _ (List.mem_flatMap_of_mem hf hnode)
  | _ => exact asks_ofResult _

/-- A run that fails at an element has asked for all of them. -/
example :
    let run := unpack (.slice .bool) 0 ([32, 2, 1, 2].flatMap countWord)
    run.result = .error .improperlyEncodedBool ∧ run.requests = [.items 2] := by
  decide +kernel

end Metered

end Decoding

namespace AbiType

open Decoding

/-- **A value outgrows its payload by nesting only.** Every array that was read has at most as many
elements as the payload has words, and texts and byte strings are no longer than the payload. Of any
choice of kinds, all of them included, there are at most as many leaves as the type has, times the
words of the payload once for each slice or array on a path. However a run ends, it asked for no
sequence of more elements than the payload has words. -/
theorem unpack_within_payload {t : AbiType} (ht : t.Parsed) {data : Bytes}
    (hdata : data.length < offsetLimit) (index : Nat) :
    (∀ v, t.unpack index data = .ok v → (∀ u ∈ v.nodes, u.SizeWithin data.length) ∧
      ∀ kinds : String → Bool, v.leafCount kinds
        ≤ t.leafCount kinds * (data.length / wordSize) ^ t.sequenceDepth) ∧
    (Metered.unpack t index data).result = t.unpack index data ∧
    ∀ capacity, .items capacity ∈ (Metered.unpack t index data).requests →
      capacity ≤ data.length / wordSize := by
  have hn := ht.numbersInRange
  refine ⟨fun v hv ↦ ?_, Metered.result_unpack t index data, fun capacity hcapacity ↦ ?_⟩
  · have hsize := sizeWithin_of_unpack hn hdata hv
    refine ⟨hsize, fun kinds ↦ ?_⟩
    exact leafCount_le_of_inhabits (inhabits_of_unpack hn index data v hdata hv) hsize
      fun hdepth ↦ wordSize_le_of_unpack hdepth hdata hv
  · exact Metered.asks_unpack t hdata _ hcapacity

/-- Four rows that share their elements: eleven words are read as sixteen numbers. -/
theorem unpack_within_payload_shared_rows :
    let data := [32, 4, 128, 128, 128, 128, 4, 1, 2, 3, 4].flatMap countWord
    let v : Value := .array (List.replicate 4 (.array [.uint 1, .uint 2, .uint 3, .uint 4]))
    (slice (slice (uint 8))).unpack 0 data = .ok v ∧ (∀ u ∈ v.nodes, u.SizeWithin 352) ∧
      v.leafCount (fun _ ↦ true) = 16 ∧ v.leafCount (fun _ ↦ true) ≤ 1 * 11 ^ 2 ∧
      (Metered.unpack (slice (slice (uint 8))) 0 data).requests
        = [.items 4, .items 4, .items 4, .items 4, .items 4] ∧
      ∀ capacity, .items capacity ∈ (Metered.unpack (slice (slice (uint 8))) 0 data).requests →
        capacity ≤ 11 := by
  intro data v
  have hparsed : (slice (slice (uint 8))).Parsed := ⟨"uint8[][]", "", [], rfl⟩
  have hread : (slice (slice (uint 8))).unpack 0 data = .ok v := by decide +kernel
  have hlength : data.length = 352 := by decide +kernel
  have hdata : data.length < offsetLimit := by
    rw [hlength]
    decide
  obtain ⟨hvalue, -, hrequests⟩ := unpack_within_payload hparsed hdata 0
  rw [hlength] at hvalue hrequests
  obtain ⟨hnodes, hleaves⟩ := hvalue v hread
  exact ⟨hread, hnodes, by decide +kernel, hleaves _, by decide +kernel, hrequests⟩

end AbiType

end ContractAbi
