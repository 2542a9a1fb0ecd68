import ContractAbi.Arguments
import ContractAbi.Json.Skip

/-!
# Descriptors in JSON

An argument list is an array of descriptors. A descriptor is an object with the members `name`,
`type`, `internalType`, `components` and `indexed`, of which only `type` is required and others are
skipped, or an array of the same five in this order, which may end early after the type.

The type of a descriptor is read as soon as the descriptor's closing bracket is, so a signature that
is no type is found before any fault behind it.
-/

namespace ContractAbi.Json

/-! ## Values -/

/-- A text that begins with `c`, which has to be its opening quote. -/
def textFrom (c : Char) (s : List Char) : Except Fault (String × List Char) :=
  if c = '"' then
    match content s with
    | .error e => .error e
    | .ok (text, rest) => .ok (String.ofList text, rest)
  else .error (wrongValue c s)

theorem length_textFrom_le {c : Char} {s r : List Char} {t : String}
    (h : textFrom c s = .ok (t, r)) : r.length ≤ s.length := by
  unfold textFrom at h
  split at h
  · split at h
    · simp at h
    · next hc =>
      have := length_content_le hc
      grind
  · simp at h

def text : Reader String := .ofHead textFrom length_textFrom_le

def nullableTextFrom (c : Char) (s : List Char) : Except Fault (Option String × List Char) :=
  if c = 'n' then
    match literal "ull".toList s with
    | .error e => .error e
    | .ok rest => .ok (none, rest)
  else
    match textFrom c s with
    | .error e => .error e
    | .ok (text, rest) => .ok (some text, rest)

theorem length_nullableTextFrom_le {c : Char} {s r : List Char} {t : Option String}
    (h : nullableTextFrom c s = .ok (t, r)) : r.length ≤ s.length := by
  unfold nullableTextFrom at h
  split at h
  · split at h
    · simp at h
    · next hl =>
      have := length_literal_le hl
      grind
  · split at h
    · simp at h
    · next ht =>
      have := length_textFrom_le ht
      grind

/-- A text, or `null` for none. -/
def nullableText : Reader (Option String) := .ofHead nullableTextFrom length_nullableTextFrom_le

def flagFrom (c : Char) (s : List Char) : Except Fault (Bool × List Char) :=
  if c = 't' then
    match literal "rue".toList s with
    | .error e => .error e
    | .ok rest => .ok (true, rest)
  else if c = 'f' then
    match literal "alse".toList s with
    | .error e => .error e
    | .ok rest => .ok (false, rest)
  else .error (wrongValue c s)

theorem length_flagFrom_le {c : Char} {s r : List Char} {b : Bool}
    (h : flagFrom c s = .ok (b, r)) : r.length ≤ s.length := by
  unfold flagFrom at h
  split at h
  · split at h
    · simp at h
    · next hl =>
      have := length_literal_le hl
      grind
  · split at h
    · split at h
      · simp at h
      · next hl =>
        have := length_literal_le hl
        grind
    · simp at h

def flag : Reader Bool := .ofHead flagFrom length_flagFrom_le

def arrayFrom (element : Option (Reader α)) (c : Char) (s : List Char) :
    Except Fault (List α × List Char) :=
  if c = '[' then
    match element with
    | none => .error .malformed
    | some element => elements element true s
  else .error (wrongValue c s)

theorem length_arrayFrom_le {element : Option (Reader α)} {c : Char} {s r : List Char}
    {as : List α} (h : arrayFrom element c s = .ok (as, r)) : r.length ≤ s.length := by
  unfold arrayFrom at h
  split at h
  · split at h
    · simp at h
    · exact length_elements_le h
  · simp at h

/-- An array, if it may still be opened: there is a reader for its elements then. -/
def array (element : Option (Reader α)) : Reader (List α) :=
  .ofHead (arrayFrom element) length_arrayFrom_le

/-! ## Objects -/

/-- The members of a descriptor that were read so far. -/
structure Members where
  name : Option String := none
  type : Option String := none
  internalType : Option (Option String) := none
  components : Option (List Descriptor) := none
  indexed : Option Bool := none

def Members.toDescriptor (m : Members) : Except Fault Descriptor :=
  match m.type with
  | none => .error .mismatched
  | some type => .ok {
      name := m.name.getD ""
      type
      internalType := m.internalType.getD none
      components := m.components.getD []
      indexed := m.indexed.getD false }

/-- The value of a member, from behind its key on. -/
def valueOf (read : Reader α) (s : List Char) : Except Fault (α × List Char) :=
  match skipBlanks s with
  | [] => .error .truncated
  | c :: s => if c = ':' then read.run s else .error .malformed

/-- Adds the value of a member, which must not be known already. -/
def addValue (known : Option α) (read : Reader α) (set : α → Members) (s : List Char) :
    Except Fault (Members × List Char) :=
  match known with
  | some _ => .error .mismatched
  | none =>
    match valueOf read s with
    | .error e => .error e
    | .ok (a, rest) => .ok (set a, rest)

/-- Reads a member, from behind the opening quote of its key on. -/
def member (components : Reader (List Descriptor)) (m : Members) (s : List Char) :
    Except Fault (Members × List Char) :=
  match content s with
  | .error e => .error e
  | .ok (key, rest) =>
    match String.ofList key with
    | "name" => addValue m.name text (fun a ↦ { m with name := some a }) rest
    | "type" => addValue m.type text (fun a ↦ { m with type := some a }) rest
    | "internalType" =>
      addValue m.internalType nullableText (fun a ↦ { m with internalType := some a }) rest
    | "components" =>
      addValue m.components components (fun a ↦ { m with components := some a }) rest
    | "indexed" => addValue m.indexed flag (fun a ↦ { m with indexed := some a }) rest
    | _ => addValue none skipValue (fun _ ↦ m) rest

/-- The item of an object is a member, from behind the opening quote of its key on. `first` says
that nothing was read yet since the object's opening bracket. -/
def nextMember (first : Bool) (s : List Char) : Except Fault Next :=
  match skipBlanks s with
  | [] => .error .truncated
  | c :: r =>
    if c = '\x7d' then .ok (.closed r)
    else if first then
      if c = '"' then .ok (.item r) else .error .malformed
    else if c = ',' then
      match skipBlanks r with
      | [] => .error .truncated
      | d :: r' => if d = '"' then .ok (.item r') else .error .malformed
    else .error .malformed

theorem length_valueOf_lt {read : Reader α} {s r : List Char} {a : α}
    (h : valueOf read s = .ok (a, r)) : r.length < s.length := by
  unfold valueOf at h
  split at h
  · simp at h
  · next heq =>
    have := length_lt_of_skipBlanks heq
    split at h
    · have := read.length_lt h
      omega
    · simp at h

theorem length_addValue_lt {known : Option α} {read : Reader α} {set : α → Members}
    {s r : List Char} {m : Members} (h : addValue known read set s = .ok (m, r)) :
    r.length < s.length := by
  unfold addValue at h
  split at h
  · simp at h
  · split at h
    · simp at h
    · next hv =>
      have := length_valueOf_lt hv
      grind

theorem length_member_lt {components : Reader (List Descriptor)} {m m' : Members} {s r : List Char}
    (h : member components m s = .ok (m', r)) : r.length < s.length := by
  unfold member at h
  split at h
  · simp at h
  · next hc =>
    have := length_content_le hc
    split at h <;>
      have := length_addValue_lt h <;>
      omega

theorem length_le_of_nextMember {first : Bool} {s r : List Char}
    (h : nextMember first s = .ok (.item r) ∨ nextMember first s = .ok (.closed r)) :
    r.length ≤ s.length := by
  unfold nextMember at h
  split at h
  · simp at h
  · next c rest heq =>
    have := length_lt_of_skipBlanks heq
    split at h
    · grind
    · split at h
      · grind
      · split at h
        · split at h
          · simp at h
          · next heq' =>
            have := length_lt_of_skipBlanks heq'
            grind
        · simp at h

/-- The members up to the closing bracket, and what follows it. -/
def members (components : Reader (List Descriptor)) (first : Bool) (m : Members) (s : List Char) :
    Except Fault (Members × List Char) :=
  match _hn : nextMember first s with
  | .error e => .error e
  | .ok (.closed r) => .ok (m, r)
  | .ok (.item r) =>
    match _hm : member components m r with
    | .error e => .error e
    | .ok (m, r') => members components false m r'
termination_by s.length
decreasing_by
  have := length_le_of_nextMember (.inl _hn)
  have := length_member_lt _hm
  omega

theorem length_members_le {components : Reader (List Descriptor)} {first : Bool} {m m' : Members}
    {s r : List Char} (h : members components first m s = .ok (m', r)) : r.length ≤ s.length := by
  fun_induction members components first m s with
  | case1 => simp at h
  | case2 first m s r' hn =>
    have := length_le_of_nextMember (.inr hn)
    grind
  | case3 => simp at h
  | case4 first m s r₁ hn m₁ r₂ hm ih =>
    have := length_le_of_nextMember (.inl hn)
    have := length_member_lt hm
    have := ih h
    omega

/-- Reads an object, from behind its opening bracket on. -/
def object (components : Reader (List Descriptor)) (s : List Char) :
    Except Fault (Descriptor × List Char) := do
  let (m, s) ← members components true {} s
  return (← m.toDescriptor, s)

/-- Reads a descriptor written as an array, from behind its opening bracket on. -/
def positional (components : Reader (List Descriptor)) (s : List Char) :
    Except Fault (Descriptor × List Char) := do
  let (name, s) ← optionalElement text true s
  let (type, s) ← optionalElement text false s
  let known : Members := { name, type }
  let _ ← known.toDescriptor
  let (internalType, s) ← optionalElement nullableText false s
  let (components, s) ← optionalElement components false s
  let (indexed, s) ← optionalElement flag false s
  let s ← closeArray s
  return (← { known with internalType, components, indexed }.toDescriptor, s)

theorem length_object_le {components : Reader (List Descriptor)} {s r : List Char} {d : Descriptor}
    (h : object components s = .ok (d, r)) : r.length ≤ s.length := by
  simp only [object, bind, Except.bind] at h
  split at h
  · simp at h
  · next hm =>
    have := length_members_le hm
    split at h
    · simp at h
    · simp only [pure, Except.pure, Except.ok.injEq, Prod.mk.injEq] at h
      exact h.2 ▸ this

theorem length_positional_le {components : Reader (List Descriptor)} {s r : List Char}
    {d : Descriptor} (h : positional components s = .ok (d, r)) : r.length ≤ s.length := by
  simp only [positional, bind, Except.bind] at h
  split at h
  · simp at h
  next h₁ =>
  split at h
  · simp at h
  next h₂ =>
  split at h
  · simp at h
  split at h
  · simp at h
  next h₃ =>
  split at h
  · simp at h
  next h₄ =>
  split at h
  · simp at h
  next h₅ =>
  split at h
  · simp at h
  next h₆ =>
  split at h
  · simp at h
  have := length_optionalElement_le h₁
  have := length_optionalElement_le h₂
  have := length_optionalElement_le h₃
  have := length_optionalElement_le h₄
  have := length_optionalElement_le h₅
  have := length_closeArray_le h₆
  simp only [pure, Except.pure, Except.ok.injEq, Prod.mk.injEq] at h
  have := h.2
  subst this
  omega

/-! ## Descriptors -/

def descriptorFrom (components : Option (Reader (List Descriptor))) (c : Char) (s : List Char) :
    Except Fault (Descriptor × List Char) :=
  if c = '[' ∨ c = '\x7b' then
    match components with
    | none => .error .malformed
    | some components => if c = '[' then positional components s else object components s
  else .error (wrongValue c s)

theorem length_descriptorFrom_le {components : Option (Reader (List Descriptor))} {c : Char}
    {s r : List Char} {d : Descriptor} (h : descriptorFrom components c s = .ok (d, r)) :
    r.length ≤ s.length := by
  unfold descriptorFrom at h
  split at h
  · split at h
    · simp at h
    · split at h
      · exact length_positional_le h
      · exact length_object_le h
  · simp at h

/-- A descriptor, if its bracket may still be opened: there is a reader for its components then. -/
def descriptorWith (components : Option (Reader (List Descriptor))) : Reader Descriptor :=
  .ofHead (descriptorFrom components) length_descriptorFrom_le

mutual

/-- A descriptor that may open `room` brackets inside each other. -/
def descriptor : (room : Nat) → Reader Descriptor
  | 0 => descriptorWith none
  | room + 1 => descriptorWith (some (descriptors room))

def descriptors : (room : Nat) → Reader (List Descriptor)
  | 0 => array none
  | room + 1 => array (some (descriptor room))

end

/-- An argument, whose type has to be one. -/
def argument (room : Nat) : Reader Argument :=
  (descriptor room).check fun d ↦
    match d.toArgument with
    | .ok a => .ok a
    | .error e => .error (.rejected e)

/-- How deep the arrays and objects of an argument list may be nested. -/
def bracketLimit : Nat := 127

/-- Reads a whole text as an argument list. -/
def arguments (s : List Char) : Except Fault Arguments :=
  match (array (some (argument (bracketLimit - 1)))).run s with
  | .error e => .error e
  | .ok (args, rest) => if skipBlanks rest = [] then .ok args else .error .malformed

end ContractAbi.Json

namespace ContractAbi

/-- Reads an argument list in JSON. -/
def Arguments.ofJson (text : String) : Except Json.Fault Arguments :=
  Json.arguments text.toList

end ContractAbi
