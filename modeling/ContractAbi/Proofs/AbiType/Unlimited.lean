import ContractAbi.Proofs.AbiType.Grammar

/-!
# Reading without a limit

A signature is a base and the groups behind it, and the internal type has groups of its own for the
same layers. `Unlimited.parse` reads both by the one rule that this suggests: a group at the end is
removed from the signature, and from the internal type if that has one, and what is left is read in
the same way. It may nest any number of levels, and says nothing about the cause of a failure.

Reading with a limit goes another way. All groups are removed in a loop before the base is looked
at, and one count of the levels that may still be opened goes through the loop and into the
components. The two are compared level by level, as `Limited` says: what is read without a limit is
read with one if it nests no deeper, and is refused for its depth alone if it does.
-/

namespace ContractAbi

namespace AbiType

/-! ## Levels -/

mutual

/-- The most slices, arrays and tuples that lie on a path from the root to a leaf. -/
def levels : AbiType → Nat
  | slice elem => levels elem + 1
  | array elem _ => levels elem + 1
  | tuple _ fields => levelsOfFields fields + 1
  | _ => 0

def levelsOfFields : List (Field AbiType) → Nat
  | [] => 0
  | f :: rest => max (levels f.type) (levelsOfFields rest)

end

theorem IsLeaf.levels_eq_zero {t : AbiType} (h : t.IsLeaf) : t.levels = 0 := by
  cases t with
  | slice _ | array _ _ | tuple _ _ => exact h.elim
  | _ => rfl

theorem levels_wrap (layer : Layer) (t : AbiType) : (layer.wrap t).levels = t.levels + 1 := by
  cases layer <;> rfl

/-! ## The rule -/

/-- What a text that ends in a bracket group has in front of it, and the layer of the group. -/
def lastGroup? (text : List Char) : Option (List Char × Layer) := do
  let (before, group) ← splitLast '[' text
  let layer ← (parseGroup text group).toOption
  return (before, layer)

/-- Without the last opening bracket and what follows it. -/
def withoutGroup (internal : List Char) : List Char :=
  ((splitLast '[' internal).map Prod.fst).getD internal

theorem lastGroup?_eq_some {text before : List Char} {layer : Layer}
    (h : lastGroup? text = some (before, layer)) :
    ∃ group, splitLast '[' text = some (before, group) ∧ parseGroup text group = .ok layer := by
  obtain ⟨⟨before', group⟩, hsplit, h⟩ := Option.bind_eq_some_iff.mp h
  obtain ⟨layer', hlayer, h⟩ := Option.bind_eq_some_iff.mp h
  obtain ⟨rfl, rfl⟩ := Prod.mk.inj (Option.some.inj h)
  refine ⟨group, hsplit, ?_⟩
  cases hgroup : parseGroup text group with
  | error e =>
    rw [hgroup] at hlayer
    cases hlayer
  | ok l =>
    rw [hgroup] at hlayer
    rw [Option.some.inj hlayer]

theorem length_lt_of_lastGroup? {text before : List Char} {layer : Layer}
    (h : lastGroup? (Text.trim text) = some (before, layer)) : before.length < text.length := by
  obtain ⟨group, hsplit, -⟩ := lastGroup?_eq_some h
  obtain ⟨front, back, -, -, htext⟩ := Text.exists_trim text
  rw [htext, (splitLast_eq_some_iff.mp hsplit).1]
  simp only [List.length_append, List.length_cons]
  omega

namespace Unlimited

/-- Reads a signature, `fields?` being the fields of its tuple if they can be read. -/
def ofSignature (fields? : Option (List (Field AbiType))) (text internal : List Char) :
    Option AbiType :=
  match _h : lastGroup? (Text.trim text) with
  | some (before, layer) => (ofSignature fields? before (withoutGroup internal)).map layer.wrap
  | none =>
    match resolveBase (Text.trim text) internal with
    | .ok (.leaf type) => some type
    | .ok .tuple => fields?.map (.tuple (structNameOf internal))
    | .error _ => none
termination_by text.length
decreasing_by exact length_lt_of_lastGroup? _h

mutual

def ofDescriptor : Descriptor → Option AbiType
  | ⟨_, type, internalType, components, _⟩ =>
    ofSignature (fieldsOfDescriptors [] 0 components) type.toList (internalType.getD "").toList

/-- The fields of a tuple from position `index` on, `taken` being the names bound before. -/
def fieldsOfDescriptors (taken : List String) (index : Nat) :
    List Descriptor → Option (List (Field AbiType))
  | [] => some []
  | d :: rest => do
    let type ← ofDescriptor d
    let name ← (bindingName taken index d.name).toOption
    let fields ← fieldsOfDescriptors (name :: taken) (index + 1) rest
    return ⟨d.name, name, type⟩ :: fields

end

def parse (signature : String) (internalType : String := "") (components : List Descriptor := []) :
    Option AbiType :=
  ofDescriptor ⟨"", signature, some internalType, components, false⟩

end Unlimited

/-! ## Texts that are read -/

theorem isAlpha_of_splitSize {base letters : List Char} {size : Option Nat}
    (h : splitSize base = .ok (letters, size)) : ∀ c ∈ letters, c.isAlpha = true := by
  rw [splitSize] at h
  split at h
  · cases h
  split at h
  · cases h
    exact fun c hc ↦ List.mem_takeWhile_imp hc
  split at h
  · split at h <;> cases h
  split at h
  · cases h
  split at h
  · cases h
  · cases h
    exact fun c hc ↦ List.mem_takeWhile_imp hc

/-- Letters and digits make up a base, so no group is left in it. -/
theorem bracketFree_of_resolveBase {base internal : List Char} {b : Base}
    (h : resolveBase base internal = .ok b) : BracketFree base := by
  obtain ⟨⟨letters, size⟩, hsplit, -⟩ := bind_eq_ok_iff.mp h
  obtain ⟨digits, rfl, hdigits, -⟩ := digits_of_splitSize hsplit
  have hletters := isAlpha_of_splitSize hsplit
  refine BracketFree.append ⟨fun hc ↦ ?_, fun hc ↦ ?_⟩ (bracketFree_of_isDigit hdigits)
  · exact absurd (hletters _ hc) (by decide)
  · exact absurd (hletters _ hc) (by decide)

/-- A group is read whatever signature would be blamed for it. -/
theorem parseGroup_congr {signature group : List Char} {layer : Layer} (signature' : List Char)
    (h : parseGroup signature group = .ok layer) : parseGroup signature' group = .ok layer := by
  obtain ⟨g, hg, rfl⟩ := exists_group_of_parseGroup (List.forall_mem_nil _) h
  rw [BracketGroup.text] at hg
  cases hbefore : g.before with
  | nil =>
    rw [hbefore] at hg
    rw [← (List.cons.inj hg).2]
    exact g.parseGroup_inside signature'
  | cons c rest =>
    have hblank := g.blank_before c (hbefore ▸ List.mem_cons_self)
    rw [hbefore] at hg
    rw [(List.cons.inj hg).1] at hblank
    exact absurd hblank (by decide)

/-- A text that does not end in a group is not read if it has an opening bracket. -/
theorem peel_of_lastGroup?_eq_none (signature : List Char) (room : Nat) {text : List Char}
    (internal : List Char) (h : lastGroup? text = none) :
    peel signature room text internal = .ok ⟨text, internal, [], room⟩ ∨
      '[' ∈ text ∧ ∃ e, peel signature room text internal = .error e := by
  cases hsplit : splitLast '[' text with
  | none => cases room <;> rw [peel, hsplit] <;> exact Or.inl rfl
  | some p =>
    obtain ⟨before, group⟩ := p
    refine Or.inr ⟨by simp [(splitLast_eq_some_iff.mp hsplit).1], ?_⟩
    cases room with
    | zero =>
      rw [peel, hsplit]
      exact ⟨_, rfl⟩
    | succ room =>
      cases hgroup : parseGroup signature group with
      | error e =>
        rw [peel, hsplit]
        dsimp only
        rw [hgroup]
        exact ⟨e, rfl⟩
      | ok layer =>
        rw [lastGroup?, hsplit] at h
        simp only [Option.bind_eq_bind, Option.bind_some, parseGroup_congr text hgroup] at h
        cases h

/-! ## Reading with a limit -/

/-- How a reading that may open `room` levels ends, beside one that may open any number of them.
What is read nests `levels` many, and if these are too many, that is the cause of the failure. -/
inductive Limited {α : Type} (levels : α → Nat) (room : Nat) : Option α → Except AbiError α → Prop
  | within {a : α} : levels a ≤ room → Limited levels room (some a) (.ok a)
  | beyond {a : α} {text : String} : room < levels a →
    Limited levels room (some a) (.error (.invalidType (.nestedTooDeep nestingLimit text)))
  | refused {e : AbiError} : Limited levels room none (.error e)

theorem Limited.eq_ok_iff {α : Type} {levels : α → Nat} {room : Nat} {a? : Option α}
    {verdict : Except AbiError α} (h : Limited levels room a? verdict) {a : α} :
    verdict = .ok a ↔ a? = some a ∧ levels a ≤ room := by
  cases h with
  | within hle =>
    rw [Except.ok.injEq, Option.some.injEq]
    exact ⟨fun heq ↦ ⟨heq, heq ▸ hle⟩, And.left⟩
  | beyond hlt =>
    refine ⟨nofun, fun ⟨heq, hle⟩ ↦ ?_⟩
    rw [Option.some.inj heq] at hlt
    exact absurd hle (Nat.not_le.mpr hlt)
  | refused => exact ⟨nofun, nofun⟩

theorem Limited.eq_nestedTooDeep {α : Type} {levels : α → Nat} {room : Nat} {a? : Option α}
    {verdict : Except AbiError α} (h : Limited levels room a? verdict) {a : α} (ha : a? = some a)
    (hlt : room < levels a) :
    ∃ text, verdict = .error (.invalidType (.nestedTooDeep nestingLimit text)) := by
  cases h with
  | within hle =>
    rw [← Option.some.inj ha] at hlt
    exact absurd hle (Nat.not_le.mpr hlt)
  | beyond _ => exact ⟨_, rfl⟩
  | refused => cases ha

theorem Limited.exists_eq_error {α : Type} {levels : α → Nat} {room : Nat} {a? : Option α}
    {verdict : Except AbiError α} (h : Limited levels room a? verdict) (ha : a? = none) :
    ∃ e, verdict = .error e := by
  cases h with
  | within _ => cases ha
  | beyond _ => cases ha
  | refused => exact ⟨_, rfl⟩

section Steps

variable {α β : Type} {levels : α → Nat} {levels' : β → Nat} {room : Nat} {a? : Option α}
  {verdict : Except AbiError α}

/-- Steps without levels do not depend on the room. -/
theorem limited_toOption (room : Nat) (verdict : Except AbiError α) :
    Limited (fun _ ↦ 0) room verdict.toOption verdict := by
  cases verdict with
  | error e => exact .refused
  | ok a => exact .within (Nat.zero_le room)

/-- A sequence of steps fails with the first of them that does. If that is one for depth, then so
is the whole too deep, provided that the later steps keep the levels of the earlier. -/
theorem Limited.bind (h : Limited levels room a? verdict) {next? : α → Option β}
    {next : α → Except AbiError β}
    (hnext : ∀ a, levels a ≤ room → Limited levels' room (next? a) (next a))
    (hlevels : ∀ a b, next? a = some b → levels a ≤ levels' b) :
    Limited levels' room (a? >>= next?) (verdict >>= next) := by
  cases h with
  | within hle => exact hnext _ hle
  | @beyond a text hlt =>
    rw [Option.bind_eq_bind, Option.bind_some, error_bind]
    cases hb : next? a with
    | none => exact .refused
    | some b => exact .beyond (hlt.trans_le (hlevels a b hb))
  | refused => exact .refused

variable {f : α → β}

/-- A level that is opened takes one from the room. -/
theorem Limited.map (h : Limited levels room a? verdict)
    (hf : ∀ a, levels' (f a) = levels a + 1) :
    Limited levels' (room + 1) (a?.map f) (verdict.map f) := by
  cases h with
  | within hle => exact .within (by rw [hf]; exact Nat.succ_le_succ hle)
  | beyond hlt => exact .beyond (by rw [hf]; exact Nat.succ_lt_succ hlt)
  | refused => exact .refused

/-- Without room, no level is opened. -/
theorem limited_zero (a? : Option α) (text : String) (hf : ∀ a, levels' (f a) = levels a + 1) :
    Limited levels' 0 (a?.map f) (.error (.invalidType (.nestedTooDeep nestingLimit text))) := by
  cases a? with
  | none => exact .refused
  | some a => exact .beyond (by rw [hf]; exact Nat.succ_pos _)

end Steps

/-! ## Descriptors -/

/-- What comes of a signature whose groups are removed. -/
def complete (components : List Descriptor) (peeled : Peeled) : Except AbiError AbiType := do
  match ← resolveBase peeled.base peeled.internal with
  | .leaf type => return peeled.layers.foldr Layer.wrap type
  | .tuple =>
    match peeled.room with
    | 0 => .error (.invalidType (.nestedTooDeep nestingLimit (String.ofList peeled.base)))
    | room + 1 =>
      let fields ← fieldsOfDescriptors room [] 0 components
      return peeled.layers.foldr Layer.wrap (.tuple (structNameOf peeled.internal) fields)

theorem ofDescriptor_of_balanced (room : Nat) (d : Descriptor)
    (h : Balanced (Text.trim d.type.toList)) :
    ofDescriptor room d =
      peel (Text.trim d.type.toList) room (Text.trim d.type.toList)
        (d.internalType.getD "").toList >>= complete d.components := by
  obtain ⟨name, type, internalType, components, indexed⟩ := d
  rw [ofDescriptor]
  exact if_neg (not_not.mpr h)

theorem ofDescriptor_of_not_balanced (room : Nat) (d : Descriptor)
    (h : ¬Balanced (Text.trim d.type.toList)) :
    ofDescriptor room d = .error (.invalidType
      (.unbalancedBrackets (String.ofList (Text.trim d.type.toList)))) := by
  obtain ⟨name, type, internalType, components, indexed⟩ := d
  rw [ofDescriptor]
  exact if_pos h

theorem complete_cons (components : List Descriptor) (base internal : List Char) (layer : Layer)
    (layers : List Layer) (room : Nat) :
    complete components ⟨base, internal, layer :: layers, room⟩
      = (complete components ⟨base, internal, layers, room⟩).map layer.wrap := by
  simp only [complete]
  cases resolveBase base internal with
  | error e => rfl
  | ok b =>
    cases b with
    | leaf type => rfl
    | tuple =>
      cases room with
      | zero => rfl
      | succ room =>
        simp only [ok_bind]
        cases fieldsOfDescriptors room [] 0 components <;> rfl

theorem peel_bind_complete {signature base before group : List Char} {layer : Layer}
    (components : List Descriptor) (room : Nat) (internal : List Char)
    (hsplit : splitLast '[' base = some (before, group))
    (hgroup : parseGroup signature group = .ok layer) :
    peel signature (room + 1) base internal >>= complete components
      = (peel signature room (Text.trimEnd before) (withoutGroup internal)
          >>= complete components).map layer.wrap := by
  rw [peel, hsplit]
  dsimp only
  rw [hgroup, ok_bind, withoutGroup]
  cases peel signature room (Text.trimEnd before)
      (((splitLast '[' internal).map Prod.fst).getD internal) with
  | error e => rfl
  | ok peeled => exact complete_cons components _ _ layer _ _

/-- The groups of a signature are removed one by one on either side, and each takes one level of the
room. What remains is a base, which is read alike, or has a bracket left and is refused. -/
theorem limited_ofSignature {fields? : Option (List (Field AbiType))}
    {components : List Descriptor} (signature : List Char)
    (hfields : ∀ room, Limited levelsOfFields room fields?
      (fieldsOfDescriptors room [] 0 components))
    (room : Nat) (text internal : List Char) :
    Limited levels room (Unlimited.ofSignature fields? text internal)
      (peel signature room (Text.trim text) internal >>= complete components) := by
  fun_induction Unlimited.ofSignature fields? text internal generalizing room with
  | case1 text internal before layer h ih =>
    obtain ⟨group, hsplit, hgroup⟩ := lastGroup?_eq_some h
    cases room with
    | zero =>
      rw [peel, hsplit]
      exact limited_zero _ _ (levels_wrap layer)
    | succ room =>
      have hbefore := Text.trim_of_trim_eq_append (splitLast_eq_some_iff.mp hsplit).1
      rw [peel_bind_complete components room internal hsplit (parseGroup_congr signature hgroup),
        ← hbefore]
      exact (ih room).map (levels_wrap layer)
  | case2 text internal h type hresolve =>
    obtain hpeel | ⟨hbracket, -⟩ := peel_of_lastGroup?_eq_none signature room internal h
    · rw [hpeel, ok_bind, complete, hresolve]
      exact .within ((leaf_of_resolveBase hresolve).1.levels_eq_zero ▸ Nat.zero_le _)
    · exact absurd hbracket (bracketFree_of_resolveBase hresolve).1
  | case3 text internal h hresolve =>
    obtain hpeel | ⟨hbracket, -⟩ := peel_of_lastGroup?_eq_none signature room internal h
    · rw [hpeel, ok_bind, complete, hresolve]
      have htuple (fields : List (Field AbiType)) :
          (tuple (structNameOf internal) fields).levels = levelsOfFields fields + 1 := rfl
      cases room with
      | zero => exact limited_zero _ _ htuple
      | succ room => exact (hfields room).map htuple
    · exact absurd hbracket (bracketFree_of_resolveBase hresolve).1
  | case4 text internal h e hresolve =>
    obtain hpeel | ⟨-, e, he⟩ := peel_of_lastGroup?_eq_none signature room internal h
    · rw [hpeel, ok_bind, complete, hresolve]
      exact .refused
    · rw [he]
      exact .refused

/-- What is read without a limit has balanced brackets, so nothing is lost by counting them. -/
theorem balanced_of_ofSignature {fields? : Option (List (Field AbiType))}
    {text internal : List Char} {t : AbiType}
    (h : Unlimited.ofSignature fields? text internal = some t) : Balanced (Text.trim text) := by
  fun_induction Unlimited.ofSignature fields? text internal generalizing t with
  | case1 text internal before layer hlast ih =>
    obtain ⟨inner, hinner, -⟩ := Option.map_eq_some_iff.mp h
    obtain ⟨group, hsplit, hgroup⟩ := lastGroup?_eq_some hlast
    obtain ⟨g, hg, -⟩ := exists_group_of_parseGroup (List.forall_mem_nil _) hgroup
    obtain ⟨front, back, hfront, hback, hbefore⟩ := Text.exists_trim before
    rw [(splitLast_eq_some_iff.mp hsplit).1, hbefore, ← List.nil_append ('[' :: group), ← hg]
    exact ((bracketFree_of_blank hfront).balanced.append
      ((ih hinner).append (bracketFree_of_blank hback).balanced)).append g.balanced_text
  | case2 text internal hlast type hresolve => exact (bracketFree_of_resolveBase hresolve).balanced
  | case3 text internal hlast hresolve => exact (bracketFree_of_resolveBase hresolve).balanced
  | case4 text internal hlast e hresolve => cases h

mutual

theorem limited_ofDescriptor : (d : Descriptor) → ∀ room : Nat,
    Limited levels room (Unlimited.ofDescriptor d) (ofDescriptor room d)
  | ⟨name, type, internalType, components, indexed⟩, room => by
    let d : Descriptor := ⟨name, type, internalType, components, indexed⟩
    rw [Unlimited.ofDescriptor]
    by_cases hbalanced : Balanced (Text.trim type.toList)
    · rw [ofDescriptor_of_balanced room d hbalanced]
      exact limited_ofSignature _ (fun inner ↦ limited_fieldsOfDescriptors components inner [] 0)
        room _ _
    · rw [ofDescriptor_of_not_balanced room d hbalanced]
      cases h : Unlimited.ofSignature (Unlimited.fieldsOfDescriptors [] 0 components) type.toList
          (internalType.getD "").toList with
      | none => exact .refused
      | some t => exact absurd (balanced_of_ofSignature h) hbalanced

theorem limited_fieldsOfDescriptors : (ds : List Descriptor) →
    ∀ (room : Nat) (taken : List String) (index : Nat),
    Limited levelsOfFields room (Unlimited.fieldsOfDescriptors taken index ds)
      (fieldsOfDescriptors room taken index ds)
  | [], room, taken, index => by
    rw [Unlimited.fieldsOfDescriptors, fieldsOfDescriptors]
    exact .within (Nat.zero_le room)
  | d :: rest, room, taken, index => by
    rw [Unlimited.fieldsOfDescriptors, fieldsOfDescriptors]
    refine (limited_ofDescriptor d room).bind (fun type htype ↦ ?_) fun type fields h ↦ ?_
    · refine (limited_toOption room _).bind (fun name _ ↦ ?_) fun name _ _ ↦ Nat.zero_le _
      refine (limited_fieldsOfDescriptors rest room (name :: taken) (index + 1)).bind
        (fun others hothers ↦ .within (max_le htype hothers)) fun others fields h ↦ ?_
      rw [← Option.some.inj h]
      exact le_max_right _ _
    · obtain ⟨name, -, h⟩ := Option.bind_eq_some_iff.mp h
      obtain ⟨others, -, h⟩ := Option.bind_eq_some_iff.mp h
      rw [← Option.some.inj h]
      exact le_max_left _ _

end

/-- Whatever is read is what reading without a limit gives, and nests no more levels than it may. -/
theorem ofDescriptor_eq_ok_iff {room : Nat} {d : Descriptor} {t : AbiType} :
    ofDescriptor room d = .ok t ↔ Unlimited.ofDescriptor d = some t ∧ t.levels ≤ room :=
  (limited_ofDescriptor d room).eq_ok_iff

/-- **The nesting limit.** A type that can be read without a limit is read as it is, names included,
if no path through it has more levels than the limit, and is refused for its depth otherwise. What
cannot be read without a limit cannot be read with one. -/
theorem parse_eq_unlimited (signature internalType : String) (components : List Descriptor) :
    (∀ t, Unlimited.parse signature internalType components = some t → t.levels ≤ nestingLimit →
      parse signature internalType components = .ok t) ∧
    (∀ t, Unlimited.parse signature internalType components = some t → nestingLimit < t.levels →
      ∃ text, parse signature internalType components
        = .error (.invalidType (.nestedTooDeep nestingLimit text))) ∧
    (Unlimited.parse signature internalType components = none →
      ∃ e, parse signature internalType components = .error e) := by
  have hlimited := limited_ofDescriptor ⟨"", signature, some internalType, components, false⟩
    nestingLimit
  exact ⟨fun t h hle ↦ hlimited.eq_ok_iff.mpr ⟨h, hle⟩,
    fun t h hlt ↦ hlimited.eq_nestedTooDeep h hlt, hlimited.exists_eq_error⟩

/-- Tuples and arrays in turn: up to the last level of the limit, and to one beyond it. -/
theorem parse_eq_unlimited_tower :
    let tower (leaf : String) : List Descriptor :=
      [Nat.repeat (fun d ↦ ⟨"x", "tuple[2]", some "struct S[2]", [d], false⟩) 31
        ⟨"x", leaf, none, [], false⟩]
    let type (leaf : AbiType) : AbiType :=
      .slice (.tuple "" [⟨"x", "X",
        Nat.repeat (fun t ↦ .array (.tuple "S" [⟨"x", "X", t⟩]) 2) 31 leaf⟩])
    (Unlimited.parse "tuple[]" "" (tower "bool") = some (type .bool) ∧
      (type .bool).levels ≤ nestingLimit ∧
      parse "tuple[]" "" (tower "bool") = .ok (type .bool)) ∧
    (Unlimited.parse "tuple[]" "" (tower "bool[3]") = some (type (.array .bool 3)) ∧
      nestingLimit < (type (.array .bool 3)).levels ∧
      ∃ text, parse "tuple[]" "" (tower "bool[3]")
        = .error (.invalidType (.nestedTooDeep nestingLimit text))) ∧
    Unlimited.parse "uint7" = none ∧ ∃ e, parse "uint7" = .error e := by
  intro tower type
  -- With room enough the limit plays no part, so the limited reading tells the unlimited one.
  have hwithin : Unlimited.parse "tuple[]" "" (tower "bool") = some (type .bool) := by
    have hroom : ofDescriptor 65 ⟨"", "tuple[]", some "", tower "bool", false⟩
        = .ok (type .bool) := by decide +kernel
    exact (ofDescriptor_eq_ok_iff.mp hroom).1
  have hbeyond : Unlimited.parse "tuple[]" "" (tower "bool[3]") = some (type (.array .bool 3)) := by
    have hroom : ofDescriptor 65 ⟨"", "tuple[]", some "", tower "bool[3]", false⟩
        = .ok (type (.array .bool 3)) := by decide +kernel
    exact (ofDescriptor_eq_ok_iff.mp hroom).1
  have hlevels : (type .bool).levels ≤ nestingLimit := by decide +kernel
  have hlevels' : nestingLimit < (type (.array .bool 3)).levels := by decide +kernel
  have hnone : Unlimited.parse "uint7" = none := by
    rw [Unlimited.parse, Unlimited.ofDescriptor, Unlimited.ofSignature]
    rfl
  exact ⟨⟨hwithin, hlevels, (parse_eq_unlimited _ _ _).1 _ hwithin hlevels⟩,
    ⟨hbeyond, hlevels', (parse_eq_unlimited _ _ _).2.1 _ hbeyond hlevels'⟩,
    hnone, (parse_eq_unlimited _ _ _).2.2 hnone⟩

end AbiType

end ContractAbi
