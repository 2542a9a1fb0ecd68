import ContractAbi.Proofs.Json.Skipped

/-!
# Texts of descriptors

A descriptor may be written as an object or as an array. The object has the members of the
descriptor in any order, those at their default may be missing, and members that nobody reads may
stand anywhere between them. The array has the same members in their order and may end before
members at their default.

What an object gives does not depend on the order, because its members are collected by key: those
that are held after some of them were read are the known ones among these.
-/

namespace ContractAbi.Json

/-! ## Values of members -/

def NullableText : Option String → List Char → Prop
  | none, s => s = "null".toList
  | some text, s => StringText text s

def FlagText : Bool → List Char → Prop
  | true, s => s = "true".toList
  | false, s => s = "false".toList

theorem textFrom_of_contentText {text : String} {t : List Char} (h : ContentText text.toList t)
    (rest : List Char) : textFrom '"' (t ++ ['"'] ++ rest) = .ok (text, rest) := by
  rw [textFrom, if_pos rfl, List.append_assoc, List.singleton_append, content_of_contentText h]
  simp only [String.ofList_toList]

theorem reads_text : Reads text StringText .ok := by
  refine reads_ofHead ?_
  rintro text _ ⟨t, ht, rfl⟩
  exact ⟨'"', t ++ ['"'], rfl, by decide, fun rest _ ↦ textFrom_of_contentText ht rest⟩

theorem reads_nullableText : Reads nullableText NullableText .ok := by
  refine reads_ofHead ?_
  intro text s h
  cases text with
  | none =>
    obtain rfl : s = "null".toList := h
    refine ⟨'n', "ull".toList, rfl, by decide, fun rest _ ↦ ?_⟩
    rw [nullableTextFrom, if_pos rfl, literal_append]
    rfl
  | some text =>
    obtain ⟨t, ht, rfl⟩ := h
    refine ⟨'"', t ++ ['"'], rfl, by decide, fun rest _ ↦ ?_⟩
    rw [nullableTextFrom, if_neg (by decide), textFrom_of_contentText ht]
    rfl

theorem reads_flag : Reads flag FlagText .ok := by
  refine reads_ofHead ?_
  intro b s h
  cases b with
  | true =>
    obtain rfl : s = "true".toList := h
    refine ⟨'t', "rue".toList, rfl, by decide, fun rest _ ↦ ?_⟩
    rw [flagFrom, if_pos rfl, literal_append]
    rfl
  | false =>
    obtain rfl : s = "false".toList := h
    refine ⟨'f', "alse".toList, rfl, by decide, fun rest _ ↦ ?_⟩
    rw [flagFrom, if_neg (by decide), if_pos rfl, literal_append]
    rfl

/-! ## Members -/

/-- A member of an object: one of a descriptor with its value, or one that nobody reads. -/
inductive Member where
  | name (text : String)
  | type (signature : String)
  | internalType (text : Option String)
  | components (ds : List Descriptor)
  | indexed (flag : Bool)
  | other (key : String)

namespace Member

def key : Member → String
  | name _ => "name"
  | type _ => "type"
  | internalType _ => "internalType"
  | components _ => "components"
  | indexed _ => "indexed"
  | other key => key

def known : Member → Bool
  | other _ => false
  | _ => true

/-- Such a member may be left out. There is none for the type. -/
def IsDefault : Member → Prop
  | name text => text = ""
  | internalType text => text = none
  | components ds => ds = []
  | indexed flag => flag = false
  | type _ | other _ => False

/-- The texts of the value, `list` being those of a list of components. -/
def ValueText (list : List Descriptor → List Char → Prop) : Member → List Char → Prop
  | name text, s => StringText text s
  | type signature, s => StringText signature s
  | internalType text, s => NullableText text s
  | components ds, s => list ds s
  | indexed flag, s => FlagText flag s
  | other key, s => key ∉ ["name", "type", "internalType", "components", "indexed"] ∧
      ∃ depth, Json.ValueText depth s

/-- The texts of the member in an object. -/
def Text (list : List Descriptor → List Char → Prop) (x : Member) : List Char → Prop :=
  MemberText (ContentText x.key.toList) (x.ValueText list)

/-- What is collected when the member was read. -/
def set : Member → Members → Members
  | name text, m => { m with name := some text }
  | type signature, m => { m with type := some signature }
  | internalType text, m => { m with internalType := some text }
  | components ds, m => { m with components := some ds }
  | indexed flag, m => { m with indexed := some flag }
  | other _, m => m

end Member

/-- The member was collected. -/
def Members.Holds (m : Members) : Member → Prop
  | .name text => m.name = some text
  | .type signature => m.type = some signature
  | .internalType text => m.internalType = some text
  | .components ds => m.components = some ds
  | .indexed flag => m.indexed = some flag
  | .other _ => False

def Members.Lacks (m : Members) (key : String) : Prop :=
  ∀ x : Member, x.key = key → ¬m.Holds x

theorem Members.holds_set_iff {m : Members} {x y : Member} (hx : x.known = true) :
    (x.set m).Holds y ↔ y = x ∨ y.key ≠ x.key ∧ m.Holds y := by
  cases x <;> cases y <;> simp_all [Member.set, Member.known, Members.Holds, Member.key, eq_comm]

section Object

variable {list : List Descriptor → List Char → Prop} {components : Reader (List Descriptor)}

theorem addValue_of_text {α : Type} {read : Reader α} {p : α → List Char → Prop}
    (hread : Reads read p .ok) {a : α} {v front back rest : List Char} (ha : p a v)
    (hfront : Blanks front) (hback : Blanks back) (hrest : Delimited rest) (set : α → Members) :
    addValue none read set (front ++ ':' :: (back ++ (v ++ rest))) = .ok (set a, rest) := by
  have hcolon : skipBlanks (front ++ ':' :: (back ++ (v ++ rest))) = ':' :: (back ++ (v ++ rest)) :=
    skipBlanks_of_notMem hfront (by decide) _
  simp only [addValue, valueOf, hcolon, if_true, hread.run ha hback hrest]
  rfl

theorem member_of_unknown {key : String}
    (hkey : key ∉ ["name", "type", "internalType", "components", "indexed"]) {m : Members}
    {s rest : List Char} (hs : content s = .ok (key.toList, rest)) :
    member components m s = addValue none skipValue (fun _ ↦ m) rest := by
  rw [member, hs]
  simp only [String.ofList_toList]
  split
  · exact absurd (by decide) hkey
  · exact absurd (by decide) hkey
  · exact absurd (by decide) hkey
  · exact absurd (by decide) hkey
  · exact absurd (by decide) hkey
  · rfl

/-- A member is collected, if there is none of its key. -/
theorem member_of_text (hlist : Reads components list .ok) {x : Member} {m : Members}
    {s rest : List Char} (hs : x.Text list ('"' :: s)) (hlacks : x.known = true → m.Lacks x.key)
    (hrest : Delimited rest) : member components m (s ++ rest) = .ok (x.set m, rest) := by
  obtain @⟨k, front, back, v, hk, hfront, hback, hv⟩ := hs
  have hcontent := content_of_contentText hk (front ++ ':' :: (back ++ (v ++ rest)))
  have hnone {α : Type} {o : Option α} (h : ∀ a, o ≠ some a) : o = none :=
    Option.eq_none_iff_forall_ne_some.mpr h
  simp only [List.append_assoc, List.cons_append]
  cases x with
  | other key =>
    rw [member_of_unknown hv.1 hcontent]
    exact addValue_of_text reads_skipValue (a := ()) hv.2 hfront hback hrest _
  | name text =>
    have hfree : m.name = none := hnone fun a ↦ hlacks rfl (.name a) rfl
    simp only [member, hcontent, String.ofList_toList, Member.key, hfree]
    exact addValue_of_text reads_text hv hfront hback hrest _
  | type signature =>
    have hfree : m.type = none := hnone fun a ↦ hlacks rfl (.type a) rfl
    simp only [member, hcontent, String.ofList_toList, Member.key, hfree]
    exact addValue_of_text reads_text hv hfront hback hrest _
  | internalType text =>
    have hfree : m.internalType = none := hnone fun a ↦ hlacks rfl (.internalType a) rfl
    simp only [member, hcontent, String.ofList_toList, Member.key, hfree]
    exact addValue_of_text reads_nullableText hv hfront hback hrest _
  | components ds =>
    have hfree : m.components = none := hnone fun a ↦ hlacks rfl (.components a) rfl
    simp only [member, hcontent, String.ofList_toList, Member.key, hfree]
    exact addValue_of_text hlist hv hfront hback hrest _
  | indexed flag =>
    have hfree : m.indexed = none := hnone fun a ↦ hlacks rfl (.indexed a) rfl
    simp only [member, hcontent, String.ofList_toList, Member.key, hfree]
    exact addValue_of_text reads_flag hv hfront hback hrest _

/-! ## Objects -/

theorem nextMember_close {b : List Char} (hb : Blanks b) (first : Bool) (rest : List Char) :
    nextMember first (b ++ '\x7d' :: rest) = .ok (.closed rest) := by
  rw [nextMember, skipBlanks_append hb, skipBlanks_cons (by decide)]
  exact if_pos rfl

theorem nextMember_item {first : Bool} {b : List Char} (hb : Lead first b) (s : List Char) :
    nextMember first (b ++ '"' :: s) = .ok (.item s) := by
  cases first with
  | true =>
    rw [nextMember, skipBlanks_append hb, skipBlanks_cons (by decide)]
    rfl
  | false =>
    obtain ⟨back, hback, hcomma⟩ := hb.exists_comma
    have hquote : skipBlanks (back ++ '"' :: s) = '"' :: s :=
      skipBlanks_of_notMem hback (by decide) s
    rw [nextMember, hcomma]
    simp only [hquote]
    rfl

theorem members_closed {first : Bool} {m : Members} {s r : List Char}
    (h : nextMember first s = .ok (.closed r)) :
    members components first m s = .ok (m, r) := by
  rw [members]
  split
  · next hn => cases hn.symm.trans h
  · next hn => cases hn.symm.trans h; rfl
  · next hn => cases hn.symm.trans h

theorem members_item {first : Bool} {m m' : Members} {s r r' : List Char}
    (h : nextMember first s = .ok (.item r)) (hm : member components m r = .ok (m', r')) :
    members components first m s = members components false m' r' := by
  rw [members]
  split
  · next hn => cases hn.symm.trans h
  · next hn => cases hn.symm.trans h
  · next hn =>
    cases hn.symm.trans h
    split
    · next he => cases he.symm.trans hm
    · next he => cases he.symm.trans hm; rfl

/-- The known members among `xs` are what was collected. -/
def Members.Collects (m : Members) (xs : List Member) : Prop :=
  ∀ x : Member, m.Holds x ↔ x.known = true ∧ x ∈ xs

/-- No known key stands twice. -/
def KnownOnce (xs : List Member) : Prop := ((xs.filter Member.known).map Member.key).Nodup

theorem KnownOnce.key_ne {done xs : List Member} {x y : Member} (h : KnownOnce (done ++ x :: xs))
    (hx : x.known = true) (hy : y ∈ done) (hyk : y.known = true) : y.key ≠ x.key := by
  rw [KnownOnce, List.filter_append, List.filter_cons_of_pos hx, List.map_append, List.map_cons,
    List.nodup_append] at h
  obtain ⟨-, -, hdisjoint⟩ := h
  exact hdisjoint _ (List.mem_map_of_mem (List.mem_filter.mpr ⟨hy, hyk⟩)) _ List.mem_cons_self

theorem Members.Collects.lacks {m : Members} {done xs : List Member} {x : Member}
    (hm : m.Collects done) (h : KnownOnce (done ++ x :: xs)) (hx : x.known = true) :
    m.Lacks x.key := by
  intro y hkey hy
  obtain ⟨hyk, hmem⟩ := (hm y).mp hy
  exact h.key_ne hx hmem hyk hkey

theorem Members.Collects.set {m : Members} {done xs : List Member} {x : Member}
    (hm : m.Collects done) (h : KnownOnce (done ++ x :: xs)) :
    (x.set m).Collects (done ++ [x]) := by
  intro y
  rw [List.mem_append, List.mem_singleton]
  by_cases hx : x.known = true
  · -- what was held under other keys still is, and nothing was held under this one
    rw [Members.holds_set_iff hx, hm y]
    constructor
    · rintro (rfl | ⟨-, hyk, hy⟩)
      · exact ⟨hx, Or.inr rfl⟩
      · exact ⟨hyk, Or.inl hy⟩
    · rintro ⟨hyk, hy | rfl⟩
      · exact Or.inr ⟨h.key_ne hx hy hyk, hyk, hy⟩
      · exact Or.inl rfl
  · -- a member that nobody reads changes nothing
    have hset : x.set m = m := by cases x <;> trivial
    rw [hset, hm y]
    refine and_congr_right fun hyk ↦ (or_iff_left ?_).symm
    rintro rfl
    exact hx hyk

/-- What is collected from a list of members, by an induction on it. The members read so far are
those in `done`, and none of the known keys among them comes again. -/
theorem members_of_items (hlist : Reads components list .ok) {first : Bool} {xs : List Member}
    {s : List Char} (h : Items (Member.Text list) first xs s) {done : List Member} {m : Members}
    (hm : m.Collects done) (hxs : KnownOnce (done ++ xs)) (rest : List Char) :
    ∃ m', m'.Collects (done ++ xs) ∧
      members components first m (s ++ '\x7d' :: rest) = .ok (m', rest) := by
  induction h generalizing done m with
  | @nil first b hb =>
    rw [List.append_nil]
    exact ⟨m, hm, members_closed (nextMember_close hb first rest)⟩
  | @cons first x xs b s t hlead hx hitems ih =>
    -- a member is read from behind the quote of its key
    obtain ⟨s, rfl⟩ : ∃ s', s = '"' :: s' := by cases hx; exact ⟨_, rfl⟩
    have hnext : nextMember first (b ++ ('"' :: s ++ t) ++ '\x7d' :: rest)
        = .ok (.item (s ++ (t ++ '\x7d' :: rest))) := by
      rw [List.append_assoc, List.append_assoc]
      exact nextMember_item hlead _
    have hmember := member_of_text hlist hx (hm.lacks hxs)
      (hitems.delimited (delimited_cons (c := '\x7d') (by decide) rest))
    rw [members_item hnext hmember, ← List.singleton_append, ← List.append_assoc]
    refine ih (hm.set hxs) ?_
    rwa [List.append_assoc]

/-- The members of a descriptor, in the order that they have in an array. -/
def membersOf (d : Descriptor) : List Member :=
  [.name d.name, .type d.type, .internalType d.internalType, .components d.components,
    .indexed d.indexed]

/-- An object with the members `xs` stands for the descriptor. -/
structure Describes (xs : List Member) (d : Descriptor) : Prop where
  once : KnownOnce xs
  faithful : ∀ x ∈ xs, x.known = true → x ∈ membersOf d
  -- a member that is left out is at its default, and so the type is there
  complete : ∀ x ∈ membersOf d, x ∉ xs → x.IsDefault

theorem getD_of_missing {α : Type} {o : Option α} {a b : α} (hheld : ∀ c, o = some c → c = a)
    (hmissing : o ≠ some a → a = b) : o.getD b = a := by
  cases o with
  | none => exact (hmissing nofun).symm
  | some c => exact hheld c rfl

theorem Describes.toDescriptor {xs : List Member} {d : Descriptor} {m : Members}
    (h : Describes xs d) (hm : m.Collects xs) : m.toDescriptor = .ok d := by
  have hheld {x : Member} (hx : m.Holds x) : x ∈ membersOf d :=
    h.faithful x ((hm x).mp hx).2 ((hm x).mp hx).1
  have hmissing {x : Member} (hx : x ∈ membersOf d) (hk : x.known = true) (hn : ¬m.Holds x) :
      x.IsDefault := h.complete x hx fun hmem ↦ hn ((hm x).mpr ⟨hk, hmem⟩)
  have htype : m.type = some d.type :=
    not_not.mp fun hn ↦ hmissing (x := .type d.type) (by simp [membersOf]) rfl hn
  have hname : m.name.getD "" = d.name := getD_of_missing
    (fun c hc ↦ by simpa [membersOf] using hheld (x := .name c) hc)
    (hmissing (x := .name d.name) (by simp [membersOf]) rfl)
  have hinternal : m.internalType.getD none = d.internalType := getD_of_missing
    (fun c hc ↦ by simpa [membersOf] using hheld (x := .internalType c) hc)
    (hmissing (x := .internalType d.internalType) (by simp [membersOf]) rfl)
  have hcomponents : m.components.getD [] = d.components := getD_of_missing
    (fun c hc ↦ by simpa [membersOf] using hheld (x := .components c) hc)
    (hmissing (x := .components d.components) (by simp [membersOf]) rfl)
  have hindexed : m.indexed.getD false = d.indexed := getD_of_missing
    (fun c hc ↦ by simpa [membersOf] using hheld (x := .indexed c) hc)
    (hmissing (x := .indexed d.indexed) (by simp [membersOf]) rfl)
  simp only [Members.toDescriptor, htype, hname, hinternal, hcomponents, hindexed]
  cases d
  rfl

theorem object_of_items (hlist : Reads components list .ok) {xs : List Member} {d : Descriptor}
    {s : List Char} (hd : Describes xs d) (h : Items (Member.Text list) true xs s)
    (rest : List Char) : object components (s ++ '\x7d' :: rest) = .ok (d, rest) := by
  have hempty : Members.Collects {} [] := by
    intro x
    cases x <;> simp [Members.Holds]
  obtain ⟨m, hm, hread⟩ := members_of_items hlist h hempty hd.once rest
  simp only [object, hread, ok_bind, hd.toDescriptor hm, pure_eq_ok]

/-! ## Arrays -/

/-- The element at the head of the list is read, if there is one. -/
theorem optionalElement_of_items {α β : Type} {read : Reader β} {p : α → List Char → Prop}
    {q : β → List Char → Prop} (hread : Reads read q .ok) {f : β → α}
    (hf : ∀ {v s}, p (f v) s → q v s) {first : Bool} {as : List α} {s : List Char}
    (h : Items p first as s) {o : Option β} (ho : as.head? = o.map f) (rest : List Char) :
    ∃ t, Items p false as.tail t ∧
      optionalElement read first (s ++ ']' :: rest) = .ok (o, t ++ ']' :: rest) := by
  cases h with
  | nil hb =>
    obtain rfl : o = none := Option.map_eq_none_iff.mp ho.symm
    refine ⟨s, .nil hb, ?_⟩
    rw [optionalElement, nextElement_close hb]
  | @cons _ a as b s t hlead ha hitems =>
    obtain ⟨v, rfl, rfl⟩ := Option.map_eq_some_iff.mp ho.symm
    have hnext : nextElement first (b ++ (s ++ t) ++ ']' :: rest)
        = .ok (.item (s ++ (t ++ ']' :: rest))) := by
      rw [List.append_assoc, List.append_assoc]
      exact nextElement_item hlead ((hread.starts (hf ha)).append _)
    have hrun := hread.run_of_text (hf ha)
      (hitems.delimited (delimited_cons (c := ']') (by decide) rest))
    refine ⟨t, hitems, ?_⟩
    simp only [optionalElement, hnext, hrun]
    rfl

theorem closeArray_of_items {α : Type} {p : α → List Char → Prop} {first : Bool} {s : List Char}
    (h : Items p first [] s) (rest : List Char) : closeArray (s ++ ']' :: rest) = .ok rest := by
  cases h with
  | nil hb =>
    rw [closeArray, skipBlanks_append hb, skipBlanks_cons (by decide)]
    exact if_pos rfl

/-- An array of a name, a type, and what there is of the other members. -/
theorem positional_of_items (hlist : Reads components list .ok) {name type : String}
    {xs : List Member} {s : List Char}
    (h : Items (Member.ValueText list) true (.name name :: .type type :: xs) s)
    {internalType : Option (Option String)} {ds : Option (List Descriptor)} {flag : Option Bool}
    (hinternal : xs.head? = internalType.map .internalType)
    (hds : xs.tail.head? = ds.map .components) (hflag : xs.tail.tail.head? = flag.map .indexed)
    (hend : xs.tail.tail.tail = []) (rest : List Char) :
    positional components (s ++ ']' :: rest) = .ok (⟨name, type, internalType.getD none,
      ds.getD [], flag.getD false⟩, rest) := by
  obtain ⟨t₁, h₁, hread₁⟩ := optionalElement_of_items reads_text (f := .name) id h
    (o := some name) rfl rest
  obtain ⟨t₂, (h₂ : Items (Member.ValueText list) false xs t₂), hread₂⟩ :=
    optionalElement_of_items reads_text (f := .type) id h₁ (o := some type) rfl rest
  obtain ⟨t₃, h₃, hread₃⟩ := optionalElement_of_items reads_nullableText (f := .internalType) id h₂
    hinternal rest
  obtain ⟨t₄, h₄, hread₄⟩ := optionalElement_of_items hlist (f := .components) id h₃ hds rest
  obtain ⟨t₅, h₅, hread₅⟩ := optionalElement_of_items reads_flag (f := .indexed) id h₄ hflag rest
  have hclose : closeArray (t₅ ++ ']' :: rest) = .ok rest := by
    rw [hend] at h₅
    exact closeArray_of_items h₅ rest
  simp only [positional, hread₁, hread₂, hread₃, hread₄, hread₅, hclose, ok_bind,
    Members.toDescriptor, Option.getD_some, pure_eq_ok]

end Object

end ContractAbi.Json
