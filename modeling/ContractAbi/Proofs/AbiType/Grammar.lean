import ContractAbi.Proofs.AbiType.Parsed
import ContractAbi.Proofs.AbiType.Spelling

/-!
# The grammar of signatures

Reading a signature without components succeeds exactly on the spellings of types. The reader knows
no grammar: it counts brackets, removes groups from the right, and splits what is left at the first
character that is not a letter. Each of these steps undoes a step of the spelling, and each result
of one comes from a spelling, so what is read and what is spelled are shown to be the same step by
step, the groups by an induction from the outermost one.
-/

namespace ContractAbi

namespace AbiType

/-! ## Brackets -/

/-- There are no brackets in the text. -/
def BracketFree (s : List Char) : Prop := '[' ∉ s ∧ ']' ∉ s

theorem bracketFree_of_blank {s : List Char} (h : Text.Blank s) : BracketFree s :=
  ⟨fun hc ↦ absurd (h _ hc) (by decide), fun hc ↦ absurd (h _ hc) (by decide)⟩

theorem bracketFree_of_isDigit {s : List Char} (h : ∀ c ∈ s, c.isDigit = true) : BracketFree s :=
  ⟨fun hc ↦ absurd (h _ hc) (by decide), fun hc ↦ absurd (h _ hc) (by decide)⟩

theorem BracketFree.append {s u : List Char} (hs : BracketFree s) (hu : BracketFree u) :
    BracketFree (s ++ u) := by
  rw [BracketFree, List.mem_append, List.mem_append, not_or, not_or]
  exact ⟨⟨hs.1, hu.1⟩, hs.2, hu.2⟩

theorem Stem.bracketFree_text (stem : Stem) : BracketFree stem.text := by
  have hletters : BracketFree stem.keyword.letters :=
    ⟨fun hc ↦ absurd (Keyword.isAlpha_of_mem_letters hc) (by decide),
      fun hc ↦ absurd (Keyword.isAlpha_of_mem_letters hc) (by decide)⟩
  exact hletters.append (bracketFree_of_isDigit stem.isDigit_of_mem)

/-- What stands between the brackets of a group, blanks and digits, has none itself. -/
theorem BracketGroup.bracketFree_content (g : BracketGroup) :
    BracketFree (g.opening ++ (g.digits ++ g.closing)) :=
  (bracketFree_of_blank g.blank_opening).append
    ((bracketFree_of_isDigit g.isDigit_of_mem).append (bracketFree_of_blank g.blank_closing))

/-- As many brackets are opened as are closed. -/
def Balanced (s : List Char) : Prop := s.count '[' = s.count ']'

theorem Balanced.append {s u : List Char} (hs : Balanced s) (hu : Balanced u) :
    Balanced (s ++ u) := by
  rw [Balanced, List.count_append, List.count_append, hs, hu]

theorem Balanced.bracketed {s : List Char} (h : Balanced s) : Balanced ('[' :: (s ++ [']'])) := by
  rw [Balanced] at h
  rw [Balanced, List.count_cons_self, List.count_cons_of_ne (by decide), List.count_append,
    List.count_append, h]
  rfl

theorem BracketFree.balanced {s : List Char} (h : BracketFree s) : Balanced s := by
  rw [Balanced, List.count_eq_zero_of_not_mem h.1, List.count_eq_zero_of_not_mem h.2]

theorem BracketGroup.balanced_text (g : BracketGroup) : Balanced g.text :=
  (bracketFree_of_blank g.blank_before).balanced.append g.bracketFree_content.balanced.bracketed

theorem Spelling.balanced_text (p : Spelling) : Balanced p.text := by
  have hgroups (groups : List BracketGroup) : Balanced (groups.flatMap BracketGroup.text) := by
    induction groups with
    | nil => rfl
    | cons g groups ih => exact g.balanced_text.append ih
  exact p.stem.bracketFree_text.balanced.append (hgroups p.groups)

/-! ## Groups -/

theorem BracketGroup.parseGroup_inside (signature : List Char) (g : BracketGroup) :
    parseGroup signature g.inside = .ok g.layer := by
  have hmiddle : ∀ c ∈ g.digits, Text.isBlank c = false :=
    fun c hc ↦ Text.isBlank_of_isDigit (g.isDigit_of_mem c hc)
  rw [parseGroup, inside, List.getLast?_concat, if_neg (by simp), List.dropLast_concat]
  simp only [Text.trim_append g.blank_opening hmiddle g.blank_closing]
  rcases g.size with hnil | ⟨hpos, hle⟩
  · rw [if_pos hnil, layer, if_pos hnil]
  · have hne : g.digits ≠ [] := ne_nil_of_digitsValue hpos
    have hall : g.digits.all Char.isDigit = true := List.all_eq_true.mpr g.isDigit_of_mem
    rw [if_neg hne, hall, ofDigits?_eq_some_iff.mpr ⟨rfl, hle⟩, layer, if_neg hne]
    obtain ⟨n, hn⟩ := Nat.exists_eq_add_of_le' hpos
    rw [hn]
    rfl

/-- A group that is read is one that can be spelled, behind any blanks. -/
theorem exists_group_of_parseGroup {signature group before : List Char} {layer : Layer}
    (hbefore : Text.Blank before) (h : parseGroup signature group = .ok layer) :
    ∃ g : BracketGroup, g.text = before ++ '[' :: group ∧ g.layer = layer := by
  obtain ⟨content, rfl, hdigits, hlayer⟩ := digits_of_parseGroup h
  obtain ⟨opening, closing, hopening, hclosing, hcontent⟩ := Text.exists_trim content
  have hsize : Text.trim content = [] ∨
      1 ≤ digitsValue (Text.trim content) ∧ digitsValue (Text.trim content) ≤ Count.limit :=
    hlayer.imp And.left fun hnumber ↦ ⟨hnumber.1, hnumber.2.1⟩
  let g : BracketGroup := ⟨before, opening, Text.trim content, closing, hbefore, hopening, hclosing,
    hdigits, hsize⟩
  refine ⟨g, ?_, ?_⟩
  · rw [BracketGroup.text, BracketGroup.inside, ← hcontent]
  · rw [BracketGroup.layer]
    rcases hlayer with ⟨hnil, rfl⟩ | ⟨hpos, -, rfl⟩
    · exact if_pos hnil
    · exact if_neg (ne_nil_of_digitsValue hpos)

/-! ## Removing groups -/

theorem BracketGroup.not_mem_inside (g : BracketGroup) : '[' ∉ g.inside := by
  rw [inside, List.mem_append, not_or]
  exact ⟨g.bracketFree_content.1, by decide⟩

theorem solid_flatMap_text {base : List Char} (hbase : Text.Solid base)
    (groups : List BracketGroup) : Text.Solid (base ++ groups.flatMap BracketGroup.text) := by
  rcases List.eq_nil_or_concat' groups with rfl | ⟨groups, g, rfl⟩
  · rwa [List.flatMap_nil, List.append_nil]
  · rw [List.flatMap_append, List.flatMap_singleton, BracketGroup.text, BracketGroup.inside,
      ← List.append_assoc, ← List.append_assoc, ← List.cons_append, ← List.append_assoc]
    exact Text.solid_append_singleton _ (by decide)

theorem peel_text (signature : List Char) {base : List Char} (hbase : '[' ∉ base)
    (hsolid : Text.Solid base) (room : Nat) (groups : List BracketGroup) :
    peel signature (room + groups.length) (base ++ groups.flatMap BracketGroup.text) []
      = .ok ⟨base, [], (groups.map BracketGroup.layer).reverse, room⟩ := by
  -- The last group is the first that is removed, so the groups are added behind the others.
  induction groups using List.reverseRecOn with
  | nil =>
    have hnone := splitLast_eq_none_iff.mpr hbase
    rw [List.flatMap_nil, List.append_nil, List.length_nil, Nat.add_zero]
    cases room <;> rw [peel, hnone] <;> rfl
  | append_singleton groups g ih =>
    rw [List.length_append, List.length_singleton, ← Nat.add_assoc, peel, List.flatMap_append,
      List.flatMap_singleton, BracketGroup.text, ← List.append_assoc, ← List.append_assoc,
      splitLast_append _ g.not_mem_inside]
    have hstripped : ((splitLast '[' []).map Prod.fst).getD [] = [] := rfl
    dsimp only
    rw [hstripped, Text.trimEnd_append (solid_flatMap_text hsolid groups) g.blank_before, ih,
      g.parseGroup_inside, ok_bind, ok_bind, pure_eq_ok, List.map_append, List.reverse_append]
    rfl

/-- The groups that were removed can be spelled, and each of them took a level of nesting. -/
theorem exists_groups_of_peel {signature base : List Char} {room : Nat} {peeled : Peeled}
    (h : peel signature room base [] = .ok peeled) :
    ∃ groups : List BracketGroup, base = peeled.base ++ groups.flatMap BracketGroup.text ∧
      peeled.layers = (groups.map BracketGroup.layer).reverse ∧ peeled.internal = [] ∧
      groups.length + peeled.room = room := by
  induction room generalizing base peeled with
  | zero =>
    rw [peel] at h
    split at h
    · cases h
      exact ⟨[], (List.append_nil _).symm, rfl, rfl, rfl⟩
    · cases h
  | succ room ih =>
    rw [peel] at h
    split at h
    · cases h
      exact ⟨[], (List.append_nil _).symm, rfl, rfl, Nat.zero_add _⟩
    · rename_i before group hsplit
      obtain ⟨rfl, -⟩ := splitLast_eq_some_iff.mp hsplit
      obtain ⟨layer, hlayer, h⟩ := bind_eq_ok_iff.mp h
      obtain ⟨inner, hinner, h⟩ := bind_eq_ok_iff.mp h
      cases h
      obtain ⟨groups, hbase, hlayers, hinternal, hroom⟩ := ih hinner
      -- The blanks that were trimmed before the next step are those in front of this group.
      obtain ⟨blanks, hblanks, hbefore⟩ := Text.exists_trimEnd before
      obtain ⟨g, hg, rfl⟩ := exists_group_of_parseGroup hblanks hlayer
      refine ⟨groups ++ [g], ?_, ?_, hinternal, ?_⟩
      · rw [List.flatMap_append, List.flatMap_singleton, hg, ← List.append_assoc, ← hbase,
          ← List.append_assoc, ← hbefore]
      · rw [hlayers, List.map_append, List.reverse_append]
        rfl
      · rw [List.length_append, List.length_singleton]
        dsimp only
        omega

/-! ## Bases -/

/-- The number behind the letters of a base, if there are digits. -/
def numberOf? (digits : List Char) : Option Nat :=
  if digits = [] then none else some (digitsValue digits)

theorem Stem.splitSize_text (stem : Stem) :
    splitSize stem.text = .ok (stem.keyword.letters, numberOf? stem.digits) := by
  have hdigits := stem.isDigit_of_mem
  have hx : 'x' ∉ stem.digits := fun hx ↦ absurd (hdigits _ hx) (by decide)
  have hall : stem.digits.all Char.isDigit = true := List.all_eq_true.mpr hdigits
  have hle : digitsValue stem.digits ≤ Count.limit := stem.takes.digitsValue_le.trans (by decide)
  rw [splitSize, text, stem.keyword.takeWhile_isAlpha hdigits,
    stem.keyword.dropWhile_isAlpha hdigits]
  simp only [stem.keyword.letters_ne_nil, hx, hall, if_false]
  rw [numberOf?]
  split
  · rfl
  · rw [ofDigits?_eq_some_iff.mpr ⟨rfl, hle⟩]
    rfl

theorem digits_of_splitSize {base letters : List Char} {size : Option Nat}
    (h : splitSize base = .ok (letters, size)) :
    ∃ digits, base = letters ++ digits ∧ (∀ c ∈ digits, c.isDigit = true) ∧
      size = numberOf? digits := by
  have hbase := List.takeWhile_append_dropWhile (p := Char.isAlpha) (l := base)
  rw [splitSize] at h
  split at h
  · cases h
  split at h
  · rename_i hrest
    cases h
    rw [hrest] at hbase
    exact ⟨[], hbase.symm, List.forall_mem_nil _, rfl⟩
  rename_i hrest
  split at h
  · split at h <;> cases h
  split at h
  · cases h
  rename_i hall
  rw [Bool.not_eq_true', Bool.not_eq_false] at hall
  split at h
  · cases h
  rename_i n hn
  cases h
  obtain ⟨rfl, -⟩ := ofDigits?_eq_some_iff.mp hn
  exact ⟨base.dropWhile Char.isAlpha, hbase.symm, List.all_eq_true.mp hall, (if_neg hrest).symm⟩

theorem Keyword.eq_letters_of_ofName? {letters : List Char} {keyword : Keyword}
    (h : ofName? (String.ofList letters) = some keyword) : letters = keyword.letters := by
  unfold ofName? at h
  split at h <;> cases h <;> rename_i hname <;>
    exact String.toList_ofList.symm.trans (congrArg String.toList hname)

namespace Base

/-- The type of a base that has no components. -/
def type : Base → AbiType
  | leaf type => type
  | tuple => .tuple "" []

def levels : Base → Nat
  | leaf _ => 0
  | tuple => 1

end Base

/-- What the stem is read as. -/
def Stem.base (stem : Stem) : Base := if stem.keyword = .tuple then .tuple else .leaf stem.type

theorem Stem.type_base (stem : Stem) : stem.base.type = stem.type := by
  obtain ⟨keyword, digits, -, -⟩ := stem
  cases keyword <;> rfl

theorem Stem.levels_base (stem : Stem) : stem.base.levels = stem.levels := by
  rw [base, levels]
  split <;> rfl

theorem numberOf?_eq_some {digits : List Char} (h : 1 ≤ digitsValue digits) :
    numberOf? digits = some (digitsValue digits) :=
  if_neg (ne_nil_of_digitsValue h)

theorem Stem.resolveBase_text (stem : Stem) : resolveBase stem.text [] = .ok stem.base := by
  rw [resolveBase, stem.splitSize_text, ok_bind]
  dsimp only
  rw [stem.keyword.ofName?_letters]
  obtain ⟨keyword, digits, hdigits, htakes⟩ := stem
  cases keyword with
  | uint | int =>
    obtain ⟨hdvd, hlow, hhigh⟩ := htakes
    have hpos : 1 ≤ digitsValue digits := le_trans (by decide) hlow
    rw [numberOf?_eq_some hpos]
    dsimp only
    rw [integerWidth_eq_ok_iff.mpr ⟨rfl, hpos, hhigh, Nat.mod_eq_zero_of_dvd hdvd⟩]
    rfl
  | bytes =>
    rcases htakes with rfl | ⟨hpos, hle⟩
    · rfl
    · rw [numberOf?_eq_some hpos]
      dsimp only
      rw [if_neg (Nat.not_lt.mpr hle), if_neg (Nat.one_le_iff_ne_zero.mp hpos), base,
        if_neg (by simp), type, if_neg (ne_nil_of_digitsValue hpos)]
      rfl
  | bool | string | address | function | tuple =>
    obtain rfl : digits = [] := htakes
    rfl

/-- A base that is read is a stem. It is enough that the keyword takes the digits, since then the
stem is read as well and the two results are one. -/
theorem exists_stem_of_resolveBase {base : List Char} {b : Base}
    (h : resolveBase base [] = .ok b) : ∃ stem : Stem, stem.text = base ∧ stem.base = b := by
  have hresolve := h
  rw [resolveBase] at h
  obtain ⟨⟨letters, size⟩, hsplit, h⟩ := bind_eq_ok_iff.mp h
  obtain ⟨digits, rfl, hdigits, rfl⟩ := digits_of_splitSize hsplit
  dsimp only at h
  rcases hk : Keyword.ofName? (String.ofList letters) with - | keyword
  · -- Letters that are no keyword could name a contract, but there is no internal type to say so.
    rw [hk] at h
    rcases numberOf? digits with - | n <;> cases h
  · obtain rfl := Keyword.eq_letters_of_ofName? hk
    rw [hk] at h
    have htakes : keyword.Takes digits := by
      by_cases hnil : digits = []
      · rw [numberOf?, if_pos hnil] at h
        cases keyword with
        | uint | int => cases h
        | bytes => exact Or.inl hnil
        | bool | string | address | function | tuple => exact hnil
      · rw [numberOf?, if_neg hnil] at h
        cases keyword with
        | uint | int =>
          obtain ⟨n, hn, -⟩ := bind_eq_ok_iff.mp h
          obtain ⟨rfl, hpos, hhigh, hmod⟩ := integerWidth_eq_ok_iff.mp hn
          have hdvd := Nat.dvd_of_mod_eq_zero hmod
          exact ⟨hdvd, Nat.le_of_dvd hpos hdvd, hhigh⟩
        | bytes =>
          dsimp only at h
          split at h
          · cases h
          · split at h
            · cases h
            · exact Or.inr ⟨by omega, by omega⟩
        | bool | string | address | function | tuple => cases h
    let stem : Stem := ⟨keyword, digits, hdigits, htakes⟩
    exact ⟨stem, rfl, Except.ok.inj (stem.resolveBase_text.symm.trans hresolve)⟩

theorem Stem.solid_text (stem : Stem) : Text.Solid stem.text := by
  have hletters : stem.keyword.letters.all (!Text.isBlank ·) = true := by
    cases stem.keyword <;> rfl
  refine Text.solid_of_forall fun c hc ↦ ?_
  rcases List.mem_append.mp hc with hletter | hdigit
  · exact (Bool.not_eq_true' _).mp (List.all_eq_true.mp hletters c hletter)
  · exact Text.isBlank_of_isDigit (stem.isDigit_of_mem c hdigit)

/-! ## Signatures -/

theorem exists_peeled_of_parse {s : String} {t : AbiType} (h : parse s = .ok t) :
    Balanced (Text.trim s.toList) ∧ ∃ peeled b,
      peel (Text.trim s.toList) nestingLimit (Text.trim s.toList) [] = .ok peeled ∧
        resolveBase peeled.base peeled.internal = .ok b := by
  simp only [parse, ofDescriptor] at h
  split at h
  · cases h
  · rename_i hcount
    refine ⟨not_not.mp hcount, ?_⟩
    obtain ⟨peeled, hpeel, h⟩ := bind_eq_ok_iff.mp h
    obtain ⟨b, hb, -⟩ := bind_eq_ok_iff.mp h
    exact ⟨peeled, b, hpeel, hb⟩

theorem parse_of_peel {s : String} {peeled : Peeled} {b : Base}
    (hbalanced : Balanced (Text.trim s.toList))
    (hpeel : peel (Text.trim s.toList) nestingLimit (Text.trim s.toList) [] = .ok peeled)
    (hinternal : peeled.internal = []) (hb : resolveBase peeled.base [] = .ok b) :
    parse s = if b.levels ≤ peeled.room then .ok (peeled.layers.foldr Layer.wrap b.type) else
      .error (.invalidType (.nestedTooDeep nestingLimit (String.ofList peeled.base))) := by
  rw [parse, ofDescriptor]
  dsimp only [Option.getD_some]
  have hempty : "".toList = [] := rfl
  rw [Balanced] at hbalanced
  rw [if_neg (not_not.mpr hbalanced), hempty, hpeel, ok_bind, hinternal, hb, ok_bind]
  rcases b with type | -
  · exact (if_pos (Nat.zero_le _)).symm
  · obtain ⟨base, internal, layers, room⟩ := peeled
    cases room <;> rfl

theorem Stem.foldr_layers (stem : Stem) (groups : List BracketGroup) :
    (groups.map BracketGroup.layer).reverse.foldr Layer.wrap stem.base.type
      = groups.foldl (fun elem g ↦ g.layer.wrap elem) stem.type := by
  rw [List.foldr_reverse, List.foldl_map, stem.type_base]

/-- Every spelling is read as the type it stands for. -/
theorem Spelling.parse_eq_ok (p : Spelling) {s : String} (h : p.text = Text.trim s.toList) :
    parse s = .ok p.type := by
  obtain ⟨room, hroom⟩ := Nat.exists_eq_add_of_le p.levels_le
  have hlimit : nestingLimit = p.stem.levels + room + p.groups.length := by omega
  have hpeel := peel_text (Text.trim s.toList) p.stem.bracketFree_text.1 p.stem.solid_text
    (p.stem.levels + room) p.groups
  rw [← hlimit, ← text, h] at hpeel
  rw [parse_of_peel (h ▸ p.balanced_text) hpeel rfl p.stem.resolveBase_text, p.stem.foldr_layers,
    p.stem.levels_base, if_pos (Nat.le_add_right _ _), type]

/-- Whatever is read is spelled. -/
theorem exists_spelling_of_parse {s : String} {t : AbiType} (h : parse s = .ok t) :
    ∃ p : Spelling, p.text = Text.trim s.toList ∧ p.type = t := by
  obtain ⟨hbalanced, peeled, b, hpeel, hb⟩ := exists_peeled_of_parse h
  obtain ⟨groups, htext, hlayers, hinternal, hroom⟩ := exists_groups_of_peel hpeel
  rw [hinternal] at hb
  obtain ⟨stem, hstem, rfl⟩ := exists_stem_of_resolveBase hb
  rw [parse_of_peel hbalanced hpeel hinternal hb, hlayers, stem.foldr_layers,
    stem.levels_base] at h
  split at h
  · rename_i hle
    have hlevels : groups.length + stem.levels ≤ nestingLimit := by omega
    refine ⟨⟨stem, groups, hlevels⟩, ?_, Except.ok.inj h⟩
    rw [Spelling.text, hstem, htext]
  · cases h

/-- **Grammar of signatures.** Without components, a signature is read exactly if it is a spelling
once the blanks at its ends are dropped. The type is then the one that is spelled, with the leftmost
group as its innermost layer, and the canonical signature is the spelling without blanks and
zeros. -/
theorem parse_eq_ok_iff_spelled :
    (∀ (s : String) (t : AbiType),
      parse s = .ok t ↔ ∃ p : Spelling, p.text = Text.trim s.toList ∧ p.type = t) ∧
    ∀ p : Spelling, p.type.canonical = String.ofList p.plain := by
  refine ⟨fun s t ↦ ⟨exists_spelling_of_parse, ?_⟩, Spelling.canonical_type⟩
  rintro ⟨p, htext, rfl⟩
  exact p.parse_eq_ok htext

example : parse " uint0256 [ 03 ][]" = .ok (.slice (.array (.uint 256) 3)) := by rfl

end AbiType

end ContractAbi
