import ContractAbi.Proofs.Json.Members
import ContractAbi.Proofs.Json.Places

/-!
# Texts of argument lists

Descriptors have lists of descriptors as their components, so the texts of both are stated together,
by how many brackets may be open inside each other. A reader with that much room reads all of them
back, by an induction on the room.

An argument is made from its descriptor as soon as that was read, and nothing is kept of how it was
written. So any text of a list of descriptors gives what the descriptors give themselves: the
arguments, or the error of the first one that has no type.
-/

namespace ContractAbi.Json

/-! ## Grammar -/

/-- The texts of a descriptor, `list` being those of its list of components. -/
inductive DescriptorText (list : List Descriptor → List Char → Prop) (d : Descriptor) :
    List Char → Prop
  | object {xs : List Member} {s : List Char} : Describes xs d →
      Items (Member.Text list) true xs s → DescriptorText list d ('\x7b' :: (s ++ ['\x7d']))
  | positional {xs : List Member} {s : List Char} : xs <+: membersOf d →
      (∀ x ∈ membersOf d, x ∉ xs → x.IsDefault) → Items (Member.ValueText list) true xs s →
      DescriptorText list d ('[' :: (s ++ [']']))

mutual

/-- The texts of a descriptor that open at most `room` brackets inside each other. -/
def DescriptorTextWithin : (room : Nat) → Descriptor → List Char → Prop
  | 0 => fun _ _ ↦ False
  | room + 1 => DescriptorText (ListTextWithin room)

/-- The texts of a list of descriptors that open at most `room` brackets inside each other. -/
def ListTextWithin : (room : Nat) → List Descriptor → List Char → Prop
  | 0 => fun _ _ ↦ False
  | room + 1 => ArrayText (DescriptorTextWithin room)

end

/-- The texts of a list of descriptors, with blanks around them. Brackets that are only passed over
do not count towards the 127 that may be open inside each other. -/
def Renders (text : List Char) (ds : List Descriptor) : Prop :=
  ∃ front s back, Blanks front ∧ Blanks back ∧ ListTextWithin 127 ds s ∧
    text = front ++ (s ++ back)

/-! ## Reading descriptors -/

/-- What an array begins with has the members that are not at their default. -/
theorem exists_tail_of_prefix {xs : List Member} {d : Descriptor} (h : xs <+: membersOf d)
    (hcomplete : ∀ x ∈ membersOf d, x ∉ xs → x.IsDefault) :
    ∃ (tail : List Member) (internalType : Option (Option String)) (ds : Option (List Descriptor))
      (flag : Option Bool), xs = .name d.name :: .type d.type :: tail ∧
      tail.head? = internalType.map .internalType ∧ tail.tail.head? = ds.map .components ∧
      tail.tail.tail.head? = flag.map .indexed ∧ tail.tail.tail.tail = [] ∧
      internalType.getD none = d.internalType ∧ ds.getD [] = d.components ∧
      flag.getD false = d.indexed := by
  have htype : .type d.type ∈ xs :=
    not_not.mp (hcomplete (.type d.type) (by simp [membersOf]))
  have hinternal : .internalType d.internalType ∉ xs → none = d.internalType :=
    fun hn ↦ (hcomplete (.internalType d.internalType) (by simp [membersOf]) hn).symm
  have hcomponents : .components d.components ∉ xs → [] = d.components :=
    fun hn ↦ (hcomplete (.components d.components) (by simp [membersOf]) hn).symm
  have hindexed : .indexed d.indexed ∉ xs → false = d.indexed :=
    fun hn ↦ (hcomplete (.indexed d.indexed) (by simp [membersOf]) hn).symm
  -- the array may end behind each of its members, but not before the type
  obtain rfl | ⟨xs, rfl, h₁⟩ := List.prefix_cons_iff.mp h
  · simp at htype
  obtain rfl | ⟨xs, rfl, h₂⟩ := List.prefix_cons_iff.mp h₁
  · simp at htype
  refine ⟨xs, ?_⟩
  obtain rfl | ⟨xs, rfl, h₃⟩ := List.prefix_cons_iff.mp h₂
  · exact ⟨none, none, none, rfl, rfl, rfl, rfl, rfl, hinternal (by simp), hcomponents (by simp),
      hindexed (by simp)⟩
  obtain rfl | ⟨xs, rfl, h₄⟩ := List.prefix_cons_iff.mp h₃
  · exact ⟨some d.internalType, none, none, rfl, rfl, rfl, rfl, rfl, rfl, hcomponents (by simp),
      hindexed (by simp)⟩
  obtain rfl | ⟨xs, rfl, h₅⟩ := List.prefix_cons_iff.mp h₄
  · exact ⟨some d.internalType, some d.components, none, rfl, rfl, rfl, rfl, rfl, rfl, rfl,
      hindexed (by simp)⟩
  obtain rfl := List.prefix_nil.mp h₅
  exact ⟨some d.internalType, some d.components, some d.indexed, rfl, rfl, rfl, rfl, rfl, rfl, rfl,
    rfl⟩

section Reading

variable {list : List Descriptor → List Char → Prop} {components : Reader (List Descriptor)}

theorem reads_descriptorWith (hlist : Reads components list .ok) :
    Reads (descriptorWith (some components)) (DescriptorText list) .ok := by
  refine reads_ofHead ?_
  intro d s h
  cases h with
  | @object xs s hd hitems =>
    refine ⟨'\x7b', s ++ ['\x7d'], rfl, by decide, fun rest _ ↦ ?_⟩
    rw [List.append_assoc, List.singleton_append, descriptorFrom, if_pos (Or.inr rfl)]
    simp only [show '\x7b' ≠ '[' from by decide, if_false, object_of_items hlist hd hitems]
    rfl
  | @positional xs s hprefix hcomplete hitems =>
    obtain ⟨tail, internalType, ds, flag, rfl, hinternal, hds, hflag, hend, hi, hc, hx⟩ :=
      exists_tail_of_prefix hprefix hcomplete
    refine ⟨'[', s ++ [']'], rfl, by decide, fun rest _ ↦ ?_⟩
    rw [List.append_assoc, List.singleton_append, descriptorFrom, if_pos (Or.inl rfl)]
    simp only [if_true, positional_of_items hlist hitems hinternal hds hflag hend, hi, hc, hx]
    cases d
    rfl

/-- **Descriptors are read from each of their texts** that the room is enough for. -/
theorem reads_within (room : Nat) :
    Reads (descriptor room) (DescriptorTextWithin room) .ok ∧
      Reads (descriptors room) (ListTextWithin room) .ok := by
  have hlist {p : Descriptor → List Char → Prop} {read : Reader Descriptor}
      (h : Reads read p .ok) : Reads (array (some read)) (ArrayText p) .ok := by
    have hok (ds : List Descriptor) :
        ds.mapM (Except.ok : Descriptor → Except Fault Descriptor) = .ok ds :=
      List.mapM_pure (l := ds) (f := id) |>.trans (congrArg _ (List.map_id ds))
    exact funext hok ▸ reads_array h
  induction room with
  | zero => exact ⟨⟨nofun, nofun⟩, nofun, nofun⟩
  | succ room ih =>
    rw [descriptor, descriptors]
    exact ⟨reads_descriptorWith ih.2, hlist ih.1⟩

end Reading

/-! ## Two texts -/

/-- A tuple as an object, with a member that nobody reads and an escape, and its component and
another descriptor as arrays. -/
theorem renders_mixed :
    Renders ("[\x7b\"x\":[null,-1.5],\"components\":[[\"a\",\"uint8\"]]," ++
        "\"type\":\"tup\\u006Ce\"\x7d,\n[\"to\",\"address\",null]]").toList
      [⟨"", "tuple", none, [⟨"a", "uint8", none, [], false⟩], false⟩,
        ⟨"to", "address", none, [], false⟩] := by
  have hnil : Blanks [] := List.forall_mem_nil _
  have hcomma : Lead false [','] := ⟨[], [], hnil, hnil, rfl⟩
  have hnewline : Lead false [',', '\n'] := ⟨[], ['\n'], hnil, by simp [Blanks], rfl⟩
  have hkey (key : String) (h : key.toList.all isPlain = true) :
      ContentText key.toList key.toList := contentText_of_plain h
  have htext (text : String) (h : text.toList.all isPlain = true) :
      StringText text ('"' :: (text.toList ++ ['"'])) := ⟨_, hkey text h, rfl⟩
  have hescaped : ContentText "tuple".toList
      (['t'] ++ (['u'] ++ (['p'] ++ (['\\', 'u', '0', '0', '6', 'C'] ++ (['e'] ++ []))))) := by
    have hletter : CharText 'l' ['\\', 'u', '0', '0', '6', 'C'] :=
      .codePoint (.mk (i := 0) (j := 0) (k := 6) (l := 12) ⟨by decide, Or.inl rfl⟩
        ⟨by decide, Or.inl rfl⟩ ⟨by decide, Or.inl rfl⟩ ⟨by decide, Or.inr rfl⟩)
    exact .cons (.plain (by decide)) (.cons (.plain (by decide)) (.cons (.plain (by decide))
      (.cons hletter (.cons (.plain (by decide)) .nil))))
  have hnumber : NumeralText (['1'] ++ (['.', '5'] ++ [])) :=
    .mk (by simp [Digits]) (by simp) (Or.inr ⟨['5'], by simp [Digits], rfl⟩) (Or.inl rfl)
  have hskipped : ValueText 1 _ := Or.inr ⟨.square, [(), ()], _,
    .cons (b := []) hnil (.word List.mem_cons_self) (.cons hcomma (.negative hnumber) (.nil hnil)),
    rfl⟩
  have hshort : [.name "a", .type "uint8"] <+: membersOf ⟨"a", "uint8", none, [], false⟩ := ⟨_, rfl⟩
  have hcomponent : DescriptorTextWithin 124 ⟨"a", "uint8", none, [], false⟩ _ :=
    .positional hshort (by simp [membersOf, Member.IsDefault])
      (.cons (b := []) hnil (htext "a" (by decide))
        (.cons hcomma (htext "uint8" (by decide)) (.nil hnil)))
  have hcomponents : ListTextWithin 125 [⟨"a", "uint8", none, [], false⟩] _ :=
    ⟨_, .cons (b := []) hnil hcomponent (.nil hnil), rfl⟩
  have hdescribes : Describes [.other "x", .components [⟨"a", "uint8", none, [], false⟩],
      .type "tuple"] ⟨"", "tuple", none, [⟨"a", "uint8", none, [], false⟩], false⟩ := by
    refine ⟨by rw [KnownOnce]; decide, ?_, ?_⟩
    · simp [membersOf, Member.known]
    · simp [membersOf, Member.IsDefault]
  have htuple : DescriptorTextWithin 126
      ⟨"", "tuple", none, [⟨"a", "uint8", none, [], false⟩], false⟩ _ :=
    .object hdescribes
      (.cons (b := []) hnil (.mk (hkey "x" (by decide)) hnil hnil ⟨by decide, 1, hskipped⟩)
        (.cons hcomma (.mk (hkey "components" (by decide)) hnil hnil hcomponents)
          (.cons hcomma (.mk (hkey "type" (by decide)) hnil hnil ⟨_, hescaped, rfl⟩) (.nil hnil))))
  have hlong : [.name "to", .type "address", .internalType none]
      <+: membersOf ⟨"to", "address", none, [], false⟩ := ⟨_, rfl⟩
  have hnull : NullableText none "null".toList := rfl
  have haddress : DescriptorTextWithin 126 ⟨"to", "address", none, [], false⟩ _ :=
    .positional hlong (by simp [membersOf, Member.IsDefault])
      (.cons (b := []) hnil (htext "to" (by decide))
        (.cons hcomma (htext "address" (by decide)) (.cons hcomma hnull (.nil hnil))))
  exact ⟨[], _, [], hnil, hnil, ⟨_, .cons (b := []) hnil htuple
    (.cons hnewline haddress (.nil hnil)), rfl⟩, by decide +kernel⟩

/-- A descriptor whose type ends like a place, and a text of it. -/
theorem renders_placed : Renders "[\x7b\"type\":\"[ at line 0 column 2\"\x7d]".toList
    [⟨"", "[ at line 0 column 2", none, [], false⟩] := by
  have hkey : ContentText "type".toList "type".toList := contentText_of_plain (by decide)
  have hvalue : ContentText "[ at line 0 column 2".toList "[ at line 0 column 2".toList :=
    contentText_of_plain (by decide)
  have hnil : Blanks [] := List.forall_mem_nil _
  have hdescribes : Describes [.type "[ at line 0 column 2"]
      ⟨"", "[ at line 0 column 2", none, [], false⟩ := by
    refine ⟨by rw [KnownOnce]; decide, ?_, ?_⟩
    · simp [membersOf]
    · simp [membersOf, Member.IsDefault]
  exact ⟨[], _, [], hnil, hnil, ⟨_, .cons (b := []) hnil
    (.object hdescribes (.cons (b := []) hnil (.mk hkey hnil hnil ⟨_, hvalue, rfl⟩) (.nil hnil)))
    (.nil hnil), rfl⟩, by decide⟩

/-! ## Reading argument lists -/

theorem reads_argument (room : Nat) :
    Reads (argument room) (DescriptorTextWithin room) fun d ↦ d.toArgument.mapError .rejected := by
  have hargument : argument room
      = (descriptor room).check fun d ↦ d.toArgument.mapError .rejected := by
    rw [argument]
    congr 1
    funext d
    cases d.toArgument <;> rfl
  rw [hargument]
  exact (reads_within room).1.check _

/-- The text of a list of descriptors gives what the list gives. -/
theorem ofJson_eq_of_renders {text : String} {ds : List Descriptor}
    (h : Renders text.toList ds) :
    Arguments.ofJson text = (ds.mapM Descriptor.toArgument).mapError .rejected := by
  obtain ⟨front, s, back, hfront, hback, hs, htext⟩ := h
  have hdelimited : Delimited back := by
    have hend := hback.delimited (s := []) nofun
    rwa [List.append_nil] at hend
  have hrun := (reads_array (reads_argument 126)).run hs hfront hdelimited
  have hblanks : skipBlanks back = [] := by
    rw [← List.append_nil back, skipBlanks_append hback]
    rfl
  rw [Arguments.ofJson, arguments, htext]
  simp only [bracketLimit, Nat.add_one_sub_one, hrun, mapError_mapM]
  cases ds.mapM Descriptor.toArgument with
  | error e => rfl
  | ok args => exact if_pos hblanks

/-- **Argument lists in JSON.** Any text of a list of descriptors is read exactly if each of them is
an argument, and as these arguments in their order. Otherwise it is refused as data of the wrong
shape, with the error of the first that is none, in a message that keeps the text of this error up
to a place that it may end with. -/
theorem ofJson_of_renders {text : String} {ds : List Descriptor} (h : Renders text.toList ds) :
    ((∃ args, Arguments.ofJson text = .ok args) ↔ ∀ d ∈ ds, ∃ a, d.toArgument = .ok a) ∧
    (∀ args, Arguments.ofJson text = .ok args →
      List.Forall₂ (fun d a ↦ d.toArgument = .ok a) ds args) ∧
    ∀ fault, Arguments.ofJson text = .error fault →
      ∃ before d after e kept, ds = before ++ d :: after ∧
        (∀ b ∈ before, ∃ a, b.toArgument = .ok a) ∧ d.toArgument = .error e ∧
        fault.category = .data ∧ WithoutPlace e.message kept ∧
        fault.message? = some ("abi json error: " ++ kept) := by
  have hok (args : Arguments) :
      Arguments.ofJson text = .ok args ↔ ds.mapM Descriptor.toArgument = .ok args := by
    rw [ofJson_eq_of_renders h]
    cases ds.mapM Descriptor.toArgument with
    | error e => exact iff_of_false nofun nofun
    | ok args' => simp only [Except.mapError, Except.ok.injEq]
  refine ⟨?_, fun args hargs ↦ mapM_eq_ok_iff.mp ((hok args).mp hargs), ?_⟩
  · simp only [hok]
    exact exists_mapM_eq_ok_iff
  · intro fault hfault
    rw [ofJson_eq_of_renders h] at hfault
    cases hds : ds.mapM Descriptor.toArgument with
    | ok args =>
      rw [hds] at hfault
      cases hfault
    | error e =>
      rw [hds] at hfault
      obtain rfl : .rejected e = fault := Except.error.inj hfault
      obtain ⟨before, d, after, hsplit, hbefore, hd⟩ := exists_of_mapM_eq_error hds
      exact ⟨before, d, after, e, _, hsplit, hbefore, hd, rfl,
        withoutPlace_withoutPlace e.message, rfl⟩

/-- The two descriptors of one text are arguments; that of the other one is not, and the message
stops before the place. -/
theorem ofJson_of_renders_mixed :
    Arguments.ofJson ("[\x7b\"x\":[null,-1.5],\"components\":[[\"a\",\"uint8\"]]," ++
        "\"type\":\"tup\\u006Ce\"\x7d,\n[\"to\",\"address\",null]]")
      = .ok [⟨"", .tuple "" [⟨"a", "A", .uint 8⟩], false⟩, ⟨"to", .address, false⟩] ∧
    ∃ fault kept, Arguments.ofJson "[\x7b\"type\":\"[ at line 0 column 2\"\x7d]" = .error fault ∧
      fault.category = .data ∧
      WithoutPlace "invalid type: unbalanced brackets in [ at line 0 column 2" kept ∧
      fault.message? = some ("abi json error: " ++ kept) := by
  have htuple : Descriptor.toArgument ⟨"", "tuple", none, [⟨"a", "uint8", none, [], false⟩], false⟩
      = .ok ⟨"", .tuple "" [⟨"a", "A", .uint 8⟩], false⟩ := by decide +kernel
  have haddress : Descriptor.toArgument ⟨"to", "address", none, [], false⟩
      = .ok ⟨"to", .address, false⟩ := by decide +kernel
  have hplaced : Descriptor.toArgument ⟨"", "[ at line 0 column 2", none, [], false⟩
      = .error (.invalidType (.unbalancedBrackets "[ at line 0 column 2")) := by decide +kernel
  constructor
  · obtain ⟨hok, hargs, -⟩ := ofJson_of_renders renders_mixed
    obtain ⟨args, hread⟩ := hok.mpr
      (List.forall_mem_cons.mpr ⟨⟨_, htuple⟩, List.forall_mem_singleton.mpr ⟨_, haddress⟩⟩)
    obtain ⟨a, _, ha, hrest, rfl⟩ := List.forall₂_cons_left_iff.mp (hargs args hread)
    obtain ⟨b, _, hb, hnil, rfl⟩ := List.forall₂_cons_left_iff.mp hrest
    obtain rfl := List.forall₂_nil_left_iff.mp hnil
    obtain rfl := Except.ok.inj (htuple.symm.trans ha)
    obtain rfl := Except.ok.inj (haddress.symm.trans hb)
    exact hread
  · obtain ⟨hok, -, herror⟩ := ofJson_of_renders renders_placed
    cases hread : Arguments.ofJson "[\x7b\"type\":\"[ at line 0 column 2\"\x7d]" with
    | ok args =>
      obtain ⟨a, ha⟩ := hok.mp ⟨args, hread⟩ _ List.mem_cons_self
      cases hplaced.symm.trans ha
    | error fault =>
      obtain ⟨before, d, after, e, kept, hsplit, -, hd, hcategory, hkept, hmessage⟩ :=
        herror fault hread
      have hmem : d ∈ before ++ d :: after := List.mem_append_right before List.mem_cons_self
      rw [← hsplit, List.mem_singleton] at hmem
      rw [hmem, hplaced] at hd
      obtain rfl := Except.error.inj hd
      exact ⟨fault, kept, rfl, hcategory, hkept, hmessage⟩

/-- The text of the error ends like a place, and the message leaves that out. -/
theorem ofJson_message_ne_of_placed :
    let d : Descriptor := ⟨"", "[ at line 0 column 2", none, [], false⟩
    let text := "[\x7b\"type\":\"[ at line 0 column 2\"\x7d]"
    Renders text.toList [d] ∧ ∃ e fault, d.toArgument = .error e ∧
      Arguments.ofJson text = .error fault ∧
      e.message = "invalid type: unbalanced brackets in [ at line 0 column 2" ∧
      fault.message? = some "abi json error: invalid type: unbalanced brackets in [" ∧
      fault.message? ≠ some ("abi json error: " ++ e.message) := by
  intro d text
  have herror : d.toArgument
      = .error (.invalidType (.unbalancedBrackets "[ at line 0 column 2")) := by decide +kernel
  have hread : Arguments.ofJson text = .error (.rejected
      (.invalidType (.unbalancedBrackets "[ at line 0 column 2"))) := by
    rw [ofJson_eq_of_renders renders_placed, List.mapM_cons, herror]
    rfl
  exact ⟨renders_placed, _, _, herror, hread, by decide +kernel, by decide +kernel,
    by decide +kernel⟩

end ContractAbi.Json
