import Mathlib.Logic.Function.Basic
import ContractAbi.AbiType.Basic

/-!
# Lists between parentheses

The signature of a tuple lists those of its fields between parentheses, with a comma between two
of them, and so do the signatures of events and errors. The texts of such a list may hold lists
themselves. They are found again by counting parentheses, since each of them closes what it opens:
it is `Enclosed`, and stays so when it is put into a list.
-/

namespace ContractAbi

/-! ## Splitting -/

/-- How many parentheses are open behind a character, `depth` being open before it. -/
def depthBehind (depth : Nat) (c : Char) : Nat :=
  if c = '(' then depth + 1 else if c = ')' then depth - 1 else depth

/-- The text in front of the first of some texts. -/
def prepend (s : List Char) (ss : List (List Char)) : List (List Char) :=
  ss.modifyHead (s ++ ·)

/-- The texts between the commas that stand outside parentheses, `depth` being open already. -/
def splitCommas (depth : Nat) : List Char → List (List Char)
  | [] => [[]]
  | c :: rest =>
    if c = ',' ∧ depth = 0 then [] :: splitCommas 0 rest
    else prepend [c] (splitCommas (depthBehind depth c) rest)

/-- Nothing is split inside the text, and behind it as many parentheses are open as before. -/
def Enclosed (s : List Char) : Prop :=
  ∀ depth rest, splitCommas depth (s ++ rest) = prepend s (splitCommas depth rest)

theorem prepend_nil (ss : List (List Char)) : prepend [] ss = ss :=
  congrFun List.modifyHead_id ss

theorem prepend_append (s u : List Char) (ss : List (List Char)) :
    prepend (s ++ u) ss = prepend s (prepend u ss) := by
  simp only [prepend, List.modifyHead_modifyHead, Function.comp_def, List.append_assoc]

theorem splitCommas_cons {depth : Nat} {c : Char} (h : ¬(c = ',' ∧ depth = 0)) (rest : List Char) :
    splitCommas depth (c :: rest) = prepend [c] (splitCommas (depthBehind depth c) rest) := by
  rw [splitCommas, if_neg h]

theorem splitCommas_comma (rest : List Char) :
    splitCommas 0 (',' :: rest) = [] :: splitCommas 0 rest := by
  rw [splitCommas, if_pos ⟨rfl, rfl⟩]

theorem enclosed_nil : Enclosed [] := fun _ _ ↦ (prepend_nil _).symm

theorem Enclosed.append {s u : List Char} (hs : Enclosed s) (hu : Enclosed u) :
    Enclosed (s ++ u) := by
  intro depth rest
  rw [List.append_assoc, hs, hu, prepend_append]

theorem enclosed_of_forall_ne {s : List Char} (h : ∀ c ∈ s, c ≠ ',' ∧ c ≠ '(' ∧ c ≠ ')') :
    Enclosed s := by
  induction s with
  | nil => exact enclosed_nil
  | cons c s ih =>
    obtain ⟨⟨hcomma, hopen, hclose⟩, hs⟩ := List.forall_mem_cons.mp h
    intro depth rest
    rw [List.cons_append, splitCommas_cons fun hc ↦ hcomma hc.1, depthBehind, if_neg hopen,
      if_neg hclose, ih hs, ← prepend_append, List.singleton_append]

/-- Inside parentheses nothing is split. -/
theorem splitCommas_inside {ss : List (List Char)} (h : ∀ s ∈ ss, Enclosed s) (depth : Nat)
    (rest : List Char) :
    splitCommas (depth + 1) ([','].intercalate ss ++ rest)
      = prepend ([','].intercalate ss) (splitCommas (depth + 1) rest) := by
  induction ss with
  | nil => exact (prepend_nil _).symm
  | cons s ss ih =>
    obtain ⟨hs, hss⟩ := List.forall_mem_cons.mp h
    cases ss with
    | nil => rw [List.intercalate_singleton, hs]
    | cons u us =>
      -- The comma stands at a depth of one at least, so it is passed over.
      have hcomma : depthBehind (depth + 1) ',' = depth + 1 := rfl
      rw [List.intercalate_cons_cons, List.append_assoc, List.append_assoc, hs,
        List.singleton_append, splitCommas_cons fun hc ↦ Nat.succ_ne_zero depth hc.2, hcomma,
        ih hss, ← prepend_append, ← prepend_append]

theorem enclosed_tupleSignature {ss : List (List Char)} (h : ∀ s ∈ ss, Enclosed s) :
    Enclosed (AbiType.tupleSignature ss) := by
  intro depth rest
  have hopen : depthBehind depth '(' = depth + 1 := rfl
  have hclose : depthBehind (depth + 1) ')' = depth := rfl
  calc splitCommas depth (AbiType.tupleSignature ss ++ rest)
      = splitCommas depth ('(' :: ([','].intercalate ss ++ ')' :: rest)) := by
        rw [AbiType.tupleSignature, List.cons_append, List.cons_append, List.append_assoc,
          List.singleton_append]
    _ = prepend ['('] (splitCommas (depth + 1) ([','].intercalate ss ++ ')' :: rest)) := by
        rw [splitCommas_cons (by simp), hopen]
    _ = prepend ['('] (prepend ([','].intercalate ss)
          (prepend [')'] (splitCommas depth rest))) := by
        rw [splitCommas_inside h, splitCommas_cons (by simp), hclose]
    _ = prepend (AbiType.tupleSignature ss) (splitCommas depth rest) := by
        rw [← prepend_append, ← prepend_append, AbiType.tupleSignature]
        rfl

theorem splitCommas_intercalate {ss : List (List Char)} (h : ∀ s ∈ ss, Enclosed s)
    (hne : ss ≠ []) : splitCommas 0 ([','].intercalate ss) = ss := by
  induction ss with
  | nil => exact absurd rfl hne
  | cons s ss ih =>
    obtain ⟨hs, hss⟩ := List.forall_mem_cons.mp h
    cases ss with
    | nil =>
      have hend := hs 0 []
      rw [List.append_nil, splitCommas, prepend, List.modifyHead_cons, List.append_nil] at hend
      rw [List.intercalate_singleton, hend]
    | cons u us =>
      rw [List.intercalate_cons_cons, List.append_assoc, hs, List.singleton_append,
        splitCommas_comma, ih hss (List.cons_ne_nil u us), prepend, List.modifyHead_cons,
        List.append_nil]

/-- The texts of a list, which may be empty. -/
def splitList (inside : List Char) : List (List Char) :=
  if inside = [] then [] else splitCommas 0 inside

theorem splitList_intercalate {ss : List (List Char)} (h : ∀ s ∈ ss, Enclosed s ∧ s ≠ []) :
    splitList ([','].intercalate ss) = ss := by
  rcases ss with - | ⟨s, ss⟩
  · rfl
  · have hfirst : s ≠ [] := (h s List.mem_cons_self).2
    have hne : [','].intercalate (s :: ss) ≠ [] := by
      rcases ss with - | ⟨u, us⟩
      · rwa [List.intercalate_singleton]
      · rw [List.intercalate_cons_cons, List.append_assoc]
        exact List.append_ne_nil_of_left_ne_nil hfirst _
    rw [splitList, if_neg hne]
    exact splitCommas_intercalate (fun s hs ↦ (h s hs).1) (List.cons_ne_nil s ss)

/-- What stands between the parentheses tells the list. Nothing stands there for the empty list
alone, as no text of a list is empty. -/
theorem tupleSignature_inj {ss us : List (List Char)} (hss : ∀ s ∈ ss, Enclosed s ∧ s ≠ [])
    (hus : ∀ u ∈ us, Enclosed u ∧ u ≠ [])
    (h : AbiType.tupleSignature ss = AbiType.tupleSignature us) : ss = us := by
  have hinside : [','].intercalate ss = [','].intercalate us := by
    rw [AbiType.tupleSignature, AbiType.tupleSignature] at h
    exact List.append_cancel_right (List.cons.inj h).2
  rw [← splitList_intercalate hss, ← splitList_intercalate hus, hinside]

end ContractAbi
