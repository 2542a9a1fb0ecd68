import Mathlib.Data.Finset.Card
import Mathlib.Data.List.Perm.Subperm
import ContractAbi.Count
import ContractAbi.Name
import ContractAbi.Proofs.Text.Digits

/-!
# Fresh names

A name that is taken is numbered, and the first number that gives a free name is the one used:
`Name.FirstFree` is that rule, and says nothing about how the number is found.

## The search

The numbers are tried in their order, by a counter of 64 bits that is moved on before each try, and
nothing but a free name ends the search: `Name.Search` is its state. That it ends is a matter of
counting. Different numbers give different names, so each try that fails is for a taken name of its
own, and the name itself is one more of these. There are fewer failures than taken names, and the
counter, which is one ahead of them, stays within 64 bits as long as the number of taken names does.
-/

namespace ContractAbi

namespace Name

/-! ## Numbered forms -/

theorem toList_numbered (name : String) (n : Nat) :
    (numbered name n).toList = name.toList ++ AbiType.decimal n := by
  rw [numbered, String.toList_append, Nat.toString_eq_ofList_toDigits, String.toList_ofList,
    AbiType.decimal]

theorem numbered_injective (name : String) : Function.Injective (numbered name) := by
  intro m n h
  have htexts := congrArg String.toList h
  rw [toList_numbered, toList_numbered] at htexts
  exact decimal_injective (List.append_cancel_left htexts)

theorem numbered_ne (name : String) (n : Nat) : numbered name n ≠ name := by
  intro h
  have htexts := congrArg String.toList h
  rw [toList_numbered, List.append_right_eq_self] at htexts
  exact decimal_ne_nil n htexts

theorem numbered_ne_empty (name : String) (n : Nat) : numbered name n ≠ "" := by
  intro h
  have htexts := congrArg String.toList h
  rw [toList_numbered] at htexts
  exact decimal_ne_nil n (List.append_eq_nil_iff.mp htexts).2

/-- Not all numbered forms below the count of the taken names are taken, since the name itself is
one of these. -/
theorem exists_numbered_notMem {name : String} {taken : List String} (h : name ∈ taken) :
    ∃ n < taken.toFinset.card, numbered name n ∉ taken := by
  by_contra hnone
  have hall : ∀ n < taken.toFinset.card, numbered name n ∈ taken :=
    fun n hn ↦ by_contra fun hfree ↦ hnone ⟨n, hn, hfree⟩
  have hnodup : (name :: (List.range taken.toFinset.card).map (numbered name)).Nodup := by
    refine List.nodup_cons.mpr ⟨fun hmem ↦ ?_, ?_⟩
    · obtain ⟨n, -, hn⟩ := List.mem_map.mp hmem
      exact numbered_ne name n hn
    · exact List.Nodup.map (numbered_injective name) List.nodup_range
  have hsubset : name :: (List.range taken.toFinset.card).map (numbered name) ⊆ taken.dedup := by
    refine List.cons_subset.mpr ⟨List.mem_dedup.mpr h, fun c hc ↦ ?_⟩
    obtain ⟨n, hn, rfl⟩ := List.mem_map.mp hc
    exact List.mem_dedup.mpr (hall n (List.mem_range.mp hn))
  have hlength := (List.subperm_of_subset hnodup hsubset).length_le
  rw [List.length_cons, List.length_map, List.length_range, List.card_toFinset] at hlength
  exact Nat.not_succ_le_self _ hlength

/-! ## The first free form -/

/-- The name itself if it is free, and otherwise the first free one of its numbered forms. -/
inductive FirstFree (name : String) (taken : List String) : String → Prop
  | self : name ∉ taken → FirstFree name taken name
  | numbered {n : Nat} : name ∈ taken → numbered name n ∉ taken →
    (∀ m < n, Name.numbered name m ∈ taken) → FirstFree name taken (Name.numbered name n)

variable {name : String} {taken : List String}

theorem FirstFree.notMem {result : String} (h : FirstFree name taken result) :
    result ∉ taken := by
  cases h with
  | self hfree => exact hfree
  | numbered _ hfree _ => exact hfree

theorem FirstFree.eq_empty {result : String} (h : FirstFree name taken result)
    (hempty : result = "") : name = "" ∧ name ∉ taken := by
  cases h with
  | self hfree => exact ⟨hempty, hfree⟩
  | numbered _ _ _ => exact absurd hempty (numbered_ne_empty name _)

/-- Only what is taken matters, not its order. -/
theorem FirstFree.congr {taken' : List String} {result : String} (h : FirstFree name taken result)
    (htaken : ∀ other, other ∈ taken ↔ other ∈ taken') : FirstFree name taken' result := by
  cases h with
  | self hfree => exact .self (mt (htaken name).mpr hfree)
  | numbered hname hfree hbefore =>
    exact .numbered ((htaken name).mp hname) (mt (htaken _).mpr hfree)
      fun m hm ↦ (htaken _).mp (hbefore m hm)

/-- The number is below the count of the taken names. -/
theorem lt_card_of_first {n : Nat} (h : name ∈ taken)
    (hbefore : ∀ m < n, numbered name m ∈ taken) : n < taken.toFinset.card := by
  obtain ⟨k, hk, hfree⟩ := exists_numbered_notMem h
  by_contra hn
  exact hfree (hbefore k (by omega))

theorem find?_range_eq_some_iff {n : Nat} :
    (List.range taken.length).find? (numbered name · ∉ taken) = some n ↔
      n < taken.length ∧ numbered name n ∉ taken ∧ ∀ m < n, numbered name m ∈ taken := by
  rw [List.find?_range_eq_some]
  simp only [List.mem_range, decide_eq_true_eq, Bool.not_eq_true', decide_eq_false_iff_not, not_not]
  exact and_left_comm

theorem firstFree_fresh (name : String) (taken : List String) :
    FirstFree name taken (fresh name taken) := by
  rw [fresh]
  split
  · rename_i hname
    split
    · rename_i n hn
      obtain ⟨-, hfree, hbefore⟩ := find?_range_eq_some_iff.mp hn
      exact .numbered hname hfree hbefore
    · rename_i hnone
      obtain ⟨n, hn, hfree⟩ := exists_numbered_notMem hname
      have hlt : n < taken.length := Nat.lt_of_lt_of_le hn taken.toFinset_card_le
      have htaken := List.find?_eq_none.mp hnone n (List.mem_range.mpr hlt)
      exact absurd (decide_eq_true hfree) htaken
  · rename_i hname
    exact .self hname

theorem fresh_notMem (name : String) (taken : List String) : fresh name taken ∉ taken :=
  (firstFree_fresh name taken).notMem

/-! ## The search -/

/-- Where the search for a free form stands. -/
inductive Search where
  /-- The form with this number is tried next. -/
  | counting (n : Nat)
  | found (result : String)
  /-- The counter could not be moved on. -/
  | exhausted
deriving DecidableEq, Repr

namespace Search

/-- The counter is moved on before the form is tried. -/
def step (name : String) (taken : List String) : Search → Search
  | counting n =>
    match Count.add? n 1 with
    | none => exhausted
    | some next =>
      if numbered name n ∈ taken then counting next else found (numbered name n)
  | ended => ended

def start (name : String) (taken : List String) : Search :=
  if name ∈ taken then counting 0 else found name

/-- The search after some steps. -/
def after (steps : Nat) (name : String) (taken : List String) : Search :=
  (step name taken)^[steps] (start name taken)

theorem after_succ (steps : Nat) :
    after (steps + 1) name taken = step name taken (after steps name taken) :=
  Function.iterate_succ_apply' _ _ _

theorem step_counting {n : Nat} (hn : n < Count.limit) :
    step name taken (counting n)
      = if numbered name n ∈ taken then counting (n + 1) else found (numbered name n) := by
  rw [step, Count.add?_eq_some_iff.mpr ⟨hn, rfl⟩]

/-- While the forms are taken the counter is the number of steps. -/
theorem after_eq_counting (hname : name ∈ taken) {steps : Nat} (hsteps : steps ≤ Count.limit)
    (hbefore : ∀ m < steps, numbered name m ∈ taken) :
    after steps name taken = counting steps := by
  induction steps with
  | zero => exact if_pos hname
  | succ steps ih =>
    have hprevious := ih (by omega) fun m hm ↦ hbefore m (by omega)
    rw [after_succ, hprevious, step_counting hsteps, if_pos (hbefore steps (Nat.lt_succ_self _))]

/-- What was found stays. -/
theorem after_eq_found {result : String} {steps : Nat} (h : after steps name taken = found result)
    {more : Nat} (hmore : steps ≤ more) : after more name taken = found result := by
  induction more, hmore using Nat.le_induction with
  | base => exact h
  | succ more _ ih =>
    rw [after_succ, ih]
    rfl

/-- The search ends with the first free form, after no more steps than there are taken names, and
before it ends the counter is the number of steps. -/
theorem after_of_firstFree (hcard : taken.toFinset.card ≤ Count.limit) {result : String}
    (h : FirstFree name taken result) :
    ∃ last ≤ taken.toFinset.card, (∀ steps < last, after steps name taken = counting steps) ∧
      ∀ steps, last ≤ steps → after steps name taken = found result := by
  cases h with
  | self hfree =>
    have hstart : after 0 name taken = found name := if_neg hfree
    exact ⟨0, Nat.zero_le _, fun _ hlt ↦ absurd hlt (Nat.not_lt_zero _),
      fun _ hle ↦ after_eq_found hstart hle⟩
  | @numbered n hname hfree hbefore =>
    have hn := lt_card_of_first hname hbefore
    have hcounting {steps : Nat} (hle : steps ≤ n) : after steps name taken = counting steps :=
      after_eq_counting hname (by omega) fun m hm ↦ hbefore m (by omega)
    have hfound : after (n + 1) name taken = found (numbered name n) := by
      rw [after_succ, hcounting (Nat.le_refl n), step_counting (by omega), if_neg hfree]
    exact ⟨n + 1, hn, fun _ hlt ↦ hcounting (Nat.le_of_lt_succ hlt),
      fun _ hle ↦ after_eq_found hfound hle⟩

end Search

/-- **The search for a fresh name ends with the first free form.** It makes no more steps than there
are taken names, so the counter is never exhausted, and the number it ends at is below their count.
The result is free, and it is empty only where the name itself is empty and free. -/
theorem search_ends_fresh (name : String) (taken : List String)
    (hcard : taken.toFinset.card ≤ Count.limit) :
    (∃ last ≤ taken.toFinset.card,
      (∀ steps < last, Search.after steps name taken = .counting steps) ∧
        ∀ steps, last ≤ steps → Search.after steps name taken = .found (fresh name taken)) ∧
    (name ∉ taken → fresh name taken = name) ∧
    (name ∈ taken → ∃ n < taken.toFinset.card, fresh name taken = numbered name n ∧
      numbered name n ∉ taken ∧ ∀ m < n, numbered name m ∈ taken) ∧
    fresh name taken ∉ taken ∧
    (fresh name taken = "" → name = "" ∧ name ∉ taken) := by
  have hfirst := firstFree_fresh name taken
  refine ⟨Search.after_of_firstFree hcard hfirst, fun hname ↦ if_neg hname, fun hname ↦ ?_,
    hfirst.notMem, hfirst.eq_empty⟩
  generalize fresh name taken = result at hfirst
  cases hfirst with
  | self hfree => exact absurd hname hfree
  | numbered _ hfree hbefore => exact ⟨_, lt_card_of_first hname hbefore, rfl, hfree, hbefore⟩

/-- Two numbered forms in a row are taken, and one that the search does not come to. -/
theorem search_ends_fresh_between :
    let taken := ["send", "send0", "send3", "send1", "send0"]
    taken.toFinset.card ≤ Count.limit ∧ fresh "send" taken = "send2" ∧
      ∃ last ≤ 4, ∀ steps, last ≤ steps → Search.after steps "send" taken = .found "send2" := by
  intro taken
  have hcard : taken.toFinset.card = 4 := by decide
  have hlimit : taken.toFinset.card ≤ Count.limit := by rw [hcard]; decide
  have hfresh : fresh "send" taken = "send2" := by decide +kernel
  obtain ⟨⟨last, hlast, -, hfound⟩, -⟩ := search_ends_fresh "send" taken hlimit
  rw [hfresh] at hfound
  exact ⟨hlimit, hfresh, last, hcard ▸ hlast, hfound⟩

end Name

end ContractAbi
