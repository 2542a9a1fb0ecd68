import Mathlib.Data.List.Nodup
import ContractAbi.Proofs.Results
import ContractAbi.Session

/-!
# Values by name

What is unpacked can be kept by name in two ways: in a map that many payloads are unpacked into, one
after the other, and as a tuple that the values are bound to. The two do not agree where several
arguments have one name. A map is set argument by argument, so it holds the value of the last one,
and a tuple is searched from the front, so it shows that of the first.

The map is changed in place, and is there behind a call that failed as well. It is described by what
each call sets, `Session.Call.sets?`. A call that fails sets nothing: only its first step can fail,
which has no hand on the map, and the insertions behind that cannot. Behind a run of calls an entry
is that of the last call that set it, or the one from before the run.
-/

namespace ContractAbi

/-! ## Calls that change something in place -/

section Calls

variable {ε σ α β : Type}

/-- The call has a result wherever it starts. -/
def NeverFails (call : EStateM ε σ α) : Prop := ∀ s, ∃ a s', call.run s = .ok a s'

/-- A call that fails has changed nothing. -/
def AllOrNothing (call : EStateM ε σ α) : Prop := ∀ s e s', call.run s = .error e s' → s' = s

theorem neverFails_pure (a : α) : NeverFails (pure a : EStateM ε σ α) := fun s ↦ ⟨a, s, rfl⟩

theorem neverFails_get : NeverFails (get : EStateM ε σ σ) := fun s ↦ ⟨s, s, rfl⟩

/-- A change and the answer to it. -/
theorem neverFails_modify_pure (f : σ → σ) (a : α) :
    NeverFails (do modify f; pure a : EStateM ε σ α) :=
  fun s ↦ ⟨a, f s, rfl⟩

theorem NeverFails.bind {call : EStateM ε σ α} {rest : α → EStateM ε σ β} (h : NeverFails call)
    (hrest : ∀ a, NeverFails (rest a)) : NeverFails (call >>= rest) := by
  intro s
  obtain ⟨a, s', ha⟩ := h s
  obtain ⟨b, s'', hb⟩ := hrest a s'
  exact ⟨b, s'', by rw [EStateM.run_bind, ha, ← hb]⟩

theorem NeverFails.allOrNothing {call : EStateM ε σ α} (h : NeverFails call) :
    AllOrNothing call := by
  intro s e s' herror
  obtain ⟨a, s'', ha⟩ := h s
  rw [ha] at herror
  cases herror

/-- A result that comes from elsewhere is taken over with nothing changed. -/
theorem allOrNothing_liftExcept (x : Except ε α) :
    AllOrNothing (liftExcept x : EStateM ε σ α) := by
  intro s e s' h
  cases x with
  | ok a => cases h
  | error e' =>
    cases h
    rfl

theorem AllOrNothing.get_bind {rest : σ → EStateM ε σ α} (h : ∀ s, AllOrNothing (rest s)) :
    AllOrNothing (get >>= rest) :=
  fun s ↦ h s s

/-- Behind the step that can fail, what changes something must not. -/
theorem AllOrNothing.bind {call : EStateM ε σ α} {rest : α → EStateM ε σ β}
    (h : AllOrNothing call) (hrest : ∀ a, NeverFails (rest a)) : AllOrNothing (call >>= rest) := by
  intro s e s' herror
  rw [EStateM.run_bind] at herror
  cases hcall : call.run s with
  | ok a s'' =>
    obtain ⟨b, t, hb⟩ := hrest a s''
    rw [hcall] at herror
    cases hb.symm.trans herror
  | error e' s'' =>
    rw [hcall] at herror
    cases herror
    exact h s _ _ hcall

end Calls

/-! ## Entries of a map -/

/-- Entries are set in their order, so the last one of a name stays. -/
theorem getElem?_insertMany (map : NamedValues) (entries : List (String × Value)) (name : String) :
    (map.insertMany entries)[name]? = (entries.reverse.lookup name).or map[name]? := by
  induction entries generalizing map with
  | nil => rw [Std.TreeMap.insertMany_nil, List.reverse_nil, List.lookup_nil, Option.none_or]
  | cons e entries ih =>
    obtain ⟨key, v⟩ := e
    have hset : (map.insert key v)[name]? = ([(key, v)].lookup name).or map[name]? := by
      rw [Std.TreeMap.getElem?_insert, List.lookup_cons, List.lookup_nil]
      by_cases hname : key = name
      · rw [if_pos (Std.compare_eq_iff_eq.mpr hname), beq_iff_eq.mpr hname.symm, Option.some_or]
      · rw [if_neg (mt Std.compare_eq_iff_eq.mp hname), beq_false_of_ne (Ne.symm hname),
          Option.none_or]
    rw [Std.TreeMap.insertMany_cons, ih, hset, List.reverse_cons, List.lookup_append,
      Option.or_assoc]

/-- A name that the entries have at most once is found wherever it stands. -/
theorem lookup_eq_some_iff_mem {entries : List (String × Value)} {name : String}
    (hname : (entries.map Prod.fst).count name ≤ 1) {v : Value} :
    entries.lookup name = some v ↔ (name, v) ∈ entries := by
  induction entries with
  | nil => simp
  | cons e entries ih =>
    obtain ⟨key, w⟩ := e
    rw [List.map_cons, List.count_cons] at hname
    rw [List.lookup_cons, List.mem_cons, Prod.mk.injEq]
    by_cases hkey : name = key
    · subst hkey
      have hother : (name, v) ∉ entries := by
        intro h
        have hcount : 0 < (entries.map Prod.fst).count name :=
          List.count_pos_iff.mpr (List.mem_map_of_mem h)
        rw [beq_self_eq_true, if_pos rfl] at hname
        omega
      rw [beq_self_eq_true, Option.some.injEq]
      simp only [true_and, hother, or_false, eq_comm]
    · rw [beq_false_of_ne hkey, ih (Nat.le_of_add_right_le hname)]
      simp only [hkey, false_and, false_or]

/-- With distinct names it makes no difference from which end the entries are searched. -/
theorem lookup_reverse_eq_lookup {entries : List (String × Value)}
    (hnames : (entries.map Prod.fst).Nodup) (name : String) :
    entries.reverse.lookup name = entries.lookup name := by
  have hcount := List.nodup_iff_count_le_one.mp hnames name
  have hreverse : (entries.reverse.map Prod.fst).count name ≤ 1 := by
    rwa [List.map_reverse, List.count_reverse]
  refine Option.ext fun v ↦ ?_
  rw [lookup_eq_some_iff_mem hreverse, lookup_eq_some_iff_mem hcount, List.mem_reverse]

/-! ## Arguments of a name -/

namespace Arguments

/-- The value belongs to the first argument of the name among those in the payload. -/
def FirstNamed (args : Arguments) (values : List Value) (name : String) (v : Value) : Prop :=
  ∃ before a after, args.nonIndexed = before ++ a :: after ∧ a.name = name ∧
    (∀ b ∈ before, b.name ≠ name) ∧ values[before.length]? = some v

/-- The value belongs to the last argument of the name among those in the payload. -/
def LastNamed (args : Arguments) (values : List Value) (name : String) (v : Value) : Prop :=
  ∃ before a after, args.nonIndexed = before ++ a :: after ∧ a.name = name ∧
    (∀ b ∈ after, b.name ≠ name) ∧ values[before.length]? = some v

/-- The first entry of a name, when names and values are paired, is found where its argument is. -/
theorem lookup_zip_eq_some_iff {as : List Argument} {values : List Value}
    (hlength : values.length = as.length) {name : String} {v : Value} :
    ((as.map Argument.name).zip values).lookup name = some v ↔
      ∃ before a after, as = before ++ a :: after ∧ a.name = name ∧
        (∀ b ∈ before, b.name ≠ name) ∧ values[before.length]? = some v := by
  induction as generalizing values with
  | nil =>
    refine iff_of_false (by simp) ?_
    rintro ⟨before, a, after, h, -⟩
    exact absurd h (by simp)
  | cons b as ih =>
    obtain ⟨w, rest, rfl⟩ := List.exists_cons_of_length_eq_add_one hlength
    rw [List.map_cons, List.zip_cons_cons, List.lookup_cons]
    by_cases hname : b.name = name
    · rw [beq_iff_eq.mpr hname.symm, Option.some.injEq]
      constructor
      · rintro rfl
        exact ⟨[], b, as, rfl, hname, List.forall_mem_nil _, rfl⟩
      · rintro ⟨before, a, after, hsplit, -, hbefore, hv⟩
        cases before with
        | nil => exact Option.some.inj hv
        | cons c before =>
          obtain ⟨rfl, -⟩ := List.cons.inj hsplit
          exact absurd hname (hbefore b List.mem_cons_self)
    · rw [beq_false_of_ne (Ne.symm hname), ih (Nat.succ.inj hlength)]
      constructor
      · rintro ⟨before, a, after, rfl, ha, hbefore, hv⟩
        exact ⟨b :: before, a, after, rfl, ha, List.forall_mem_cons.mpr ⟨hname, hbefore⟩, hv⟩
      · rintro ⟨before, a, after, hsplit, ha, hbefore, hv⟩
        cases before with
        | nil =>
          obtain ⟨rfl, -⟩ := List.cons.inj hsplit
          exact absurd ha hname
        | cons c before =>
          obtain ⟨-, hrest⟩ := List.cons.inj hsplit
          exact ⟨before, a, after, hrest, ha, (List.forall_mem_cons.mp hbefore).2, hv⟩

section Unpacked

variable {args : Arguments} {values : List Value} {name : String} {v : Value}

theorem map_fst_entries (hlength : values.length = args.nonIndexed.length) :
    (args.names.zip values).map Prod.fst = args.names :=
  List.map_fst_zip (Nat.le_of_eq (by rw [names, List.length_map, hlength]))

theorem lookup_entries_eq_some_iff (hlength : values.length = args.nonIndexed.length) :
    (args.names.zip values).lookup name = some v ↔ args.FirstNamed values name v :=
  lookup_zip_eq_some_iff hlength

/-- From the back the first entry of a name is that of the last argument. -/
theorem lookup_reverse_entries_eq_some_iff (hlength : values.length = args.nonIndexed.length) :
    (args.names.zip values).reverse.lookup name = some v ↔ args.LastNamed values name v := by
  have hreverse : (args.names.zip values).reverse
      = (args.nonIndexed.reverse.map Argument.name).zip values.reverse := by
    rw [List.zip_eq_zipWith, List.reverse_zipWith (by rw [names, List.length_map, hlength]), names,
      List.map_reverse, List.zip_eq_zipWith]
  have hindex {before after : List Argument} {a : Argument}
      (h : args.nonIndexed = before ++ a :: after) :
      values.reverse[after.length]? = values[before.length]? := by
    rw [h, List.length_append, List.length_cons] at hlength
    rw [List.getElem?_reverse (by omega)]
    congr 1
    omega
  rw [hreverse, lookup_zip_eq_some_iff (by rw [List.length_reverse, List.length_reverse, hlength])]
  constructor
  · rintro ⟨after, a, before, hsplit, ha, hafter, hv⟩
    have h : args.nonIndexed = before.reverse ++ a :: after.reverse := by
      rw [List.reverse_eq_append_iff.mp hsplit, List.reverse_cons, List.append_assoc,
        List.singleton_append]
    rw [← List.length_reverse, hindex h] at hv
    exact ⟨before.reverse, a, after.reverse, h, ha,
      fun b hb ↦ hafter b (List.mem_reverse.mp hb), hv⟩
  · rintro ⟨before, a, after, hsplit, ha, hafter, hv⟩
    refine ⟨after.reverse, a, before.reverse, ?_, ha, fun b hb ↦ hafter b (List.mem_reverse.mp hb),
      ?_⟩
    · rw [hsplit, List.reverse_append, List.reverse_cons, List.append_assoc, List.singleton_append]
    · rw [List.length_reverse, hindex hsplit, hv]

end Unpacked

theorem length_of_unpackFrom {slot : Nat} {data : Bytes} {args : Arguments} {values : List Value}
    (h : unpackFrom slot data args = .ok values) : values.length = args.length := by
  induction args generalizing slot values with
  | nil =>
    rw [← Except.ok.inj h]
    rfl
  | cons a args ih =>
    rw [unpackFrom] at h
    obtain ⟨index, -, h⟩ := bind_eq_ok_iff.mp h
    obtain ⟨value, -, h⟩ := bind_eq_ok_iff.mp h
    obtain ⟨rest, hrest, h⟩ := bind_eq_ok_iff.mp h
    rw [← Except.ok.inj h, List.length_cons, List.length_cons, ih hrest]

/-- There is a value for each argument in the payload. -/
theorem length_of_unpack {args : Arguments} {data : Bytes} {values : List Value}
    (h : args.unpack data = .ok values) : values.length = args.nonIndexed.length := by
  rw [unpack] at h
  split at h
  · split at h
    · rename_i hnone
      rw [← Except.ok.inj h, hnone]
      rfl
    · cases h
  · exact length_of_unpackFrom h

/-! ## Setting and binding -/

section

variable {args : Arguments} {data : Bytes} {values : List Value}

/-- Insertions never fail, so all entries are set. -/
theorem run_forM_insert (entries : List (String × Value)) (map : NamedValues) :
    (forM entries fun (name, value) ↦ modify (·.insert name value) :
        EStateM AbiError NamedValues PUnit).run map
      = .ok () (map.insertMany entries) := by
  induction entries generalizing map with
  | nil => rfl
  | cons e entries ih =>
    rw [List.forM_cons, EStateM.run_bind, EStateM.run_modify, Std.TreeMap.insertMany_cons]
    exact ih _

theorem unpackInto_of_ok (h : args.unpack data = .ok values) (map : NamedValues) :
    (args.unpackInto data).run map = .ok () (map.insertMany (args.names.zip values)) := by
  rw [unpackInto, EStateM.run_bind, h]
  exact run_forM_insert _ map

/-- The values come first, so a call whose values are refused ends before its insertions. -/
theorem unpackInto_of_error {e : AbiError} (h : args.unpack data = .error e) (map : NamedValues) :
    (args.unpackInto data).run map = .error e map := by
  rw [unpackInto, EStateM.run_bind, h]
  rfl

/-- The values come first, and the insertions behind them cannot fail. -/
theorem allOrNothing_unpackInto (args : Arguments) (data : Bytes) :
    AllOrNothing (args.unpackInto data) :=
  (allOrNothing_liftExcept _).bind fun _ map ↦ ⟨⟨⟩, _, run_forM_insert _ map⟩

theorem bind_of_unpack (h : args.unpack data = .ok values) :
    args.bind values = .ok (.tuple (args.names.zip values)) := by
  rw [bind, if_pos (length_of_unpack h)]

end

end Arguments

/-! ## Fields of a tuple -/

namespace Value

variable {entries : List (String × Value)} {name : String}

theorem field_tuple_eq_ok_iff {v : Value} :
    (tuple entries).field name = .ok v ↔ entries.lookup name = some v := by
  rw [field, entry]
  cases entries.lookup name <;> simp

theorem toOption_field_tuple (entries : List (String × Value)) (name : String) :
    ((tuple entries).field name).toOption = entries.lookup name := by
  rw [field, entry]
  cases entries.lookup name <;> rfl

theorem field_tuple_eq_error_iff {e : AbiError} :
    (tuple entries).field name = .error e ↔
      entries.lookup name = none ∧ e = .fieldNotFound name := by
  rw [field, entry]
  cases entries.lookup name <;> simp [eq_comm]

end Value

/-! ## Steps -/

namespace Session

theorem neverFails_putData (data : Bytes) : NeverFails (putData data) :=
  neverFails_modify_pure _ _

theorem neverFails_putValues (values : List Value) : NeverFails (putValues values) :=
  neverFails_modify_pure _ _

section

variable {α : Type} {call : EStateM AbiError NamedValues α} {s : Session} {map : NamedValues}

theorem run_onMap_of_ok {a : α} (h : call.run s.map = .ok a map) :
    (onMap call).run s = .ok a { s with map } := by
  rw [EStateM.run, onMap, h]

theorem run_onMap_of_error {e : AbiError} (h : call.run s.map = .error e map) :
    (onMap call).run s = .error e { s with map } := by
  rw [EStateM.run, onMap, h]

/-- A call on the map has no hand on the rest of the session. -/
theorem allOrNothing_onMap (h : AllOrNothing call) : AllOrNothing (onMap call) := by
  intro s e s' herror
  cases hcall : call.run s.map with
  | ok a map =>
    rw [run_onMap_of_ok hcall] at herror
    cases herror
  | error e' map =>
    rw [run_onMap_of_error hcall, h _ _ _ hcall] at herror
    cases herror
    rfl

end

/-- **One step** that fails changes nothing: what a step changes comes behind all that can fail. -/
theorem allOrNothing_step (action : Step) : AllOrNothing (step action) := by
  cases action with
  | useArguments args => exact (neverFails_modify_pure _ _).allOrNothing
  | setData content => exact (neverFails_putData content).allOrNothing
  | appendData content => exact .get_bind fun s ↦ (neverFails_putData _).allOrNothing
  | patchData index content => exact .get_bind fun s ↦ (neverFails_putData _).allOrNothing
  | truncateData length => exact .get_bind fun s ↦ (neverFails_putData _).allOrNothing
  | pack values => exact .get_bind fun s ↦ (allOrNothing_liftExcept _).bind neverFails_putData
  | repack => exact .get_bind fun s ↦ (allOrNothing_liftExcept _).bind neverFails_putData
  | unpack => exact .get_bind fun s ↦ (allOrNothing_liftExcept _).bind neverFails_putValues
  | unpackValues => exact .get_bind fun s ↦ (allOrNothing_liftExcept _).bind neverFails_putValues
  | unpackMap =>
    refine .get_bind fun s ↦ (allOrNothing_onMap (s.args.allOrNothing_unpackInto s.data)).bind ?_
    exact fun _ ↦ neverFails_get.bind fun _ ↦ neverFails_pure _
  | showMap => exact .get_bind fun s ↦ (neverFails_pure _).allOrNothing
  | bind values =>
    exact .get_bind fun s ↦ (allOrNothing_liftExcept _).bind fun v ↦ neverFails_modify_pure _ _
  | field path =>
    exact .get_bind fun s ↦ (allOrNothing_liftExcept _).bind fun v ↦ neverFails_pure _

/-- A step that fails leaves the session as it was. -/
theorem fst_advance_of_error {s : Session} {action : Step} {e : AbiError}
    (h : (s.advance action).2 = .error e) : (s.advance action).1 = s := by
  rw [advance] at h ⊢
  cases hstep : (step action).run s with
  | ok reply next =>
    rw [hstep] at h
    cases h
  | error e' next => exact allOrNothing_step action s e' next hstep

theorem advance_unpackMap (s : Session) :
    s.advance .unpackMap = match (onMap (s.args.unpackInto s.data)).run s with
      | .ok _ next => (next, .ok (.map next.map))
      | .error e next => (next, .error e) := by
  rw [advance, step, EStateM.run_bind, EStateM.run_get]
  dsimp only
  rw [EStateM.run_bind]
  cases (onMap (s.args.unpackInto s.data)).run s <;> rfl

theorem map_advance_unpackMap_of_ok {values : List Value} (s : Session)
    (h : s.args.unpack s.data = .ok values) :
    (s.advance .unpackMap).1.map = s.map.insertMany (s.args.names.zip values) := by
  rw [advance_unpackMap, run_onMap_of_ok (Arguments.unpackInto_of_ok h s.map)]

theorem snd_advance_unpackMap_of_error (s : Session) {e : AbiError}
    (h : s.args.unpack s.data = .error e) : (s.advance .unpackMap).2 = .error e := by
  rw [advance_unpackMap, run_onMap_of_error (Arguments.unpackInto_of_error h s.map)]

/-! ## Runs of calls -/

/-- Takes the steps one after the other, whether they fail or not. -/
def run (s : Session) (steps : List Step) : Session :=
  steps.foldl (fun s action ↦ (s.advance action).1) s

/-- Arguments and a payload that they are unpacked from, into the map. -/
structure Call where
  args : Arguments
  data : Bytes

namespace Call

def steps (c : Call) : List Step := [.useArguments c.args, .setData c.data, .unpackMap]

/-- What the call sets a name to, if it succeeds and has an argument of the name. -/
def sets? (c : Call) (name : String) : Option Value :=
  match c.args.unpack c.data with
  | .ok values => (c.args.names.zip values).reverse.lookup name
  | .error _ => none

end Call

theorem run_append (s : Session) (steps steps' : List Step) :
    s.run (steps ++ steps') = (s.run steps).run steps' :=
  List.foldl_append

variable {values : List Value} {c : Call} {name : String}

theorem map_run_steps_of_ok (h : c.args.unpack c.data = .ok values) (s : Session) :
    (s.run c.steps).map = s.map.insertMany (c.args.names.zip values) :=
  map_advance_unpackMap_of_ok { s with args := c.args, data := c.data } h

/-- The steps before the call do not set the map, and the call fails. -/
theorem map_run_steps_of_error {e : AbiError} (h : c.args.unpack c.data = .error e) (s : Session) :
    (s.run c.steps).map = s.map := by
  let ready : Session := { s with args := c.args, data := c.data }
  have hfails : (ready.advance .unpackMap).2 = .error e := snd_advance_unpackMap_of_error ready h
  calc
    (s.run c.steps).map = (ready.advance .unpackMap).1.map := rfl
    _ = ready.map := by rw [fst_advance_of_error hfails]
    _ = s.map := rfl

theorem Call.sets?_of_ok (h : c.args.unpack c.data = .ok values) :
    c.sets? name = (c.args.names.zip values).reverse.lookup name := by
  rw [sets?, h]

theorem Call.sets?_of_error {e : AbiError} (h : c.args.unpack c.data = .error e) :
    c.sets? name = none := by
  rw [sets?, h]

/-- A call sets exactly the names of its arguments in the payload. -/
theorem Call.sets?_eq_none_iff (h : c.args.unpack c.data = .ok values) :
    c.sets? name = none ↔ name ∉ c.args.names := by
  have hnames := Arguments.map_fst_entries (Arguments.length_of_unpack h)
  rw [sets?_of_ok h, List.lookup_eq_none_iff]
  constructor
  · intro hnone hname
    rw [← hnames] at hname
    obtain ⟨e, he, rfl⟩ := List.mem_map.mp hname
    exact absurd (hnone e (List.mem_reverse.mpr he)) (by simp)
  · intro hname e he
    rw [bne_iff_ne]
    rintro rfl
    exact hname (hnames ▸ List.mem_map_of_mem (List.mem_reverse.mp he))

/-- **One call** overrides what it sets and nothing else. -/
theorem getElem?_run_steps (s : Session) (c : Call) (name : String) :
    (s.run c.steps).map[name]? = (c.sets? name).or s.map[name]? := by
  cases h : c.args.unpack c.data with
  | ok values => rw [map_run_steps_of_ok h, Call.sets?_of_ok h, getElem?_insertMany]
  | error e => rw [map_run_steps_of_error h, Call.sets?_of_error h, Option.none_or]

/-- **A run of calls** overrides in the order of the calls. -/
theorem getElem?_run_flatMap_steps (s : Session) (calls : List Call) (name : String) :
    (s.run (calls.flatMap Call.steps)).map[name]?
      = (calls.findSomeRev? (·.sets? name)).or s.map[name]? := by
  induction calls generalizing s with
  | nil => rfl
  | cons c calls ih =>
    rw [List.flatMap_cons, run_append, ih, getElem?_run_steps, ← Option.or_assoc,
      List.findSomeRev?_eq_findSome?_reverse, List.findSomeRev?_eq_findSome?_reverse,
      List.reverse_cons, List.findSome?_append, List.findSome?_singleton]

end Session

/-- **Two views by name.** Behind a run of calls a map is the one from before, overridden by what
each call sets, in the order of the calls. A call that fails leaves the map as it was, and
one whose values are refused fails, with their error. One that succeeds sets each name of its
arguments in the payload, and only these, to the value of the last of them. Its values can be bound;
a field of the bound tuple is the value of the first argument of that name, and there is no field of
a name that the call does not set. With distinct names the fields are what the map holds. -/
theorem map_run_and_bind :
    (∀ (s : Session) (calls : List Session.Call) (name : String),
      (s.run (calls.flatMap Session.Call.steps)).map[name]?
        = (calls.findSomeRev? (·.sets? name)).or s.map[name]?) ∧
    (∀ c : Session.Call, AllOrNothing (c.args.unpackInto c.data) ∧
      ∀ e, c.args.unpack c.data = .error e →
        (∀ map, (c.args.unpackInto c.data).run map = .error e map) ∧
        (∀ name, c.sets? name = none) ∧ ∀ s : Session, (s.run c.steps).map = s.map) ∧
    ∀ (c : Session.Call) (values : List Value), c.args.unpack c.data = .ok values →
      (∀ name v, c.sets? name = some v ↔ c.args.LastNamed values name v) ∧
      (∀ name, c.sets? name = none ↔ name ∉ c.args.names) ∧
      ∃ bound, c.args.bind values = .ok bound ∧
        (∀ name v, bound.field name = .ok v ↔ c.args.FirstNamed values name v) ∧
        (∀ name e, bound.field name = .error e ↔ c.sets? name = none ∧ e = .fieldNotFound name) ∧
        (c.args.names.Nodup → ∀ (s : Session) (name : String),
          (s.run c.steps).map[name]? = (bound.field name).toOption.or s.map[name]?) := by
  refine ⟨Session.getElem?_run_flatMap_steps, fun c ↦ ⟨c.args.allOrNothing_unpackInto c.data,
    fun e h ↦ ⟨Arguments.unpackInto_of_error h, fun name ↦ Session.Call.sets?_of_error h,
      Session.map_run_steps_of_error h⟩⟩, fun c values h ↦ ?_⟩
  have hlength := Arguments.length_of_unpack h
  have hnames := Arguments.map_fst_entries hlength
  refine ⟨fun name v ↦ ?_, fun name ↦ Session.Call.sets?_eq_none_iff h, _,
    Arguments.bind_of_unpack h, fun name v ↦ ?_, fun name e ↦ ?_, fun hnodup s name ↦ ?_⟩
  · rw [Session.Call.sets?_of_ok h]
    exact Arguments.lookup_reverse_entries_eq_some_iff hlength
  · rw [Value.field_tuple_eq_ok_iff]
    exact Arguments.lookup_entries_eq_some_iff hlength
  · rw [Value.field_tuple_eq_error_iff, Session.Call.sets?_of_ok h, List.lookup_eq_none_iff,
      List.lookup_eq_none_iff]
    simp only [List.mem_reverse]
  · rw [← hnames] at hnodup
    rw [Session.getElem?_run_steps, Session.Call.sets?_of_ok h, lookup_reverse_eq_lookup hnodup,
      Value.toOption_field_tuple]

/-- Two arguments of one name around an indexed one, then a payload that is refused, then another
name. -/
theorem map_run_and_bind_repeated_name :
    let twice : Session.Call := ⟨[⟨"x", .uint 8, false⟩, ⟨"id", .uint 256, true⟩,
      ⟨"x", .uint 16, false⟩], countWord 1 ++ countWord 2⟩
    let refused : Session.Call := ⟨[⟨"x", .uint 8, false⟩], countWord 256⟩
    let other : Session.Call := ⟨[⟨"y", .bool, false⟩], countWord 1⟩
    (twice.args.unpack twice.data = .ok [.uint 1, .uint 2] ∧
      refused.args.unpack refused.data = .error (.improperlyEncodedInt "uint8") ∧
      other.args.unpack other.data = .ok [.bool true] ∧ other.args.names.Nodup) ∧
    (∀ s : Session, let map := (s.run ([twice, refused, other].flatMap Session.Call.steps)).map
      map["x"]? = some (.uint 2) ∧ map["y"]? = some (.bool true) ∧ map["id"]? = s.map["id"]?) ∧
    (∀ map, (refused.args.unpackInto refused.data).run map
      = .error (.improperlyEncodedInt "uint8") map) ∧
    (∀ s : Session, (s.run refused.steps).map = s.map) ∧
    (∃ bound, twice.args.bind [.uint 1, .uint 2] = .ok bound ∧ bound.field "x" = .ok (.uint 1) ∧
      bound.field "id" = .error (.fieldNotFound "id")) ∧
    ∃ bound, other.args.bind [.bool true] = .ok bound ∧ ∀ (s : Session) (name : String),
      (s.run other.steps).map[name]? = (bound.field name).toOption.or s.map[name]? := by
  intro twice refused other
  obtain ⟨hrun, hrefused, hread⟩ := map_run_and_bind
  have htwice : twice.args.unpack twice.data = .ok [.uint 1, .uint 2] := by decide +kernel
  have herror : refused.args.unpack refused.data = .error (.improperlyEncodedInt "uint8") := by
    decide +kernel
  have hother : other.args.unpack other.data = .ok [.bool true] := by decide +kernel
  have hnames : other.args.names.Nodup := by decide
  obtain ⟨hmap, -, hsession⟩ := (hrefused refused).2 _ herror
  refine ⟨⟨htwice, herror, hother, hnames⟩, fun s ↦ ⟨?_, ?_, ?_⟩, hmap, hsession, ?_, ?_⟩
  · rw [hrun, show [twice, refused, other].findSomeRev? (·.sets? "x") = some (.uint 2) from by
      decide +kernel, Option.some_or]
  · rw [hrun, show [twice, refused, other].findSomeRev? (·.sets? "y") = some (.bool true) from by
      decide +kernel, Option.some_or]
  · rw [hrun, show [twice, refused, other].findSomeRev? (·.sets? "id") = none from by
      decide +kernel, Option.none_or]
  · obtain ⟨-, -, bound, hbind, hfirst, hnone, -⟩ := hread twice _ htwice
    refine ⟨bound, hbind, (hfirst _ _).mpr ?_, (hnone _ _).mpr ⟨by decide +kernel, rfl⟩⟩
    exact ⟨[], _, _, rfl, rfl, List.forall_mem_nil _, rfl⟩
  · obtain ⟨-, -, bound, hbind, -, -, hmap⟩ := hread other _ hother
    exact ⟨bound, hbind, hmap hnames⟩

end ContractAbi
