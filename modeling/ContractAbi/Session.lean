import ContractAbi.Arguments

/-!
# Sessions

A run of packing and unpacking over one argument list, with the payload, the values and the names it
has got to. Every step changes the session in place and answers with what it produced, or fails. The
session is there behind a step that failed as well, as far as the step came with it.
-/

namespace ContractAbi

structure Session where
  args : Arguments
  data : Bytes := []
  values : List Value := []
  /-- The values that were bound last. -/
  bound : Value := .tuple []
  map : NamedValues := ∅

namespace Session

inductive Step where
  | useArguments (args : Arguments)
  | setData (content : Bytes)
  | appendData (content : Bytes)
  /-- Overwrites the payload from byte `index` on. -/
  | patchData (index : Nat) (content : Bytes)
  | truncateData (length : Nat)
  | pack (values : List Value)
  /-- Packs the session's own values. -/
  | repack
  | unpack
  | unpackValues
  | unpackMap
  | showMap
  /-- Binds the given values, or the session's own. -/
  | bind (values : Option (List Value))
  /-- Follows the names into the values that were bound last. -/
  | field (path : List String)

inductive Reply where
  | arguments (args : Arguments)
  | data (content : Bytes)
  | values (values : List Value)
  | map (map : NamedValues)
  | value (value : Value)

/-- Makes the call on the map of the session. -/
def onMap {α : Type} (call : EStateM AbiError NamedValues α) : EStateM AbiError Session α := fun s ↦
  match call.run s.map with
  | .ok a map => .ok a { s with map }
  | .error e map => .error e { s with map }

def putData (data : Bytes) : EStateM AbiError Session Reply := do
  modify fun s ↦ { s with data }
  return .data data

def putValues (values : List Value) : EStateM AbiError Session Reply := do
  modify fun s ↦ { s with values }
  return .values values

def step : Step → EStateM AbiError Session Reply
  | .useArguments args => do
    modify fun s ↦ { s with args }
    return .arguments args
  | .setData content => putData content
  | .appendData content => do putData ((← get).data ++ content)
  | .patchData index content => do
    let data := (← get).data
    putData (data.take index ++ content ++ data.drop (index + content.length))
  | .truncateData length => do putData ((← get).data.take length)
  | .pack values => do
    let s ← get
    putData (← liftExcept (s.args.pack values))
  | .repack => do
    let s ← get
    putData (← liftExcept (s.args.pack s.values))
  | .unpack => do
    let s ← get
    putValues (← liftExcept (s.args.unpack s.data))
  | .unpackValues => do
    let s ← get
    putValues (← liftExcept (s.args.unpackValues s.data))
  | .unpackMap => do
    let s ← get
    onMap (s.args.unpackInto s.data)
    return .map (← get).map
  | .showMap => return .map (← get).map
  | .bind values => do
    let s ← get
    let bound ← liftExcept (s.args.bind (values.getD s.values))
    modify fun s ↦ { s with bound }
    return .value bound
  | .field path => do
    let s ← get
    return .value (← liftExcept (s.bound.follow path))

/-- The session behind a step, and the step's answer. -/
def advance (s : Session) (action : Step) : Session × Except AbiError Reply :=
  match (step action).run s with
  | .ok reply next => (next, .ok reply)
  | .error e next => (next, .error e)

end Session

end ContractAbi
