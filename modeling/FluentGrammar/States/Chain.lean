import FluentGrammar.States.Basic

/-
  Chains of operations. From a state a builder calls operations by name. A call meets a state or
  the end, or the state has no such operation and the chain breaks there.
-/

namespace FluentGrammar

/-- What a call meets. -/
inductive Stop where
  | state (state : StateType)
  /-- A state by a name that none of the states has. -/
  | missing
  /-- The end, where nothing can follow. -/
  | done
  /-- There is no operation of the name. -/
  | broken
  deriving Repr, DecidableEq

namespace Stop

/-- The state that was met. -/
def state? : Stop → Option StateType
  | state s => some s
  | missing | done | broken => none

/-- A state that was looked for. -/
def ofState? : Option StateType → Stop
  | some s => state s
  | none => missing

end Stop

namespace StateType

/-- The operation of a name. -/
def operation? (s : StateType) (name : String) : Option Operation :=
  s.operations.find? (·.name == name)

/-- The state in which a builder begins. -/
def entryOf (states : List StateType) : Stop := .ofState? (states.find? (·.isEntry))

/-- What a call from a stop meets. -/
def call (states : List StateType) (from_ : Stop) (name : String) : Stop :=
  match from_.state?.bind (·.operation? name) with
  | none => .broken
  | some o =>
    match o.target with
    | .done => .done
    | .state target _ => .ofState? (states.find? (·.name == target))

/-- What the calls of a chain meet, up to the one that breaks it. -/
def chain (states : List StateType) : Stop → List String → List Stop
  | _, [] => []
  | from_, name :: rest =>
    let met := call states from_ name
    if met = .broken then [.broken] else met :: chain states met rest

end StateType

end FluentGrammar
