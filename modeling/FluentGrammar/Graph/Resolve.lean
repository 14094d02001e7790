import FluentGrammar.Graph.Basic
import FluentGrammar.OrderedSet

/-
  From a parse table to a transition graph. A state has an edge on a terminal when the reductions
  there lead, goto by goto and without taking anything from a stack, to a state that shifts the
  terminal; the edge goes where the shift goes. A chain that takes more steps than there are
  states does not end.
-/

namespace FluentGrammar

/-- A chain of reductions that does not settle within a bound. -/
structure EndlessChain where
  state : StateId
  terminal : TerminalId
  bound : Nat
  deriving Repr, DecidableEq

/-- The words of an endless chain. -/
def EndlessChain.message (e : EndlessChain) : String :=
  "reduce chain from state " ++ toString e.state ++ " on t" ++ toString e.terminal ++
    " exceeds " ++ toString e.bound ++ " steps"

namespace ParseTable

/-- Where a terminal leads from a state: `some none` when nowhere, and `none` when the steps do
    not suffice to tell. -/
def follow (t : ParseTable) (terminal : TerminalId) : Nat → StateId → Option (Option NodeId)
  | 0, _ => none
  | steps + 1, state =>
    match t.action state terminal with
    | .shift target => some (some target)
    | .error | .accept => some none
    | .reduce r =>
      match (t.reduction? r).bind fun reduction => t.goto state reduction.produces with
      | some next => t.follow terminal steps next
      | none => some none

/-- The edge of a state on a terminal, if there is one. -/
def edge? (t : ParseTable) (state : StateId) (terminal : TerminalId) :
    Except EndlessChain (Option Edge) :=
  match t.follow terminal (t.stateCount + 1) state with
  | none => .error ⟨state, terminal, t.stateCount⟩
  | some target => .ok (target.map fun target => ⟨terminal, target⟩)

/-- The node of a state, with edges on some of the terminals. -/
def node (t : ParseTable) (terminals : List TerminalId) (state : StateId) :
    Except EndlessChain Node := do
  let edges ← terminals.mapM (t.edge? state)
  return ⟨edges.filterMap id⟩

/-- The transition graph of a table over some terminals, taken in order and once each. -/
def graph (t : ParseTable) (terminals : List TerminalId) : Except EndlessChain Graph := do
  let terminals := OrderedSet.union terminals []
  let nodes ← (List.range t.stateCount).mapM (t.node terminals)
  return ⟨nodes⟩

end ParseTable

end FluentGrammar
