import FluentGrammar.Grammar.Basic
import FluentGrammar.Text.Lines

/-
  Parse tables. Actions and gotos are two matrices that lie row by row in arrays, one row for a
  state. A cell is written by its place in the array, so a column beyond the row reaches into the
  next, and only a place past the end is refused. Cells not written are errors or missing.
-/

namespace FluentGrammar

/-- The index of a state. -/
abbrev StateId := Nat

/-- What a state does on a terminal. -/
inductive TableAction where
  | error
  | shift (state : StateId)
  | reduce (rule : Nat)
  | accept
  deriving Repr, DecidableEq, Inhabited

/-- An action in words; errors have none. -/
def TableAction.text? : TableAction → Option String
  | .error => none
  | .shift s => some ("shift S" ++ toString s)
  | .reduce r => some ("reduce r" ++ toString r)
  | .accept => some "accept"

/-- What a reduction does: the nonterminal it produces and how many symbols it takes. -/
structure Reduction where
  produces : NonterminalId
  length : Nat
  deriving Repr, DecidableEq

/-- A parse table. -/
structure ParseTable where
  terminals : List String
  nonterminals : List String
  stateCount : Nat
  actions : Array TableAction
  gotos : Array (Option StateId)
  reductions : Array Reduction
  deriving Repr, DecidableEq

namespace ParseTable

/-- The table without entries. -/
def blank (terminals nonterminals : List String) (stateCount : Nat) : ParseTable where
  terminals := terminals
  nonterminals := nonterminals
  stateCount := stateCount
  actions := Array.replicate (stateCount * terminals.length) .error
  gotos := Array.replicate (stateCount * nonterminals.length) none
  reductions := #[]

/-- The place of an action. -/
def actionIndex (t : ParseTable) (state : StateId) (terminal : TerminalId) : Nat :=
  state * t.terminals.length + terminal

/-- The place of a goto. -/
def gotoIndex (t : ParseTable) (state : StateId) (nonterminal : NonterminalId) : Nat :=
  state * t.nonterminals.length + nonterminal

/-- Writes an action; `none` past the end of the matrix. -/
def setAction? (t : ParseTable) (state : StateId) (terminal : TerminalId) (a : TableAction) :
    Option ParseTable :=
  let i := t.actionIndex state terminal
  if i < t.actions.size then some { t with actions := t.actions.setIfInBounds i a } else none

/-- Writes a goto; `none` past the end of the matrix. -/
def setGoto? (t : ParseTable) (state : StateId) (nonterminal : NonterminalId)
    (target : StateId) : Option ParseTable :=
  let i := t.gotoIndex state nonterminal
  if i < t.gotos.size then some { t with gotos := t.gotos.setIfInBounds i (some target) } else none

/-- Adds a reduction; its index is the number of those before. -/
def pushReduction (t : ParseTable) (r : Reduction) : Nat × ParseTable :=
  (t.reductions.size, { t with reductions := t.reductions.push r })

/-- The action of a state on a terminal, an error outside the table. -/
def action (t : ParseTable) (state : StateId) (terminal : TerminalId) : TableAction :=
  if state < t.stateCount ∧ terminal < t.terminals.length then
    t.actions.getD (t.actionIndex state terminal) .error
  else .error

/-- The state entered from a state with a nonterminal, missing outside the table. -/
def goto (t : ParseTable) (state : StateId) (nonterminal : NonterminalId) : Option StateId :=
  if state < t.stateCount ∧ nonterminal < t.nonterminals.length then
    t.gotos.getD (t.gotoIndex state nonterminal) none
  else none

/-- A reduction by its index. -/
def reduction? (t : ParseTable) (r : Nat) : Option Reduction := t.reductions[r]?

/-- The line of a state: its actions and its gotos. -/
def stateLine (t : ParseTable) (state : StateId) : String :=
  let actions := t.terminals.zipIdx.filterMap fun (name, terminal) =>
    (t.action state terminal).text?.map fun text => name ++ " → " ++ text
  let gotos := t.nonterminals.zipIdx.filterMap fun (name, nonterminal) =>
    (t.goto state nonterminal).map fun target => name ++ " ⇒ S" ++ toString target
  let cells := actions ++ gotos
  "S" ++ toString state ++ ":" ++ (if cells.isEmpty then "" else " " ++ ", ".intercalate cells)

/-- The line of a reduction; `none` when its nonterminal has no name. -/
def reductionLine? (t : ParseTable) (index : Nat) (r : Reduction) : Option String :=
  t.nonterminals[r.produces]?.map fun name =>
    "r" ++ toString index ++ ": " ++ name ++ " (" ++ toString r.length ++ ")"

/-- The table in words: reductions, then states. -/
def dump? (t : ParseTable) : Option String := do
  let reductions ← t.reductions.toList.zipIdx.mapM fun (r, i) => t.reductionLine? i r
  return Text.unlines (reductions ++ (List.range t.stateCount).map t.stateLine)

end ParseTable

end FluentGrammar
