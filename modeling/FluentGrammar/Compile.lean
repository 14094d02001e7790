import FluentGrammar.Automaton.Build
import FluentGrammar.Grammar.Lower
import FluentGrammar.Graph.Minimize
import FluentGrammar.Graph.Resolve
import FluentGrammar.Rules.Resolve
import FluentGrammar.Source.Parser
import FluentGrammar.States.Chain
import FluentGrammar.States.Code

/-
  Compiling a grammar over a catalog: the source is parsed, its names are resolved, the rules are
  lowered to a grammar, the grammar gives a parse table, the table a graph, the graph is merged,
  and the merged graph gives states. Every stage may add diagnostics. A stage that fails ends the
  compilation with the diagnostics of all stages up to it.
-/

namespace FluentGrammar

/-- How a grammar is compiled. -/
structure CompileOptions where
  states : StateOptions := {}
  lowering : Lowering := .flatten
  /-- How deep groups may nest. -/
  nestingLimit : Nat := Source.defaultNestingLimit
  deriving Repr

/-- Everything that a compilation gives. -/
structure Compiled where
  grammar : Grammar
  table : ParseTable
  graph : Graph
  merged : MergedGraph
  count : MergeCount
  states : List StateType
  /-- The warnings of all stages. -/
  diagnostics : List Diagnostic

/-- What a builder meets that begins in the entry state and calls operations by name: the entry
    state first. -/
def Compiled.chain (c : Compiled) (names : List String) : List Stop :=
  let entry := StateType.entryOf c.states
  entry :: StateType.chain c.states entry names

/-- Compiles a grammar. -/
def compile (source : String) (catalog : Catalog) (o : CompileOptions) :
    Except CompileError Compiled := do
  let (tree, parsed) ← (Source.parse source o.nestingLimit).mapError fun _ =>
    CompileError.nestingTooDeep
  if Diagnostic.anyError parsed then throw (.malformedSource parsed)
  let (rules, resolved) ← (Rules.ofDocument catalog tree.document).mapError (·.after parsed)
  let diagnostics := parsed ++ resolved
  let (grammar, lowered) ← (rules.lower catalog o.lowering).mapError (·.after diagnostics)
  let diagnostics := diagnostics ++ lowered
  let (table, built) ← grammar.parseTable.mapError (·.after diagnostics)
  let diagnostics := diagnostics ++ built
  let graph ← (table.graph catalog.terminals).mapError fun e =>
    CompileError.endlessReduction e.state (grammar.terminalName e.terminal) e.bound
  let (merged, count) := graph.minimize
  let states := merged.states catalog o.states
  return { grammar, table, graph, merged, count, states, diagnostics }

end FluentGrammar
