import FluentGrammar.Automaton.States
import FluentGrammar.Automaton.Table
import FluentGrammar.CompileError

/-
  From the item automaton to the parse table. A cell with several candidates takes acceptance
  first, then the shift, then the lowest production. On the end of input that only decides which
  sentence ends where, so it is a warning; on an action it is an error.
-/

namespace FluentGrammar

open Report

namespace Analysis

/-- The productions that are complete in a closure and may be followed by a terminal. -/
def completed (a : Analysis) (closure : ItemSet) (t : TerminalId) : List ProductionId :=
  closure.filterMap fun (i, ts) =>
    if (a.remaining i).isEmpty && ts.contains t then some i.production else none

/-- The candidates of a cell, the best first. -/
def candidates (a : Analysis) (transitions : List Transition) (closure : ItemSet)
    (t : TerminalId) : List TableAction :=
  let complete := a.completed closure t
  (if complete.contains a.accept then [.accept] else []) ++
    ((transitions.lookup (.terminal t)).map TableAction.shift).toList ++
    (complete.filter (· != a.accept)).map .reduce

/-- The production of a candidate that ends one. -/
def productionOf? (a : Analysis) : TableAction → Option ProductionId
  | .accept => some a.accept
  | .reduce r => some r
  | .shift _ | .error => none

/-- The report on a cell with several candidates. -/
def conflict (a : Analysis) (state : StateId) (t : TerminalId) (cell : List TableAction) :
    Diagnostic :=
  let productions := (cell.filterMap a.productionOf?).map a.grammar.production
  let shifts := cell.any fun
    | .shift _ => true
    | _ => false
  let shape := if shifts then "shift/reduce" else "reduce/reduce"
  let place := " in state " ++ toString state
  let span := (productions.head?.map (·.span)).getD default
  let report :=
    if t == a.grammar.endTerminal then
      Diagnostic.about .endConflict span (shape ++ " conflict" ++ place)
    else
      Diagnostic.about .grammarConflict span
        (shape ++ " conflict on `" ++ a.grammar.terminalName t ++ "`" ++ place)
  productions.foldl (fun report p =>
    report.relatedTo ("reduce by `" ++ a.grammar.productionText p ++ "`") p.span) report

/-- The cells of a state, by terminal. -/
def row (a : Analysis) (s : ItemState) : List (List TableAction) :=
  let closure := a.closure s.kernel
  (List.range a.grammar.terminals.length).map (a.candidates s.transitions closure)

/-- The reports on the cells of a state. -/
def rowConflicts (a : Analysis) (state : StateId) (row : List (List TableAction)) :
    List Diagnostic :=
  row.zipIdx.filterMap fun (cell, t) =>
    if cell.length > 1 then some (a.conflict state t cell) else none

end Analysis

/-- The parse table of a grammar, with warnings. -/
def Grammar.parseTable (g : Grammar) : Except CompileError (ParseTable × List Diagnostic) :=
  let a := Analysis.ofGrammar g
  let states := a.states
  let rows := states.map a.row
  let reports := (rows.zipIdx.map fun (row, state) => a.rowConflicts state row).flatten
  let gotos := states.flatMap fun s =>
    (List.range g.nonterminals.length).map fun n => s.transitions.lookup (.nonterminal n)
  let table : ParseTable :=
    { terminals := g.terminals
      nonterminals := g.nonterminals.map (·.name)
      stateCount := states.length
      actions := ((rows.flatMap id).map fun cell => cell.head?.getD .error).toArray
      gotos := gotos.toArray
      reductions := (g.productions.map fun p => ⟨p.lhs, p.rhs.length⟩).toArray }
  if Diagnostic.anyError reports then .error (.conflict reports) else .ok (table, reports)

end FluentGrammar
