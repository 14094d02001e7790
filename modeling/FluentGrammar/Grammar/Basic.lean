import FluentGrammar.Catalog.Basic
import FluentGrammar.Span
import FluentGrammar.Text.Lines

/-
  Context-free grammars in plain form. Terminals are the actions of a catalog followed by the end
  of input. Nonterminals are rules and what lowering adds for parts of their bodies. Productions
  are numbered in the order in which they were added.
-/

namespace FluentGrammar

/-- The index of a nonterminal. -/
abbrev NonterminalId := Nat

/-- The index of a production. -/
abbrev ProductionId := Nat

/-- A terminal or a nonterminal. -/
inductive Symbol where
  | terminal (t : TerminalId)
  | nonterminal (n : NonterminalId)
  deriving Repr, DecidableEq, Inhabited

/-- Terminals come before nonterminals, and each kind is ordered by index. -/
def Symbol.le : Symbol → Symbol → Bool
  | terminal a, terminal b => a ≤ b
  | terminal _, nonterminal _ => true
  | nonterminal _, terminal _ => false
  | nonterminal a, nonterminal b => a ≤ b

/-- A nonterminal, with the rule name's span that it comes from. -/
structure Nonterminal where
  name : String
  span : Span
  deriving Repr, DecidableEq, Inhabited

/-- A production. -/
structure Production where
  lhs : NonterminalId
  rhs : List Symbol
  span : Span
  deriving Repr, DecidableEq, Inhabited

/-- A grammar. -/
structure Grammar where
  /-- Names of the terminals, the end of input last. -/
  terminals : List String
  nonterminals : List Nonterminal
  productions : List Production
  start : NonterminalId
  deriving Repr, DecidableEq

namespace Grammar

/-- The name of the end of input. -/
def endName : String := "$end"

/-- The grammar over a catalog that has no productions yet. -/
def ofCatalog (catalog : Catalog) : Grammar where
  terminals := catalog.actions.map (·.id) ++ [endName]
  nonterminals := []
  productions := []
  start := 0

/-- One more nonterminal; its index is the number of those before. -/
def addNonterminal (g : Grammar) (name : String) (span : Span) : NonterminalId × Grammar :=
  (g.nonterminals.length, { g with nonterminals := g.nonterminals ++ [⟨name, span⟩] })

/-- One more production. -/
def addProduction (g : Grammar) (lhs : NonterminalId) (rhs : List Symbol) (span : Span) :
    Grammar :=
  { g with productions := g.productions ++ [⟨lhs, rhs, span⟩] }

/-- The end of input. -/
def endTerminal (g : Grammar) : TerminalId := g.terminals.length - 1

/-- The name of a terminal, which must be in range. -/
def terminalName (g : Grammar) (t : TerminalId) : String := g.terminals.getD t ""

/-- A nonterminal, which must be in range. -/
def nonterminal (g : Grammar) (n : NonterminalId) : Nonterminal := g.nonterminals.getD n default

/-- A production, which must be in range. -/
def production (g : Grammar) (p : ProductionId) : Production := g.productions.getD p default

/-- The symbol is one of the grammar's. -/
def hasSymbol (g : Grammar) : Symbol → Bool
  | .terminal t => t < g.terminals.length
  | .nonterminal n => n < g.nonterminals.length

/-- Every index in the grammar is in range. -/
def inRange (g : Grammar) : Bool :=
  g.start < g.nonterminals.length &&
    g.productions.all fun p => p.lhs < g.nonterminals.length && p.rhs.all g.hasSymbol

/-- The productions of a nonterminal, in order. -/
def productionsOf (g : Grammar) (n : NonterminalId) : List ProductionId :=
  (g.productions.zipIdx.filter fun (p, _) => p.lhs == n).map (·.2)

/-- The productions of every nonterminal. -/
def productionsByLhs (g : Grammar) : List (List ProductionId) :=
  (List.range g.nonterminals.length).map g.productionsOf

/-- The name of the nonterminal that stands for a whole sentence. -/
def acceptName : String := "$accept"

/-- The grammar with a last nonterminal and production for a whole sentence. -/
def augmented (g : Grammar) : Grammar :=
  let span := (g.nonterminal g.start).span
  let (accept, g') := g.addNonterminal acceptName span
  { g'.addProduction accept [.nonterminal g.start] span with start := accept }

/-- The name of a symbol. -/
def symbolName (g : Grammar) : Symbol → String
  | .terminal t => g.terminalName t
  | .nonterminal n => (g.nonterminal n).name

/-- A production in words. -/
def productionText (g : Grammar) (p : Production) : String :=
  (g.nonterminal p.lhs).name ++ " →" ++
    (if p.rhs.isEmpty then " ε" else String.join (p.rhs.map fun s => " " ++ g.symbolName s))

/-- The start and the numbered productions, one a line. -/
def dump (g : Grammar) : String :=
  Text.unlines (("start: " ++ (g.nonterminal g.start).name) ::
    g.productions.mapIdx fun i p => "r" ++ toString i ++ ": " ++ g.productionText p)

end Grammar

end FluentGrammar
