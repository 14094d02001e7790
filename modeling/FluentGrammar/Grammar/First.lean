import FluentGrammar.Grammar.Basic
import FluentGrammar.OrderedSet

/-
  FIRST sets: for every nonterminal, the terminals that its derivations may begin with and whether
  it derives nothing. The sets grow in passes over all productions until a pass changes nothing.
  Every other pass adds a terminal to a set or finds a nonterminal nullable, which bounds them.
-/

namespace FluentGrammar

/-- For every nonterminal, its first terminals in ascending order, and whether it is nullable. -/
structure FirstSets where
  first : List (List TerminalId)
  nullable : List Bool
  deriving Repr, DecidableEq

namespace FirstSets

/-- The first terminals of a symbol string, and whether it derives nothing. -/
def ofSymbols (f : FirstSets) : List Symbol → List TerminalId × Bool
  | [] => ([], true)
  | .terminal t :: _ => ([t], false)
  | .nonterminal n :: rest =>
    let heads := f.first.getD n []
    if f.nullable.getD n false then
      let (more, empty) := f.ofSymbols rest
      (OrderedSet.union heads more, empty)
    else (heads, false)

/-- Takes in what a production says about its left-hand side. -/
def absorb (f : FirstSets) (p : Production) : FirstSets :=
  let (heads, empty) := f.ofSymbols p.rhs
  { first := f.first.modify p.lhs (OrderedSet.union heads)
    nullable := f.nullable.modify p.lhs (· || empty) }

/-- One pass over the productions. -/
def pass (g : Grammar) (f : FirstSets) : FirstSets := g.productions.foldl absorb f

/-- Passes until nothing changes. -/
def settle (g : Grammar) : Nat → FirstSets → FirstSets
  | 0, f => f
  | fuel + 1, f =>
    let next := pass g f
    if next = f then f else settle g fuel next

/-- The first sets of a grammar. -/
def ofGrammar (g : Grammar) : FirstSets :=
  let count := g.nonterminals.length
  settle g (count * (g.terminals.length + 1) + 1)
    ⟨List.replicate count [], List.replicate count false⟩

end FirstSets

end FluentGrammar
