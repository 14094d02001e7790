import FluentGrammar.Grammar.First

/-
  Items: productions with a position, and the terminals that may follow each. A set of items is a
  list in ascending order with the lookaheads of every item. Its closure adds the productions of
  every nonterminal that comes next, with the terminals that may follow it there.
-/

namespace FluentGrammar

/-- A production with a position in its right-hand side. -/
structure Item where
  production : ProductionId
  dot : Nat
  deriving Repr, DecidableEq, Inhabited

/-- Items are ordered by production and then by position. -/
def Item.before (a b : Item) : Bool :=
  a.production < b.production || (a.production == b.production && a.dot < b.dot)

/-- The item with its position moved past one symbol. -/
def Item.advance (i : Item) : Item := { i with dot := i.dot + 1 }

/-- Items in ascending order, each with its lookaheads in ascending order. -/
abbrev ItemSet := List (Item × List TerminalId)

namespace ItemSet

/-- The items without their lookaheads. -/
def items (s : ItemSet) : List Item := s.map (·.1)

/-- The lookaheads of an item; none for an item that is not in the set. -/
def lookaheads (s : ItemSet) (i : Item) : List TerminalId := (s.lookup i).getD []

/-- Adds an item with lookaheads, or lookaheads to an item. -/
def add (i : Item) (ts : List TerminalId) : ItemSet → ItemSet
  | [] => [(i, ts)]
  | (j, us) :: rest =>
    if i = j then (j, OrderedSet.union ts us) :: rest
    else if i.before j then (i, ts) :: (j, us) :: rest
    else (j, us) :: add i ts rest

/-- The set has the item with all of the lookaheads. -/
def covers (s : ItemSet) (i : Item) (ts : List TerminalId) : Bool :=
  match s.lookup i with
  | some us => ts.all us.contains
  | none => false

end ItemSet

/-- A grammar with what is computed from it once. -/
structure Analysis where
  /-- The augmented grammar. -/
  grammar : Grammar
  /-- The productions of every nonterminal. -/
  byLhs : List (List ProductionId)
  first : FirstSets
  /-- The right-hand sides by production. -/
  sides : Array (List Symbol)

namespace Analysis

/-- The analysis of a grammar that has not been augmented yet. -/
def ofGrammar (g : Grammar) : Analysis :=
  let augmented := g.augmented
  { grammar := augmented
    byLhs := augmented.productionsByLhs
    first := .ofGrammar augmented
    sides := (augmented.productions.map (·.rhs)).toArray }

/-- The production for a whole sentence, which is the last. -/
def accept (a : Analysis) : ProductionId := a.grammar.productions.length - 1

/-- The symbols from the position of an item on. -/
def remaining (a : Analysis) (i : Item) : List Symbol := (a.sides.getD i.production []).drop i.dot

/-- The symbol that comes next in an item. -/
def next? (a : Analysis) (i : Item) : Option Symbol := (a.remaining i).head?

/-- Adds the productions `ps` with lookaheads `ts`, and puts those that grew on the stack. -/
def derive (ts : List TerminalId) :
    List ProductionId → ItemSet × List Item → ItemSet × List Item
  | [], state => state
  | p :: ps, (s, stack) =>
    let item : Item := ⟨p, 0⟩
    if s.covers item ts then derive ts ps (s, stack)
    else derive ts ps (s.add item ts, item :: stack)

/-- Expands the items on the stack until none is left. -/
def closeItems (a : Analysis) : Nat → ItemSet × List Item → ItemSet
  | 0, (s, _) => s
  | _ + 1, (s, []) => s
  | fuel + 1, (s, item :: stack) =>
    match a.remaining item with
    | .nonterminal n :: after =>
      let (heads, empty) := a.first.ofSymbols after
      let ts := if empty then OrderedSet.union heads (s.lookaheads item) else heads
      a.closeItems fuel (derive ts (a.byLhs.getD n []) (s, stack))
    | _ => a.closeItems fuel (s, stack)

/-- The closure of a set of items. An item goes on the stack at most once for itself and once for
    each of its lookaheads. -/
def closure (a : Analysis) (s : ItemSet) : ItemSet :=
  let bound := s.length + a.grammar.productions.length * (a.grammar.terminals.length + 1) + 1
  a.closeItems bound (s, s.items)

end Analysis

end FluentGrammar
