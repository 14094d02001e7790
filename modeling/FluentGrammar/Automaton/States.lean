import FluentGrammar.Automaton.Item

/-
  The item automaton. A state is known by its kernel, the items it is entered with. States are
  numbered as they are discovered, breadth first and along transitions in symbol order. Then
  lookaheads are passed along the transitions, round after round, until nothing grows.
-/

namespace FluentGrammar

/-- A transition: the symbol and the state entered. -/
abbrev Transition := Symbol × Nat

/-- A state of the automaton. -/
structure ItemState where
  kernel : ItemSet
  transitions : List Transition
  deriving Repr

namespace Analysis

/-- Puts a symbol into its place. -/
def insertSymbol (x : Symbol) : List Symbol → List Symbol
  | [] => [x]
  | y :: rest =>
    if x = y then y :: rest
    else if x.le y then x :: y :: rest
    else y :: insertSymbol x rest

/-- The symbols that come next in some of the items, in order. -/
def nextSymbols (a : Analysis) (items : List Item) : List Symbol :=
  (items.filterMap a.next?).foldr insertSymbol []

/-- The kernels that items lead to, by symbol. -/
def moves (a : Analysis) (items : List Item) : List (Symbol × List Item) :=
  (a.nextSymbols items).map fun x =>
    (x, (items.filter fun i => a.next? i == some x).map Item.advance)

/-- The items of the closure of a kernel. -/
def closureItems (a : Analysis) (kernel : List Item) : List Item :=
  (a.closure (kernel.map fun i => (i, []))).items

/-- Numbers the kernels that a state leads to. New ones go to the end. -/
def enter : List (Symbol × List Item) → Array (List Item) → List Transition × Array (List Item)
  | [], kernels => ([], kernels)
  | (x, kernel) :: rest, kernels =>
    match kernels.findIdx? (· == kernel) with
    | some target =>
      let (others, kernels) := enter rest kernels
      ((x, target) :: others, kernels)
    | none =>
      let (others, kernels') := enter rest (kernels.push kernel)
      ((x, kernels.size) :: others, kernels')

/-- Explores the states from number `state` on. -/
def explore (a : Analysis) :
    Nat → Nat → Array (List Item) → List (List Transition) →
      Array (List Item) × List (List Transition)
  | 0, _, kernels, rows => (kernels, rows.reverse)
  | fuel + 1, state, kernels, rows =>
    match kernels[state]? with
    | none => (kernels, rows.reverse)
    | some kernel =>
      let (row, kernels) := enter (a.moves (a.closureItems kernel)) kernels
      a.explore fuel (state + 1) kernels (row :: rows)

/-- The kernel of the first state. -/
def startItem (a : Analysis) : Item := ⟨a.accept, 0⟩

/-- The number of items of all productions. -/
def itemCount (a : Analysis) : Nat :=
  (a.grammar.productions.flatMap (·.rhs)).length + a.grammar.productions.length

/-- The kernels and the transitions. There are no more states than sets of items. -/
def skeleton (a : Analysis) : Array (List Item) × List (List Transition) :=
  a.explore (Nat.pow 2 a.itemCount + 1) 0 #[[a.startItem]] []

/-- Passes the lookaheads of a closure along one transition. -/
def pass (a : Analysis) (closure : ItemSet) (kernels : Array ItemSet) (t : Transition) :
    Array ItemSet :=
  kernels.modify t.2 fun target =>
    closure.foldl (fun target (i, ts) =>
      if a.next? i == some t.1 then target.add i.advance ts else target) target

/-- Passes lookaheads along all transitions once. -/
def passAll (a : Analysis) (rows : List (List Transition)) (kernels : Array ItemSet) :
    Array ItemSet :=
  rows.zipIdx.foldl (fun kernels (row, state) =>
    row.foldl (a.pass (a.closure (kernels.getD state []))) kernels) kernels

/-- Passes lookaheads until nothing grows. -/
def settle (a : Analysis) (rows : List (List Transition)) :
    Nat → Array ItemSet → Array ItemSet
  | 0, kernels => kernels
  | fuel + 1, kernels =>
    let next := a.passAll rows kernels
    if next = kernels then kernels else a.settle rows fuel next

/-- The states of the automaton in order. Only the end of input follows a whole sentence. -/
def states (a : Analysis) : List ItemState :=
  let (kernels, rows) := a.skeleton
  let first : ItemSet := [(a.startItem, [a.grammar.endTerminal])]
  let blank := (kernels.map fun kernel => kernel.map fun i => (i, [])).setIfInBounds 0 first
  let capacity := kernels.toList.flatten.length * a.grammar.terminals.length
  let settled := a.settle rows (capacity + 1) blank
  settled.toList.zipWith (fun kernel transitions => ⟨kernel, transitions⟩) rows

end Analysis

end FluentGrammar
