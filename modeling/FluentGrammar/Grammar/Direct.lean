import FluentGrammar.Grammar.Basic
import FluentGrammar.Rules.Basic

/-
  Direct lowering: rule `i` becomes nonterminal `i` with a production for every branch, and nested
  alternations and repetitions become numbered nonterminals of their rule.
-/

namespace FluentGrammar

namespace Direct

/-- The grammar so far, and for every rule how many numbered nonterminals it has. -/
structure State where
  grammar : Grammar
  counters : List Nat

namespace State

/-- A nonterminal with the next number of a rule. -/
def fresh (rules : Rules) (owner : RuleId) (s : State) : NonterminalId × State :=
  let number := s.counters.getD owner 0 + 1
  let rule := rules.rule owner
  let (n, grammar) := s.grammar.addNonterminal (rule.name ++ "." ++ toString number) rule.span
  (n, ⟨grammar, s.counters.set owner number⟩)

/-- A production of a rule. -/
def produce (rules : Rules) (owner : RuleId) (lhs : NonterminalId) (rhs : List Symbol)
    (s : State) : State :=
  { s with grammar := s.grammar.addProduction lhs rhs (rules.rule owner).span }

end State

/-- The right-hand sides of a repetition's nonterminal `n` over a body. -/
def repetitionSides (n : NonterminalId) (body : List Symbol) : Repetition → List (List Symbol)
  | .zeroOrMore => [body ++ [.nonterminal n], []]
  | .oneOrMore => [body ++ [.nonterminal n], body]
  | .optional => [body, []]

mutual

/-- The symbols of an expression of rule `owner`. -/
def symbols (rules : Rules) (owner : RuleId) : Expr → State → List Symbol × State
  | .empty, s => ([], s)
  | .terminal t, s => ([.terminal t], s)
  | .rule r, s => ([.nonterminal r], s)
  | .seq items, s => symbolsOfAll rules owner items s
  | .alt branches, s =>
    let (n, s) := s.fresh rules owner
    ([.nonterminal n], produceAll rules owner n branches s)
  | .repeated inner repetition, s =>
    let (n, s) := s.fresh rules owner
    let (body, s) := symbols rules owner inner s
    let s := (repetitionSides n body repetition).foldl
      (fun s rhs => s.produce rules owner n rhs) s
    ([.nonterminal n], s)

/-- The symbols of a sequence. -/
def symbolsOfAll (rules : Rules) (owner : RuleId) : List Expr → State → List Symbol × State
  | [], s => ([], s)
  | item :: rest, s =>
    let (first, s) := symbols rules owner item s
    let (others, s) := symbolsOfAll rules owner rest s
    (first ++ others, s)

/-- A production of `lhs` for every branch. -/
def produceAll (rules : Rules) (owner : RuleId) (lhs : NonterminalId) : List Expr → State → State
  | [], s => s
  | branch :: rest, s =>
    let (rhs, s) := symbols rules owner branch s
    produceAll rules owner lhs rest (s.produce rules owner lhs rhs)

end

end Direct

open Direct in
/-- The grammar with a nonterminal for every rule. -/
def Rules.direct (rules : Rules) (catalog : Catalog) : Grammar :=
  let grammar := rules.rules.foldl (fun g rule => (g.addNonterminal rule.name rule.span).2)
    (Grammar.ofCatalog catalog)
  let state : State := ⟨grammar, rules.rules.map fun _ => 0⟩
  let state := rules.rules.zipIdx.foldl
    (fun s (rule, r) => produceAll rules r r rule.body.branches s) state
  { state.grammar with start := Rules.start }

end FluentGrammar
