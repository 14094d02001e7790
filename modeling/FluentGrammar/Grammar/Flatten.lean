import FluentGrammar.Grammar.Basic
import FluentGrammar.Rules.Basic

/-
  Flattening: rules become a right-linear grammar by threading what comes after an expression. An
  expression with a continuation becomes a nonterminal that derives the expression followed by
  what the continuation derives, so every production is a terminal and a nonterminal, or a
  nonterminal alone, and only the final continuation derives nothing.

  A rule is expanded once for every continuation it meets. A reference to a rule that is being
  expanded reuses its nonterminal when the continuation is the same, which is a call in tail
  position, and otherwise the language is not regular. As many rules may be open at a time as
  there are rules.
-/

namespace FluentGrammar

namespace Flatten

/-- The rule that refers to itself outside tail position. -/
structure NotRegular where
  rule : RuleId
  deriving Repr

/-- The grammar so far. -/
structure State where
  grammar : Grammar
  /-- The nonterminals of rules with continuations. -/
  expansions : List ((RuleId × NonterminalId) × NonterminalId)
  /-- Rules whose bodies are being expanded. -/
  active : List RuleId
  /-- Rules that have given their name to a nonterminal. -/
  named : List RuleId
  /-- For every rule, how many numbered nonterminals it has. -/
  counters : List Nat

namespace State

/-- A nonterminal with the next number of a rule. -/
def fresh (rules : Rules) (owner : RuleId) (s : State) : NonterminalId × State :=
  let number := s.counters.getD owner 0 + 1
  let rule := rules.rule owner
  let (n, grammar) := s.grammar.addNonterminal (rule.name ++ "." ++ toString number) rule.span
  (n, { s with grammar, counters := s.counters.set owner number })

/-- A production of a rule. -/
def produce (rules : Rules) (owner : RuleId) (lhs : NonterminalId) (rhs : List Symbol)
    (s : State) : State :=
  { s with grammar := s.grammar.addProduction lhs rhs (rules.rule owner).span }

/-- The nonterminal of a rule: the rule's own name the first time, a numbered one after. -/
def ruleNonterminal (rules : Rules) (r : RuleId) (s : State) : NonterminalId × State :=
  if s.named.contains r then s.fresh rules r
  else
    let rule := rules.rule r
    let (n, grammar) := s.grammar.addNonterminal rule.name rule.span
    (n, { s with grammar, named := r :: s.named })

end State

/-- A nonterminal and the grammar that has it. -/
abbrev Result := Except NotRegular (NonterminalId × State)

section

variable (rules : Rules) (expandRule : RuleId → NonterminalId → State → Result)

mutual

/-- The nonterminal of an expression of rule `owner` with a continuation. -/
def expand (owner : RuleId) : Expr → NonterminalId → State → Result
  | .empty, next, s => .ok (next, s)
  | .terminal t, next, s =>
    let (n, s) := s.fresh rules owner
    .ok (n, s.produce rules owner n [.terminal t, .nonterminal next])
  | .rule r, next, s => expandRule r next s
  | .seq items, next, s => expandSeq owner items next s
  | .alt branches, next, s => do
    let (n, s) := s.fresh rules owner
    let s ← expandAlt owner n branches next s
    return (n, s)
  | .repeated inner .zeroOrMore, next, s => do
    let (n, s) := s.fresh rules owner
    let (body, s) ← expand owner inner n s
    let s := s.produce rules owner n [.nonterminal body]
    return (n, s.produce rules owner n [.nonterminal next])
  | .repeated inner .oneOrMore, next, s => do
    let (once, s) := s.fresh rules owner
    let (again, s) := s.fresh rules owner
    let (body, s) ← expand owner inner again s
    let s := s.produce rules owner once [.nonterminal body]
    let s := s.produce rules owner again [.nonterminal once]
    return (once, s.produce rules owner again [.nonterminal next])
  | .repeated inner .optional, next, s => do
    let (n, s) := s.fresh rules owner
    let (body, s) ← expand owner inner next s
    let s := s.produce rules owner n [.nonterminal body]
    return (n, s.produce rules owner n [.nonterminal next])

/-- The nonterminal of a sequence, built from its end. -/
def expandSeq (owner : RuleId) : List Expr → NonterminalId → State → Result
  | [], next, s => .ok (next, s)
  | item :: rest, next, s => do
    let (after, s) ← expandSeq owner rest next s
    expand owner item after s

/-- The productions of an alternation's nonterminal `n`. -/
def expandAlt (owner : RuleId) (n : NonterminalId) :
    List Expr → NonterminalId → State → Except NotRegular State
  | [], _, s => .ok s
  | branch :: rest, next, s => do
    let (target, s) ← expand owner branch next s
    expandAlt owner n rest next (s.produce rules owner n [.nonterminal target])

end

end

/-- The nonterminal of a rule with a continuation. `room` is how many more rules may be open. -/
def expandRule (rules : Rules) : Nat → RuleId → NonterminalId → State → Result
  | room, r, next, s =>
    match s.expansions.lookup (r, next) with
    | some n => .ok (n, s)
    | none =>
      if s.active.contains r then .error ⟨r⟩
      else match room with
        | 0 => .error ⟨r⟩
        | room + 1 => do
          let (n, s) := s.ruleNonterminal rules r
          let s := { s with
            expansions := ((r, next), n) :: s.expansions, active := r :: s.active }
          let (body, s) ← expand rules (expandRule rules room) r (rules.rule r).body next s
          let s := { s with active := s.active.drop 1 }
          return (n, s.produce rules r n [.nonterminal body])

/-- The name of the final continuation. -/
def finishName : String := "$finish"

end Flatten

open Flatten in
/-- The right-linear grammar of rules. -/
def Rules.flatten (rules : Rules) (catalog : Catalog) : Except NotRegular Grammar := do
  let span := (rules.rule Rules.start).span
  let (finish, grammar) := (Grammar.ofCatalog catalog).addNonterminal finishName span
  let grammar := grammar.addProduction finish [] span
  let state : State := ⟨grammar, [], [], [], rules.rules.map fun _ => 0⟩
  let (start, state) ← expandRule rules rules.size Rules.start finish state
  return { state.grammar with start }

end FluentGrammar
