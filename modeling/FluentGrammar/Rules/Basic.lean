import FluentGrammar.Catalog.Basic
import FluentGrammar.Repetition
import FluentGrammar.Span

/-
  Rules over actions: each rule has a name and a body, an expression over actions and rules. The
  first rule is the start rule.
-/

namespace FluentGrammar

/-- The index of a rule. -/
abbrev RuleId := Nat

/-- Expressions over actions and rules. -/
inductive Expr where
  | empty
  | terminal (t : TerminalId)
  | rule (r : RuleId)
  | seq (items : List Expr)
  | alt (branches : List Expr)
  | repeated (inner : Expr) (repetition : Repetition)
  deriving Repr, Inhabited, BEq

namespace Expr

/-- The alternatives at the top; an expression that is no alternation is its own. -/
def branches : Expr → List Expr
  | alt bs => bs
  | e => [e]

/-- One expression is itself, and any other number of them are alternatives. -/
def ofBranches : List Expr → Expr
  | [e] => e
  | es => alt es

/-- No expression is empty, one is itself, and more are a sequence. -/
def ofItems : List Expr → Expr
  | [] => empty
  | [e] => e
  | es => seq es

mutual

/-- The rules that an expression refers to, in order. -/
def refs : Expr → List RuleId
  | empty | terminal _ => []
  | rule r => [r]
  | seq items => refsOfAll items
  | alt bs => refsOfAll bs
  | repeated inner _ => refs inner

/-- The rules that several expressions refer to. -/
def refsOfAll : List Expr → List RuleId
  | [] => []
  | e :: es => refs e ++ refsOfAll es

end

end Expr

/-- A rule. -/
structure Rule where
  name : String
  span : Span
  body : Expr
  deriving Repr, Inhabited, BEq

/-- Rules in order. -/
structure Rules where
  rules : List Rule
  deriving Repr, Inhabited, BEq

namespace Rules

/-- The start rule. -/
def start : RuleId := 0

/-- The number of rules. -/
def size (g : Rules) : Nat := g.rules.length

/-- The rule at an index, which must be in range. -/
def rule (g : Rules) (r : RuleId) : Rule := g.rules.getD r default

/-- The rules that the body of a rule refers to. -/
def refsOf (g : Rules) (r : RuleId) : List RuleId := (g.rule r).body.refs

end Rules

end FluentGrammar
