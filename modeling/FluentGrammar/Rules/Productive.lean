import FluentGrammar.Rules.Basic

/-
  Productive rules: those with a derivation that ends in actions, or in nothing, without
  expanding rules forever. Rules become known in rounds, and after as many rounds as there are
  rules nothing changes.
-/

namespace FluentGrammar

namespace Expr

mutual

/-- The expression can finish deriving when the rules in `known` can. -/
def finishes (known : List Bool) : Expr → Bool
  | empty | terminal _ => true
  | rule r => known.getD r false
  | seq items => allFinish known items
  | alt bs => anyFinishes known bs
  | repeated inner .oneOrMore => finishes known inner
  | repeated _ .zeroOrMore | repeated _ .optional => true

/-- All of the expressions can finish. -/
def allFinish (known : List Bool) : List Expr → Bool
  | [] => true
  | e :: es => finishes known e && allFinish known es

/-- Some of the expressions can finish. -/
def anyFinishes (known : List Bool) : List Expr → Bool
  | [] => false
  | e :: es => finishes known e || anyFinishes known es

end

end Expr

namespace Rules

/-- The rules that can finish by way of rules known before. -/
def finishing (g : Rules) (known : List Bool) : List Bool :=
  g.rules.map fun rule => rule.body.finishes known

/-- The rules known after a number of rounds. -/
def knownAfter (g : Rules) : Nat → List Bool
  | 0 => g.rules.map fun _ => false
  | n + 1 => g.finishing (g.knownAfter n)

/-- For every rule, whether it is productive. -/
def productive (g : Rules) : List Bool := g.knownAfter g.size

end Rules

end FluentGrammar
