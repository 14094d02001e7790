import FluentGrammar.Grammar.Direct
import FluentGrammar.Grammar.Flatten
import FluentGrammar.Rules.LeftRecursion
import FluentGrammar.Rules.Productive

/-
  Lowering rules to a grammar: direct left recursion is removed, a start rule that can never
  finish is refused, and then the rules are flattened or lowered directly. Rules that cannot be
  flattened are lowered directly with a warning.
-/

namespace FluentGrammar

open Report

/-- How rules become productions. -/
inductive Lowering where
  /-- A right-linear grammar, where the rules allow it. -/
  | flatten
  /-- A nonterminal for every rule. -/
  | direct
  deriving Repr, DecidableEq, Inhabited

/-- The grammar of rules, with warnings. -/
def Rules.lower (rules : Rules) (catalog : Catalog) (lowering : Lowering) :
    Except CompileError (Grammar × List Diagnostic) :=
  let (rules, reports) := rules.withoutLeftRecursion
  if Diagnostic.anyError reports then .error (.invalidGrammar reports)
  else if !rules.productive.getD Rules.start false then
    let start := rules.rule Rules.start
    .error (.invalidGrammar
      (reports ++ [Diagnostic.about .unproductiveStart start.span start.name]))
  else match lowering with
    | .direct => .ok (rules.direct catalog, reports)
    | .flatten =>
      match rules.flatten catalog with
      | .ok grammar => .ok (grammar, reports)
      | .error ⟨r⟩ =>
        let rule := rules.rule r
        .ok (rules.direct catalog,
          reports ++ [Diagnostic.about .nonRegularGrammar rule.span rule.name])

end FluentGrammar
