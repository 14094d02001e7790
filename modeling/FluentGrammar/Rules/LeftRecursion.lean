import FluentGrammar.CompileError
import FluentGrammar.Rules.Basic

/-
  Direct left recursion becomes repetition: the rule `r : r a | r b | c | d` becomes
  `r : (c | d) (a | b)*`. A branch that is nothing but `r` derives nothing new and is dropped. A
  rule whose every branch begins with itself has no base case.
-/

namespace FluentGrammar

open Report

namespace LeftRecursion

/-- For a branch that begins with rule `r`, what follows it: `some none` when nothing does. -/
def tail? (r : RuleId) : Expr → Option (Option Expr)
  | .rule s => if s == r then some none else none
  | .seq (.rule s :: rest) =>
    if s == r then
      some (some (match rest with
        | [single] => single
        | _ => .seq rest))
    else none
  | _ => none

/-- What becomes of a body. -/
inductive Outcome where
  /-- No branch begins with the rule. -/
  | kept
  /-- Every branch begins with the rule. -/
  | noBase
  | replaced (body : Expr)

/-- What becomes of the body of rule `r`. -/
def Outcome.ofBody (r : RuleId) (body : Expr) : Outcome :=
  let bases := body.branches.filter fun b => (tail? r b).isNone
  let tails := body.branches.filterMap fun b => (tail? r b).join
  if body.branches.all fun b => (tail? r b).isNone then .kept
  else if bases.isEmpty then .noBase
  else if tails.isEmpty then .replaced (.ofBranches bases)
  else .replaced (.seq [.ofBranches bases, .repeated (.ofBranches tails) .zeroOrMore])

end LeftRecursion

namespace Rules

open LeftRecursion

/-- The rules without direct left recursion, and a report for every rule without a base case. -/
def withoutLeftRecursion (g : Rules) : Rules × List Diagnostic :=
  let outcomes := g.rules.zipIdx.map fun (rule, r) => (rule, Outcome.ofBody r rule.body)
  (⟨outcomes.map fun (rule, outcome) =>
      match outcome with
      | .replaced body => { rule with body }
      | _ => rule⟩,
    outcomes.filterMap fun (rule, outcome) =>
      match outcome with
      | .noBase => some (Diagnostic.about .leftRecursionNoBase rule.span rule.name)
      | _ => none)

end Rules

end FluentGrammar
