import FluentGrammar.CompileError
import FluentGrammar.Reach
import FluentGrammar.Rules.Basic
import FluentGrammar.Source.Term

/-
  Resolving names. A name in a rule body refers to the rule of that name, or else to the action
  with that id, or else it is undefined. Only the first rule of a name counts, and a rule may
  shadow an action. Rules that no chain of references reaches from the start rule are reported.
-/

namespace FluentGrammar

open Report Source

/-- A rule whose body is not resolved yet. -/
structure Declaration where
  name : String
  span : Span
  body : Term
  /-- Names in rule bodies may refer to the rule. -/
  named : Bool
  deriving Repr

namespace Declaration

/-- The name of the rule that stands for a source without rules. -/
def implicitName : String := "syntax"

/-- The declaration of a name. -/
def find? (ds : List Declaration) (name : String) : Option Declaration :=
  ds.find? (·.name == name)

/-- The first rule of every name, and reports on repeated names and shadowed actions. -/
def ofRules (catalog : Catalog) :
    List Declaration → List RuleTerm → List Declaration × List Diagnostic
  | declared, [] => (declared, [])
  | declared, r :: rest =>
    let name := r.name.text
    let span := r.name.span
    match find? declared name with
    | some first =>
      let (declared, ds) := ofRules catalog declared rest
      (declared, (Diagnostic.about .duplicateRule span name).relatedTo "first defined here"
        first.span :: ds)
    | none =>
      let (all, ds) := ofRules catalog (declared ++ [⟨name, span, r.body, true⟩]) rest
      let shadowing := (catalog.lookup? name).isSome
      (all, if shadowing then Diagnostic.about .shadowedAction span name :: ds else ds)

/-- The declarations of a source and the reports on them. An expression without rules is the
    body of an implicit rule, which no name refers to. -/
def ofDocument (catalog : Catalog) (d : Document) : List Declaration × List Diagnostic :=
  let (declared, ds) := ofRules catalog [] d.rules
  ((d.expr.map fun body => ⟨implicitName, body.range, body, false⟩).toList ++ declared, ds)

end Declaration

/-- What a name stands for. -/
inductive Meaning where
  | rule (r : RuleId)
  | action (t : TerminalId)
  deriving Repr, DecidableEq

/-- The expression that refers to a meaning. -/
def Meaning.expr : Meaning → Expr
  | rule r => .rule r
  | action t => .terminal t

/-- The meaning of a name, given the rules. -/
def Meaning.of? (catalog : Catalog) (declared : List Declaration) (name : String) :
    Option Meaning :=
  match declared.findIdx? fun d => d.named && d.name == name with
  | some r => some (.rule r)
  | none => (catalog.lookup? name).map .action

namespace Source.Term

mutual

/-- The names that a term mentions, in order. -/
def names : Term → List Token
  | ref _ name => [name]
  | group _ body => names body
  | quantified _ _ inner => names inner
  | sequence _ items => namesOfAll items
  | choice _ branches => namesOfAll branches

/-- The names that several terms mention. -/
def namesOfAll : List Term → List Token
  | [] => []
  | t :: rest => names t ++ namesOfAll rest

end

mutual

/-- The expression of a term. A name without meaning gives the empty expression. -/
def expr (meaning : String → Option Meaning) : Term → Expr
  | ref _ name => ((meaning name.text).map (·.expr)).getD .empty
  | group _ body => expr meaning body
  | quantified _ repetition inner => .repeated (expr meaning inner) repetition
  | sequence _ items => .ofItems (exprs meaning items)
  | choice _ branches => .ofBranches (exprs meaning branches)

/-- The expressions of several terms. -/
def exprs (meaning : String → Option Meaning) : List Term → List Expr
  | [] => []
  | t :: rest => expr meaning t :: exprs meaning rest

end

end Source.Term

namespace Rules

/-- The rules that references lead to from the start rule. -/
def used (g : Rules) : List RuleId :=
  reachableFrom g.refsOf (g.rules.flatMap (·.body.refs)).length start

/-- A report for every rule that is not used. -/
def unused (g : Rules) : List Diagnostic :=
  let used := g.used
  (g.rules.zipIdx.filter fun (_, r) => !used.contains r).map fun (rule, _) =>
    Diagnostic.about .unusedRule rule.span rule.name

/-- The rules of a source over a catalog, with warnings. -/
def ofDocument (catalog : Catalog) (d : Document) :
    Except CompileError (Rules × List Diagnostic) :=
  let (declared, reports) := Declaration.ofDocument catalog d
  if declared.isEmpty then
    .error (.invalidGrammar (reports ++ [Diagnostic.of .emptyGrammar (.empty 0)]))
  else
    let meaning := Meaning.of? catalog declared
    let undefined := (declared.flatMap (·.body.names)).filter fun n => (meaning n.text).isNone
    let rules : Rules := ⟨declared.map fun r => ⟨r.name, r.span, r.body.expr meaning⟩⟩
    let reports := reports ++
      undefined.map (fun n => Diagnostic.about .undefinedSymbol n.span n.text) ++ rules.unused
    match undefined with
    | n :: _ => .error (.undefinedSymbol n.text reports)
    | [] =>
      if Diagnostic.anyError reports then .error (.invalidGrammar reports)
      else .ok (rules, reports)

end Rules

end FluentGrammar
