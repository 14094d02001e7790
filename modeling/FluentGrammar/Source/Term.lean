import FluentGrammar.Repetition
import FluentGrammar.Source.Tree

/-
  The meaning of source trees: rules with names and bodies, or one expression. Terms keep the
  span of everything that was read inside them and pass over trivia and error nodes.
-/

namespace FluentGrammar.Source

/-- Expressions as written. -/
inductive Term where
  | ref (range : Span) (name : Token)
  | group (range : Span) (body : Term)
  | quantified (range : Span) (repetition : Repetition) (inner : Term)
  | sequence (range : Span) (items : List Term)
  | choice (range : Span) (branches : List Term)
  deriving Repr, Inhabited

/-- A rule as written. -/
structure RuleTerm where
  range : Span
  name : Token
  body : Term
  deriving Repr

/-- A source as written: an expression or rules. -/
structure Document where
  range : Span
  expr : Option Term
  rules : List RuleTerm
  deriving Repr

/-- The span of a term. -/
def Term.range : Term → Span
  | ref r _ | group r _ | quantified r _ _ | sequence r _ | choice r _ => r

/-- The repetition that a token marks. -/
def TokenKind.repetition? : TokenKind → Option Repetition
  | star => some .zeroOrMore
  | plus => some .oneOrMore
  | question => some .optional
  | _ => none

namespace Tree

mutual

/-- Where a tree ends that begins at `start`. -/
def stop (start : Nat) : Tree → Nat
  | token t => t.span.stop
  | node _ children => stopOfAll start children

/-- Where a row of trees ends that begins at `start`. -/
def stopOfAll (start : Nat) : List Tree → Nat
  | [] => start
  | t :: rest => stopOfAll (stop start t) rest

end

/-- The first token of a class directly in a node. -/
def tokenOf? (kind : TokenKind) (children : List Tree) : Option Token :=
  children.findSome? fun
    | token t => if t.kind == kind then some t else none
    | node _ _ => none

/-- The first mark of repetition directly in a node. -/
def markOf? (children : List Tree) : Option Repetition :=
  children.findSome? fun
    | token t => t.kind.repetition?
    | node _ _ => none

mutual

/-- The term of a tree that begins at `start`. -/
def term? (start : Nat) : Tree → Option Term
  | token _ => none
  | node kind children =>
    let range : Span := ⟨start, stopOfAll start children⟩
    let inner := terms start children
    match kind with
    | .ref => (tokenOf? .name children).map (.ref range)
    | .group => inner.head?.map (.group range)
    | .quantifier => do return .quantified range (← markOf? children) (← inner.head?)
    | .branch => some (.sequence range inner)
    | .alt => some (.choice range inner)
    | .root | .rule | .error => none

/-- The terms of a row of trees that begins at `start`. -/
def terms (start : Nat) : List Tree → List Term
  | [] => []
  | t :: rest => (term? start t).toList ++ terms (stop start t) rest

end

/-- The rule of a tree that begins at `start`. -/
def ruleTerm? (start : Nat) : Tree → Option RuleTerm
  | node .rule children => do
    return ⟨⟨start, stopOfAll start children⟩, ← tokenOf? .name children,
      ← (terms start children).head?⟩
  | _ => none

/-- The rules of a row of trees that begins at `start`. -/
def ruleTerms (start : Nat) : List Tree → List RuleTerm
  | [] => []
  | t :: rest => (ruleTerm? start t).toList ++ ruleTerms (stop start t) rest

/-- What the tree of a source says. -/
def document : Tree → Document
  | node _ children => ⟨⟨0, stopOfAll 0 children⟩, (terms 0 children).head?, ruleTerms 0 children⟩
  | token t => ⟨t.span, none, []⟩

end Tree

end FluentGrammar.Source
