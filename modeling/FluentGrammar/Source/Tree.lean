import FluentGrammar.Source.Token
import FluentGrammar.Text.Glyph
import FluentGrammar.Text.Lines

/-
  Source trees. A tree keeps every token of the source, trivia and garbage included, so its leaves
  read from left to right are the tokens. The outline leaves out trivia.
-/

namespace FluentGrammar.Source

/-- The classes of inner nodes. -/
inductive NodeKind where
  | root
  | rule
  | alt
  | branch
  | group
  | quantifier
  | ref
  /-- Tokens that the grammar has no place for. -/
  | error
  deriving Repr, DecidableEq, Inhabited

/-- The name of the class in outlines. -/
def NodeKind.label : NodeKind → String
  | root => "Root"
  | rule => "Rule"
  | alt => "Alt"
  | branch => "Branch"
  | group => "Group"
  | quantifier => "Quantifier"
  | ref => "Ref"
  | error => "Error"

/-- A token or a node over trees. -/
inductive Tree where
  | token (token : Token)
  | node (kind : NodeKind) (children : List Tree)
  deriving Repr, Inhabited

namespace Tree

mutual

/-- The tokens of a tree from left to right. -/
def leaves : Tree → List Token
  | token t => [t]
  | node _ children => leavesOfAll children

/-- The tokens of several trees. -/
def leavesOfAll : List Tree → List Token
  | [] => []
  | t :: rest => leaves t ++ leavesOfAll rest

end

/-- Tokens as leaves. -/
def ofTokens (ts : List Token) : List Tree := ts.map token

/-- Indentation at a depth. -/
def indentation (depth : Nat) : String := String.ofList (List.replicate (2 * depth) ' ')

mutual

/-- The lines of the outline of a tree. -/
def outline (depth : Nat) : Tree → List String
  | token t =>
    if t.kind.isTrivia then []
    else [indentation depth ++ t.kind.label ++ " " ++ Text.quoted t.text]
  | node kind children => (indentation depth ++ kind.label) :: outlineOfAll (depth + 1) children

/-- The lines of the outlines of several trees. -/
def outlineOfAll (depth : Nat) : List Tree → List String
  | [] => []
  | t :: rest => outline depth t ++ outlineOfAll depth rest

end

/-- The outline of a tree. -/
def dump (t : Tree) : String := Text.unlines (t.outline 0)

end Tree

end FluentGrammar.Source
