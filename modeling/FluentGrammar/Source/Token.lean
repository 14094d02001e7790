import FluentGrammar.Span

/-
  Tokens of the grammar language: punctuation, names, and the trivia between them. Whatever no
  token class matches is garbage.
-/

namespace FluentGrammar.Source

/-- The classes of tokens. -/
inductive TokenKind where
  | parenOpen
  | parenClose
  | colon
  | semicolon
  | pipe
  | star
  | plus
  | question
  /-- The name of a rule or the id of an action. -/
  | name
  /-- A run of blanks and tabs. -/
  | blank
  | newline
  | lineComment
  | blockComment
  /-- A run of characters that belong to no other class. -/
  | garbage
  deriving Repr, DecidableEq, Inhabited

namespace TokenKind

/-- Tokens without meaning for the grammar. -/
def isTrivia : TokenKind → Bool
  | blank | newline | lineComment | blockComment => true
  | _ => false

/-- Tokens that begin an atom. -/
def startsAtom : TokenKind → Bool
  | name | parenOpen => true
  | _ => false

/-- Marks of repetition. -/
def isQuantifier : TokenKind → Bool
  | star | plus | question => true
  | _ => false

/-- Tokens that end a branch without being part of it. -/
def endsBranch : TokenKind → Bool
  | pipe | semicolon | parenClose => true
  | _ => false

/-- The name of the class in outlines. -/
def label : TokenKind → String
  | parenOpen => "ParenOpen"
  | parenClose => "ParenClose"
  | colon => "Colon"
  | semicolon => "Semicolon"
  | pipe => "Pipe"
  | star => "Star"
  | plus => "Plus"
  | question => "Question"
  | name => "Id"
  | blank => "Whitespace"
  | newline => "Newline"
  | lineComment => "LineComment"
  | blockComment => "BlockComment"
  | garbage => "Garbage"

end TokenKind

/-- A piece of the source with its class. -/
structure Token where
  kind : TokenKind
  text : String
  span : Span
  deriving Repr, DecidableEq, Inhabited

end FluentGrammar.Source
