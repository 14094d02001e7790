import FluentGrammar.Text.Letter

/-
  Names of operations: the pascal case form of a builder method, the snake case form of an
  operation, and the escape of a name that is a keyword of the generated code.
-/

namespace FluentGrammar.Text

/-- An underscore or a hyphen, which separate words. -/
def isSeparator (c : Char) : Bool := c == '_' || c == '-'

/-- Drops separators and raises the first character of every word. `atStart` tells that a word
    may begin here. -/
def pascalChars : Bool → List Char → List Char
  | _, [] => []
  | atStart, c :: rest =>
    if isSeparator c then pascalChars true rest
    else (if atStart then raised c else [c]) ++ pascalChars false rest

/-- Words joined with their first letters raised: `set_circle_radius` gives `SetCircleRadius`. -/
def pascalCase (name : String) : String := String.ofList (pascalChars true name.toList)

/-- An upper case letter after `prev` and before `next` begins a word: it follows a lower case
    letter or a digit, or it ends a run of capitals before a lower case letter. -/
def startsWord (prev next : Option Char) : Bool :=
  match prev with
  | none => false
  | some p => isLower p || p.isDigit || (isUpper p && next.any isLower)

/-- Lowers every capital, with an underscore before those that begin a word. -/
def snakeChars : Option Char → List Char → List Char
  | _, [] => []
  | prev, c :: rest =>
    (if c == '-' then ['_']
      else if isUpper c then
        (if startsWord prev rest.head? then ['_'] else []) ++ lowered c
      else [c]) ++ snakeChars (some c) rest

/-- Words in lower case with underscores between: `HTTPServer` gives `http_server`. -/
def snakeCase (name : String) : String := String.ofList (snakeChars none name.toList)

/-- Names with a meaning of their own in the generated code. -/
def keywords : List String := [
  "as", "async", "await", "break", "const", "continue", "crate", "dyn", "else", "enum", "extern",
  "false", "fn", "for", "gen", "if", "impl", "in", "let", "loop", "match", "mod", "move", "mut",
  "pub", "ref", "return", "self", "Self", "static", "struct", "super", "trait", "true", "type",
  "unsafe", "use", "where", "while", "abstract", "become", "box", "do", "final", "macro",
  "override", "priv", "try", "typeof", "unsized", "virtual", "yield"]

/-- Keywords that have no raw form. -/
def pathKeywords : List String := ["self", "Self", "super", "crate"]

/-- The name as an identifier: keywords become raw identifiers, or get an underscore where no raw
    form exists. -/
def escapeKeyword (name : String) : String :=
  if pathKeywords.contains name then name ++ "_"
  else if keywords.contains name then "r#" ++ name
  else name

end FluentGrammar.Text
