/-
  Token trees of builder code: words, literals and single marks, and groups of trees between
  matching delimiters. A lifetime is a mark and a word.
-/

namespace FluentGrammar.Expansion

/-- A pair of brackets. -/
inductive Delimiter where
  | parenthesis
  | bracket
  | brace
  deriving Repr, DecidableEq

namespace Delimiter

/-- The opening bracket. -/
def opening : Delimiter → String
  | parenthesis => "("
  | bracket => "["
  | brace => "\x7b"

/-- The closing bracket. -/
def closing : Delimiter → String
  | parenthesis => ")"
  | bracket => "]"
  | brace => "\x7d"

/-- The pair that a character opens. -/
def ofOpening? : Char → Option Delimiter
  | '(' => some parenthesis
  | '[' => some bracket
  | '\x7b' => some brace
  | _ => none

/-- The pair that a character closes. -/
def ofClosing? : Char → Option Delimiter
  | ')' => some parenthesis
  | ']' => some bracket
  | '\x7d' => some brace
  | _ => none

end Delimiter

/-- A token tree. -/
inductive TokenTree where
  | word (text : String)
  | literal (text : String)
  | mark (char : Char)
  | group (delimiter : Delimiter) (trees : List TokenTree)
  deriving Repr, Inhabited

namespace TokenTree

/-- The tree is this word. -/
def isWord (t : TokenTree) (text : String) : Bool :=
  match t with
  | word w => w == text
  | _ => false

/-- The tree is this mark. -/
def isMark (t : TokenTree) (char : Char) : Bool :=
  match t with
  | mark c => c == char
  | _ => false

/-- The tree is a group in braces. -/
def isBraces : TokenTree → Bool
  | group .brace _ => true
  | _ => false

/-- Braces or a semicolon end an item. -/
def isItemEnd (t : TokenTree) : Bool := t.isBraces || t.isMark ';'

mutual

/-- The tokens of a tree. -/
def texts : TokenTree → List String
  | word text | literal text => [text]
  | mark char => [char.toString]
  | group d trees => d.opening :: textsOfAll trees ++ [d.closing]

/-- The tokens of several trees. -/
def textsOfAll : List TokenTree → List String
  | [] => []
  | t :: rest => texts t ++ textsOfAll rest

end

/-- Tokens joined by blanks, except that a lifetime stays together. -/
def joinTexts : List String → String
  | [] => ""
  | [text] => text
  | text :: rest => (if text == "'" then text else text ++ " ") ++ joinTexts rest

/-- Trees as code that reads back as the same trees. -/
def code (trees : List TokenTree) : String := joinTexts (textsOfAll trees)

/-- Trees with every two tokens apart. -/
def spaced (trees : List TokenTree) : String := " ".intercalate (textsOfAll trees)

end TokenTree

end FluentGrammar.Expansion
