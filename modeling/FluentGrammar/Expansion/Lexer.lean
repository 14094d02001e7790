import FluentGrammar.Expansion.Literal
import FluentGrammar.Expansion.Token
import FluentGrammar.Text.Blank
import FluentGrammar.Text.Glyph

/-
  Lexing builder code into token trees. Blanks and comments are skipped, and a documentation
  comment becomes the attribute that it stands for. Brackets must match.
-/

namespace FluentGrammar.Expansion

/-- The characters of single marks, the quote of lifetimes apart. -/
def markChars : List Char := "~!@#$%^&*-=+|;:,<.>/?".toList

/-- The text begins with a comment. -/
def atComment : List Char → Bool
  | '/' :: '/' :: _ | '/' :: '*' :: _ => true
  | _ => false

/-- A block comment and the rest, where `depth` comments are open. -/
def blockComment? : Nat → List Char → Option (List Char × List Char)
  | _, [] => none
  | depth, '/' :: '*' :: rest =>
    (blockComment? (depth + 1) rest).map fun (text, rest) => ('/' :: '*' :: text, rest)
  | depth, '*' :: '/' :: rest =>
    if depth ≤ 1 then some (['*', '/'], rest)
    else (blockComment? (depth - 1) rest).map fun (text, rest) => ('*' :: '/' :: text, rest)
  | depth, c :: rest => (blockComment? depth rest).map fun (text, rest) => (c :: text, rest)

/-- The rest of a line, and what comes from its line break on. -/
def lineRest : List Char → List Char × List Char
  | [] => ([], [])
  | '\n' :: rest => ([], '\n' :: rest)
  | '\r' :: '\n' :: rest => ([], '\n' :: rest)
  | c :: rest =>
    let (line, rest) := lineRest rest
    (c :: line, rest)

/-- A blank between tokens; marks of direction count as blanks. -/
def isSpace (c : Char) : Bool := Text.isBlank c || c.toNat == 0x200E || c.toNat == 0x200F

/-- The rest behind one blank or one comment that is no documentation. -/
def skipOne? (cs : List Char) : Option (List Char) :=
  match cs with
  | '/' :: '/' :: '/' :: '/' :: rest => some (lineRest rest).2
  | '/' :: '/' :: '/' :: _ | '/' :: '/' :: '!' :: _ => none
  | '/' :: '/' :: rest => some (lineRest rest).2
  | '/' :: '*' :: '*' :: '/' :: rest => some rest
  | '/' :: '*' :: '*' :: '*' :: _ => (blockComment? 0 cs).map (·.2)
  | '/' :: '*' :: '*' :: _ | '/' :: '*' :: '!' :: _ => none
  | '/' :: '*' :: _ => (blockComment? 0 cs).map (·.2)
  | c :: rest => if isSpace c then some rest else none
  | [] => none

/-- The text of a documentation comment, whether it is about what encloses it, and the rest. -/
def docComment? (cs : List Char) : Option (List Char × Bool × List Char) :=
  let block (inner : Bool) : Option (List Char × Bool × List Char) :=
    (blockComment? 0 cs).map fun (text, rest) =>
      ((text.drop 3).take (text.length - 5), inner, rest)
  let line (inner : Bool) (text : List Char) : Option (List Char × Bool × List Char) :=
    let (text, rest) := lineRest text
    some (text, inner, rest)
  match cs with
  | '/' :: '/' :: '!' :: rest => line true rest
  | '/' :: '*' :: '!' :: _ => block true
  | '/' :: '/' :: '/' :: '/' :: _ => none
  | '/' :: '/' :: '/' :: rest => line false rest
  | '/' :: '*' :: '*' :: '*' :: _ => none
  | '/' :: '*' :: '*' :: _ => block false
  | _ => none

/-- Every carriage return is followed by a line feed. -/
def returnsPaired : List Char → Bool
  | [] => true
  | '\r' :: rest => rest.head? == some '\n' && returnsPaired rest
  | _ :: rest => returnsPaired rest

/-- The literal of a text, with escapes for what would not show as itself. -/
def literalOf : List Char → String
  | [] => ""
  | '\x00' :: c :: rest =>
    (if '0' ≤ c && c ≤ '7' then "\\x00" else "\\0") ++ literalOf (c :: rest)
  | c :: rest => Text.quotedChar c ++ literalOf rest

/-- The attribute that documentation stands for. -/
def docAttribute (text : List Char) (inner : Bool) : List TokenTree :=
  [.mark '#'] ++ (if inner then [.mark '!'] else []) ++
    [.group .bracket [.word "doc", .mark '=', .literal ("\"" ++ literalOf text ++ "\"")]]

/-- A lifetime begins here: a quote and a word that is not quoted again. -/
def atLifetime (rest : List Char) : Bool :=
  match anyWord? rest with
  | none => false
  | some behind =>
    let isRaw := "r#".toList.isPrefixOf rest
    !(behind.head? == some '\'' || (behind.head? == some '#' && !isRaw))

/-- A token that is no bracket, and the rest. -/
def leaf? (cs : List Char) : Option (TokenTree × List Char) :=
  let text (rest : List Char) : String := String.ofList (before cs rest)
  match literal? cs with
  | some rest => some (.literal (text rest), rest)
  | none =>
    match cs with
    | [] => none
    | c :: rest =>
      if c == '\'' then if atLifetime rest then some (.mark c, rest) else none
      else if markChars.contains c then if atComment cs then none else some (.mark c, rest)
      else (word? cs).map fun rest => (.word (text rest), rest)

/-- A part of a text: a bracket or trees. -/
inductive Lexeme where
  | opening (d : Delimiter)
  | closing (d : Delimiter)
  | trees (ts : List TokenTree)

/-- The next part of a text that does not begin with a blank, and the rest. -/
def lexeme? (cs : List Char) : Option (Lexeme × List Char) :=
  let doc := (docComment? cs).filter fun (text, _, _) => returnsPaired text
  match doc, cs with
  | some (text, inner, rest), _ => some (.trees (docAttribute text inner), rest)
  | none, [] => none
  | none, c :: rest =>
    match Delimiter.ofOpening? c, Delimiter.ofClosing? c with
    | some d, _ => some (.opening d, rest)
    | none, some d => some (.closing d, rest)
    | none, none => (leaf? cs).map fun (t, rest) => (.trees [t], rest)

/-- The parts of a text. Every step takes a character, so that the length is fuel enough. -/
def lexemes? : Nat → List Char → Option (List Lexeme)
  | _, [] => some []
  | 0, _ => none
  | fuel + 1, cs =>
    match skipOne? cs with
    | some rest => lexemes? fuel rest
    | none => do
      let (l, rest) ← lexeme? cs
      return l :: (← lexemes? fuel rest)

/-- Groups the trees of parts. `done` holds the trees of the innermost open group and `open?` the
    groups around it, the innermost first, with their trees so far. -/
def nest? (done : List TokenTree) (enclosing : List (Delimiter × List TokenTree)) :
    List Lexeme → Option (List TokenTree)
  | [] => if enclosing.isEmpty then some done else none
  | .trees ts :: rest => nest? (done ++ ts) enclosing rest
  | .opening d :: rest => nest? [] ((d, done) :: enclosing) rest
  | .closing d :: rest =>
    match enclosing with
    | (d', outer) :: enclosing =>
      if d = d' then nest? (outer ++ [.group d done]) enclosing rest else none
    | [] => none

/-- A text without the mark of byte order that may begin it. -/
def withoutOrderMark : List Char → List Char
  | c :: rest => if c.toNat == 0xFEFF then rest else c :: rest
  | [] => []

/-- The token trees of a text. -/
def lex? (text : String) : Option (List TokenTree) := do
  let cs := withoutOrderMark text.toList
  nest? [] [] (← lexemes? cs.length cs)

end FluentGrammar.Expansion
