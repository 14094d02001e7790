import FluentGrammar.Source.Token
import FluentGrammar.Text.Bytes

/-
  Cutting a source into tokens. At every place the longest lexeme of any class is taken. A block
  comment consumes a star together with the character after it unless that character is the
  closing slash, and without its end everything to the end of the source is garbage. Neighbouring
  pieces of garbage are one token.
-/

namespace FluentGrammar.Source

/-- A lexeme: its class and its characters. -/
structure Lexeme where
  kind : TokenKind
  chars : List Char
  deriving Repr, DecidableEq

namespace Lexeme

/-- A character that may begin a name. -/
def isNameStart (c : Char) : Bool := c.isAlpha || c == '_'

/-- A character that may continue a name. -/
def isNameContinue (c : Char) : Bool := c.isAlphanum || c == '_'

/-- A blank or a tab. -/
def isBlankOrTab (c : Char) : Bool := c == ' ' || c == '\t'

/-- The number of characters up to and with the end of a block comment that has begun. -/
def commentLength? : List Char → Option Nat
  | '*' :: '/' :: _ => some 2
  | '*' :: _ :: rest => (commentLength? rest).map (· + 2)
  | _ :: rest => (commentLength? rest).map (· + 1)
  | [] => none

/-- The class of the lexeme that begins with `c`, and how many of the characters after `c` belong
    to it. -/
def munch (c : Char) (rest : List Char) : TokenKind × Nat :=
  match c with
  | '(' => (.parenOpen, 0)
  | ')' => (.parenClose, 0)
  | ':' => (.colon, 0)
  | ';' => (.semicolon, 0)
  | '|' => (.pipe, 0)
  | '*' => (.star, 0)
  | '+' => (.plus, 0)
  | '?' => (.question, 0)
  | '\n' => (.newline, 0)
  | '\r' => if rest.head? == some '\n' then (.newline, 1) else (.garbage, 0)
  | '/' =>
    match rest with
    | '/' :: _ => (.lineComment, (rest.takeWhile (· != '\n')).length)
    | '*' :: inner =>
      match commentLength? inner with
      | some n => (.blockComment, n + 1)
      | none => (.garbage, rest.length)
    | _ => (.garbage, 0)
  | c =>
    if isNameStart c then (.name, (rest.takeWhile isNameContinue).length)
    else if isBlankOrTab c then (.blank, (rest.takeWhile isBlankOrTab).length)
    else (.garbage, 0)

/-- Puts a lexeme in front. Garbage before garbage joins it. -/
def attach (l : Lexeme) : List Lexeme → List Lexeme
  | ⟨.garbage, cs⟩ :: others =>
    if l.kind = .garbage then ⟨.garbage, l.chars ++ cs⟩ :: others
    else l :: ⟨.garbage, cs⟩ :: others
  | others => l :: others

/-- The lexemes of a text. -/
def all : List Char → List Lexeme
  | [] => []
  | c :: rest =>
    let (kind, n) := munch c rest
    attach ⟨kind, c :: rest.take n⟩ (all (rest.drop n))
termination_by cs => cs.length
decreasing_by
  simp only [List.length_cons, List.length_drop]
  omega

theorem flatten_attach (l : Lexeme) (others : List Lexeme) :
    ((attach l others).map (·.chars)).flatten = l.chars ++ (others.map (·.chars)).flatten := by
  unfold attach
  split
  · split <;> simp
  · simp

/-- The lexemes spell the text. -/
theorem flatten_all (cs : List Char) : ((all cs).map (·.chars)).flatten = cs := by
  fun_induction all cs with
  | case1 => rfl
  | case2 c rest kind n _ ih => simp [flatten_attach, ih]

end Lexeme

/-- Lexemes as tokens, the first of which begins at `start`. The offsets are not bounded: kept in 32
    bits, they are the same in a source of less than 4 GiB (`toNat_offset`). -/
def Token.place (start : Nat) : List Lexeme → List Token
  | [] => []
  | l :: others =>
    let stop := start + Text.byteLength l.chars
    ⟨l.kind, String.ofList l.chars, ⟨start, stop⟩⟩ :: place stop others

/-- The tokens of a source. -/
def lex (source : String) : List Token := Token.place 0 (Lexeme.all source.toList)

end FluentGrammar.Source
