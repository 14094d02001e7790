import FluentGrammar.Text.GlyphTable
import FluentGrammar.Text.Letter

/-
  How a character appears when a text is shown: its columns on a terminal, the stand-in for a
  control character, and the quoted form of a text, in which every character without a glyph of
  its own is an escape.
-/

namespace FluentGrammar.Text

/-- The lowercase hexadecimal digits of a number. -/
def hex (n : Nat) : String := String.ofList (Nat.toDigits 16 n)

/-- The direction controls, which a terminal must not see. -/
def isDirectionControl (c : Char) : Bool :=
  let n := c.toNat
  (0x202A ≤ n && n ≤ 0x202E) || (0x2066 ≤ n && n ≤ 0x2069)

/-- What is shown for a character: a tab is four blanks, a control is its picture, a direction
    control the replacement character, a joiner nothing, and any other character itself. -/
def shown (c : Char) : List Char :=
  let n := c.toNat
  if c == '\t' then [' ', ' ', ' ', ' ']
  else if c == '\n' then [c]
  else if n < 0x20 then [Char.ofNat (0x2400 + n)]
  else if n == 0x7F then [Char.ofNat 0x2421]
  else if n == 0x200D then []
  else if isDirectionControl c then [Char.ofNat 0xFFFD]
  else [c]

/-- The text as it is shown. -/
def showText (cs : List Char) : List Char := cs.flatMap shown

/-- Columns that a character takes. -/
def columns (c : Char) : Nat :=
  if c == '\t' then 4
  else if isAscii c then 1
  else if isDirectionControl c then 1
  else if c.toNat == 0x17D8 then 3
  else if inBounds zeroWidthBounds c then 0
  else if inBounds wideBounds c then 2
  else 1

/-- Columns that a text takes. -/
def textColumns (cs : List Char) : Nat := cs.foldl (fun n c => n + columns c) 0

/-- One character of a quoted text. -/
def quotedChar (c : Char) : String :=
  if c == '\x00' then "\\0"
  else if c == '\t' then "\\t"
  else if c == '\r' then "\\r"
  else if c == '\n' then "\\n"
  else if c == '\\' then "\\\\"
  else if c == '"' then "\\\""
  else if 0x20 ≤ c.toNat && c.toNat < 0x7F then c.toString
  else if inBounds extendingBounds c || c.toNat < 0x80 || inBounds invisibleBounds c then
    "\\u\x7b" ++ hex c.toNat ++ "\x7d"
  else c.toString

/-- The text between quotes, with escapes for what would not show as itself. -/
def quoted (text : String) : String :=
  "\"" ++ String.join (text.toList.map quotedChar) ++ "\""

end FluentGrammar.Text
