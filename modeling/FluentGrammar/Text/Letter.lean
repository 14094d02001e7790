import FluentGrammar.Text.CaseTable
import FluentGrammar.Text.LetterTable
import FluentGrammar.Text.IdentifierTable

/-
  Letters, digits and letter case of Unicode characters. Every class agrees with its ASCII rule
  below U+0080 and is a table lookup above it. Raising or lowering one character may give
  several, so both return a list.
-/

namespace FluentGrammar.Text

/-- The character is ASCII. -/
def isAscii (c : Char) : Bool := c.toNat < 0x80

/-- An upper case letter. -/
def isUpper (c : Char) : Bool :=
  if isAscii c then c.isUpper else inBounds upperBounds c

/-- A lower case letter. -/
def isLower (c : Char) : Bool :=
  if isAscii c then c.isLower else inBounds lowerBounds c

/-- A letter of any script. -/
def isAlphabetic (c : Char) : Bool :=
  if isAscii c then c.isAlpha else inBounds alphabeticBounds c

/-- A letter or a numeral of any script. -/
def isAlphanumeric (c : Char) : Bool :=
  if isAscii c then c.isAlphanum else inBounds alphabeticBounds c || inBounds numericBounds c

/-- A character that may begin an identifier: a letter or an underscore. -/
def isIdentifierStart (c : Char) : Bool :=
  if isAscii c then c.isAlpha || c == '_' else inBounds identifierStartBounds c

/-- A character that may continue an identifier. -/
def isIdentifierContinue (c : Char) : Bool :=
  if isAscii c then c.isAlphanum || c == '_' else inBounds identifierContinueBounds c

/-- The upper case form of one character. -/
def raised (c : Char) : List Char :=
  if isAscii c then [c.toUpper]
  else match raiseExpansions.lookup c.toNat with
    | some several => several.map Char.ofNat
    | none => [((CaseRun.image? raiseRuns c.toNat).map Char.ofNat).getD c]

/-- The lower case form of one character. Only the dotted capital I becomes two characters. -/
def lowered (c : Char) : List Char :=
  if isAscii c then [c.toLower]
  else if c.toNat == 0x130 then ['i', Char.ofNat 0x307]
  else [((CaseRun.image? lowerRuns c.toNat).map Char.ofNat).getD c]

end FluentGrammar.Text
