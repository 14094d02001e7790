import FluentGrammar.Manifest.Reading
import FluentGrammar.Text.Decimal
import FluentGrammar.Text.Glyph

/-
  Scalars of JSON: texts with their escapes, numbers and the three words. A number that is no
  integer of 64 bits is a floating point number, whose decimal exponent is applied by one
  multiplication or division.
-/

namespace FluentGrammar.Manifest.Reading

/-- The value of a hexadecimal digit. -/
def hexDigit? (c : Char) : Option Nat :=
  if '0' ≤ c ∧ c ≤ '9' then some (c.toNat - '0'.toNat)
  else if 'a' ≤ c ∧ c ≤ 'f' then some (c.toNat - 'a'.toNat + 10)
  else if 'A' ≤ c ∧ c ≤ 'F' then some (c.toNat - 'A'.toNat + 10)
  else none

/-- Four hexadecimal digits. -/
def hexUnit : Reading Nat := do
  let digits := (← get).rest.take 4
  for _ in digits do skip
  if digits.length < 4 then malformed .endInString
  else match digits.mapM hexDigit? with
    | some values => return values.foldl (fun n d => 16 * n + d) 0
    | none => malformed .invalidEscape

/-- The next character of a text, which must not end here. -/
def nextInText : Reading Char := do
  match ← next with
  | some c => return c
  | none => malformed .endInString

/-- A character that must continue a surrogate pair. -/
def pairMark (c : Char) : Reading Unit := do
  match ← peek with
  | none => malformed .endInString
  | some d =>
    skip
    unless c == d do malformed .brokenSurrogatePair

/-- The character of an escape by number, which may be a pair of surrogates. -/
def unicodeEscape : Reading Char := do
  let first ← hexUnit
  if 0xDC00 ≤ first ∧ first ≤ 0xDFFF then malformed .loneSurrogate
  else if first < 0xD800 ∨ 0xDBFF < first then return Char.ofNat first
  else
    pairMark '\\'
    pairMark 'u'
    let second ← hexUnit
    if second < 0xDC00 ∨ 0xDFFF < second then malformed .loneSurrogate
    else return Char.ofNat ((first - 0xD800) * 0x400 + (second - 0xDC00) + 0x10000)

/-- The character of an escape, after its backslash. -/
def escape : Reading Char := do
  match ← nextInText with
  | '"' => return '"'
  | '\\' => return '\\'
  | '/' => return '/'
  | 'b' => return '\x08'
  | 'f' => return '\x0c'
  | 'n' => return '\n'
  | 'r' => return '\r'
  | 't' => return '\t'
  | 'u' => unicodeEscape
  | _ => malformed .invalidEscape

/-- The characters up to the closing quote, behind those read already. -/
def textTail (read : List Char) : Nat → Reading String
  | 0 => malformed .endInString
  | fuel + 1 => do
    match ← next with
    | none => malformed .endInString
    | some '"' => return String.ofList read.reverse
    | some '\\' => do textTail ((← escape) :: read) fuel
    | some c => if c.toNat < 0x20 then malformed .controlCharacter else textTail (c :: read) fuel

/-- A text, from its opening quote. -/
def text : Reading String := do
  skip
  textTail [] ((← get).rest.length + 1)

/-- The rest of a word. -/
def word : List Char → Reading Unit
  | [] => return
  | c :: cs => do
    match ← next with
    | none => malformed .endInValue
    | some d => if c == d then word cs else malformed .expectedWord

/-- Consumes digits and returns them. -/
def digits : Reading (List Nat) := do
  let taken := (← get).rest.takeWhile Char.isDigit
  for _ in taken do skip
  return taken.map fun c => c.toNat - '0'.toNat

/-- The largest integer of 64 bits. -/
def maxInteger : Nat := Nat.pow 2 64 - 1

/-- Appends digits to a number while it stays within 64 bits; the rest is left over. -/
def appendDigits (n : Nat) : List Nat → Nat × List Nat
  | [] => (n, [])
  | d :: ds => if 10 * n + d ≤ maxInteger then appendDigits (10 * n + d) ds else (n, d :: ds)

/-- A power of ten as a floating point number. -/
def powerOfTen (n : Nat) : Float := Float.ofScientific 1 false n

/-- The number `significand * 10 ^ exponent`; exponents below the range are applied in steps. -/
def scaled (exponent : Int) : Nat → Float → Reading Float
  | 0, x => return x
  | fuel + 1, x =>
    if exponent.natAbs ≤ 308 then
      if 0 ≤ exponent then
        let y := x * powerOfTen exponent.toNat
        if y.isInf then malformed .numberOutOfRange else return y
      else return x / powerOfTen exponent.natAbs
    else if x == 0 then return x
    else if 0 ≤ exponent then malformed .numberOutOfRange
    else scaled (exponent + 308) fuel (x / powerOfTen 308)

/-- The floating point number of a significand and a decimal exponent. -/
def floating (significand : Nat) (exponent : Int) : Reading Float :=
  scaled exponent (exponent.natAbs + 1) significand.toUInt64.toFloat

/-- Reads an exponent and applies it to the significand. -/
def exponentPart (significand : Nat) (exponent : Int) : Reading Float := do
  skip
  let negative ← do
    match ← peek with
    | some '+' => do skip; pure false
    | some '-' => do skip; pure true
    | _ => pure false
  match ← peek with
  | none => malformed .endInValue
  | some c =>
    unless c.isDigit do
      skip
      malformed .invalidNumber
    let ds ← digits
    let size : Nat := ds.foldl (fun n d => 10 * n + d) 0
    if size ≥ Nat.pow 2 31 then
      if significand != 0 && !negative then malformed .numberOutOfRange else return 0
    else floating significand (exponent + (if negative then -(size : Int) else (size : Int)))

/-- Goes on behind the digits of a floating point number. -/
def afterDigits (significand : Nat) (exponent : Int) : Reading Float := do
  match ← peek with
  | some 'e' | some 'E' => exponentPart significand exponent
  | _ => floating significand exponent

/-- Reads a fraction, which must have a digit. Digits beyond 64 bits change nothing. -/
def fractionPart (significand : Nat) (exponent : Int) : Reading Float := do
  skip
  let ds ← digits
  if ds.isEmpty then
    match ← peek with
    | none => malformed .endInValue
    | some _ => malformedAhead .invalidNumber
  else
    let (significand', left) := appendDigits significand ds
    afterDigits significand' (exponent - (ds.length - left.length : Nat))

/-- A number in words: its kind and its value. -/
def number : Reading String := do
  let negative := (← peek) == some '-'
  if negative then skip
  let signed (x : Float) : String :=
    "floating point `" ++ Text.floatText (if negative then -x else x) ++ "`"
  match ← peek with
  | none => malformed .endInValue
  | some first =>
    unless first.isDigit do
      skip
      malformed .invalidNumber
    let leadingZero := first == '0'
    let ds ← if leadingZero then do skip; pure [0] else digits
    if leadingZero && ((← peek).any Char.isDigit) then malformedAhead .invalidNumber
    let (significand, left) := appendDigits 0 ds
    match ← peek with
    | some '.' => return signed (← fractionPart significand left.length)
    | some 'e' | some 'E' => return signed (← exponentPart significand left.length)
    | _ =>
      if !left.isEmpty then return signed (← floating significand left.length)
      else if !negative then return "integer `" ++ toString significand ++ "`"
      else if significand == 0 || significand > Nat.pow 2 63 then
        return signed significand.toUInt64.toFloat
      else return "integer `-" ++ toString significand ++ "`"

/-- Reports a value of the wrong type: names what is there instead of what was expected. -/
def wrongType {α : Type} (expected : String) : Reading α := do
  let refuseIt (found : String) : Reading α := refuse (.wrongType found expected)
  match ← peek with
  | some 'n' => do skip; word ['u', 'l', 'l']; refuseIt "null"
  | some 't' => do skip; word ['r', 'u', 'e']; refuseIt "boolean `true`"
  | some 'f' => do skip; word ['a', 'l', 's', 'e']; refuseIt "boolean `false`"
  | some '"' => do
    let found ← text
    refuseIt ("string " ++ Text.quoted found)
  | some '[' => refuseIt "sequence"
  | some '\x7b' => refuseIt "map"
  | some c =>
    if c == '-' || c.isDigit then do refuseIt (← number) else malformedAhead .expectedValue
  | none => malformedAhead .expectedValue

end FluentGrammar.Manifest.Reading
