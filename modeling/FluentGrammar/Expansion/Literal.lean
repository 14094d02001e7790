import FluentGrammar.Text.Letter

/-
  Words and literals of builder code. A reader of either takes it from the front of a text and
  gives the rest, so that what was read is what the rest lacks.
-/

namespace FluentGrammar.Expansion

/-- The rest behind a word without a prefix. -/
def plainWord? : List Char → Option (List Char)
  | c :: rest =>
    if Text.isIdentifierStart c then some (rest.dropWhile Text.isIdentifierContinue) else none
  | [] => none

/-- The rest behind a suffix of a literal, if it has one. -/
def afterSuffix (cs : List Char) : List Char := (plainWord? cs).getD cs

/-- The text does not go on with a word. -/
def atWordBreak (cs : List Char) : Bool := !cs.head?.any Text.isIdentifierContinue

/-- The characters of a text before its rest. -/
def before (cs rest : List Char) : List Char := cs.take (cs.length - rest.length)

/-- The value of a hexadecimal digit. -/
def hexValue? (c : Char) : Option Nat :=
  if c.isDigit then some (c.toNat - '0'.toNat)
  else if 'a' ≤ c && c ≤ 'f' then some (c.toNat - 'a'.toNat + 10)
  else if 'A' ≤ c && c ≤ 'F' then some (c.toNat - 'A'.toNat + 10)
  else none

/-- What may stand in a quoted literal. -/
structure QuoteRules where
  /-- Characters that stand for themselves. -/
  plain : Char → Bool
  /-- Values of escapes with two hexadecimal digits. -/
  byte : Nat → Bool
  /-- Values of escapes with a code point. -/
  point : Nat → Bool
  /-- The escape for zero is allowed. -/
  zero : Bool

namespace QuoteRules

/-- Strings and characters. -/
def text : QuoteRules := ⟨fun _ => true, (· < 0x80), fun _ => true, true⟩

/-- Bytes. -/
def bytes : QuoteRules := ⟨fun c => c.toNat < 0x80, fun _ => true, fun _ => false, true⟩

/-- Strings that end at a zero, which they must not hold. -/
def zeroEnded : QuoteRules := ⟨(· != '\x00'), (· != 0), (· != 0), false⟩

end QuoteRules

/-- The value of a code point in braces with its rest. `count` digits have been read. -/
def codePoint? : Nat → Nat → List Char → Option (Nat × List Char)
  | _, _, [] => none
  | count, value, c :: rest =>
    if c == '_' && count != 0 then codePoint? count value rest
    else if c == '\x7d' && count != 0 then some (value, rest)
    else match hexValue? c with
      | some digit => if count == 6 then none else codePoint? (count + 1) (16 * value + digit) rest
      | none => none

/-- The code point is one of a character. -/
def isScalar (n : Nat) : Bool := n < 0xD800 || (0xE000 ≤ n && n < 0x110000)

/-- A character written as an escape, read behind the backslash. -/
def escape? (r : QuoteRules) : List Char → Option (Char × List Char)
  | 'n' :: rest => some ('\n', rest)
  | 'r' :: rest => some ('\r', rest)
  | 't' :: rest => some ('\t', rest)
  | '\\' :: rest => some ('\\', rest)
  | '\'' :: rest => some ('\'', rest)
  | '"' :: rest => some ('"', rest)
  | '0' :: rest => if r.zero then some ('\x00', rest) else none
  | 'x' :: high :: low :: rest => do
    let value := 16 * (← hexValue? high) + (← hexValue? low)
    if r.byte value then some (Char.ofNat value, rest) else none
  | 'u' :: '\x7b' :: rest => do
    let (value, rest) ← codePoint? 0 0 rest
    if isScalar value && r.point value then some (Char.ofNat value, rest) else none
  | _ => none

/-- The rest behind the line break and the blanks that an escaped line break stands for. -/
def afterBreak? : List Char → Option (List Char)
  | [] => none
  | '\r' :: '\n' :: rest => afterBreak? rest
  | '\r' :: _ => none
  | c :: rest => if c == ' ' || c == '\t' || c == '\n' then afterBreak? rest else some (c :: rest)

/-- The value of a quoted string behind its opening quote, and the rest behind the closing one.
    The fuel is the length of the text. -/
def quoted? (r : QuoteRules) : Nat → List Char → Option (List Char × List Char)
  | 0, _ => none
  | fuel + 1, cs =>
    let add (c : Char) (rest : List Char) : Option (List Char × List Char) :=
      (quoted? r fuel rest).map fun (value, rest) => (c :: value, rest)
    match cs with
    | [] => none
    | '"' :: rest => some ([], rest)
    | '\r' :: '\n' :: rest => add '\n' rest
    | '\r' :: _ => none
    | '\\' :: c :: rest =>
      if c == '\n' || c == '\r' then (afterBreak? (c :: rest)).bind (quoted? r fuel)
      else (escape? r (c :: rest)).bind fun (c, rest) => add c rest
    | c :: rest => if r.plain c then add c rest else none

/-- The value of a raw string behind its opening quote, and the rest behind the closing quote
    with its number signs. -/
def raw? (plain : Char → Bool) (signs : Nat) : List Char → Option (List Char × List Char)
  | [] => none
  | c :: rest =>
    let isEnd := c == '"' && rest.take signs == List.replicate signs '#'
    if isEnd then some ([], rest.drop signs)
    else if c == '\r' && rest.head? != some '\n' then none
    else if plain c then (raw? plain signs rest).map fun (value, rest) => (c :: value, rest)
    else none

/-- A raw string behind its letter: number signs, a quote, and so on. -/
def rawString? (plain : Char → Bool) (cs : List Char) : Option (List Char × List Char) :=
  let signs := (cs.takeWhile (· == '#')).length
  match cs.drop signs with
  | '"' :: rest => if signs ≤ 255 then raw? plain signs rest else none
  | _ => none

/-- The value of a string literal and the rest behind it. -/
def stringLiteral? (cs : List Char) : Option (List Char × List Char) :=
  match cs with
  | '"' :: rest => quoted? .text cs.length rest
  | 'r' :: rest => rawString? QuoteRules.text.plain rest
  | _ => none

/-- The rest behind a literal of bytes or of a string that ends at a zero. -/
def specialString? (cs : List Char) : Option (List Char) :=
  let read := match cs with
    | 'b' :: '"' :: rest => quoted? .bytes cs.length rest
    | 'b' :: 'r' :: rest => rawString? QuoteRules.bytes.plain rest
    | 'c' :: '"' :: rest => quoted? .zeroEnded cs.length rest
    | 'c' :: 'r' :: rest => rawString? QuoteRules.zeroEnded.plain rest
    | _ => none
  read.map (·.2)

/-- The rest behind one character or escape and a single quote. -/
def single? (r : QuoteRules) (cs : List Char) : Option (List Char) :=
  let afterOne := match cs with
    | '\\' :: rest => (escape? r rest).map (·.2)
    | c :: rest => if r.plain c then some rest else none
    | [] => none
  match afterOne with
  | some ('\'' :: rest) => some rest
  | _ => none

/-- The rest behind a literal of one character or byte. -/
def character? : List Char → Option (List Char)
  | 'b' :: '\'' :: rest => single? .bytes rest
  | '\'' :: rest => single? .text rest
  | _ => none

/-- The rest behind digits. `none` tells that no digit has been read. -/
def digits? (base : Nat) : Bool → List Char → Option (List Char)
  | isEmpty, [] => if isEmpty then none else some []
  | isEmpty, c :: rest =>
    if c == '_' then
      if isEmpty && base == 10 then none else digits? base isEmpty rest
    else match hexValue? c with
      | some value =>
        if value < base then digits? base false rest
        else if c.isDigit || isEmpty then none
        else some (c :: rest)
      | none => if isEmpty then none else some (c :: rest)

/-- The rest behind an exponent, read behind its letter: an optional sign, then digits. -/
def exponent? : Bool → Bool → List Char → Option (List Char)
  | _, hasValue, [] => if hasValue then some [] else none
  | hasSign, hasValue, c :: rest =>
    if c.isDigit then exponent? hasSign true rest
    else if c == '_' then exponent? hasSign hasValue rest
    else if (c == '+' || c == '-') && !hasValue then
      if hasSign then none else exponent? true hasValue rest
    else if hasValue then some (c :: rest)
    else none

/-- The rest behind what follows the first digit of a number with a point or an exponent. -/
def fraction? : Bool → List Char → Option (List Char)
  | hasPoint, [] => if hasPoint then some [] else none
  | hasPoint, c :: rest =>
    if c.isDigit || c == '_' then fraction? hasPoint rest
    else if c == '.' && !hasPoint then
      if rest.head?.any fun next => next == '.' || Text.isIdentifierStart next then none
      else fraction? true rest
    else
      let exponent := if c == 'e' || c == 'E' then exponent? false false rest else none
      match exponent with
      | some rest => some rest
      | none => if hasPoint then some (c :: rest) else none

/-- The rest behind a number. -/
def number? (cs : List Char) : Option (List Char) :=
  let ended (rest : List Char) : Option (List Char) :=
    let rest := afterSuffix rest
    if atWordBreak rest then some rest else none
  let float := match cs with
    | c :: rest => if c.isDigit then (fraction? false rest).bind ended else none
    | [] => none
  let whole := match cs with
    | '0' :: 'x' :: rest => digits? 16 true rest
    | '0' :: 'o' :: rest => digits? 8 true rest
    | '0' :: 'b' :: rest => digits? 2 true rest
    | cs => digits? 10 true cs
  match float with
  | some rest => some rest
  | none => whole.bind ended

/-- The rest behind a literal. -/
def literal? (cs : List Char) : Option (List Char) :=
  match ((stringLiteral? cs).map (·.2) <|> specialString? cs <|> character? cs) with
  | some rest => some (afterSuffix rest)
  | none => number? cs

/-- The value of a literal if it is a string. -/
def stringValue? (literal : String) : Option String :=
  (stringLiteral? literal.toList).map fun (value, _) => String.ofList value

/-- Words that have no raw form. -/
def neverRaw : List String := ["_", "super", "self", "Self", "crate"]

/-- The rest behind a word, which may be raw. -/
def anyWord? : List Char → Option (List Char)
  | 'r' :: '#' :: rest => do
    let rest' ← plainWord? rest
    if neverRaw.contains (String.ofList (before rest rest')) then none else some rest'
  | cs => plainWord? cs

/-- Beginnings of literals, which are no words even if the literal is malformed. -/
def literalStarts : List String :=
  ["r\"", "r#\"", "r##", "b\"", "b'", "br\"", "br#", "c\"", "cr\"", "cr#"]

/-- The rest behind a word that does not look like a literal. -/
def word? (cs : List Char) : Option (List Char) :=
  if literalStarts.any fun start => start.toList.isPrefixOf cs then none else anyWord? cs

end FluentGrammar.Expansion
