import FluentGrammar.Text.Bytes

/-
  Reading a JSON text from left to right. A reader consumes characters from a cursor that knows
  its line and column, and stops at the first problem in reading order. A problem with the
  notation is placed where it is seen. A problem with the contents takes the place that the
  enclosing value has reached when that value is closed.
-/

namespace FluentGrammar.Manifest

/-- A line, counted from one, and a column, counted in bytes from zero. -/
structure Position where
  line : Nat
  column : Nat
  deriving Repr, DecidableEq

/-- The text still to be read and its position. -/
structure Cursor where
  rest : List Char
  position : Position

/-- Faults of the notation itself. -/
inductive Malformed where
  | endInList
  | endInObject
  | endInString
  | endInValue
  | expectedColon
  | expectedListEnd
  | expectedObjectEnd
  | expectedWord
  | expectedValue
  | invalidEscape
  | invalidNumber
  | numberOutOfRange
  | controlCharacter
  | keyNotText
  | loneSurrogate
  | trailingComma
  | trailingCharacters
  | brokenSurrogatePair
  deriving Repr, DecidableEq

/-- What is wrong with a manifest text. -/
inductive Cause where
  /-- It is not well-formed. -/
  | malformed (what : Malformed)
  | unknownField (name : String) (known : List String)
  | duplicateField (name : String)
  | missingField (name : String)
  | unknownVariant (name : String) (known : List String)
  | wrongType (found expected : String)
  | wrongLength (length : Nat) (expected : String)
  deriving Repr, DecidableEq

/-- A cause and, once it is known, its place. -/
structure Fault where
  cause : Cause
  position : Option Position
  deriving Repr

/-- The words of a fault of notation. -/
def Malformed.message : Malformed → String
  | endInList => "EOF while parsing a list"
  | endInObject => "EOF while parsing an object"
  | endInString => "EOF while parsing a string"
  | endInValue => "EOF while parsing a value"
  | expectedColon => "expected `:`"
  | expectedListEnd => "expected `,` or `]`"
  | expectedObjectEnd => "expected `,` or `\x7d`"
  | expectedWord => "expected ident"
  | expectedValue => "expected value"
  | invalidEscape => "invalid escape"
  | invalidNumber => "invalid number"
  | numberOutOfRange => "number out of range"
  | controlCharacter => "control character (\\u0000-\\u001F) found while parsing a string"
  | keyNotText => "key must be a string"
  | loneSurrogate => "lone leading surrogate in hex escape"
  | trailingComma => "trailing comma"
  | trailingCharacters => "trailing characters"
  | brokenSurrogatePair => "unexpected end of hex escape"

/-- Alternatives in words: a single one, two with `or`, or a list. -/
def oneOf (names : List String) : String :=
  let marked := names.map fun n => "`" ++ n ++ "`"
  match marked with
  | [a] => a
  | [a, b] => a ++ " or " ++ b
  | _ => "one of " ++ ", ".intercalate marked

/-- The words of a cause. -/
def Cause.message : Cause → String
  | malformed what => what.message
  | unknownField name known => "unknown field `" ++ name ++ "`, expected " ++ oneOf known
  | duplicateField name => "duplicate field `" ++ name ++ "`"
  | missingField name => "missing field `" ++ name ++ "`"
  | unknownVariant name known => "unknown variant `" ++ name ++ "`, expected " ++ oneOf known
  | wrongType found expected => "invalid type: " ++ found ++ ", expected " ++ expected
  | wrongLength length expected =>
    "invalid length " ++ toString length ++ ", expected " ++ expected

/-- The words of a fault with its place. -/
def Fault.message (f : Fault) : String :=
  match f.position with
  | none => f.cause.message
  | some p => f.cause.message ++ " at line " ++ toString p.line ++ " column " ++ toString p.column

/-- The cause is one of notation. -/
def Cause.isMalformed : Cause → Bool
  | malformed _ => true
  | _ => false

/-- A reader of a value. The cursor keeps what a failing reader consumed. -/
abbrev Reading := ExceptT Fault (StateM Cursor)

namespace Reading

/-- The next character, which stays unread. -/
def peek : Reading (Option Char) := return (← get).rest.head?

/-- The position after one character. -/
def stepPosition (p : Position) (c : Char) : Position :=
  if c == '\n' then ⟨p.line + 1, 0⟩ else ⟨p.line, p.column + c.utf8Size⟩

/-- Reads one character. -/
def next : Reading (Option Char) := do
  let cursor ← get
  match cursor.rest with
  | [] => return none
  | c :: rest =>
    set ({ rest, position := stepPosition cursor.position c } : Cursor)
    return some c

/-- Leaves out one character. -/
def skip : Reading Unit := discard next

/-- Fails here. -/
def malformed {α : Type} (what : Malformed) : Reading α := do
  throw ⟨.malformed what, some (← get).position⟩

/-- Fails just behind the next byte, which is what was seen. -/
def malformedAhead {α : Type} (what : Malformed) : Reading α := do
  let cursor ← get
  let place := match cursor.rest with
    | [] => cursor.position
    | '\n' :: _ => ⟨cursor.position.line + 1, 0⟩
    | _ => ⟨cursor.position.line, cursor.position.column + 1⟩
  throw ⟨.malformed what, some place⟩

/-- Fails with a cause whose place comes later. -/
def refuse {α : Type} (cause : Cause) : Reading α := throw ⟨cause, none⟩

/-- Gives the place reached to a fault that has none. -/
def placed {α : Type} (value : Reading α) : Reading α := do
  try value
  catch fault =>
    let here := (← get).position
    throw { fault with position := fault.position.or (some here) }

/-- Runs `close` after `body` in either case. The fault of `body` comes first. -/
def closing {α : Type} (body : Reading α) (close : Reading Unit) : Reading α := do
  let result ← try (.ok <$> body : Reading (Except Fault α)) catch fault => pure (.error fault)
  let closed ← try (.ok <$> close : Reading (Except Fault Unit)) catch fault => pure (.error fault)
  match result, closed with
  | .error fault, _ => throw fault
  | _, .error fault => throw fault
  | .ok value, .ok _ => return value

/-- Blanks of JSON. -/
def isSpace (c : Char) : Bool := c == ' ' || c == '\n' || c == '\t' || c == '\r'

/-- The cursor behind the blanks. -/
def pastSpace : List Char → Position → Cursor
  | [], p => ⟨[], p⟩
  | c :: rest, p => if isSpace c then pastSpace rest (stepPosition p c) else ⟨c :: rest, p⟩

/-- Leaves out blanks and shows the next character. -/
def peekPastSpace : Reading (Option Char) := do
  modify fun cursor => pastSpace cursor.rest cursor.position
  peek

end Reading

end FluentGrammar.Manifest
