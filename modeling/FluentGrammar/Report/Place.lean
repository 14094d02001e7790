import FluentGrammar.Span
import FluentGrammar.Text.Bytes
import FluentGrammar.Text.Glyph
import FluentGrammar.Text.Lines

/-
  Places in a source: a byte offset lies on a line, after a number of characters, which take a
  number of columns. An offset in or behind a line ending counts as the end of the line's text.
  An offset inside a character has no place.
-/

namespace FluentGrammar.Report

/-- A line of a source. The next line begins at `stop`. -/
structure SourceLine where
  /-- Counted from 1. -/
  number : Nat
  /-- The text without its ending. -/
  content : List Char
  start : Nat
  stop : Nat
  deriving Repr, DecidableEq, Inhabited

namespace SourceLine

/-- Bytes of the text without its ending. -/
def size (l : SourceLine) : Nat := Text.byteLength l.content

/-- Lines made of pieces with their endings, the first with this number and offset. -/
def ofPieces : Nat → Nat → List (List Char) → List SourceLine
  | _, _, [] => []
  | number, start, piece :: rest =>
    let stop := start + Text.byteLength piece
    ⟨number, Text.dropEnding piece, start, stop⟩ :: ofPieces (number + 1) stop rest

/-- The lines of a source. A source without any has one empty line. -/
def ofSource (source : List Char) : List SourceLine :=
  match ofPieces 1 0 (Text.cutAfterFeeds source) with
  | [] => [⟨1, [], 0, 1⟩]
  | lines => lines

/-- The line that an offset lies on, the last one when it lies beyond all. -/
def holding (lines : List SourceLine) (offset : Nat) : SourceLine :=
  (lines.find? fun l => l.start ≤ offset && offset < l.stop).getD (lines.getLastD default)

/-- The line of a number. -/
def numbered? (lines : List SourceLine) (number : Nat) : Option SourceLine :=
  lines.find? (·.number == number)

/-- The text of the line before an offset. -/
def before? (l : SourceLine) (offset : Nat) : Option (List Char) :=
  (Text.splitAtByte? (min (offset - l.start) l.size) l.content).map (·.1)

end SourceLine

/-- A place in a source. -/
structure Place where
  line : Nat
  /-- Characters before it on its line. -/
  char : Nat
  /-- Columns before it on its line. -/
  column : Nat
  offset : Nat
  deriving Repr, DecidableEq, Inhabited

namespace Place

/-- The place one character and one column further. -/
def next (p : Place) : Place := { p with char := p.char + 1, column := p.column + 1 }

/-- The place one character and one column before, if there is one. -/
def previous (p : Place) : Place := { p with char := p.char - 1, column := p.column - 1 }

/-- The place where a span begins. Behind the text of its line it is one character further. -/
def ofStart? (lines : List SourceLine) (offset : Nat) : Option Place :=
  let l := SourceLine.holding lines offset
  (l.before? offset).map fun before =>
    let behind := if l.size < offset - l.start then 1 else 0
    ⟨l.number, before.length + behind, Text.textColumns before, offset⟩

/-- The place where a span ends that begins on a line. When that is another line and the span
    ends behind the text of its last line, the place is one further. -/
def ofStop? (lines : List SourceLine) (startLine offset : Nat) : Option Place :=
  let l := SourceLine.holding lines offset
  (l.before? offset).map fun before =>
    let p : Place := ⟨l.number, before.length, Text.textColumns before, offset⟩
    if startLine ≠ l.number ∧ l.start + l.size < offset then p.next else p

/-- Where a span begins and ends. A span without columns on one line takes one column. -/
def ofSpan? (lines : List SourceLine) (s : Span) : Option (Place × Place) := do
  let start ← ofStart? lines s.start
  let stop ← if s.start = s.stop then some start else ofStop? lines start.line s.stop
  if start.line = stop.line ∧ start.column = stop.column then
    return (start, { stop with column := stop.column + 1 })
  else return (start, stop)

end Place

end FluentGrammar.Report
