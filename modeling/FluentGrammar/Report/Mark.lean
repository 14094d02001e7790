import FluentGrammar.Report.Diagnostic
import FluentGrammar.Report.Place
import FluentGrammar.Text.Blank

/-
  Marks below the lines of a source. A span on one line gives one mark. A span over several lines
  gives a mark where it opens and one where it closes with the label, and keeps some of the lines
  between in view; a bar at the span's depth joins the marks. Spans over common lines have
  different depths, and of several equal spans only one has a bar.
-/

namespace FluentGrammar.Report

/-- What a mark is part of. -/
inductive Shape where
  /-- A span on one line. -/
  | flat
  | opens (depth : Nat)
  | closes (depth : Nat)
  deriving Repr, DecidableEq

/-- A mark on a line. -/
structure Mark where
  start : Place
  stop : Place
  primary : Bool
  label : Option (List Char)
  shape : Shape
  deriving Repr, DecidableEq

namespace Mark

/-- The columns that the mark takes. -/
def width (m : Mark) : Nat := (m.stop.column - m.start.column) + (m.start.column - m.stop.column)

/-- The mark has words. -/
def hasLabel (m : Mark) : Bool := m.label.any (!·.isEmpty)

/-- Bytes of the words. -/
def labelSize (m : Mark) : Nat := (m.label.map Text.byteLength).getD 0

/-- The mark leads a line to the bar of its span. -/
def joinsBar (m : Mark) : Bool :=
  match m.shape with
  | .opens _ | .closes _ => true
  | .flat => false

end Mark

/-- The ranges share a number; with `inclusive` their ends belong to them. -/
def rangesMeet (aStart aStop bStart bStop : Nat) (inclusive : Bool) : Bool :=
  let extra := if inclusive then 1 else 0
  (bStart ≤ aStart && aStart < bStop + extra) || (aStart ≤ bStart && bStart < aStop + extra)

/-- The marks share a column when the first is lengthened by some. -/
def Mark.meets (a b : Mark) (longer : Nat) : Bool :=
  rangesMeet a.start.column (a.stop.column + longer) b.start.column b.stop.column false

/-- A span over several lines. -/
structure Stretch where
  start : Place
  stop : Place
  primary : Bool
  label : List Char
  depth : Nat
  /-- A later equal span has the bar. -/
  doubled : Bool
  deriving Repr, DecidableEq

namespace Stretch

/-- The spans are equal. -/
def same (a b : Stretch) : Bool := a.start == b.start && a.stop == b.stop

/-- Longer ones come first among those that begin on one line. -/
def le (a b : Stretch) : Bool :=
  a.start.line < b.start.line || (a.start.line == b.start.line && b.stop.line ≤ a.stop.line)

/-- Moves the stretches that share lines with `a` one deeper, and notes the equal ones that differ
    from it otherwise, up to the first that is neither. That one is primary if some of `firsts` are
    equal to it. -/
def settle (firsts : List Stretch) (a : Stretch) : List Stretch → List Stretch
  | [] => []
  | b :: rest =>
    if !a.same b && rangesMeet a.start.line a.stop.line b.start.line b.stop.line true then
      { b with depth := b.depth + 1 } :: settle firsts a rest
    else if a.same b && a != b then { b with doubled := true } :: settle firsts a rest
    else { b with primary := b.primary || firsts.any (·.same b) } :: rest

/-- The greatest depth. -/
def maxDepth (ss : List Stretch) : Nat := (ss.map (·.depth)).foldl max 0

/-- The stretches in order and with their depths, where the outermost has the least. -/
def arrange (ss : List Stretch) : List Stretch :=
  let sorted := ss.mergeSort le
  let settled := sorted.zipIdx.foldl (fun all (a, own) =>
    settle ((sorted.take (own + 1)).filter (·.primary)) a all) sorted
  let deepest := maxDepth settled
  settled.map fun s => { s with depth := deepest - s.depth + 1 }

/-- The mark where the stretch begins. -/
def opening (s : Stretch) : Mark := ⟨s.start, s.start.next, s.primary, none, .opens s.depth⟩

/-- The mark where the stretch ends. -/
def closing (s : Stretch) : Mark :=
  ⟨s.stop.previous, s.stop, s.primary, some s.label, if s.doubled then .flat else .closes s.depth⟩

/-- The line has something to show: more than blanks, a comment or a single bracket. -/
def isTelling (content : List Char) : Bool :=
  let text := String.ofList (Text.trim content)
  let isComment := text.startsWith "//" && !(text.startsWith "///" || text.startsWith "//!")
  !(isComment || ["", "\x7b", "\x7d", "(", ")", "[", "]"].contains text)

/-- The line of a number exists and is telling. -/
def isTellingAt (lines : List SourceLine) (number : Nat) : Bool :=
  (SourceLine.numbered? lines number).any fun l => isTelling l.content

/-- The marks of a stretch with their lines. -/
def marks (s : Stretch) : List (Nat × Mark) :=
  let last := (s.stop.line, s.closing)
  if s.doubled then [last] else [(s.start.line, s.opening), last]

/-- The lines between the ends of a stretch that stay in view: up to three from the start on, less
    the last ones that tell nothing, and the last one if it tells something and is not near the
    start. -/
def kept (lines : List SourceLine) (s : Stretch) : List Nat :=
  if s.doubled then []
  else
    let first := s.start.line
    let near := min (first + 4) s.stop.line
    let telling? := (List.range' first (near - first)).reverse.find? (isTellingAt lines)
    let inner := List.range' (first + 1) (telling?.getD first - first)
    let before := s.stop.line - 1
    let quiet := (SourceLine.numbered? lines before).any fun l => !isTelling l.content
    if near < before && !quiet then inner ++ [before] else inner

end Stretch

/-- A line in view with the marks below it. -/
structure MarkedLine where
  line : SourceLine
  marks : List Mark
  deriving Repr, DecidableEq

namespace MarkedLine

/-- A labelled place. -/
structure Label where
  span : Span
  primary : Bool
  text : List Char
  deriving Repr, DecidableEq

/-- The mark of a label on its line, or its stretch. -/
def place? (lines : List SourceLine) (l : Label) : Option (Sum (Nat × Mark) Stretch) := do
  let (start, stop) ← Place.ofSpan? lines l.span
  if start.line = stop.line then
    return .inl (start.line, ⟨start, stop, l.primary, some l.text, .flat⟩)
  else return .inr ⟨start, stop, l.primary, l.text, 1, false⟩

/-- The lines in view for some labels, and the greatest depth of a bar. -/
def ofLabels? (lines : List SourceLine) (labels : List Label) :
    Option (List MarkedLine × Nat) := do
  let placed ← labels.mapM (place? lines)
  let flat := placed.filterMap Sum.getLeft?
  let stretches := Stretch.arrange (placed.filterMap Sum.getRight?)
  let marks := flat ++ stretches.flatMap Stretch.marks
  let kept := stretches.flatMap (Stretch.kept lines)
  let marked := lines.filterMap fun l =>
    let own := (marks.filter (·.1 == l.number)).map (·.2)
    if own.isEmpty && !kept.contains l.number then none else some ⟨l, own⟩
  return (marked, Stretch.maxDepth stretches)

end MarkedLine

end FluentGrammar.Report
