import FluentGrammar.Report.Canvas
import FluentGrammar.Report.Window

/-
  Snippets: lines of a source with marks below them. Under a line stands a row with the marks,
  then rows for words that do not fit behind the last mark, which hang below their marks on
  stems. A bar left of the source joins the ends of a span over several lines. Lines without
  marks are left out, and an omission of several lines is shown.
-/

namespace FluentGrammar.Report

/-- The columns of a snippet. -/
structure Frame where
  /-- Columns for line numbers. -/
  numbers : Nat
  /-- The greatest depth of a bar. -/
  bars : Nat
  window : Window
  deriving Repr, DecidableEq

namespace Frame

/-- The column of the line between numbers and source. -/
def divider (f : Frame) : Nat := f.numbers + 1

/-- The column before which the bars begin. -/
def offset (f : Frame) : Nat := f.numbers + 3

/-- The column of the bar at a depth. -/
def bar (f : Frame) (depth : Nat) : Nat := f.offset + depth - 1

/-- The first column of source text. -/
def source (f : Frame) : Nat := if f.bars == 0 then f.offset else f.offset + f.bars + 1

/-- What stands for text out of view. -/
def ellipsis : List Char := ['.', '.', '.']

/-- The row of a source line, and the column of the line at which the row begins. -/
def sourceRow (f : Frame) (l : SourceLine) : Canvas × Nat :=
  let shown := Text.showText l.content
  let columns := Text.textColumns shown
  let left := f.window.leftOf columns
  let right := f.window.rightOf columns
  let (rest, skipped) := Window.dropColumns left 0 shown
  let code := Window.takeColumns (right - left) rest
  let left := max left skipped
  let number := (toString l.number).toList
  let number := List.replicate (f.numbers - number.length) ' ' ++ number
  let base := (Canvas.empty.write 0 f.source code .plain).write 0 0 number .frame
    |>.put 0 f.divider '|' .frame
  let (c, taken, columnsTaken, left) :=
    if 0 < f.window.left then
      let (taken, columnsTaken) := Window.filling ellipsis.length 0 0 code
      let c := (base.write 0 f.source ellipsis .frame).write 0 (f.source + columnsTaken)
        (code.drop taken) .plain
      (c, taken, columnsTaken, left - (columnsTaken - ellipsis.length))
    else (base, 0, 0, left)
  if right < columns then
    let (last, _) := Window.filling ellipsis.length 0 0 code.reverse
    (c.write 0 (f.source + columnsTaken + (code.length - taken) - last) ellipsis .frame, left)
  else (c, left)

end Frame

/-- A bar in use: its depth and its ink. -/
abbrev Bar := Nat × Ink

/-- Goes through the bars that begin or end on a line: one at a depth in use ends that bar, and
    any other begins one. The result is the bars that go on and those that begin. -/
def Bar.turn (going begun : List Bar) : List Bar → List Bar × List Bar
  | [] => (going, begun)
  | b :: rest =>
    if going.any (·.1 == b.1) then turn (going.filter (·.1 != b.1)) begun rest
    else turn going (begun.filter (·.1 != b.1) ++ [b]) rest

namespace Mark

/-- The ink of a mark for a report of a severity. -/
def ink (severity : Severity) (m : Mark) : Ink := if m.primary then .level severity else .frame

/-- The character that the mark is drawn with. -/
def sign (m : Mark) : Char := if m.primary then '^' else '-'

/-- The words of the mark move to a lower row because of one further left that it shares columns
    with. -/
def drops (m next : Mark) : Bool :=
  next.meets m 0 && m.hasLabel &&
    !(next.start.column == m.start.column && next.stop.column == m.stop.column &&
      next.start.char == m.start.char && next.stop.char == m.stop.char && !next.hasLabel)

/-- The next mark to the left needs a row below the one of `m`, which is `row`. -/
def crowds (m : Mark) (row : Nat) (next : Mark) : Bool :=
  let near := next.meets m (if next.label.isSome then next.labelSize + 2 else 0)
  (near && m.hasLabel && next.hasLabel) || (m.joinsBar && next.hasLabel) ||
    (m.hasLabel && next.joinsBar) || (m.joinsBar && next.joinsBar) ||
    (near && next.stop.column ≤ m.stop.column && next.hasLabel && row == 0)

/-- The row for the words of a mark, where `row` is the least row left and `rest` are the marks
    further left. -/
def ownRow (row : Nat) (m : Mark) (rest : List Mark) : Nat :=
  if row == 0 && rest.any m.drops then 1 else row

/-- The least row left after a mark. -/
def rowAfter (row : Nat) (m : Mark) (rest : List Mark) : Nat :=
  let own := m.ownRow row rest
  if rest.any (m.crowds own) then own + 1 else own

/-- Marks from right to left with the rows of their words. -/
def assignRows : Nat → List Mark → List (Nat × Mark)
  | _, [] => []
  | row, m :: rest => (m.ownRow row rest, m) :: assignRows (m.rowAfter row rest) rest

/-- The least row left after all marks. -/
def lastRow : Nat → List Mark → Nat
  | row, [] => row
  | row, m :: rest => lastRow (m.rowAfter row rest) rest

/-- The numbers of marks that share columns, where every mark is held against `all` from the third
    on. A mark whose words drop is held against the others only up to the one that makes them
    drop. `own` is the number of the first mark. -/
def sharing (all : List Mark) : Nat → Nat → List Mark → List Nat
  | _, _, [] => []
  | own, row, m :: rest =>
    let last? := if row == 0 then (rest.findIdx? m.drops).map (own + 1 + ·) else none
    let met := all.zipIdx.filter fun (other, index) =>
      1 < index && last?.all (index ≤ ·) && other.meets m 0
    (if met.isEmpty then [] else own :: met.map (·.2)) ++
      sharing all (own + 1) (m.rowAfter row rest) rest

/-- Draws the line from a mark to the bar of its span. -/
def drawJoint (f : Frame) (severity : Severity) (left : Nat) (c : Canvas) : Nat × Mark → Canvas
  | (row, m) =>
    match m.shape with
    | .opens depth | .closes depth =>
      c.fillRow (row + 1) (f.offset + depth) (f.source + m.start.column - left) '_'
        (m.ink severity)
    | .flat => c

/-- Draws the stem from a mark to its words, and the bar of its span next to the mark. `rows` is
    the number of rows below the marks. -/
def drawStem (f : Frame) (severity : Severity) (left rows : Nat) (c : Canvas) :
    Nat × Mark → Canvas
  | (row, m) =>
    let ink := m.ink severity
    let c := if 0 < row && (m.hasLabel || m.joinsBar) then
        c.fillColumn 1 (row + 2) (f.source + m.start.column - left) '|' ink
      else c
    match m.shape with
    | .opens depth =>
      (c.put (row + 1) (f.bar depth) ' ' ink).fillColumn (row + 2) (rows + 2) (f.bar depth) '|' ink
    | .closes depth => c.fillColumn 0 (row + 2) (f.bar depth) '|' ink
    | .flat => c

/-- Draws the words of a mark. -/
def drawLabel (f : Frame) (severity : Severity) (left : Nat) (c : Canvas) : Nat × Mark → Canvas
  | (row, m) =>
    let words := m.label.getD []
    if row == 0 then
      let gap := if m.stop.column == 0 then 2 else 1
      c.write 1 (f.source + (m.stop.column + gap - left)) words (m.ink severity)
    else c.write (row + 2) (f.source + (m.start.column - left)) words (m.ink severity)

/-- Draws the mark itself. -/
def drawSign (f : Frame) (severity : Severity) (left : Nat) (c : Canvas) : Nat × Mark → Canvas
  | (row, m) =>
    let ink := m.ink severity
    let columns := List.range' m.start.column (m.stop.column - m.start.column)
    let c := columns.foldl (fun c column => c.put 1 (f.source + column - left) m.sign ink) c
    if m.joinsBar || (row != 0 && m.hasLabel) then
      c.put 1 (f.source + m.start.column - left) m.sign ink
    else c

/-- Shortens a mark that is much wider than the window, and the source above it. -/
def drawCut (f : Frame) (left : Nat) (c : Canvas) (m : Mark) : Canvas :=
  let width := f.window.width
  if m.shape == .flat && 2 * width < m.width && 10 < m.width then
    let pad := max (width / 3) 5
    let start := f.source + m.start.column - left + pad
    let stop := f.source + m.stop.column - left - pad
    (c.cut 0 start stop Frame.ellipsis .frame).cut 1 start stop Frame.ellipsis .frame
  else c

/-- The bar that begins or ends at the mark. -/
def bar? (severity : Severity) (m : Mark) : Option Bar :=
  match m.shape with
  | .opens depth | .closes depth => some (depth, m.ink severity)
  | .flat => none

/-- Wider marks come first, and of equally wide ones the primary one last. -/
def wider (a b : Nat × Mark) : Bool :=
  b.2.width < a.2.width || (a.2.width == b.2.width && (!a.2.primary || b.2.primary))

end Mark

namespace MarkedLine

/-- The bars that the line begins without a row of marks: it has no marks but beginnings of spans
    with nothing but blanks before them. -/
def plainOpenings? (l : MarkedLine) : Option (List Mark) :=
  let shown := Text.showText l.line.content
  let plain (m : Mark) : Bool :=
    match m.shape with
    | .opens _ => (shown.take m.start.column).all Text.isBlank
    | .flat | .closes _ => false
  if l.marks.all plain then some l.marks else none

/-- The line with its marks, and the bars that begin or end on it. -/
def draw (f : Frame) (severity : Severity) (l : MarkedLine) : Canvas × List Bar :=
  let (code, left) := f.sourceRow l.line
  match l.plainOpenings? with
  | some openings =>
    let bars := openings.filterMap (Mark.bar? severity)
    (bars.foldl (fun c (depth, ink) => c.put 0 (f.bar depth) '/' ink) code, bars)
  | none =>
    let marks := l.marks.mergeSort fun a b =>
      b.start.column < a.start.column ||
        (b.start.column == a.start.column && b.start.char ≤ a.start.char)
    let placed := Mark.assignRows 0 marks
    let last := Mark.lastRow 0 marks
    let rows := if last == 0 then 0 else last + 1
    let isOpening (m : Mark) : Bool :=
      match m.shape with
      | .opens _ => true
      | _ => false
    let opensOnly := marks.all isOpening
    let lowest := Window.greatest (placed.map (·.1))
    let placed := if opensOnly then placed.map fun (row, m) => (lowest - row, m) else placed
    let rows := if opensOnly then rows - 1 else rows
    let c := code.fillColumn 1 (rows + 2) f.divider '|' .frame
    let c := placed.foldl (Mark.drawJoint f severity left) c
    let c := placed.foldl (Mark.drawStem f severity left rows) c
    let c := placed.foldl (Mark.drawLabel f severity left) c
    let bySize := placed.mergeSort Mark.wider
    let c := bySize.foldl (Mark.drawSign f severity left) c
    let sharing := Mark.sharing marks 0 0 marks
    let alone := bySize.zipIdx.filter fun (_, index) => !sharing.contains index
    let c := alone.foldl (fun c (p, _) => Mark.drawCut f left c p.2) c
    (c, bySize.filterMap fun p => p.2.bar? severity)

end MarkedLine

/-- A snippet. -/
structure Snippet where
  /-- All lines of the source. -/
  source : List SourceLine
  /-- The lines to show. -/
  marked : List MarkedLine
  frame : Frame
  severity : Severity

namespace Snippet

/-- Draws bars through all rows. -/
def drawBars (f : Frame) (bars : List Bar) (c : Canvas) : Canvas :=
  bars.foldl (fun c (depth, ink) => c.fillColumn 0 c.rows.length (f.bar depth) '|' ink) c

/-- What stands between a shown line and the next: nothing, or the one line between them, or the
    sign of an omission. -/
def between (s : Snippet) (bars : List Bar) (line next : MarkedLine) : Canvas :=
  let opened := line.marks.filterMap fun m =>
    match m.shape with
    | .opens _ => m.bar? s.severity
    | _ => none
  let skipped := next.line.number - line.line.number - 1
  if skipped == 0 then .empty
  else
    let base :=
      if skipped == 1 then
        ((SourceLine.numbered? s.source (line.line.number + 1)).map fun l =>
          (s.frame.sourceRow l).1).getD .empty
      else Canvas.empty.write 0 0 Frame.ellipsis .frame
    drawBars s.frame (bars ++ opened) base

/-- The shown lines in order, where `bars` are the bars in use before the first of them. -/
def drawLines (s : Snippet) : List Bar → List MarkedLine → List Canvas
  | _, [] => []
  | bars, line :: rest =>
    let (c, touched) := line.draw s.frame s.severity
    let (going, begun) := Bar.turn bars [] touched
    let c := drawBars s.frame going c
    match rest with
    | [] => [c]
    | next :: _ => c :: s.between going line next :: s.drawLines (going ++ begun) rest

/-- The place that a snippet is about: the leftmost primary mark of the first line that has one. -/
def origin? (s : Snippet) : Option (Nat × Nat) :=
  s.marked.findSome? fun l =>
    match l.marks.filter (·.primary) with
    | [] => none
    | ms => some (l.line.number, Window.least (ms.map (·.start.char)) + 1)

end Snippet

end FluentGrammar.Report
