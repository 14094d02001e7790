import FluentGrammar.Report.Mark

/-
  The columns of a source that are shown when its lines are too wide. The window is moved, in
  this order of preference, to show everything but the blanks that all lines begin with, or the
  marks with their words, or the marks; failing all that, it shows the marks only.
-/

namespace FluentGrammar.Report

/-- The columns in view. -/
structure Window where
  /-- The first column in view. -/
  left : Nat
  /-- The column after the last in view. -/
  right : Nat
  /-- How many columns fit. -/
  width : Nat
  deriving Repr, DecidableEq

namespace Window

/-- How many columns a shown line may take in all. -/
def terminalWidth : Nat := 140

/-- Columns kept free around what must be in view. -/
def padding : Nat := 6

/-- The least member, or zero when there is none. -/
def least : List Nat → Nat
  | [] => 0
  | n :: rest => rest.foldl min n

/-- The greatest member, or zero when there is none. -/
def greatest (ns : List Nat) : Nat := ns.foldl max 0

/-- Columns of the blanks that every line begins with, lines of blanks apart. -/
def commonIndent (lines : List MarkedLine) : Nat :=
  let contents := (lines.map (·.line.content)).filter (·.any (!Text.isBlank ·))
  least (contents.map fun cs =>
    (cs.takeWhile Text.isBlank).foldl (fun n c => n + if c == '\t' then 4 else 1) 0)

/-- The window for lines with marks when `width` columns fit. -/
def ofLines (lines : List MarkedLine) (width : Nat) : Window :=
  let marks := lines.flatMap (·.marks)
  let leftmost := least (marks.flatMap fun m => [m.start.column, m.stop.column])
  let indent := min (commonIndent lines) leftmost - padding
  let markLeft := leftmost - padding
  let markRight := greatest (marks.flatMap fun m => [m.start.column, m.stop.column]) + padding
  let wordsRight := greatest (marks.map fun m =>
    m.stop.column + (m.label.map fun words => Text.textColumns words + 1).getD 0) + padding
  let longest := greatest (lines.map fun l => Text.textColumns l.line.content)
  let left := if 20 < indent then indent - 16 else 0
  let right := max longest left
  if right - left ≤ width then ⟨left, right, width⟩
  else if wordsRight - indent ≤ width then ⟨indent, indent + width, width⟩
  else if wordsRight - markLeft ≤ width then
    let left := markLeft - (width - (wordsRight - markLeft)) / 2
    ⟨left, left + width, width⟩
  else if markRight - markLeft ≤ width then
    let left := markLeft - (width - (markRight - markLeft)) / 5 * 2
    ⟨left, left + width, width⟩
  else ⟨markLeft, markRight, width⟩

/-- The first column in view of a line with some columns. -/
def leftOf (w : Window) (columns : Nat) : Nat := min w.left columns

/-- The column after the last in view of a line with some columns. -/
def rightOf (w : Window) (columns : Nat) : Nat :=
  if columns - w.left ≤ w.width then columns else min columns w.right

/-- The characters from a column on, and the column at which they begin. -/
def dropColumns : Nat → Nat → List Char → List Char × Nat
  | _, skipped, [] => ([], skipped)
  | left, skipped, c :: rest =>
    if skipped < left then dropColumns left (skipped + Text.columns c) rest
    else (c :: rest, skipped)

/-- The characters that fit into some columns. -/
def takeColumns : Nat → List Char → List Char
  | _, [] => []
  | room, c :: rest =>
    if Text.columns c ≤ room then c :: takeColumns (room - Text.columns c) rest else []

/-- How many characters it takes to fill some columns, and how many columns these take. -/
def filling (wanted : Nat) : Nat → Nat → List Char → Nat × Nat
  | count, columns, [] => (count, columns)
  | count, columns, c :: rest =>
    if wanted ≤ columns + Text.columns c then (count + 1, columns + Text.columns c)
    else filling wanted (count + 1) (columns + Text.columns c) rest

end Window

end FluentGrammar.Report
