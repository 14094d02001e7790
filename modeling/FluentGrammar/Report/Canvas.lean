import FluentGrammar.Report.Diagnostic

/-
  A canvas of character cells. A cell is written at a row and a column, and writing beyond the
  end of a row or below the last row fills up with blanks. Every cell has an ink, and a canvas is
  printed with codes for the inks or without any.
-/

namespace FluentGrammar.Report

/-- What a cell is drawn with. -/
inductive Ink where
  | plain
  /-- Titles. -/
  | strong
  /-- The word for a severity, and what points at the place of a report. -/
  | level (severity : Severity)
  /-- Line numbers, frames, and what points at related places. -/
  | frame
  deriving Repr, DecidableEq

/-- The code that switches to an ink. -/
def Ink.code : Ink → String
  | plain => ""
  | strong => "\x1b[1m"
  | level .error => "\x1b[1m\x1b[91m"
  | level .warning => "\x1b[1m\x1b[33m"
  | frame => "\x1b[1m\x1b[94m"

/-- The code that ends an ink. -/
def Ink.endCode : Ink → String
  | plain => ""
  | _ => "\x1b[0m"

/-- A character with its ink. -/
structure Cell where
  char : Char
  ink : Ink
  deriving Repr, DecidableEq

/-- A cell not written. -/
def Cell.blank : Cell := ⟨' ', .plain⟩

/-- The list with the element at an index changed, and with the filler where it was too short. -/
def alterAt {α : Type} (filler : α) (f : α → α) : Nat → List α → List α
  | 0, [] => [f filler]
  | 0, x :: rest => f x :: rest
  | n + 1, [] => filler :: alterAt filler f n []
  | n + 1, x :: rest => x :: alterAt filler f n rest

/-- Rows of cells. -/
structure Canvas where
  rows : List (List Cell)
  deriving Repr, DecidableEq

namespace Canvas

/-- The canvas without rows. -/
def empty : Canvas := ⟨[]⟩

/-- Writes a cell. -/
def put (c : Canvas) (row column : Nat) (char : Char) (ink : Ink) : Canvas :=
  ⟨alterAt [] (alterAt .blank (fun _ => ⟨char, ink⟩) column) row c.rows⟩

/-- Writes a text to the right from a cell. -/
def write (c : Canvas) (row column : Nat) : List Char → Ink → Canvas
  | [], _ => c
  | char :: rest, ink => (c.put row column char ink).write row (column + 1) rest ink

/-- Writes one character from a column up to another. -/
def fillRow (c : Canvas) (row start stop : Nat) (char : Char) (ink : Ink) : Canvas :=
  c.write row start (List.replicate (stop - start) char) ink

/-- Writes one character from a row up to another. -/
def fillColumn (c : Canvas) (start stop column : Nat) (char : Char) (ink : Ink) : Canvas :=
  (List.range' start (stop - start)).foldl (fun c row => c.put row column char ink) c

/-- Cuts a stretch out of a row and puts a text at the place of the cut. Nothing is cut when the
    stretch reaches beyond the row. -/
def cut (c : Canvas) (row start stop : Nat) (text : List Char) (ink : Ink) : Canvas :=
  let shorten (cells : List Cell) : List Cell :=
    if stop ≤ start || cells.length < stop then cells
    else cells.take start ++ text.map (fun char => ⟨char, ink⟩) ++ cells.drop stop
  ⟨alterAt [] shorten row c.rows⟩

/-- One canvas above another. -/
def above (top bottom : Canvas) : Canvas := ⟨top.rows ++ bottom.rows⟩

/-- One canvas above the next. -/
def stack (cs : List Canvas) : Canvas := cs.foldl above empty

/-- A row of texts with their inks. -/
def ofRow (parts : List (List Char × Ink)) : Canvas :=
  ⟨[parts.flatMap fun (text, ink) => text.map (⟨·, ink⟩)]⟩

/-- A printed row, where `ink` is the ink in use before it. -/
def rowText (colored : Bool) (ink : Ink) : List Cell → String
  | [] => if colored then ink.endCode else ""
  | cell :: rest =>
    let change := if colored && cell.ink != ink then ink.endCode ++ cell.ink.code else ""
    change ++ cell.char.toString ++ rowText colored cell.ink rest

/-- The printed canvas. -/
def text (c : Canvas) (colored : Bool) : String :=
  "\n".intercalate (c.rows.map (rowText colored .plain))

end Canvas

end FluentGrammar.Report
