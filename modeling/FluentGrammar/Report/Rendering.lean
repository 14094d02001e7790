import FluentGrammar.Report.Snippet

/-
  Diagnostics shown next to their source: a title, the place in the source, and a snippet with
  the diagnostic's span marked by `^` and related spans by `-`. A source does not have a span
  that ends inside a character or behind its end, so that such a diagnostic has no rendering.
-/

namespace FluentGrammar

/-- The span with at least one byte, unless it lies at the end of a text of this length. -/
def Span.visible (length : Nat) (s : Span) : Span :=
  if s.start = s.stop then ⟨s.start, min (s.start + 1) length⟩ else s

namespace Diagnostic

open Report

/-- The labelled places of a diagnostic, its own first. -/
def labels (length : Nat) (d : Diagnostic) : List MarkedLine.Label :=
  ⟨d.span.visible length, true, d.message.toList⟩ ::
    d.related.map fun r => ⟨r.span.visible length, false, r.label.toList⟩

/-- The number of the line on which an offset lies, where an offset right behind a line ending
    still counts to that line. -/
def lineBefore (source : List Char) (offset : Nat) : Nat :=
  match Text.splitAtByte? offset source with
  | some (before, _) => max 1 (Text.cutAfterFeeds before).length
  | none => 1

/-- The snippet of a diagnostic. -/
def snippet? (source : String) (d : Diagnostic) : Option Snippet := do
  let chars := source.toList
  let length := Text.byteLength chars
  let labels := d.labels length
  if labels.any fun l => length + 1 < l.span.stop then none
  else
    let lines := SourceLine.ofSource chars
    let (marked, bars) ← MarkedLine.ofLabels? lines labels
    let last := min (Window.greatest (labels.map (·.span.stop))) length
    let numbers := (toString (lineBefore chars last)).length
    let frame : Frame := ⟨numbers, bars, ⟨0, 0, 0⟩⟩
    let window := Window.ofLines marked (Window.terminalWidth - frame.source)
    return ⟨lines, marked, { frame with window }, d.severity⟩

/-- The title of a diagnostic. Further lines of the message are moved below its first. -/
def title (d : Diagnostic) : Canvas :=
  let word := d.severity.text.toList
  let message := Text.showText d.message.toList
  let part (index : Nat) (line : List Char) : Canvas :=
    if index == 0 then
      Canvas.ofRow [(word, .level d.severity), (':' :: ' ' :: line, .strong)]
    else Canvas.ofRow [(List.replicate (word.length + 2) ' ', .plain), (line, .strong)]
  Canvas.stack ((message.splitOn '\n').mapIdx part)

/-- The diagnostic as it is shown for a source. -/
def rendered? (source : String) (path : Option String) (colored : Bool) (d : Diagnostic) :
    Option String := do
  let s ← d.snippet? source
  let place := match path, s.origin? with
    | some path, some (line, column) =>
      [Canvas.ofRow [(List.replicate s.frame.numbers ' ', .plain), ("--> ".toList, .frame),
        ((path ++ ":" ++ toString line ++ ":" ++ toString column).toList, .plain)]]
    | _, _ => []
  let spacer := Canvas.empty.put 0 s.frame.divider '|' .frame
  return (Canvas.stack (d.title :: place ++ [spacer] ++ s.drawLines [] s.marked)).text colored

/-- Diagnostics as they are shown for a source, one after the other. -/
def allRendered? (source : String) (path : Option String) (colored : Bool)
    (ds : List Diagnostic) : Option String := do
  return "\n".intercalate (← ds.mapM (·.rendered? source path colored))

end Diagnostic

end FluentGrammar
