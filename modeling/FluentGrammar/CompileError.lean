import FluentGrammar.Report.Diagnostic

/-
  Why a compilation fails. Most failures carry the diagnostics of the stage that failed, and once
  they leave the pipeline also those of the stages before it.
-/

namespace FluentGrammar

/-- A failure of some stage. -/
inductive CompileError where
  /-- Groups of the source nest too deep. -/
  | nestingTooDeep
  /-- The source has syntax errors. -/
  | malformedSource (diagnostics : List Diagnostic)
  | undefinedSymbol (name : String) (diagnostics : List Diagnostic)
  | invalidGrammar (diagnostics : List Diagnostic)
  | conflict (diagnostics : List Diagnostic)
  /-- Reductions from a state go on without end. -/
  | endlessReduction (state : Nat) (terminal : String) (bound : Nat)
  deriving Repr

namespace CompileError

/-- The words of a failure. -/
def message : CompileError → String
  | nestingTooDeep => "grammar nesting exceeds the recursion limit"
  | malformedSource _ => "grammar has syntax errors"
  | undefinedSymbol name _ => "undefined symbol `" ++ name ++ "`"
  | invalidGrammar _ => "invalid grammar"
  | conflict _ => "grammar has parse table conflicts"
  | endlessReduction state terminal bound =>
    "reduce chain from state " ++ toString state ++ " on `" ++ terminal ++ "` exceeds " ++
      toString bound ++ " steps"

/-- The diagnostics of a failure, if it has any. -/
def diagnostics? : CompileError → Option (List Diagnostic)
  | malformedSource ds | undefinedSymbol _ ds | invalidGrammar ds | conflict ds => some ds
  | nestingTooDeep | endlessReduction .. => none

/-- The failure with earlier diagnostics in front of its own. -/
def after (earlier : List Diagnostic) : CompileError → CompileError
  | malformedSource ds => malformedSource (earlier ++ ds)
  | undefinedSymbol name ds => undefinedSymbol name (earlier ++ ds)
  | invalidGrammar ds => invalidGrammar (earlier ++ ds)
  | conflict ds => conflict (earlier ++ ds)
  | e => e

theorem diagnostics?_after (earlier : List Diagnostic) (e : CompileError) :
    (e.after earlier).diagnostics? = e.diagnostics?.map (earlier ++ ·) := by
  cases e <;> rfl

end CompileError

end FluentGrammar
