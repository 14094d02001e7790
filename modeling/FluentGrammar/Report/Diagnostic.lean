import FluentGrammar.Span

/-
  Diagnostics: what the stages of a compilation have to say about places of the source. Every
  kind is an error or a warning and has a wording, which most kinds give around a name.
-/

namespace FluentGrammar.Report

/-- What a diagnostic is about. -/
inductive Kind where
  | unclosedGroup
  | expectedExpression
  | expectedRuleName
  | expectedColon
  | expectedSemicolon
  | unexpectedToken
  | duplicateRule
  | undefinedSymbol
  | leftRecursionNoBase
  | emptyGrammar
  | unproductiveStart
  | grammarConflict
  | shadowedAction
  | unusedRule
  | nonRegularGrammar
  | endConflict
  deriving Repr, DecidableEq, Inhabited

/-- Errors stop a compilation and warnings do not. -/
inductive Severity where
  | error
  | warning
  deriving Repr, DecidableEq

/-- The word for a severity. -/
def Severity.text : Severity → String
  | error => "error"
  | warning => "warning"

/-- The severity of a kind. -/
def Kind.severity : Kind → Severity
  | shadowedAction | unusedRule | nonRegularGrammar | endConflict => .warning
  | _ => .error

/-- The wording of a kind without a detail. -/
def Kind.summary : Kind → String
  | unclosedGroup => "missing closing `)`"
  | expectedExpression => "expected an expression"
  | expectedRuleName => "expected rule name"
  | expectedColon => "expected `:` after rule name"
  | expectedSemicolon => "expected `;` after rule body"
  | unexpectedToken => "unexpected token"
  | duplicateRule => "duplicate rule"
  | undefinedSymbol => "undefined symbol"
  | leftRecursionNoBase => "left recursion without a base case"
  | emptyGrammar => "grammar has no rules"
  | unproductiveStart => "start rule derives no actions"
  | grammarConflict => "grammar is ambiguous"
  | shadowedAction => "rule shadows an action"
  | unusedRule => "rule is never used"
  | nonRegularGrammar => "grammar is not regular"
  | endConflict => "ambiguous end of input"

/-- The wording of a kind around a detail, which most kinds take to be a name. -/
def Kind.about (kind : Kind) (detail : String) : String :=
  match kind with
  | duplicateRule => "`" ++ detail ++ "` is already defined"
  | undefinedSymbol => "`" ++ detail ++ "` is neither an action nor a rule"
  | leftRecursionNoBase => "`" ++ detail ++ "` is left recursive in every branch"
  | shadowedAction => "rule `" ++ detail ++ "` shadows the action of the same name"
  | unusedRule => "rule `" ++ detail ++ "` is never used"
  | unproductiveStart => "start rule `" ++ detail ++ "` never finishes deriving"
  | nonRegularGrammar =>
    "rule `" ++ detail ++ "` recurses outside tail position; lowering directly"
  | unclosedGroup => kind.summary ++ "; " ++ detail
  | _ => kind.summary ++ ": " ++ detail

/-- The wording of a kind. -/
def Kind.message (kind : Kind) : Option String → String
  | none => kind.summary
  | some detail => kind.about detail

/-- A second place that a diagnostic points at. -/
structure Related where
  label : String
  span : Span
  deriving Repr, DecidableEq

end FluentGrammar.Report

namespace FluentGrammar

open Report in
/-- A diagnostic. -/
structure Diagnostic where
  kind : Kind
  span : Span
  message : String
  related : List Related
  deriving Repr, DecidableEq

namespace Diagnostic

open Report

/-- The plain diagnostic of a kind. -/
def of (kind : Kind) (span : Span) : Diagnostic := ⟨kind, span, kind.summary, []⟩

/-- The diagnostic of a kind about a detail. -/
def about (kind : Kind) (span : Span) (detail : String) : Diagnostic :=
  ⟨kind, span, kind.about detail, []⟩

/-- Points at one more place. -/
def relatedTo (d : Diagnostic) (label : String) (span : Span) : Diagnostic :=
  { d with related := d.related ++ [⟨label, span⟩] }

/-- The severity of the kind. -/
def severity (d : Diagnostic) : Severity := d.kind.severity

/-- The diagnostic on one line. -/
def text (d : Diagnostic) : String :=
  d.severity.text ++ " at " ++ d.span.text ++ ": " ++ d.message ++
    String.join (d.related.map fun r => " (related: " ++ r.label ++ " at " ++ r.span.text ++ ")")

/-- All diagnostics, each on a line. -/
def textOfAll (ds : List Diagnostic) : String := "\n".intercalate (ds.map (·.text))

/-- Some diagnostic is an error. -/
def anyError (ds : List Diagnostic) : Bool := ds.any (·.severity == .error)

/-- Some diagnostic is a warning. -/
def anyWarning (ds : List Diagnostic) : Bool := ds.any (·.severity == .warning)

/-- The number of warnings. -/
def warningCount (ds : List Diagnostic) : Nat := ds.countP (·.severity == .warning)

/-- Some diagnostic has this kind. -/
def anyOfKind (ds : List Diagnostic) (kind : Kind) : Bool := ds.any (·.kind == kind)

end Diagnostic

end FluentGrammar
