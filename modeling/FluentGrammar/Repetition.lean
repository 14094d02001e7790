/-
  How often a repeated expression may occur.
-/

namespace FluentGrammar

/-- The marks `*`, `+` and `?`. -/
inductive Repetition where
  | zeroOrMore
  | oneOrMore
  | optional
  deriving Repr, DecidableEq, Inhabited

/-- The mark itself. -/
def Repetition.mark : Repetition → String
  | zeroOrMore => "*"
  | oneOrMore => "+"
  | optional => "?"

end FluentGrammar
