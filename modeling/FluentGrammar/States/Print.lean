import FluentGrammar.Colors
import FluentGrammar.States.Basic

/-
  States in words: a line for the state, a line for each of its operations, and an empty line
  between states.
-/

namespace FluentGrammar

namespace Operation

/-- Generic arguments and parameters in words. -/
def signatureText : OperationKind → String
  | .property => ""
  | .method parameters generics =>
    (if generics.isEmpty then "" else "<" ++ ", ".intercalate (generics.map (·.rendered)) ++ ">")
      ++ "(" ++ ", ".intercalate (parameters.map fun p => p.name ++ ": " ++ p.type) ++ ")"

/-- The target in words. -/
def targetText (p : Palette) : OperationTarget → String
  | .state name _ => p.state name
  | .done => p.muted "end"

/-- The line of an operation. -/
def line (p : Palette) (o : Operation) : String :=
  "  " ++ p.action o.name ++ signatureText o.kind ++ " " ++ p.muted "→" ++ " " ++
    targetText p o.target

end Operation

namespace StateType

/-- The lines of a state. -/
def linesOf (p : Palette) (s : StateType) : List String :=
  (p.state s.name ++ " " ++ p.muted ("(N" ++ toString s.node ++ ")")) ::
    s.operations.map (Operation.line p)

/-- States in words. -/
def dump (p : Palette) (states : List StateType) : String :=
  "\n".intercalate (states.map fun s => Text.unlines (s.linesOf p))

end StateType

end FluentGrammar
