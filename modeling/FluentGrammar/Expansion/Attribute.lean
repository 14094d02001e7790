import FluentGrammar.Expansion.Arguments

/-
  Attributes in builder code: a path in brackets behind a number sign, with arguments in
  brackets, or with a value behind an equals sign, or alone.
-/

namespace FluentGrammar.Expansion

/-- An attribute. An inner one is about what encloses it. -/
structure CodeAttribute where
  inner : Bool
  trees : List TokenTree
  deriving Repr

namespace CodeAttribute

/-- The attribute as trees. -/
def toTrees (a : CodeAttribute) : List TokenTree :=
  [.mark '#'] ++ (if a.inner then [.mark '!'] else []) ++ [.group .bracket a.trees]

/-- The path of an attribute. -/
def path? (a : CodeAttribute) : Option WordPath :=
  match readPath a.trees with
  | .ok (path, _) => some path
  | .error _ => none

/-- The attribute's path is a single word. -/
def isNamed (a : CodeAttribute) (name : String) : Bool := a.path?.any (·.isWord name)

/-- What stands behind the path. -/
def arguments (a : CodeAttribute) : List TokenTree :=
  match readPath a.trees with
  | .ok (_, rest) => rest
  | .error _ => []

/-- The line of documentation that the attribute holds, less a blank at its start. -/
def docLine? (a : CodeAttribute) : Option String :=
  if a.isNamed "doc" then
    match a.arguments with
    | [.mark '=', .literal text] => (stringValue? text).map fun value =>
      match value.toList with
      | ' ' :: rest => String.ofList rest
      | _ => value
    | _ => none
  else none

/-- The outer attributes at the front, and the rest. -/
def outerAt : List TokenTree → List CodeAttribute × List TokenTree
  | .mark '#' :: .group .bracket trees :: rest =>
    let (attributes, rest) := outerAt rest
    (⟨false, trees⟩ :: attributes, rest)
  | rest => ([], rest)

/-- The inner attributes at the front, and the rest. -/
def innerAt : List TokenTree → List CodeAttribute × List TokenTree
  | .mark '#' :: .mark '!' :: .group .bracket trees :: rest =>
    let (attributes, rest) := innerAt rest
    (⟨true, trees⟩ :: attributes, rest)
  | rest => ([], rest)

/-- Documentation of several attributes. -/
def docOf (attributes : List CodeAttribute) : String :=
  "\n".intercalate (attributes.filterMap docLine?)

end CodeAttribute

end FluentGrammar.Expansion
