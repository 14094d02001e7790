import FluentGrammar.Catalog.Action
import FluentGrammar.Expansion.Attribute
import FluentGrammar.Expansion.Canonical
import FluentGrammar.Expansion.Shape

/-
  Methods of builders. A method with the attribute `action` is an action of the builder: it must
  take the builder by mutable reference, and its documentation, generic parameters and parameters
  are the action's. The attribute's arguments may change its name, id and style.
-/

namespace FluentGrammar.Expansion

open Catalog (Action TypeDescriptor)

/-- Why a method is no action. -/
inductive ActionError where
  | receiver
  | whereClause
  | genericKind
  | parameterPattern
  /-- The attribute has a value instead of arguments. -/
  | expectedParentheses (inner : Bool)
  | argument (cause : ArgumentError)
  deriving Repr, DecidableEq

/-- The name of the attribute. -/
def actionWord : String := "action"

/-- The words of an action error. -/
def ActionError.message : ActionError → String
  | receiver => "actions must take `&mut self`"
  | whereClause => "where clauses are not supported on actions, use inline bounds"
  | genericKind => "only type parameters are supported on actions"
  | parameterPattern => "action parameters must be plain identifiers"
  | expectedParentheses inner =>
    "expected parentheses: #" ++ (if inner then "!" else "") ++ "[" ++ actionWord ++ "(...)]"
  | argument cause => cause.message

/-- A method with a body. -/
structure Method where
  /-- The outer attributes, then the inner ones of the body. -/
  attributes : List CodeAttribute
  /-- Everything up to the word before the name. -/
  head : List TokenTree
  name : String
  generics : List TokenTree
  inputs : List TokenTree
  /-- What stands between parameters and body. -/
  tail : List TokenTree
  body : List TokenTree
  deriving Repr

namespace Method

/-- The method has a where clause. -/
def hasWhere (m : Method) : Bool := !(upTo (·.isWord "where") m.tail).2.isEmpty

/-- The method as trees. -/
def toTrees (m : Method) : List TokenTree :=
  let (inner, outer) := m.attributes.partition (·.inner)
  outer.flatMap (·.toTrees) ++ m.head ++ [.word m.name] ++
    (if m.generics.isEmpty then [] else [.mark '<'] ++ m.generics ++ [.mark '>']) ++
    [.group .parenthesis m.inputs] ++ m.tail ++
    [.group .brace (inner.flatMap (·.toTrees) ++ m.body)]

/-- A parameter that takes the builder by mutable reference. -/
def isMutableReceiver (input : List TokenTree) : Bool :=
  match (CodeAttribute.outerAt input).2 with
  | [.mark '&', .word m, .word s] => m == "mut" && s == "self"
  | [.mark '&', .mark '\'', .word _, .word m, .word s] => m == "mut" && s == "self"
  | _ => false

/-- Three points at the end of a parameter stand for any number of arguments. -/
def isVariadic (input : List TokenTree) : Bool :=
  input.drop (input.length - 3) |>.map (·.isMark '.') |> (· == [true, true, true])

/-- The generic parameter of a part of the generic list. -/
def genericOf (part : List TokenTree) : Except ActionError TypeDescriptor :=
  match (CodeAttribute.outerAt part).2 with
  | .word name :: rest =>
    if name == "const" then .error .genericKind
    else
      let (bounds, _) := upTo (·.isMark '=') rest
      let bounds := cutAt '+' bounds.length (bounds.drop 1)
      .ok (.generic name (bounds.map TokenTree.code))
  | _ => .error .genericKind

/-- The name of a pattern that is a plain identifier. -/
def patternName? (pattern : List TokenTree) : Option String :=
  let pattern := match pattern with
    | .word "ref" :: rest => rest
    | _ => pattern
  let pattern := match pattern with
    | .word "mut" :: rest => rest
    | _ => pattern
  let named (name : String) : Option String :=
    if ["_", "true", "false", "Self", "super", "crate"].contains name then none else some name
  match pattern with
  | [.word name] => named name
  | .word name :: .mark '@' :: _ => named name
  | _ => none

/-- A pattern and what stands behind the single colon after it. -/
def splitColon : List TokenTree → List TokenTree × List TokenTree
  | [] => ([], [])
  | .mark ':' :: .mark ':' :: rest =>
    let (pattern, type) := splitColon rest
    (.mark ':' :: .mark ':' :: pattern, type)
  | .mark ':' :: rest => ([], rest)
  | t :: rest =>
    let (pattern, type) := splitColon rest
    (t :: pattern, type)

/-- The colon behind the pattern is no part of two colons, unless these begin the type. -/
def parameterParts (input : List TokenTree) : List TokenTree × List TokenTree :=
  match (CodeAttribute.outerAt input).2 with
  | t :: .mark ':' :: .mark ':' :: .mark ':' :: rest => ([t], .mark ':' :: .mark ':' :: rest)
  | trees => splitColon trees

/-- The type of a parameter: one of the generic parameters, or any other type as written. -/
def typeOf (generics : List String) (trees : List TokenTree) : TypeDescriptor :=
  match trees with
  | [.word name] => if generics.contains name then .generic name [] else .concrete name []
  | _ => .concrete (TokenTree.code trees) []

/-- Adds a parameter to an action. -/
def addInput (a : Action) (input : List TokenTree) : Except ActionError Action :=
  let (pattern, type) := parameterParts input
  match patternName? pattern with
  | some name => .ok (a.withParameter name (typeOf a.genericNames type))
  | none => .error .parameterPattern

/-- The arguments that the attribute knows. -/
def actionArguments : ArgumentNames := ⟨actionWord, ["name", "id"], ["method"]⟩

/-- Changes an action as the attribute's arguments say. -/
def applyArguments (a : Action) (tag : CodeAttribute) : Except ActionError Action :=
  match tag.arguments with
  | [] => .ok a
  | .group _ trees :: _ => do
    let arguments ← (actionArguments.read trees).mapError .argument
    let a := (lastValue? arguments "name").elim a a.withName
    let a := (lastValue? arguments "id").elim a a.withId
    return if (lastValue? arguments "method").isSome then a.withStyle .method else a
  | _ :: _ => .error (.expectedParentheses tag.inner)

/-- The action of a method whose attribute has been taken off. -/
def describe (m : Method) (tag : CodeAttribute) : Except ActionError Action := do
  let inputs := (commaParts (TokenTree.canonical m.inputs)).filter (!isVariadic ·)
  if !(inputs.head?.any isMutableReceiver) then throw .receiver
  if m.hasWhere then throw .whereClause
  let a ← (commaParts (TokenTree.canonical m.generics)).foldlM (fun (a : Action) part => do
    return a.withGeneric (← genericOf part)) (Action.ofMethod m.name)
  let a ← (inputs.drop 1).foldlM addInput a
  let doc := CodeAttribute.docOf m.attributes
  applyArguments (if doc.isEmpty then a else a.withDoc doc) tag

/-- The method without its first attribute for actions, and the action if there was one. -/
def takeAction (m : Method) : Except ActionError (Method × Option Action) :=
  match m.attributes.find? (·.isNamed actionWord) with
  | none => .ok (m, none)
  | some tag => do
    let rest := { m with attributes := m.attributes.eraseP (·.isNamed actionWord) }
    return (rest, some (← rest.describe tag))

end Method

end FluentGrammar.Expansion
