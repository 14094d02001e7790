import FluentGrammar.Expansion.Attribute
import FluentGrammar.Expansion.Shape

/-
  Lists in angle brackets. In canonical form lifetimes stand before other generic parameters and
  arguments, and a parameter has no colon without bounds behind it.
-/

namespace FluentGrammar.Expansion.TokenTree

/-- Parts with the commas behind them, lifetimes first. Where the last lifetime lacks a comma, one
    is added. -/
def lifetimesFirst (isLifetime : List TokenTree → Bool)
    (parts : List (List TokenTree × List TokenTree)) : List TokenTree :=
  let (lifetimes, others) := parts.partition (isLifetime ·.1)
  let joined (parts : List (List TokenTree × List TokenTree)) : List TokenTree :=
    parts.flatMap fun (part, comma) => part ++ comma
  let lacks := lifetimes.getLast?.any (·.2.isEmpty) && !others.isEmpty
  joined lifetimes ++ (if lacks then [mark ','] else []) ++ joined others

/-- A generic argument that is a lifetime. -/
def isLifetimeArgument : List TokenTree → Bool
  | [mark '\'', word _] => true
  | _ => false

/-- A generic parameter that is a lifetime. -/
def isLifetimeParameter (part : List TokenTree) : Bool :=
  (CodeAttribute.outerAt part).2.head?.any (·.isMark '\'')

/-- A generic parameter without a colon that has nothing behind it. -/
def withoutEmptyBounds (part : List TokenTree) : List TokenTree :=
  let rest := (CodeAttribute.outerAt part).2
  part.take (part.length - rest.length) ++
    match rest with
    | [mark '\'', word name, mark ':'] => [mark '\'', word name]
    | [word name, mark ':'] => [word name]
    | word name :: mark ':' :: mark '=' :: rest => word name :: mark '=' :: rest
    | rest => rest

/-- The canonical form of generic arguments, where `inner` gives that of their parts. -/
def canonicalArguments (inner : List TokenTree → List TokenTree) (trees : List TokenTree) :
    List TokenTree :=
  lifetimesFirst isLifetimeArgument
    ((commaPieces trees.length trees).map fun (part, comma) => (inner part, comma))

/-- The parts of generic parameters in canonical form, with the commas behind them. -/
def parameterPieces (inner : List TokenTree → List TokenTree) (trees : List TokenTree) :
    List (List TokenTree × List TokenTree) :=
  (commaPieces trees.length trees).map fun (part, comma) => (inner (withoutEmptyBounds part), comma)

/-- Generic parameters with their brackets, which are left out around nothing. -/
def canonicalGenerics (inner : List TokenTree → List TokenTree) (trees : List TokenTree) :
    List TokenTree :=
  if trees.isEmpty then []
  else [mark '<'] ++ lifetimesFirst isLifetimeParameter (parameterPieces inner trees) ++ [mark '>']

/-- The parameters that a type or a closure is for all of. Their order is kept. -/
def canonicalBinders (inner : List TokenTree → List TokenTree) (trees : List TokenTree) :
    List TokenTree :=
  [mark '<'] ++ (parameterPieces inner trees).flatMap (fun (part, comma) => part ++ comma) ++
    [mark '>']

/-- Some lifetime among generic arguments stands behind another argument. -/
def isMisordered (trees : List TokenTree) : Bool :=
  let parts := commaParts trees
  (parts.dropWhile isLifetimeArgument).any isLifetimeArgument

end FluentGrammar.Expansion.TokenTree
