import FluentGrammar.Expansion.Literal
import FluentGrammar.Expansion.Token

/-
  Arguments of attributes: paths with commas between, where a path may be given a string. Which
  paths are known, and which of them take a string, differs from attribute to attribute.
-/

namespace FluentGrammar.Expansion

/-- What is wrong with arguments. -/
inductive ArgumentError where
  | expectedMark (char : Char)
  /-- A string is missing; `atEnd` tells that nothing else stands in its place. -/
  | expectedString (atEnd : Bool)
  | literalForName
  | markForName
  | nothingForName
  /-- The path is none that the attribute of this name knows. -/
  | unknown (owner : String)
  deriving Repr, DecidableEq

/-- The words in front when something is missing at the end. -/
def endWords (atEnd : Bool) : String := if atEnd then "unexpected end of input, " else ""

/-- The words of an argument error. -/
def ArgumentError.message : ArgumentError → String
  | expectedMark char => "expected `" ++ char.toString ++ "`"
  | expectedString atEnd => endWords atEnd ++ "expected string literal"
  | literalForName => "unexpected literal in nested attribute, expected ident"
  | markForName => "unexpected token in nested attribute, expected ident"
  | nothingForName => endWords true ++ "expected nested attribute"
  | unknown owner => "unsupported " ++ owner ++ " argument"

/-- A path of words. -/
structure WordPath where
  /-- Two colons stand in front. -/
  isRooted : Bool
  words : List String
  deriving Repr, DecidableEq

/-- The path is a single word. -/
def WordPath.isWord (p : WordPath) (text : String) : Bool := !p.isRooted && p.words == [text]

/-- The further words of a path, each behind two colons, and the rest. -/
def moreWords : List TokenTree → List String × List TokenTree
  | .mark ':' :: .mark ':' :: .word text :: rest =>
    let (words, rest) := moreWords rest
    (text :: words, rest)
  | rest => ([], rest)

/-- The path at the front, and the rest. -/
def readPath (trees : List TokenTree) : Except ArgumentError (WordPath × List TokenTree) :=
  let (isRooted, trees) := match trees with
    | .mark ':' :: .mark ':' :: rest => (true, rest)
    | _ => (false, trees)
  match trees with
  | [] => .error .nothingForName
  | .word text :: rest =>
    let (words, rest) := moreWords rest
    .ok (⟨isRooted, text :: words⟩, rest)
  | .literal _ :: _ => .error .literalForName
  | _ :: _ => .error .markForName

/-- The string behind an equals sign, and the rest. -/
def readString : List TokenTree → Except ArgumentError (String × List TokenTree)
  | .mark '=' :: .literal text :: rest =>
    match stringValue? text with
    | some value => .ok (value, rest)
    | none => .error (.expectedString false)
  | .mark '=' :: [] => .error (.expectedString true)
  | .mark '=' :: _ => .error (.expectedString false)
  | _ => .error (.expectedMark '=')

/-- The arguments that an attribute knows. -/
structure ArgumentNames where
  /-- The name of the attribute. -/
  owner : String
  /-- Names that are given a string. -/
  strings : List String
  /-- Names that stand alone. -/
  flags : List String

/-- Reads arguments into names with their strings, in order; flags have the empty string. The
    fuel is the number of trees. -/
def readArguments (names : ArgumentNames) :
    Nat → List TokenTree → Except ArgumentError (List (String × String))
  | _, [] => .ok []
  | 0, _ => .ok []
  | fuel + 1, trees => do
    let (path, rest) ← readPath trees
    let (argument, rest) ←
      match names.strings.find? path.isWord, names.flags.find? path.isWord with
      | some name, _ => do
        let (value, rest) ← readString rest
        pure ((name, value), rest)
      | none, some name => pure ((name, ""), rest)
      | none, none => throw (.unknown names.owner)
    match rest with
    | [] => return [argument]
    | .mark ',' :: rest => return argument :: (← readArguments names fuel rest)
    | _ => throw (.expectedMark ',')

/-- The arguments at the trees. -/
def ArgumentNames.read (names : ArgumentNames) (trees : List TokenTree) :
    Except ArgumentError (List (String × String)) := readArguments names trees.length trees

/-- The last value given to a name. -/
def lastValue? (arguments : List (String × String)) (name : String) : Option String :=
  List.lookup name arguments.reverse

end FluentGrammar.Expansion
