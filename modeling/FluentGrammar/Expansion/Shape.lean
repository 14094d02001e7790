import FluentGrammar.Expansion.Token

/-
  Shapes in builder code: angle brackets, which are marks and no groups, lists with separators,
  and types.
-/

namespace FluentGrammar.Expansion

/-- The shaft of an arrow, which makes the mark behind it no closing angle bracket. -/
def isShaft (t : TokenTree) : Bool := t.isMark '-' || t.isMark '='

/-- Angle brackets open behind a tree. A closing one behind a shaft is the head of an arrow. -/
def angleDepth (depth : Nat) (behindShaft : Bool) (t : TokenTree) : Nat :=
  if t.isMark '<' then depth + 1
  else if t.isMark '>' && !behindShaft then depth - 1
  else depth

/-- Trees up to the first outside angle brackets that satisfies the condition, and the rest from
    it on. -/
def spanOutside (stop : TokenTree → Bool) : Nat → Bool → List TokenTree →
    List TokenTree × List TokenTree
  | _, _, [] => ([], [])
  | depth, behindShaft, t :: rest =>
    if depth == 0 && stop t then ([], t :: rest)
    else
      let (front, rest) := spanOutside stop (angleDepth depth behindShaft t) (isShaft t) rest
      (t :: front, rest)

/-- Trees up to the first outside angle brackets that satisfies the condition. -/
def upTo (stop : TokenTree → Bool) (trees : List TokenTree) : List TokenTree × List TokenTree :=
  spanOutside stop 0 false trees

/-- The parts between separators outside angle brackets; separators at the end are dropped. The
    fuel is the number of trees. -/
def cutAt (separator : Char) : Nat → List TokenTree → List (List TokenTree)
  | _, [] => []
  | 0, _ => []
  | fuel + 1, trees =>
    let (part, rest) := upTo (·.isMark separator) trees
    part :: cutAt separator fuel (rest.drop 1)

/-- The parts between commas, each with the comma behind it if there is one. The fuel is the number
    of trees. -/
def commaPieces : Nat → List TokenTree → List (List TokenTree × List TokenTree)
  | _, [] => []
  | 0, _ => []
  | fuel + 1, trees =>
    let (part, rest) := upTo (·.isMark ',') trees
    (part, rest.take 1) :: commaPieces fuel (rest.drop 1)

/-- The parts between commas. -/
def commaParts (trees : List TokenTree) : List (List TokenTree) := cutAt ',' trees.length trees

/-- What stands in the angle brackets that have just been opened, and the rest behind them. -/
def insideAngles : Nat → Bool → List TokenTree → List TokenTree × List TokenTree
  | _, _, [] => ([], [])
  | depth, behindShaft, t :: rest =>
    let depth' := angleDepth depth behindShaft t
    if depth' == 0 then ([], rest)
    else
      let (inside, rest) := insideAngles depth' (isShaft t) rest
      (t :: inside, rest)

/-- The angle brackets at the front, if there are any, and the rest. -/
def anglesAt (trees : List TokenTree) : List TokenTree × List TokenTree :=
  match trees with
  | .mark '<' :: rest => insideAngles 1 false rest
  | _ => ([], trees)

/-- What stands in the angle brackets that have just been opened, and the rest behind them, if they
    are closed before the end and before a semicolon. -/
def closedAngles? : Nat → Bool → List TokenTree → Option (List TokenTree × List TokenTree)
  | _, _, [] => none
  | depth, behindShaft, t :: rest =>
    let depth' := angleDepth depth behindShaft t
    if t.isMark ';' then none
    else if depth' == 0 then some ([], rest)
    else (closedAngles? depth' (isShaft t) rest).map fun (inside, rest) => (t :: inside, rest)

/-- An angle bracket at the front opens generic parameters and no path. -/
def opensParameters : List TokenTree → Bool
  | .mark '<' :: .mark '>' :: _ | .mark '<' :: .mark '#' :: _ => true
  | .mark '<' :: .mark '\'' :: .word _ :: next :: _ => endsParameter next
  | .mark '<' :: .word _ :: .mark ':' :: .mark ':' :: _ => false
  | .mark '<' :: .word text :: next :: _ => text == "const" || endsParameter next
  | _ => false
where
  /-- A mark that can stand behind the name of a parameter. -/
  endsParameter (t : TokenTree) : Bool :=
    t.isMark '>' || t.isMark ',' || t.isMark ':' || t.isMark '='

/-- The visibility at the front, and the rest. -/
def visibilityAt : List TokenTree → List TokenTree × List TokenTree
  | .word "pub" :: .group .parenthesis trees :: rest =>
    ([.word "pub", .group .parenthesis trees], rest)
  | .word "pub" :: rest => ([.word "pub"], rest)
  | rest => ([], rest)

/-- Words that begin types other than paths. -/
def typeWords : List String := ["dyn", "fn", "for", "impl", "unsafe", "extern", "_"]

/-- The last name of a path, if the trees are one. Names may have arguments in angle brackets, or
    in parentheses with a result. `last` is the name read so far, and the fuel is the number of
    trees. -/
def lastName? : Nat → String → List TokenTree → Option String
  | _, last, [] => some last
  | 0, _, _ => none
  | fuel + 1, last, trees =>
    match trees with
    | .mark ':' :: .mark ':' :: .word name :: rest => lastName? fuel name rest
    | .mark ':' :: .mark ':' :: .mark '<' :: rest =>
      lastName? fuel last (insideAngles 1 false rest).2
    | .mark '<' :: rest => lastName? fuel last (insideAngles 1 false rest).2
    | .group .parenthesis _ :: .mark '-' :: .mark '>' :: _ => some last
    | .group .parenthesis _ :: rest => lastName? fuel last rest
    | .mark ':' :: .mark ':' :: .group .parenthesis inputs :: rest =>
      lastName? fuel last (.group .parenthesis inputs :: rest)
    | _ => none

/-- The last name of a type, if it is a path and no sum of bounds. -/
def pathName? (trees : List TokenTree) : Option String :=
  let start := match trees with
    | .mark ':' :: .mark ':' :: rest => rest
    | .mark '<' :: rest =>
      match (insideAngles 1 false rest).2 with
      | .mark ':' :: .mark ':' :: rest => rest
      | _ => []
    | _ => trees
  match start with
  | .word name :: rest =>
    let isSum := !(upTo (·.isMark '+') trees).2.isEmpty
    if isSum || typeWords.contains name then none else lastName? trees.length name rest
  | _ => none

end FluentGrammar.Expansion
