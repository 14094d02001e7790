import FluentGrammar.Expansion.Canonical.Angles
import FluentGrammar.Expansion.Canonical.Place

/-
  The canonical form of builder code. Lifetimes stand before other generic parameters and
  arguments, brackets and conditions that hold nothing are left out, the places of a tuple are
  plain numbers, ranges in patterns have two points and an equals sign, and variants have no
  visibility. What is passed to an invocation is nobody's code yet and stays as it is, and so do
  declarations that lack what makes them items: a method without a body outside traits, or a
  constant with generic parameters or without a value.
-/

namespace FluentGrammar.Expansion.TokenTree

/-- What code stands in. -/
inductive Spot where
  /-- Statements, expressions, types and items. In braces a place of a tuple can be a key. -/
  | code (inBraces : Bool)
  | traitItems
  | foreignItems
  | variants
  deriving Repr, DecidableEq

/-- Code in brackets of a kind. -/
def Spot.within (d : Delimiter) : Spot := .code (d == .brace)

/-- What the canonical form of the trees at the front of code depends on. -/
structure Setting where
  /-- The canonical form of code in a spot. -/
  canonicalIn : Spot → List TokenTree → List TokenTree
  spot : Spot
  /-- The tree before. -/
  last? : Option TokenTree

/-- A rule gives the canonical form of a construct at the front of code, and the rest. -/
abbrev Rule := Setting → List TokenTree → Option (List TokenTree × List TokenTree)

namespace Setting

/-- The canonical form of code in no brackets of its own. -/
def canonical (s : Setting) (trees : List TokenTree) : List TokenTree :=
  s.canonicalIn (.code false) trees

/-- The tree before is this mark. -/
def isAfter (s : Setting) (char : Char) : Bool := s.last?.any (·.isMark char)

/-- The tree before ends an attribute, or there is none. -/
def isAfterAttribute (s : Setting) : Bool :=
  s.last?.all fun
    | group .bracket _ => true
    | _ => false

/-- An item or a statement may begin here. -/
def isAtItem (s : Setting) : Bool :=
  s.isAfterAttribute || s.isAfter ';' || s.last?.any (·.isBraces)

end Setting

/-- Trees up to the first that satisfies the condition, that one included, and the rest. -/
def through (stop : TokenTree → Bool) (trees : List TokenTree) :
    List TokenTree × List TokenTree :=
  let (front, rest) := trees.span (!stop ·)
  (front ++ rest.take 1, rest.drop 1)

/-- What stands before the rest of some trees. -/
def beforeRest (trees rest : List TokenTree) : List TokenTree :=
  trees.take (trees.length - rest.length)

/-! ## Expressions, patterns and types -/

/-- Of what an attribute holds, only a value is code. -/
def canonicalAttribute (s : Setting) (trees : List TokenTree) : List TokenTree :=
  match readPath trees with
  | .ok (_, mark '=' :: value) => beforeRest trees value ++ s.canonical value
  | _ => trees

/-- Attributes. -/
def attributeRule : Rule
  | s, mark '#' :: group .bracket trees :: rest =>
    some ([mark '#', group .bracket (canonicalAttribute s trees)], rest)
  | s, mark '#' :: mark '!' :: group .bracket trees :: rest =>
    some ([mark '#', mark '!', group .bracket (canonicalAttribute s trees)], rest)
  | _, _ => none

/-- Three points make a range, but not where arguments end. -/
def pointRule : Rule
  | _, mark '.' :: mark '.' :: mark '.' :: next :: rest =>
    if next.isMark ',' then none else some ([mark '.', mark '.', mark '='], next :: rest)
  | s, mark '.' :: literal text :: rest =>
    if s.isAfter '.' then none
    else
      let (places, rest) := placesAt (literal text :: rest)
      some (mark '.' :: places, rest)
  | _, _ => none

/-- A place of a tuple as the key of a field. -/
def keyRule : Rule
  | s, literal text :: mark ':' :: rest =>
    if s.spot == .code true && (s.isAfterAttribute || s.isAfter ',') then
      (wholeNumber? text.toList).map fun n => ([ofNumber n], mark ':' :: rest)
    else none
  | _, _ => none

/-- Generic arguments. Any other angle bracket is only a mark. -/
def argumentRule : Rule
  | s, mark '<' :: rest => do
    let (inside, rest) ← closedAngles? 1 false rest
    if isMisordered inside then
      some ([mark '<'] ++ canonicalArguments s.canonical inside ++ [mark '>'], rest)
    else none
  | _, _ => none

/-- No colons stand between the name of a bound and its arguments in parentheses. -/
def boundRule : Rule
  | s, mark ':' :: mark ':' :: group .parenthesis trees :: rest =>
    match s.last? with
    | some (word _) => some ([], group .parenthesis trees :: rest)
    | _ => none
  | _, _ => none

/-- Words that do not name what is invoked when `!` stands behind them. -/
def keywords : List String :=
  ["as", "async", "await", "become", "break", "const", "continue", "dyn", "else", "enum", "extern",
   "fn", "for", "if", "impl", "in", "let", "loop", "match", "mod", "move", "mut", "pub", "ref",
   "return", "static", "struct", "trait", "type", "unsafe", "use", "where", "while", "yield"]

/-- What is passed to an invocation stays as it is. -/
def invocationRule : Rule
  | _, word name :: mark '!' :: group d trees :: rest =>
    if keywords.contains name then none else some ([word name, mark '!', group d trees], rest)
  | _, word name :: mark '!' :: word defined :: group d trees :: rest =>
    if keywords.contains name then none
    else some ([word name, mark '!', word defined, group d trees], rest)
  | _, word "builtin" :: mark '#' :: word name :: group d trees :: rest =>
    some ([word "builtin", mark '#', word name, group d trees], rest)
  | _, _ => none

/-- Parameters that a type is for all of. -/
def binderRule : Rule
  | s, word "for" :: mark '<' :: rest =>
    let (inside, rest) := insideAngles 1 false rest
    some (word "for" :: canonicalBinders s.canonical inside, rest)
  | _, _ => none

/-! ## Items -/

/-- Conditions that hold nothing are left out. -/
def whereRule : Rule
  | _, [word "where"] => some ([], [])
  | _, word "where" :: next :: rest =>
    if isItemEnd next || next.isMark '=' then some ([], next :: rest) else none
  | _, _ => none

/-- The parameters of a method. A type in place of a parameter has no name. -/
def canonicalInputs (s : Setting) (trees : List TokenTree) : List TokenTree :=
  (commaPieces trees.length trees).flatMap fun (part, comma) =>
    let rest := (CodeAttribute.outerAt part).2
    let unnamed := match rest with
      | word _ :: mark '<' :: _ => [word "_", mark ':']
      | _ => []
    s.canonical (beforeRest part rest) ++ unnamed ++ s.canonical rest ++ comma

/-- Methods. They have bodies, except that those of traits need none and foreign ones have none. -/
def methodRule : Rule
  | s, word "fn" :: word name :: rest =>
    let (generics, behind) := anglesAt rest
    match behind with
    | group .parenthesis inputs :: behind =>
      let (tail, behind) := upTo isItemEnd behind
      let asWritten : Bool := match s.spot with
        | .traitItems => false
        | .foreignItems => behind.head?.any (·.isBraces)
        | _ => behind.head?.any (·.isMark ';')
      if asWritten then
        let (front, rest) := through isItemEnd rest
        some ([word "fn", word name] ++ front, rest)
      else
        some ([word "fn", word name] ++ canonicalGenerics s.canonical generics ++
          [group .parenthesis (canonicalInputs s inputs)] ++ s.canonical tail, behind)
    | _ => none
  | _, _ => none

/-- Trees without a colon at the front that has no bounds behind it. -/
def withoutEmptyColon : List TokenTree → List TokenTree
  | [mark ':'] => []
  | mark ':' :: word "where" :: rest => word "where" :: rest
  | trees => trees

/-- Traits. -/
def traitRule : Rule
  | s, word "trait" :: word name :: rest =>
    let (generics, behind) := anglesAt rest
    let (bounds, behind) := upTo isItemEnd behind
    let head := [word "trait", word name] ++ canonicalGenerics s.canonical generics ++
      s.canonical (withoutEmptyColon bounds)
    match behind with
    | group .brace trees :: behind =>
      some (head ++ [group .brace (s.canonicalIn .traitItems trees)], behind)
    | _ => some (head, behind)
  | _, _ => none

/-- Foreign blocks. -/
def foreignRule : Rule
  | s, word "extern" :: group .brace trees :: rest =>
    some ([word "extern", group .brace (s.canonicalIn .foreignItems trees)], rest)
  | s, word "extern" :: literal name :: group .brace trees :: rest =>
    some ([word "extern", literal name, group .brace (s.canonicalIn .foreignItems trees)], rest)
  | _, _ => none

/-- Names of types. They have a value and no bounds, except that those of traits may lack the one
    and have the other, and foreign ones have neither. -/
def typeRule : Rule
  | s, word "type" :: word name :: rest =>
    let (generics, behind) := anglesAt rest
    let (bounds, value) := upTo (fun t => t.isMark ';' || t.isMark '=') behind
    let hasBounds := bounds.head?.any (·.isMark ':')
    let hasValue := value.head?.any (·.isMark '=')
    let asWritten : Bool := match s.spot with
      | .traitItems => false
      | .foreignItems => hasBounds || hasValue
      | _ => hasBounds || !hasValue
    if asWritten then
      let (front, rest) := rest.span (!·.isMark ';')
      some ([word "type", word name] ++ front, rest)
    else
      some ([word "type", word name] ++ canonicalGenerics s.canonical generics ++
        s.canonical (withoutEmptyColon bounds), value)
  | _, _ => none

/-- A value stands behind the type at the front. -/
def hasValue (trees : List TokenTree) : Bool := !(upTo (·.isMark '=') trees).2.isEmpty

/-- Constants. They have no generic parameters and, outside traits, a value. -/
def constantRule : Rule
  | s, word "const" :: word name :: next :: rest =>
    let (front, behind) := rest.span (!·.isMark ';')
    let isItem := !s.isAfter '*' && !behind.isEmpty && (next.isMark '<' || next.isMark ':')
    let asWritten := next.isMark '<' || front.any (·.isWord "where") ||
      (s.spot != .traitItems && !hasValue front)
    if isItem && asWritten then some ([word "const", word name, next] ++ front, behind) else none
  | _, _ => none

/-- Variables. They have a type and a value, and foreign ones have no value. -/
def variableRule : Rule
  | s, word "static" :: rest =>
    let named := if rest.head?.any (·.isWord "mut") then rest.drop 1 else rest
    match named with
    | word _ :: next :: typed =>
      let (front, behind) := rest.span (!·.isMark ';')
      let isFull := hasValue (typed.takeWhile (!·.isMark ';'))
      let asWritten := next.isMark '=' ||
        (next.isMark ':' && isFull == (s.spot == .foreignItems))
      if asWritten then some (word "static" :: front, behind) else none
    | _ => none
  | _, _ => none

/-- Structures and unions. -/
def recordRule : Rule
  | s, word kind :: word name :: rest =>
    if ["struct", "union"].contains kind then
      let (generics, behind) := anglesAt rest
      some ([word kind, word name] ++ canonicalGenerics s.canonical generics, behind)
    else none
  | _, _ => none

/-- Enumerations. -/
def enumerationRule : Rule
  | s, word "enum" :: word name :: rest =>
    let (generics, behind) := anglesAt rest
    let (tail, behind) := upTo isItemEnd behind
    let head := [word "enum", word name] ++ canonicalGenerics s.canonical generics ++
      s.canonical tail
    match behind with
    | group .brace trees :: behind =>
      some (head ++ [group .brace (s.canonicalIn .variants trees)], behind)
    | _ => some (head, behind)
  | _, _ => none

/-- Variants have no visibility. -/
def variantRule : Rule
  | s, word "pub" :: rest =>
    if s.spot == .variants && (s.isAfterAttribute || s.isAfter ',') then
      some ([], (visibilityAt (word "pub" :: rest)).2)
    else none
  | _, _ => none

/-- Blocks of a type. -/
def blockRule : Rule
  | s, word "impl" :: rest =>
    if opensParameters rest then
      let (generics, behind) := anglesAt rest
      some (word "impl" :: canonicalGenerics s.canonical generics, behind)
    else none
  | _, _ => none

/-- Items that are none where they stand stay as they are: what has a visibility or is a default in
    a trait, what is called safe in a foreign block, and blocks with a visibility. -/
def misplacedRule : Rule
  | s, word text :: rest =>
    let trees := word text :: rest
    let isMisplaced := s.isAtItem && match s.spot with
      | .traitItems => text == "pub" || (text == "default" && !rest.head?.any (·.isMark '!'))
      | .foreignItems => text == "safe" || (text == "unsafe" && rest.head?.any (·.isWord "static"))
      | .code true =>
        let (visibility, rest) := visibilityAt trees
        let rest := rest.dropWhile fun t => t.isWord "default" || t.isWord "unsafe"
        !visibility.isEmpty && rest.head?.any (·.isWord "impl")
      | _ => false
    if isMisplaced then some (through isItemEnd trees) else none
  | _, _ => none

/-- What a macro is defined as stays as it is. -/
def definitionRule : Rule
  | _, word "macro" :: word name :: rest =>
    let (front, rest) := through (·.isBraces) rest
    some ([word "macro", word name] ++ front, rest)
  | _, _ => none

/-! ## Code -/

/-- All rules; the first that applies is used. -/
def rules : List Rule :=
  [attributeRule, pointRule, keyRule, argumentRule, boundRule, variantRule, misplacedRule,
   invocationRule, binderRule, whereRule, methodRule, traitRule, foreignRule, typeRule,
   constantRule, variableRule, recordRule, enumerationRule, blockRule, definitionRule]

/-- The canonical form of the construct at the front of code, and the rest. A tree that no rule is
    about stays, less that the code in a group gets its own canonical form. -/
def constructAt (s : Setting) (t : TokenTree) (rest : List TokenTree) :
    List TokenTree × List TokenTree :=
  match rules.findSome? fun rule => rule s (t :: rest) with
  | some result => result
  | none =>
    match t with
    | group d trees => ([group d (s.canonicalIn (.within d) trees)], rest)
    | t => ([t], rest)

/-- The canonical form of code behind a tree. The fuel is the number of tokens. -/
def canonicalFrom : Nat → Spot → Option TokenTree → List TokenTree → List TokenTree
  | 0, _, _, trees => trees
  | _ + 1, _, _, [] => []
  | fuel + 1, spot, last?, t :: rest =>
    let setting : Setting := ⟨fun spot => canonicalFrom fuel spot none, spot, last?⟩
    let (front, rest) := constructAt setting t rest
    front ++ canonicalFrom fuel spot (front.getLast?.or last?) rest

/-- The canonical form of code. -/
def canonical (trees : List TokenTree) : List TokenTree :=
  canonicalFrom (textsOfAll trees).length (.code false) none trees

end FluentGrammar.Expansion.TokenTree
