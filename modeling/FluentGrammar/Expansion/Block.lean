import FluentGrammar.Expansion.Method

/-
  Blocks of builder code: the methods and other items of a builder type.
-/

namespace FluentGrammar.Expansion

/-- What is wrong with the text of a block. -/
inductive BlockError where
  /-- A word is missing; `atEnd` tells that nothing else stands in its place. -/
  | expectedWord (text : String) (atEnd : Bool)
  | expectedTraitPath
  | expectedBraces (atEnd : Bool)
  | expectedItem
  /-- Something stands behind the block. -/
  | unexpectedToken
  deriving Repr, DecidableEq

/-- The words of a block error. -/
def BlockError.message : BlockError → String
  | expectedWord text atEnd => endWords atEnd ++ "expected `" ++ text ++ "`"
  | expectedTraitPath => "expected trait path"
  | expectedBraces atEnd => endWords atEnd ++ "expected curly braces"
  | expectedItem => "expected an item"
  | unexpectedToken => "unexpected token"

/-- An item of a block. -/
inductive Item where
  | method (m : Method)
  /-- Any other item, and methods without a body. -/
  | other (trees : List TokenTree)

/-- The item as trees. -/
def Item.toTrees : Item → List TokenTree
  | method m => m.toTrees
  | other trees => trees

/-- A block. -/
structure Block where
  /-- Attributes and words up to the one that begins a block. -/
  head : List TokenTree
  generics : List TokenTree
  /-- The block is for a trait. -/
  isForTrait : Bool
  builder : List TokenTree
  /-- What stands between the type and the items. -/
  tail : List TokenTree
  attributes : List CodeAttribute
  items : List Item

namespace Block

/-- The block as trees. -/
def toTrees (b : Block) : List TokenTree :=
  b.head ++ b.builder ++ b.tail ++
    [.group .brace (b.attributes.flatMap (·.toTrees) ++ b.items.flatMap (·.toTrees))]

/-- Words that may stand before the one that begins a method. -/
def methodWords : List String := ["default", "const", "async", "unsafe", "safe", "extern"]

/-- The words up to the one that begins a method, and the rest behind it. -/
def methodHead? : List TokenTree → Option (List TokenTree × List TokenTree)
  | .word text :: rest =>
    if text == "fn" then some ([.word text], rest)
    else if methodWords.contains text then
      (methodHead? rest).map fun (head, rest) => (.word text :: head, rest)
    else none
  | .literal text :: rest =>
    (methodHead? rest).map fun (head, rest) => (.literal text :: head, rest)
  | _ => none

/-- The method or the bodiless method behind outer attributes, and the rest. -/
def methodAt (attributes : List CodeAttribute) (trees : List TokenTree) :
    Except BlockError (Option (Item × List TokenTree)) :=
  let (visibility, rest) := visibilityAt trees
  match methodHead? rest with
  | none => .ok none
  | some (words, rest) =>
    let head := visibility ++ words
    match rest with
    | .word name :: rest =>
      let (generics, rest) := anglesAt rest
      match rest with
      | .group .parenthesis inputs :: rest =>
        let (tail, rest) := upTo (·.isItemEnd) rest
        match rest with
        | .group .brace body :: rest =>
          let (inner, body) := CodeAttribute.innerAt body
          let m : Method := ⟨attributes ++ inner, head, name, generics, inputs, tail, body⟩
          .ok (some (.method m, rest))
        | _ :: rest =>
          let whole := trees.take (trees.length - rest.length)
          .ok (some (.other (attributes.flatMap (·.toTrees) ++ whole), rest))
        | [] => .error (.expectedBraces true)
      | _ => .error .expectedItem
    | _ => .error .expectedItem

/-- Words that begin items other than methods and invocations. -/
def otherWords : List String := ["const", "type", "pub", "default"]

/-- An item that is no method, and the rest: up to a semicolon, or for an invocation also up to
    braces. A semicolon never stands between angle brackets, so that these do not matter, and `<`
    in a constant is only a mark. -/
def otherAt (trees : List TokenTree) : Except BlockError (List TokenTree × List TokenTree) :=
  let isInvocation := (trees.drop 1).head?.any (·.isMark '!') ||
    !trees.head?.any fun t => otherWords.any t.isWord
  let ends (t : TokenTree) : Bool := t.isMark ';' || (isInvocation && t.isBraces)
  match trees.dropWhile (!ends ·) with
  | last :: rest => .ok (trees.takeWhile (!ends ·) ++ [last], rest)
  | [] => .error .expectedItem

/-- The items of a block. The fuel is the number of trees. -/
def itemsOf : Nat → List TokenTree → Except BlockError (List Item)
  | _, [] => .ok []
  | 0, _ => .ok []
  | fuel + 1, trees => do
    let (attributes, rest) := CodeAttribute.outerAt trees
    match ← methodAt attributes rest with
    | some (item, rest) => return item :: (← itemsOf fuel rest)
    | none =>
      let (front, rest) ← otherAt rest
      return .other (attributes.flatMap (·.toTrees) ++ front) :: (← itemsOf fuel rest)

/-- The words before the one that begins a block, and the rest from that on. -/
def wordsBefore : List TokenTree → List TokenTree × List TokenTree
  | .word "default" :: .word "unsafe" :: rest => ([.word "default", .word "unsafe"], rest)
  | .word "default" :: rest => ([.word "default"], rest)
  | .word "unsafe" :: rest => ([.word "unsafe"], rest)
  | rest => ([], rest)

/-- The type at the front, and the rest. -/
def typeAt (trees : List TokenTree) : List TokenTree × List TokenTree :=
  let stop (t : TokenTree) : Bool :=
    t.isItemEnd || t.isWord "where" || t.isWord "for"
  match trees with
  | .word "for" :: rest =>
    let (type, rest) := upTo stop rest
    (.word "for" :: type, rest)
  | _ => upTo stop trees

/-- Reads a block, which must be all there is. -/
def ofTrees (trees : List TokenTree) : Except BlockError Block := do
  let (outer, rest) := CodeAttribute.outerAt trees
  let (words, rest) := wordsBefore rest
  let rest ← match rest with
    | .word "impl" :: rest => pure rest
    | rest => throw (.expectedWord "impl" rest.isEmpty)
  let (generics, rest) := if opensParameters rest then anglesAt rest else ([], rest)
  let (first, rest) := typeAt rest
  let (isForTrait, builder, rest) ← match rest with
    | .word "for" :: rest =>
      let path := match first with
        | .mark '!' :: path => path
        | path => path
      if path.head?.any (·.isMark '<') || (pathName? path).isNone then throw .expectedTraitPath
      let (second, rest) := typeAt rest
      pure (true, second, rest)
    | _ => pure (false, first, rest)
  let (tail, rest) := upTo (·.isBraces) rest
  match rest with
  | [.group .brace content] =>
    let (inner, content) := CodeAttribute.innerAt content
    let items ← itemsOf content.length content
    let head := outer.flatMap (·.toTrees) ++ words ++ [.word "impl"]
    return { head, generics, isForTrait, builder, tail, attributes := inner, items }
  | .group .brace _ :: _ => throw .unexpectedToken
  | _ => throw (.expectedBraces (tail.head?.all (·.isWord "where")))

end Block

end FluentGrammar.Expansion
