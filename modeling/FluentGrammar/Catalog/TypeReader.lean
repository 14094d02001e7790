import FluentGrammar.Catalog.TypeDescriptor
import FluentGrammar.Text.Blank
import FluentGrammar.Text.Bytes
import FluentGrammar.Text.Letter

/-
  Reading types. A type is `?`, or a name with arguments between angle brackets. A name runs to
  the next bracket or comma outside parentheses and square brackets, so tuples, slices and
  function types stay inside it, and the `>` of an arrow never closes anything. An entry of a
  generic list is an identifier with bounds, or else a type.
-/

namespace FluentGrammar.Catalog

open Text

/-- What is wrong at one place of a type. -/
inductive TypeFault where
  | expectedName
  | unclosedArguments
  | trailingInput
  deriving Repr, DecidableEq

/-- Why a text is not a type. Offsets count bytes. -/
inductive TypeError where
  | empty
  | fault (what : TypeFault) (offset : Nat)
  deriving Repr, DecidableEq

/-- The words of an error. -/
def TypeError.message : TypeError → String
  | empty => "type is empty"
  | fault .expectedName offset => "expected type name at offset " ++ toString offset
  | fault .unclosedArguments offset => "missing closing `>` at offset " ++ toString offset
  | fault .trailingInput offset => "unexpected input after type at offset " ++ toString offset

namespace TypeReader

/-- The characters of a name and what follows. `depth` counts the open parentheses and square
    brackets. -/
def takeName (depth : Nat) : List Char → List Char × List Char
  | [] => ([], [])
  | '-' :: '>' :: rest =>
    let (name, after) := takeName depth rest
    ('-' :: '>' :: name, after)
  | c :: rest =>
    if c == '(' || c == '[' then
      let (name, after) := takeName (depth + 1) rest
      (c :: name, after)
    else if c == ')' || c == ']' then
      match depth with
      | 0 => ([], c :: rest)
      | inner + 1 =>
        let (name, after) := takeName inner rest
        (c :: name, after)
    else if depth == 0 && (c == '<' || c == ',' || c == '>') then ([], c :: rest)
    else
      let (name, after) := takeName depth rest
      (c :: name, after)

/-- A fault and the text from where it was found. -/
abbrev Failure := TypeFault × List Char

mutual

/-- Reads one type at the start of the text and returns what follows it. -/
def readType (generics : List String) :
    Nat → List Char → Except Failure (TypeDescriptor × List Char)
  | 0, cs => .error (.expectedName, cs)
  | fuel + 1, cs =>
    match trimStart cs with
    | '?' :: rest => .ok (.dynamic, rest)
    | cs =>
      let (text, after) := takeName 0 cs
      let name := String.ofList (trim text)
      if name.isEmpty then .error (.expectedName, cs)
      else match after with
        | '<' :: inner => do
          let (args, rest) ← readArgs generics fuel inner
          return (.concrete name args, rest)
        | rest =>
          if generics.contains name then .ok (.generic name [], rest)
          else .ok (.concrete name [], rest)

/-- Reads arguments up to the closing bracket, which a comma may precede. -/
def readArgs (generics : List String) :
    Nat → List Char → Except Failure (List TypeDescriptor × List Char)
  | 0, cs => .error (.unclosedArguments, cs)
  | fuel + 1, cs => do
    let (arg, after) ← readType generics fuel cs
    match trimStart after with
    | '>' :: rest => return ([arg], rest)
    | ',' :: rest =>
      match trimStart rest with
      | '>' :: rest => return ([arg], rest)
      | _ =>
        let (args, rest) ← readArgs generics fuel rest
        return (arg :: args, rest)
    | rest => throw (.unclosedArguments, rest)

end

/-- How a character changes the depth of brackets. The end of an arrow changes nothing. -/
def bracketChange (dash : Bool) (c : Char) : Int :=
  if c == '<' || c == '(' || c == '[' then 1
  else if c == '>' && dash then 0
  else if c == '>' || c == ')' || c == ']' then -1
  else 0

/-- The parts before and after the first `sep` outside all brackets. A pair of colons is no
    separator, and the depth may fall below zero where brackets close that were never opened.
    `dash` tells that the last character was a hyphen. -/
def splitTop? (sep : Char) (depth : Int) (dash : Bool) : List Char → Option (List Char × List Char)
  | [] => none
  | ':' :: ':' :: rest =>
    (splitTop? sep depth false rest).map fun (head, tail) => (':' :: ':' :: head, tail)
  | c :: rest =>
    if depth == 0 && c == sep then some ([], rest)
    else
      (splitTop? sep (depth + bracketChange dash c) (c == '-') rest).map fun (head, tail) =>
        (c :: head, tail)

theorem length_lt_of_splitTop? {sep : Char} {depth : Int} {dash : Bool} {cs head tail : List Char}
    (h : splitTop? sep depth dash cs = some (head, tail)) : tail.length < cs.length := by
  fun_induction splitTop? sep depth dash cs generalizing head tail with
  | case1 => simp at h
  | case2 depth dash rest ih =>
    obtain ⟨⟨a, b⟩, hs, heq⟩ := Option.map_eq_some_iff.1 h
    obtain ⟨rfl, rfl⟩ := Prod.mk.inj heq
    have := ih hs
    simp only [List.length_cons]
    omega
  | case3 => simp_all
  | case4 depth dash c rest _ _ ih =>
    obtain ⟨⟨a, b⟩, hs, heq⟩ := Option.map_eq_some_iff.1 h
    obtain ⟨rfl, rfl⟩ := Prod.mk.inj heq
    have := ih hs
    simp only [List.length_cons]
    omega

/-- The trimmed parts between plus signs outside all brackets. -/
def splitBounds (cs : List Char) : List String :=
  match _h : splitTop? '+' 0 false cs with
  | none => [String.ofList (trim cs)]
  | some (head, tail) => String.ofList (trim head) :: splitBounds tail
termination_by cs.length
decreasing_by exact length_lt_of_splitTop? _h

/-- A letter or an underscore, then letters, numerals and underscores. -/
def isIdentifier : List Char → Bool
  | [] => false
  | c :: rest => (isAlphabetic c || c == '_') && rest.all fun c => isAlphanumeric c || c == '_'

end TypeReader

namespace TypeDescriptor

open TypeReader

/-- Reads a parameter type. A bare name among `generics` refers to that generic parameter. -/
def parse (text : String) (generics : List String) : Except TypeError TypeDescriptor :=
  let cs := text.toList
  let at_ (failure : Failure) : TypeError :=
    .fault failure.1 (byteLength cs - byteLength failure.2)
  if (trim cs).isEmpty then .error .empty
  else match readType generics (2 * cs.length + 2) cs with
    | .error failure => .error (at_ failure)
    | .ok (type, rest) =>
      match trimStart rest with
      | [] => .ok type
      | rest => .error (at_ (.trailingInput, rest))

/-- Reads an entry of a generic list: an identifier, with bounds after a colon, declares a
    parameter, and anything else is a type. -/
def parseGeneric (text : String) : Except TypeError TypeDescriptor :=
  let cs := trim text.toList
  if isIdentifier cs then .ok (.generic (String.ofList cs) [])
  else match splitTop? ':' 0 false cs with
    | none => parse (String.ofList cs) []
    | some (head, tail) =>
      if isIdentifier (trim head) then
        let bounds := splitBounds tail
        if bounds.any (·.isEmpty) then .error (.fault .expectedName (byteLength cs))
        else .ok (.generic (String.ofList (trim head)) bounds)
      else parse (String.ofList cs) []

end TypeDescriptor

end FluentGrammar.Catalog
