import FluentGrammar.Expansion.Literal
import FluentGrammar.Expansion.Token

/-
  Places of a tuple in builder code. A place is written as a whole number behind a point, and its
  canonical form has no base and no underscores.
-/

namespace FluentGrammar.Expansion.TokenTree

/-- The value of a whole number, which may have a base and underscores. -/
def wholeNumber? (literal : List Char) : Option Nat :=
  let valueIn (base : Nat) (cs : List Char) : Option Nat := do
    let values ← (cs.filter (· != '_')).mapM hexValue?
    if values.isEmpty || values.any (base ≤ ·) then none
    else return values.foldl (fun n d => base * n + d) 0
  match literal with
  | '0' :: 'x' :: cs => valueIn 16 cs
  | '0' :: 'o' :: cs => valueIn 8 cs
  | '0' :: 'b' :: cs => valueIn 2 cs
  | cs => valueIn 10 cs

/-- A whole number as a literal. -/
def ofNumber (n : Nat) : TokenTree := literal (toString n)

/-- The places that the trees behind a point begin with, and the rest. Two places with a point
    between look like a fraction, and so does one with a point behind it. -/
def placesAt : List TokenTree → List TokenTree × List TokenTree
  | literal text :: rest =>
    let parts := text.toList.splitOn '.'
    let goesOn := parts.getLast? == some []
    match (if goesOn then parts.dropLast else parts).mapM wholeNumber? with
    | none => ([literal text], rest)
    | some numbers =>
      let own := (numbers.map ofNumber).intersperse (mark '.')
      if goesOn then
        let (more, rest) := placesAt rest
        (own ++ [mark '.'] ++ more, rest)
      else (own, rest)
  | rest => ([], rest)

end FluentGrammar.Expansion.TokenTree
