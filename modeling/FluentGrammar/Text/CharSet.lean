/-
  Sets of characters as sorted lists of bounds: the code points at which membership flips,
  starting outside the set. A character belongs to the set when an odd number of bounds lie at
  or below it.
-/

namespace FluentGrammar.Text

/-- The set with these bounds contains the character. -/
def inBounds (bounds : List Nat) (c : Char) : Bool :=
  bounds.countP (· ≤ c.toNat) % 2 == 1

end FluentGrammar.Text
