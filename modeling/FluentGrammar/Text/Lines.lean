/-
  Lines of a text. A line feed ends a line and a carriage return before it belongs to the ending;
  text after the last line feed is a line of its own unless it is empty.
-/

namespace FluentGrammar.Text

/-- The text cut after every line feed. -/
def cutAfterFeeds : List Char → List (List Char)
  | [] => []
  | c :: rest =>
    if c == '\n' then [c] :: cutAfterFeeds rest
    else match cutAfterFeeds rest with
      | [] => [[c]]
      | line :: others => (c :: line) :: others

/-- A cut piece without its line ending. -/
def dropEnding (piece : List Char) : List Char :=
  match piece.reverse with
  | '\n' :: '\r' :: before => before.reverse
  | '\n' :: before => before.reverse
  | _ => piece

/-- The lines of a text, without their endings. -/
def lines (text : String) : List String :=
  (cutAfterFeeds text.toList).map fun piece => String.ofList (dropEnding piece)

/-- The text in which every one of the given lines is ended by a line feed. -/
def unlines (ls : List String) : String := String.join (ls.map (· ++ "\n"))

theorem flatten_cutAfterFeeds (cs : List Char) : (cutAfterFeeds cs).flatten = cs := by
  induction cs with
  | nil => rfl
  | cons c rest ih =>
    simp only [cutAfterFeeds]
    split
    · simp [ih]
    · split
      next h => simp_all
      next h => simp_all

end FluentGrammar.Text
