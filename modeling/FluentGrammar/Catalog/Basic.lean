import FluentGrammar.Catalog.Action
import FluentGrammar.Catalog.TypeReader

/-
  The catalog: the actions that a grammar may use, in order and without repeated ids. The action
  at index `i` is terminal `i`, and the end of input is the terminal after the last action.
-/

namespace FluentGrammar

/-- A terminal: the index of an action in the catalog, or the end of input after the last. -/
abbrev TerminalId := Nat

/-- Actions in terminal order, with distinct ids. -/
structure Catalog where
  actions : List Catalog.Action
  ids_nodup : (actions.map (·.id)).Nodup

namespace Catalog

/-- Why actions do not make a catalog. -/
inductive Error where
  | duplicateId (id : String)
  | invalidType (action text : String) (cause : TypeError)
  deriving Repr

/-- The words of an error. -/
def Error.message : Error → String
  | duplicateId id => "duplicate action id `" ++ id ++ "`"
  | invalidType action text cause =>
    "invalid type `" ++ text ++ "` in action `" ++ action ++ "`: " ++ cause.message

/-- The first member of the list that equals one of `seen` or an earlier member. -/
def firstRepeat? (seen : List String) : List String → Option String
  | [] => none
  | x :: rest => if seen.contains x then some x else firstRepeat? (x :: seen) rest

theorem firstRepeat?_eq_none_iff {seen xs : List String} :
    firstRepeat? seen xs = none ↔ xs.Nodup ∧ ∀ x ∈ xs, x ∉ seen := by
  induction xs generalizing seen with
  | nil => simp [firstRepeat?]
  | cons x rest ih =>
    simp only [firstRepeat?]
    split
    · next h => simp_all
    · next h =>
      rw [ih]
      simp_all only [List.contains_iff_mem, List.nodup_cons, List.mem_cons, not_or]
      grind

/-- The catalog of the actions, unless an id occurs twice. -/
def ofActions (actions : List Action) : Except Error Catalog :=
  match h : firstRepeat? [] (actions.map (·.id)) with
  | some id => .error (.duplicateId id)
  | none => .ok ⟨actions, (firstRepeat?_eq_none_iff.1 h).1⟩

/-- The number of actions. -/
def size (c : Catalog) : Nat := c.actions.length

/-- The action of a terminal; `none` for the end of input and beyond. -/
def get? (c : Catalog) (terminal : TerminalId) : Option Action := c.actions[terminal]?

/-- The terminal of the action with this id. -/
def lookup? (c : Catalog) (id : String) : Option TerminalId :=
  c.actions.findIdx? (·.id == id)

/-- The terminals that are actions, in order. -/
def terminals (c : Catalog) : List TerminalId := List.range c.size

/-- The terminal of the end of input. -/
def endTerminal (c : Catalog) : TerminalId := c.size

end Catalog

end FluentGrammar
