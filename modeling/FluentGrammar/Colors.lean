/-
  Colors of printed graphs and states. A palette holds the codes that switch to a color and back,
  and the plain palette holds empty texts.
-/

namespace FluentGrammar

/-- Codes put before and after colored text. -/
structure Palette where
  /-- Before names of states and nodes. -/
  stateCode : String
  /-- Before names of operations and terminals. -/
  actionCode : String
  /-- Before arrows and remarks. -/
  mutedCode : String
  /-- After each of them. -/
  resetCode : String
  deriving Repr, DecidableEq

namespace Palette

/-- Colors of a terminal with sixteen of them. -/
def colored : Palette := ⟨"\x1b[34m", "\x1b[32m", "\x1b[2m", "\x1b[0m"⟩

/-- No colors. -/
def plain : Palette := ⟨"", "", "", ""⟩

/-- The colored palette or the plain one. -/
def ofBool (enabled : Bool) : Palette := if enabled then colored else plain

/-- The palette has colors. -/
def isEnabled (p : Palette) : Bool := !p.resetCode.isEmpty

/-- The name of a state or node. -/
def state (p : Palette) (text : String) : String := p.stateCode ++ text ++ p.resetCode

/-- The name of an operation or terminal. -/
def action (p : Palette) (text : String) : String := p.actionCode ++ text ++ p.resetCode

/-- An arrow or a remark. -/
def muted (p : Palette) (text : String) : String := p.mutedCode ++ text ++ p.resetCode

end Palette

end FluentGrammar
