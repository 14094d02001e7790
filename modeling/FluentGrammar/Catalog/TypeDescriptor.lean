/-
  Types of action parameters and of generic arguments. A descriptor is a named type with
  arguments, a slot whose type stays open, or a generic parameter that the action declares.
-/

namespace FluentGrammar.Catalog

/-- A parameter type or a generic argument. -/
inductive TypeDescriptor where
  /-- A named type with its arguments, such as `Vec<u8>`. -/
  | concrete (name : String) (args : List TypeDescriptor)
  /-- An open slot, written with a marker of the reader's choice. -/
  | dynamic
  /-- A generic parameter and its bounds, such as `T: Clone`. -/
  | generic (name : String) (bounds : List String)
  deriving Inhabited, BEq, Repr

namespace TypeDescriptor

/-- One more argument. Only a named type takes arguments. -/
def withArg : TypeDescriptor → TypeDescriptor → TypeDescriptor
  | concrete name args, arg => concrete name (args ++ [arg])
  | other, _ => other

/-- One more bound. Only a generic parameter takes bounds. -/
def withBound : TypeDescriptor → String → TypeDescriptor
  | generic name bounds, bound => generic name (bounds ++ [bound])
  | other, _ => other

/-- The type is an open slot. -/
def isDynamic : TypeDescriptor → Bool
  | dynamic => true
  | _ => false

mutual

/-- The type as it stands in a signature, with `marker` for open slots at every depth. -/
def render (marker : String) : TypeDescriptor → String
  | concrete name args =>
    match renderAll marker args with
    | [] => name
    | texts => name ++ "<" ++ ", ".intercalate texts ++ ">"
  | dynamic => marker
  | generic name _ => name

/-- The written forms of several types. -/
def renderAll (marker : String) : List TypeDescriptor → List String
  | [] => []
  | type :: rest => render marker type :: renderAll marker rest

end

/-- The type with `?` for open slots. -/
def display (type : TypeDescriptor) : String := type.render "?"

/-- How a generic parameter is declared. Other types are passed and not declared. -/
def declaration : TypeDescriptor → Option String
  | generic name [] => some name
  | generic name bounds => some (name ++ ": " ++ " + ".intercalate bounds)
  | _ => none

/-- The name of a generic parameter. -/
def genericName? : TypeDescriptor → Option String
  | generic name _ => some name
  | _ => none

end TypeDescriptor

end FluentGrammar.Catalog
