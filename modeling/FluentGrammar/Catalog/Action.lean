import FluentGrammar.Catalog.TypeDescriptor
import FluentGrammar.Text.Identifier

/-
  Actions: builder operations that a grammar may name. An action is named after its builder
  method until it gets a display name, and its grammar id follows the display name until it is
  set to something else.
-/

namespace FluentGrammar.Catalog

/-- How an operation without arguments is exposed. -/
inductive CallStyle where
  /-- Like a field, without an argument list. -/
  | property
  /-- Always a call. -/
  | method
  deriving Repr, DecidableEq, Inhabited

/-- A named parameter of an action. -/
structure Parameter where
  name : String
  type : TypeDescriptor
  deriving BEq, Repr, Inhabited

/-- One builder operation. -/
structure Action where
  /-- The identifier in grammar text. -/
  id : String
  /-- The operation's name on generated states. -/
  displayName : String
  /-- The builder method that the operation forwards to. -/
  method : String
  parameters : List Parameter
  generics : List TypeDescriptor
  style : CallStyle
  /-- Carried onto the generated operation. -/
  doc : String
  deriving BEq, Repr, Inhabited

namespace Action

/-- The action of a builder method, named after it. -/
def ofMethod (method : String) : Action where
  id := Text.pascalCase method
  displayName := Text.pascalCase method
  method := method
  parameters := []
  generics := []
  style := .property
  doc := ""

/-- Sets the display name. The grammar id follows while it equals the display name. -/
def withName (a : Action) (name : String) : Action :=
  { a with id := if a.id == a.displayName then name else a.id, displayName := name }

/-- Sets the grammar id. -/
def withId (a : Action) (id : String) : Action := { a with id }

/-- One more parameter. -/
def withParameter (a : Action) (name : String) (type : TypeDescriptor) : Action :=
  { a with parameters := a.parameters ++ [⟨name, type⟩] }

/-- One more entry of the generic list. -/
def withGeneric (a : Action) (type : TypeDescriptor) : Action :=
  { a with generics := a.generics ++ [type] }

/-- Sets the call style. -/
def withStyle (a : Action) (style : CallStyle) : Action := { a with style }

/-- Sets the documentation. -/
def withDoc (a : Action) (doc : String) : Action := { a with doc }

/-- The operation is exposed without an argument list. -/
def isProperty (a : Action) : Bool :=
  a.parameters.isEmpty && a.generics.isEmpty && a.style == .property

/-- The generic parameters that the action declares. -/
def genericNames (a : Action) : List String := a.generics.filterMap (·.genericName?)

end Action

end FluentGrammar.Catalog
