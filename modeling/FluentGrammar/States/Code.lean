import FluentGrammar.States.Basic
import FluentGrammar.Text.Identifier
import FluentGrammar.Text.Lines

/-
  Code for states. A state is a struct around a borrowed builder, and an operation is a method
  that takes the state, forwards to the builder and returns the next state, or the builder at the
  end. The entry state also has a method `new`. Methods of a state must have distinct names.
-/

namespace FluentGrammar

/-- How code is written. -/
structure CodeOptions where
  /-- The builder type. -/
  builder : String
  /-- The visibility of everything written; empty for private. -/
  visibility : String := "pub"
  /-- Begin with the remark that the code is generated. -/
  header : Bool := true
  deriving Repr, DecidableEq

/-- Two operations of a state have methods of one name. -/
structure DuplicateOperation where
  state : String
  name : String
  deriving Repr, DecidableEq

/-- The words of a repeated name. -/
def DuplicateOperation.message (d : DuplicateOperation) : String :=
  "state `" ++ d.state ++ "` has two operations named `" ++ d.name ++ "`"

namespace Code

/-- The remark on generated code. -/
def headerText : String := "// @generated by snout. Do not edit.\n\n"

/-- The name of the method that begins a chain. -/
def constructorName : String := "new"

/-- The name of an operation's method. -/
def methodName (o : Operation) : String := Text.escapeKeyword (Text.snakeCase o.name)

/-- The names of a state's methods that are taken before its operations. -/
def takenNames (s : StateType) : List String := if s.isEntry then [constructorName] else []

/-- The first method name of a state that was taken before. -/
def repeatedName? (s : StateType) : Option String :=
  Catalog.firstRepeat? (takenNames s) (s.operations.map methodName)

/-- The visibility as it stands before an item. -/
def visibilityText (o : CodeOptions) : String :=
  if o.visibility.isEmpty then "" else o.visibility ++ " "

/-- The declared generic parameters of a method. -/
def declarations (generics : List OperationGeneric) : String :=
  let declared := generics.filterMap (·.declaration)
  if declared.isEmpty then "" else "<" ++ ", ".intercalate declared ++ ">"

/-- The generic arguments that are passed on. -/
def turbofish (generics : List OperationGeneric) : String :=
  if generics.isEmpty then "" else "::<" ++ ", ".intercalate (generics.map (·.rendered)) ++ ">"

/-- The parameters and generics of a kind of operation. -/
def partsOf : OperationKind → List OperationParameter × List OperationGeneric
  | .property => ([], [])
  | .method parameters generics => (parameters, generics)

/-- Lines of documentation as comments. -/
def docLines (doc : String) : List String :=
  (Text.lines doc).map fun line => if line.isEmpty then "    ///" else "    /// " ++ line

/-- The line that opens an operation's method: its name, its parameters and what it returns. -/
def openingLine (c : CodeOptions) (o : Operation) : String :=
  let (parameters, generics) := partsOf o.kind
  let returns := match o.target with
    | .state name _ => name ++ "<'b>"
    | .done => "&'b mut " ++ c.builder
  "    " ++ visibilityText c ++ "fn " ++ methodName o ++ declarations generics ++ "(self" ++
    String.join (parameters.map fun p => ", " ++ Text.escapeKeyword p.name ++ ": " ++ p.type) ++
    ") -> " ++ returns ++ " \x7b"

/-- The line that forwards to the builder's method. -/
def forwardLine (o : Operation) : String :=
  let (parameters, generics) := partsOf o.kind
  "        self.builder." ++ Text.escapeKeyword o.method ++ turbofish generics ++ "(" ++
    ", ".intercalate (parameters.map fun p => Text.escapeKeyword p.name) ++ ");"

/-- The line that gives the next state, or the builder at the end. -/
def resultLine (o : Operation) : String :=
  "        " ++ match o.target with
    | .state name _ => name ++ " \x7b builder: self.builder \x7d"
    | .done => "self.builder"

/-- The lines of an operation's method. -/
def operationLines (c : CodeOptions) (o : Operation) : List String :=
  docLines o.doc ++ [openingLine c o, forwardLine o, resultLine o, "    \x7d"]

/-- The lines of the method that begins a chain. -/
def constructorLines (c : CodeOptions) : List String := [
  "    " ++ visibilityText c ++ "fn " ++ constructorName ++ "(builder: &'b mut " ++ c.builder ++
    ") -> Self \x7b",
  "        Self \x7b builder \x7d",
  "    \x7d"]

/-- The lines of a state. -/
def stateLines (c : CodeOptions) (s : StateType) : List String :=
  let methods := (if s.isEntry then [constructorLines c] else []) ++
    s.operations.map (operationLines c)
  [visibilityText c ++ "struct " ++ s.name ++ "<'b> \x7b",
    "    builder: &'b mut " ++ c.builder ++ ",",
    "\x7d",
    "",
    "impl<'b> " ++ s.name ++ "<'b> \x7b"] ++ [""].intercalate methods ++ ["\x7d"]

end Code

open Code in
/-- The code of states. -/
def generateCode (states : List StateType) (c : CodeOptions) : Except DuplicateOperation String :=
  let repeated := states.findSome? fun s =>
    (repeatedName? s).map fun name => DuplicateOperation.mk s.name name
  match repeated with
  | some d => .error d
  | none => .ok ((if c.header then headerText else "") ++
      "\n".intercalate (states.map fun s => Text.unlines (stateLines c s)))

end FluentGrammar
