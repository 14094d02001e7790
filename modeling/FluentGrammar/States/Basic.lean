import FluentGrammar.Graph.Reachable

/-
  States of the fluent interface. Every live node with edges is a state, named after the base name
  and its number, and its operations are the actions on its edges. An operation leads to a state,
  or to the end when nothing can follow.
-/

namespace FluentGrammar

/-- A parameter of an operation with its written type. -/
structure OperationParameter where
  name : String
  type : String
  deriving Repr, DecidableEq

/-- A generic argument: as it is passed, and as it is declared if the operation declares it. -/
structure OperationGeneric where
  rendered : String
  declaration : Option String
  deriving Repr, DecidableEq

/-- How an operation is called. -/
inductive OperationKind where
  /-- Without an argument list. -/
  | property
  | method (parameters : List OperationParameter) (generics : List OperationGeneric)
  deriving Repr, DecidableEq

/-- Where an operation leads. -/
inductive OperationTarget where
  | state (name : String) (node : NodeId)
  /-- Nothing can follow. -/
  | done
  deriving Repr, DecidableEq

/-- An operation of a state. -/
structure Operation where
  name : String
  /-- The builder method it forwards to. -/
  method : String
  doc : String
  kind : OperationKind
  target : OperationTarget
  deriving Repr, DecidableEq

/-- A state. -/
structure StateType where
  name : String
  node : NodeId
  operations : List Operation
  deriving Repr, DecidableEq

/-- The state in which a builder begins. -/
def StateType.isEntry (s : StateType) : Bool := s.node == 0

/-- How states are made. -/
structure StateOptions where
  /-- The name of the entry state. -/
  baseName : String := "Syntax"
  /-- What is written for open slots. -/
  dynamicMarker : String := "Box<dyn std::any::Any>"
  /-- Leave out states that cannot be reached. -/
  prune : Bool := false
  deriving Repr, DecidableEq

/-- The name of a node's state. -/
def StateOptions.stateName (o : StateOptions) (node : NodeId) : String :=
  if node == 0 then o.baseName else o.baseName ++ toString node

namespace MergedGraph

/-- How an action is called. -/
def operationKind (o : StateOptions) (a : Catalog.Action) : OperationKind :=
  if a.isProperty then .property
  else .method (a.parameters.map fun p => ⟨p.name, p.type.render o.dynamicMarker⟩)
    (a.generics.map fun g => ⟨g.render o.dynamicMarker, g.declaration⟩)

/-- Where an edge to a node leads. -/
def operationTarget (g : MergedGraph) (o : StateOptions) (node : NodeId) : OperationTarget :=
  match g.node? node with
  | some n => if n.isEnd then .done else .state (o.stateName node) node
  | none => .done

/-- The operation of an edge; `none` when its terminal is no action. -/
def operation? (g : MergedGraph) (catalog : Catalog) (o : StateOptions) (e : Edge) :
    Option Operation :=
  (catalog.get? e.terminal).map fun a =>
    { name := a.displayName
      method := a.method
      doc := a.doc
      kind := operationKind o a
      target := g.operationTarget o e.target }

/-- The states of a graph, in node order. -/
def states (g : MergedGraph) (catalog : Catalog) (o : StateOptions) : List StateType :=
  let reachable := g.reachable
  let kept := g.live.filter fun (id, n) => !n.isEnd && (!o.prune || reachable.contains id)
  kept.map fun (id, n) => ⟨o.stateName id, id, n.edges.filterMap (g.operation? catalog o)⟩

end MergedGraph

end FluentGrammar
