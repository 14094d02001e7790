import FluentGrammar.Automaton.Table

/-
  Transition graphs: which action moves a builder from which state to which. Node 0 is where a
  builder begins. A merged graph keeps the numbers of the graph it was made from: a merged node
  leaves an empty slot, and for every node of that graph there is a live one that stands for it.
-/

namespace FluentGrammar

/-- The index of a node. -/
abbrev NodeId := Nat

/-- An action and the node it leads to. -/
structure Edge where
  terminal : TerminalId
  target : NodeId
  deriving Repr, DecidableEq

/-- A node: its edges in terminal order, at most one for a terminal. -/
structure Node where
  edges : List Edge
  deriving Repr, DecidableEq

namespace Node

/-- No action is possible. -/
def isEnd (n : Node) : Bool := n.edges.isEmpty

/-- Where an action leads. -/
def target? (n : Node) (terminal : TerminalId) : Option NodeId :=
  (n.edges.find? (·.terminal == terminal)).map (·.target)

end Node

/-- A transition graph. -/
structure Graph where
  nodes : List Node
  deriving Repr, DecidableEq

namespace Graph

/-- The number of nodes. -/
def size (g : Graph) : Nat := g.nodes.length

/-- A node of the graph. -/
def node? (g : Graph) (id : NodeId) : Option Node := g.nodes[id]?

/-- The number of edges of all nodes. -/
def edgeCount (g : Graph) : Nat := (g.nodes.flatMap (·.edges)).length

end Graph

/-- A graph some of whose nodes have been merged into others. -/
structure MergedGraph where
  /-- The live nodes in their slots. -/
  nodes : List (Option Node)
  /-- For every node before merging, the live node that stands for it. -/
  remap : List NodeId
  deriving Repr, DecidableEq

namespace MergedGraph

/-- The number of slots. -/
def size (g : MergedGraph) : Nat := g.nodes.length

/-- A live node. -/
def node? (g : MergedGraph) (id : NodeId) : Option Node := (g.nodes[id]?).join

/-- The node has not been merged. -/
def isLive (g : MergedGraph) (id : NodeId) : Bool := (g.node? id).isSome

/-- The live nodes with their numbers, in order. -/
def live (g : MergedGraph) : List (NodeId × Node) :=
  g.nodes.zipIdx.filterMap fun (slot, id) => slot.map (id, ·)

/-- The number of live nodes. -/
def liveCount (g : MergedGraph) : Nat := g.nodes.countP (·.isSome)

/-- The number of edges of all live nodes. -/
def edgeCount (g : MergedGraph) : Nat := (g.live.flatMap (·.2.edges)).length

/-- The nodes that edges of a node lead to. -/
def targets (g : MergedGraph) (id : NodeId) : List NodeId :=
  ((g.node? id).map fun n => n.edges.map (·.target)).getD []

end MergedGraph

end FluentGrammar
