import FluentGrammar.Graph.Basic
import FluentGrammar.Reach

/-
  Nodes that a builder can get to.
-/

namespace FluentGrammar

/-- The nodes reachable from node 0 in ascending order; none when node 0 is not live. -/
def MergedGraph.reachable (g : MergedGraph) : List NodeId :=
  if g.isLive 0 then reachableFrom g.targets g.edgeCount 0 else []

end FluentGrammar
