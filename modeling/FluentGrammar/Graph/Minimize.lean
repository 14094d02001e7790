import FluentGrammar.Graph.Basic

/-
  Merging nodes with the same edges. While two live nodes have equal edges, the first such pair is
  merged: the higher node leaves an empty slot, and what led to it leads to the lower one. Merging
  may make further nodes equal. Every merge takes one live node, so there are fewer merges than
  nodes, and the node where a builder begins stays.
-/

namespace FluentGrammar

/-- How many nodes were merged into others and how many are left. -/
structure MergeCount where
  merged : Nat
  live : Nat
  deriving Repr, DecidableEq

namespace MergedGraph

/-- The graph in which nothing has been merged. -/
def ofGraph (g : Graph) : MergedGraph := ⟨g.nodes.map some, List.range g.size⟩

/-- The first live node with an equal one behind it, and the first of those. `index` is the number
    of the first slot. -/
def equalPair? (index : Nat) : List (Option Node) → Option (NodeId × NodeId)
  | [] => none
  | none :: rest => equalPair? (index + 1) rest
  | some n :: rest =>
    match rest.findIdx? (· == some n) with
    | some distance => some (index, index + 1 + distance)
    | none => equalPair? (index + 1) rest

/-- `keep` in place of `gone`. -/
def replace (keep gone id : NodeId) : NodeId := if id = gone then keep else id

/-- The node with its edges led to `keep` instead of `gone`. -/
def retarget (keep gone : NodeId) (n : Node) : Node :=
  ⟨n.edges.map fun e => { e with target := replace keep gone e.target }⟩

/-- Merges `gone` into `keep`. -/
def merge (g : MergedGraph) (keep gone : NodeId) : MergedGraph where
  nodes := (g.nodes.set gone none).map (·.map (retarget keep gone))
  remap := g.remap.map (replace keep gone)

/-- Merges while there are equal nodes, and counts. -/
def mergeAll : Nat → MergedGraph → Nat → MergedGraph × Nat
  | 0, g, merged => (g, merged)
  | fuel + 1, g, merged =>
    match equalPair? 0 g.nodes with
    | some (keep, gone) => mergeAll fuel (g.merge keep gone) (merged + 1)
    | none => (g, merged)

end MergedGraph

/-- The graph with equal nodes merged. -/
def Graph.minimize (g : Graph) : MergedGraph × MergeCount :=
  let (m, merged) := MergedGraph.mergeAll g.size (.ofGraph g) 0
  (m, ⟨merged, m.liveCount⟩)

end FluentGrammar
