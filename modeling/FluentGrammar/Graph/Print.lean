import FluentGrammar.Colors
import FluentGrammar.Graph.Basic

/-
  Graphs in words, a node a line: its edges, or its end, or the node it was merged into.
-/

namespace FluentGrammar

namespace Graph

/-- The name of a terminal, or its index when it has none. -/
def terminalText (names : List String) (t : TerminalId) : String :=
  names.getD t ("t" ++ toString t)

/-- The name of a node. -/
def nodeText (id : NodeId) : String := "N" ++ toString id

/-- An edge in words. -/
def edgeText (p : Palette) (names : List String) (e : Edge) : String :=
  p.action (terminalText names e.terminal) ++ " " ++ p.muted "→" ++ " " ++
    p.state (nodeText e.target)

/-- The line of a node. -/
def nodeLine (p : Palette) (names : List String) (id : NodeId) (n : Node) : String :=
  p.state (nodeText id) ++ ": " ++
    (if n.isEnd then p.muted "end" else ", ".intercalate (n.edges.map (edgeText p names)))

/-- The graph in words, with the names of terminals by index. -/
def dump (g : Graph) (p : Palette) (names : List String) : String :=
  Text.unlines (g.nodes.mapIdx (nodeLine p names))

end Graph

/-- The merged graph in words. Merged nodes have a line only with `showMerged`. -/
def MergedGraph.dump (g : MergedGraph) (p : Palette) (names : List String) (showMerged : Bool) :
    String :=
  let line (slot : Option Node) (id : NodeId) : Option String :=
    match slot with
    | some n => some (Graph.nodeLine p names id n)
    | none =>
      if showMerged then
        some (p.state (Graph.nodeText id) ++ ": " ++
          p.muted ("✗ → " ++ Graph.nodeText (g.remap.getD id id)))
      else none
  Text.unlines (g.nodes.zipIdx.filterMap fun (slot, id) => line slot id)

end FluentGrammar
