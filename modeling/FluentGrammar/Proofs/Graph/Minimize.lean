import FluentGrammar.Proofs.Graph.Walk
import FluentGrammar.Proofs.Growth

/-
  What merging leaves of a graph whose edges lead to its nodes. Live nodes stand for themselves,
  and one merge keeps that (`Upright.merge`). With the edges that a live node mirrors this gives
  the rest: its edges lead to live nodes (`Mirrors.closed`), and no slot has more edges than the
  node it was made from, so the edges do not grow in number (`edgeCount_le`). Every merge takes
  one live node (`mergeAll_count`). Together they say what merging is to a builder: a graph that
  can be walked in step with the one it was made from (`Graph.minimize_refines`).
-/

namespace FluentGrammar

/-- Edges lead to nodes of the graph. -/
def Graph.Closed (g : Graph) : Prop := ∀ node ∈ g.nodes, ∀ e ∈ node.edges, e.target < g.size

instance (g : Graph) : Decidable g.Closed :=
  inferInstanceAs (Decidable (∀ node ∈ g.nodes, ∀ e ∈ node.edges, e.target < g.size))

namespace MergedGraph

variable {g : Graph} {m m' : MergedGraph} {n keep gone : Nat} {node : Node}

/-- Edges of live nodes lead to live nodes. -/
def Closed (m : MergedGraph) : Prop :=
  ∀ n node, m.node? n = some node → ∀ e ∈ node.edges, m.isLive e.target = true

/-- Live nodes stand for themselves. -/
def Upright (m : MergedGraph) : Prop := ∀ n, m.isLive n = true → m.standsFor n = n

theorem isLive_of_node? (h : m.node? n = some node) : m.isLive n = true := by
  rw [isLive, h]
  rfl

theorem upright_ofGraph (g : Graph) : (ofGraph g).Upright := by
  intro n _
  rw [standsFor_ofGraph]
  rfl

theorem Upright.merge (hup : m.Upright) (h : Mirrors g m) (hmerges : Merges m m') :
    m'.Upright := by
  obtain ⟨keep, gone, node, -, -, hgone⟩ := hmerges
  have hslot (n : NodeId) : (m.merge keep gone).node? n =
      if n = gone then none else (m.node? n).map (Node.lead (replace keep gone)) :=
    node?_merge (lt_of_node? hgone) n
  intro n hn
  have hne : n ≠ gone := by
    intro heq
    rw [isLive, hslot, if_pos heq] at hn
    cases hn
  have hlive : m.isLive n = true := by
    rw [isLive, hslot, if_neg hne, Option.isSome_map] at hn
    exact hn
  rw [standsFor_merge (h.lt_remap hgone), Function.comp, hup n hlive, replace, if_neg hne]

/-- A merge takes one live node. -/
theorem Merges.liveCount (h : Merges m m') : m'.liveCount + 1 = m.liveCount := by
  obtain ⟨keep, gone, node, -, -, hgone⟩ := h
  obtain ⟨hlt, hslot⟩ := List.getElem?_eq_some_iff.1 (getElem?_of_node? hgone)
  have hpos : 0 < m.nodes.countP (·.isSome) :=
    List.countP_pos_iff.2 ⟨_, List.getElem_mem hlt, by rw [hslot]; rfl⟩
  have hmap : (m.merge keep gone).liveCount = (m.nodes.set gone none).countP (·.isSome) := by
    rw [MergedGraph.liveCount, MergedGraph.merge, List.countP_map]
    congr 1
    funext slot
    exact Option.isSome_map
  rw [hmap, List.countP_set hlt, hslot, MergedGraph.liveCount]
  simp only [Option.isSome_some, Option.isSome_none, if_true, Bool.false_eq_true, if_false]
  omega

/-! ## All merges -/

theorem Upright.of_merges (hup : m.Upright) (h : Mirrors g m)
    (hrun : Relation.ReflTransGen Merges m m') : m'.Upright := by
  induction hrun with
  | refl => exact hup
  | tail hrun hlast ih => exact ih.merge (h.of_merges hrun) hlast

/-- Nodes are merged or live. -/
theorem mergeAll_count (fuel : Nat) (m : MergedGraph) (merged : Nat) :
    (mergeAll fuel m merged).2 + (mergeAll fuel m merged).1.liveCount =
      merged + m.liveCount := by
  induction fuel generalizing m merged with
  | zero => rfl
  | succ fuel ih =>
    obtain ⟨m', hmerges, heq⟩ | ⟨-, heq⟩ := mergeAll_succ fuel m merged
    · have hone := hmerges.liveCount
      rw [heq, ih]
      omega
    · rw [heq]

/-! ## What is left -/

namespace Mirrors

/-- A live node has the edges of the node in its place. -/
theorem node?_eq (h : Mirrors g m) (hup : m.Upright) (hn : m.isLive n = true) :
    m.node? n = (g.node? n).map (Node.lead m.standsFor) := by
  have hnode := h.node n
  rwa [hup n hn] at hnode

/-- What stands for a node of the graph is live. -/
theorem isLive_standsFor (h : Mirrors g m) (hn : n < g.size) :
    m.isLive (m.standsFor n) = true := by
  have hnode : g.node? n = some g.nodes[n] := List.getElem?_eq_getElem hn
  rw [isLive, h.node, hnode]
  rfl

theorem closed (h : Mirrors g m) (hup : m.Upright) (hg : g.Closed) : m.Closed := by
  intro n node hn e he
  have hnode := h.node?_eq hup (isLive_of_node? hn)
  rw [hn] at hnode
  obtain ⟨source, hsource, rfl⟩ := Option.map_eq_some_iff.1 hnode.symm
  obtain ⟨e', he', rfl⟩ := List.mem_map.1 he
  exact h.isLive_standsFor (hg source (List.mem_of_getElem? hsource) e' he')

theorem edgeCount_le (h : Mirrors g m) (hup : m.Upright) : m.edgeCount ≤ g.edgeCount := by
  -- Without their numbers the live nodes are the slots that are not empty.
  have hlive : m.live.map (·.2.edges.length) =
      m.nodes.filterMap fun slot => slot.map (·.edges.length) := by
    have hfst : m.nodes.filterMap (fun slot => slot.map (·.edges.length)) =
        (m.nodes.zipIdx.map Prod.fst).filterMap fun slot => slot.map (·.edges.length) := by
      rw [List.zipIdx_map_fst]
    rw [hfst, live, List.map_filterMap, List.filterMap_map]
    congr 1
    funext ⟨slot, id⟩
    rw [Function.comp, Option.map_map]
    rfl
  have hslots (slots : List (Option Node)) :
      (slots.filterMap fun slot => slot.map (·.edges.length)).sum =
        (slots.map fun slot => (slot.map (·.edges.length)).getD 0).sum := by
    induction slots with
    | nil => rfl
    | cons slot rest ih => cases slot <;> simp [ih]
  rw [edgeCount, List.length_flatMap, hlive, hslots, Graph.edgeCount, List.length_flatMap]
  refine List.Forall₂.sum_le_sum (List.forall₂_map_left_iff.2 (List.forall₂_map_right_iff.2
    (List.forall₂_iff_get.2 ⟨h.slots, fun i hi hi' => ?_⟩)))
  rw [List.get_eq_getElem, List.get_eq_getElem]
  cases hslot : m.nodes[i] with
  | none => exact Nat.zero_le _
  | some node =>
    have hnode : m.node? i = some node := by
      rw [MergedGraph.node?, List.getElem?_eq_getElem hi, hslot]
      rfl
    have heq := h.node?_eq hup (isLive_of_node? hnode)
    rw [hnode, Graph.node?, List.getElem?_eq_getElem hi'] at heq
    have hedges : node.edges.length = g.nodes[i].edges.length := by
      rw [Option.some.inj heq]
      simp [Node.lead]
    exact Nat.le_of_eq hedges

end Mirrors

end MergedGraph

namespace Graph

variable {g : Graph}

theorem minimize_upright (g : Graph) : g.minimize.1.Upright :=
  (MergedGraph.upright_ofGraph g).of_merges (MergedGraph.mirrors_ofGraph g) g.minimize_merges

theorem minimize_closed (hg : g.Closed) : g.minimize.1.Closed :=
  g.minimize_mirrors.closed g.minimize_upright hg

/-- A walk to a node that is left leads to the same node when nodes have been merged. -/
theorem minimize_walk?_of_node? {n : NodeId} {node : Node} {w : List TerminalId}
    (hnode : g.minimize.1.node? n = some node) (hw : g.walk? 0 w = some n) :
    g.minimize.1.walk? 0 w = some n := by
  have hwalk := g.minimize_walk? 0 w
  rw [g.minimize_mirrors.first, hw, Option.map_some,
    g.minimize_upright n (MergedGraph.isLive_of_node? hnode)] at hwalk
  exact hwalk

theorem isLive_minimize_zero (hg : g.nodes ≠ []) : g.minimize.1.isLive 0 = true := by
  have hfirst := g.minimize_mirrors.isLive_standsFor (List.length_pos_iff.2 hg)
  rwa [g.minimize_mirrors.first] at hfirst

theorem minimize_count (g : Graph) :
    g.minimize.2.live = g.minimize.1.liveCount ∧
      g.minimize.2.merged + g.minimize.2.live = g.size := by
  refine ⟨rfl, ?_⟩
  have hcount := MergedGraph.mergeAll_count g.size (.ofGraph g) 0
  have hall : (MergedGraph.ofGraph g).liveCount = g.size := by
    simp [MergedGraph.liveCount, MergedGraph.ofGraph, size, List.countP_map, Function.comp_def]
  rw [hall, Nat.zero_add] at hcount
  exact hcount

/-- Merging keeps what can be walked. Every node has a live node that stands for it, with its edges
    in order, led to what stands for their targets. Edges of live nodes lead to live nodes, what
    stands for a node stands for itself, and a builder begins where it began. Nodes are merged or
    live, and edges do not grow in number. So the same actions can be walked from a node and from
    what stands for it, to a node and to what stands for that. -/
theorem minimize_refines (g : Graph) (hg : g.Closed) :
    (∀ n node, g.node? n = some node →
        g.minimize.1.remap[n]? = some (g.minimize.1.standsFor n) ∧
        g.minimize.1.node? (g.minimize.1.standsFor n) =
          some (node.lead g.minimize.1.standsFor) ∧
        g.minimize.1.standsFor (g.minimize.1.standsFor n) = g.minimize.1.standsFor n) ∧
      g.minimize.1.Closed ∧
      (g.nodes ≠ [] → g.minimize.1.isLive 0 = true ∧ g.minimize.1.remap[0]? = some 0) ∧
      (g.minimize.2.merged + g.minimize.2.live = g.size ∧
        g.minimize.2.live = g.minimize.1.liveCount) ∧
      g.minimize.1.edgeCount ≤ g.edgeCount ∧
      ∀ n < g.size, ∀ w,
        g.minimize.1.walk? (g.minimize.1.standsFor n) w =
          (g.walk? n w).map g.minimize.1.standsFor := by
  have hmirrors := g.minimize_mirrors
  have hup := g.minimize_upright
  obtain ⟨hlive, hcount⟩ := g.minimize_count
  have hremap (n : NodeId) (hn : n < g.size) :
      g.minimize.1.remap[n]? = some (g.minimize.1.standsFor n) := by
    have hlt : n < g.minimize.1.remap.length := by rw [hmirrors.remap]; exact hn
    rw [MergedGraph.standsFor, List.getD_eq_getElem?_getD, List.getElem?_eq_getElem hlt]
    rfl
  refine ⟨fun n node hnode => ?_, minimize_closed hg, fun hne => ?_, ⟨hcount, hlive⟩,
    hmirrors.edgeCount_le hup, fun n _ w => g.minimize_walk? n w⟩
  · have hn : n < g.size := (List.getElem?_eq_some_iff.1 hnode).1
    refine ⟨hremap n hn, ?_, hup _ (hmirrors.isLive_standsFor hn)⟩
    rw [hmirrors.node, hnode]
    rfl
  · have hzero := hremap 0 (List.length_pos_iff.2 hne)
    rw [hmirrors.first] at hzero
    exact ⟨isLive_minimize_zero hne, hzero⟩

/-- Two loops behind node 0 that are entered on different actions and leave to different ends. The
    ends are merged first, and with them the loops are equal. -/
def twoLoops : Graph :=
  ⟨[⟨[⟨0, 1⟩, ⟨1, 2⟩]⟩, ⟨[⟨0, 1⟩, ⟨2, 3⟩]⟩, ⟨[⟨0, 1⟩, ⟨2, 4⟩]⟩, ⟨[]⟩, ⟨[]⟩]⟩

theorem exists_minimize_twoLoops :
    twoLoops.Closed ∧ twoLoops.minimize.2 = ⟨2, 3⟩ ∧
      twoLoops.minimize.1.walk? (twoLoops.minimize.1.standsFor 2) [0, 0, 2] = some 3 := by
  have hclosed : twoLoops.Closed := by decide
  obtain ⟨-, -, -, -, -, hwalk⟩ := minimize_refines twoLoops hclosed
  refine ⟨hclosed, by decide, ?_⟩
  rw [hwalk 2 (by decide)]
  decide

end Graph

end FluentGrammar
