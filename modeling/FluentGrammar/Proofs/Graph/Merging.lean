import FluentGrammar.Proofs.Graph.Minimize
import Mathlib.Data.Setoid.Basic

/-
  Merging in any order. Nodes are alike when the least equivalence says so that relates nodes with
  the same actions to related targets (`Graph.alike`). Whatever equal nodes are merged, what stands
  for a node is alike to it and no higher (`Represents.merge`), and when no equal nodes are left,
  alike nodes have the same node standing for them (`Represents.standsFor_eq_iff`). So there is one
  end of all orders of merging (`Represents.unique`), and it is the merged graph.
-/

namespace FluentGrammar

/-- Both nodes exist, and their edges have the same actions in the same order, to targets that are
    related. -/
def Graph.Matches (g : Graph) (r : NodeId → NodeId → Prop) (i j : NodeId) : Prop :=
  ∃ a b, g.node? i = some a ∧ g.node? j = some b ∧
    List.Forall₂ (fun e e' => e.terminal = e'.terminal ∧ r e.target e'.target) a.edges b.edges

/-- The least equivalence that relates nodes whose edges match with related targets. -/
def Graph.alike (g : Graph) : Setoid NodeId := sInf {r | ∀ i j, g.Matches r i j → r i j}

/-- Nodes have the same edges when they are led the same way exactly if their edges match. -/
theorem Node.lead_eq_lead_iff {a b : Node} {f : NodeId → NodeId} : a.lead f = b.lead f ↔
    List.Forall₂ (fun e e' => e.terminal = e'.terminal ∧ f e.target = f e'.target)
      a.edges b.edges := by
  have hedge (e e' : Edge) : ({ e with target := f e.target } : Edge) =
      { e' with target := f e'.target } ↔ e.terminal = e'.terminal ∧ f e.target = f e'.target := by
    simp
  unfold lead
  rw [Node.mk.injEq, ← List.forall₂_eq_eq_eq, List.forall₂_map_left_iff,
    List.forall₂_map_right_iff]
  simp only [hedge]

namespace Graph

variable {g : Graph} {i j : NodeId} {r r' : NodeId → NodeId → Prop}

theorem Matches.mono (h : g.Matches r i j) (hr : ∀ i j, r i j → r' i j) : g.Matches r' i j := by
  obtain ⟨a, b, ha, hb, hedges⟩ := h
  exact ⟨a, b, ha, hb, hedges.imp fun e e' he => ⟨he.1, hr _ _ he.2⟩⟩

theorem matches_lead_iff {f : NodeId → NodeId} : g.Matches (fun i j => f i = f j) i j ↔
    ∃ a b, g.node? i = some a ∧ g.node? j = some b ∧ a.lead f = b.lead f := by
  simp only [Matches, Node.lead_eq_lead_iff]

/-- Nodes with matching edges to targets that are alike are alike. -/
theorem alike_of_matches (h : g.Matches g.alike i j) : g.alike i j := by
  unfold alike
  rw [Setoid.sInf_iff]
  intro r hr
  apply hr
  apply h.mono
  intro i j hij
  exact Setoid.sInf_iff.1 hij r hr

/-- Nodes that are alike are related by every such equivalence. -/
theorem alike_le {s : Setoid NodeId} (hs : ∀ i j, g.Matches s i j → s i j) (h : g.alike i j) :
    s i j :=
  Setoid.sInf_iff.1 h s hs

end Graph

namespace MergedGraph

variable {g : Graph} {m m' : MergedGraph} {n i j keep gone : NodeId} {node : Node}

/-! ## The merges that are made -/

/-- Every merge takes one live node, so merging comes to an end, whatever is merged. -/
theorem wellFounded_merges : WellFounded fun m' m => Merges m m' := by
  refine Subrelation.wf ?_ (InvImage.wf liveCount Nat.lt_wfRel.wf)
  intro m' m h
  have := h.liveCount
  show m'.liveCount < m.liveCount
  omega

/-- As many steps as there are live nodes suffice. -/
theorem settled_mergeAll (fuel : Nat) (m : MergedGraph) (merged : Nat)
    (hfuel : m.liveCount ≤ fuel) : (mergeAll fuel m merged).1.Settled := by
  induction fuel generalizing m merged with
  | zero =>
    intro i j node hi
    have hpos : 0 < m.liveCount :=
      List.countP_pos_iff.2 ⟨_, List.mem_of_getElem? (getElem?_of_node? hi), rfl⟩
    omega
  | succ fuel ih =>
    obtain ⟨m', hmerges, heq⟩ | ⟨hsettled, heq⟩ := mergeAll_succ fuel m merged
    · have hone := hmerges.liveCount
      rw [heq]
      apply ih
      omega
    · rw [heq]
      exact hsettled

/-! ## What merges keep -/

/-- The live nodes mirror those of the graph, and what stands for a node is live, alike to it and
    no higher. -/
structure Represents (g : Graph) (m : MergedGraph) : Prop where
  mirrors : Mirrors g m
  upright : m.Upright
  alike : ∀ n, g.alike (m.standsFor n) n
  le : ∀ n, m.standsFor n ≤ n

theorem represents_ofGraph (g : Graph) : Represents g (ofGraph g) := by
  refine ⟨mirrors_ofGraph g, upright_ofGraph g, ?_, ?_⟩
  · intro n
    rw [standsFor_ofGraph]
    exact g.alike.refl n
  · intro n
    rw [standsFor_ofGraph]
    exact Nat.le_refl n

/-- A live node has the edges of the node in its place, led to what stands for their targets. -/
theorem Represents.exists_node (h : Represents g m) (hn : m.node? n = some node) :
    ∃ a, g.node? n = some a ∧ node = a.lead m.standsFor := by
  have heq := h.mirrors.node?_eq h.upright (isLive_of_node? hn)
  rw [hn] at heq
  obtain ⟨a, ha, hlead⟩ := Option.map_eq_some_iff.1 heq.symm
  exact ⟨a, ha, hlead.symm⟩

/-- Live nodes with equal edges are alike. -/
theorem Represents.alike_of_node? (h : Represents g m) (hi : m.node? i = some node)
    (hj : m.node? j = some node) : g.alike i j := by
  obtain ⟨a, ha, hlead⟩ := h.exists_node hi
  obtain ⟨b, hb, hlead'⟩ := h.exists_node hj
  have hmatches : g.Matches (fun i j => m.standsFor i = m.standsFor j) i j :=
    Graph.matches_lead_iff.2 ⟨a, b, ha, hb, hlead.symm.trans hlead'⟩
  apply Graph.alike_of_matches
  apply hmatches.mono
  intro x y hxy
  have hy := h.alike y
  rw [← hxy] at hy
  exact g.alike.trans (g.alike.symm (h.alike x)) hy

theorem Represents.merge (h : Represents g m) (hmerges : Merges m m') : Represents g m' := by
  have hmirrors := h.mirrors.merge hmerges
  have hupright := h.upright.merge h.mirrors hmerges
  obtain ⟨i, j, node, hij, hi, hj⟩ := hmerges
  have hremap := h.mirrors.lt_remap hj
  refine ⟨hmirrors, hupright, ?_, ?_⟩
  · intro n
    rw [standsFor_merge hremap, Function.comp, replace]
    split
    · next hn => exact g.alike.trans (h.alike_of_node? hi hj) (hn ▸ h.alike n)
    · exact h.alike n
  · intro n
    have hle := h.le n
    rw [standsFor_merge hremap, Function.comp, replace]
    split
    · next hn => exact Nat.le_trans (Nat.le_of_lt hij) (hn ▸ hle)
    · exact hle

theorem represents_of_merges (h : Represents g m) (hrun : Relation.ReflTransGen Merges m m') :
    Represents g m' := by
  induction hrun with
  | refl => exact h
  | tail _ hlast ih => exact ih.merge hlast

/-! ## The end of merging -/

/-- When no equal nodes are left, one node stands for all nodes that are alike. -/
theorem Represents.standsFor_eq_iff (h : Represents g m) (hs : m.Settled) :
    m.standsFor i = m.standsFor j ↔ g.alike i j := by
  constructor
  · intro heq
    have hj := h.alike j
    rw [← heq] at hj
    exact g.alike.trans (g.alike.symm (h.alike i)) hj
  · intro hij
    refine Graph.alike_le (s := Setoid.ker m.standsFor) ?_ hij
    intro i j hmatches
    obtain ⟨a, b, ha, hb, hlead⟩ := Graph.matches_lead_iff.1 hmatches
    have hi := h.mirrors.node i
    have hj := h.mirrors.node j
    rw [ha, Option.map_some] at hi
    rw [hb, Option.map_some, ← hlead] at hj
    exact hs _ _ _ hi hj

/-- It is the lowest of them. -/
theorem Represents.isLeast (h : Represents g m) (hs : m.Settled) (n : NodeId) :
    IsLeast {i | g.alike i n} (m.standsFor n) := by
  refine ⟨h.alike n, ?_⟩
  intro i hi
  rw [← (h.standsFor_eq_iff hs).2 hi]
  exact h.le i

/-- The slots are determined by what stands for the nodes. -/
theorem Represents.node?_eq (h : Represents g m) (n : NodeId) : m.node? n =
    if m.standsFor n = n then (g.node? n).map (Node.lead m.standsFor) else none := by
  split
  · next hn =>
    have hnode := h.mirrors.node n
    rwa [hn] at hnode
  · next hn =>
    cases hnode : m.node? n with
    | none => rfl
    | some node => exact absurd (h.upright n (isLive_of_node? hnode)) hn

theorem Represents.getElem?_remap (h : Represents g m) (n : NodeId) :
    m.remap[n]? = if n < g.size then some (m.standsFor n) else none := by
  rw [← h.mirrors.remap]
  split
  · next hn => simp [standsFor, hn]
  · next hn => simpa using hn

theorem Represents.getElem?_nodes (h : Represents g m) (n : NodeId) :
    m.nodes[n]? = if n < g.size then some (m.node? n) else none := by
  rw [← h.mirrors.slots]
  split
  · next hn => simp [node?, hn]
  · next hn => simpa using hn

/-- There is only one graph that merging can end with. -/
theorem Represents.unique (h : Represents g m) (hs : m.Settled) (h' : Represents g m')
    (hs' : m'.Settled) : m = m' := by
  have hstands : m.standsFor = m'.standsFor := by
    funext n
    exact (h.isLeast hs n).unique (h'.isLeast hs' n)
  have hnodes : m.nodes = m'.nodes := by
    apply List.ext_getElem?
    intro n
    rw [h.getElem?_nodes, h'.getElem?_nodes, h.node?_eq, h'.node?_eq, hstands]
  have hremap : m.remap = m'.remap := by
    apply List.ext_getElem?
    intro n
    rw [h.getElem?_remap, h'.getElem?_remap, hstands]
  exact congr (congrArg MergedGraph.mk hnodes) hremap

end MergedGraph

namespace Graph

open MergedGraph

variable {g : Graph}

theorem represents_minimize (g : Graph) : Represents g g.minimize.1 :=
  represents_of_merges (represents_ofGraph g) g.minimize_merges

theorem settled_minimize (g : Graph) : g.minimize.1.Settled := by
  apply settled_mergeAll
  unfold liveCount
  refine List.countP_le_length.trans ?_
  simp [ofGraph, size]

/-- Merging ends with the classes of nodes that are alike. Nodes have the same node in their place
    exactly when they are alike, and it is the lowest of their class. No two live nodes have equal
    edges, so there is nothing left to merge. Merging equal nodes comes to an end in every order,
    and whatever the order is, the end is the same graph. -/
theorem minimize_classes (g : Graph) :
    (∀ i < g.size, ∀ j < g.size,
      g.minimize.1.remap[i]? = g.minimize.1.remap[j]? ↔ g.alike i j) ∧
    (∀ i < g.size, ∃ k, g.minimize.1.remap[i]? = some k ∧ IsLeast {j | g.alike j i} k) ∧
    g.minimize.1.Settled ∧
    Relation.ReflTransGen Merges (.ofGraph g) g.minimize.1 ∧
    WellFounded (fun m' m => Merges m m') ∧
    ∀ m, Relation.ReflTransGen Merges (.ofGraph g) m → m.Settled → m = g.minimize.1 := by
  have h := g.represents_minimize
  have hs := g.settled_minimize
  refine ⟨?_, ?_, hs, mergeAll_merges _ _ _, wellFounded_merges, ?_⟩
  · intro i hi j hj
    rw [h.getElem?_remap, h.getElem?_remap, if_pos hi, if_pos hj, Option.some.injEq]
    exact h.standsFor_eq_iff hs
  · intro i hi
    refine ⟨g.minimize.1.standsFor i, ?_, h.isLeast hs i⟩
    rw [h.getElem?_remap, if_pos hi]
  · intro m hrun hm
    exact (represents_of_merges (represents_ofGraph g) hrun).unique hm h hs

/-- Two nodes that go on to different ends with the same action. -/
def forked : Graph :=
  ⟨[⟨[⟨0, 1⟩, ⟨1, 2⟩, ⟨2, 4⟩]⟩, ⟨[⟨0, 3⟩]⟩, ⟨[⟨0, 5⟩]⟩, ⟨[]⟩, ⟨[]⟩, ⟨[]⟩]⟩

/-- The ends of `forked` may be merged from the last one on, and then the nodes before them. -/
theorem exists_minimize_forked : forked.alike 1 2 ∧ ¬forked.alike 0 1 ∧
    (((MergedGraph.ofGraph forked).merge 4 5).merge 3 4).merge 1 2 = forked.minimize.1 := by
  obtain ⟨hclasses, -, -, -, -, hends⟩ := minimize_classes forked
  refine ⟨(hclasses 1 (by decide) 2 (by decide)).1 (by decide), ?_, ?_⟩
  · intro h
    exact absurd ((hclasses 0 (by decide) 1 (by decide)).2 h) (by decide)
  · apply hends
    · have ends := Merges.intro (m := .ofGraph forked) 4 5 ⟨[]⟩ (by decide) (by decide) (by decide)
      have last := Merges.intro 3 4 ⟨[]⟩ (m := (MergedGraph.ofGraph forked).merge 4 5) (by decide)
        (by decide) (by decide)
      have before := Merges.intro 1 2 ⟨[⟨0, 3⟩]⟩
        (m := ((MergedGraph.ofGraph forked).merge 4 5).merge 3 4) (by decide) (by decide)
        (by decide)
      exact .tail (.tail (.single ends) last) before
    · exact settled_of_equalPair? (by decide)

end Graph

end FluentGrammar
