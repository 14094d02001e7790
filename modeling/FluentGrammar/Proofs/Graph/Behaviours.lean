import FluentGrammar.Proofs.Graph.Merging
import FluentGrammar.Proofs.Graph.States
import Mathlib.Data.Set.Card
import Mathlib.Order.WellFoundedSet

/-
  Merging and what can be done from a node on. A graph may come back to where it was, and then nodes
  that allow the same sequences of actions need not be alike. Without cycles they are
  (`alike_of_allowed_eq`), by induction along the edges: the actions of the nodes are the same,
  since each of them is allowed and they stand in order, and the targets allow the same again. So
  merging leaves one node for everything that some node allows (`minimize_minimal`).
-/

namespace FluentGrammar

/-- The sequences of actions that can be walked from a node on. -/
def Graph.allowed (g : Graph) (n : NodeId) : Set (List TerminalId) :=
  {w | (g.walk? n w).isSome = true}

/-- The sequences of actions that can be walked from a live node on. -/
def MergedGraph.allowed (g : MergedGraph) (n : NodeId) : Set (List TerminalId) :=
  {w | (g.walk? n w).isSome = true}

namespace Graph

variable {g : Graph} {n m i j : NodeId} {t : TerminalId} {w : List TerminalId} {node : Node}

/-- An edge leads from one node to another. -/
def Leads (g : Graph) (n m : NodeId) : Prop :=
  ∃ node, g.node? n = some node ∧ ∃ e ∈ node.edges, e.target = m

/-- No way along the edges comes back to where it began. -/
def Acyclic (g : Graph) : Prop := ∀ n, ¬Relation.TransGen g.Leads n n

/-! ## Going along the edges -/

/-- Edges that lead to higher nodes only do not come back. -/
theorem acyclic_of_lt (h : ∀ x ∈ g.nodes.zipIdx, ∀ e ∈ x.1.edges, x.2 < e.target) :
    g.Acyclic := by
  have hlt : ∀ n m, Relation.TransGen g.Leads n m → n < m := by
    intro n m hway
    have step {n m : NodeId} (hleads : g.Leads n m) : n < m := by
      obtain ⟨node, hnode, e, he, rfl⟩ := hleads
      exact h (node, n) (List.mk_mem_zipIdx_iff_getElem?.2 hnode) e he
    induction hway with
    | single hleads => exact step hleads
    | tail _ hleads ih => exact Nat.lt_trans ih (step hleads)
  intro n hway
  exact Nat.lt_irrefl n (hlt n n hway)

/-- Without cycles, what holds of a node when it holds of all nodes behind its edges holds of
    all. -/
theorem leads_induction (hg : g.Closed) (ha : g.Acyclic) {motive : NodeId → Prop}
    (step : ∀ n < g.size, (∀ m, g.Leads n m → motive m) → motive n) (hn : n < g.size) :
    motive n := by
  have : IsStrictOrder NodeId fun m n => Relation.TransGen g.Leads n m :=
    { irrefl := ha
      trans := fun a b c hab hbc => hbc.trans hab }
  have hwf := (Set.finite_lt_nat g.size).wellFoundedOn
    (r := fun m n => Relation.TransGen g.Leads n m)
  apply hwf.induction hn
  intro n hn ih
  apply step n hn
  intro m hleads
  obtain ⟨node, hnode, e, he, rfl⟩ := id hleads
  exact ih _ (hg node (List.mem_of_getElem? hnode) e he) (.single hleads)

/-! ## What a node allows -/

theorem nil_mem_allowed : [] ∈ g.allowed n ↔ n < g.size := by
  simp [allowed, walk?, walkThrough, node?, size]

theorem cons_mem_allowed (hnode : g.node? n = some node) :
    t :: w ∈ g.allowed n ↔ ∃ m, node.target? t = some m ∧ w ∈ g.allowed m := by
  show (walkThrough g.node? n (t :: w)).isSome = true ↔ _
  rw [walkThrough, hnode, Option.bind_some]
  cases htarget : node.target? t with
  | none => simp
  | some m =>
    rw [Option.bind_some]
    simp only [Option.some.injEq, exists_eq_left']
    rfl

/-- The actions of a node are those that it allows. -/
theorem mem_actions_iff (hg : g.Closed) (hs : g.Ascending) (hnode : g.node? n = some node) :
    t ∈ node.edges.map (·.terminal) ↔ [t] ∈ g.allowed n := by
  have hmem := List.mem_of_getElem? hnode
  rw [cons_mem_allowed hnode, List.mem_map]
  constructor
  · intro h
    obtain ⟨e, he, rfl⟩ := h
    exact ⟨e.target, (Node.target?_eq_some_iff (hs node hmem)).2 he,
      nil_mem_allowed.2 (hg node hmem e he)⟩
  · intro h
    obtain ⟨m, hm, -⟩ := h
    exact ⟨⟨t, m⟩, (Node.target?_eq_some_iff (hs node hmem)).1 hm, rfl⟩

/-- What can be walked behind an edge. -/
theorem mem_allowed_target (hs : g.Ascending) (hnode : g.node? n = some node) {e : Edge}
    (he : e ∈ node.edges) : w ∈ g.allowed e.target ↔ e.terminal :: w ∈ g.allowed n := by
  have htarget := (Node.target?_eq_some_iff (hs node (List.mem_of_getElem? hnode))).2 he
  rw [cons_mem_allowed hnode, htarget]
  simp

/-- Without cycles, nodes that allow the same are alike. -/
theorem alike_of_allowed_eq (hg : g.Closed) (hs : g.Ascending) (ha : g.Acyclic) (hi : i < g.size)
    (h : g.allowed i = g.allowed j) : g.alike i j := by
  refine leads_induction hg ha (motive := fun i => ∀ j, g.allowed i = g.allowed j → g.alike i j)
    ?_ hi j h
  intro i hi ih j h
  have hj : j < g.size := by
    rw [← nil_mem_allowed, ← h, nil_mem_allowed]
    exact hi
  obtain ⟨a, hnode⟩ : ∃ a, g.node? i = some a := ⟨_, List.getElem?_eq_getElem hi⟩
  obtain ⟨b, hnode'⟩ : ∃ b, g.node? j = some b := ⟨_, List.getElem?_eq_getElem hj⟩
  have hactions : a.edges.map (·.terminal) = b.edges.map (·.terminal) := by
    have ha := List.pairwise_map.2 (hs a (List.mem_of_getElem? hnode))
    have hb := List.pairwise_map.2 (hs b (List.mem_of_getElem? hnode'))
    apply List.Pairwise.eq_of_mem_iff ha hb
    intro t
    rw [mem_actions_iff hg hs hnode, mem_actions_iff hg hs hnode', h]
  rw [← List.forall₂_eq_eq_eq, List.forall₂_map_left_iff, List.forall₂_map_right_iff,
    List.forall₂_iff_zip] at hactions
  apply alike_of_matches
  refine ⟨a, b, hnode, hnode', List.forall₂_iff_zip.2 ⟨hactions.1, ?_⟩⟩
  intro e e' hmem
  have hterminal := hactions.2 hmem
  obtain ⟨he, he'⟩ := List.of_mem_zip hmem
  refine ⟨hterminal, ih e.target ⟨a, hnode, e, he, rfl⟩ e'.target ?_⟩
  ext w
  rw [mem_allowed_target hs hnode he, mem_allowed_target hs hnode' he', hterminal, h]

end Graph

/-! ## What live nodes allow -/

/-- The live nodes, counted. -/
theorem MergedGraph.encard_live (m : MergedGraph) :
    {n | m.isLive n = true}.encard = m.liveCount := by
  have hset : {n | m.isLive n = true} = ((m.live.map (·.1)).toFinset : Set NodeId) := by
    ext n
    simp [isLive, Option.isSome_iff_exists, mem_live_iff]
  have hnodup : (m.live.map (·.1)).Nodup := (pairwise_live m).imp Nat.ne_of_lt
  have hlength : m.live.length = m.liveCount := by
    have hfirst : m.nodes.zipIdx.countP (fun x => x.1.isSome) =
        (m.nodes.zipIdx.map Prod.fst).countP (·.isSome) := by
      rw [List.countP_map]
      rfl
    unfold live liveCount
    rw [List.length_filterMap_eq_countP]
    simp only [Option.isSome_map]
    rw [hfirst, List.zipIdx_map_fst]
  rw [hset, Set.encard_coe_eq_coe_finsetCard, List.toFinset_card_of_nodup hnodup, List.length_map,
    hlength]

namespace Graph

open MergedGraph

variable {g : Graph} {n i j : NodeId}

/-- What stands for a node allows what the node allows. -/
theorem allowed_standsFor (g : Graph) (n : NodeId) :
    g.minimize.1.allowed (g.minimize.1.standsFor n) = g.allowed n := by
  ext w
  show (g.minimize.1.walk? (g.minimize.1.standsFor n) w).isSome = true ↔
    (g.walk? n w).isSome = true
  rw [minimize_walk?, Option.isSome_map]

theorem lt_size_of_isLive (h : g.minimize.1.isLive n = true) : n < g.size := by
  obtain ⟨node, hnode⟩ := Option.isSome_iff_exists.1 h
  rw [← g.minimize_mirrors.slots]
  exact (List.getElem?_eq_some_iff.1 (getElem?_of_node? hnode)).1

/-- Live nodes that allow the same are the same, when the graph has no cycle. -/
theorem eq_of_allowed_eq (hg : g.Closed) (hs : g.Ascending) (ha : g.Acyclic)
    (hi : g.minimize.1.isLive i = true) (hj : g.minimize.1.isLive j = true)
    (h : g.minimize.1.allowed i = g.minimize.1.allowed j) : i = j := by
  have hi' := g.minimize_upright i hi
  have hj' := g.minimize_upright j hj
  rw [← hi', ← hj'] at h
  rw [allowed_standsFor, allowed_standsFor] at h
  have halike := alike_of_allowed_eq hg hs ha (lt_size_of_isLive hi) h
  rw [← g.represents_minimize.standsFor_eq_iff g.settled_minimize, hi', hj'] at halike
  exact halike

/-- In a graph without cycles, whose nodes have their edges in order, merging leaves as few nodes as
    there can be: two live nodes never allow the same sequences of actions, and there are as many
    live nodes as there are sets of sequences that nodes of the graph allow. -/
theorem minimize_minimal (hg : g.Closed) (hs : g.Ascending) (ha : g.Acyclic) :
    (∀ i j, g.minimize.1.isLive i = true → g.minimize.1.isLive j = true → i ≠ j →
      g.minimize.1.allowed i ≠ g.minimize.1.allowed j) ∧
    (g.allowed '' {n | n < g.size}).encard = g.minimize.1.liveCount ∧
    g.minimize.2.live = g.minimize.1.liveCount := by
  refine ⟨?_, ?_, rfl⟩
  · intro i j hi hj hne heq
    exact hne (eq_of_allowed_eq hg hs ha hi hj heq)
  · have himage : g.allowed '' {n | n < g.size} =
        g.minimize.1.allowed '' {n | g.minimize.1.isLive n = true} := by
      ext b
      constructor
      · intro hb
        obtain ⟨n, hn, rfl⟩ := hb
        exact ⟨_, g.minimize_mirrors.isLive_standsFor hn, allowed_standsFor g n⟩
      · intro hb
        obtain ⟨n, hn, rfl⟩ := hb
        refine ⟨n, lt_size_of_isLive hn, ?_⟩
        rw [← allowed_standsFor, g.minimize_upright n hn]
    have hinj : Set.InjOn g.minimize.1.allowed {n | g.minimize.1.isLive n = true} := by
      intro i hi j hj heq
      exact eq_of_allowed_eq hg hs ha hi hj heq
    rw [himage, hinj.encard_image, encard_live]

/-- Of the six nodes of `forked` three allow different sequences. -/
theorem exists_minimize_minimal_forked :
    forked.Closed ∧ forked.Ascending ∧ forked.Acyclic ∧
      (forked.allowed '' {n | n < 6}).encard = 3 ∧
      forked.minimize.1.allowed 0 ≠ forked.minimize.1.allowed 1 := by
  have hg : forked.Closed := by decide
  have hs : forked.Ascending := by decide
  have ha : forked.Acyclic := acyclic_of_lt (by decide)
  obtain ⟨hne, hcount, -⟩ := minimize_minimal hg hs ha
  refine ⟨hg, hs, ha, ?_, hne 0 1 (by decide) (by decide) (by decide)⟩
  have hlive : forked.minimize.1.liveCount = 3 := by decide
  rw [hlive] at hcount
  exact hcount

end Graph

end FluentGrammar
