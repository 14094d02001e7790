import FluentGrammar.Graph.Minimize
import FluentGrammar.Proofs.Support
import Mathlib.Logic.Relation

/-
  Walks through transition graphs, and what merging does to them. Every node has a live node that
  stands for it, with the same edges led to the live nodes that stand for their targets
  (`Mirrors`). One merge keeps that (`Mirrors.merge`), and the merged graph is made by merges
  (`minimize_merges`), so it can be walked along the same actions as the graph that it was made
  from (`minimize_walk?`).
-/

namespace FluentGrammar

/-- Where actions lead, one after the other, from a node on: nowhere when one of them is not
    possible or the node does not exist. -/
def walkThrough (node? : NodeId → Option Node) : NodeId → List TerminalId → Option NodeId
  | n, [] => (node? n).map fun _ => n
  | n, t :: w => (node? n).bind fun node =>
      (node.target? t).bind fun target => walkThrough node? target w

/-- Where actions lead through a graph. -/
def Graph.walk? (g : Graph) : NodeId → List TerminalId → Option NodeId := walkThrough g.node?

/-- Where actions lead through the live nodes of a graph. -/
def MergedGraph.walk? (g : MergedGraph) : NodeId → List TerminalId → Option NodeId :=
  walkThrough g.node?

/-- The edges of every node stand in the order of their actions, one for an action. -/
def Graph.Ascending (g : Graph) : Prop :=
  ∀ node ∈ g.nodes, node.edges.Pairwise fun e e' => e.terminal < e'.terminal

instance (g : Graph) : Decidable g.Ascending :=
  inferInstanceAs (Decidable (∀ node ∈ g.nodes, _))

/-- The node with its edges led elsewhere. -/
def Node.lead (f : NodeId → NodeId) (n : Node) : Node :=
  ⟨n.edges.map fun e => { e with target := f e.target }⟩

namespace Node

variable {n : Node} {t : TerminalId} {m : NodeId}

theorem lead_id (n : Node) : n.lead id = n := by
  simp [lead]

theorem lead_lead (f h : NodeId → NodeId) (n : Node) : (n.lead f).lead h = n.lead (h ∘ f) := by
  simp [lead]

theorem target?_lead (f : NodeId → NodeId) (n : Node) (t : TerminalId) :
    (n.lead f).target? t = (n.target? t).map f := by
  simp only [target?, lead, List.find?_map, Option.map_map]
  rfl

/-- The edges of a node in order are what it has for the actions. -/
theorem target?_eq_some_iff (hs : n.edges.Pairwise fun e e' => e.terminal < e'.terminal) :
    n.target? t = some m ↔ ⟨t, m⟩ ∈ n.edges := by
  unfold target?
  constructor
  · intro h
    obtain ⟨e, he, rfl⟩ := Option.map_eq_some_iff.1 h
    have hterminal := List.find?_some he
    rw [beq_iff_eq] at hterminal
    rw [← hterminal]
    exact List.mem_of_find?_eq_some he
  · intro h
    rw [Option.map_eq_some_iff]
    refine ⟨⟨t, m⟩, ?_, rfl⟩
    obtain ⟨front, back, hedges⟩ := List.append_of_mem h
    rw [hedges] at hs ⊢
    -- The edges in front have lower actions.
    rw [List.find?_eq_some_iff_append]
    refine ⟨by simp, front, back, rfl, ?_⟩
    intro e he
    have hlt := (List.pairwise_append.1 hs).2.2 e he _ List.mem_cons_self
    simpa using Nat.ne_of_lt hlt

end Node

/-- A walk goes on where it was. -/
theorem walkThrough_append (node? : NodeId → Option Node) (n : NodeId) (u v : List TerminalId) :
    walkThrough node? n (u ++ v) =
      (walkThrough node? n u).bind fun m => walkThrough node? m v := by
  induction u generalizing n with
  | nil =>
    rw [List.nil_append, walkThrough]
    cases h : node? n with
    | some node => rfl
    | none => cases v <;> simp [walkThrough, h]
  | cons t u ih =>
    rw [List.cons_append, walkThrough, walkThrough]
    cases node? n with
    | none => rfl
    | some node =>
      rw [Option.bind_some, Option.bind_some]
      cases node.target? t with
      | none => rfl
      | some m => exact ih m

/-- Walks go on in step when the nodes of one graph have the edges of the nodes that they stand
    for. -/
theorem walkThrough_lead {node? node?' : NodeId → Option Node} {f : NodeId → NodeId}
    (h : ∀ n, node?' (f n) = (node? n).map (Node.lead f)) (w : List TerminalId) (n : NodeId) :
    walkThrough node?' (f n) w = (walkThrough node? n w).map f := by
  induction w generalizing n with
  | nil =>
    rw [walkThrough, walkThrough, h, Option.map_map, Option.map_map]
    rfl
  | cons t w ih =>
    rw [walkThrough, walkThrough, h]
    cases node? n with
    | none => rfl
    | some node =>
      rw [Option.map_some, Option.bind_some, Option.bind_some, Node.target?_lead]
      cases node.target? t with
      | none => rfl
      | some target => exact ih target

namespace MergedGraph

variable {g : Graph} {m m' : MergedGraph} {n i j keep gone : Nat} {node : Node}

/-- The live node that stands for a node. -/
def standsFor (m : MergedGraph) (n : NodeId) : NodeId := m.remap.getD n n

/-- The live nodes that stand for the nodes of a graph have their edges, and the node where a
    builder begins stands for itself. -/
structure Mirrors (g : Graph) (m : MergedGraph) : Prop where
  slots : m.nodes.length = g.size
  remap : m.remap.length = g.size
  first : m.standsFor 0 = 0
  node : ∀ n, m.node? (m.standsFor n) = (g.node? n).map (Node.lead m.standsFor)

theorem standsFor_ofGraph (g : Graph) : (ofGraph g).standsFor = id := by
  funext n
  rw [standsFor, ofGraph, List.getD_eq_getElem?_getD]
  by_cases hn : n < g.size
  · rw [List.getElem?_range hn]
    rfl
  · rw [List.getElem?_eq_none (by simpa using hn)]
    rfl

theorem mirrors_ofGraph (g : Graph) : Mirrors g (ofGraph g) := by
  have hid := standsFor_ofGraph g
  refine ⟨by simp [ofGraph, Graph.size], by simp [ofGraph], by rw [hid]; rfl, fun n => ?_⟩
  rw [hid, show Node.lead id = id from funext Node.lead_id, Option.map_id]
  rw [id, id, node?, ofGraph, List.getElem?_map, Graph.node?]
  cases g.nodes[n]? with
  | none => rfl
  | some node => rfl

/-! ## One merge -/

/-- No two live nodes have equal edges. -/
def Settled (m : MergedGraph) : Prop :=
  ∀ i j node, m.node? i = some node → m.node? j = some node → i = j

/-- Two live nodes with equal edges are merged, the higher into the lower. -/
inductive Merges (m : MergedGraph) : MergedGraph → Prop
  | intro (i j : NodeId) (node : Node) : i < j → m.node? i = some node → m.node? j = some node →
      Merges m (m.merge i j)

theorem getElem?_of_node? (h : m.node? n = some node) : m.nodes[n]? = some (some node) :=
  Option.join_eq_some_iff.1 h

theorem lt_of_node? (h : m.node? n = some node) : n < m.nodes.length :=
  (List.getElem?_eq_some_iff.1 (getElem?_of_node? h)).1

/-- What the pair is that is merged next. -/
theorem equalPair?_eq_some {index : Nat} {nodes : List (Option Node)}
    (h : equalPair? index nodes = some (keep, gone)) :
    ∃ i j, keep = index + i ∧ gone = index + j ∧ i < j ∧
      ∃ node, nodes[i]? = some (some node) ∧ nodes[j]? = some (some node) := by
  induction nodes generalizing index with
  | nil => cases h
  | cons slot rest ih =>
    -- A pair further on is one place further on.
    have later (h : equalPair? (index + 1) rest = some (keep, gone)) :
        ∃ i j, keep = index + i ∧ gone = index + j ∧ i < j ∧
          ∃ node, (slot :: rest)[i]? = some (some node) ∧
            (slot :: rest)[j]? = some (some node) := by
      obtain ⟨i, j, rfl, rfl, hij, node, hi, hj⟩ := ih h
      exact ⟨i + 1, j + 1, by omega, by omega, by omega, node, hi, hj⟩
    cases slot with
    | none => exact later h
    | some node =>
      rw [equalPair?] at h
      split at h
      · next distance hd =>
        obtain ⟨rfl, rfl⟩ := Prod.mk.inj (Option.some.inj h)
        obtain ⟨hlt, heq, -⟩ := List.findIdx?_eq_some_iff_getElem.1 hd
        refine ⟨0, distance + 1, rfl, by omega, by omega, node, rfl, ?_⟩
        rw [List.getElem?_cons_succ, List.getElem?_eq_getElem hlt, beq_iff_eq.1 heq]
      · exact later h

theorem equalPair?_eq_none {index : Nat} {nodes : List (Option Node)}
    (h : equalPair? index nodes = none) (hi : nodes[i]? = some (some node))
    (hj : nodes[j]? = some (some node)) : i = j := by
  induction nodes generalizing index i j with
  | nil => simp at hi
  | cons slot rest ih =>
    -- An equal node behind the first one would have been found.
    have front {k : Nat} (hslot : slot = some node) (hk : rest[k]? = some (some node)) : False := by
      subst hslot
      rw [equalPair?] at h
      split at h
      · simp at h
      · next hnone =>
        rw [List.findIdx?_eq_none_iff] at hnone
        have := hnone _ (List.mem_of_getElem? hk)
        simp at this
    have hrest : equalPair? (index + 1) rest = none := by
      cases slot with
      | none => exact h
      | some first =>
        rw [equalPair?] at h
        split at h
        · simp at h
        · exact h
    cases i with
    | zero =>
      cases j with
      | zero => rfl
      | succ j => exact (front (Option.some.inj hi) hj).elim
    | succ i =>
      cases j with
      | zero => exact (front (Option.some.inj hj) hi).elim
      | succ j => rw [ih hrest hi hj]

/-- Without an equal pair there is nothing to merge. -/
theorem settled_of_equalPair? (h : equalPair? 0 m.nodes = none) : m.Settled := by
  intro i j node hi hj
  exact equalPair?_eq_none h (getElem?_of_node? hi) (getElem?_of_node? hj)

/-- The slots after a merge. -/
theorem node?_merge (hgone : gone < m.nodes.length) (n : NodeId) :
    (m.merge keep gone).node? n =
      if n = gone then none else (m.node? n).map (Node.lead (replace keep gone)) := by
  have hslot : (m.merge keep gone).nodes[n]? =
      (if gone = n then some none else m.nodes[n]?).map
        (Option.map (Node.lead (replace keep gone))) := by
    rw [merge, List.getElem?_map, List.getElem?_set, if_pos hgone]
    rfl
  rw [node?, hslot, node?]
  by_cases hn : n = gone
  · rw [if_pos hn, if_pos hn.symm]
    rfl
  · rw [if_neg hn, if_neg fun h => hn h.symm]
    cases m.nodes[n]? with
    | none => rfl
    | some slot => rfl

/-- After a merge `keep` stands for what `gone` stood for. -/
theorem standsFor_merge (hgone : gone < m.remap.length) :
    (m.merge keep gone).standsFor = replace keep gone ∘ m.standsFor := by
  funext n
  rw [Function.comp, standsFor, standsFor, merge, List.getD_eq_getElem?_getD,
    List.getD_eq_getElem?_getD, List.getElem?_map]
  by_cases hn : n < m.remap.length
  · rw [List.getElem?_eq_getElem hn]
    rfl
  · rw [List.getElem?_eq_none (Nat.le_of_not_lt hn)]
    have hne : ¬n = gone := by
      rintro rfl
      exact hn hgone
    exact (if_neg hne).symm

/-- Live nodes are among the nodes of the graph. -/
theorem Mirrors.lt_remap (h : Mirrors g m) (hn : m.node? n = some node) : n < m.remap.length := by
  rw [h.remap, ← h.slots]
  exact lt_of_node? hn

theorem Mirrors.merge (h : Mirrors g m) (hmerges : Merges m m') : Mirrors g m' := by
  obtain ⟨keep, gone, node, hlt, hkeep, hgone⟩ := hmerges
  have hstands : (m.merge keep gone).standsFor = replace keep gone ∘ m.standsFor :=
    standsFor_merge (h.lt_remap hgone)
  refine ⟨by simp [MergedGraph.merge, h.slots], by simp [MergedGraph.merge, h.remap], ?_,
    fun n => ?_⟩
  · have hpos : 0 < gone := Nat.zero_lt_of_lt hlt
    rw [hstands, Function.comp, h.first, replace, if_neg (Nat.ne_of_lt hpos)]
  · -- The edges of the merged nodes are the same, so `keep` has those of `gone`.
    have hlead : (g.node? n).map (Node.lead (replace keep gone ∘ m.standsFor)) =
        (m.node? (m.standsFor n)).map (Node.lead (replace keep gone)) := by
      rw [h.node, Option.map_map]
      congr 1
      funext node
      exact (Node.lead_lead _ _ node).symm
    rw [hstands, hlead, Function.comp, node?_merge (lt_of_node? hgone), replace]
    by_cases hn : m.standsFor n = gone
    · rw [if_pos hn, if_neg (Nat.ne_of_lt hlt), hn, hkeep, hgone]
    · rw [if_neg hn, if_neg hn]

/-! ## All merges -/

/-- There is one more merge to make, or no equal nodes are left. -/
theorem mergeAll_succ (fuel : Nat) (m : MergedGraph) (merged : Nat) :
    (∃ m', Merges m m' ∧ mergeAll (fuel + 1) m merged = mergeAll fuel m' (merged + 1)) ∨
      m.Settled ∧ mergeAll (fuel + 1) m merged = (m, merged) := by
  cases hpair : equalPair? 0 m.nodes with
  | none =>
    refine .inr ⟨settled_of_equalPair? hpair, ?_⟩
    rw [mergeAll, hpair]
  | some pair =>
    obtain ⟨keep, gone⟩ := pair
    obtain ⟨i, j, rfl, rfl, hij, node, hi, hj⟩ := equalPair?_eq_some hpair
    rw [Nat.zero_add, Nat.zero_add] at hpair
    refine .inl ⟨m.merge i j, .intro i j node hij ?_ ?_, ?_⟩
    · rw [node?, hi, Option.join_some]
    · rw [node?, hj, Option.join_some]
    · rw [mergeAll, hpair]

theorem mergeAll_merges (fuel : Nat) (m : MergedGraph) (merged : Nat) :
    Relation.ReflTransGen Merges m (mergeAll fuel m merged).1 := by
  induction fuel generalizing m merged with
  | zero => exact .refl
  | succ fuel ih =>
    obtain ⟨m', hmerges, heq⟩ | ⟨-, heq⟩ := mergeAll_succ fuel m merged
    · rw [heq]
      exact .head hmerges (ih m' (merged + 1))
    · rw [heq]

theorem Mirrors.of_merges (h : Mirrors g m) (hrun : Relation.ReflTransGen Merges m m') :
    Mirrors g m' := by
  induction hrun with
  | refl => exact h
  | tail _ hlast ih => exact ih.merge hlast

end MergedGraph

theorem Graph.minimize_merges (g : Graph) :
    Relation.ReflTransGen MergedGraph.Merges (.ofGraph g) g.minimize.1 :=
  MergedGraph.mergeAll_merges g.size (.ofGraph g) 0

theorem Graph.minimize_mirrors (g : Graph) : MergedGraph.Mirrors g g.minimize.1 :=
  (MergedGraph.mirrors_ofGraph g).of_merges g.minimize_merges

/-- The merged graph goes along with the graph. -/
theorem Graph.minimize_walk? (g : Graph) (n : NodeId) (w : List TerminalId) :
    g.minimize.1.walk? (g.minimize.1.standsFor n) w =
      (g.walk? n w).map g.minimize.1.standsFor :=
  walkThrough_lead g.minimize_mirrors.node w n

end FluentGrammar
