import FluentGrammar.Proofs.Graph.Walk
import FluentGrammar.Proofs.Reach
import FluentGrammar.States.Basic

/-
  States of walks. Every node that a walk from the first node goes on from has a state, whether
  states that cannot be reached are left out or not, and the step is an operation of the state
  (`exists_state`). The operation leads to the end when nothing can follow.
-/

namespace FluentGrammar.MergedGraph

variable {g : MergedGraph} {catalog : Catalog} {o : StateOptions} {n m : NodeId} {t : TerminalId}
  {node : Node} {w : List TerminalId}

/-- The operation of an action at a node. -/
def operationOf? (g : MergedGraph) (catalog : Catalog) (o : StateOptions) (n : NodeId)
    (t : TerminalId) : Option Operation :=
  (g.node? n).bind fun node =>
    (node.edges.find? (·.terminal == t)).bind (g.operation? catalog o)

/-! ## Nodes that walks reach -/

theorem mem_live_iff : (n, node) ∈ g.live ↔ g.node? n = some node := by
  constructor
  · intro h
    obtain ⟨⟨slot, id⟩, hmem, hslot⟩ := List.mem_filterMap.1 h
    obtain ⟨node', rfl, heq⟩ := Option.map_eq_some_iff.1 hslot
    obtain ⟨rfl, rfl⟩ := Prod.mk.inj heq
    rw [node?, List.mk_mem_zipIdx_iff_getElem?.1 hmem]
    rfl
  · intro h
    have hslot : g.nodes[n]? = some (some node) := Option.join_eq_some_iff.1 h
    have hmem := List.mk_mem_zipIdx_iff_getElem?.2 hslot
    exact List.mem_filterMap.2 ⟨(some node, n), hmem, rfl⟩

/-- Live nodes come in ascending order. -/
theorem pairwise_live (g : MergedGraph) : (g.live.map (·.1)).Pairwise (· < ·) := by
  have hslots (slots : List (Option Node × Nat)) :
      ((slots.filterMap fun x => x.1.map (x.2, ·)).map (·.1)).Sublist (slots.map Prod.snd) := by
    induction slots with
    | nil => exact .slnil
    | cons x rest ih =>
      obtain ⟨slot, id⟩ := x
      cases slot with
      | none => exact .cons id ih
      | some node => exact .cons_cons id ih
  have hsub := hslots g.nodes.zipIdx
  rw [List.zipIdx_map_snd] at hsub
  exact List.Pairwise.sublist hsub List.pairwise_lt_range'

theorem mem_reachable_iff (h : g.isLive 0 = true) :
    n ∈ g.reachable ↔ Relation.ReflTransGen (fun a b => b ∈ g.targets a) 0 n := by
  rw [reachable, if_pos h]
  -- Edges lead out of live nodes only.
  refine mem_reachableFrom_iff (g.live.map (·.1)) (fun a ha => ?_) ?_
  · rw [targets] at ha
    cases hnode : g.node? a with
    | none =>
      rw [hnode] at ha
      exact absurd rfl ha
    | some node => exact List.mem_map.2 ⟨(a, node), mem_live_iff.2 hnode, rfl⟩
  · rw [edgeCount, List.flatMap_map, List.length_flatMap, List.length_flatMap]
    refine Nat.le_of_eq (congrArg List.sum (List.map_congr_left ?_))
    rintro ⟨a, node⟩ ha
    rw [targets, mem_live_iff.1 ha]
    exact List.length_map _

theorem steps_of_walk? (h : g.walk? n w = some m) :
    Relation.ReflTransGen (fun a b => b ∈ g.targets a) n m := by
  induction w generalizing n with
  | nil =>
    obtain ⟨-, -, rfl⟩ := Option.map_eq_some_iff.1 h
    exact .refl
  | cons t w ih =>
    rw [walk?, walkThrough] at h
    obtain ⟨node, hnode, h⟩ := Option.bind_eq_some_iff.1 h
    obtain ⟨target, htarget, h⟩ := Option.bind_eq_some_iff.1 h
    obtain ⟨e, he, rfl⟩ := Option.map_eq_some_iff.1 htarget
    refine .head ?_ (ih h)
    rw [targets, hnode]
    exact List.mem_map_of_mem (List.mem_of_find?_eq_some he)

/-- What a walk leads to is live and can be reached. -/
theorem mem_reachable_of_walk? (h : g.walk? 0 w = some n) : n ∈ g.reachable := by
  have hlive : g.isLive 0 = true := by
    rw [isLive]
    cases hnode : g.node? 0 with
    | some node => rfl
    | none =>
      cases w <;> simp [walk?, walkThrough, hnode] at h
  exact (mem_reachable_iff hlive).2 (steps_of_walk? h)

/-! ## States -/

/-- What a step of a walk goes along. -/
theorem exists_edge (hwalk : g.walk? n [t] = some m) :
    ∃ node e, g.node? n = some node ∧ node.edges.find? (·.terminal == t) = some e ∧
      e.target = m := by
  rw [walk?, walkThrough] at hwalk
  obtain ⟨node, hnode, hwalk⟩ := Option.bind_eq_some_iff.1 hwalk
  obtain ⟨target, htarget, hwalk⟩ := Option.bind_eq_some_iff.1 hwalk
  obtain ⟨-, -, rfl⟩ := Option.map_eq_some_iff.1 hwalk
  obtain ⟨e, he, rfl⟩ := Option.map_eq_some_iff.1 htarget
  exact ⟨node, e, hnode, he, rfl⟩

/-- A walk goes on from a state by one of its operations. -/
theorem exists_state (ht : t < catalog.size) (hwalk : g.walk? 0 w = some n)
    (hstep : g.walk? n [t] = some m) :
    ∃ s ∈ g.states catalog o, s.node = n ∧ ∃ op ∈ s.operations,
      g.operationOf? catalog o n t = some op ∧ op.target = g.operationTarget o m := by
  obtain ⟨node, e, hnode, he, rfl⟩ := exists_edge hstep
  have hedge := List.mem_of_find?_eq_some he
  have hterminal : e.terminal = t := by
    have hmatch := List.find?_some he
    exact beq_iff_eq.1 hmatch
  obtain ⟨a, ha⟩ : ∃ a, catalog.get? e.terminal = some a := by
    rw [hterminal]
    exact ⟨_, List.getElem?_eq_getElem ht⟩
  have hop : ∃ op, g.operation? catalog o e = some op ∧
      op.target = g.operationTarget o e.target := by
    rw [operation?, ha]
    exact ⟨_, rfl, rfl⟩
  obtain ⟨op, hop, htarget⟩ := hop
  have hkept : (!node.isEnd && (!o.prune || g.reachable.contains n)) = true := by
    have hend : node.isEnd = false := by
      rw [Node.isEnd, List.isEmpty_eq_false_iff]
      exact List.ne_nil_of_mem hedge
    rw [hend, List.contains_iff_mem.2 (mem_reachable_of_walk? hwalk), Bool.or_true]
    rfl
  refine ⟨_, List.mem_map_of_mem (List.mem_filter.2 ⟨mem_live_iff.2 hnode, hkept⟩), rfl, op, ?_, ?_,
    htarget⟩
  · exact List.mem_filterMap.2 ⟨e, hedge, hop⟩
  · rw [operationOf?, hnode, Option.bind_some, he, Option.bind_some, hop]

/-- Nothing can follow where an operation leads to the end. -/
theorem walk?_eq_none_of_done (hdone : g.operationTarget o m = .done) (t : TerminalId) :
    g.walk? m [t] = none := by
  rw [walk?, walkThrough]
  rw [operationTarget] at hdone
  cases hnode : g.node? m with
  | none => rfl
  | some node =>
    rw [hnode] at hdone
    dsimp only at hdone
    split at hdone
    · next hend =>
      rw [Option.bind_some, Node.target?, List.isEmpty_iff.1 hend]
      rfl
    · cases hdone

end FluentGrammar.MergedGraph
