import FluentGrammar.Proofs.Graph.Minimize
import FluentGrammar.Proofs.Graph.States
import FluentGrammar.States.Chain
import Mathlib

/-
  The states of a graph as a whole. When edges of live nodes lead to live nodes, the states name
  nothing that is not there: an operation leads to the end exactly when its node has no edges, and
  to a state among them otherwise (`leadsTo_operationTarget`), also when states that cannot be
  reached are left out, since an edge of a node that can be reached leads to one. Leaving them out
  is a filter (`states_prune`), and no chain of calls from the entry ever meets one of them
  (`chain_prune`). `Graph.minimize_states` puts this together for merged graphs.
-/

namespace FluentGrammar

/-- Nodes have names of their own. -/
theorem StateOptions.stateName_injective (o : StateOptions) : Function.Injective o.stateName := by
  have hentry (n : NodeId) (h : o.baseName = o.baseName ++ toString n) : False := by
    have hempty : o.baseName ++ "" = o.baseName ++ n.repr := by
      rw [String.append_empty]
      exact h
    exact Nat.repr_ne_empty ((String.append_right_inj _).1 hempty).symm
  intro a b h
  unfold stateName at h
  by_cases ha : a = 0 <;> by_cases hb : b = 0
  · rw [ha, hb]
  · simp only [ha, hb, beq_self_eq_true, beq_iff_eq, if_true, if_false] at h
    exact (hentry b h).elim
  · simp only [ha, hb, beq_self_eq_true, beq_iff_eq, if_true, if_false] at h
    exact (hentry a h.symm).elim
  · simp only [ha, hb, beq_iff_eq, if_false] at h
    have hrepr : a.repr = b.repr := (String.append_right_inj _).1 h
    have hdigits : Nat.toDigits 10 a = Nat.toDigits 10 b := by
      rw [← Nat.toList_repr, ← Nat.toList_repr, hrepr]
    have hvalue := congrArg (Nat.ofDigitChars 10 · 0) hdigits
    simpa using hvalue

namespace MergedGraph

variable {g : MergedGraph} {catalog : Catalog} {o : StateOptions} {n m : NodeId} {node : Node}
  {s : StateType} {e : Edge}

/-- Where an operation leads that moves a builder to a node: to the end when the node has no edges,
    and to the state of the node, which is one of the states, when it has some. -/
inductive LeadsTo (g : MergedGraph) (states : List StateType) (n : NodeId) :
    OperationTarget → Prop
  | done {node : Node} (hnode : g.node? n = some node) (hedges : node.edges = []) :
      LeadsTo g states n .done
  | state {node : Node} {s : StateType} (hnode : g.node? n = some node) (hedges : node.edges ≠ [])
      (hmem : s ∈ states) (hn : s.node = n) : LeadsTo g states n (.state s.name n)

/-- The operation is the action of an edge, and leads where the edge leads. -/
structure Performs (g : MergedGraph) (catalog : Catalog) (o : StateOptions)
    (states : List StateType) (e : Edge) (op : Operation) : Prop where
  action : ∃ a, catalog.get? e.terminal = some a ∧ op.name = a.displayName ∧
    op.method = a.method ∧ op.doc = a.doc ∧ op.kind = operationKind o a
  target : LeadsTo g states e.target op.target

/-! ## Which nodes have states -/

theorem mem_states_iff : s ∈ g.states catalog o ↔
    ∃ n node, g.node? n = some node ∧ node.edges ≠ [] ∧ (o.prune = true → n ∈ g.reachable) ∧
      s = ⟨o.stateName n, n, node.edges.filterMap (g.operation? catalog o)⟩ := by
  have hkept (n : NodeId) (node : Node) :
      (!node.isEnd && (!o.prune || g.reachable.contains n)) = true ↔
        node.edges ≠ [] ∧ (o.prune = true → n ∈ g.reachable) := by
    rw [Node.isEnd, Bool.and_eq_true, Bool.not_eq_true', List.isEmpty_eq_false_iff,
      Bool.or_eq_true, List.contains_iff_mem]
    cases o.prune <;> simp
  constructor
  · intro h
    obtain ⟨⟨n, node⟩, hmem, rfl⟩ := List.mem_map.1 h
    obtain ⟨hlive, hk⟩ := List.mem_filter.1 hmem
    obtain ⟨hedges, hprune⟩ := (hkept n node).1 hk
    exact ⟨n, node, mem_live_iff.1 hlive, hedges, hprune, rfl⟩
  · rintro ⟨n, node, hnode, hedges, hprune, rfl⟩
    have hk := (hkept n node).2 ⟨hedges, hprune⟩
    exact List.mem_map.2 ⟨(n, node), List.mem_filter.2 ⟨mem_live_iff.2 hnode, hk⟩, rfl⟩

theorem pairwise_states (g : MergedGraph) (catalog : Catalog) (o : StateOptions) :
    ((g.states catalog o).map (·.node)).Pairwise (· < ·) := by
  have hnodes : (g.states catalog o).map (·.node) =
      (g.live.filter fun x => !x.2.isEnd && (!o.prune || g.reachable.contains x.1)).map (·.1) := by
    rw [states, List.map_map]
    rfl
  rw [hnodes]
  exact (pairwise_live g).sublist (List.filter_sublist.map _)

theorem name_of_mem_states (h : s ∈ g.states catalog o) : s.name = o.stateName s.node := by
  obtain ⟨n, node, -, -, -, rfl⟩ := mem_states_iff.1 h
  rfl

theorem mem_reachable_of_mem_states (h : s ∈ g.states catalog o) (hprune : o.prune = true) :
    s.node ∈ g.reachable := by
  obtain ⟨n, node, -, -, hkept, rfl⟩ := mem_states_iff.1 h
  exact hkept hprune

/-! ## Where operations lead -/

/-- What an edge of a node that is kept leads to is kept. -/
theorem leadsTo_operationTarget (hg : g.Closed) (hnode : g.node? n = some node)
    (hkept : o.prune = true → n ∈ g.reachable) (he : e ∈ node.edges) :
    g.LeadsTo (g.states catalog o) e.target (g.operationTarget o e.target) := by
  obtain ⟨target, htarget⟩ := Option.isSome_iff_exists.1 (hg n node hnode e he)
  unfold operationTarget
  rw [htarget]
  dsimp only
  by_cases hedges : target.edges = []
  · rw [Node.isEnd, hedges]
    exact .done htarget hedges
  · have hend : target.isEnd = false := List.isEmpty_eq_false_iff.2 hedges
    rw [hend]
    refine .state htarget hedges (mem_states_iff.2 ⟨_, target, htarget, hedges, ?_, rfl⟩) rfl
    intro hprune
    have hn := hkept hprune
    have hzero : g.isLive 0 = true := by
      by_contra hdead
      rw [reachable, if_neg hdead] at hn
      cases hn
    have hstep : e.target ∈ g.targets n := by
      rw [targets, hnode]
      exact List.mem_map_of_mem he
    exact (mem_reachable_iff hzero).2 (((mem_reachable_iff hzero).1 hn).tail hstep)

/-- Operations are the actions of the edges that have one, in order. -/
theorem performs_operations (hg : g.Closed) (hnode : g.node? n = some node)
    (hkept : o.prune = true → n ∈ g.reachable) :
    List.Forall₂ (g.Performs catalog o (g.states catalog o))
      (node.edges.filter fun e => (catalog.get? e.terminal).isSome)
      (node.edges.filterMap (g.operation? catalog o)) := by
  have hall (edges : List Edge) (hedges : ∀ e ∈ edges, e ∈ node.edges) :
      List.Forall₂ (g.Performs catalog o (g.states catalog o))
        (edges.filter fun e => (catalog.get? e.terminal).isSome)
        (edges.filterMap (g.operation? catalog o)) := by
    induction edges with
    | nil => exact .nil
    | cons e rest ih =>
      obtain ⟨he, hrest⟩ := List.forall_mem_cons.1 hedges
      cases ha : catalog.get? e.terminal with
      | none =>
        have hop : g.operation? catalog o e = none := by rw [operation?, ha]; rfl
        rw [List.filter_cons_of_neg (by simp [ha]), List.filterMap_cons_none hop]
        exact ih hrest
      | some a =>
        have hop : g.operation? catalog o e = some ⟨a.displayName, a.method, a.doc,
            operationKind o a, g.operationTarget o e.target⟩ := by
          rw [operation?, ha]
          rfl
        rw [List.filter_cons_of_pos (by simp [ha]), List.filterMap_cons_some hop]
        refine .cons ⟨⟨a, ha, rfl, rfl, rfl, rfl⟩, ?_⟩ (ih hrest)
        exact leadsTo_operationTarget hg hnode hkept he
  exact hall node.edges fun e he => he

/-! ## States that cannot be reached -/

/-- Leaving states out changes none of the others. -/
theorem states_prune (g : MergedGraph) (catalog : Catalog) (o : StateOptions) :
    g.states catalog { o with prune := true } =
      (g.states catalog { o with prune := false }).filter
        fun s => g.reachable.contains s.node := by
  simp only [states]
  rw [List.filter_map, List.filter_filter]
  refine congrArg (List.map _) (List.filter_congr fun x _ => ?_)
  simp [Bool.and_comm]

/-- When all nodes with edges can be reached, no state is left out. -/
theorem states_of_reachable (catalog : Catalog) (o : StateOptions)
    (h : ∀ n node, g.node? n = some node → node.edges ≠ [] → n ∈ g.reachable) (prune : Bool) :
    g.states catalog { o with prune } = g.states catalog o := by
  have hall : ∀ prune, g.states catalog { o with prune } =
      g.states catalog { o with prune := false } := by
    intro prune
    cases prune with
    | false => rfl
    | true =>
      rw [states_prune]
      refine List.filter_eq_self.2 fun s hs => ?_
      obtain ⟨n, node, hnode, hedges, -, rfl⟩ := mem_states_iff.1 hs
      exact List.contains_iff_mem.2 (h n node hnode hedges)
  exact (hall prune).trans (hall o.prune).symm

/-- A state that is found is one of the states. -/
theorem mem_of_ofState? {states : List StateType} {p : StateType → Bool}
    (h : Stop.ofState? (states.find? p) = .state s) : s ∈ states := by
  cases hfind : states.find? p with
  | none =>
    rw [hfind] at h
    cases h
  | some met =>
    rw [hfind] at h
    obtain rfl := Stop.state.inj h
    exact List.mem_of_find?_eq_some hfind

/-- A search for states that are kept does not miss the others. -/
theorem find?_states_prune {p : StateType → Bool}
    (h : ∀ s ∈ g.states catalog { o with prune := false }, p s = true → s.node ∈ g.reachable) :
    (g.states catalog { o with prune := true }).find? p =
      (g.states catalog { o with prune := false }).find? p := by
  rw [states_prune, List.find?_filter]
  refine List.find?_congr fun s hs => ?_
  cases hp : p s with
  | false => simp
  | true => simpa using h s hs hp

/-- A call from a state that is kept meets the same, and what it meets is kept. -/
theorem call_prune (hg : g.Closed) (hs : s ∈ g.states catalog { o with prune := true })
    (name : String) :
    StateType.call (g.states catalog { o with prune := true }) (.state s) name =
        StateType.call (g.states catalog { o with prune := false }) (.state s) name ∧
      ∀ s', StateType.call (g.states catalog { o with prune := true }) (.state s) name =
        .state s' → s' ∈ g.states catalog { o with prune := true } := by
  unfold StateType.call
  rw [Stop.state?, Option.bind_some]
  cases hop : s.operation? name with
  | none => exact ⟨rfl, fun s' h => by cases h⟩
  | some op =>
    obtain ⟨n, node, hnode, -, hkept, rfl⟩ := mem_states_iff.1 hs
    have hmem := List.mem_of_find?_eq_some hop
    obtain ⟨e, -, hperforms⟩ := exists_of_mem_right (performs_operations hg hnode hkept) hmem
    dsimp only
    have hleads := hperforms.target
    generalize op.target = target at hleads
    cases hleads with
    | done _ _ => exact ⟨rfl, fun s' h => by cases h⟩
    | @state _ s' _ _ hs' hn =>
      -- A state of that name is the state of that node.
      have hname := name_of_mem_states hs'
      have hfind : (g.states catalog { o with prune := true }).find? (·.name == s'.name) =
          (g.states catalog { o with prune := false }).find? (·.name == s'.name) := by
        refine find?_states_prune fun s'' hs'' hsame => ?_
        have hnode : o.stateName s''.node = o.stateName s'.node :=
          ((name_of_mem_states hs'').symm.trans (beq_iff_eq.1 hsame)).trans hname
        rw [o.stateName_injective hnode]
        exact mem_reachable_of_mem_states hs' rfl
      exact ⟨congrArg Stop.ofState? hfind, fun s'' h => mem_of_ofState? h⟩

/-- A chain of calls from a state that is kept meets the same. -/
theorem chain_prune (hg : g.Closed) (names : List String) :
    ∀ stop, (∀ s, stop = .state s → s ∈ g.states catalog { o with prune := true }) →
      StateType.chain (g.states catalog { o with prune := true }) stop names =
        StateType.chain (g.states catalog { o with prune := false }) stop names := by
  induction names with
  | nil => exact fun _ _ => rfl
  | cons name rest ih =>
    intro stop hstop
    simp only [StateType.chain]
    cases stop with
    | state s =>
      obtain ⟨hcall, hmet⟩ := call_prune hg (hstop s rfl) name
      rw [← hcall, ih _ hmet]
    | missing => rfl
    | done => rfl
    | broken => rfl

/-- A builder begins in the same state. -/
theorem entryOf_prune (hg : g.isLive 0 = true) :
    StateType.entryOf (g.states catalog { o with prune := true }) =
      StateType.entryOf (g.states catalog { o with prune := false }) := by
  refine congrArg Stop.ofState? (find?_states_prune fun s _ hentry => ?_)
  rw [StateType.isEntry, beq_iff_eq] at hentry
  rw [hentry]
  exact (mem_reachable_iff hg).2 .refl

end MergedGraph

/-- The states of a graph in which equal nodes have been merged. There is one for every live node
    with edges that is kept, in node order and with a name of its own. Its operations are the
    actions of its edges that the catalog has, in order, and each of them leads where its edge
    leads: to the end when that node has no edges, and else to the state of the node, which is
    among the states. Leaving states out changes none that is kept, and chains of calls from the
    entry meet the same with and without it. -/
theorem Graph.minimize_states (g : Graph) (hg : g.Closed) (catalog : Catalog) (o : StateOptions) :
    (∀ n, (∃ s ∈ g.minimize.1.states catalog o, s.node = n) ↔
        ∃ node, g.minimize.1.node? n = some node ∧ node.edges ≠ [] ∧
          (o.prune = true →
            Relation.ReflTransGen (fun a b => b ∈ g.minimize.1.targets a) 0 n)) ∧
      (g.minimize.1.states catalog o).Pairwise (fun s s' => s.node < s'.node ∧ s.name ≠ s'.name) ∧
      (∀ s ∈ g.minimize.1.states catalog o, s.name = o.stateName s.node ∧
        ∃ node, g.minimize.1.node? s.node = some node ∧
          List.Forall₂
            (g.minimize.1.Performs catalog o (g.minimize.1.states catalog o))
            (node.edges.filter fun e => (catalog.get? e.terminal).isSome) s.operations) ∧
      (g.minimize.1.states catalog { o with prune := true }).Sublist
        (g.minimize.1.states catalog { o with prune := false }) ∧
      ∀ names,
        StateType.chain (g.minimize.1.states catalog { o with prune := true })
            (StateType.entryOf (g.minimize.1.states catalog { o with prune := true })) names =
          StateType.chain (g.minimize.1.states catalog { o with prune := false })
            (StateType.entryOf (g.minimize.1.states catalog { o with prune := false })) names := by
  have hclosed := minimize_closed hg
  -- A graph with a live node has node 0 among its live nodes.
  have hzero {n : NodeId} {node : Node} (hnode : g.minimize.1.node? n = some node) :
      g.minimize.1.isLive 0 = true := by
    refine isLive_minimize_zero fun hnil => ?_
    have hn := g.minimize_mirrors.node?_eq g.minimize_upright (MergedGraph.isLive_of_node? hnode)
    rw [hnode, node?, hnil] at hn
    cases hn
  refine ⟨fun n => ⟨?_, ?_⟩, ?_, fun s hs => ?_, ?_, fun names => ?_⟩
  · rintro ⟨s, hs, rfl⟩
    obtain ⟨n, node, hnode, hedges, hkept, rfl⟩ := MergedGraph.mem_states_iff.1 hs
    refine ⟨node, hnode, hedges, fun hprune => ?_⟩
    exact (MergedGraph.mem_reachable_iff (hzero hnode)).1 (hkept hprune)
  · rintro ⟨node, hnode, hedges, hkept⟩
    refine ⟨_, MergedGraph.mem_states_iff.2 ⟨n, node, hnode, hedges, fun hprune => ?_, rfl⟩, rfl⟩
    exact (MergedGraph.mem_reachable_iff (hzero hnode)).2 (hkept hprune)
  · have hnodes := List.pairwise_map.1 (MergedGraph.pairwise_states g.minimize.1 catalog o)
    refine hnodes.imp_of_mem fun {s s'} hs hs' hlt => ⟨hlt, fun hname => ?_⟩
    rw [MergedGraph.name_of_mem_states hs, MergedGraph.name_of_mem_states hs'] at hname
    exact Nat.ne_of_lt hlt (o.stateName_injective hname)
  · refine ⟨MergedGraph.name_of_mem_states hs, ?_⟩
    obtain ⟨n, node, hnode, hedges, hkept, rfl⟩ := MergedGraph.mem_states_iff.1 hs
    exact ⟨node, hnode, MergedGraph.performs_operations hclosed hnode hkept⟩
  · rw [MergedGraph.states_prune]
    exact List.filter_sublist
  · by_cases hlive : g.minimize.1.isLive 0 = true
    · rw [← MergedGraph.entryOf_prune hlive]
      exact MergedGraph.chain_prune hclosed names _ fun s hs => MergedGraph.mem_of_ofState? hs
    · -- Without node 0 there are no states.
      have hnone (o : StateOptions) : g.minimize.1.states catalog o = [] := by
        refine List.eq_nil_iff_forall_not_mem.2 fun s hs => ?_
        obtain ⟨n, node, hnode, -⟩ := MergedGraph.mem_states_iff.1 hs
        exact hlive (hzero hnode)
      rw [hnone, hnone]

/-- A graph in which node 2 leads to the node where a builder begins, and nothing to node 2. -/
def Graph.beside : Graph := ⟨[⟨[⟨0, 1⟩]⟩, ⟨[]⟩, ⟨[⟨0, 0⟩, ⟨1, 1⟩]⟩]⟩

/-- A catalog of one action. -/
def Catalog.single : Catalog := ⟨[⟨"X", "X", "X", [], [], .property, ""⟩], by decide⟩

theorem Graph.exists_minimize_states_beside : Graph.beside.Closed ∧
    ((Graph.beside.minimize.1.states .single { prune := true }).map (·.name) = ["Syntax"]) ∧
      (∃ s ∈ Graph.beside.minimize.1.states .single {}, s.node = 2 ∧ s.name = "Syntax2" ∧
        s.operations.length = 1) ∧
      ∀ names,
        StateType.chain (Graph.beside.minimize.1.states .single { prune := true })
            (StateType.entryOf (Graph.beside.minimize.1.states .single { prune := true })) names =
          StateType.chain (Graph.beside.minimize.1.states .single {})
            (StateType.entryOf (Graph.beside.minimize.1.states .single {})) names := by
  have hclosed : Graph.beside.Closed := by decide
  obtain ⟨-, -, -, -, hchain⟩ := minimize_states Graph.beside hclosed .single {}
  exact ⟨hclosed, by cbv, by with_unfolding_all decide, hchain⟩

end FluentGrammar
