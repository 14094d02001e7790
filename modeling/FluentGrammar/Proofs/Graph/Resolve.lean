import FluentGrammar.Graph.Resolve
import FluentGrammar.Proofs.Graph.Walk

/-
  What walks through the graph of a table spell. A shift spells its action and a reduction the
  nonterminal that it goes on with; nothing is taken back (`Spells`). So an action is spelled by the
  reductions that lead to its shift (`spells_cons_iff`), and there the graph has its edge
  (`mem_edges_iff`). The graph can be walked along the actions that the table spells something with,
  and along no others (`graph_walk?_iff`).
-/

namespace FluentGrammar.ParseTable

/-- The symbols that a table spells from one state to another with a sequence of actions: the
    actions, and in front of each the nonterminals of the reductions that lead to its shift. -/
inductive Spells (t : ParseTable) : StateId → List TerminalId → List Symbol → StateId → Prop
  | stop (n : StateId) : Spells t n [] [] n
  | shift {n m k a w α} : t.action n a = .shift m → Spells t m w α k →
      Spells t n (a :: w) (.terminal a :: α) k
  | reduce {n m k a w α r reduction} : t.action n a = .reduce r →
      t.reduction? r = some reduction → t.goto n reduction.produces = some m →
      Spells t m (a :: w) α k → Spells t n (a :: w) (.nonterminal reduction.produces :: α) k

/-- On a terminal the state reduces, and the reduction is one of the table and has a goto there. -/
def Reduces (t : ParseTable) (a : TerminalId) (n m : StateId) : Prop :=
  ∃ r reduction, t.action n a = .reduce r ∧ t.reduction? r = some reduction ∧
    t.goto n reduction.produces = some m

variable {t : ParseTable} {g : Graph} {a : TerminalId} {terminals w : List TerminalId}
  {n m k : StateId} {α : List Symbol} {steps : Nat}

theorem Spells.snoc (h : t.Spells n w α k) (hact : t.action k a = .shift m) :
    t.Spells n (w ++ [a]) (α ++ [.terminal a]) m := by
  induction h with
  | stop => exact .shift hact (.stop m)
  | shift hshift _ ih => exact .shift hshift (ih hact)
  | reduce hred hr hgoto _ ih => exact .reduce hred hr hgoto (ih hact)

/-! ## Chains of reductions -/

theorem follow_of_reduces (h : t.Reduces a n m) :
    t.follow a (steps + 1) n = t.follow a steps m := by
  obtain ⟨r, reduction, hact, hr, hgoto⟩ := h
  rw [follow, hact]
  simp only [hr, hgoto, Option.bind_some]

/-- What has been followed to a shift leads there by reductions. -/
theorem exists_shift_of_follow (h : t.follow a steps n = some (some m)) :
    ∃ k, Relation.ReflTransGen (t.Reduces a) n k ∧ t.action k a = .shift m := by
  induction steps generalizing n with
  | zero => cases h
  | succ steps ih =>
    rw [follow] at h
    split at h
    · next target hact =>
      obtain rfl := Option.some.inj (Option.some.inj h)
      exact ⟨n, .refl, hact⟩
    · cases h
    · cases h
    · next r hact =>
      split at h
      · next next hnext =>
        obtain ⟨reduction, hr, hgoto⟩ := Option.bind_eq_some_iff.1 hnext
        obtain ⟨k, hk, hshift⟩ := ih h
        exact ⟨k, .head ⟨r, reduction, hact, hr, hgoto⟩ hk, hshift⟩
      · cases h

/-- A shift that reductions lead to is found when the steps suffice. -/
theorem follow_of_reduces_of_shift (h : Relation.ReflTransGen (t.Reduces a) n k)
    (hshift : t.action k a = .shift m) (hsettles : t.follow a steps n ≠ none) :
    t.follow a steps n = some (some m) := by
  induction h using Relation.ReflTransGen.head_induction_on generalizing steps with
  | refl =>
    cases steps with
    | zero => exact absurd rfl hsettles
    | succ steps => rw [follow, hshift]
  | head hstep _ ih =>
    cases steps with
    | zero => exact absurd rfl hsettles
    | succ steps =>
      rw [follow_of_reduces hstep] at hsettles ⊢
      exact ih hsettles

/-- What is spelled with an action is spelled from the shift on that reductions lead to. -/
theorem spells_cons_iff : (∃ α, t.Spells n (a :: w) α k) ↔
    ∃ j m β, Relation.ReflTransGen (t.Reduces a) n j ∧ t.action j a = .shift m ∧
      t.Spells m w β k := by
  constructor
  · intro h
    obtain ⟨α, hα⟩ := h
    generalize hv : a :: w = v at hα
    induction hα with
    | stop => cases hv
    | shift hact hrest =>
      obtain ⟨rfl, rfl⟩ := List.cons.inj hv
      exact ⟨_, _, _, .refl, hact, hrest⟩
    | reduce hact hr hgoto _ ih =>
      obtain ⟨rfl, -⟩ := List.cons.inj hv
      obtain ⟨j, m, β, hj, hrest⟩ := ih hv
      exact ⟨j, m, β, .head ⟨_, _, hact, hr, hgoto⟩ hj, hrest⟩
  · intro h
    obtain ⟨j, m, β, hj, hact, hβ⟩ := h
    induction hj using Relation.ReflTransGen.head_induction_on with
    | refl => exact ⟨_, .shift hact hβ⟩
    | head hstep _ ih =>
      obtain ⟨r, reduction, hred, hr, hgoto⟩ := hstep
      obtain ⟨α, hα⟩ := ih
      exact ⟨_, .reduce hred hr hgoto hα⟩

/-! ## The graph -/

theorem follow_of_edge? {edge : Option Edge} (h : t.edge? n a = .ok edge) :
    t.follow a (t.stateCount + 1) n = some (edge.map (·.target)) ∧
      ∀ e ∈ edge, e.terminal = a := by
  unfold edge? at h
  split at h
  · cases h
  · next target hfollow =>
    obtain rfl := Except.ok.inj h
    rw [hfollow]
    cases target with
    | none => simp
    | some target => simp

/-- The nodes of the graph are those of the states. -/
theorem node_of_graph (h : t.graph terminals = .ok g) :
    List.Forall₂ (fun n node => ∃ edges, node = ⟨edges.filterMap id⟩ ∧
      List.Forall₂ (fun b e => t.edge? n b = .ok e) (OrderedSet.union terminals []) edges)
      (List.range t.stateCount) g.nodes := by
  obtain ⟨nodes, hnodes, h⟩ := of_bind_eq_ok h
  obtain rfl := Except.ok.inj h
  refine (forall₂_of_mapM_eq_ok hnodes).imp fun n node hnode => ?_
  obtain ⟨edges, hedges, hnode⟩ := of_bind_eq_ok hnode
  exact ⟨edges, (Except.ok.inj hnode).symm, forall₂_of_mapM_eq_ok hedges⟩

theorem node?_graph (h : t.graph terminals = .ok g) :
    (g.node? n).isSome = true ↔ n < t.stateCount := by
  have hlength := (node_of_graph h).length_eq
  rw [List.length_range] at hlength
  rw [hlength, Graph.node?, isSome_getElem?]

/-- The edges of a node stand in the order of the terminals, when these do. -/
theorem pairwise_filterMap {ts : List TerminalId} {edges : List (Option Edge)}
    (hts : ts.Pairwise (· < ·)) (h : List.Forall₂ (fun b e => t.edge? n b = .ok e) ts edges) :
    (edges.filterMap id).Pairwise fun e e' => e.terminal < e'.terminal := by
  induction h with
  | nil => exact .nil
  | @cons b edge ts edges hedge hrest ih =>
    obtain ⟨hb, hts⟩ := List.pairwise_cons.1 hts
    cases edge with
    | none => exact ih hts
    | some e =>
      refine List.pairwise_cons.2 ⟨?_, ih hts⟩
      intro e' he'
      obtain ⟨edge', hedge', heq⟩ := List.mem_filterMap.1 he'
      obtain ⟨b', hb', hedge'⟩ := exists_of_mem_right hrest hedge'
      rw [(follow_of_edge? hedge).2 e rfl, (follow_of_edge? hedge').2 e' heq]
      exact hb b' hb'

/-- A node has an edge for every terminal that is followed to a shift. -/
theorem mem_edges_iff (h : t.graph terminals = .ok g) {node : Node} (hn : g.node? n = some node) :
    ⟨a, m⟩ ∈ node.edges ↔
      a ∈ terminals ∧ t.follow a (t.stateCount + 1) n = some (some m) := by
  obtain ⟨n', hn', edges, rfl, hedges⟩ := exists_of_forall₂ (node_of_graph h) hn
  obtain rfl : n = n' := by
    obtain ⟨hlt, heq⟩ := List.getElem?_eq_some_iff.1 hn'
    rwa [List.getElem_range] at heq
  have hmem {b : TerminalId} : b ∈ OrderedSet.union terminals [] ↔ b ∈ terminals := by
    rw [OrderedSet.mem_union]
    simp
  rw [List.mem_filterMap]
  constructor
  · intro he
    obtain ⟨edge, he, heq⟩ := he
    obtain ⟨b, hb, hedge⟩ := exists_of_mem_right hedges he
    obtain ⟨hfollow, hterminal⟩ := follow_of_edge? hedge
    obtain rfl : edge = some ⟨a, m⟩ := heq
    obtain rfl : a = b := hterminal _ rfl
    exact ⟨hmem.1 hb, hfollow⟩
  · intro he
    obtain ⟨ha, hfollow⟩ := he
    obtain ⟨edge, he, hedge⟩ := exists_of_mem_left hedges (hmem.2 ha)
    refine ⟨edge, he, ?_⟩
    unfold edge? at hedge
    rw [hfollow] at hedge
    exact (Except.ok.inj hedge).symm

theorem ascending_graph (h : t.graph terminals = .ok g) : g.Ascending := by
  intro node hnode
  obtain ⟨n, -, edges, rfl, hedges⟩ := exists_of_mem_right (node_of_graph h) hnode
  exact pairwise_filterMap (OrderedSet.pairwise_union .nil) hedges

theorem target?_graph (h : t.graph terminals = .ok g) {node : Node}
    (hn : g.node? n = some node) : node.target? a = some m ↔
      a ∈ terminals ∧ t.follow a (t.stateCount + 1) n = some (some m) := by
  rw [Node.target?_eq_some_iff (ascending_graph h node (List.mem_of_getElem? hn)),
    mem_edges_iff h hn]

/-- Where there is a graph, all chains settle. -/
theorem follow_ne_none (h : t.graph terminals = .ok g) (hn : n < t.stateCount)
    (ha : a ∈ terminals) : t.follow a (t.stateCount + 1) n ≠ none := by
  obtain ⟨node, -, edges, -, hedges⟩ :=
    exists_of_mem_left (node_of_graph h) (List.mem_range.2 hn)
  obtain ⟨e, -, he⟩ := exists_of_mem_left hedges (OrderedSet.mem_union.2 (.inl ha))
  intro hnone
  rw [edge?, hnone] at he
  cases he

/-! ## Walks -/

theorem exists_spells_of_walk? (h : t.graph terminals = .ok g) (hw : g.walk? n w = some k) :
    ∃ α, t.Spells n w α k := by
  induction w generalizing n with
  | nil =>
    obtain ⟨node, -, rfl⟩ := Option.map_eq_some_iff.1 hw
    exact ⟨[], .stop n⟩
  | cons a w ih =>
    obtain ⟨node, hnode, hw⟩ := Option.bind_eq_some_iff.1 hw
    obtain ⟨m, hm, hw⟩ := Option.bind_eq_some_iff.1 hw
    obtain ⟨α, hα⟩ := ih hw
    obtain ⟨j, hj, hact⟩ := exists_shift_of_follow ((target?_graph h hnode).1 hm).2
    exact spells_cons_iff.2 ⟨j, m, α, hj, hact, hα⟩

theorem mem_of_walk? (h : t.graph terminals = .ok g) (hw : g.walk? n w = some k) :
    ∀ a ∈ w, a ∈ terminals := by
  induction w generalizing n with
  | nil => exact fun a ha => absurd ha List.not_mem_nil
  | cons a w ih =>
    obtain ⟨node, hnode, hw⟩ := Option.bind_eq_some_iff.1 hw
    obtain ⟨m, hm, hw⟩ := Option.bind_eq_some_iff.1 hw
    exact List.forall_mem_cons.2 ⟨((target?_graph h hnode).1 hm).1, ih hw⟩

/-- The graph can be walked along the actions that the table spells something with. Shifts are to
    stay within the states. -/
theorem graph_walk?_iff (h : t.graph terminals = .ok g)
    (hshift : ∀ n a m, t.action n a = .shift m → m < t.stateCount)
    (hw : ∀ a ∈ w, a ∈ terminals) (hn : n < t.stateCount) :
    g.walk? n w = some k ↔ ∃ α, t.Spells n w α k := by
  refine ⟨exists_spells_of_walk? h, fun hspells => ?_⟩
  induction w generalizing n with
  | nil =>
    obtain ⟨α, hα⟩ := hspells
    cases hα
    obtain ⟨node, hnode⟩ := Option.isSome_iff_exists.1 ((node?_graph h).2 hn)
    rw [Graph.walk?, walkThrough, hnode, Option.map_some]
  | cons a w ih =>
    obtain ⟨ha, hw⟩ := List.forall_mem_cons.1 hw
    obtain ⟨j, m, β, hj, hact, hβ⟩ := spells_cons_iff.1 hspells
    have hfollow := follow_of_reduces_of_shift hj hact (follow_ne_none h hn ha)
    obtain ⟨node, hnode⟩ := Option.isSome_iff_exists.1 ((node?_graph h).2 hn)
    rw [Graph.walk?, walkThrough, hnode, Option.bind_some,
      (target?_graph h hnode).2 ⟨ha, hfollow⟩, Option.bind_some]
    exact ih hw (hshift j a m hact) ⟨β, hβ⟩

end FluentGrammar.ParseTable
