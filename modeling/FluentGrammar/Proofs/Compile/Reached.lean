import FluentGrammar.Proofs.Automaton.Candidates
import FluentGrammar.Proofs.Automaton.Prefixes
import FluentGrammar.Proofs.Automaton.RightLinear
import FluentGrammar.Proofs.Compile.Orderings
import FluentGrammar.Proofs.Graph.Pruning

/-
  Flattened rules give no states that cannot be reached. Their automaton has many states that only
  a nonterminal leads to, and no walk through the graph gets there. But behind the nonterminal of a
  right-linear production nothing is left to read, so such a state has no transitions
  (`not_moves_of_moves_nonterminal`), and a state that has some is reached along actions alone
  (`Builds.exists_spells_of_moves`). Merging keeps walks, and so every live node with edges can be
  reached: there is nothing to leave out (`compile_prune`).
-/

namespace FluentGrammar

open Report

/-! ## States of the automaton -/

namespace Analysis

variable {g : Grammar} {table : ParseTable} {ds : List Diagnostic} {n m : Nat} {i : Item}
  {stack : List Nat} {α : List Symbol} {l : NonterminalId} {x : Symbol}

section

variable (hg : g.WellFormed) (hlinear : ∀ p ∈ g.productions, p.RightLinear)

include hg hlinear

/-- A state that a nonterminal leads to has nothing to read. -/
theorem remaining_of_moves_nonterminal (hmove : (ofGrammar g).Moves n (.nonterminal l) m)
    (hi : (ofGrammar g).Knows m i none) : (ofGrammar g).remaining i = [] := by
  refine knows_induction_of_moves hg.ranged
    (motive := fun i => (ofGrammar g).remaining i = []) hmove
    (fun j _ hx => ?_) (fun j l after p q hj hr _ _ => ?_) hi
  · obtain ⟨after, hr⟩ := next?_eq_some_iff.1 hx
    rw [remaining_advance hr]
    exact after_of_remaining hlinear hr
  · rw [hj] at hr
    cases hr

/-- So it has no transitions. -/
theorem not_moves_of_moves_nonterminal {k : Nat}
    (hmove : (ofGrammar g).Moves n (.nonterminal l) m) : ¬(ofGrammar g).Moves m x k := by
  intro hmove'
  obtain ⟨i, hi, hx⟩ := exists_knows_of_moves hg.ranged hmove'
  obtain ⟨rest, hr⟩ := next?_eq_some_iff.1 hx
  rw [remaining_of_moves_nonterminal hg hlinear hmove hi] at hr
  cases hr

/-- A state that has transitions is reached along actions, and the table spells them. The induction
    is on a path to the state, whose last step cannot be a nonterminal. -/
theorem Builds.exists_spells_of_path (h : (ofGrammar g).Builds g table ds)
    (hpath : (ofGrammar g).Path (n :: stack) α) (hmove : (ofGrammar g).Moves n x m) :
    ∃ w β, (∀ t ∈ w, t < g.endTerminal) ∧ table.Spells 0 w β n := by
  generalize hs : n :: stack = states at hpath
  induction hpath generalizing n m stack x with
  | start =>
    obtain ⟨rfl, rfl⟩ := List.cons.inj hs
    exact ⟨[], [], nofun, .stop 0⟩
  | @step k stack' α y n' hpath hmove' ih =>
    obtain ⟨rfl, rfl⟩ := List.cons.inj hs
    obtain ⟨w, β, hw, hspells⟩ := ih hmove' rfl
    cases y with
    | terminal t =>
      have ht := lt_endTerminal_of_moves hg hmove'
      refine ⟨w ++ [t], _, ?_, hspells.snoc (h.action_of_moves hg.ranged ht hmove')⟩
      exact List.forall_mem_append.2 ⟨hw, List.forall_mem_singleton.2 ht⟩
    | nonterminal l => exact absurd hmove (not_moves_of_moves_nonterminal hg hlinear hmove')

theorem Builds.exists_spells_of_moves (h : (ofGrammar g).Builds g table ds)
    (hmove : (ofGrammar g).Moves n x m) :
    ∃ w β, (∀ t ∈ w, t < g.endTerminal) ∧ table.Spells 0 w β n := by
  obtain ⟨s, hs, -⟩ := id hmove
  obtain ⟨stack, α, hpath⟩ := exists_path hg.ranged (List.getElem?_eq_some_iff.1 hs).1
  exact h.exists_spells_of_path hg hlinear hpath hmove

end

end Analysis

/-! ## Nodes of the graph -/

namespace Compiled.Stages

variable {catalog : Catalog} {o : CompileOptions} {rules : Rules} {c : Compiled}
  {earlier lowered built : List Diagnostic} {n : NodeId} {node : Node}

/-- A node of the graph that has an edge is one that a walk leads to. -/
theorem exists_walk? (h : c.Stages rules catalog o earlier lowered built)
    (hflatten : o.lowering = .flatten)
    (hregular : ∀ d ∈ c.diagnostics, d.kind ≠ .nonRegularGrammar)
    (hnode : c.graph.node? n = some node) (hedges : node.edges ≠ []) :
    ∃ w, c.graph.walk? 0 w = some n := by
  have hlinear := h.rightLinear hflatten hregular
  obtain ⟨⟨t, m⟩, he⟩ := List.exists_mem_of_ne_nil _ hedges
  obtain ⟨ht, hfollow⟩ := (ParseTable.mem_edges_iff h.graph hnode).1 he
  have hend : t ≠ c.grammar.endTerminal := by
    rw [h.endTerminal]
    exact Nat.ne_of_lt (List.mem_range.1 ht)
  obtain hact | ⟨m', hact⟩ := h.builds.action_of_rightLinear h.wellFormed hlinear (n := n) hend
  · rw [ParseTable.follow, hact] at hfollow
    cases hfollow
  · have hmove := h.builds.moves_of_shift h.wellFormed.ranged hact
    obtain ⟨w, β, hw, hs⟩ := h.builds.exists_spells_of_moves h.wellFormed hlinear hmove
    exact ⟨w, (h.walk?_iff fun t ht => h.endTerminal ▸ hw t ht).2 ⟨β, hs⟩⟩

end Compiled.Stages

/-! ## States -/

section

variable {source : String} {catalog : Catalog} {o : CompileOptions} {rules : Rules} {c : Compiled}

/-- When the rules are flattened, every live node of the merged graph that has an edge can be
    reached from the first. So states are left out or not with the same result. -/
theorem compile_prune (hcompile : compile source catalog o = .ok c)
    (hflatten : o.lowering = .flatten)
    (hregular : ∀ d ∈ c.diagnostics, d.kind ≠ .nonRegularGrammar) :
    (∀ n node, c.merged.node? n = some node → node.edges ≠ [] →
        Relation.ReflTransGen (fun a b => b ∈ c.merged.targets a) 0 n) ∧
      ∀ prune, compile source catalog { o with states := { o.states with prune } } = .ok c := by
  obtain ⟨tree, parsed, rules, resolved, hparse, hrules⟩ := exists_rules_of_compile hcompile
  obtain ⟨lowered, built, h⟩ := stages_of_compile hparse hrules hcompile
  have hwalk : ∀ n node, c.merged.node? n = some node → node.edges ≠ [] →
      ∃ w, c.merged.walk? 0 w = some n := by
    intro n node hnode hedges
    rw [h.merged] at hnode ⊢
    have hsource := c.graph.minimize_mirrors.node?_eq c.graph.minimize_upright
      (MergedGraph.isLive_of_node? hnode)
    obtain ⟨source, hsource, rfl⟩ := Option.map_eq_some_iff.1 (hsource.symm.trans hnode)
    have hedges' : source.edges ≠ [] := fun hnil => hedges (by rw [Node.lead, hnil]; rfl)
    obtain ⟨w, hw⟩ := h.exists_walk? hflatten hregular hsource hedges'
    exact ⟨w, Graph.minimize_walk?_of_node? hnode hw⟩
  refine ⟨fun n node hnode hedges => ?_, fun prune => ?_⟩
  · obtain ⟨w, hw⟩ := hwalk n node hnode hedges
    exact MergedGraph.steps_of_walk? hw
  · have hreachable : ∀ n node, c.merged.node? n = some node → node.edges ≠ [] →
        n ∈ c.merged.reachable := by
      intro n node hnode hedges
      obtain ⟨w, hw⟩ := hwalk n node hnode hedges
      exact MergedGraph.mem_reachable_of_walk? hw
    have hstates := MergedGraph.states_of_reachable catalog o.states hreachable prune
    rw [compile_states, hcompile, Except.map, hstates, ← h.states]

end

/-- Node 2 stands for the states that only a nonterminal leads to. No edge leads to it, and it has
    none itself. -/
theorem exists_compile_leftRecursive_prune : ∃ c,
    compile "s : X T+ | s X ;" Rules.twoActions {} = .ok c ∧
      compile "s : X T+ | s X ;" Rules.twoActions { states := { prune := true } } = .ok c ∧
      c.states.length = 4 ∧ c.merged.node? 2 = some ⟨[]⟩ ∧
      (c.merged.live.all fun x => x.2.edges.all (·.target != 2)) = true := by
  obtain ⟨tree, c, hparse, hrules, hcompile, hc⟩ := exists_compile (o := {}) front_leftRecursive
    (show (Rules.leftRecursive.compile Rules.twoActions {} []).toOption.map (fun c =>
      (c.states.length, c.merged.node? 2, c.merged.live.all fun x =>
        x.2.edges.all (·.target != 2), c.diagnostics.isEmpty)) =
          some (4, some ⟨[]⟩, true, true) by decide +kernel)
  simp only [Prod.mk.injEq] at hc
  obtain ⟨hstates, hnode, hedges, hquiet⟩ := hc
  have hregular : ∀ d ∈ c.diagnostics, d.kind ≠ .nonRegularGrammar := by
    rw [List.isEmpty_iff.1 hquiet]
    exact fun d hd => absurd hd List.not_mem_nil
  obtain ⟨-, hprune⟩ := compile_prune hcompile rfl hregular
  exact ⟨c, hcompile, hprune true, hstates, hnode, hedges⟩

end FluentGrammar
