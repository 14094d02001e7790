import FluentGrammar.Proofs.Automaton.Spelling
import FluentGrammar.Proofs.Compile.Stages
import Mathlib

/-
  The orderings of actions that a compiled graph permits. Flattened rules permit exactly the
  beginnings of what the start rule expands to, in the graph and in the merged graph
  (`compile_walk_iff`). Rules lowered directly permit more: a chain of reductions takes nothing from
  a stack, so the symbols that it reduces stay in front of what it goes on with. What a walk spells
  with the nonterminals of its chains is still such a beginning (`compile_walk_spells`).
-/

namespace FluentGrammar

open Report

section

variable {source : String} {catalog : Catalog} {o : CompileOptions} {tree : Source.Tree}
  {parsed resolved earlier lowered built : List Diagnostic} {rules : Rules} {c : Compiled}
  {w : List TerminalId} {α : List Symbol} {k : Nat}

namespace Compiled.Stages

variable (h : c.Stages rules catalog o earlier lowered built)

include h

theorem wellFormed : c.grammar.WellFormed := Rules.lower_wellFormed h.refs h.actions h.grammar

theorem builds : (Analysis.ofGrammar c.grammar).Builds c.grammar c.table built :=
  Analysis.builds_of_parseTable h.table

theorem endTerminal : c.grammar.endTerminal = catalog.size :=
  Rules.lower_endTerminal h.refs h.grammar

theorem reads_iff_begins :
    c.grammar.Reads .start [.nonterminal c.grammar.start] w ↔ rules.Begins Rules.start w := by
  rw [Rules.lower_reads_iff h.refs h.grammar, Rules.begins_iff_reads]

theorem rightLinear (hflatten : o.lowering = .flatten)
    (hregular : ∀ d ∈ c.diagnostics, d.kind ≠ .nonRegularGrammar) :
    ∀ p ∈ c.grammar.productions, p.RightLinear := by
  refine Rules.lower_rightLinear h.refs (hflatten ▸ h.grammar) fun d hd => hregular d ?_
  rw [h.diagnostics]
  exact List.mem_append_left _ (List.mem_append_right _ hd)

/-- The graph can be walked along the actions that the table spells something with. -/
theorem walk?_iff (hw : ∀ t ∈ w, t < catalog.size) :
    c.graph.walk? 0 w = some k ↔ ∃ α, c.table.Spells 0 w α k := by
  obtain ⟨s, hs, -⟩ := Analysis.knows_start h.wellFormed.ranged
  refine ParseTable.graph_walk?_iff h.graph (fun n t m hact => ?_)
    (fun t ht => List.mem_range.2 (hw t ht)) ?_
  · rw [h.builds.stateCount]
    exact Analysis.moves_lt h.wellFormed.ranged (h.builds.moves_of_shift h.wellFormed.ranged hact)
  · rw [h.builds.stateCount]
    exact (List.getElem?_eq_some_iff.1 hs).1

theorem lt_of_walk? (hw : c.graph.walk? 0 w = some k) : ∀ t ∈ w, t < catalog.size :=
  fun t ht => List.mem_range.1 (ParseTable.mem_of_walk? h.graph hw t ht)

/-- The merged graph can be walked along the same actions. -/
theorem isSome_merged_walk? :
    (c.merged.walk? 0 w).isSome = (c.graph.walk? 0 w).isSome := by
  have hwalk := c.graph.minimize_walk? 0 w
  rw [c.graph.minimize_mirrors.first] at hwalk
  rw [h.merged, hwalk, Option.isSome_map]

/-- Flattened rules permit the beginnings of what the start rule expands to and nothing else. -/
theorem walk?_iff_begins (hflatten : o.lowering = .flatten)
    (hregular : ∀ d ∈ c.diagnostics, d.kind ≠ .nonRegularGrammar) (hw : ∀ t ∈ w, t < catalog.size) :
    (c.graph.walk? 0 w).isSome = true ↔ rules.Begins Rules.start w := by
  have hw' : ∀ t ∈ w, t < c.grammar.endTerminal := fun t ht => h.endTerminal ▸ hw t ht
  rw [← h.reads_iff_begins, ← h.builds.spells_actions_iff h.wellFormed
    (h.rightLinear hflatten hregular) hw', Option.isSome_iff_exists, exists_comm]
  exact exists_congr fun k => h.walk?_iff hw

/-- Whatever a spelled string derives is such a beginning. -/
theorem begins_of_spells (hs : c.table.Spells 0 w α k) {u : List TerminalId}
    (hu : c.grammar.Derives α u) : rules.Begins Rules.start u :=
  h.reads_iff_begins.1 (h.builds.reads_of_spells h.wellFormed hs hu)

end Compiled.Stages

/-- When the rules are flattened, the actions that can be walked from the first node of the graph,
    and of the merged graph, are the beginnings of what the start rule expands to. -/
theorem compile_walk_iff (hparse : Source.parse source o.nestingLimit = .ok (tree, parsed))
    (hrules : Rules.ofDocument catalog tree.document = .ok (rules, resolved))
    (hcompile : compile source catalog o = .ok c) (hflatten : o.lowering = .flatten)
    (hregular : ∀ d ∈ c.diagnostics, d.kind ≠ .nonRegularGrammar)
    (w : List TerminalId) (hw : ∀ t ∈ w, t < catalog.size) :
    ((c.graph.walk? 0 w).isSome = true ↔ rules.Begins Rules.start w) ∧
      ((c.merged.walk? 0 w).isSome = true ↔ rules.Begins Rules.start w) := by
  obtain ⟨lowered, built, h⟩ := stages_of_compile hparse hrules hcompile
  have hgraph := h.walk?_iff_begins hflatten hregular hw
  exact ⟨hgraph, h.isSome_merged_walk? ▸ hgraph⟩

/-- What `s : X T+ | s X ;` means over two actions. -/
def Rules.leftRecursive : Rules :=
  ⟨[⟨"s", ⟨0, 1⟩, .alt [.seq [.terminal 0, .repeated (.terminal 1) .oneOrMore],
    .seq [.rule 0, .terminal 0]]⟩]⟩

set_option maxRecDepth 100000 in
theorem front_leftRecursive :
    ((Source.parse "s : X T+ | s X ;" Source.defaultNestingLimit).toOption.bind fun x =>
      (Rules.ofDocument Rules.twoActions x.1.document).toOption.map fun y => (y.1, x.2, y.2)) =
        some (Rules.leftRecursive, [], []) := by
  cbv

theorem exists_compile_leftRecursive : ∃ c,
    compile "s : X T+ | s X ;" Rules.twoActions {} = .ok c ∧
      (c.graph.walk? 0 [0, 1, 0]).isSome = true ∧ (c.merged.walk? 0 [0, 1, 0]).isSome = true ∧
      Rules.leftRecursive.Begins Rules.start [0, 1, 0] := by
  obtain ⟨tree, c, hparse, hrules, hcompile, hc⟩ := exists_compile (o := {}) front_leftRecursive
    (show (Rules.leftRecursive.compile Rules.twoActions {} []).toOption.map (fun c =>
      ((c.graph.walk? 0 [0, 1, 0]).isSome, c.diagnostics.isEmpty)) = some (true, true) by
        decide +kernel)
  obtain ⟨hwalk, hquiet⟩ := Prod.mk.inj hc
  have hregular : ∀ d ∈ c.diagnostics, d.kind ≠ .nonRegularGrammar := by
    rw [List.isEmpty_iff.1 hquiet]
    exact fun d hd => absurd hd List.not_mem_nil
  obtain ⟨hgraph, hmerged⟩ := compile_walk_iff hparse hrules hcompile rfl hregular [0, 1, 0]
    (by decide)
  exact ⟨c, hcompile, hwalk, hmerged.2 (hgraph.1 hwalk), hgraph.1 hwalk⟩

/-- A walk through the graph, however the rules are lowered, spells a string of its actions and
    of the nonterminals that its chains of reductions go on with. The string derives something,
    and whatever it derives is a beginning of what the start rule expands to, with the actions of
    the walk in it in their order. So the actions are themselves such a beginning when these
    nonterminals can be nothing, and when the rules are flattened. -/
theorem compile_walk_spells (hparse : Source.parse source o.nestingLimit = .ok (tree, parsed))
    (hrules : Rules.ofDocument catalog tree.document = .ok (rules, resolved))
    (hcompile : compile source catalog o = .ok c) (hwalk : c.graph.walk? 0 w = some k) :
    ∃ α, c.table.Spells 0 w α k ∧ (∃ u, c.grammar.Derives α u) ∧
      (∀ u, c.grammar.Derives α u → w.Sublist u ∧ rules.Begins Rules.start u) ∧
      ((∀ l, .nonterminal l ∈ α → c.grammar.Derives [.nonterminal l] []) →
        rules.Begins Rules.start w) ∧
      (o.lowering = .flatten → (∀ d ∈ c.diagnostics, d.kind ≠ .nonRegularGrammar) →
        rules.Begins Rules.start w) := by
  obtain ⟨lowered, built, h⟩ := stages_of_compile hparse hrules hcompile
  have hw := h.lt_of_walk? hwalk
  obtain ⟨α, hs⟩ := (h.walk?_iff hw).1 hwalk
  refine ⟨α, hs, h.builds.exists_derives_of_spells h.wellFormed hs, fun u hu => ?_,
    fun hempty => ?_, fun hflatten hregular => ?_⟩
  · exact ⟨Analysis.sublist_of_spells hs hu, h.begins_of_spells hs hu⟩
  · exact h.begins_of_spells hs (Analysis.derives_actions_of_spells hs hempty)
  · refine (h.walk?_iff_begins hflatten hregular hw).1 ?_
    rw [hwalk]
    rfl

end

/-! ## A walk that is no beginning -/

/-- What `s : n T | X n T X ; n : X ;` means over two actions. Behind the first `X` a table of these
    rules reduces `n` on `T`, and goes on as if the `X` of `n` came after another one. -/
def Rules.nested : Rules :=
  ⟨[⟨"s", ⟨0, 1⟩, .alt [.seq [.rule 1, .terminal 1],
      .seq [.terminal 0, .rule 1, .terminal 1, .terminal 0]]⟩,
    ⟨"n", ⟨20, 21⟩, .terminal 0⟩]⟩

set_option maxRecDepth 100000 in
theorem front_nested :
    ((Source.parse "s : n T | X n T X ; n : X ;" Source.defaultNestingLimit).toOption.bind fun x =>
      (Rules.ofDocument Rules.twoActions x.1.document).toOption.map fun y => (y.1, x.2, y.2)) =
        some (Rules.nested, [], []) := by
  cbv

/-- Flattened, the rules do not permit `X T X`, so no form begins with it. -/
theorem nested_not_begins : ¬Rules.nested.Begins Rules.start [0, 1, 0] := by
  obtain ⟨tree, c, hparse, hrules, hcompile, hc⟩ := exists_compile (o := {}) front_nested
    (show (Rules.nested.compile Rules.twoActions {} []).toOption.map (fun c =>
      (c.graph.walk? 0 [0, 1, 0], c.diagnostics.isEmpty)) = some (none, true) by decide +kernel)
  obtain ⟨hwalk, hquiet⟩ := Prod.mk.inj hc
  obtain ⟨lowered, built, h⟩ := stages_of_compile hparse hrules hcompile
  have hregular : ∀ d ∈ c.diagnostics, d.kind ≠ .nonRegularGrammar := by
    rw [List.isEmpty_iff.1 hquiet]
    exact fun d hd => absurd hd List.not_mem_nil
  rw [← h.walk?_iff_begins rfl hregular (by decide), hwalk]
  exact Bool.false_ne_true

/-- Lowered directly, the same rules permit it. -/
theorem exists_compile_nested_not_begins : ∃ tree c,
    Source.parse "s : n T | X n T X ; n : X ;" Source.defaultNestingLimit = .ok (tree, []) ∧
      Rules.ofDocument Rules.twoActions tree.document = .ok (Rules.nested, []) ∧
      compile "s : n T | X n T X ; n : X ;" Rules.twoActions { lowering := .direct } = .ok c ∧
      (c.graph.walk? 0 [0, 1, 0]).isSome = true ∧
      ¬∃ rest, Relation.ReflTransGen Rules.nested.Step [.rule Rules.start]
        (Rules.form [0, 1, 0] ++ rest) := by
  obtain ⟨tree, c, hparse, hrules, hcompile, hwalk⟩ :=
    exists_compile (o := { lowering := .direct }) front_nested
      (show (Rules.nested.compile Rules.twoActions { lowering := .direct } []).toOption.map
        (fun c => (c.graph.walk? 0 [0, 1, 0]).isSome) = some true by with_unfolding_all rfl)
  have hnot := nested_not_begins
  rw [Rules.begins_iff_steps] at hnot
  exact ⟨tree, c, hparse, hrules, hcompile, hwalk, hnot⟩

/-- There the walk stands for a beginning with one more action in front. -/
theorem exists_compile_nested_spells : ∃ c k α u,
    compile "s : n T | X n T X ; n : X ;" Rules.twoActions { lowering := .direct } = .ok c ∧
      c.graph.walk? 0 [0, 1, 0] = some k ∧ c.table.Spells 0 [0, 1, 0] α k ∧
      c.grammar.Derives α u ∧ [0, 1, 0].Sublist u ∧ Rules.nested.Begins Rules.start u := by
  obtain ⟨tree, c, hparse, hrules, hcompile, hwalk⟩ :=
    exists_compile (o := { lowering := .direct }) front_nested
      (show (Rules.nested.compile Rules.twoActions { lowering := .direct } []).toOption.map
        (fun c => c.graph.walk? 0 [0, 1, 0]) = some (some 8) by with_unfolding_all rfl)
  obtain ⟨α, hspells, ⟨u, hu⟩, hbegins, -⟩ := compile_walk_spells hparse hrules hcompile hwalk
  exact ⟨c, 8, α, u, hcompile, hwalk, hspells, hu, (hbegins u hu).1, (hbegins u hu).2⟩

end FluentGrammar
