import FluentGrammar.Compile
import FluentGrammar.Proofs.Lowering.Scope
import FluentGrammar.Proofs.Support

/-
  A compilation stage by stage. Once a source is parsed and its names are resolved, the compilation
  is that of the rules (`compile_eq`), and where that succeeds every stage does (`Stages`). How
  states are made matters to the states alone (`compile_states`).
-/

namespace FluentGrammar

open Report

/-- The stages of a compilation from the rules on, with the diagnostics of the stages before. -/
def Rules.compile (rules : Rules) (catalog : Catalog) (o : CompileOptions)
    (diagnostics : List Diagnostic) : Except CompileError Compiled := do
  let (grammar, lowered) ← (rules.lower catalog o.lowering).mapError (·.after diagnostics)
  let diagnostics := diagnostics ++ lowered
  let (table, built) ← grammar.parseTable.mapError (·.after diagnostics)
  let diagnostics := diagnostics ++ built
  let graph ← (table.graph catalog.terminals).mapError fun e =>
    CompileError.endlessReduction e.state (grammar.terminalName e.terminal) e.bound
  let (merged, count) := graph.minimize
  let states := merged.states catalog o.states
  return { grammar, table, graph, merged, count, states, diagnostics }

/-- What each stage made of what the one before it gave, with the diagnostics of the stages before
    the rules and of the two after them that may report something. -/
structure Compiled.Stages (c : Compiled) (rules : Rules) (catalog : Catalog) (o : CompileOptions)
    (earlier lowered built : List Diagnostic) : Prop where
  refs : rules.RefsInRange
  actions : ∀ t ∈ rules.actions, t < catalog.size
  grammar : rules.lower catalog o.lowering = .ok (c.grammar, lowered)
  table : c.grammar.parseTable = .ok (c.table, built)
  graph : c.table.graph catalog.terminals = .ok c.graph
  merged : c.merged = c.graph.minimize.1
  states : c.states = c.merged.states catalog o.states
  diagnostics : c.diagnostics = earlier ++ lowered ++ built

section

variable {source : String} {catalog : Catalog} {o : CompileOptions} {tree : Source.Tree}
  {parsed resolved : List Diagnostic} {rules : Rules} {c : Compiled}

theorem of_mapError_eq_ok {ε δ α : Type} {f : ε → δ} {m : Except ε α} {a : α}
    (h : m.mapError f = .ok a) : m = .ok a := by
  cases m with
  | error e => cases h
  | ok b => exact congrArg Except.ok (Except.ok.inj h)

theorem compile_front (source : String) (catalog : Catalog) (o : CompileOptions) :
    compile source catalog o = (do
      let (tree, parsed) ← (Source.parse source o.nestingLimit).mapError fun _ =>
        CompileError.nestingTooDeep
      if Diagnostic.anyError parsed then throw (.malformedSource parsed)
      let (rules, resolved) ← (Rules.ofDocument catalog tree.document).mapError (·.after parsed)
      rules.compile catalog o (parsed ++ resolved)) := rfl

/-- Parsing and resolving, from what both give together. -/
theorem exists_parse {limit : Nat}
    (h : ((Source.parse source limit).toOption.bind fun x =>
      (Rules.ofDocument catalog x.1.document).toOption.map fun y => (y.1, x.2, y.2)) =
        some (rules, parsed, resolved)) :
    ∃ tree, Source.parse source limit = .ok (tree, parsed) ∧
      Rules.ofDocument catalog tree.document = .ok (rules, resolved) := by
  cases hparse : Source.parse source limit with
  | error e =>
    rw [hparse] at h
    cases h
  | ok x =>
    obtain ⟨tree, ds⟩ := x
    rw [hparse] at h
    obtain ⟨⟨rules', ds'⟩, hrules, heq⟩ := exists_eq_ok_of_map h
    simp only [Prod.mk.injEq] at heq
    obtain ⟨rfl, rfl, rfl⟩ := heq
    exact ⟨tree, rfl, hrules⟩

/-- The compilation of a source is that of its rules. -/
theorem compile_eq (hparse : Source.parse source o.nestingLimit = .ok (tree, parsed))
    (hclean : Diagnostic.anyError parsed = false)
    (hrules : Rules.ofDocument catalog tree.document = .ok (rules, resolved)) :
    compile source catalog o = rules.compile catalog o (parsed ++ resolved) := by
  rw [compile_front, hparse]
  simp only [Except.mapError, bind, Except.bind, hclean, hrules, Bool.false_eq_true, if_false]

/-- Only a source without syntax errors is compiled. -/
theorem anyError_of_compile (hparse : Source.parse source o.nestingLimit = .ok (tree, parsed))
    (h : compile source catalog o = .ok c) : Diagnostic.anyError parsed = false := by
  cases herror : Diagnostic.anyError parsed with
  | false => rfl
  | true =>
    rw [compile_front, hparse] at h
    simp only [Except.mapError, bind, Except.bind, herror, if_true] at h
    cases h

/-- What a compilation that succeeds has read. -/
theorem exists_rules_of_compile (h : compile source catalog o = .ok c) :
    ∃ tree parsed rules resolved, Source.parse source o.nestingLimit = .ok (tree, parsed) ∧
      Rules.ofDocument catalog tree.document = .ok (rules, resolved) := by
  rw [compile_front] at h
  obtain ⟨⟨tree, parsed⟩, hparse, h⟩ := of_bind_eq_ok h
  dsimp only at h
  split at h
  · cases h
  · obtain ⟨⟨rules, resolved⟩, hrules, -⟩ := of_bind_eq_ok h
    exact ⟨tree, parsed, rules, resolved, of_mapError_eq_ok hparse, of_mapError_eq_ok hrules⟩

/-- A compilation that gives the value, from its first two stages and the compilation of the
    rules. -/
theorem exists_compile {β : Type} {f : Compiled → β} {b : β}
    (hfront : ((Source.parse source o.nestingLimit).toOption.bind fun x =>
      (Rules.ofDocument catalog x.1.document).toOption.map fun y => (y.1, x.2, y.2)) =
        some (rules, [], []))
    (hrest : (rules.compile catalog o []).toOption.map f = some b) :
    ∃ tree c, Source.parse source o.nestingLimit = .ok (tree, []) ∧
      Rules.ofDocument catalog tree.document = .ok (rules, []) ∧
      compile source catalog o = .ok c ∧ f c = b := by
  obtain ⟨tree, hparse, hrules⟩ := exists_parse hfront
  obtain ⟨c, hc, hf⟩ := exists_eq_ok_of_map hrest
  exact ⟨tree, c, hparse, hrules, (compile_eq hparse rfl hrules).trans hc, hf⟩

/-- The stages of a compilation that succeeds. -/
theorem stages_of_compile (hparse : Source.parse source o.nestingLimit = .ok (tree, parsed))
    (hrules : Rules.ofDocument catalog tree.document = .ok (rules, resolved))
    (h : compile source catalog o = .ok c) :
    ∃ lowered built, c.Stages rules catalog o (parsed ++ resolved) lowered built := by
  rw [compile_eq hparse (anyError_of_compile hparse h) hrules] at h
  obtain ⟨⟨grammar, lowered⟩, hlower, h⟩ := of_bind_eq_ok h
  obtain ⟨⟨table, built⟩, htable, h⟩ := of_bind_eq_ok h
  obtain ⟨graph, hgraph, h⟩ := of_bind_eq_ok h
  obtain rfl := Except.ok.inj h
  obtain ⟨hrefs, hactions⟩ := Rules.ofDocument_scope hrules
  exact ⟨lowered, built, hrefs, hactions, of_mapError_eq_ok hlower, of_mapError_eq_ok htable,
    of_mapError_eq_ok hgraph, rfl, rfl, rfl⟩

end

/-- How states are made matters to the states alone. -/
theorem Rules.compile_states (rules : Rules) (catalog : Catalog) (o : CompileOptions)
    (diagnostics : List Diagnostic) (states : StateOptions) :
    rules.compile catalog { o with states } diagnostics =
      (rules.compile catalog o diagnostics).map fun c =>
        { c with states := c.merged.states catalog states } := by
  unfold Rules.compile
  dsimp only
  cases rules.lower catalog o.lowering with
  | error e => rfl
  | ok lowered =>
    cases htable : lowered.1.parseTable with
    | error e =>
      simp only [Except.mapError, bind, Except.bind, htable, Except.map]
    | ok table =>
      cases hgraph : table.1.graph catalog.terminals with
      | error e => simp only [Except.mapError, bind, Except.bind, htable, hgraph, Except.map]
      | ok graph =>
        simp only [Except.mapError, bind, Except.bind, htable, hgraph, Except.map, pure,
          Except.pure]

theorem compile_states (source : String) (catalog : Catalog) (o : CompileOptions)
    (states : StateOptions) :
    compile source catalog { o with states } =
      (compile source catalog o).map fun c =>
        { c with states := c.merged.states catalog states } := by
  rw [compile_front, compile_front]
  dsimp only
  cases Source.parse source o.nestingLimit with
  | error e => rfl
  | ok parsed =>
    cases hclean : Diagnostic.anyError parsed.2 with
    | true => simp only [Except.mapError, bind, Except.bind, hclean, if_true]; rfl
    | false =>
      cases hrules : Rules.ofDocument catalog parsed.1.document with
      | error e => simp only [Except.mapError, bind, Except.bind, hclean, hrules]; rfl
      | ok resolved =>
        simp only [Except.mapError, bind, Except.bind, hclean, hrules]
        exact Rules.compile_states _ catalog o _ states

end FluentGrammar
