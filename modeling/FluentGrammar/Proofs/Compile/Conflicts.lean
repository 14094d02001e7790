import FluentGrammar.Proofs.Automaton.RightLinear
import FluentGrammar.Proofs.Compile.Orderings
import FluentGrammar.Proofs.Lowering.Additions

/-
  Flattened rules compile without conflicts. The flattened grammar is right-linear, with one
  production for the end of a sentence. It has a table, which shifts on actions and does nothing
  else with them, and the table has a graph. So when the rules of a source can be flattened, what
  compilation reports as a failure comes from the source or from the rules, never from the table
  (`Rules.flatten_shifts`).
-/

namespace FluentGrammar

open Report

/-- A failure that the parse table gives rise to. -/
def CompileError.OfTable : CompileError → Prop
  | conflict _ | endlessReduction .. => True
  | nestingTooDeep | malformedSource _ | undefinedSymbol .. | invalidGrammar _ => False

theorem CompileError.ofTable_after {earlier : List Diagnostic} {e : CompileError} :
    (e.after earlier).OfTable ↔ e.OfTable := by
  cases e <;> rfl

namespace Rules

variable {rules : Rules} {catalog : Catalog} {g : Grammar} {ds : List Diagnostic}
  {e : CompileError}

/-! ## Failures of the stages before the table -/

theorem not_ofTable_of_lower {lowering : Lowering} (h : rules.lower catalog lowering = .error e) :
    ¬e.OfTable := by
  unfold lower at h
  dsimp only at h
  split at h
  · obtain rfl := Except.error.inj h
    exact id
  · split at h
    · obtain rfl := Except.error.inj h
      exact id
    · cases lowering with
      | direct => cases h
      | flatten =>
        dsimp only at h
        split at h <;> cases h

/-! ## Flattened rules -/

/-- Rules that can be flattened exist. -/
theorem lt_size_of_flatten (h : rules.flatten catalog = .ok g) : 0 < rules.size := by
  by_contra hsize
  obtain hzero : rules.size = 0 := by omega
  rw [flatten, hzero] at h
  cases h

theorem rightLinear_of_flatten (hrefs : rules.RefsInRange) (h : rules.flatten catalog = .ok g) :
    ∀ p ∈ g.productions, p.RightLinear := by
  obtain ⟨-, more, hmore, hall⟩ :=
    Flatten.productions_of_flatten hrefs (lt_size_of_flatten h) h
  intro p hp
  rw [hmore] at hp
  rcases List.mem_cons.1 hp with rfl | hp
  · exact .inl rfl
  · exact .inr (hall p hp).2

/-- Where flattening succeeds, lowering gives the flattened grammar if it gives any. -/
theorem eq_of_lower_flatten {g' : Grammar}
    (hflat : rules.withoutLeftRecursion.1.flatten catalog = .ok g)
    (h : rules.lower catalog .flatten = .ok (g', ds)) : g' = g := by
  unfold lower at h
  dsimp only at h
  split at h
  · cases h
  · split at h
    · cases h
    · rw [hflat] at h
      exact (Prod.mk.inj (Except.ok.inj h)).1.symm

/-- When the rules are flattened, nothing fails from the table on. -/
theorem not_ofTable_of_compile {o : CompileOptions} {earlier : List Diagnostic}
    (hflatten : o.lowering = .flatten)
    (hflat : rules.withoutLeftRecursion.1.flatten catalog = .ok g)
    (htable : ∃ table ds, g.parseTable = .ok (table, ds) ∧
      ∃ graph, table.graph catalog.terminals = .ok graph)
    (h : rules.compile catalog o earlier = .error e) : ¬e.OfTable := by
  obtain ⟨table, built, htable, graph, hgraph⟩ := htable
  obtain hfail | ⟨⟨g', lowered⟩, hlower, h⟩ := of_bind_eq_error h
  · obtain ⟨e', hlower, rfl⟩ := of_mapError_eq_error hfail
    rw [CompileError.ofTable_after]
    exact not_ofTable_of_lower hlower
  · obtain rfl := eq_of_lower_flatten hflat (hflatten ▸ of_mapError_eq_ok hlower)
    dsimp only at h
    rw [htable] at h
    simp only [Except.mapError, bind, Except.bind, hgraph] at h
    cases h

/-- The compilation of a source whose rules can be flattened does not fail by a table. -/
theorem not_ofTable_of_compile_source {source : String} {o : CompileOptions} {tree : Source.Tree}
    {parsed resolved : List Diagnostic}
    (hparse : Source.parse source o.nestingLimit = .ok (tree, parsed))
    (hrules : ofDocument catalog tree.document = .ok (rules, resolved))
    (hrest : ∀ earlier e, rules.compile catalog o earlier = .error e → ¬e.OfTable)
    (h : FluentGrammar.compile source catalog o = .error e) : ¬e.OfTable := by
  cases hclean : Diagnostic.anyError parsed with
  | false =>
    rw [compile_eq hparse hclean hrules] at h
    exact hrest _ e h
  | true =>
    rw [compile_front, hparse] at h
    simp only [Except.mapError, bind, Except.bind, hclean, if_true] at h
    obtain rfl := Except.error.inj h
    exact id

/-- Rules that can be flattened give a grammar whose productions are a nonterminal behind at most
    one action, and one production of the final continuation for nothing. The grammar has a table,
    which reduces and accepts on the end of input only, and the table has a graph over the actions.
    So compiling a source with these rules never fails by a conflict or by reductions without
    end. -/
theorem flatten_shifts (hrefs : rules.RefsInRange) (hactions : ∀ t ∈ rules.actions, t < catalog.size)
    (hok : rules.flatten catalog = .ok g) :
    ((g.nonterminal 0).name = Flatten.finishName ∧
      ∃ more, g.productions = ⟨0, [], (rules.rule start).span⟩ :: more ∧
        ∀ p ∈ more, p.lhs ≠ 0 ∧ ∃ m, p.rhs = [.nonterminal m] ∨
          ∃ t, p.rhs = [.terminal t, .nonterminal m]) ∧
    (∃ table ds, g.parseTable = .ok (table, ds) ∧
      (∀ n t, t ≠ catalog.endTerminal →
        table.action n t = .error ∨ ∃ m, table.action n t = .shift m) ∧
      ∃ graph, table.graph catalog.terminals = .ok graph) ∧
    ∀ source o tree parsed (given : Rules) resolved, o.lowering = .flatten →
      given.withoutLeftRecursion.1 = rules →
      Source.parse source o.nestingLimit = .ok (tree, parsed) →
      ofDocument catalog tree.document = .ok (given, resolved) →
      (∀ ds, FluentGrammar.compile source catalog o ≠ .error (.conflict ds)) ∧
        ∀ n t b, FluentGrammar.compile source catalog o ≠ .error (.endlessReduction n t b) := by
  have hsize := lt_size_of_flatten hok
  obtain ⟨hname, more, hmore, hall⟩ := Flatten.productions_of_flatten hrefs hsize hok
  obtain ⟨D, ht⟩ := Flatten.flatten_translates hrefs hsize hok
  have hg := ht.wellFormed hactions
  have hlinear := rightLinear_of_flatten hrefs hok
  have hend : g.endTerminal = catalog.endTerminal := Grammar.endTerminal_eq_size ht.terminals
  obtain ⟨table, ds, htable⟩ := Analysis.exists_parseTable_of_rightLinear hg hlinear
  have hcolumns : ∀ n t, t ≠ catalog.endTerminal →
      table.action n t = .error ∨ ∃ m, table.action n t = .shift m := by
    intro n t hne
    rw [← hend] at hne
    exact (Analysis.builds_of_parseTable htable).action_of_rightLinear hg hlinear hne
  have hgraph : ∃ graph, table.graph catalog.terminals = .ok graph := by
    refine ParseTable.exists_graph_of_columns fun n t hmem => hcolumns n t ?_
    exact Nat.ne_of_lt (List.mem_range.1 hmem)
  refine ⟨⟨hname, more, hmore, fun p hp => ⟨(hall p hp).1, ?_⟩⟩,
    ⟨table, ds, htable, hcolumns, hgraph⟩, ?_⟩
  · obtain ⟨-, a, m, hside⟩ := hall p hp
    cases a with
    | none => exact ⟨m, .inl hside⟩
    | some t => exact ⟨m, .inr ⟨t, hside⟩⟩
  · intro source o tree parsed given resolved hflatten hgiven hparse hrules
    have hnot : ∀ e, FluentGrammar.compile source catalog o = .error e → ¬e.OfTable := by
      intro e
      refine not_ofTable_of_compile_source hparse hrules fun earlier e => ?_
      exact not_ofTable_of_compile hflatten (hgiven ▸ hok) ⟨table, ds, htable, hgraph⟩
    exact ⟨fun ds h => hnot _ h trivial, fun n t b h => hnot _ h trivial⟩

/-- Repetitions in a repetition, and two rules that only refer to each other,
    `s : (X*)* | T t ; t : u ; u : t ;`. -/
def circular : Rules :=
  ⟨[⟨"s", default, .alt [.repeated (.repeated (.terminal 0) .zeroOrMore) .zeroOrMore,
      .seq [.terminal 1, .rule 1]]⟩,
    ⟨"t", default, .rule 2⟩, ⟨"u", default, .rule 1⟩]⟩

theorem exists_flatten_circular_shifts : ∃ g, circular.flatten twoActions = .ok g ∧
    ∃ table ds, g.parseTable = .ok (table, ds) ∧
      (∀ n t, t ≠ twoActions.endTerminal →
        table.action n t = .error ∨ ∃ m, table.action n t = .shift m) ∧
      ∃ graph, table.graph twoActions.terminals = .ok graph := by
  obtain ⟨g, hg⟩ := exists_eq_ok
    (show (circular.flatten twoActions).toOption.isSome = true by decide +kernel)
  obtain ⟨-, htable, -⟩ := flatten_shifts (by decide) (by decide) hg
  exact ⟨g, hg, htable⟩

end Rules

end FluentGrammar
