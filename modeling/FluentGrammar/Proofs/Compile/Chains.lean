import FluentGrammar.Proofs.Automaton.Drift
import FluentGrammar.Proofs.Compile.Conflicts

/-
  When chains of reductions end. Flattened rules have no such chains on actions. Rules lowered
  directly do, and a chain only goes on without end when it comes to a loop of nonterminals of
  which one derives nothing at all, or of which all derive the empty sequence. The latter takes a
  conflict at the end of input, so a table with nothing to report has a graph when all nonterminals
  that productions lead to derive something (`Rules.lower_settles`). Neither condition can be left
  out (`exists_compile_endless`, `exists_compile_endless_warned`).
-/

namespace FluentGrammar

open Report Analysis

namespace Analysis.Builds

variable {g : Grammar} {table : ParseTable} {ds : List Diagnostic} {e : EndlessChain}
  {terminals : List TerminalId}

/-- A chain on an action that does not end comes to a loop in which some nonterminal derives
    nothing at all, or all nonterminals derive the empty sequence. -/
theorem exists_loop_of_error (hg : g.WellFormed) (h : (ofGrammar g).Builds g table ds)
    (hactions : ∀ t ∈ terminals, t < g.endTerminal) (herror : table.graph terminals = .error e) :
    ∃ ls n loop, table.Chain e.terminal e.state ls n ∧ table.Chain e.terminal n loop n ∧
      loop ≠ [] ∧ ((∃ l ∈ loop, ∀ w, ¬g.Derives [.nonterminal l] w) ∨
        ∀ l ∈ loop, g.Derives [.nonterminal l] []) := by
  obtain ⟨hterminal, -, -⟩ := ParseTable.follow_of_error herror
  obtain ⟨ls, n, loop, hchain, hloop, hne⟩ := ParseTable.exists_loop_of_error herror
  refine ⟨ls, n, loop, hchain, hloop, hne, ?_⟩
  by_cases hsome : ∀ l ∈ loop, ∃ w, g.Derives [.nonterminal l] w
  · exact .inr (h.derives_nil_of_loop hg (hactions _ hterminal) hloop hsome)
  · push Not at hsome
    exact .inl hsome

/-- A table with nothing to report has a graph, when the nonterminals that productions lead to
    derive something. -/
theorem exists_graph (hg : g.WellFormed) (h : (ofGrammar g).Builds g table [])
    (hactions : ∀ t ∈ terminals, t < g.endTerminal)
    (hsome : ∀ l, g.Reached l → ∃ w, g.Derives [.nonterminal l] w) :
    ∃ graph, table.graph terminals = .ok graph := by
  cases hgraph : table.graph terminals with
  | ok graph => exact ⟨graph, rfl⟩
  | error e =>
    obtain ⟨ls, n, loop, -, hloop, hne, hcases⟩ := h.exists_loop_of_error hg hactions hgraph
    obtain ⟨l, hl, hnone⟩ | hempty := hcases
    · obtain ⟨w, hw⟩ := hsome l (h.reached_of_loop hg hsome hloop l hl)
      exact absurd hw (hnone w)
    · exact absurd (h.eq_nil_of_loop hg hsome hloop hempty) hne

end Analysis.Builds

namespace Rules

variable {rules : Rules} {catalog : Catalog} {document : Source.Document} {lowering : Lowering}
  {resolved lowered built : List Diagnostic} {g : Grammar} {table : ParseTable}

/-- Where a grammar and a table are given, only a missing graph is reported as reductions without
    end. -/
theorem error_of_compile {o : CompileOptions} {earlier : List Diagnostic}
    (hlower : rules.lower catalog o.lowering = .ok (g, lowered))
    (htable : g.parseTable = .ok (table, built)) {n b : Nat} {t : String}
    (h : rules.compile catalog o earlier = .error (.endlessReduction n t b)) :
    ∃ e, table.graph catalog.terminals = .error e ∧ n = e.state ∧
      t = g.terminalName e.terminal ∧ b = e.bound := by
  unfold Rules.compile at h
  rw [hlower] at h
  simp only [Except.mapError, bind, Except.bind, htable] at h
  cases hgraph : table.graph catalog.terminals with
  | ok graph =>
    rw [hgraph] at h
    cases h
  | error e =>
    rw [hgraph] at h
    obtain ⟨rfl, rfl, rfl⟩ := CompileError.endlessReduction.inj (Except.error.inj h)
    exact ⟨e, rfl, rfl, rfl, rfl⟩

/-- When the rules of a source are lowered and the grammar has a table, its graph over the actions
    of the catalog exists in two cases: nothing is reported on the table and all nonterminals that
    productions lead to derive something, or the rules are flattened. In general it is missing only
    where a chain of reductions comes to a loop of nonterminals of which one derives nothing at all
    or all derive the empty sequence. Compiling the source fails by reductions without end only
    when the graph is missing. -/
theorem lower_settles (hrules : ofDocument catalog document = .ok (rules, resolved))
    (hlower : rules.lower catalog lowering = .ok (g, lowered))
    (htable : g.parseTable = .ok (table, built)) :
    (built = [] → (∀ l, g.Reached l → ∃ w, g.Derives [.nonterminal l] w) →
        ∃ graph, table.graph catalog.terminals = .ok graph) ∧
      (lowering = .flatten → (∀ d ∈ lowered, d.kind ≠ .nonRegularGrammar) →
        ∃ graph, table.graph catalog.terminals = .ok graph) ∧
      (∀ e, table.graph catalog.terminals = .error e → ∃ ls n loop,
        table.Chain e.terminal e.state ls n ∧ table.Chain e.terminal n loop n ∧ loop ≠ [] ∧
          ((∃ l ∈ loop, ∀ w, ¬g.Derives [.nonterminal l] w) ∨
            ∀ l ∈ loop, g.Derives [.nonterminal l] [])) ∧
      ∀ source o tree parsed, Source.parse source o.nestingLimit = .ok (tree, parsed) →
        tree.document = document → o.lowering = lowering → ∀ n t b,
          FluentGrammar.compile source catalog o = .error (.endlessReduction n t b) →
            ∃ e, table.graph catalog.terminals = .error e ∧ n = e.state ∧
              t = g.terminalName e.terminal ∧ b = e.bound := by
  obtain ⟨hrefs, hscope⟩ := ofDocument_scope hrules
  have hg := lower_wellFormed hrefs hscope hlower
  have h := builds_of_parseTable htable
  have hactions : ∀ t ∈ catalog.terminals, t < g.endTerminal := by
    intro t ht
    rw [lower_endTerminal hrefs hlower]
    exact List.mem_range.1 ht
  refine ⟨?_, ?_, fun e herror => h.exists_loop_of_error hg hactions herror, ?_⟩
  · rintro rfl hsome
    exact h.exists_graph hg hactions hsome
  · rintro rfl hregular
    have hlinear := lower_rightLinear hrefs hlower hregular
    refine ParseTable.exists_graph_of_columns fun n a ha => ?_
    exact h.action_of_rightLinear hg hlinear (Nat.ne_of_lt (hactions a ha))
  · rintro source o tree parsed hparse rfl rfl n t b hcompile
    cases hclean : Diagnostic.anyError parsed with
    | true =>
      rw [compile_front, hparse] at hcompile
      simp only [Except.mapError, bind, Except.bind, hclean, if_true] at hcompile
      cases hcompile
    | false =>
      rw [compile_eq hparse hclean hrules] at hcompile
      exact error_of_compile hlower htable hcompile

/-- The sides of the productions of `Rules.nested`, lowered directly. -/
def nestedSides : List (NonterminalId × List Symbol) :=
  [(0, [.nonterminal 1, .terminal 1]),
    (0, [.terminal 0, .nonterminal 1, .terminal 1, .terminal 0]), (1, [.terminal 0])]

theorem lower_nested : ∃ g table, nested.lower twoActions .direct = .ok (g, []) ∧
    g.parseTable = .ok (table, []) ∧ g.start = 0 ∧
    g.productions.map (fun p => (p.lhs, p.rhs)) = nestedSides := by
  obtain ⟨⟨g, lowered⟩, hlower, hg⟩ := exists_eq_ok_of_map
    (show (nested.lower twoActions .direct).toOption.map (fun x =>
      (x.2.isEmpty && x.1.start == 0 && x.1.parseTable.toOption.map (·.2.isEmpty) == some true,
        x.1.productions.map fun p => (p.lhs, p.rhs))) = some (true, nestedSides)
      by with_unfolding_all rfl)
  simp only [Prod.mk.injEq, Bool.and_eq_true, List.isEmpty_iff, beq_iff_eq] at hg
  obtain ⟨⟨⟨rfl, hstart⟩, htable⟩, hsides⟩ := hg
  obtain ⟨⟨table, built⟩, htable, hbuilt⟩ := exists_eq_ok_of_map htable
  obtain rfl := List.isEmpty_iff.1 hbuilt
  exact ⟨g, table, hlower, htable, hstart, hsides⟩

/-- With these sides, the nonterminals that productions lead to derive something. -/
theorem exists_derives_of_nestedSides {g : Grammar} (hstart : g.start = 0)
    (hsides : g.productions.map (fun p => (p.lhs, p.rhs)) = nestedSides) {l : NonterminalId}
    (hl : g.Reached l) : ∃ w, g.Derives [.nonterminal l] w := by
  have derives {l α w} (hside : (l, α) ∈ nestedSides) (hw : g.Derives α w) :
      g.Derives [.nonterminal l] w := by
    rw [← hsides] at hside
    obtain ⟨q, hq, heq⟩ := List.mem_map.1 hside
    obtain ⟨rfl, rfl⟩ := Prod.mk.inj heq
    exact Grammar.derives_nonterminal_iff.2 ⟨q, hq, rfl, hw⟩
  have hone : g.Derives [.nonterminal 1] [0] :=
    derives (α := [.terminal 0]) (by simp [nestedSides]) (.terminal .nil)
  cases hl with
  | refl =>
    rw [hstart]
    exact ⟨_, derives (α := [.nonterminal 1, .terminal 1]) (by simp [nestedSides])
      (hone.append (.terminal .nil))⟩
  | tail _ hstep =>
    obtain ⟨q, hq, -, hmem⟩ := hstep
    have hside : (q.lhs, q.rhs) ∈ nestedSides :=
      hsides ▸ List.mem_map_of_mem (f := fun p : Production => (p.lhs, p.rhs)) hq
    have hright : ∀ side ∈ nestedSides, ∀ l, .nonterminal l ∈ side.2 → l = 1 := by
      simp [nestedSides]
    obtain rfl := hright _ hside l hmem
    exact ⟨_, hone⟩

theorem exists_nested_settles : ∃ tree g table graph,
    Source.parse "s : n T | X n T X ; n : X ;" Source.defaultNestingLimit = .ok (tree, []) ∧
      ofDocument twoActions tree.document = .ok (nested, []) ∧
      nested.lower twoActions .direct = .ok (g, []) ∧ g.parseTable = .ok (table, []) ∧
      (∀ l, g.Reached l → ∃ w, g.Derives [.nonterminal l] w) ∧
      table.graph twoActions.terminals = .ok graph := by
  obtain ⟨tree, hparse, hrules⟩ := exists_parse front_nested
  obtain ⟨g, table, hlower, htable, hstart, hsides⟩ := lower_nested
  have hsome := fun l => exists_derives_of_nestedSides (l := l) hstart hsides
  obtain ⟨hsettles, -⟩ := lower_settles hrules hlower htable
  obtain ⟨graph, hgraph⟩ := hsettles rfl hsome
  exact ⟨tree, g, table, graph, hparse, hrules, hlower, htable, hsome, hgraph⟩

end Rules

/-! ## Chains without end -/

/-- The chain that a graph is missing for. -/
def ParseTable.endless? (t : ParseTable) (terminals : List TerminalId) : Option EndlessChain :=
  match t.graph terminals with
  | .error e => some e
  | .ok _ => none

theorem ParseTable.endless?_eq_some {t : ParseTable} {terminals : List TerminalId}
    {e : EndlessChain} (h : t.endless? terminals = some e) : t.graph terminals = .error e := by
  unfold endless? at h
  split at h
  · next e' he =>
    obtain rfl := Option.some.inj h
    exact he
  · cases h

/-- A source whose rules, lowered directly, have a table with a chain without end. -/
theorem exists_endless {source : String} {rules : Rules} (e : EndlessChain) (name : String)
    (quiet : Bool)
    (hfront : ((Source.parse source Source.defaultNestingLimit).toOption.bind fun x =>
      (Rules.ofDocument Rules.twoActions x.1.document).toOption.map fun y => (y.1, x.2, y.2)) =
        some (rules, [], []))
    (hrest : (rules.lower Rules.twoActions .direct).toOption.map (fun x =>
      (x.2.isEmpty && x.1.terminalName e.terminal == name, x.1.parseTable.toOption.map fun y =>
        (y.2.isEmpty, y.1.endless? Rules.twoActions.terminals))) =
        some (true, some (quiet, some e))) :
    ∃ tree g table built, Source.parse source Source.defaultNestingLimit = .ok (tree, []) ∧
      Rules.ofDocument Rules.twoActions tree.document = .ok (rules, []) ∧
      rules.lower Rules.twoActions .direct = .ok (g, []) ∧
      g.parseTable = .ok (table, built) ∧ built.isEmpty = quiet ∧
      table.graph Rules.twoActions.terminals = .error e ∧
      compile source Rules.twoActions { lowering := .direct } =
        .error (.endlessReduction e.state name e.bound) := by
  obtain ⟨tree, hparse, hrules⟩ := exists_parse hfront
  obtain ⟨⟨g, lowered⟩, hlower, hg⟩ := exists_eq_ok_of_map hrest
  simp only [Prod.mk.injEq, Bool.and_eq_true, List.isEmpty_iff, beq_iff_eq] at hg
  obtain ⟨⟨rfl, rfl⟩, htable⟩ := hg
  obtain ⟨⟨table, built⟩, htable, heq⟩ := exists_eq_ok_of_map htable
  obtain ⟨hquiet, hendless⟩ := Prod.mk.inj heq
  have hgraph := ParseTable.endless?_eq_some hendless
  refine ⟨tree, g, table, built, hparse, hrules, hlower, htable, hquiet, hgraph, ?_⟩
  rw [compile_eq (o := { lowering := .direct }) hparse rfl hrules]
  unfold Rules.compile
  simp only [hlower, htable, hgraph, Except.mapError, bind, Except.bind]

/-- What `s : a T | X ; a : b a b ; b : a b a ;` means over two actions. Two of its rules derive
    nothing. -/
def Rules.entangled : Rules :=
  ⟨[⟨"s", ⟨0, 1⟩, .alt [.seq [.rule 1, .terminal 1], .terminal 0]⟩,
    ⟨"a", ⟨14, 15⟩, .seq [.rule 2, .rule 1, .rule 2]⟩,
    ⟨"b", ⟨26, 27⟩, .seq [.rule 1, .rule 2, .rule 1]⟩]⟩

set_option maxRecDepth 100000 in
theorem front_entangled :
    ((Source.parse "s : a T | X ; a : b a b ; b : a b a ;" Source.defaultNestingLimit).toOption.bind
      fun x => (Rules.ofDocument Rules.twoActions x.1.document).toOption.map fun y =>
        (y.1, x.2, y.2)) = some (Rules.entangled, [], []) := by
  cbv

set_option maxRecDepth 100000 in
/-- Behind rules that derive nothing a chain of reductions on `T` does not end, although there is
    nothing to report on the table. -/
theorem exists_compile_endless : ∃ tree g table,
    Source.parse "s : a T | X ; a : b a b ; b : a b a ;" Source.defaultNestingLimit =
        .ok (tree, []) ∧
      Rules.ofDocument Rules.twoActions tree.document = .ok (Rules.entangled, []) ∧
      Rules.entangled.lower Rules.twoActions .direct = .ok (g, []) ∧
      g.parseTable = .ok (table, []) ∧
      table.graph Rules.twoActions.terminals = .error ⟨9, 1, 11⟩ ∧
      compile "s : a T | X ; a : b a b ; b : a b a ;" Rules.twoActions { lowering := .direct } =
        .error (.endlessReduction 9 "T" 11) := by
  obtain ⟨tree, g, table, built, hparse, hrules, hlower, htable, hquiet, hgraph, hcompile⟩ :=
    exists_endless ⟨9, 1, 11⟩ "T" true front_entangled (by with_unfolding_all rfl)
  obtain rfl := List.isEmpty_iff.1 hquiet
  exact ⟨tree, g, table, hparse, hrules, hlower, htable, hgraph, hcompile⟩

/-- What `s : y | z T ; y : a b y | z ; z : a b b ; a : ; b : a ;` means over two actions. All of
    its rules derive something. -/
def Rules.stalled : Rules :=
  ⟨[⟨"s", ⟨0, 1⟩, .alt [.rule 1, .seq [.rule 2, .terminal 1]]⟩,
    ⟨"y", ⟨14, 15⟩, .alt [.seq [.rule 3, .rule 4, .rule 1], .rule 2]⟩,
    ⟨"z", ⟨30, 31⟩, .seq [.rule 3, .rule 4, .rule 4]⟩, ⟨"a", ⟨42, 43⟩, .empty⟩,
    ⟨"b", ⟨48, 49⟩, .rule 3⟩]⟩

set_option maxRecDepth 100000 in
theorem front_stalled :
    ((Source.parse "s : y | z T ; y : a b y | z ; z : a b b ; a : ; b : a ;"
      Source.defaultNestingLimit).toOption.bind fun x =>
        (Rules.ofDocument Rules.twoActions x.1.document).toOption.map fun y =>
          (y.1, x.2, y.2)) = some (Rules.stalled, [], []) := by
  cbv

theorem Rules.exists_stalled_sentence (r : RuleId) : ∃ w, Rules.stalled.Sentence r w := by
  have ha : (Expr.rule 3).Derives stalled [] := .rule .empty
  have hb : (Expr.rule 4).Derives stalled [] := .rule ha
  have hz : (Expr.rule 2).Derives stalled [] :=
    .rule (.seqCons ha (.seqCons hb (.seqCons hb .seqNil)))
  have hy : (Expr.rule 1).Derives stalled [] := .rule (.alt (b := .rule 2) (by simp) hz)
  have hs : (Expr.rule 0).Derives stalled [] := .rule (.alt (b := .rule 1) (by simp) hy)
  match r with
  | 0 => exact ⟨[], hs⟩
  | 1 => exact ⟨[], hy⟩
  | 2 => exact ⟨[], hz⟩
  | 3 => exact ⟨[], ha⟩
  | 4 => exact ⟨[], hb⟩
  | _ + 5 => exact ⟨[], .rule .empty⟩

/-- With conflicts at the end of input, which are warnings only, such a chain is also possible
    where all rules derive something. -/
theorem exists_compile_endless_warned : ∃ tree g table built,
    Source.parse "s : y | z T ; y : a b y | z ; z : a b b ; a : ; b : a ;"
        Source.defaultNestingLimit = .ok (tree, []) ∧
      Rules.ofDocument Rules.twoActions tree.document = .ok (Rules.stalled, []) ∧
      (∀ r, ∃ w, Rules.stalled.Sentence r w) ∧
      Rules.stalled.lower Rules.twoActions .direct = .ok (g, []) ∧
      g.parseTable = .ok (table, built) ∧ built ≠ [] ∧
      table.graph Rules.twoActions.terminals = .error ⟨7, 1, 12⟩ := by
  obtain ⟨tree, g, table, built, hparse, hrules, hlower, htable, hbuilt, hgraph, -⟩ :=
    exists_endless ⟨7, 1, 12⟩ "T" false front_stalled (by with_unfolding_all rfl)
  have hne : built ≠ [] := by
    rintro rfl
    cases hbuilt
  exact ⟨tree, g, table, built, hparse, hrules, Rules.exists_stalled_sentence, hlower, htable, hne,
    hgraph⟩

end FluentGrammar
