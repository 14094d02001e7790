import FluentGrammar.Proofs.Automaton.Table
import FluentGrammar.Proofs.Compile.Stages
import FluentGrammar.Proofs.Lowering.Lower
import Mathlib

/-
  What a compilation reports, by stages. Each stage is decided by its own diagnostics: it succeeds
  with warnings only, and fails with an error among them (`Decided`). A compilation that succeeds
  has the diagnostics of its stages one after the other. One that fails has those of the stages
  before the failing one in front of what that one reports itself (`compile_accumulates`), whichever
  stage it is (`FailsBehind`).
-/

namespace FluentGrammar

open Report

variable {source : String} {catalog : Catalog} {o : CompileOptions}
  {e failure : CompileError} {own ds : List Diagnostic} {reported : List (List Diagnostic)}

/-! ## The verdict of a stage -/

/-- A stage succeeds with warnings only, and fails with an error among its diagnostics. -/
inductive Decided {α : Type} : Except CompileError (α × List Diagnostic) → Prop
  | ok {a : α} {ds : List Diagnostic} (h : Diagnostic.anyError ds = false) : Decided (.ok (a, ds))
  | error {e : CompileError} {ds : List Diagnostic} (hds : e.diagnostics? = some ds)
      (h : Diagnostic.anyError ds = true) : Decided (.error e)

theorem Decided.of_ok {α : Type} {a : α} {stage : Except CompileError (α × List Diagnostic)}
    (h : Decided stage) (hok : stage = .ok (a, ds)) : Diagnostic.anyError ds = false := by
  subst hok
  cases h with
  | ok h => exact h

theorem Decided.of_error {α : Type} {stage : Except CompileError (α × List Diagnostic)}
    (h : Decided stage) (herror : stage = .error e) (hds : e.diagnostics? = some ds) :
    Diagnostic.anyError ds = true := by
  subst herror
  cases h with
  | error hds' h =>
    obtain rfl := Option.some.inj (hds'.symm.trans hds)
    exact h

theorem Diagnostic.anyError_of_mem {d : Diagnostic} (hd : d ∈ ds) (h : d.severity = .error) :
    Diagnostic.anyError ds = true :=
  List.any_eq_true.2 ⟨d, hd, beq_iff_eq.2 h⟩

theorem Diagnostic.exists_error (h : Diagnostic.anyError ds = true) :
    ∃ d ∈ ds, d.severity = .error := by
  obtain ⟨d, hd, herror⟩ := List.any_eq_true.1 h
  exact ⟨d, hd, beq_iff_eq.1 herror⟩

theorem Diagnostic.anyError_append (ds es : List Diagnostic) :
    Diagnostic.anyError (ds ++ es) = (Diagnostic.anyError ds || Diagnostic.anyError es) :=
  List.any_append

theorem Diagnostic.anyError_flatten {reported : List (List Diagnostic)}
    (h : ∀ ds ∈ reported, Diagnostic.anyError ds = false) :
    Diagnostic.anyError reported.flatten = false := by
  refine List.any_eq_false.2 fun d hd => ?_
  obtain ⟨ds, hds, hd⟩ := List.mem_flatten.1 hd
  exact List.any_eq_false.1 (h ds hds) d hd

/-- Resolving fails for a source without rules, a name without meaning or a repeated rule, and each
    of them is reported as an error. -/
theorem Rules.decided_ofDocument (catalog : Catalog) (d : Source.Document) :
    Decided (ofDocument catalog d) := by
  rw [ofDocument]
  dsimp only
  split
  · exact .error rfl (Diagnostic.anyError_of_mem List.mem_concat_self rfl)
  · split
    · next n rest hundefined =>
      refine .error rfl ?_
      rw [hundefined, Diagnostic.anyError_append, Diagnostic.anyError_append, Bool.or_assoc]
      exact Bool.or_inr rfl
    · split
      · next herror => exact .error rfl herror
      · next hclean => exact .ok (Bool.eq_false_of_not_eq_true hclean)

/-- Lowering fails for left recursion without a base and for a start rule that does not finish. That
    rules cannot be flattened is a warning. -/
theorem Rules.decided_lower (rules : Rules) (catalog : Catalog) (lowering : Lowering) :
    Decided (rules.lower catalog lowering) := by
  unfold lower
  dsimp only
  split
  · next herror => exact .error rfl herror
  · next hclean =>
    have hclean := Bool.eq_false_of_not_eq_true hclean
    split
    · exact .error rfl (Diagnostic.anyError_of_mem List.mem_concat_self rfl)
    · cases lowering with
      | direct => exact .ok hclean
      | flatten =>
        dsimp only
        split
        · exact .ok hclean
        · refine .ok ?_
          rw [Diagnostic.anyError_append, hclean]
          rfl

/-- A table is refused for a conflict on an action. -/
theorem Grammar.decided_parseTable (g : Grammar) : Decided g.parseTable := by
  obtain ⟨table, -, hparse⟩ := Analysis.exists_holds_contents g
  rw [hparse]
  split
  · next herror => exact .error rfl herror
  · next hclean => exact .ok (Bool.eq_false_of_not_eq_true hclean)

/-! ## The stage that fails -/

/-- A stage fails behind stages that succeed: the lists are what these report, one for each, and the
    failure is that of the stage alone. -/
inductive FailsBehind (source : String) (catalog : Catalog) (o : CompileOptions) :
    List (List Diagnostic) → CompileError → Prop
  | nesting {halt : Source.Halt} (hparse : Source.parse source o.nestingLimit = .error halt) :
    FailsBehind source catalog o [] .nestingTooDeep
  | parsing {tree : Source.Tree} {parsed : List Diagnostic}
    (hparse : Source.parse source o.nestingLimit = .ok (tree, parsed))
    (herror : Diagnostic.anyError parsed = true) :
    FailsBehind source catalog o [] (.malformedSource parsed)
  | resolving {tree : Source.Tree} {parsed : List Diagnostic} {e : CompileError}
    (hparse : Source.parse source o.nestingLimit = .ok (tree, parsed))
    (hclean : Diagnostic.anyError parsed = false)
    (hrules : Rules.ofDocument catalog tree.document = .error e) :
    FailsBehind source catalog o [parsed] e
  | lowering {tree : Source.Tree} {parsed resolved : List Diagnostic} {rules : Rules}
    {e : CompileError} (hparse : Source.parse source o.nestingLimit = .ok (tree, parsed))
    (hclean : Diagnostic.anyError parsed = false)
    (hrules : Rules.ofDocument catalog tree.document = .ok (rules, resolved))
    (hlower : rules.lower catalog o.lowering = .error e) :
    FailsBehind source catalog o [parsed, resolved] e
  | building {tree : Source.Tree} {parsed resolved lowered : List Diagnostic} {rules : Rules}
    {g : Grammar} {e : CompileError}
    (hparse : Source.parse source o.nestingLimit = .ok (tree, parsed))
    (hclean : Diagnostic.anyError parsed = false)
    (hrules : Rules.ofDocument catalog tree.document = .ok (rules, resolved))
    (hlower : rules.lower catalog o.lowering = .ok (g, lowered))
    (htable : g.parseTable = .error e) :
    FailsBehind source catalog o [parsed, resolved, lowered] e
  | following {tree : Source.Tree} {parsed resolved lowered built : List Diagnostic}
    {rules : Rules} {g : Grammar} {table : ParseTable} {e : EndlessChain}
    (hparse : Source.parse source o.nestingLimit = .ok (tree, parsed))
    (hclean : Diagnostic.anyError parsed = false)
    (hrules : Rules.ofDocument catalog tree.document = .ok (rules, resolved))
    (hlower : rules.lower catalog o.lowering = .ok (g, lowered))
    (htable : g.parseTable = .ok (table, built))
    (hgraph : table.graph catalog.terminals = .error e) :
    FailsBehind source catalog o [parsed, resolved, lowered, built]
      (.endlessReduction e.state (g.terminalName e.terminal) e.bound)

/-- The stages before the one that fails report no errors. -/
theorem FailsBehind.clean (h : FailsBehind source catalog o reported failure) :
    ∀ ds ∈ reported, Diagnostic.anyError ds = false := by
  have hresolved {d : Source.Document} {rules : Rules} {ds : List Diagnostic}
      (hrules : Rules.ofDocument catalog d = .ok (rules, ds)) : Diagnostic.anyError ds = false :=
    (Rules.decided_ofDocument _ _).of_ok hrules
  have hlowered {rules : Rules} {g : Grammar} {ds : List Diagnostic}
      (hlower : rules.lower catalog o.lowering = .ok (g, ds)) : Diagnostic.anyError ds = false :=
    (rules.decided_lower _ _).of_ok hlower
  cases h with
  | nesting _ | parsing _ _ => exact List.forall_mem_nil _
  | resolving _ hclean _ => simp [hclean]
  | lowering _ hclean hrules _ => simp [hclean, hresolved hrules]
  | building _ hclean hrules hlower _ => simp [hclean, hresolved hrules, hlowered hlower]
  | following _ hclean hrules hlower htable _ =>
    simp [hclean, hresolved hrules, hlowered hlower, (Grammar.decided_parseTable _).of_ok htable]

/-- The stage that fails has an error among its diagnostics, if it has any. -/
theorem FailsBehind.anyError (h : FailsBehind source catalog o reported failure)
    (hown : failure.diagnostics? = some own) : Diagnostic.anyError own = true := by
  cases h with
  | nesting _ | following _ _ _ _ _ _ => cases hown
  | parsing _ herror =>
    obtain rfl := Option.some.inj hown
    exact herror
  | resolving _ _ hrules => exact (Rules.decided_ofDocument _ _).of_error hrules hown
  | lowering _ _ _ hlower => exact (Rules.decided_lower _ _ _).of_error hlower hown
  | building _ _ _ _ htable => exact (Grammar.decided_parseTable _).of_error htable hown

/-- A compilation fails in one of its stages, with the diagnostics of the stages before. -/
theorem compile_eq_error_iff : compile source catalog o = .error e ↔
    ∃ reported failure, FailsBehind source catalog o reported failure ∧
      e = failure.after reported.flatten := by
  constructor
  · intro h
    rw [compile_front] at h
    obtain hfail | ⟨⟨tree, parsed⟩, hparse, h⟩ := of_bind_eq_error h
    · obtain ⟨halt, hparse, rfl⟩ := of_mapError_eq_error hfail
      exact ⟨_, _, .nesting hparse, rfl⟩
    have hparse := of_mapError_eq_ok hparse
    cases hclean : Diagnostic.anyError parsed with
    | true =>
      simp only [hclean, if_true] at h
      obtain rfl := Except.error.inj h
      exact ⟨_, _, .parsing hparse hclean, rfl⟩
    | false =>
      simp only [hclean] at h
      obtain hfail | ⟨⟨rules, resolved⟩, hrules, h⟩ := of_bind_eq_error h
      · obtain ⟨failure, hrules, rfl⟩ := of_mapError_eq_error hfail
        exact ⟨_, _, .resolving hparse hclean hrules, by simp⟩
      have hrules := of_mapError_eq_ok hrules
      obtain hfail | ⟨⟨g, lowered⟩, hlower, h⟩ := of_bind_eq_error h
      · obtain ⟨failure, hlower, rfl⟩ := of_mapError_eq_error hfail
        exact ⟨_, _, .lowering hparse hclean hrules hlower, by simp⟩
      have hlower := of_mapError_eq_ok hlower
      obtain hfail | ⟨⟨table, built⟩, htable, h⟩ := of_bind_eq_error h
      · obtain ⟨failure, htable, rfl⟩ := of_mapError_eq_error hfail
        exact ⟨_, _, .building hparse hclean hrules hlower htable, by simp⟩
      have htable := of_mapError_eq_ok htable
      obtain hfail | ⟨graph, hgraph, h⟩ := of_bind_eq_error h
      · obtain ⟨chain, hgraph, rfl⟩ := of_mapError_eq_error hfail
        exact ⟨_, _, .following hparse hclean hrules hlower htable hgraph, rfl⟩
      cases h
  · rintro ⟨reported, failure, h, rfl⟩
    cases h with
    | nesting hparse =>
      rw [compile_front, hparse]
      rfl
    | parsing hparse herror =>
      rw [compile_front, hparse]
      simp only [Except.mapError, bind, Except.bind, herror, if_true]
      rfl
    | resolving hparse hclean hrules =>
      rw [compile_front, hparse]
      simp [Except.mapError, bind, Except.bind, hclean, hrules]
    | lowering hparse hclean hrules hlower =>
      rw [compile_eq hparse hclean hrules, Rules.compile]
      simp [Except.mapError, bind, Except.bind, hlower]
    | building hparse hclean hrules hlower htable =>
      rw [compile_eq hparse hclean hrules, Rules.compile]
      simp [Except.mapError, bind, Except.bind, hlower, htable]
    | following hparse hclean hrules hlower htable hgraph =>
      rw [compile_eq hparse hclean hrules, Rules.compile]
      simp only [Except.mapError, bind, Except.bind, hlower, htable, hgraph]
      rfl

/-- A compilation that succeeds has the diagnostics of its stages in their order, all of them
    warnings. One that fails does so in one of its stages, and if it carries diagnostics, they are
    those of the stages before, all of them warnings, and behind them those of the stage that fails,
    with an error among them. -/
theorem compile_accumulates (source : String) (catalog : Catalog) (o : CompileOptions) :
    (∀ c, compile source catalog o = .ok c → ∃ tree parsed rules resolved lowered built,
      Source.parse source o.nestingLimit = .ok (tree, parsed) ∧
      Rules.ofDocument catalog tree.document = .ok (rules, resolved) ∧
      rules.lower catalog o.lowering = .ok (c.grammar, lowered) ∧
      c.grammar.parseTable = .ok (c.table, built) ∧
      c.diagnostics = parsed ++ resolved ++ lowered ++ built ∧
      ∀ d ∈ c.diagnostics, d.severity = .warning) ∧
    (∀ e, compile source catalog o = .error e ↔ ∃ reported failure,
      FailsBehind source catalog o reported failure ∧ e = failure.after reported.flatten) ∧
    ∀ e ds, compile source catalog o = .error e → e.diagnostics? = some ds →
      ∃ reported failure own, FailsBehind source catalog o reported failure ∧
        failure.diagnostics? = some own ∧ ds = reported.flatten ++ own ∧
        (∀ d ∈ reported.flatten, d.severity = .warning) ∧ ∃ d ∈ own, d.severity = .error := by
  refine ⟨fun c hcompile => ?_, fun e => compile_eq_error_iff, fun e ds hcompile hds => ?_⟩
  · obtain ⟨tree, parsed, rules, resolved, hparse, hrules⟩ := exists_rules_of_compile hcompile
    obtain ⟨lowered, built, h⟩ := stages_of_compile hparse hrules hcompile
    refine ⟨tree, parsed, rules, resolved, lowered, built, hparse, hrules, h.grammar, h.table,
      h.diagnostics, Analysis.warning_of_not_anyError ?_⟩
    rw [h.diagnostics, Diagnostic.anyError_append, Diagnostic.anyError_append,
      Diagnostic.anyError_append, anyError_of_compile hparse hcompile,
      (Rules.decided_ofDocument _ _).of_ok hrules, (Rules.decided_lower _ _ _).of_ok h.grammar,
      (Grammar.decided_parseTable _).of_ok h.table]
    rfl
  · obtain ⟨reported, failure, h, rfl⟩ := compile_eq_error_iff.1 hcompile
    rw [CompileError.diagnostics?_after] at hds
    obtain ⟨own, hown, rfl⟩ := Option.map_eq_some_iff.1 hds
    exact ⟨reported, failure, own, h, hown, rfl,
      Analysis.warning_of_not_anyError (Diagnostic.anyError_flatten h.clean),
      Diagnostic.exists_error (h.anyError hown)⟩

/-- What `s : X s X | X ; u : T ;` means over two actions. Its rules cannot be flattened and have no
    table, and one of them is not used. -/
def Rules.mirrored : Rules :=
  ⟨[⟨"s", ⟨0, 1⟩, .alt [.seq [.terminal 0, .rule 0, .terminal 0], .terminal 0]⟩,
    ⟨"u", ⟨16, 17⟩, .terminal 1⟩]⟩

set_option maxRecDepth 100000 in
theorem front_mirrored :
    ((Source.parse "s : X s X | X ; u : T ;" Source.defaultNestingLimit).toOption.bind fun x =>
      (Rules.ofDocument Rules.twoActions x.1.document).toOption.map fun y => (y.1, x.2, y.2)) =
        some (Rules.mirrored, [], [Diagnostic.about .unusedRule ⟨16, 17⟩ "u"]) := by
  cbv

/-- The failing stage is the table. The warnings of resolving and of lowering stand in front of its
    error. -/
theorem exists_compile_accumulated : ∃ e ds,
    compile "s : X s X | X ; u : T ;" Rules.twoActions {} = .error e ∧ e.diagnostics? = some ds ∧
      ds.map (·.kind) = [.unusedRule, .nonRegularGrammar, .grammarConflict] ∧
      ∃ reported failure own,
        FailsBehind "s : X s X | X ; u : T ;" Rules.twoActions {} reported failure ∧
        failure.diagnostics? = some own ∧ ds = reported.flatten ++ own ∧
        (∀ d ∈ reported.flatten, d.severity = .warning) ∧ ∃ d ∈ own, d.severity = .error := by
  obtain ⟨tree, hparse, hrules⟩ := exists_parse front_mirrored
  have hcompile := compile_eq (o := {}) hparse rfl hrules
  have hkinds : ((Rules.mirrored.compile Rules.twoActions {}
      ([] ++ [Diagnostic.about .unusedRule ⟨16, 17⟩ "u"])).mapError fun e =>
        e.diagnostics?.map fun ds => ds.map (·.kind)).map (fun _ => ()) =
          .error (some [.unusedRule, .nonRegularGrammar, .grammarConflict]) := by
    decide +kernel
  rw [← hcompile] at hkinds
  obtain ⟨e, herror, hkinds⟩ := exists_eq_error_of_map hkinds
  obtain ⟨ds, hds, hkinds⟩ := Option.map_eq_some_iff.1 hkinds
  obtain ⟨-, -, haccumulated⟩ := compile_accumulates "s : X s X | X ; u : T ;" Rules.twoActions {}
  exact ⟨e, ds, herror, hds, hkinds, haccumulated e ds herror hds⟩

end FluentGrammar
