import FluentGrammar.Proofs.Automaton.Table
import FluentGrammar.Proofs.Compile.Stages
import FluentGrammar.Proofs.Lowering.Spans
import Mathlib

/-
  Where diagnostics point. Whatever a compilation reports, its spans and the spans related to it
  begin and end between characters of the source, also when an empty one is widened to be shown, so
  that the report has a rendering (`compile_reports_within`). Each stage takes its spans from the
  one before: the table from the productions, the grammar from the rules, the rules from the
  document, and the document from the tokens.
-/

namespace FluentGrammar

open Report

variable {P : Span → Prop} {g : Grammar} {rules : Rules} {catalog : Catalog} {o : CompileOptions}
  {earlier ds : List Diagnostic}

/-- The diagnostics of a compilation, whether it succeeds or fails. -/
def reports : Except CompileError Compiled → List Diagnostic
  | .ok c => c.diagnostics
  | .error e => e.diagnostics?.getD []

/-! ## The table -/

theorem Grammar.SpansAre.nonterminal (h : g.SpansAre P) (hstart : P (.empty 0))
    (n : NonterminalId) : P (g.nonterminal n).span := by
  rw [Grammar.nonterminal, List.getD_eq_getElem?_getD]
  cases hn : g.nonterminals[n]? with
  | none => exact hstart
  | some m => exact h.nonterminals m (List.mem_of_getElem? hn)

theorem Grammar.SpansAre.production (h : g.SpansAre P) (hstart : P (.empty 0))
    (p : ProductionId) : P (g.production p).span := by
  rw [Grammar.production, List.getD_eq_getElem?_getD]
  cases hp : g.productions[p]? with
  | none => exact hstart
  | some m => exact h.productions m (List.mem_of_getElem? hp)

theorem Grammar.SpansAre.augmented (h : g.SpansAre P) (hstart : P (.empty 0)) :
    g.augmented.SpansAre P := by
  have hspan := h.nonterminal hstart g.start
  have hg := (h.addNonterminal acceptName hspan).addProduction g.nonterminals.length
    [.nonterminal g.start] hspan
  exact ⟨hg.nonterminals, hg.productions⟩

theorem Diagnostic.spans_foldl_relatedTo {α : Type} (label : α → String) (span : α → Span)
    (xs : List α) (d : Diagnostic) :
    (xs.foldl (fun d x => d.relatedTo (label x) (span x)) d).spans = d.spans ++ xs.map span := by
  induction xs generalizing d with
  | nil => exact (List.append_nil _).symm
  | cons x xs ih =>
    rw [List.foldl_cons, ih, List.map_cons, ← List.singleton_append, ← List.append_assoc]
    simp [spans, relatedTo]

/-- A conflict points at productions. -/
theorem Analysis.spans_conflict {a : Analysis} (h : a.grammar.SpansAre P) (hstart : P (.empty 0))
    (state : StateId) (t : TerminalId) (cell : List TableAction) :
    ∀ s ∈ (a.conflict state t cell).spans, P s := by
  have hall : ∀ p ∈ (cell.filterMap a.productionOf?).map a.grammar.production, P p.span := by
    intro p hp
    obtain ⟨i, -, rfl⟩ := List.mem_map.1 hp
    exact h.production hstart i
  rw [conflict]
  generalize (cell.filterMap a.productionOf?).map a.grammar.production = productions at hall
  have hfirst : P ((productions.head?.map (·.span)).getD default) := by
    cases productions with
    | nil => exact hstart
    | cons p rest => exact hall p List.mem_cons_self
  rw [Diagnostic.spans_foldl_relatedTo _ Production.span]
  intro s hs
  rcases List.mem_append.1 hs with hs | hs
  · split at hs <;> exact Diagnostic.spans_about hfirst s hs
  · obtain ⟨p, hp, rfl⟩ := List.mem_map.1 hs
    exact hall p hp

/-- The reports on a table have the spans of the grammar, or the empty one at the beginning. -/
theorem Grammar.spansAre_of_parseTable (h : g.SpansAre P) (hstart : P (.empty 0)) :
    CompileError.StageSpansAre P (fun _ => True) g.parseTable := by
  obtain ⟨table, -, hparse⟩ := Analysis.exists_holds_contents g
  have hall : Diagnostic.SpansAre P (Analysis.ofGrammar g).reports := by
    intro d hd
    obtain ⟨n, t, -, -, heq⟩ := Analysis.mem_reports_iff.1 hd
    rw [heq]
    exact Analysis.spans_conflict (h.augmented hstart) hstart n t _
  rw [hparse]
  split
  · exact .error hall
  · exact .ok trivial hall

/-! ## All stages -/

/-- A stage behind others that succeeded: its failure carries their diagnostics, and so does what
    follows when it succeeds. -/
theorem CompileError.StageSpansAre.bind {α : Type} {Q : α → Prop}
    {stage : Except CompileError (α × List Diagnostic)}
    {rest : α × List Diagnostic → Except CompileError Compiled}
    (h : StageSpansAre P Q stage) (hearlier : Diagnostic.SpansAre P earlier)
    (hrest : ∀ a ds, Q a → Diagnostic.SpansAre P (earlier ++ ds) →
      Diagnostic.SpansAre P (reports (rest (a, ds)))) :
    Diagnostic.SpansAre P (reports (stage.mapError (·.after earlier) >>= rest)) := by
  cases h with
  | ok ha hds => exact hrest _ _ ha (hearlier.append hds)
  | @error e h =>
    show Diagnostic.SpansAre P ((e.after earlier).diagnostics?.getD [])
    rw [diagnostics?_after]
    cases hds : e.diagnostics? with
    | none => exact fun d hd => absurd hd List.not_mem_nil
    | some ds =>
      rw [hds] at h
      exact hearlier.append h

theorem Rules.spansAre_compile (h : rules.SpansAre P) (hstart : P (.empty 0))
    (hearlier : Diagnostic.SpansAre P earlier) :
    Diagnostic.SpansAre P (reports (rules.compile catalog o earlier)) := by
  rw [compile]
  refine (spansAre_of_lower h hstart catalog o.lowering).bind hearlier fun g ds hg hds => ?_
  dsimp only
  refine (Grammar.spansAre_of_parseTable hg hstart).bind hds fun table built _ hall => ?_
  dsimp only
  cases table.graph catalog.terminals with
  | error e => exact fun d hd => absurd hd List.not_mem_nil
  | ok graph => exact hall

/-- The spans of all diagnostics of a compilation can be shown. -/
theorem fits_of_compile (source : String) (catalog : Catalog) (o : CompileOptions) :
    Diagnostic.SpansAre (·.Fits source.toList) (reports (compile source catalog o)) := by
  cases hparse : Source.parse source o.nestingLimit with
  | error e =>
    rw [compile_front, hparse]
    exact fun d hd => absurd hd List.not_mem_nil
  | ok result =>
    obtain ⟨tree, parsed⟩ := result
    have hparsed := Source.fits_of_parse hparse
    have hcompile : compile source catalog o =
        if Diagnostic.anyError parsed then .error (.malformedSource parsed)
        else (Rules.ofDocument catalog tree.document).mapError (·.after parsed) >>= fun x =>
          x.1.compile catalog o (parsed ++ x.2) := by
      rw [compile_front, hparse]
      simp only [Except.mapError, bind, Except.bind]
      cases Diagnostic.anyError parsed <;> rfl
    rw [hcompile]
    cases hclean : Diagnostic.anyError parsed with
    | true => exact hparsed
    | false =>
      obtain ⟨rfl, -⟩ := Source.document_of_parse hparse hclean
      obtain ⟨hdocument, hstart⟩ := Source.spansAre_of_parse hparse
      exact (Rules.spansAre_of_ofDocument hdocument hstart).bind hparsed fun rules ds hrules hds =>
        Rules.spansAre_compile hrules hstart hds

/-- Whatever a compilation reports about a source points into the source. The spans of a diagnostic
    and of what it is related to begin and end between characters, in this order and not beyond the
    end, and so do the spans that are shown for them, where an empty one takes a byte more. So the
    diagnostics have a rendering. Offsets are not bounded here; since they are not beyond the end,
    32 bits are enough for them in a source below 4 GiB. -/
theorem compile_reports_within (source : String) (catalog : Catalog) (o : CompileOptions) :
    (∀ d ∈ reports (compile source catalog o), ∀ s ∈ d.span :: d.related.map (·.span),
      s.Within source.toList ∧
        (s.visible (Text.byteLength source.toList)).Within source.toList) ∧
    ∀ path colored, (Diagnostic.allRendered? source path colored
      (reports (compile source catalog o))).isSome = true := by
  have h := fits_of_compile source catalog o
  exact ⟨fun d hd s hs => ⟨(h d hd s hs).within, (h d hd s hs).visible⟩,
    fun path colored => Diagnostic.isSome_allRendered? h path colored⟩

/-- A semicolon is missing before a comment with a character of two bytes, and the group behind it
    is not closed. The semicolon has no width, and the slash behind it is shown. -/
theorem exists_reports_within :
    ∃ d ∈ reports (compile "s: x/*é*/ t: (" ⟨[], List.nodup_nil⟩ {}),
      d.span = ⟨4, 4⟩ ∧ d.span.Within "s: x/*é*/ t: (".toList ∧
      d.span.visible (Text.byteLength "s: x/*é*/ t: (".toList) = ⟨4, 5⟩ ∧
      (d.span.visible (Text.byteLength "s: x/*é*/ t: (".toList)).Within
        "s: x/*é*/ t: (".toList ∧
      (Diagnostic.allRendered? "s: x/*é*/ t: (" none false
        (reports (compile "s: x/*é*/ t: (" ⟨[], List.nodup_nil⟩ {}))).isSome = true := by
  have hspans : (reports (compile "s: x/*é*/ t: (" ⟨[], List.nodup_nil⟩ {})).map (·.span) =
      [⟨4, 4⟩, ⟨14, 15⟩] := by cbv
  obtain ⟨hall, hrendered⟩ := compile_reports_within "s: x/*é*/ t: (" ⟨[], List.nodup_nil⟩ {}
  obtain ⟨d, hd, hspan⟩ := List.mem_map.1
    (show ⟨4, 4⟩ ∈ (reports (compile "s: x/*é*/ t: (" ⟨[], List.nodup_nil⟩ {})).map (·.span) by
      rw [hspans]
      exact List.mem_cons_self)
  obtain ⟨hwithin, hvisible⟩ := hall d hd d.span List.mem_cons_self
  have hshown : d.span.visible (Text.byteLength "s: x/*é*/ t: (".toList) = ⟨4, 5⟩ := by
    rw [hspan, Span.visible_of_eq rfl]
    decide +kernel
  exact ⟨d, hd, hspan, hwithin, hshown, hvisible, hrendered none false⟩

end FluentGrammar
