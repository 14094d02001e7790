import FluentGrammar.Grammar.Lower
import FluentGrammar.Proofs.Lowering.Additions
import FluentGrammar.Proofs.Source.Ranges

/-
  Lowering and places. Every nonterminal and every production has the span of a rule, so the
  grammar of rules points nowhere else (`spansAre_of_lower`), and neither do the reports. A rule out
  of range counts as the default rule, which has the empty span at the beginning of the source.
-/

namespace FluentGrammar

open Report

variable {P : Span → Prop} {g : Grammar} {rules : Rules} {span : Span}

/-- All spans of the grammar have the property. -/
structure Grammar.SpansAre (P : Span → Prop) (g : Grammar) : Prop where
  nonterminals : ∀ n ∈ g.nonterminals, P n.span
  productions : ∀ p ∈ g.productions, P p.span

namespace Grammar.SpansAre

theorem addNonterminal (h : g.SpansAre P) (name : String) (hspan : P span) :
    (g.addNonterminal name span).2.SpansAre P :=
  ⟨List.forall_mem_append.2 ⟨h.nonterminals, List.forall_mem_singleton.2 hspan⟩, h.productions⟩

theorem addProduction (h : g.SpansAre P) (lhs : NonterminalId) (rhs : List Symbol)
    (hspan : P span) : (g.addProduction lhs rhs span).SpansAre P :=
  ⟨h.nonterminals, List.forall_mem_append.2 ⟨h.productions, List.forall_mem_singleton.2 hspan⟩⟩

theorem ofCatalog (catalog : Catalog) : (Grammar.ofCatalog catalog).SpansAre P := ⟨nofun, nofun⟩

end Grammar.SpansAre

theorem Rules.SpansAre.rule (h : rules.SpansAre P) (hstart : P (.empty 0)) (r : RuleId) :
    P (rules.rule r).span := by
  rw [Rules.rule, List.getD_eq_getElem?_getD]
  cases hr : rules.rules[r]? with
  | none => exact hstart
  | some rule => exact h rule (List.mem_of_getElem? hr)

/-! ## Direct lowering -/

namespace Direct

/-- The spans of the state's grammar. -/
def State.SpansAre (P : Span → Prop) (s : State) : Prop := s.grammar.SpansAre P

variable {s : State}

theorem State.SpansAre.fresh (hrules : ∀ r, P (rules.rule r).span) (h : s.SpansAre P)
    (owner : RuleId) : (s.fresh rules owner).2.SpansAre P :=
  h.addNonterminal _ (hrules owner)

theorem State.SpansAre.produce (hrules : ∀ r, P (rules.rule r).span) (h : s.SpansAre P)
    (owner : RuleId) (lhs : NonterminalId) (rhs : List Symbol) :
    (s.produce rules owner lhs rhs).SpansAre P :=
  h.addProduction lhs rhs (hrules owner)

mutual

theorem spansAre_symbols (hrules : ∀ r, P (rules.rule r).span) (owner : RuleId) (e : Expr)
    (s : State) (h : s.SpansAre P) : (symbols rules owner e s).2.SpansAre P := by
  match e with
  | .empty | .terminal _ | .rule _ => exact h
  | .seq items => exact spansAre_symbolsOfAll hrules owner items s h
  | .alt bs => exact spansAre_produceAll hrules owner _ bs _ (h.fresh hrules owner)
  | .repeated inner repetition =>
    have hinner := spansAre_symbols hrules owner inner _ (h.fresh hrules owner)
    exact List.foldlRecOn _ _ hinner fun s hs rhs _ => hs.produce hrules owner _ rhs

theorem spansAre_symbolsOfAll (hrules : ∀ r, P (rules.rule r).span) (owner : RuleId)
    (items : List Expr) (s : State) (h : s.SpansAre P) :
    (symbolsOfAll rules owner items s).2.SpansAre P := by
  match items with
  | [] => exact h
  | item :: rest =>
    exact spansAre_symbolsOfAll hrules owner rest _ (spansAre_symbols hrules owner item s h)

theorem spansAre_produceAll (hrules : ∀ r, P (rules.rule r).span) (owner : RuleId)
    (lhs : NonterminalId) (bs : List Expr) (s : State) (h : s.SpansAre P) :
    (produceAll rules owner lhs bs s).SpansAre P := by
  match bs with
  | [] => exact h
  | branch :: rest =>
    have hbranch := spansAre_symbols hrules owner branch s h
    exact spansAre_produceAll hrules owner lhs rest _ (hbranch.produce hrules owner lhs _)

end

end Direct

open Direct in
theorem Rules.spansAre_direct (h : rules.SpansAre P) (hstart : P (.empty 0)) (catalog : Catalog) :
    (rules.direct catalog).SpansAre P := by
  have hrules := h.rule hstart
  have hnamed : (rules.rules.foldl (fun g rule => (g.addNonterminal rule.name rule.span).2)
      (Grammar.ofCatalog catalog)).SpansAre P :=
    List.foldlRecOn _ _ (.ofCatalog catalog) fun g hg r hr => hg.addNonterminal _ (h r hr)
  have hproduced : (rules.rules.zipIdx.foldl
      (fun s (x : Rule × Nat) => produceAll rules x.2 x.2 x.1.body.branches s)
      ⟨_, rules.rules.map fun _ => 0⟩).SpansAre P :=
    List.foldlRecOn _ _ hnamed fun s hs x _ => spansAre_produceAll hrules x.2 x.2 _ s hs
  exact ⟨hproduced.nonterminals, hproduced.productions⟩

/-! ## Flattening -/

namespace Flatten

theorem steady_spansAre (hrules : ∀ r, P (rules.rule r).span) :
    Steady rules fun s s' => s.grammar.SpansAre P → s'.grammar.SpansAre P where
  refl _ h := h
  trans h h' hs := h' (h hs)
  fresh _ owner h := h.addNonterminal _ (hrules owner)
  produce _ owner n a m h := h.addProduction n (side a m) (hrules owner)
  ruleNonterminal s r h := by
    unfold State.ruleNonterminal
    split
    · exact h.addNonterminal _ (hrules r)
    · exact h.addNonterminal _ (hrules r)
  record _ _ _ h := h

end Flatten

theorem Rules.spansAre_flatten (h : rules.SpansAre P) (hstart : P (.empty 0)) {catalog : Catalog}
    (hok : rules.flatten catalog = .ok g) : g.SpansAre P := by
  have hrules := h.rule hstart
  rw [flatten] at hok
  dsimp only at hok
  obtain ⟨⟨start, s'⟩, h1, hok⟩ := of_bind_eq_ok hok
  cases hok
  have hopening := ((Grammar.SpansAre.ofCatalog (P := P) catalog).addNonterminal
    Flatten.finishName (hrules Rules.start)).addProduction 0 [] (hrules Rules.start)
  have hdone := (Flatten.steady_spansAre hrules).expandRule rules.size _ _ _ start s' h1 hopening
  exact ⟨hdone.nonterminals, hdone.productions⟩

/-! ## Lowering -/

namespace Rules

theorem spansAre_withoutLeftRecursion (h : rules.SpansAre P) :
    rules.withoutLeftRecursion.1.SpansAre P ∧
      Diagnostic.SpansAre P rules.withoutLeftRecursion.2 := by
  constructor
  · intro r hr
    rw [rules_withoutLeftRecursion] at hr
    obtain ⟨⟨rule, n⟩, hrule, rfl⟩ := List.mem_map.1 hr
    exact h rule (List.fst_mem_of_mem_zipIdx hrule)
  · intro d hd
    obtain ⟨x, hx, hd⟩ := List.mem_filterMap.1 hd
    obtain ⟨⟨rule, n⟩, hrule, rfl⟩ := List.mem_map.1 hx
    dsimp only at hd
    generalize LeftRecursion.Outcome.ofBody n rule.body = outcome at hd
    cases outcome with
    | noBase =>
      obtain rfl := Option.some.inj hd
      exact Diagnostic.spans_about (h rule (List.fst_mem_of_mem_zipIdx hrule))
    | kept | replaced => cases hd

/-- The grammar and the reports have the spans of the rules, or the empty one at the beginning. -/
theorem spansAre_of_lower (h : rules.SpansAre P) (hstart : P (.empty 0)) (catalog : Catalog)
    (lowering : Lowering) :
    CompileError.StageSpansAre P (Grammar.SpansAre P) (rules.lower catalog lowering) := by
  obtain ⟨hrules, hreports⟩ := spansAre_withoutLeftRecursion h
  rw [lower]
  generalize rules.withoutLeftRecursion = read at hrules hreports
  obtain ⟨kept, reports⟩ := read
  have habout (r : RuleId) (kind : Kind) : Diagnostic.SpansAre P
      (reports ++ [Diagnostic.about kind (kept.rule r).span (kept.rule r).name]) :=
    hreports.append (List.forall_mem_singleton.2 (Diagnostic.spans_about (hrules.rule hstart r)))
  dsimp only at hrules hreports ⊢
  split
  · exact .error hreports
  · split
    · exact .error (habout Rules.start .unproductiveStart)
    · cases lowering with
      | direct => exact .ok (spansAre_direct hrules hstart catalog) hreports
      | flatten =>
        dsimp only
        split
        · next g hg => exact .ok (spansAre_flatten hrules hstart hg) hreports
        · next r hr =>
          exact .ok (spansAre_direct hrules hstart catalog) (habout r .nonRegularGrammar)

end Rules

end FluentGrammar
