import FluentGrammar.Grammar.Lower
import FluentGrammar.Proofs.Lowering.Direct
import FluentGrammar.Proofs.Lowering.Flatten

/-
  Lowering keeps the language of the start rule, whichever way it goes (`lower_derives_iff`), and
  gives grammars whose indices are in range. Without a warning that the rules are not regular,
  flattening also gives a right-linear grammar.
-/

namespace FluentGrammar

open Report

/-- The right-hand side is nothing, or a nonterminal behind at most one action. -/
def Production.RightLinear (p : Production) : Prop :=
  p.rhs = [] ∨ ∃ a m, p.rhs = Flatten.side a m

namespace Rules

variable {rules : Rules} {catalog : Catalog} {lowering : Lowering} {g : Grammar}
  {ds : List Diagnostic}

/-- A rule that can finish exists. -/
theorem lt_size_of_productive {r : RuleId} (h : rules.productive.getD r false = true) :
    r < rules.size := by
  have hlength : ∀ n, (rules.knownAfter n).length = rules.size := by
    intro n
    cases n with
    | zero => simp [knownAfter, size]
    | succ n => simp [knownAfter, finishing, size]
  by_contra hr
  rw [Nat.not_lt, ← hlength rules.size] at hr
  rw [List.getD_eq_getElem?_getD, productive, List.getElem?_eq_none hr] at h
  cases h

/-- What lowering gives: the start rule exists, and the grammar is flattened or direct. It is
    direct with a warning when that was not asked for. -/
theorem lower_cases (h : rules.lower catalog lowering = .ok (g, ds)) :
    start < rules.withoutLeftRecursion.1.size ∧
      ((lowering = .flatten ∧ rules.withoutLeftRecursion.1.flatten catalog = .ok g) ∨
        (g = rules.withoutLeftRecursion.1.direct catalog ∧
          (lowering = .flatten → ∃ d ∈ ds, d.kind = .nonRegularGrammar))) := by
  unfold lower at h
  dsimp only at h
  split at h
  · cases h
  · split at h
    · cases h
    · next hp =>
      refine ⟨lt_size_of_productive (by simpa using hp), ?_⟩
      cases lowering with
      | direct =>
        simp only [Except.ok.injEq, Prod.mk.injEq] at h
        exact .inr ⟨h.1.symm, nofun⟩
      | flatten =>
        dsimp only at h
        split at h
        · next hflat =>
          simp only [Except.ok.injEq, Prod.mk.injEq] at h
          exact .inl ⟨rfl, h.1 ▸ hflat⟩
        · simp only [Except.ok.injEq, Prod.mk.injEq] at h
          obtain ⟨rfl, rfl⟩ := h
          exact .inr ⟨rfl, fun _ =>
            ⟨_, List.mem_append_right _ (List.mem_singleton_self _), rfl⟩⟩

/-- The start symbol of the lowered grammar reads what the start rule reads. -/
theorem lower_reads_iff (hrefs : rules.RefsInRange)
    (h : rules.lower catalog lowering = .ok (g, ds)) {x : Extent} {w : List TerminalId} :
    g.Reads x [.nonterminal g.start] w ↔ Expr.Reads rules x (.rule start) w := by
  rw [← reads_withoutLeftRecursion]
  obtain ⟨hsize, ⟨-, hflat⟩ | ⟨rfl, -⟩⟩ := lower_cases h
  · exact reads_flatten hrefs.withoutLeftRecursion hsize hflat
  · exact reads_direct hrefs.withoutLeftRecursion catalog hsize

theorem lower_wellFormed (hrefs : rules.RefsInRange)
    (hactions : ∀ t ∈ rules.actions, t < catalog.size)
    (h : rules.lower catalog lowering = .ok (g, ds)) : g.WellFormed := by
  have hactions' : ∀ t ∈ rules.withoutLeftRecursion.1.actions, t < catalog.size :=
    fun t ht => hactions t (actions_withoutLeftRecursion hrefs t ht)
  obtain ⟨hsize, ⟨-, hflat⟩ | ⟨rfl, -⟩⟩ := lower_cases h
  · obtain ⟨D, ht⟩ := Flatten.flatten_translates hrefs.withoutLeftRecursion hsize hflat
    exact ht.wellFormed hactions'
  · obtain ⟨D, ht⟩ := Direct.direct_translates hrefs.withoutLeftRecursion catalog
    exact ht.wellFormed hrefs.withoutLeftRecursion hactions' hsize

/-- The terminals of the lowered grammar are the actions of the catalog and the end of input. -/
theorem lower_endTerminal (hrefs : rules.RefsInRange)
    (h : rules.lower catalog lowering = .ok (g, ds)) : g.endTerminal = catalog.size := by
  obtain ⟨hsize, ⟨-, hflat⟩ | ⟨rfl, -⟩⟩ := lower_cases h
  · obtain ⟨D, ht⟩ := Flatten.flatten_translates hrefs.withoutLeftRecursion hsize hflat
    exact Grammar.endTerminal_eq_size ht.terminals
  · obtain ⟨D, ht⟩ := Direct.direct_translates hrefs.withoutLeftRecursion catalog
    exact Grammar.endTerminal_eq_size ht.terminals

/-- Flattening that gives no warning gives a right-linear grammar. -/
theorem lower_rightLinear (hrefs : rules.RefsInRange)
    (h : rules.lower catalog .flatten = .ok (g, ds))
    (hregular : ∀ d ∈ ds, d.kind ≠ .nonRegularGrammar) : ∀ p ∈ g.productions, p.RightLinear := by
  obtain ⟨hsize, ⟨-, hflat⟩ | ⟨-, hwarning⟩⟩ := lower_cases h
  · obtain ⟨D, ht⟩ := Flatten.flatten_translates hrefs.withoutLeftRecursion hsize hflat
    intro p hp
    obtain ⟨-, hs⟩ | ⟨k, a, k', m, -, -, -, hs⟩ := ht.sound p hp
    · exact .inl hs
    · exact .inr ⟨a, m, hs⟩
  · obtain ⟨d, hd, hkind⟩ := hwarning rfl
    exact absurd hkind (hregular d hd)

/-- The lowered grammar derives the sentences of the start rule and nothing else, whether it is
    flattened, direct, or direct because the rules cannot be flattened. -/
theorem lower_derives_iff (hrefs : rules.RefsInRange)
    (h : rules.lower catalog lowering = .ok (g, ds)) (w : List TerminalId) :
    g.Derives [.nonterminal g.start] w ↔ rules.Sentence start w := by
  rw [Grammar.derives_iff_reads, lower_reads_iff hrefs h, sentence_iff_reads]

/-- A catalog of two actions. -/
def twoActions : Catalog :=
  ⟨[⟨"X", "X", "X", [], [], .property, ""⟩, ⟨"T", "T", "T", [], [], .property, ""⟩], by decide⟩

/-- Two rules that refer to each other, `s : X t ; t : (T s)? ;`. -/
def inTurns : Rules :=
  ⟨[⟨"s", default, .seq [.terminal 0, .rule 1]⟩,
    ⟨"t", default, .repeated (.seq [.terminal 1, .rule 0]) .optional⟩]⟩

theorem inTurns_sentence : inTurns.Sentence start [0, 1, 0] := by
  have inner : (Expr.rule 0).Derives inTurns ([0] ++ ([] ++ [])) :=
    .rule (.seqCons (.terminal 0) (.seqCons (.rule .skip) .seqNil))
  have outer : (Expr.rule 0).Derives inTurns ([0] ++ (([1] ++ ([0] ++ [])) ++ [])) :=
    .rule (.seqCons (.terminal 0) (.seqCons
      (.rule (.take (.seqCons (.terminal 1) (.seqCons inner .seqNil)))) .seqNil))
  exact outer

theorem exists_lower_inTurns_derives : ∃ g ds, inTurns.lower twoActions .flatten = .ok (g, ds) ∧
    g.Derives [.nonterminal g.start] [0, 1, 0] := by
  obtain ⟨⟨g, ds⟩, h⟩ := exists_eq_ok
    (show (inTurns.lower twoActions .flatten).toOption.isSome = true by decide +kernel)
  exact ⟨g, ds, h, (lower_derives_iff (by decide) h _).2 inTurns_sentence⟩

end Rules

end FluentGrammar
