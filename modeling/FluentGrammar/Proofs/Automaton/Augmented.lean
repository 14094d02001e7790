import FluentGrammar.Proofs.Automaton.Closure

/-
  The analysis of a grammar in range: its productions are those of the grammar and a last one for
  a whole sentence, whose nonterminal no right-hand side mentions, and all its tables agree with
  them.
-/

namespace FluentGrammar

namespace Grammar

variable {g : Grammar}

/-- The production for a whole sentence. -/
def sentence (g : Grammar) : Production :=
  ⟨g.nonterminals.length, [.nonterminal g.start], (g.nonterminal g.start).span⟩

theorem productions_augmented (g : Grammar) :
    g.augmented.productions = g.productions ++ [g.sentence] := rfl

theorem length_nonterminals_augmented (g : Grammar) :
    g.augmented.nonterminals.length = g.nonterminals.length + 1 := by
  simp [augmented, addNonterminal, addProduction]

theorem mem_productions_augmented {p : Production} :
    p ∈ g.augmented.productions ↔ p ∈ g.productions ∨ p = g.sentence := by
  rw [productions_augmented, List.mem_append, List.mem_singleton]

theorem Ranged.terminalsInRange (hg : g.Ranged) :
    FirstSets.TerminalsInRange g.augmented := by
  intro p hp t ht
  rcases mem_productions_augmented.1 hp with hp | rfl
  · exact hg.symbols p hp t ht
  · simp [sentence] at ht

theorem Ranged.lhs_augmented (hg : g.Ranged) :
    ∀ p ∈ g.augmented.productions, p.lhs < g.augmented.nonterminals.length := by
  intro p hp
  rw [length_nonterminals_augmented]
  rcases mem_productions_augmented.1 hp with hp | rfl
  · exact Nat.lt_succ_of_lt (hg.lhs p hp)
  · exact Nat.lt_succ_self _

theorem Ranged.rhs_augmented (hg : g.Ranged) :
    ∀ p ∈ g.augmented.productions, ∀ n, .nonterminal n ∈ p.rhs →
      n < g.augmented.nonterminals.length := by
  intro p hp n hn
  rw [length_nonterminals_augmented]
  rcases mem_productions_augmented.1 hp with hp | rfl
  · exact Nat.lt_succ_of_lt (hg.nonterminals p hp n hn)
  · obtain rfl : n = g.start := by simpa [sentence] using hn
    exact Nat.lt_succ_of_lt hg.start

/-- No right-hand side mentions the nonterminal for a whole sentence. -/
theorem Ranged.sentence_not_mem (hg : g.Ranged) :
    ∀ p ∈ g.augmented.productions, .nonterminal g.nonterminals.length ∉ p.rhs := by
  intro p hp hmem
  rcases mem_productions_augmented.1 hp with hp | rfl
  · exact Nat.lt_irrefl _ (hg.nonterminals p hp _ hmem)
  · have heq : g.nonterminals.length = g.start := by simpa [sentence] using hmem
    exact Nat.lt_irrefl _ (heq ▸ hg.start)

end Grammar

namespace Analysis

variable {g : Grammar} {p : ProductionId} {q : Production} {n : NonterminalId} {d : Nat}
  {i : Item}

/-! ## Productions -/

theorem accept_ofGrammar (g : Grammar) : (ofGrammar g).accept = g.productions.length := by
  simp [accept, ofGrammar, Grammar.productions_augmented]

/-- A production of the analysed grammar, by its number. -/
theorem getElem?_productions (h : (ofGrammar g).grammar.productions[p]? = some q) :
    (p < g.productions.length ∧ q ∈ g.productions) ∨
      (p = (ofGrammar g).accept ∧ q = g.sentence) := by
  have h' : (g.productions ++ [g.sentence])[p]? = some q := h
  rw [List.getElem?_append] at h'
  split at h'
  · next hp => exact .inl ⟨hp, List.mem_of_getElem? h'⟩
  · next hp =>
    obtain ⟨hlt, hq⟩ := List.getElem?_eq_some_iff.1 h'
    have hp' : g.productions.length = p := by
      rw [List.length_singleton] at hlt
      exact Nat.le_antisymm (Nat.le_of_not_lt hp) (Nat.sub_eq_zero_iff_le.1 (Nat.lt_one_iff.1 hlt))
    subst hp'
    exact .inr ⟨(accept_ofGrammar g).symm, by simpa using hq.symm⟩

theorem getElem?_accept (g : Grammar) :
    (ofGrammar g).grammar.productions[(ofGrammar g).accept]? = some g.sentence := by
  rw [accept_ofGrammar]
  exact List.getElem?_concat_length

/-- A production of the grammar keeps its number in the analysis, where the sentence has another. -/
theorem getElem?_of_productions (h : g.productions[p]? = some q) :
    (ofGrammar g).grammar.productions[p]? = some q ∧ p ≠ (ofGrammar g).accept := by
  refine ⟨getElem?_grown (List.prefix_append g.productions [g.sentence]) h, ?_⟩
  rw [accept_ofGrammar]
  exact Nat.ne_of_lt (List.getElem?_eq_some_iff.1 h).1

theorem getElem?_of_ne_accept (h : (ofGrammar g).grammar.productions[p]? = some q)
    (hne : p ≠ (ofGrammar g).accept) : g.productions[p]? = some q := by
  have h' : (g.productions ++ [g.sentence])[p]? = some q := h
  obtain ⟨hlt, -⟩ | ⟨heq, -⟩ := getElem?_productions h
  · rwa [List.getElem?_append_left hlt] at h'
  · exact absurd heq hne

theorem exists_getElem?_of_mem (h : q ∈ g.productions) :
    ∃ p, (ofGrammar g).grammar.productions[p]? = some q ∧ p ≠ (ofGrammar g).accept := by
  obtain ⟨p, hp⟩ := List.mem_iff_getElem?.1 h
  exact ⟨p, getElem?_of_productions hp⟩

/-! ## Tables -/

theorem remaining_eq (h : (ofGrammar g).grammar.productions[p]? = some q) (d : Nat) :
    (ofGrammar g).remaining ⟨p, d⟩ = q.rhs.drop d := by
  have hsides : (ofGrammar g).sides.getD p [] = q.rhs := by
    have h' : g.augmented.productions[p]? = some q := h
    simp [ofGrammar, Array.getD_eq_getD_getElem?, h']
  rw [remaining, hsides]

/-- An item with a symbol to come is an item of a production. -/
theorem exists_of_remaining_ne_nil (h : (ofGrammar g).remaining i ≠ []) :
    ∃ q, (ofGrammar g).grammar.productions[i.production]? = some q := by
  cases hq : (ofGrammar g).grammar.productions[i.production]? with
  | some q => exact ⟨q, rfl⟩
  | none =>
    refine absurd ?_ h
    have h' : g.augmented.productions[i.production]? = none := hq
    simp [remaining, ofGrammar, Array.getD_eq_getD_getElem?, h']

theorem getD_byLhs (g : Grammar) (n : NonterminalId) : (ofGrammar g).byLhs.getD n [] =
    if n < g.augmented.nonterminals.length then g.augmented.productionsOf n else [] := by
  simp only [ofGrammar, Grammar.productionsByLhs, List.getD_eq_getElem?_getD, List.getElem?_map]
  split
  · next hn => rw [List.getElem?_range hn]; rfl
  · next hn => rw [List.getElem?_eq_none (by simpa using hn)]; rfl

/-- The productions of a nonterminal are different. -/
theorem nodup_byLhs (g : Grammar) (n : NonterminalId) :
    ((ofGrammar g).byLhs.getD n []).Nodup := by
  rw [getD_byLhs]
  split
  · have hsub : (g.augmented.productionsOf n).Sublist (g.augmented.productions.zipIdx.map (·.2)) :=
      List.filter_sublist.map _
    rw [List.zipIdx_map_snd] at hsub
    exact hsub.nodup List.nodup_range'
  · exact .nil

theorem mem_byLhs_iff (hg : g.Ranged) : p ∈ (ofGrammar g).byLhs.getD n [] ↔
    ∃ q, (ofGrammar g).grammar.productions[p]? = some q ∧ q.lhs = n := by
  have hof : p ∈ g.augmented.productionsOf n ↔
      ∃ q, g.augmented.productions[p]? = some q ∧ q.lhs = n := by
    simp [Grammar.productionsOf, List.mk_mem_zipIdx_iff_getElem?]
  rw [getD_byLhs]
  split
  · exact hof
  · next hn =>
    constructor
    · exact fun h => absurd h List.not_mem_nil
    · rintro ⟨q, hq, rfl⟩
      exact absurd (hg.lhs_augmented q (List.mem_of_getElem? hq)) hn

theorem inBounds (hg : g.Ranged) : (ofGrammar g).InBounds where
  production n p hp := by
    obtain ⟨q, hq, -⟩ := (mem_byLhs_iff hg).1 hp
    exact (List.getElem?_eq_some_iff.1 hq).1
  head i n after hr t ht := by
    obtain ⟨q, hq⟩ := exists_of_remaining_ne_nil (i := i) (by rw [hr]; simp)
    rw [remaining_eq hq] at hr
    refine (FirstSets.fits_ofGrammar hg.terminalsInRange).mem_ofSymbols_lt (fun u hu => ?_) ht
    have hmem : .terminal u ∈ q.rhs.drop i.dot := by
      rw [hr]
      exact List.mem_cons_of_mem _ hu
    exact hg.terminalsInRange q (List.mem_of_getElem? hq) u (List.mem_of_mem_drop hmem)

/-- What symbols derive shows in the first sets. -/
theorem first_of_derives (hg : g.Ranged) {α : List Symbol} {w : List TerminalId}
    (h : g.Derives α w) :
    (∀ t ∈ w.head?, t ∈ ((ofGrammar g).first.ofSymbols α).1) ∧
      (w = [] → ((ofGrammar g).first.ofSymbols α).2 = true) := by
  have hclosed := FirstSets.closed_ofGrammar hg.terminalsInRange hg.lhs_augmented
  exact FirstSets.ofSymbols_of_derives
    (fun p hp => hclosed p (Grammar.mem_productions_augmented.2 (.inl hp))) h

/-! ## Steps of an item -/

theorem next?_eq_some_iff {x : Symbol} : (ofGrammar g).next? i = some x ↔
    ∃ rest, (ofGrammar g).remaining i = x :: rest := by
  rw [next?]
  cases (ofGrammar g).remaining i <;> simp

/-- What comes next in an item is in the right-hand side of its production. -/
theorem exists_mem_rhs_of_next? {x : Symbol} (hx : (ofGrammar g).next? i = some x) :
    ∃ q, (ofGrammar g).grammar.productions[i.production]? = some q ∧ x ∈ q.rhs := by
  obtain ⟨rest, hr⟩ := next?_eq_some_iff.1 hx
  obtain ⟨q, hq⟩ := exists_of_remaining_ne_nil (i := i) (by rw [hr]; simp)
  rw [remaining_eq hq] at hr
  refine ⟨q, hq, List.mem_of_mem_drop (i := i.dot) ?_⟩
  rw [hr]
  exact List.mem_cons_self

/-- Only terminals of the grammar come next. -/
theorem lt_of_next?_terminal (hg : g.Ranged) {t : TerminalId}
    (hx : (ofGrammar g).next? i = some (.terminal t)) : t < g.terminals.length := by
  obtain ⟨q, hq, hmem⟩ := exists_mem_rhs_of_next? hx
  exact hg.terminalsInRange q (List.mem_of_getElem? hq) t hmem

/-- Only actions come next. -/
theorem lt_endTerminal_of_next? (hg : g.WellFormed) {t : TerminalId}
    (hx : (ofGrammar g).next? i = some (.terminal t)) : t < g.endTerminal := by
  obtain ⟨q, hq, hmem⟩ := exists_mem_rhs_of_next? hx
  obtain ⟨-, hown⟩ | ⟨-, rfl⟩ := getElem?_productions hq
  · exact hg.actions q hown t hmem
  · simp [Grammar.sentence] at hmem

/-- Only nonterminals of the grammar come next. -/
theorem lt_length_of_next? (hg : g.Ranged) {l : NonterminalId}
    (hx : (ofGrammar g).next? i = some (.nonterminal l)) : l < g.nonterminals.length := by
  obtain ⟨q, hq, hmem⟩ := exists_mem_rhs_of_next? hx
  have hlt := hg.rhs_augmented q (List.mem_of_getElem? hq) l hmem
  rw [Grammar.length_nonterminals_augmented] at hlt
  refine Nat.lt_of_le_of_ne (Nat.le_of_lt_succ hlt) fun heq => ?_
  exact hg.sentence_not_mem q (List.mem_of_getElem? hq) (heq ▸ hmem)

theorem remaining_advance {x : Symbol} {rest : List Symbol}
    (h : (ofGrammar g).remaining i = x :: rest) :
    (ofGrammar g).remaining i.advance = rest := by
  obtain ⟨q, hq⟩ := exists_of_remaining_ne_nil (i := i) (by rw [h]; simp)
  rw [remaining_eq hq] at h
  rw [Item.advance, remaining_eq hq, ← List.drop_drop, h, List.drop_one, List.tail_cons]

end Analysis

end FluentGrammar
