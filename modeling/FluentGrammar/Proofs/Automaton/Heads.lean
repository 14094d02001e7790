import FluentGrammar.Proofs.Automaton.States

/-
  What the first sets say, exactly: a terminal is in the first set of symbols when leftmost
  expansion of them has it at its front (`mem_ofSymbols_iff`), and they are called nullable when
  they derive nothing (`nullable_ofSymbols_iff`). That the sets say no more is kept by every step
  that makes them. The analysis of a grammar has one nonterminal more than the grammar, which no
  right-hand side mentions, so for the symbols of items both read as the grammar's own
  (`mem_first_iff`, `nullable_iff`).
-/

namespace FluentGrammar

/-- Leftmost expansion of the symbols has the terminal at its front. -/
inductive Grammar.Heads (g : Grammar) (t : TerminalId) : List Symbol → Prop
  | terminal (rest : List Symbol) : Heads g t (.terminal t :: rest)
  | expand {n q} (rest : List Symbol) : q ∈ g.productions → q.lhs = n → Heads g t q.rhs →
      Heads g t (.nonterminal n :: rest)
  | skip {n rest} : g.Derives [.nonterminal n] [] → Heads g t rest →
      Heads g t (.nonterminal n :: rest)

namespace FirstSets

variable {g : Grammar} {f : FirstSets} {p : Production} {α : List Symbol} {t : TerminalId}

/-- The sets say no more than the grammar derives. -/
structure Sound (g : Grammar) (f : FirstSets) : Prop where
  heads : ∀ n, ∀ t ∈ f.first.getD n [],
    ∃ q ∈ g.productions, q.lhs = n ∧ g.Heads t q.rhs
  empty : ∀ n, f.nullable.getD n false = true → g.Derives [.nonterminal n] []

theorem Sound.heads_of_mem (h : Sound g f) (ht : t ∈ (f.ofSymbols α).1) : g.Heads t α := by
  induction α with
  | nil => exact absurd ht List.not_mem_nil
  | cons s rest ih =>
    cases s with
    | terminal u =>
      obtain rfl := List.mem_singleton.1 ht
      exact .terminal rest
    | nonterminal n =>
      have first (hn : t ∈ f.first.getD n []) : g.Heads t (.nonterminal n :: rest) := by
        obtain ⟨q, hq, hl, hheads⟩ := h.heads n t hn
        exact .expand rest hq hl hheads
      rw [ofSymbols] at ht
      dsimp only at ht
      split at ht
      · next hempty =>
        rcases OrderedSet.mem_union.1 ht with ht | ht
        · exact first ht
        · exact .skip (h.empty n hempty) (ih ht)
      · exact first ht

theorem Sound.derives_nil (h : Sound g f) (hα : (f.ofSymbols α).2 = true) : g.Derives α [] := by
  induction α with
  | nil => exact .nil
  | cons s rest ih =>
    cases s with
    | terminal u => cases hα
    | nonterminal n =>
      rw [ofSymbols] at hα
      dsimp only at hα
      split at hα
      · next hempty => exact (h.empty n hempty).append (ih hα)
      · cases hα

/-- Taking in what a production says keeps the sets sound. -/
theorem Sound.absorb (h : Sound g f) (hp : p ∈ g.productions) : Sound g (absorb f p) := by
  constructor
  · intro n t ht
    simp only [FirstSets.absorb, List.getD_eq_getElem?_getD, List.getElem?_modify] at ht
    cases hn : f.first[n]? with
    | none => simp [hn] at ht
    | some ts =>
      have hold (ht : t ∈ ts) : ∃ q ∈ g.productions, q.lhs = n ∧ g.Heads t q.rhs := by
        refine h.heads n t ?_
        rwa [List.getD_eq_getElem?_getD, hn]
      rw [hn] at ht
      by_cases hpn : p.lhs = n
      · have hunion : t ∈ OrderedSet.union (f.ofSymbols p.rhs).1 ts := by simpa [hpn] using ht
        rcases OrderedSet.mem_union.1 hunion with ht | ht
        · exact ⟨p, hp, hpn, h.heads_of_mem ht⟩
        · exact hold ht
      · exact hold (by simpa [hpn] using ht)
  · intro n he
    simp only [FirstSets.absorb, List.getD_eq_getElem?_getD, List.getElem?_modify] at he
    cases hn : f.nullable[n]? with
    | none => simp [hn] at he
    | some b =>
      have hold (hb : b = true) : g.Derives [.nonterminal n] [] := by
        refine h.empty n ?_
        rwa [List.getD_eq_getElem?_getD, hn]
      rw [hn] at he
      by_cases hpn : p.lhs = n
      · have hor : (b || (f.ofSymbols p.rhs).2) = true := by simpa [hpn] using he
        rcases Bool.or_eq_true_iff.1 hor with hb | hb
        · exact hold hb
        · exact Grammar.derives_nonterminal_iff.2 ⟨p, hp, hpn, h.derives_nil hb⟩
      · exact hold (by simpa [hpn] using he)

theorem sound_settle (fuel : Nat) (h : Sound g f) : Sound g (settle g fuel f) := by
  induction fuel generalizing f with
  | zero => exact h
  | succ fuel ih =>
    rw [settle]
    split
    · exact h
    · exact ih (List.foldlRecOn g.productions FirstSets.absorb h fun f hf p hp => hf.absorb hp)

theorem sound_ofGrammar (g : Grammar) : Sound g (ofGrammar g) := by
  refine sound_settle _ ⟨fun n t ht => ?_, fun n he => ?_⟩
  · rw [List.getD_eq_getElem?_getD, List.getElem?_replicate] at ht
    split at ht <;> simp at ht
  · rw [List.getD_eq_getElem?_getD, List.getElem?_replicate] at he
    split at he <;> simp at he

/-- What leftmost expansion has at its front is in the first sets. -/
theorem mem_of_heads (hclosed : ∀ p ∈ g.productions, f.ClosedAt p) (h : g.Heads t α) :
    t ∈ (f.ofSymbols α).1 := by
  induction h with
  | terminal rest => exact List.mem_singleton_self t
  | @expand n q rest hq hn _ ih =>
    have hfirst : t ∈ f.first.getD n [] := hn ▸ (hclosed q hq).heads t ih
    rw [ofSymbols]
    dsimp only
    split
    · exact OrderedSet.mem_union.2 (.inl hfirst)
    · exact hfirst
  | @skip n rest hempty _ ih =>
    have hnull := (ofSymbols_of_derives hclosed hempty).2 rfl
    have hn : f.nullable.getD n false = true := by
      rw [ofSymbols] at hnull
      dsimp only at hnull
      split at hnull
      · next hn => exact hn
      · cases hnull
    rw [ofSymbols]
    dsimp only
    rw [if_pos hn]
    exact OrderedSet.mem_union.2 (.inr ih)

variable (hw : TerminalsInRange g) (hlhs : ∀ p ∈ g.productions, p.lhs < g.nonterminals.length)

include hw hlhs

/-- The first terminals of symbols are those at the front of leftmost expansions. -/
theorem mem_ofSymbols_iff : t ∈ ((ofGrammar g).ofSymbols α).1 ↔ g.Heads t α :=
  ⟨(sound_ofGrammar g).heads_of_mem, mem_of_heads (closed_ofGrammar hw hlhs)⟩

/-- Symbols are nullable when they derive nothing. -/
theorem nullable_ofSymbols_iff : ((ofGrammar g).ofSymbols α).2 = true ↔ g.Derives α [] :=
  ⟨(sound_ofGrammar g).derives_nil,
    fun h => (ofSymbols_of_derives (closed_ofGrammar hw hlhs) h).2 rfl⟩

end FirstSets

namespace Analysis

variable {g : Grammar} {n : Nat} {i : Item} {α : List Symbol} {t : TerminalId}

/-! ## The symbols of items -/

/-- Whether a nonterminal is one of the grammar, and not that for a whole sentence. -/
def Own (g : Grammar) (α : List Symbol) : Prop :=
  ∀ l, .nonterminal l ∈ α → l < g.nonterminals.length

theorem Own.tail {x : Symbol} (h : Own g (x :: α)) : Own g α :=
  fun l hl => h l (List.mem_cons_of_mem x hl)

theorem own_rhs (hg : g.Ranged) {q : Production} (hq : q ∈ g.productions) : Own g q.rhs :=
  fun l hl => hg.nonterminals q hq l hl

/-- Items mention nonterminals of the grammar only. -/
theorem own_remaining (hg : g.Ranged) (i : Item) : Own g ((ofGrammar g).remaining i) := by
  intro l hl
  obtain ⟨q, hq⟩ := exists_of_remaining_ne_nil (List.ne_nil_of_mem hl)
  rw [remaining_eq hq] at hl
  have hmem := List.mem_of_mem_drop hl
  obtain ⟨-, hown⟩ | ⟨-, rfl⟩ := getElem?_productions hq
  · exact hg.nonterminals q hown l hmem
  · obtain rfl : l = g.start := by simpa [Grammar.sentence] using hmem
    exact hg.start

theorem own_after (hg : g.Ranged) {x : Symbol} (hr : (ofGrammar g).remaining i = x :: after) :
    Own g after := by
  have hall := own_remaining hg i
  rw [hr] at hall
  exact hall.tail

/-- A production of the analysis with a nonterminal of the grammar is a production of the
    grammar. -/
theorem mem_of_mem_augmented {q : Production} (hq : q ∈ g.augmented.productions)
    (hl : q.lhs < g.nonterminals.length) : q ∈ g.productions := by
  rcases Grammar.mem_productions_augmented.1 hq with hq | rfl
  · exact hq
  · exact absurd hl (Nat.lt_irrefl _)

theorem derives_augmented_iff (hg : g.Ranged) (hα : Own g α) {w : List TerminalId} :
    g.augmented.Derives α w ↔ g.Derives α w := by
  constructor
  · intro h
    induction h with
    | nil => exact .nil
    | terminal _ ih => exact .terminal (ih hα.tail)
    | @nonterminal n q rest u v hq hn _ _ ihu ihv =>
      have hlt : q.lhs < g.nonterminals.length := hn ▸ hα n List.mem_cons_self
      have hown := mem_of_mem_augmented hq hlt
      exact .nonterminal hown hn (ihu (own_rhs hg hown)) (ihv hα.tail)
  · intro h
    induction h with
    | nil => exact .nil
    | terminal _ ih => exact .terminal (ih hα.tail)
    | nonterminal hq hn _ _ ihu ihv =>
      exact .nonterminal (Grammar.mem_productions_augmented.2 (.inl hq)) hn
        (ihu (own_rhs hg hq)) (ihv hα.tail)

theorem heads_augmented_iff (hg : g.Ranged) (hα : Own g α) :
    g.augmented.Heads t α ↔ g.Heads t α := by
  have single {n : NonterminalId} {rest : List Symbol} (h : Own g (.nonterminal n :: rest)) :
      Own g [.nonterminal n] := by
    intro l hl
    exact h l (List.mem_cons.2 (.inl (List.mem_singleton.1 hl)))
  constructor
  · intro h
    induction h with
    | terminal rest => exact .terminal rest
    | @expand n q rest hq hn _ ih =>
      have hlt : q.lhs < g.nonterminals.length := hn ▸ hα n List.mem_cons_self
      have hown := mem_of_mem_augmented hq hlt
      exact .expand rest hown hn (ih (own_rhs hg hown))
    | skip hempty _ ih =>
      exact .skip ((derives_augmented_iff hg (single hα)).1 hempty) (ih hα.tail)
  · intro h
    induction h with
    | terminal rest => exact .terminal rest
    | expand rest hq hn _ ih =>
      exact .expand rest (Grammar.mem_productions_augmented.2 (.inl hq)) hn (ih (own_rhs hg hq))
    | skip hempty _ ih =>
      exact .skip ((derives_augmented_iff hg (single hα)).2 hempty) (ih hα.tail)

/-- The first sets of the analysis, for symbols of the grammar. -/
theorem mem_first_iff (hg : g.Ranged) (hα : Own g α) :
    t ∈ ((ofGrammar g).first.ofSymbols α).1 ↔ g.Heads t α :=
  (FirstSets.mem_ofSymbols_iff hg.terminalsInRange hg.lhs_augmented).trans
    (heads_augmented_iff hg hα)

theorem nullable_iff (hg : g.Ranged) (hα : Own g α) :
    ((ofGrammar g).first.ofSymbols α).2 = true ↔ g.Derives α [] :=
  (FirstSets.nullable_ofSymbols_iff hg.terminalsInRange hg.lhs_augmented).trans
    (derives_augmented_iff hg hα)

/-- What the symbols behind a nonterminal have at their front may follow its productions. -/
theorem knows_head (hg : g.Ranged) {l : NonterminalId} {after : List Symbol}
    {p : ProductionId} {q : Production} (h : (ofGrammar g).Knows n i none)
    (hr : (ofGrammar g).remaining i = .nonterminal l :: after)
    (hq : (ofGrammar g).grammar.productions[p]? = some q) (hl : q.lhs = l)
    (ht : g.Heads t after) : (ofGrammar g).Knows n ⟨p, 0⟩ (some t) := by
  obtain ⟨kernels, rows, settled, hm⟩ := exists_madeOf hg (bound_lt hg)
  have hafter := own_after hg hr
  obtain ⟨s, hs, hi⟩ := h
  have hiff := fun i o => hm.has_closure_iff hg (bound_lt hg) hs (i := i) (o := o)
  exact ⟨s, hs, (hiff _ _).2 (.head ((hiff _ none).1 hi) hr ((mem_byLhs_iff hg).2 ⟨q, hq, hl⟩)
    ((mem_first_iff hg hafter).2 ht))⟩

end Analysis

end FluentGrammar
