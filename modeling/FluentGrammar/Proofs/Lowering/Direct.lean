import FluentGrammar.Grammar.Direct
import FluentGrammar.Proofs.Lowering.Pieces
import FluentGrammar.Proofs.Lowering.Scope

/-
  The direct grammar reads what the rules read (`reads_direct`). Every nonterminal stands for one
  expression: rule `r` for the reference to it, a helper for the alternation or repetition that it
  was made for. The invariant of the translation is that a nonterminal has no other productions
  than the sides of its expression (`Side`), each spelled by symbols, and that it has all of them
  once the call that made it has returned.
-/

namespace FluentGrammar

namespace Direct

/-! ## Symbols that stand for expressions -/

/-- The symbol stands for the expression. `D` holds what the nonterminals stand for, which is
    never an action. -/
def Stands (D : List Expr) : Symbol → Expr → Prop
  | .terminal t, e => e = .terminal t
  | .nonterminal n, e => D[n]? = some e ∧ ∀ t, e ≠ .terminal t

/-- The symbols stand for the expressions one by one. -/
def Spells (D : List Expr) : List Symbol → List Expr → Prop := List.Forall₂ (Stands D)

/-- What the nonterminals stand for, as lists. -/
def meanings (D : List Expr) (n : NonterminalId) : List Expr := D[n]?.toList

variable {D D' D'' : List Expr} {α β : List Symbol} {es fs : List Expr}

theorem Spells.meaningOf (h : Spells D α es) : meaningOf (meanings D) α = es := by
  induction h with
  | nil => rfl
  | @cons s e α es hs _ ih =>
    have hm : Symbol.meaning (meanings D) s = [e] := by
      cases s with
      | terminal t => rw [show e = .terminal t from hs]; rfl
      | nonterminal n => rw [Symbol.meaning, meanings, hs.1, Option.toList_some]
    rw [FluentGrammar.meaningOf, List.flatMap_cons, hm]
    exact congrArg (e :: ·) ih

theorem Spells.mono (hD : D <+: D') (h : Spells D α es) : Spells D' α es := by
  refine List.Forall₂.imp (fun s e hs => ?_) h
  cases s with
  | terminal t => exact hs
  | nonterminal n => exact ⟨getElem?_grown hD hs.1, hs.2⟩

theorem Spells.mem {s : Symbol} (h : Spells D α es) (hs : s ∈ α) : ∃ e ∈ es, Stands D s e := by
  induction h with
  | nil => exact absurd hs List.not_mem_nil
  | @cons a e α es ha _ ih =>
    rcases List.mem_cons.1 hs with rfl | hs
    · exact ⟨e, List.mem_cons_self, ha⟩
    · obtain ⟨e, he, hstands⟩ := ih hs
      exact ⟨e, List.mem_cons_of_mem _ he, hstands⟩

theorem Spells.append (ha : Spells D α es) (hb : Spells D β fs) : Spells D (α ++ β) (es ++ fs) :=
  List.rel_append ha hb

theorem Spells.split (h : Spells D α (es ++ fs)) :
    ∃ β γ, α = β ++ γ ∧ Spells D β es ∧ Spells D γ fs :=
  ⟨_, _, (List.take_append_drop es.length α).symm, List.forall₂_take_append _ _ _ h,
    List.forall₂_drop_append _ _ _ h⟩

theorem spells_nonterminal {n : NonterminalId} {e : Expr} (h : D[n]? = some e)
    (he : ∀ t, e ≠ .terminal t) : Spells D [.nonterminal n] [e] :=
  .cons ⟨h, he⟩ .nil

theorem Spells.of_singleton {e : Expr} (h : Spells D α [e]) : ∃ s, α = [s] ∧ Stands D s e := by
  cases h with
  | cons hs hn =>
    cases hn
    exact ⟨_, rfl, hs⟩

/-! ## Sides -/

/-- What the productions of an expression's nonterminal spell. -/
inductive Side (rules : Rules) : Expr → List Expr → Prop
  | rule {r b} : b ∈ (rules.rule r).body.branches → Side rules (.rule r) b.pieces
  | alt {b bs} : b ∈ bs → Side rules (.alt bs) b.pieces
  | starMore (e : Expr) :
      Side rules (.repeated e .zeroOrMore) (e.pieces ++ [.repeated e .zeroOrMore])
  | starNone (e : Expr) : Side rules (.repeated e .zeroOrMore) []
  | plusMore (e : Expr) :
      Side rules (.repeated e .oneOrMore) (e.pieces ++ [.repeated e .oneOrMore])
  | plusOnce (e : Expr) : Side rules (.repeated e .oneOrMore) e.pieces
  | take (e : Expr) : Side rules (.repeated e .optional) e.pieces
  | skip (e : Expr) : Side rules (.repeated e .optional) []

variable {rules : Rules} {g : Grammar}

theorem Side.within {e : Expr} (hrefs : rules.RefsInRange) (he : e.Within rules)
    (hs : Side rules e es) : ∀ a ∈ es, a.Within rules := by
  have more {inner : Expr} {repetition : Repetition}
      (he : (Expr.repeated inner repetition).Within rules) :
      ∀ a ∈ inner.pieces ++ [.repeated inner repetition], a.Within rules := by
    intro a ha
    rcases List.mem_append.1 ha with ha | ha
    · exact Expr.within_pieces inner (Expr.within_repeated_iff.1 he) a ha
    · exact List.mem_singleton.1 ha ▸ he
  cases hs with
  | @rule r b hb =>
    have hbody := hrefs.within_rule (Expr.within_rule_iff.1 he)
    exact Expr.within_pieces b (Expr.within_branches_iff.2 hbody b hb)
  | alt hb => exact Expr.within_pieces _ (Expr.within_alt_iff.1 he _ hb)
  | starMore | plusMore => exact more he
  | starNone | skip => exact fun a ha => absurd ha List.not_mem_nil
  | plusOnce | take => exact Expr.within_pieces _ (Expr.within_repeated_iff.1 he)

/-- A side reads no more than its expression. -/
theorem Side.reads {e : Expr} (hs : Side rules e es) {x : Extent} {w : List TerminalId}
    (h : Expr.Reads rules x (.seq es) w) : Expr.Reads rules x e w := by
  cases hs with
  | rule hb => exact .rule (.branches hb ((Expr.reads_pieces _ _ _).1 h))
  | alt hb => exact .alt hb ((Expr.reads_pieces _ _ _).1 h)
  | starMore e => exact h.of_pieces_append.of_expands (.starMore e)
  | starNone e => exact h.of_expands (.starNone e)
  | plusMore e => exact h.of_pieces_append.of_expands (.plusMore e)
  | plusOnce e => exact .plusOnce ((Expr.reads_pieces _ _ _).1 h)
  | take e => exact .take ((Expr.reads_pieces _ _ _).1 h)
  | skip e => exact h.of_expands (.skip e)

/-- The grammar has a production of the nonterminal that spells the expressions. -/
def Has (g : Grammar) (D : List Expr) (n : NonterminalId) (es : List Expr) : Prop :=
  ∃ p ∈ g.productions, p.lhs = n ∧ Spells D p.rhs es

/-- The nonterminal has all its productions. -/
def Complete (rules : Rules) (g : Grammar) (D : List Expr) (n : NonterminalId) : Prop :=
  ∀ e es, D[n]? = some e → Side rules e es → Has g D n es

/-- The production spells a side of what its left-hand side stands for. -/
def Sound (rules : Rules) (D : List Expr) (p : Production) : Prop :=
  ∃ e es, D[p.lhs]? = some e ∧ Spells D p.rhs es ∧ Side rules e es

theorem Has.mono {g' : Grammar} {n : NonterminalId} (hp : g.productions ⊆ g'.productions)
    (hD : D <+: D') (h : Has g D n es) : Has g' D' n es := by
  obtain ⟨p, hmem, hn, hs⟩ := h
  exact ⟨p, hp hmem, hn, hs.mono hD⟩

theorem Sound.mono {p : Production} (hD : D <+: D') (h : Sound rules D p) : Sound rules D' p := by
  obtain ⟨e, es, he, hs, hside⟩ := h
  exact ⟨e, es, getElem?_grown hD he, hs.mono hD, hside⟩

theorem Complete.mono {g' : Grammar} {n : NonterminalId} (hn : n < D.length)
    (hp : g.productions ⊆ g'.productions) (hD : D <+: D') (h : Complete rules g D n) :
    Complete rules g' D' n := by
  intro e es he hside
  obtain ⟨more, rfl⟩ := hD
  rw [List.getElem?_append_left hn] at he
  exact (h e es he hside).mono hp ⟨more, rfl⟩

/-! ## The translation -/

/-- Every nonterminal stands for an expression, rules for themselves, and every production is
    sound. -/
structure Good (rules : Rules) (s : State) (D : List Expr) : Prop where
  count : s.grammar.nonterminals.length = D.length
  sound : ∀ p ∈ s.grammar.productions, Sound rules D p
  rule : ∀ r < rules.size, D[r]? = some (.rule r)
  within : ∀ e ∈ D, e.Within rules

/-- From one state to another the translation only adds, and what nonterminals it adds are
    complete. -/
structure Grows (rules : Rules) (s s' : State) (D D' : List Expr) : Prop where
  good : Good rules s' D'
  terminals : s'.grammar.terminals = s.grammar.terminals
  meanings : D <+: D'
  productions : s.grammar.productions ⊆ s'.grammar.productions
  complete : ∀ n, D.length ≤ n → n < D'.length → Complete rules s'.grammar D' n

variable {s s' s'' : State} {owner : RuleId}

theorem Good.refl (h : Good rules s D) : Grows rules s s D D :=
  ⟨h, rfl, List.prefix_rfl, fun _ hp => hp, fun _ h1 h2 => absurd h2 (Nat.not_lt.2 h1)⟩

theorem Grows.trans (h : Grows rules s s' D D') (h' : Grows rules s' s'' D' D'') :
    Grows rules s s'' D D'' where
  good := h'.good
  terminals := h'.terminals.trans h.terminals
  meanings := h.meanings.trans h'.meanings
  productions := fun _ hp => h'.productions (h.productions hp)
  complete n h1 h2 := by
    by_cases hn : n < D'.length
    · exact (h.complete n h1 hn).mono hn h'.productions h'.meanings
    · exact h'.complete n (Nat.le_of_not_lt hn) h2

/-- The new nonterminal stands for whatever it is made for. -/
theorem Good.fresh {e : Expr} (h : Good rules s D) (owner : RuleId) (he : e.Within rules) :
    (s.fresh rules owner).1 = D.length ∧ Good rules (s.fresh rules owner).2 (D ++ [e]) := by
  refine ⟨h.count, ⟨?_, fun p hp => ?_, fun r hr => ?_, fun a ha => ?_⟩⟩
  · simp [State.fresh, Grammar.addNonterminal, h.count]
  · exact (h.sound p hp).mono (List.prefix_append D [e])
  · exact getElem?_grown (List.prefix_append D [e]) (h.rule r hr)
  · rcases List.mem_append.1 ha with ha | ha
    · exact h.within a ha
    · exact List.mem_singleton.1 ha ▸ he

theorem Good.produce {n : NonterminalId} {e : Expr} (h : Good rules s D) (owner : RuleId)
    (hn : D[n]? = some e)
    (hα : Spells D α es) (hs : Side rules e es) :
    Grows rules s (s.produce rules owner n α) D D ∧
      Has (s.produce rules owner n α).grammar D n es := by
  refine ⟨⟨⟨h.count, fun p hp => ?_, h.rule, h.within⟩, rfl, List.prefix_rfl, fun p hp => ?_,
    fun m h1 h2 => absurd h2 (Nat.not_lt.2 h1)⟩, ?_⟩
  · rcases List.mem_append.1 hp with hp | hp
    · exact h.sound p hp
    · obtain rfl := List.mem_singleton.1 hp
      exact ⟨e, es, hn, hα, hs⟩
  · exact List.mem_append_left _ hp
  · exact ⟨_, List.mem_append_right _ (List.mem_singleton_self _), rfl, hα⟩

/-- Productions for several sides of one nonterminal. -/
theorem Good.produce_all {n : NonterminalId} {e : Expr} {sides : List (List Symbol)}
    (h : Good rules s D) (owner : RuleId) (hn : D[n]? = some e)
    (hs : ∀ α ∈ sides, ∃ es, Spells D α es ∧ Side rules e es) :
    Grows rules s (sides.foldl (fun s rhs => s.produce rules owner n rhs) s) D D ∧
      ∀ α ∈ sides, ∀ es, Spells D α es →
        Has (sides.foldl (fun s rhs => s.produce rules owner n rhs) s).grammar D n es := by
  induction sides generalizing s with
  | nil => exact ⟨h.refl, fun α hα => absurd hα List.not_mem_nil⟩
  | cons β sides ih =>
    obtain ⟨fs, hβ, hside⟩ := hs β List.mem_cons_self
    obtain ⟨hg, hhas⟩ := h.produce owner hn hβ hside
    obtain ⟨hg', hhas'⟩ := ih hg.good fun α hα => hs α (List.mem_cons_of_mem _ hα)
    refine ⟨hg.trans hg', fun α hα es hes => ?_⟩
    rcases List.mem_cons.1 hα with rfl | hα
    · have : es = fs := hes.meaningOf.symm.trans hβ.meaningOf
      exact this ▸ hhas.mono hg'.productions hg'.meanings
    · exact hhas' α hα es hes

/-- The sides of a repetition are spelled by its right-hand sides and nothing else. -/
theorem side_repeated_iff (rules : Rules) {n : NonterminalId} {inner : Expr}
    {repetition : Repetition} {body : List Symbol} (hn : D[n]? = some (.repeated inner repetition))
    (hb : Spells D body inner.pieces) :
    (∀ α ∈ repetitionSides n body repetition,
      ∃ es, Spells D α es ∧ Side rules (.repeated inner repetition) es) ∧
    ∀ es, Side rules (.repeated inner repetition) es →
      ∃ α ∈ repetitionSides n body repetition, Spells D α es := by
  have hmore := hb.append (spells_nonterminal hn nofun)
  cases repetition with
  | zeroOrMore =>
    simp only [repetitionSides, List.forall_mem_cons, List.exists_mem_cons_iff]
    refine ⟨⟨⟨_, hmore, .starMore _⟩, ⟨_, .nil, .starNone _⟩, by simp⟩, fun es hs => ?_⟩
    cases hs with
    | starMore => exact .inl hmore
    | starNone => exact .inr (.inl .nil)
  | oneOrMore =>
    simp only [repetitionSides, List.forall_mem_cons, List.exists_mem_cons_iff]
    refine ⟨⟨⟨_, hmore, .plusMore _⟩, ⟨_, hb, .plusOnce _⟩, by simp⟩, fun es hs => ?_⟩
    cases hs with
    | plusMore => exact .inl hmore
    | plusOnce => exact .inr (.inl hb)
  | optional =>
    simp only [repetitionSides, List.forall_mem_cons, List.exists_mem_cons_iff]
    refine ⟨⟨⟨_, hb, .take _⟩, ⟨_, .nil, .skip _⟩, by simp⟩, fun es hs => ?_⟩
    cases hs with
    | take => exact .inl hb
    | skip => exact .inr (.inl .nil)

/-- A nonterminal made first and filled last is complete like all those made in between. -/
theorem Grows.close {e : Expr}
    (h : Grows rules (s.fresh rules owner).2 s' (D ++ [e]) D')
    (hc : Complete rules s'.grammar D' D.length) : Grows rules s s' D D' where
  good := h.good
  terminals := h.terminals
  meanings := (List.prefix_append D [e]).trans h.meanings
  productions := h.productions
  complete n h1 h2 := by
    rcases Nat.eq_or_lt_of_le h1 with rfl | h1
    · exact hc
    · exact h.complete n (by rw [List.length_append]; exact h1) h2

mutual

/-- The symbols of an expression spell its pieces. -/
theorem symbols_spells (e : Expr) (s : State) (D : List Expr) (h : Good rules s D)
    (he : e.Within rules) :
    ∃ D', Grows rules s (symbols rules owner e s).2 D D' ∧
      Spells D' (symbols rules owner e s).1 e.pieces := by
  match e with
  | .empty =>
    rw [symbols, Expr.pieces]
    exact ⟨D, h.refl, .nil⟩
  | .terminal t =>
    rw [symbols, Expr.pieces]
    exact ⟨D, h.refl, .cons rfl .nil⟩
  | .rule r =>
    rw [symbols, Expr.pieces]
    exact ⟨D, h.refl, spells_nonterminal (h.rule r (Expr.within_rule_iff.1 he)) nofun⟩
  | .seq items =>
    rw [symbols, Expr.pieces]
    exact symbolsOfAll_spells items s D h (Expr.within_seq_iff.1 he)
  | .alt bs =>
    obtain ⟨hn, hf⟩ := h.fresh owner he
    rw [symbols, Expr.pieces]
    dsimp only
    rw [hn]
    have hlast : (D ++ [Expr.alt bs])[D.length]? = some (.alt bs) := by simp
    obtain ⟨D', hg, hhas⟩ := produceAll_has bs _ _ D.length (.alt bs) hf hlast
      (fun b hb => .alt hb) (Expr.within_alt_iff.1 he)
    refine ⟨D', hg.close fun e es he hs => ?_,
      spells_nonterminal (getElem?_grown hg.meanings hlast) nofun⟩
    rw [getElem?_grown hg.meanings hlast, Option.some.injEq] at he
    subst he
    cases hs with
    | alt hb => exact hhas _ hb
  | .repeated inner repetition =>
    obtain ⟨hn, hf⟩ := h.fresh owner he
    rw [symbols, Expr.pieces]
    dsimp only
    rw [hn]
    obtain ⟨D', hg, hb⟩ := symbols_spells inner _ _ hf (Expr.within_repeated_iff.1 he)
    have hlast : D'[D.length]? = some (.repeated inner repetition) :=
      getElem?_grown hg.meanings (by simp)
    obtain ⟨hsides, hall⟩ := side_repeated_iff rules hlast hb
    obtain ⟨hg', hhas⟩ := hg.good.produce_all owner hlast hsides
    refine ⟨D', (hg.trans hg').close fun e es he hs => ?_, spells_nonterminal hlast nofun⟩
    rw [hlast, Option.some.injEq] at he
    subst he
    obtain ⟨α, hα, hes⟩ := hall es hs
    exact hhas α hα es hes

theorem symbolsOfAll_spells (items : List Expr) (s : State) (D : List Expr)
    (h : Good rules s D) (hitems : ∀ e ∈ items, e.Within rules) :
    ∃ D', Grows rules s (symbolsOfAll rules owner items s).2 D D' ∧
      Spells D' (symbolsOfAll rules owner items s).1 (Expr.piecesOfAll items) := by
  match items with
  | [] =>
    rw [symbolsOfAll, Expr.piecesOfAll]
    exact ⟨D, h.refl, .nil⟩
  | item :: rest =>
    rw [symbolsOfAll, Expr.piecesOfAll]
    obtain ⟨D', hg, hs⟩ := symbols_spells item s D h (hitems item List.mem_cons_self)
    obtain ⟨D'', hg', hs'⟩ := symbolsOfAll_spells rest _ D' hg.good
      fun e he => hitems e (List.mem_cons_of_mem _ he)
    exact ⟨D'', hg.trans hg', (hs.mono hg'.meanings).append hs'⟩

/-- Every branch gets a production that spells its pieces. -/
theorem produceAll_has (bs : List Expr) (s : State) (D : List Expr) (lhs : NonterminalId)
    (e : Expr) (h : Good rules s D) (hlhs : D[lhs]? = some e)
    (hside : ∀ b ∈ bs, Side rules e b.pieces) (hbs : ∀ b ∈ bs, b.Within rules) :
    ∃ D', Grows rules s (produceAll rules owner lhs bs s) D D' ∧
      ∀ b ∈ bs, Has (produceAll rules owner lhs bs s).grammar D' lhs b.pieces := by
  match bs with
  | [] =>
    rw [produceAll]
    exact ⟨D, h.refl, fun b hb => absurd hb List.not_mem_nil⟩
  | branch :: rest =>
    rw [produceAll]
    dsimp only
    obtain ⟨D1, hg1, hs1⟩ := symbols_spells branch s D h (hbs branch List.mem_cons_self)
    have hlhs1 := getElem?_grown hg1.meanings hlhs
    obtain ⟨hg2, hhas2⟩ := hg1.good.produce owner hlhs1 hs1
      (hside branch List.mem_cons_self)
    obtain ⟨D3, hg3, hhas3⟩ := produceAll_has rest _ D1 lhs e hg2.good hlhs1
      (fun b hb => hside b (List.mem_cons_of_mem _ hb))
      fun b hb => hbs b (List.mem_cons_of_mem _ hb)
    refine ⟨D3, (hg1.trans hg2).trans hg3, fun b hb => ?_⟩
    rcases List.mem_cons.1 hb with rfl | hb
    · exact hhas2.mono hg3.productions hg3.meanings
    · exact hhas3 b hb

end

/-! ## The grammar of all rules -/

/-- Rules are translated one after the other, each for the nonterminal of its number. -/
theorem produceRules_has (hrefs : rules.RefsInRange) (l : List (Rule × RuleId))
    (hl : ∀ x ∈ l, rules.rules[x.2]? = some x.1) (h : Good rules s D) :
    ∃ D', Grows rules s
        (l.foldl (fun s (rule, r) => produceAll rules r r rule.body.branches s) s) D D' ∧
      ∀ x ∈ l, ∀ b ∈ x.1.body.branches,
        Has (l.foldl (fun s (rule, r) => produceAll rules r r rule.body.branches s) s).grammar
          D' x.2 b.pieces := by
  induction l generalizing s D with
  | nil => exact ⟨D, h.refl, fun x hx => absurd hx List.not_mem_nil⟩
  | cons y l ih =>
    obtain ⟨rule, r⟩ := y
    have hrule : rules.rules[r]? = some rule := hl (rule, r) List.mem_cons_self
    have hr : r < rules.size := (List.getElem?_eq_some_iff.1 hrule).1
    obtain rfl := Rules.rule_eq_of_getElem? hrule
    obtain ⟨D1, hg1, hhas1⟩ := @produceAll_has rules r (rules.rule r).body.branches s D r
      (.rule r) h (h.rule r hr) (fun b hb => .rule hb)
      (Expr.within_branches_iff.2 (hrefs.within_rule hr))
    obtain ⟨D2, hg2, hhas2⟩ := ih (fun x hx => hl x (List.mem_cons_of_mem _ hx)) hg1.good
    refine ⟨D2, hg1.trans hg2, fun x hx b hb => ?_⟩
    rcases List.mem_cons.1 hx with rfl | hx
    · exact (hhas1 b hb).mono hg2.productions hg2.meanings
    · exact hhas2 x hx b hb

/-- The grammar that has the nonterminals of the rules and no productions yet. -/
def named (rules : Rules) (catalog : Catalog) : Grammar :=
  rules.rules.foldl (fun g rule => (g.addNonterminal rule.name rule.span).2)
    (Grammar.ofCatalog catalog)

theorem foldl_addNonterminal (l : List Rule) (g : Grammar) :
    (l.foldl (fun g rule => (g.addNonterminal rule.name rule.span).2) g).nonterminals.length =
        g.nonterminals.length + l.length ∧
      (l.foldl (fun g rule => (g.addNonterminal rule.name rule.span).2) g).productions =
        g.productions ∧
      (l.foldl (fun g rule => (g.addNonterminal rule.name rule.span).2) g).terminals =
        g.terminals := by
  induction l generalizing g with
  | nil => exact ⟨rfl, rfl, rfl⟩
  | cons rule l ih =>
    obtain ⟨h1, h2, h3⟩ := ih (g.addNonterminal rule.name rule.span).2
    refine ⟨h1.trans ?_, h2, h3⟩
    simp only [Grammar.addNonterminal, List.length_append, List.length_cons, List.length_nil]
    omega

/-- Before the first production every rule's nonterminal stands for the rule. -/
theorem good_named (rules : Rules) (catalog : Catalog) (counters : List Nat) :
    Good rules ⟨named rules catalog, counters⟩ ((List.range rules.size).map .rule) := by
  obtain ⟨h1, h2, -⟩ := foldl_addNonterminal rules.rules (Grammar.ofCatalog catalog)
  refine ⟨?_, fun p hp => ?_, fun r hr => ?_, fun e he => ?_⟩
  · simpa [named, Grammar.ofCatalog, Rules.size] using h1
  · rw [named, h2] at hp
    exact absurd hp List.not_mem_nil
  · rw [List.getElem?_map, List.getElem?_range hr, Option.map_some]
  · obtain ⟨r, hr, rfl⟩ := List.mem_map.1 he
    exact Expr.within_rule_iff.2 (List.mem_range.1 hr)

/-- The direct grammar with what its nonterminals stand for. -/
structure Translates (rules : Rules) (catalog : Catalog) (g : Grammar) (D : List Expr) :
    Prop where
  terminals : g.terminals = (Grammar.ofCatalog catalog).terminals
  count : g.nonterminals.length = D.length
  sound : ∀ p ∈ g.productions, Sound rules D p
  rule : ∀ r < rules.size, D[r]? = some (.rule r)
  within : ∀ e ∈ D, e.Within rules
  complete : ∀ n, Complete rules g D n

theorem direct_translates (hrefs : rules.RefsInRange) (catalog : Catalog) :
    ∃ D, Translates rules catalog (rules.direct catalog) D := by
  have hstart := good_named rules catalog (rules.rules.map fun _ => 0)
  have hl : ∀ x ∈ rules.rules.zipIdx, rules.rules[x.2]? = some x.1 := fun x hx =>
    List.mk_mem_zipIdx_iff_getElem?.1 hx
  obtain ⟨D, hg, hhas⟩ := produceRules_has hrefs rules.rules.zipIdx hl hstart
  have hterminals := (foldl_addNonterminal rules.rules (Grammar.ofCatalog catalog)).2.2
  refine ⟨D, hg.terminals.trans hterminals, hg.good.count, hg.good.sound, hg.good.rule,
    hg.good.within, fun n e es he hside => ?_⟩
  by_cases hn : n < rules.size
  · rw [hg.good.rule n hn, Option.some.injEq] at he
    subst he
    cases hside with
    | rule hb =>
      have hget : rules.rules[n]? = some rules.rules[n] := List.getElem?_eq_getElem hn
      rw [Rules.rule_eq_of_getElem? hget] at hb
      exact hhas (rules.rules[n], n) (List.mk_mem_zipIdx_iff_getElem?.2 hget) _ hb
  · have hD : ((List.range rules.size).map Expr.rule).length ≤ n := by
      simpa using Nat.le_of_not_lt hn
    exact hg.complete n hD (List.getElem?_eq_some_iff.1 he).1 e es he hside

theorem Translates.wellFormed {catalog : Catalog} (ht : Translates rules catalog g D)
    (hrefs : rules.RefsInRange) (hactions : ∀ t ∈ rules.actions, t < catalog.size)
    (hstart : g.start < rules.size) : g.WellFormed := by
  have hlength {n : NonterminalId} {e : Expr} (h : D[n]? = some e) :
      n < g.nonterminals.length := by
    rw [ht.count]
    exact (List.getElem?_eq_some_iff.1 h).1
  refine ⟨by simp [ht.terminals, Grammar.ofCatalog], hlength (ht.rule _ hstart),
    fun p hp => ?_, fun p hp n hn => ?_, fun p hp t hmem => ?_⟩ <;>
    obtain ⟨e, es, he, hs, hside⟩ := ht.sound p hp
  · exact hlength he
  · obtain ⟨a, -, ha⟩ := hs.mem hn
    exact hlength ha.1
  · obtain ⟨a, ha, rfl⟩ := hs.mem hmem
    have hwithin := hside.within hrefs (ht.within e (List.mem_of_getElem? he)) _ ha
    rw [Grammar.endTerminal_eq_size ht.terminals]
    exact hactions t (hwithin.actions t (List.mem_singleton_self t))

/-! ## Readings -/

variable {catalog : Catalog} {x : Extent} {e : Expr} {w : List TerminalId}

/-- The grammar has productions of the nonterminal for every branch of the expression. -/
def HasBranches (g : Grammar) (D : List Expr) (n : NonterminalId) (e : Expr) : Prop :=
  ∀ b ∈ e.branches, Has g D n b.pieces

theorem Has.expand {n : NonterminalId} (h : Has g D n es)
    (hr : ∀ α, Spells D α es → g.Reads x α w) : g.Reads x [.nonterminal n] w := by
  obtain ⟨p, hp, hn, hs⟩ := h
  exact .expand hp hn ((List.append_nil p.rhs).symm ▸ hr p.rhs hs)

/-- An expression that is read by its pieces is read by the production of its only branch. -/
theorem HasBranches.expand {n : NonterminalId} (hb : e.branches = [e])
    (hr : ∀ α, Spells D α e.pieces → g.Reads x α w) (h : HasBranches g D n e) :
    g.Reads x [.nonterminal n] w :=
  (h e (hb ▸ List.mem_singleton_self e)).expand hr

/-- Symbols that spell an expression read what a side of the expression reads. -/
theorem Translates.reads_of_side (ht : Translates rules catalog g D) (hside : Side rules e es)
    (hr : ∀ α, Spells D α es → g.Reads x α w) {α : List Symbol} (hα : Spells D α [e])
    (he : ∀ t, e ≠ .terminal t) : g.Reads x α w := by
  obtain ⟨s, rfl, hs⟩ := hα.of_singleton
  cases s with
  | terminal t => exact absurd hs (he t)
  | nonterminal n => exact (ht.complete n e es hs.1 hside).expand hr

/-- Symbols that spell an expression read it, and so does a nonterminal with a production for
    every branch. The second half is what a reference to a rule and an alternation need. -/
theorem Translates.reads (ht : Translates rules catalog g D) (h : Expr.Reads rules x e w) :
    (∀ α, Spells D α e.pieces → g.Reads x α w) ∧
      ∀ n, HasBranches g D n e → g.Reads x [.nonterminal n] w := by
  -- All expressions but alternations have one branch, and the first half gives the second.
  have single {x e w} (hb : e.branches = [e])
      (hr : ∀ α, Spells D α e.pieces → g.Reads x α w) :
      (∀ α, Spells D α e.pieces → g.Reads x α w) ∧
        ∀ n, HasBranches g D n e → g.Reads x [.nonterminal n] w :=
    ⟨hr, fun _ hn => hn.expand hb hr⟩
  have nothing {α} (h : Spells D α []) : g.Reads .whole α [] := by
    cases h
    exact .nil
  have here {w} {as : List Expr} (bs : List Expr)
      (ih : ∀ α, Spells D α as → g.Reads .start α w) {α} (h : Spells D α (as ++ bs)) :
      g.Reads .start α w := by
    obtain ⟨β, γ, rfl, hβ, -⟩ := h.split
    exact (ih β hβ).append_here γ
  have past {x u v} {as bs : List Expr} (ihu : ∀ α, Spells D α as → g.Reads .whole α u)
      (ihv : ∀ α, Spells D α bs → g.Reads x α v) {α} (h : Spells D α (as ++ bs)) :
      g.Reads x α (u ++ v) := by
    obtain ⟨β, γ, rfl, hβ, hγ⟩ := h.split
    exact (ihu β hβ).append (ihv γ hγ)
  induction h with
  | cut e => exact ⟨fun α _ => .cut α, fun n _ => .cut _⟩
  | empty => exact single rfl fun α hα => nothing hα
  | terminal x t =>
    refine single rfl fun α hα => ?_
    obtain ⟨s, rfl, hs⟩ := hα.of_singleton
    cases s with
    | terminal t' =>
      obtain rfl := Expr.terminal.inj hs
      cases x with
      | whole => exact .terminal .nil
      | start => exact .terminal (.cut _)
    | nonterminal n => exact absurd rfl (hs.2 t)
  | rule _ ih =>
    refine single rfl fun α hα => ?_
    obtain ⟨s, rfl, hs⟩ := hα.of_singleton
    cases s with
    | terminal t => cases hs
    | nonterminal n => exact ih.2 n fun b hb => ht.complete n _ _ hs.1 (.rule hb)
  | seqNil => exact single rfl fun α hα => nothing hα
  | seqHere _ ih => exact single rfl fun α hα => here _ ih.1 hα
  | seqPast _ _ ihu ihv => exact single rfl fun α hα => past ihu.1 ihv.1 hα
  | alt hb _ ih =>
    refine ⟨fun α hα => ht.reads_of_side (.alt hb) ih.1 hα nofun, fun n h => ?_⟩
    exact (h _ hb).expand ih.1
  | starNone =>
    exact single rfl fun α hα => ht.reads_of_side (.starNone _) (fun _ => nothing) hα nofun
  | starHere _ ih =>
    exact single rfl fun α hα => ht.reads_of_side (.starMore _) (fun _ => here _ ih.1) hα nofun
  | starPast _ _ ihu ihv =>
    exact single rfl fun α hα =>
      ht.reads_of_side (.starMore _) (fun _ => past ihu.1 ihv.1) hα nofun
  | plusOnce _ ih =>
    exact single rfl fun α hα => ht.reads_of_side (.plusOnce _) ih.1 hα nofun
  | plusMore _ _ ihu ihv =>
    exact single rfl fun α hα =>
      ht.reads_of_side (.plusMore _) (fun _ => past ihu.1 ihv.1) hα nofun
  | skip =>
    exact single rfl fun α hα => ht.reads_of_side (.skip _) (fun _ => nothing) hα nofun
  | take _ ih => exact single rfl fun α hα => ht.reads_of_side (.take _) ih.1 hα nofun

theorem Translates.sound_reads (ht : Translates rules catalog g D) {α : List Symbol}
    (h : g.Reads x α w) : Expr.Reads rules x (.seq (meaningOf (meanings D) α)) w := by
  refine Grammar.reads_of_sound (fun p hp x w hr => ?_) h
  obtain ⟨e, es, he, hs, hside⟩ := ht.sound p hp
  rw [hs.meaningOf] at hr
  rw [meanings, he, Option.toList_some]
  exact Expr.reads_seq_singleton.2 (hside.reads hr)

end Direct

open Direct

/-- The nonterminal of a rule reads in the direct grammar what the rule reads. -/
theorem Rules.reads_direct {rules : Rules} (hrefs : rules.RefsInRange) (catalog : Catalog)
    {r : RuleId} (hr : r < rules.size) {x : Extent} {w : List TerminalId} :
    (rules.direct catalog).Reads x [.nonterminal r] w ↔ Expr.Reads rules x (.rule r) w := by
  obtain ⟨D, ht⟩ := direct_translates hrefs catalog
  have hspells := spells_nonterminal (ht.rule r hr) nofun
  constructor
  · intro h
    have := ht.sound_reads h
    rw [hspells.meaningOf] at this
    exact Expr.reads_seq_singleton.1 this
  · intro h
    exact (ht.reads h).1 _ hspells

end FluentGrammar
