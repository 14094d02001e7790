import FluentGrammar.Proofs.Lowering.Flatten

/-
  What flattening adds to a grammar. Every step of the translation is one of a few changes of its
  state, so a relation between states that these changes keep holds from the first state of a
  translation to its last (`Steady.expandRule`). One such relation is that nonterminals and
  productions are only added, each production with a nonterminal behind at most one action
  (`Adds`). So the only production of a flattened grammar that derives nothing on its own is the
  first, that of the final continuation (`productions_of_flatten`).
-/

namespace FluentGrammar.Flatten

variable {rules : Rules} {R : State → State → Prop} {owner : RuleId} {n next : NonterminalId}
  {s s' s'' : State}

/-! ## Relations that the translation keeps -/

/-- A relation from earlier to later states that holds of every change made for an expression. -/
structure Calm (rules : Rules) (R : State → State → Prop) : Prop where
  refl : ∀ s, R s s
  trans : ∀ {s s' s''}, R s s' → R s' s'' → R s s''
  fresh : ∀ s owner, R s (s.fresh rules owner).2
  produce : ∀ s owner n a m, R s (s.produce rules owner n (side a m))

/-- A relation from earlier to later states that holds of every change the translation makes. -/
structure Steady (rules : Rules) (R : State → State → Prop) : Prop extends Calm rules R where
  ruleNonterminal : ∀ s r, R s (s.ruleNonterminal rules r).2
  /-- Expansions found and rules opened or closed. -/
  record : ∀ s expansions active, R s { s with expansions, active }

/-- The expansion of rules keeps the relation. -/
def Keeps (R : State → State → Prop) (expandRule : RuleId → NonterminalId → State → Result) :
    Prop :=
  ∀ r next s n s', expandRule r next s = .ok (n, s') → R s s'

section

variable {f : RuleId → NonterminalId → State → Result}

mutual

theorem Calm.expand (h : Calm rules R) (hf : Keeps R f) (e : Expr) (next : NonterminalId)
    (s : State) (n : NonterminalId) (s' : State)
    (hok : expand rules f owner e next s = .ok (n, s')) : R s s' := by
  match e with
  | .empty =>
    rw [Flatten.expand] at hok
    cases hok
    exact h.refl s
  | .terminal t =>
    rw [Flatten.expand] at hok
    cases hok
    exact h.trans (h.fresh s owner) (h.produce _ owner _ (some t) next)
  | .rule r =>
    rw [Flatten.expand] at hok
    exact hf r next s n s' hok
  | .seq items =>
    rw [Flatten.expand] at hok
    exact h.expandSeq hf items next s n s' hok
  | .alt bs =>
    rw [Flatten.expand] at hok
    obtain ⟨s₁, h1, hok⟩ := of_bind_eq_ok hok
    cases hok
    exact h.trans (h.fresh s owner) (h.expandAlt hf bs _ next _ s' h1)
  | .repeated inner .zeroOrMore =>
    rw [Flatten.expand] at hok
    obtain ⟨⟨body, s₁⟩, h1, hok⟩ := of_bind_eq_ok hok
    cases hok
    have hbody := h.trans (h.fresh s owner) (h.expand hf inner _ _ body s₁ h1)
    refine h.trans ?_ (h.produce _ owner _ none next)
    exact h.trans hbody (h.produce _ owner _ none body)
  | .repeated inner .oneOrMore =>
    rw [Flatten.expand] at hok
    obtain ⟨⟨body, s₁⟩, h1, hok⟩ := of_bind_eq_ok hok
    cases hok
    have htwo := h.trans (h.fresh s owner) (h.fresh _ owner)
    have hbody := h.trans htwo (h.expand hf inner _ _ body s₁ h1)
    refine h.trans ?_ (h.produce _ owner _ none next)
    refine h.trans ?_ (h.produce _ owner _ none _)
    exact h.trans hbody (h.produce _ owner _ none body)
  | .repeated inner .optional =>
    rw [Flatten.expand] at hok
    obtain ⟨⟨body, s₁⟩, h1, hok⟩ := of_bind_eq_ok hok
    cases hok
    have hbody := h.trans (h.fresh s owner) (h.expand hf inner _ _ body s₁ h1)
    refine h.trans ?_ (h.produce _ owner _ none next)
    exact h.trans hbody (h.produce _ owner _ none body)

theorem Calm.expandSeq (h : Calm rules R) (hf : Keeps R f) (items : List Expr)
    (next : NonterminalId) (s : State) (n : NonterminalId) (s' : State)
    (hok : expandSeq rules f owner items next s = .ok (n, s')) : R s s' := by
  match items with
  | [] =>
    rw [Flatten.expandSeq] at hok
    cases hok
    exact h.refl s
  | item :: rest =>
    rw [Flatten.expandSeq] at hok
    obtain ⟨⟨after, s₁⟩, h1, hok⟩ := of_bind_eq_ok hok
    have hrest := h.expandSeq hf rest next s after s₁ h1
    exact h.trans hrest (h.expand hf item after s₁ n s' hok)

theorem Calm.expandAlt (h : Calm rules R) (hf : Keeps R f) (bs : List Expr)
    (n next : NonterminalId) (s s' : State)
    (hok : expandAlt rules f owner n bs next s = .ok s') : R s s' := by
  match bs with
  | [] =>
    rw [Flatten.expandAlt] at hok
    cases hok
    exact h.refl s
  | branch :: rest =>
    rw [Flatten.expandAlt] at hok
    obtain ⟨⟨target, s₁⟩, h1, hok⟩ := of_bind_eq_ok hok
    have hbranch := h.expand hf branch next s target s₁ h1
    have hproduce := h.trans hbranch (h.produce s₁ owner n none target)
    exact h.trans hproduce (h.expandAlt hf rest n next _ s' hok)

end

theorem Steady.expandRule (h : Steady rules R) (room : Nat) :
    Keeps R (expandRule rules room) := by
  induction room with
  | zero =>
    intro r next s n s' hok
    cases ExpandRuleCall.of_eq_ok hok with
    | found => exact h.refl s
  | succ room ih =>
    intro r next s n s' hok
    cases ExpandRuleCall.of_eq_ok hok with
    | found => exact h.refl s
    | @entered _ body s₁ _ _ h1 =>
      have hbody := h.expand ih _ next _ body s₁ h1
      refine h.trans ?_ (h.produce _ r _ none body)
      refine h.trans ?_ (h.record s₁ s₁.expansions (s₁.active.drop 1))
      refine h.trans ?_ hbody
      exact h.trans (h.ruleNonterminal s r) (h.record _ _ _)

end

/-! ## Additions -/

/-- The grammar of the later state has more nonterminals and more productions, each of which goes
    on with a nonterminal. -/
def Adds (s s' : State) : Prop :=
  s.grammar.nonterminals <+: s'.grammar.nonterminals ∧
    ∃ more, s'.grammar.productions = s.grammar.productions ++ more ∧
      ∀ p ∈ more, ∃ a m, p.rhs = side a m

/-- A change that leaves the productions alone. -/
theorem adds_of_productions_eq (hn : s.grammar.nonterminals <+: s'.grammar.nonterminals)
    (hp : s'.grammar.productions = s.grammar.productions) : Adds s s' := by
  refine ⟨hn, [], ?_, fun p hp => absurd hp List.not_mem_nil⟩
  rw [hp, List.append_nil]

theorem adds_trans (h : Adds s s') (h' : Adds s' s'') : Adds s s'' := by
  obtain ⟨hn, more, hmore, hall⟩ := h
  obtain ⟨hn', more', hmore', hall'⟩ := h'
  refine ⟨hn.trans hn', more ++ more', ?_, fun p hp => ?_⟩
  · rw [hmore', hmore, List.append_assoc]
  · rcases List.mem_append.1 hp with hp | hp
    · exact hall p hp
    · exact hall' p hp

theorem steady_adds (rules : Rules) : Steady rules Adds where
  refl s := adds_of_productions_eq List.prefix_rfl rfl
  trans := adds_trans
  fresh s owner := adds_of_productions_eq (List.prefix_append _ _) rfl
  ruleNonterminal s r := by
    unfold State.ruleNonterminal
    split
    · exact adds_of_productions_eq (List.prefix_append _ _) rfl
    · exact adds_of_productions_eq (List.prefix_append _ _) rfl
  produce s owner n a m := by
    refine ⟨List.prefix_rfl, [⟨n, side a m, (rules.rule owner).span⟩], rfl, fun p hp => ?_⟩
    exact ⟨a, m, List.mem_singleton.1 hp ▸ rfl⟩
  record s expansions active := adds_of_productions_eq List.prefix_rfl rfl

/-- The final continuation is the first nonterminal and has the first production. All the others
    go on with a nonterminal, and none of them is a production of the final continuation. -/
theorem productions_of_flatten {catalog : Catalog} {g : Grammar} (hrefs : rules.RefsInRange)
    (hsize : 0 < rules.size) (hok : rules.flatten catalog = .ok g) :
    (g.nonterminal 0).name = finishName ∧
      ∃ more, g.productions = ⟨0, [], (rules.rule Rules.start).span⟩ :: more ∧
        ∀ p ∈ more, p.lhs ≠ 0 ∧ ∃ a m, p.rhs = side a m := by
  rw [Rules.flatten] at hok
  dsimp only at hok
  obtain ⟨⟨start, s'⟩, h1, hok⟩ := of_bind_eq_ok hok
  cases hok
  obtain ⟨⟨nonterminals, hn⟩, more, hmore, hall⟩ :=
    (steady_adds rules).expandRule rules.size _ _ _ start s' h1
  obtain ⟨D, hg, -⟩ := expandRule_expands hrefs rules.size Rules.start 0 _ [[]] [] start s'
    (good_opening rules catalog) rfl hsize h1
  have hfirst : D[0]? = some [] := getElem?_grown hg.meanings rfl
  refine ⟨?_, more, hmore, fun p hp => ⟨fun h0 => ?_, hall p hp⟩⟩
  · show (s'.grammar.nonterminals.getD 0 default).name = finishName
    rw [← hn]
    rfl
  · obtain ⟨a, m, hside⟩ := hall p hp
    have hmem : p ∈ s'.grammar.productions := by
      rw [hmore]
      exact List.mem_append_right _ hp
    obtain ⟨-, hnil⟩ | ⟨k, a', k', m', hk, hmove, -⟩ := hg.good.sound p hmem
    · rw [hnil] at hside
      cases a <;> cases hside
    · rw [h0, hfirst, Option.some.injEq] at hk
      subst hk
      cases hmove

end FluentGrammar.Flatten
