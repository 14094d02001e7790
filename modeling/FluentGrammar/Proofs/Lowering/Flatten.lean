import FluentGrammar.Proofs.Lowering.Expansions
import FluentGrammar.Proofs.Lowering.Pieces

/-
  The flattened grammar reads what the start rule reads (`reads_flatten`). Every nonterminal stands
  for a stack of expressions, what is still to be read: the final continuation for the empty
  stack, and the nonterminal of an expression with a continuation for that expression on top of
  the continuation's stack. Every production is a move of its stack (`Move`). The invariant of the
  translation is that all productions are moves, that an expansion found again stands for the rule
  on top of its continuation, and that a nonterminal has a production for every move of its stack
  once the call that made it has returned. While a rule is being expanded its nonterminal may be
  used, but it is complete only afterwards, so completeness is told of the nonterminals that are
  new since a state.
-/

namespace FluentGrammar

namespace Flatten

/-! ## Moves -/

/-- What can be done with the top of a stack: an action is taken, or an expression is replaced. -/
inductive Move (rules : Rules) : List Expr → Option TerminalId → List Expr → Prop
  | action (t : TerminalId) (k : List Expr) : Move rules (.terminal t :: k) (some t) k
  | rule (r : RuleId) (k : List Expr) :
      Move rules (.rule r :: k) none ((rules.rule r).body.pieces ++ k)
  | alt {b bs} (k : List Expr) : b ∈ bs → Move rules (.alt bs :: k) none (b.pieces ++ k)
  | starMore (e : Expr) (k : List Expr) :
      Move rules (.repeated e .zeroOrMore :: k) none
        (e.pieces ++ .repeated e .zeroOrMore :: k)
  | starNone (e : Expr) (k : List Expr) : Move rules (.repeated e .zeroOrMore :: k) none k
  | plus (e : Expr) (k : List Expr) :
      Move rules (.repeated e .oneOrMore :: k) none
        (e.pieces ++ .repeated (.repeated e .oneOrMore) .optional :: k)
  | take (e : Expr) (k : List Expr) :
      Move rules (.repeated e .optional :: k) none (e.pieces ++ k)
  | skip (e : Expr) (k : List Expr) : Move rules (.repeated e .optional :: k) none k

variable {rules : Rules} {g : Grammar} {x : Extent} {a : Option TerminalId}
  {k k' : List Expr} {u v w : List TerminalId}

/-- The stack after a move that takes no action reads no more than the stack before. -/
theorem Move.reads (h : Move rules k none k') (hw : Expr.Reads rules x (.seq k') w) :
    Expr.Reads rules x (.seq k) w := by
  cases h with
  | rule r k => exact Expr.Reads.of_expands_append (.rule r) hw.of_pieces_append
  | alt k hb => exact Expr.Reads.of_expands_append (.alt hb) hw.of_pieces_append
  | starMore e k => exact Expr.Reads.of_expands_append (.starMore e) hw.of_pieces_append
  | starNone e => exact Expr.Reads.of_expands_append (.starNone e) hw
  | plus e k =>
    -- Behind the first one there are more of them or none.
    cases hw.of_pieces_append with
    | cut => exact .cut _
    | seqHere h => exact .seqHere (.plusOnce h)
    | seqPast hu hv =>
      cases hv with
      | cut => simpa using Expr.Reads.seqHere (.plusOnce hu.toStart)
      | seqHere h =>
        cases h with
        | cut => simpa using Expr.Reads.seqHere (.plusOnce hu.toStart)
        | take h => exact .seqHere (.plusMore hu h)
      | seqPast h hr =>
        cases h with
        | skip => exact .seqPast (.plusOnce hu) hr
        | take h =>
          rw [← List.append_assoc]
          exact .seqPast (.plusMore hu h) hr
  | take e k => exact Expr.Reads.of_expands_append (.take e) hw.of_pieces_append
  | skip e => exact Expr.Reads.of_expands_append (.skip e) hw

/-- The right-hand side of a move. -/
def side : Option TerminalId → NonterminalId → List Symbol
  | none, m => [.nonterminal m]
  | some t, m => [.terminal t, .nonterminal m]

/-- The grammar has a production of `n` that takes `a` and goes on with `m`. -/
def Has (g : Grammar) (n : NonterminalId) (a : Option TerminalId) (m : NonterminalId) : Prop :=
  ∃ p ∈ g.productions, p.lhs = n ∧ p.rhs = side a m

variable {D D' D'' : List (List Expr)} {n m : NonterminalId}

/-- The production is a move of what its left-hand side stands for, or ends the sentence. `D`
    holds the stacks of the nonterminals. -/
def Sound (rules : Rules) (D : List (List Expr)) (p : Production) : Prop :=
  (D[p.lhs]? = some [] ∧ p.rhs = []) ∨
    ∃ k a k' m, D[p.lhs]? = some k ∧ Move rules k a k' ∧ D[m]? = some k' ∧ p.rhs = side a m

/-- The nonterminal has a production for every move of its stack, and one that ends the sentence
    when there is nothing on the stack. -/
structure Complete (rules : Rules) (g : Grammar) (D : List (List Expr)) (n : NonterminalId) :
    Prop where
  move : ∀ k a k', D[n]? = some k → Move rules k a k' → ∃ m, D[m]? = some k' ∧ Has g n a m
  finish : D[n]? = some [] → ∃ p ∈ g.productions, p.lhs = n ∧ p.rhs = []

theorem Has.mono {g' : Grammar} (hp : g.productions ⊆ g'.productions) (h : Has g n a m) :
    Has g' n a m := by
  obtain ⟨p, hmem, hn, hs⟩ := h
  exact ⟨p, hp hmem, hn, hs⟩

theorem Sound.mono {p : Production} (hD : D <+: D') (h : Sound rules D p) : Sound rules D' p := by
  obtain ⟨hn, hr⟩ | ⟨k, a, k', m, hn, hmove, hm, hr⟩ := h
  · exact .inl ⟨getElem?_grown hD hn, hr⟩
  · exact .inr ⟨k, a, k', m, getElem?_grown hD hn, hmove, getElem?_grown hD hm, hr⟩

theorem Complete.mono {g' : Grammar} (hn : n < D.length) (hp : g.productions ⊆ g'.productions)
    (hD : D <+: D') (h : Complete rules g D n) : Complete rules g' D' n := by
  obtain ⟨more, rfl⟩ := hD
  refine ⟨fun k a k' hk hmove => ?_, fun hk => ?_⟩ <;> rw [List.getElem?_append_left hn] at hk
  · obtain ⟨m, hm, hhas⟩ := h.move k a k' hk hmove
    exact ⟨m, getElem?_grown (List.prefix_append D more) hm, hhas.mono hp⟩
  · obtain ⟨p, hmem, hp'⟩ := h.finish hk
    exact ⟨p, hp hmem, hp'⟩

/-! ## The translation -/

/-- Every nonterminal has a stack, every production is sound, and an expansion stands for its rule
    on top of its continuation. -/
structure Good (rules : Rules) (s : State) (D : List (List Expr)) : Prop where
  count : s.grammar.nonterminals.length = D.length
  sound : ∀ p ∈ s.grammar.productions, Sound rules D p
  within : ∀ k ∈ D, ∀ e ∈ k, e.Within rules
  expansions : ∀ r next n, ((r, next), n) ∈ s.expansions →
    ∃ k, D[next]? = some k ∧ D[n]? = some (.rule r :: k)

/-- From one state to another the translation only adds, and what nonterminals it adds are
    complete. -/
structure Grows (rules : Rules) (s s' : State) (D D' : List (List Expr)) : Prop where
  good : Good rules s' D'
  terminals : s'.grammar.terminals = s.grammar.terminals
  meanings : D <+: D'
  productions : s.grammar.productions ⊆ s'.grammar.productions
  complete : ∀ n, D.length ≤ n → n < D'.length → Complete rules s'.grammar D' n

variable {s s' s'' : State} {owner r : RuleId}

theorem Good.refl (h : Good rules s D) : Grows rules s s D D :=
  ⟨h, rfl, List.prefix_rfl, fun _ hp => hp, fun _ h1 h2 => absurd h2 (Nat.not_lt.2 h1)⟩

theorem Grows.trans (h : Grows rules s s' D D') (h' : Grows rules s' s'' D' D'') :
    Grows rules s s'' D D'' where
  good := h'.good
  terminals := h'.terminals.trans h.terminals
  meanings := h.meanings.trans h'.meanings
  productions := fun _ hp => h'.productions (h.productions hp)
  complete n h1 h2 := by
    by_cases hn : n < D'.length
    · exact (h.complete n h1 hn).mono hn h'.productions h'.meanings
    · exact h'.complete n (Nat.le_of_not_lt hn) h2

/-- A nonterminal made first and filled last is complete like all those made in between. `s₁` is
    the state in which there is nothing of it but its name. -/
theorem Grows.close {s₁ : State} {e : Expr} (h : Grows rules s₁ s' (D ++ [e :: k]) D')
    (hterminals : s₁.grammar.terminals = s.grammar.terminals)
    (hproductions : s₁.grammar.productions = s.grammar.productions)
    (hall : ∀ a k', Move rules (e :: k) a k' →
      ∃ m, D'[m]? = some k' ∧ Has s'.grammar D.length a m) : Grows rules s s' D D' where
  good := h.good
  terminals := h.terminals.trans hterminals
  meanings := (List.prefix_append D [e :: k]).trans h.meanings
  productions := hproductions ▸ h.productions
  complete n h1 h2 := by
    rcases Nat.eq_or_lt_of_le h1 with rfl | h1
    · have hlast := getElem?_grown h.meanings List.getElem?_concat_length
      refine ⟨fun k₁ a k' hk hmove => ?_, fun hk => ?_⟩ <;>
        rw [hlast, Option.some.injEq] at hk
      · exact hall a k' (hk ▸ hmove)
      · cases hk
    · exact h.complete n (by rw [List.length_append]; exact h1) h2

/-- One more nonterminal may stand for any stack within the rules. -/
theorem Good.add (h : Good rules s D) (hk : ∀ e ∈ k, e.Within rules)
    (hcount : s'.grammar.nonterminals.length = s.grammar.nonterminals.length + 1)
    (hproductions : s'.grammar.productions = s.grammar.productions)
    (hexpansions : s'.expansions = s.expansions) : Good rules s' (D ++ [k]) where
  count := by rw [hcount, h.count, List.length_append, List.length_singleton]
  sound p hp := by
    rw [hproductions] at hp
    exact (h.sound p hp).mono (List.prefix_append D [k])
  within k' hk' := by
    rcases List.mem_append.1 hk' with hk' | hk'
    · exact h.within k' hk'
    · exact List.mem_singleton.1 hk' ▸ hk
  expansions r next n hmem := by
    rw [hexpansions] at hmem
    obtain ⟨k', hnext, hn⟩ := h.expansions r next n hmem
    exact ⟨k', getElem?_grown (List.prefix_append D [k]) hnext,
      getElem?_grown (List.prefix_append D [k]) hn⟩

theorem Good.fresh (h : Good rules s D) (owner : RuleId) (hk : ∀ e ∈ k, e.Within rules) :
    (s.fresh rules owner).1 = D.length ∧ Good rules (s.fresh rules owner).2 (D ++ [k]) :=
  ⟨h.count, h.add hk (by simp [State.fresh, Grammar.addNonterminal]) rfl rfl⟩

theorem Good.ruleNonterminal (h : Good rules s D) (r : RuleId)
    (hk : ∀ e ∈ k, e.Within rules) :
    (s.ruleNonterminal rules r).1 = D.length ∧
      Good rules (s.ruleNonterminal rules r).2 (D ++ [k]) ∧
      (s.ruleNonterminal rules r).2.grammar.terminals = s.grammar.terminals ∧
      (s.ruleNonterminal rules r).2.grammar.productions = s.grammar.productions := by
  unfold State.ruleNonterminal
  split
  · obtain ⟨hn, hf⟩ := h.fresh r hk
    exact ⟨hn, hf, rfl, rfl⟩
  · exact ⟨h.count, h.add hk (by simp [Grammar.addNonterminal]) rfl rfl, rfl, rfl⟩

/-- A production for a move. -/
theorem Good.produce (h : Good rules s D) (owner : RuleId) (hn : D[n]? = some k)
    (hmove : Move rules k a k') (hm : D[m]? = some k') :
    Grows rules s (s.produce rules owner n (side a m)) D D ∧
      Has (s.produce rules owner n (side a m)).grammar n a m := by
  refine ⟨⟨⟨h.count, fun p hp => ?_, h.within, h.expansions⟩, rfl, List.prefix_rfl,
    fun p hp => List.mem_append_left _ hp, fun _ h1 h2 => absurd h2 (Nat.not_lt.2 h1)⟩, ?_⟩
  · rcases List.mem_append.1 hp with hp | hp
    · exact h.sound p hp
    · obtain rfl := List.mem_singleton.1 hp
      exact .inr ⟨k, a, k', m, hn, hmove, hm, rfl⟩
  · exact ⟨_, List.mem_append_right _ (List.mem_singleton_self _), rfl, rfl⟩

/-- A nonterminal with two moves is closed by the two productions for them. -/
theorem Grows.close_two {s₁ : State} {e : Expr} {k₁ k₂ : List Expr} {m₁ m₂ : NonterminalId}
    (h : Grows rules s₁ s' (D ++ [e :: k]) D') (owner : RuleId)
    (hterminals : s₁.grammar.terminals = s.grammar.terminals)
    (hproductions : s₁.grammar.productions = s.grammar.productions)
    (hmove₁ : Move rules (e :: k) none k₁) (hm₁ : D'[m₁]? = some k₁)
    (hmove₂ : Move rules (e :: k) none k₂) (hm₂ : D'[m₂]? = some k₂)
    (hall : ∀ a k', Move rules (e :: k) a k' → a = none ∧ (k' = k₁ ∨ k' = k₂)) :
    Grows rules s ((s'.produce rules owner D.length (side none m₁)).produce rules owner D.length
      (side none m₂)) D D' := by
  have hlast := getElem?_grown h.meanings List.getElem?_concat_length
  obtain ⟨hg₁, hhas₁⟩ := h.good.produce owner hlast hmove₁ hm₁
  obtain ⟨hg₂, hhas₂⟩ := hg₁.good.produce owner hlast hmove₂ hm₂
  refine ((h.trans hg₁).trans hg₂).close hterminals hproductions fun a k' hmove => ?_
  obtain ⟨rfl, rfl | rfl⟩ := hall a k' hmove
  · exact ⟨m₁, hm₁, hhas₁.mono hg₂.productions⟩
  · exact ⟨m₂, hm₂, hhas₂⟩

/-- What the nonterminals of rules have to stand for. -/
def Expands (rules : Rules) (expandRule : RuleId → NonterminalId → State → Result) : Prop :=
  ∀ r next s D k n s', Good rules s D → D[next]? = some k → r < rules.size →
    expandRule r next s = .ok (n, s') →
    ∃ D', Grows rules s s' D D' ∧ D'[n]? = some (.rule r :: k)

section

variable {f : RuleId → NonterminalId → State → Result} {e : Expr} {items bs : List Expr}

/-- What the nonterminal of an expression has to stand for: its pieces on top of the
    continuation. -/
def Stacks (rules : Rules) (f : RuleId → NonterminalId → State → Result) (owner : RuleId)
    (e : Expr) : Prop :=
  ∀ ⦃next s D k n s'⦄, Good rules s D → D[next]? = some k → e.Within rules →
    expand rules f owner e next s = .ok (n, s') →
    ∃ D', Grows rules s s' D D' ∧ D'[n]? = some (e.pieces ++ k)

/-- The same for a sequence. -/
def StacksSeq (rules : Rules) (f : RuleId → NonterminalId → State → Result) (owner : RuleId)
    (items : List Expr) : Prop :=
  ∀ ⦃next s D k n s'⦄, Good rules s D → D[next]? = some k → (∀ e ∈ items, e.Within rules) →
    expandSeq rules f owner items next s = .ok (n, s') →
    ∃ D', Grows rules s s' D D' ∧ D'[n]? = some (Expr.piecesOfAll items ++ k)

/-- The nonterminal of an alternation has to get a production for each of these branches. -/
def StacksAlt (rules : Rules) (f : RuleId → NonterminalId → State → Result) (owner : RuleId)
    (bs : List Expr) : Prop :=
  ∀ ⦃all n next s D k s'⦄, Good rules s D → D[n]? = some (.alt all :: k) → D[next]? = some k →
    bs ⊆ all → (∀ b ∈ bs, b.Within rules) → expandAlt rules f owner n bs next s = .ok s' →
    ∃ D', Grows rules s s' D D' ∧
      ∀ b ∈ bs, ∃ m, D'[m]? = some (b.pieces ++ k) ∧ Has s'.grammar n none m

/-- A new nonterminal for an expression on top of a continuation. -/
theorem Good.push (h : Good rules s D) (owner : RuleId) (hm : D[m]? = some k)
    (he : e.Within rules) : (s.fresh rules owner).1 = D.length ∧
      Good rules (s.fresh rules owner).2 (D ++ [e :: k]) ∧
      (D ++ [e :: k])[D.length]? = some (e :: k) ∧ (D ++ [e :: k])[m]? = some k := by
  obtain ⟨hn, hg⟩ := h.fresh (k := e :: k) owner
    (List.forall_mem_cons.2 ⟨he, h.within k (List.mem_of_getElem? hm)⟩)
  exact ⟨hn, hg, List.getElem?_concat_length, getElem?_grown (List.prefix_append D _) hm⟩

theorem stacks_terminal (t : TerminalId) : Stacks rules f owner (.terminal t) := by
  intro next s D k n s' h hnext he hok
  obtain ⟨hn, hg, hlast, hgrown⟩ := h.push owner hnext he
  rw [expand] at hok
  dsimp only at hok
  rw [hn] at hok
  cases hok
  obtain ⟨hg', hhas⟩ := hg.produce owner hlast (.action t k) hgrown
  refine ⟨_, hg'.close rfl rfl fun a k' hmove => ?_, hlast⟩
  cases hmove with
  | action => exact ⟨next, hgrown, hhas⟩

theorem stacks_alt (hbs : StacksAlt rules f owner bs) : Stacks rules f owner (.alt bs) := by
  intro next s D k n s' h hnext he hok
  obtain ⟨hn, hg, hlast, hgrown⟩ := h.push owner hnext he
  rw [expand] at hok
  dsimp only at hok
  rw [hn] at hok
  obtain ⟨s₁, h1, hok⟩ := of_bind_eq_ok hok
  cases hok
  obtain ⟨D', hg', hall⟩ :=
    hbs hg hlast hgrown (List.Subset.refl bs) (Expr.within_alt_iff.1 he) h1
  refine ⟨D', hg'.close rfl rfl fun a k' hmove => ?_, getElem?_grown hg'.meanings hlast⟩
  cases hmove with
  | alt _ hb => exact hall _ hb

theorem stacks_star (hinner : Stacks rules f owner e) :
    Stacks rules f owner (.repeated e .zeroOrMore) := by
  intro next s D k n s' h hnext he hok
  obtain ⟨hn, hg, hlast, hgrown⟩ := h.push owner hnext he
  rw [expand] at hok
  dsimp only at hok
  rw [hn] at hok
  obtain ⟨⟨body, s₁⟩, h1, hok⟩ := of_bind_eq_ok hok
  cases hok
  obtain ⟨D', hg', hbody⟩ := hinner hg hlast (Expr.within_repeated_iff.1 he) h1
  have hafter := getElem?_grown hg'.meanings hgrown
  refine ⟨D', hg'.close_two owner rfl rfl (.starMore e k) hbody (.starNone e k) hafter
    fun a k' hmove => ?_, getElem?_grown hg'.meanings hlast⟩
  cases hmove with
  | starMore => exact ⟨rfl, .inl rfl⟩
  | starNone => exact ⟨rfl, .inr rfl⟩

theorem stacks_optional (hinner : Stacks rules f owner e) :
    Stacks rules f owner (.repeated e .optional) := by
  intro next s D k n s' h hnext he hok
  obtain ⟨hn, hg, hlast, hgrown⟩ := h.push owner hnext he
  rw [expand] at hok
  dsimp only at hok
  rw [hn] at hok
  obtain ⟨⟨body, s₁⟩, h1, hok⟩ := of_bind_eq_ok hok
  cases hok
  obtain ⟨D', hg', hbody⟩ := hinner hg hgrown (Expr.within_repeated_iff.1 he) h1
  have hafter := getElem?_grown hg'.meanings hgrown
  refine ⟨D', hg'.close_two owner rfl rfl (.take e k) hbody (.skip e k) hafter
    fun a k' hmove => ?_, getElem?_grown hg'.meanings hlast⟩
  cases hmove with
  | take => exact ⟨rfl, .inl rfl⟩
  | skip => exact ⟨rfl, .inr rfl⟩

/-- The first one is read behind a nonterminal of its own, and all others behind one that stands
    for as many more as there are. -/
theorem stacks_plus (hinner : Stacks rules f owner e) :
    Stacks rules f owner (.repeated e .oneOrMore) := by
  intro next s D k n s' h hnext he hok
  obtain ⟨hn, hg, honce, hgrown⟩ := h.push owner hnext he
  obtain ⟨hn', hg', hagain, hgrown'⟩ :=
    hg.push (e := .repeated (.repeated e .oneOrMore) .optional) owner hgrown
      (Expr.within_repeated_iff.2 he)
  rw [expand] at hok
  dsimp only at hok
  rw [hn, hn'] at hok
  obtain ⟨⟨body, s₁⟩, h1, hok⟩ := of_bind_eq_ok hok
  cases hok
  obtain ⟨D', hg'', hbody⟩ := hinner hg' hagain (Expr.within_repeated_iff.1 he) h1
  have hfirst := getElem?_grown hg''.meanings (getElem?_grown (List.prefix_append _ _) honce)
  have hafter := getElem?_grown hg''.meanings hgrown'
  obtain ⟨hg1, hhas⟩ := hg''.good.produce owner hfirst (.plus e k) hbody
  have hg2 := (hg''.trans hg1).close_two owner rfl rfl (.take _ k) hfirst
    (.skip _ k) hafter fun a k' hmove => by
      cases hmove with
      | take => exact ⟨rfl, .inl rfl⟩
      | skip => exact ⟨rfl, .inr rfl⟩
  refine ⟨D', hg2.close rfl rfl fun a k' hmove => ?_, hfirst⟩
  cases hmove with
  | plus => exact ⟨body, hbody, hhas.mono fun p hp => List.mem_append_left _
      (List.mem_append_left _ hp)⟩

theorem stacksSeq_cons (hitem : Stacks rules f owner e) (hrest : StacksSeq rules f owner items) :
    StacksSeq rules f owner (e :: items) := by
  intro next s D k n s' h hnext hall hok
  obtain ⟨he, hitems⟩ := List.forall_mem_cons.1 hall
  rw [expandSeq] at hok
  obtain ⟨⟨after, s₁⟩, h1, hok⟩ := of_bind_eq_ok hok
  obtain ⟨D1, hg1, hafter⟩ := hrest h hnext hitems h1
  obtain ⟨D2, hg2, hn⟩ := hitem hg1.good hafter he hok
  rw [Expr.piecesOfAll, List.append_assoc]
  exact ⟨D2, hg1.trans hg2, hn⟩

theorem stacksAlt_cons (hbranch : Stacks rules f owner e) (hrest : StacksAlt rules f owner bs) :
    StacksAlt rules f owner (e :: bs) := by
  intro all n next s D k s' h hn hnext hsub hall hok
  obtain ⟨he, hbs⟩ := List.forall_mem_cons.1 hall
  rw [expandAlt] at hok
  obtain ⟨⟨target, s₁⟩, h1, hok⟩ := of_bind_eq_ok hok
  obtain ⟨D1, hg1, htarget⟩ := hbranch h hnext he h1
  have hn1 := getElem?_grown hg1.meanings hn
  obtain ⟨hg2, hhas2⟩ := hg1.good.produce owner hn1 (.alt k (hsub List.mem_cons_self)) htarget
  obtain ⟨D3, hg3, hothers⟩ := hrest hg2.good hn1 (getElem?_grown hg1.meanings hnext)
    (fun b hb => hsub (List.mem_cons_of_mem _ hb)) hbs hok
  refine ⟨D3, (hg1.trans hg2).trans hg3, fun b hb => ?_⟩
  rcases List.mem_cons.1 hb with rfl | hb
  · exact ⟨target, getElem?_grown hg3.meanings htarget, hhas2.mono hg3.productions⟩
  · exact hothers b hb

mutual

/-- The nonterminal of an expression stands for its pieces on top of the continuation. -/
theorem expand_stack (hf : Expands rules f) (e : Expr) : Stacks rules f owner e := by
  match e with
  | .empty =>
    intro next s D k n s' h hnext _ hok
    rw [expand] at hok
    cases hok
    exact ⟨D, h.refl, hnext⟩
  | .terminal t => exact stacks_terminal t
  | .rule r =>
    intro next s D k n s' h hnext he hok
    rw [expand] at hok
    exact hf r next s D k n s' h hnext (Expr.within_rule_iff.1 he) hok
  | .seq items =>
    intro next s D k n s' h hnext he hok
    rw [expand] at hok
    exact expandSeq_stack hf items h hnext (Expr.within_seq_iff.1 he) hok
  | .alt bs => exact stacks_alt (expandAlt_stack hf bs)
  | .repeated inner .zeroOrMore => exact stacks_star (expand_stack hf inner)
  | .repeated inner .oneOrMore => exact stacks_plus (expand_stack hf inner)
  | .repeated inner .optional => exact stacks_optional (expand_stack hf inner)

theorem expandSeq_stack (hf : Expands rules f) (items : List Expr) :
    StacksSeq rules f owner items := by
  match items with
  | [] =>
    intro next s D k n s' h hnext _ hok
    rw [expandSeq] at hok
    cases hok
    exact ⟨D, h.refl, hnext⟩
  | item :: rest => exact stacksSeq_cons (expand_stack hf item) (expandSeq_stack hf rest)

theorem expandAlt_stack (hf : Expands rules f) (bs : List Expr) :
    StacksAlt rules f owner bs := by
  match bs with
  | [] =>
    intro all n next s D k s' h _ _ _ _ hok
    rw [expandAlt] at hok
    cases hok
    exact ⟨D, h.refl, fun b hb => absurd hb List.not_mem_nil⟩
  | branch :: rest => exact stacksAlt_cons (expand_stack hf branch) (expandAlt_stack hf rest)

end

/-- The state in which a rule has just become open has its nonterminal, which stands for the rule
    on top of the continuation. -/
theorem Good.enter (h : Good rules s D) (hnext : D[m]? = some k) (hr : r < rules.size) :
    s.count = D.length ∧ Good rules (s.enter rules r m) (D ++ [.rule r :: k]) ∧
      (s.enter rules r m).grammar.terminals = s.grammar.terminals ∧
      (s.enter rules r m).grammar.productions = s.grammar.productions := by
  have hk : ∀ b ∈ .rule r :: k, b.Within rules :=
    List.forall_mem_cons.2 ⟨Expr.within_rule_iff.2 hr, h.within k (List.mem_of_getElem? hnext)⟩
  obtain ⟨-, hg, hterminals, hproductions⟩ := h.ruleNonterminal r hk
  refine ⟨h.count, ⟨hg.count, hg.sound, hg.within, fun r' next n hmem => ?_⟩, hterminals,
    hproductions⟩
  rcases List.mem_cons.1 hmem with heq | hmem
  · cases heq
    rw [State.count, h.count]
    exact ⟨k, getElem?_grown (List.prefix_append D _) hnext, List.getElem?_concat_length⟩
  · obtain ⟨k', hk', hn⟩ := h.expansions r' next n hmem
    exact ⟨k', getElem?_grown (List.prefix_append D _) hk',
      getElem?_grown (List.prefix_append D _) hn⟩

/-- An expansion that is found again stands for its rule on top of its continuation. -/
theorem Good.found (h : Good rules s D) (hm : D[m]? = some k)
    (hlookup : s.expansions.lookup (r, m) = some n) : D[n]? = some (.rule r :: k) := by
  obtain ⟨k', hk', hn⟩ := h.expansions r m n (mem_of_lookup_eq_some hlookup)
  obtain rfl := Option.some.inj (hm.symm.trans hk')
  exact hn

/-- Whatever room there is, the nonterminal of a rule stands for the rule on top of the
    continuation. A nonterminal found again is one from before; a new one is closed when its only
    production is there. -/
theorem expandRule_expands (hrefs : rules.RefsInRange) (room : Nat) :
    Expands rules (expandRule rules room) := by
  induction room with
  | zero =>
    intro r next s D k n s' h hnext hr hok
    cases ExpandRuleCall.of_eq_ok hok with
    | found hlookup => exact ⟨D, h.refl, h.found hnext hlookup⟩
  | succ room ih =>
    intro r next s D k n s' h hnext hr hok
    cases ExpandRuleCall.of_eq_ok hok with
    | found hlookup => exact ⟨D, h.refl, h.found hnext hlookup⟩
    | @entered _ body s₁ _ _ h1 =>
      obtain ⟨hn, hg, hterminals, hproductions⟩ := h.enter hnext hr
      have hgrown := getElem?_grown (List.prefix_append D [.rule r :: k]) hnext
      obtain ⟨D', hg', hbody⟩ := expand_stack ih _ hg hgrown (hrefs.within_rule hr) h1
      have hlast := getElem?_grown hg'.meanings List.getElem?_concat_length
      have hend : Good rules { s₁ with active := s₁.active.drop 1 } D' :=
        ⟨hg'.good.count, hg'.good.sound, hg'.good.within, hg'.good.expansions⟩
      obtain ⟨hg1, hhas⟩ := hend.produce r hlast (.rule r k) hbody
      have hdrop : Grows rules _ { s₁ with active := s₁.active.drop 1 } _ D' :=
        ⟨hend, hg'.terminals, hg'.meanings, hg'.productions, hg'.complete⟩
      rw [hn]
      refine ⟨D', (hdrop.trans hg1).close hterminals hproductions fun a k' hmove => ?_, hlast⟩
      cases hmove with
      | rule => exact ⟨body, hbody, hhas⟩

end

/-! ## The grammar of all rules -/

/-- The flattened grammar with the stacks of its nonterminals. -/
structure Translates (rules : Rules) (catalog : Catalog) (g : Grammar) (D : List (List Expr)) :
    Prop where
  terminals : g.terminals = (Grammar.ofCatalog catalog).terminals
  count : g.nonterminals.length = D.length
  sound : ∀ p ∈ g.productions, Sound rules D p
  within : ∀ k ∈ D, ∀ e ∈ k, e.Within rules
  complete : ∀ n, Complete rules g D n
  start : D[g.start]? = some [.rule Rules.start]

/-- The state in which there is nothing but the final continuation. -/
def opening (rules : Rules) (catalog : Catalog) : State where
  grammar := ((Grammar.ofCatalog catalog).addNonterminal finishName
    (rules.rule Rules.start).span).2.addProduction 0 [] (rules.rule Rules.start).span
  expansions := []
  active := []
  named := []
  counters := rules.rules.map fun _ => 0

/-- The final continuation stands for the empty stack. -/
theorem good_opening (rules : Rules) (catalog : Catalog) :
    Good rules (opening rules catalog) [[]] := by
  refine ⟨rfl, fun p hp => ?_, fun k hk e he => ?_, fun _ _ _ h => absurd h List.not_mem_nil⟩
  · rw [List.mem_singleton.1 hp]
    exact .inl ⟨rfl, rfl⟩
  · rw [List.mem_singleton.1 hk] at he
    exact absurd he List.not_mem_nil

theorem flatten_translates (hrefs : rules.RefsInRange) (hsize : 0 < rules.size)
    {catalog : Catalog} (hok : rules.flatten catalog = .ok g) :
    ∃ D, Translates rules catalog g D := by
  rw [Rules.flatten] at hok
  dsimp only at hok
  obtain ⟨⟨start, s'⟩, h1, hok⟩ := of_bind_eq_ok hok
  cases hok
  obtain ⟨D, hg, hn⟩ := expandRule_expands hrefs rules.size Rules.start 0 _ [[]] [] start s'
    (good_opening rules catalog) rfl hsize h1
  have hfirst : D[0]? = some [] := getElem?_grown hg.meanings rfl
  refine ⟨D, hg.terminals, hg.good.count, hg.good.sound, hg.good.within, fun n => ?_, hn⟩
  by_cases hn : n < D.length
  · by_cases h0 : n = 0
    · subst h0
      refine ⟨fun k a k' hk hmove => ?_, fun _ =>
        ⟨_, hg.productions (List.mem_singleton_self _), rfl, rfl⟩⟩
      rw [hfirst, Option.some.injEq] at hk
      subst hk
      cases hmove
    · have hc := hg.complete n (Nat.one_le_iff_ne_zero.2 h0) hn
      exact ⟨hc.move, hc.finish⟩
  · rw [Nat.not_lt, ← List.getElem?_eq_none_iff] at hn
    refine ⟨fun k a k' hk _ => ?_, fun hk => ?_⟩ <;> cases hn.symm.trans hk

theorem Translates.wellFormed {catalog : Catalog} (ht : Translates rules catalog g D)
    (hactions : ∀ t ∈ rules.actions, t < catalog.size) : g.WellFormed := by
  have hlength {n : NonterminalId} {k : List Expr} (h : D[n]? = some k) :
      n < g.nonterminals.length := by
    rw [ht.count]
    exact (List.getElem?_eq_some_iff.1 h).1
  refine ⟨by simp [ht.terminals, Grammar.ofCatalog], hlength ht.start,
    fun p hp => ?_, fun p hp n hn => ?_, fun p hp t hmem => ?_⟩ <;>
    obtain ⟨h, hr⟩ | ⟨k, a, k', m, h, hmove, hm, hr⟩ := ht.sound p hp
  · exact hlength h
  · exact hlength h
  · rw [hr] at hn
    exact absurd hn List.not_mem_nil
  · rw [hr] at hn
    cases a with
    | none =>
      obtain rfl : n = m := by simpa [side] using hn
      exact hlength hm
    | some t =>
      obtain rfl : n = m := by simpa [side] using hn
      exact hlength hm
  · rw [hr] at hmem
    exact absurd hmem List.not_mem_nil
  · rw [hr] at hmem
    cases hmove with
    | action t' k =>
      obtain rfl : t = t' := by simpa [side] using hmem
      have hwithin := ht.within _ (List.mem_of_getElem? h) _ List.mem_cons_self
      rw [Grammar.endTerminal_eq_size ht.terminals]
      exact hactions t (hwithin.actions t (List.mem_singleton_self t))
    | _ => simp [side] at hmem

/-! ## Readings -/

variable {catalog : Catalog} {es fs : List Expr}

/-- The nonterminals whose stacks begin with the expressions read the actions, to the end in front
    of whatever the rest of the stack reads. -/
def Passes (g : Grammar) (D : List (List Expr)) : Extent → List Expr → List TerminalId → Prop
  | .whole, es, u =>
    ∀ n rest, D[n]? = some (es ++ rest) → ∃ m, D[m]? = some rest ∧
      ∀ x v, g.Reads x [.nonterminal m] v → g.Reads x [.nonterminal n] (u ++ v)
  | .start, es, u =>
    ∀ n rest, D[n]? = some (es ++ rest) → g.Reads .start [.nonterminal n] u

theorem Passes.nil : Passes g D .whole [] [] :=
  fun n _ hn => ⟨n, hn, fun _ _ h => h⟩

theorem Passes.append (he : Passes g D .whole es u) (hf : Passes g D x fs v) :
    Passes g D x (es ++ fs) (u ++ v) := by
  cases x with
  | whole =>
    intro n rest hn
    rw [List.append_assoc] at hn
    obtain ⟨m, hm, hu⟩ := he n _ hn
    obtain ⟨m', hm', hv⟩ := hf m rest hm
    refine ⟨m', hm', fun x w hw => ?_⟩
    rw [List.append_assoc]
    exact hu x _ (hv x w hw)
  | start =>
    intro n rest hn
    rw [List.append_assoc] at hn
    obtain ⟨m, hm, hu⟩ := he n _ hn
    exact hu _ v (hf m rest hm)

theorem Passes.append_here (fs : List Expr) (he : Passes g D .start es u) :
    Passes g D .start (es ++ fs) u := by
  intro n rest hn
  rw [List.append_assoc] at hn
  exact he n _ hn

theorem Has.reads (h : Has g n none m) (hr : g.Reads x [.nonterminal m] w) :
    g.Reads x [.nonterminal n] w := by
  obtain ⟨p, hp, hn, hs⟩ := h
  refine .expand hp hn ?_
  rw [hs]
  exact hr

/-- An expression passes what its stack passes after a move. -/
theorem Translates.passes_of_move (ht : Translates rules catalog g D) {e : Expr}
    (hmove : ∀ k, Move rules (e :: k) none (es ++ k)) (h : Passes g D x es u) :
    Passes g D x [e] u := by
  cases x with
  | whole =>
    intro n rest hn
    obtain ⟨m, hm, hhas⟩ := (ht.complete n).move _ _ _ hn (hmove rest)
    obtain ⟨m', hm', hu⟩ := h m rest hm
    exact ⟨m', hm', fun x v hv => hhas.reads (hu x v hv)⟩
  | start =>
    intro n rest hn
    obtain ⟨m, hm, hhas⟩ := (ht.complete n).move _ _ _ hn (hmove rest)
    exact hhas.reads (h m rest hm)

theorem Translates.passes_action (ht : Translates rules catalog g D) (x : Extent)
    (t : TerminalId) : Passes g D x [.terminal t] [t] := by
  have step {n rest} (hn : D[n]? = some (.terminal t :: rest)) : ∃ m, D[m]? = some rest ∧
      ∀ x v, g.Reads x [.nonterminal m] v → g.Reads x [.nonterminal n] (t :: v) := by
    obtain ⟨m, hm, p, hp, hlhs, hs⟩ := (ht.complete n).move _ _ _ hn (.action t rest)
    refine ⟨m, hm, fun x v hv => .expand hp hlhs ?_⟩
    rw [hs]
    exact .terminal hv
  cases x with
  | whole => exact fun n rest hn => step hn
  | start =>
    intro n rest hn
    obtain ⟨m, -, h⟩ := step hn
    exact h _ _ (.cut _)

/-- What is read from an expression is passed by its pieces. -/
theorem Translates.passes (ht : Translates rules catalog g D) {e : Expr}
    (h : Expr.Reads rules x e w) : Passes g D x e.pieces w := by
  have star {x : Extent} {e : Expr} {u}
      (h : Passes g D x (e.pieces ++ [.repeated e .zeroOrMore]) u) :
      Passes g D x [.repeated e .zeroOrMore] u := by
    refine ht.passes_of_move (fun k => ?_) h
    rw [List.append_assoc]
    exact .starMore e k
  -- Behind a round of `e+` stands the nonterminal of `(e+)?`, for more rounds or none.
  have plus {x : Extent} {e : Expr} {u}
      (h : Passes g D x (e.pieces ++ [.repeated (.repeated e .oneOrMore) .optional]) u) :
      Passes g D x [.repeated e .oneOrMore] u := by
    refine ht.passes_of_move (fun k => ?_) h
    rw [List.append_assoc]
    exact .plus e k
  induction h with
  | cut e => exact fun n rest _ => .cut _
  | empty => exact .nil
  | terminal x t => exact ht.passes_action x t
  | rule _ ih => exact ht.passes_of_move (.rule _) ih
  | seqNil => exact .nil
  | seqHere _ ih => exact ih.append_here _
  | seqPast _ _ ihu ihv => exact ihu.append ihv
  | alt hb _ ih => exact ht.passes_of_move (fun k => .alt k hb) ih
  | starNone => exact ht.passes_of_move (.starNone _) .nil
  | starHere _ ih => exact star (ih.append_here _)
  | starPast _ _ ihu ihv => exact star (ihu.append ihv)
  | @plusOnce x e w _ ih =>
    cases x with
    | start => exact plus (ih.append_here _)
    | whole =>
      rw [← List.append_nil w]
      exact plus (ih.append (ht.passes_of_move (.skip _) .nil))
  | plusMore _ _ ihu ihv => exact plus (ihu.append (ht.passes_of_move (.take _) ihv))
  | skip => exact ht.passes_of_move (.skip _) .nil
  | take _ ih => exact ht.passes_of_move (.take _) ih

/-- What the nonterminals stand for. -/
def meanings (D : List (List Expr)) (n : NonterminalId) : List Expr := D[n]?.getD []

theorem Translates.sound_reads (ht : Translates rules catalog g D) {α : List Symbol}
    (h : g.Reads x α w) : Expr.Reads rules x (.seq (meaningOf (meanings D) α)) w := by
  refine Grammar.reads_of_sound (fun p hp x w hr => ?_) h
  obtain ⟨hn, hs⟩ | ⟨k, a, k', m, hn, hmove, hm, hs⟩ := ht.sound p hp
  · rw [hs] at hr
    rw [meanings, hn]
    exact hr
  · rw [meanings, hn, Option.getD_some]
    cases a with
    | none =>
      have hmeaning : meaningOf (meanings D) p.rhs = k' := by
        simp [hs, side, meaningOf, Symbol.meaning, meanings, hm]
      rw [hmeaning] at hr
      exact hmove.reads hr
    | some t =>
      have hmeaning : meaningOf (meanings D) p.rhs = .terminal t :: k' := by
        simp [hs, side, meaningOf, Symbol.meaning, meanings, hm]
      rw [hmeaning] at hr
      cases hmove with
      | action => exact hr

end Flatten

open Flatten

/-- The start symbol reads in the flattened grammar what the start rule reads. -/
theorem Rules.reads_flatten {rules : Rules} (hrefs : rules.RefsInRange) (hsize : 0 < rules.size)
    {catalog : Catalog} {g : Grammar} (hok : rules.flatten catalog = .ok g) {x : Extent}
    {w : List TerminalId} :
    g.Reads x [.nonterminal g.start] w ↔ Expr.Reads rules x (.rule Rules.start) w := by
  obtain ⟨D, ht⟩ := flatten_translates hrefs hsize hok
  constructor
  · intro h
    have := ht.sound_reads h
    have hmeaning : meaningOf (meanings D) [.nonterminal g.start] = [.rule Rules.start] := by
      simp [meaningOf, Symbol.meaning, meanings, ht.start]
    rw [hmeaning] at this
    exact Expr.reads_seq_singleton.1 this
  · intro h
    have hpasses := ht.passes h
    cases x with
    | start => exact hpasses g.start [] ht.start
    | whole =>
      obtain ⟨m, hm, hw⟩ := hpasses g.start [] ht.start
      obtain ⟨p, hp, hlhs, hrhs⟩ := (ht.complete m).finish hm
      have hnil : g.Reads .whole [.nonterminal m] [] := by
        refine .expand hp hlhs ?_
        rw [hrhs]
        exact .nil
      simpa using hw _ _ hnil

end FluentGrammar
