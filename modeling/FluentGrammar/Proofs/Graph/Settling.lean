import FluentGrammar.Proofs.Graph.Chains

/-
  The graph of a table, for any table and any terminals. Following reductions for as many steps as
  there are states and one more tells everything: only states of the table reduce, so what has not
  settled by then has come to a state twice and never will (`follow_eq_none_iff`). So a graph is
  missing exactly when some reductions go on without end, and else its edges are the shifts that
  reductions lead to (`graph_exact`).
-/

namespace FluentGrammar.ParseTable

/-- From the state on, reductions on the terminal go on without end. -/
def Endless (t : ParseTable) (a : TerminalId) (n : StateId) : Prop :=
  ∃ s : Nat → StateId, s 0 = n ∧ ∀ i, t.Reduces a (s i) (s (i + 1))

/-- The first state, and there the first of the terminals in order, from which reductions go on
    without end. The bound is the number of states. -/
structure IsFirstEndless (t : ParseTable) (terminals : List TerminalId) (e : EndlessChain) :
    Prop where
  state : e.state < t.stateCount
  terminal : e.terminal ∈ terminals
  bound : e.bound = t.stateCount
  endless : t.Endless e.terminal e.state
  first : ∀ n < t.stateCount, ∀ a ∈ terminals, t.Endless a n →
    e.state < n ∨ e.state = n ∧ e.terminal ≤ a

variable {t : ParseTable} {g : Graph} {a : TerminalId} {terminals : List TerminalId}
  {n m k : StateId} {steps : Nat} {e e' : EndlessChain}

/-! ## Following reductions -/

theorem follow_of_endless (h : t.Endless a n) (steps : Nat) : t.follow a steps n = none := by
  obtain ⟨s, rfl, hs⟩ := h
  have hall : ∀ steps i, t.follow a steps (s i) = none := by
    intro steps
    induction steps with
    | zero =>
      intro i
      rfl
    | succ steps ih =>
      intro i
      rw [follow_of_reduces (hs i)]
      exact ih (i + 1)
  exact hall steps 0

/-! ## Reductions without end -/

theorem Chain.exists_reduces {l : NonterminalId} {ls : List NonterminalId}
    (h : t.Chain a n (l :: ls) m) : ∃ k, t.Reduces a n k ∧ t.Chain a k ls m := by
  cases h with
  | reduce hact hr hgoto h => exact ⟨_, ⟨_, _, hact, hr, hgoto⟩, h⟩

/-- A chain that comes to a loop goes on without end. -/
theorem Chain.endless {ls loop : List NonterminalId} (h : t.Chain a n ls m)
    (hloop : t.Chain a m loop m) (hne : loop ≠ []) : t.Endless a n := by
  -- Wherever the chain and the loop have come to, there is a state to go on to.
  let Ahead (n : StateId) : Prop :=
    ∃ ls m loop, t.Chain a n ls m ∧ t.Chain a m loop m ∧ loop ≠ []
  have hstep : ∀ x : {n // Ahead n}, ∃ y : {n // Ahead n}, t.Reduces a x.1 y.1 := by
    intro x
    obtain ⟨n, ls, m, loop, h, hloop, hne⟩ := x
    cases ls with
    | cons l ls =>
      obtain ⟨k, hfirst, hrest⟩ := h.exists_reduces
      exact ⟨⟨k, ls, m, loop, hrest, hloop, hne⟩, hfirst⟩
    | nil =>
      obtain ⟨l, rest, rfl⟩ := List.exists_cons_of_ne_nil hne
      cases h
      obtain ⟨k, hfirst, hrest⟩ := hloop.exists_reduces
      exact ⟨⟨k, rest, n, l :: rest, hrest, hloop, hne⟩, hfirst⟩
  choose next hnext using hstep
  refine ⟨fun i => (next^[i] ⟨n, ls, m, loop, h, hloop, hne⟩).1, rfl, ?_⟩
  intro i
  dsimp only
  rw [Function.iterate_succ_apply']
  exact hnext _

/-- The steps suffice unless reductions go on without end. -/
theorem follow_eq_none_iff : t.follow a (t.stateCount + 1) n = none ↔ t.Endless a n := by
  constructor
  · intro h
    obtain ⟨ls, m, loop, hchain, hloop, hne⟩ := exists_loop_of_follow h
    exact hchain.endless hloop hne
  · intro h
    exact follow_of_endless h _

/-! ## A graph that is missing -/

theorem isFirstEndless_of_error (h : t.graph terminals = .error e) :
    t.IsFirstEndless terminals e := by
  obtain ⟨hterminal, hstate, hbound, hfollow, hbefore⟩ := follow_of_error h
  refine ⟨hstate, hterminal, hbound, follow_eq_none_iff.1 hfollow, ?_⟩
  intro n hn b hb hendless
  by_contra hless
  obtain ⟨hle, hnot⟩ := not_or.1 hless
  have hpair : n < e.state ∨ n = e.state ∧ b < e.terminal := by
    rcases Nat.lt_or_eq_of_le (Nat.le_of_not_lt hle) with hlt | heq
    · exact .inl hlt
    · exact .inr ⟨heq, Nat.lt_of_not_le fun hb => hnot ⟨heq.symm, hb⟩⟩
  exact hbefore n hn b hb hpair (follow_eq_none_iff.2 hendless)

theorem IsFirstEndless.unique (h : t.IsFirstEndless terminals e)
    (h' : t.IsFirstEndless terminals e') : e = e' := by
  obtain ⟨n, a, bound⟩ := e
  obtain ⟨n', a', bound'⟩ := e'
  have hle := h.first n' h'.state a' h'.terminal h'.endless
  have hle' := h'.first n h.state a h.terminal h.endless
  have hbound := h.bound.trans h'.bound.symm
  dsimp only at hle hle' hbound
  obtain rfl : n = n' := by
    rcases hle with hlt | ⟨heq, -⟩
    · rcases hle' with hlt' | ⟨heq', -⟩
      · exact absurd hlt (Nat.lt_asymm hlt')
      · exact heq'.symm
    · exact heq
  obtain rfl : a = a' := by
    rcases hle with hlt | ⟨-, hle⟩
    · exact absurd hlt (Nat.lt_irrefl n)
    · rcases hle' with hlt' | ⟨-, hle'⟩
      · exact absurd hlt' (Nat.lt_irrefl n)
      · exact Nat.le_antisymm hle hle'
  rw [hbound]

/-- There is a graph when no reductions go on without end. -/
theorem exists_graph_iff : (∃ g, t.graph terminals = .ok g) ↔
    ¬∃ n < t.stateCount, ∃ a ∈ terminals, t.Endless a n := by
  constructor
  · intro h hendless
    obtain ⟨g, hg⟩ := h
    obtain ⟨n, hn, a, ha, hendless⟩ := hendless
    exact follow_ne_none hg hn ha (follow_eq_none_iff.2 hendless)
  · intro h
    cases hgraph : t.graph terminals with
    | ok g => exact ⟨g, rfl⟩
    | error e =>
      have hfirst := isFirstEndless_of_error hgraph
      exact absurd ⟨e.state, hfirst.state, e.terminal, hfirst.terminal, hfirst.endless⟩ h

theorem graph_eq_error_iff : t.graph terminals = .error e ↔ t.IsFirstEndless terminals e := by
  constructor
  · exact isFirstEndless_of_error
  · intro h
    cases hgraph : t.graph terminals with
    | error e' => rw [h.unique (isFirstEndless_of_error hgraph)]
    | ok g =>
      have hsettles := exists_graph_iff.1 ⟨g, hgraph⟩
      exact absurd ⟨e.state, h.state, e.terminal, h.terminal, h.endless⟩ hsettles

/-! ## The graph -/

/-- The graph of any table over any terminals, in whatever order and however often they are given.
    It is missing exactly when from some state on reductions on one of the terminals go on without
    end, and then the first state and terminal with such reductions are reported. Else there is a
    node for every state, with the edges in order, and an edge goes where a shift goes that
    reductions on the terminal lead to. -/
theorem graph_exact (t : ParseTable) (terminals : List TerminalId) :
    ((∃ e, t.graph terminals = .error e) ↔
      ∃ n < t.stateCount, ∃ a ∈ terminals, t.Endless a n) ∧
    (∀ e, t.graph terminals = .error e ↔ t.IsFirstEndless terminals e) ∧
    ((¬∃ n < t.stateCount, ∃ a ∈ terminals, t.Endless a n) →
      ∃ g, t.graph terminals = .ok g ∧ g.size = t.stateCount ∧ g.Ascending ∧
        ∀ n node, g.node? n = some node → ∀ a m, ⟨a, m⟩ ∈ node.edges ↔
          a ∈ terminals ∧
            ∃ k, Relation.ReflTransGen (t.Reduces a) n k ∧ t.action k a = .shift m) := by
  refine ⟨?_, fun e => graph_eq_error_iff, ?_⟩
  · constructor
    · intro h
      obtain ⟨e, he⟩ := h
      have hfirst := isFirstEndless_of_error he
      exact ⟨e.state, hfirst.state, e.terminal, hfirst.terminal, hfirst.endless⟩
    · intro h
      cases hgraph : t.graph terminals with
      | error e => exact ⟨e, rfl⟩
      | ok g => exact absurd h (exists_graph_iff.1 ⟨g, hgraph⟩)
  · intro h
    obtain ⟨g, hg⟩ := exists_graph_iff.2 h
    have hsize : g.size = t.stateCount := by
      have hlength := (node_of_graph hg).length_eq
      rw [List.length_range] at hlength
      exact hlength.symm
    refine ⟨g, hg, hsize, ascending_graph hg, ?_⟩
    intro n node hnode a m
    rw [mem_edges_iff hg hnode]
    constructor
    · intro he
      exact ⟨he.1, exists_shift_of_follow he.2⟩
    · intro he
      obtain ⟨ha, k, hk, hshift⟩ := he
      have hn : n < t.stateCount := (node?_graph hg).1 (by rw [hnode]; rfl)
      exact ⟨ha, follow_of_reduces_of_shift hk hshift (follow_ne_none hg hn ha)⟩

/-- Two states. On the first terminal both reduce and lead to each other, on the second one the
    first state reduces and leads to a shift, and on the third one its goto leaves the table. -/
def leading : ParseTable where
  terminals := ["A", "B", "C"]
  nonterminals := ["x", "y"]
  stateCount := 2
  actions := #[.reduce 0, .reduce 0, .reduce 1, .reduce 0, .shift 7, .error]
  gotos := #[some 1, some 9, some 0, none]
  reductions := #[⟨0, 1⟩, ⟨1, 1⟩]

/-- Over all terminals the reductions on the first one are reported, and over the others there is a
    graph. -/
theorem exists_graph_leading : leading.IsFirstEndless [2, 0, 1, 0] ⟨0, 0, 2⟩ ∧
    ∃ g, leading.graph [2, 1, 2] = .ok g ∧ g.size = 2 ∧
      ∃ k, Relation.ReflTransGen (leading.Reduces 1) 0 k ∧ leading.action k 1 = .shift 7 := by
  obtain ⟨-, herror, -⟩ := graph_exact leading [2, 0, 1, 0]
  obtain ⟨hmissing, -, hgraph⟩ := graph_exact leading [2, 1, 2]
  have hok : leading.graph [2, 1, 2] = .ok ⟨[⟨[⟨1, 7⟩]⟩, ⟨[⟨1, 7⟩]⟩]⟩ := rfl
  have hsettles : ¬∃ n < leading.stateCount, ∃ a ∈ [2, 1, 2], leading.Endless a n := by
    intro h
    obtain ⟨e, he⟩ := hmissing.2 h
    rw [hok] at he
    cases he
  refine ⟨(herror _).1 rfl, ?_⟩
  obtain ⟨g, hg, hsize, -, hedges⟩ := hgraph hsettles
  obtain rfl := Except.ok.inj (hok.symm.trans hg)
  exact ⟨_, hg, hsize, ((hedges 0 _ rfl 1 7).1 (by decide)).2⟩

end FluentGrammar.ParseTable
