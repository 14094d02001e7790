import FluentGrammar.Proofs.Automaton.Table

/-
  Paths through the automaton, from the first state on. A path carries the symbols of its
  transitions. An item in the last state is what a leftmost form still has to read
  (`Path.reaches`), and what an item has behind its position the path has read last
  (`Path.unwind`).
-/

namespace FluentGrammar.Analysis

/-- The states of a path, the latest first, and the symbols of its transitions in order. -/
inductive Path (a : Analysis) : List Nat → List Symbol → Prop
  | start : Path a [0] []
  | step {n stack α x m} : Path a (n :: stack) α → a.Moves n x m →
      Path a (m :: n :: stack) (α ++ [x])

variable {g : Grammar} {n m d : Nat} {stack : List Nat} {α : List Symbol} {i : Item}
  {p : ProductionId} {q : Production} {x : Symbol} {t : TerminalId}

/-! ## Sentences -/

/-- A production of a nonterminal that comes next is one of the grammar's own. -/
theorem mem_productions_of_next (hg : g.Ranged) {l : NonterminalId} {after : List Symbol}
    (hr : (ofGrammar g).remaining i = .nonterminal l :: after)
    (hq : (ofGrammar g).grammar.productions[p]? = some q) (hl : q.lhs = l) :
    q ∈ g.productions ∧ p ≠ (ofGrammar g).accept := by
  have hne : q ≠ g.sentence := by
    rintro rfl
    obtain ⟨q', hq'⟩ := exists_of_remaining_ne_nil (i := i) (by rw [hr]; simp)
    rw [remaining_eq hq'] at hr
    refine hg.sentence_not_mem q' (List.mem_of_getElem? hq') ?_
    have hmem : .nonterminal l ∈ q'.rhs.drop i.dot := by
      rw [hr]
      exact List.mem_cons_self
    rw [← hl] at hmem
    exact List.mem_of_mem_drop hmem
  obtain ⟨hp, hmem⟩ | ⟨-, heq⟩ := getElem?_productions hq
  · refine ⟨hmem, ?_⟩
    rw [accept_ofGrammar]
    exact Nat.ne_of_lt hp
  · exact absurd heq hne

theorem remaining_startItem (g : Grammar) :
    (ofGrammar g).remaining (ofGrammar g).startItem = [.nonterminal g.start] :=
  remaining_eq (getElem?_accept g) 0

/-- The start item is in no state that a transition enters. -/
theorem not_knows_startItem_of_moves (hg : g.Ranged) (h : (ofGrammar g).Moves n x m) :
    ¬(ofGrammar g).Knows m (ofGrammar g).startItem none := by
  intro hk
  have hne : (ofGrammar g).startItem ≠ (ofGrammar g).startItem := by
    refine knows_induction_of_moves hg (motive := fun i => i ≠ (ofGrammar g).startItem) h
      (fun j _ _ heq => ?_) (fun j l after p q _ hr hq hl heq => ?_) hk
    · exact Nat.succ_ne_zero _ (congrArg Item.dot heq)
    · exact (mem_productions_of_next hg hr hq hl).2 (congrArg Item.production heq)
  exact hne rfl

/-! ## What is still to be read -/

/-- Whatever the symbols of a path derive, a leftmost form has it in front of what an item of the
    last state has to read. -/
theorem Path.reaches (hg : g.Ranged) (hpath : (ofGrammar g).Path (n :: stack) α)
    (hi : (ofGrammar g).Knows n i none) {u : List TerminalId} (hu : g.Derives α u) :
    ∃ κ, g.Reaches u ((ofGrammar g).remaining i ++ κ) := by
  -- What an item has to read goes over to the productions of the nonterminal that comes next.
  have enter {u} : ∀ j l after p q, (∃ κ, g.Reaches u ((ofGrammar g).remaining j ++ κ)) →
      (ofGrammar g).remaining j = .nonterminal l :: after →
      (ofGrammar g).grammar.productions[p]? = some q → q.lhs = l →
      ∃ κ, g.Reaches u ((ofGrammar g).remaining ⟨p, 0⟩ ++ κ) := by
    rintro j l after p q ⟨κ, hκ⟩ hr hq hl
    rw [hr] at hκ
    rw [remaining_eq hq, List.drop_zero]
    exact ⟨after ++ κ, .expand (mem_productions_of_next hg hr hq hl).1 hl hκ⟩
  generalize hs : n :: stack = states at hpath
  induction hpath generalizing n stack i u with
  | start =>
    obtain ⟨rfl, rfl⟩ := List.cons.inj hs
    cases hu
    refine knows_induction_start hg (motive := fun i =>
      ∃ κ, g.Reaches [] ((ofGrammar g).remaining i ++ κ)) ⟨[], ?_⟩ enter hi
    rw [remaining_startItem]
    exact .start
  | step hpath hmove ih =>
    obtain ⟨rfl, rfl⟩ := List.cons.inj hs
    obtain ⟨u₁, u₂, rfl, hu₁, hu₂⟩ := hu.split
    refine knows_induction_of_moves hg (motive := fun i =>
      ∃ κ, g.Reaches (u₁ ++ u₂) ((ofGrammar g).remaining i ++ κ)) hmove
      (fun j hj hx => ?_) enter hi
    obtain ⟨rest, hr⟩ := next?_eq_some_iff.1 hx
    obtain ⟨κ, hκ⟩ := ih hj hu₁ rfl
    rw [hr] at hκ
    rw [remaining_advance hr]
    exact ⟨κ, hκ.derives (α := [_]) hu₂⟩

/-- The last state of a path knows some item. -/
theorem Path.exists_knows (hg : g.Ranged) (hpath : (ofGrammar g).Path (n :: stack) α) :
    ∃ i, (ofGrammar g).Knows n i none := by
  cases hpath with
  | start => exact ⟨_, knows_none (knows_start hg)⟩
  | step _ hmove =>
    obtain ⟨i, hi, hx⟩ := exists_knows_of_moves hg hmove
    exact ⟨i.advance, knows_of_moves hg hmove hi hx⟩

/-- Whatever the symbols of a path derive is the beginning of a form of the start symbol. -/
theorem Path.reads (hg : g.Ranged) (hpath : (ofGrammar g).Path (n :: stack) α)
    {u : List TerminalId} (hu : g.Derives α u) : g.Reads .start [.nonterminal g.start] u := by
  obtain ⟨i, hi⟩ := hpath.exists_knows hg
  obtain ⟨κ, hκ⟩ := hpath.reaches hg hi hu
  have h := hκ.reads (.cut _)
  rwa [List.append_nil] at h

/-! ## What has been read last -/

/-- An item with something before its position was moved there by the transition. -/
theorem knows_of_moves_back (hg : g.Ranged) (hmove : (ofGrammar g).Moves n x m)
    (hi : (ofGrammar g).Knows m ⟨p, d + 1⟩ none) :
    (ofGrammar g).Knows n ⟨p, d⟩ none ∧ (ofGrammar g).next? ⟨p, d⟩ = some x := by
  have hback := knows_induction_of_moves hg (motive := fun i => i.dot = 0 ∨
      ∃ j, (ofGrammar g).Knows n j none ∧ (ofGrammar g).next? j = some x ∧ j.advance = i)
    hmove (fun j hj hx => .inr ⟨j, hj, hx, rfl⟩) (fun _ _ _ _ _ _ _ _ _ => .inl rfl) hi
  obtain hdot | ⟨j, hj, hx, hadvance⟩ := hback
  · cases hdot
  · have hjd : j = ⟨p, d⟩ := Item.advance_injective hadvance
    subst hjd
    exact ⟨hj, hx⟩

theorem take_of_next? (hq : (ofGrammar g).grammar.productions[p]? = some q)
    (hx : (ofGrammar g).next? ⟨p, d⟩ = some x) :
    d < q.rhs.length ∧ q.rhs.take (d + 1) = q.rhs.take d ++ [x] := by
  obtain ⟨rest, hr⟩ := next?_eq_some_iff.1 hx
  rw [remaining_eq hq] at hr
  have hlt : d < q.rhs.length := by
    have hlength := congrArg List.length hr
    rw [List.length_drop, List.length_cons] at hlength
    omega
  have hget : q.rhs[d]? = some x := by
    rw [← List.head?_drop, hr]
    rfl
  refine ⟨hlt, ?_⟩
  rw [List.take_add_one, hget]
  rfl

/-- Going back from an item to the front of its production, along the symbols before its
    position. -/
theorem Path.unwind (hg : g.Ranged) (hq : (ofGrammar g).grammar.productions[p]? = some q)
    (hpath : (ofGrammar g).Path (n :: stack) α)
    (hi : (ofGrammar g).Knows n ⟨p, d⟩ none) :
    d ≤ q.rhs.length ∧ ∃ k below β, (n :: stack).drop d = k :: below ∧
      α = β ++ q.rhs.take d ∧ (ofGrammar g).Path (k :: below) β ∧
      (ofGrammar g).Knows k ⟨p, 0⟩ none := by
  induction d generalizing n stack α with
  | zero =>
    refine ⟨Nat.zero_le _, n, stack, α, rfl, ?_, hpath, hi⟩
    rw [List.take_zero, List.append_nil]
  | succ d ih =>
    cases hpath with
    | start =>
      have hdot := knows_induction_start hg (motive := fun i => i.dot = 0) rfl
        (fun _ _ _ _ _ _ _ _ _ => rfl) hi
      cases hdot
    | @step k stack α x m hpath hmove =>
      obtain ⟨hj, hx⟩ := knows_of_moves_back hg hmove hi
      obtain ⟨hlt, htake⟩ := take_of_next? hq hx
      obtain ⟨-, k', below, β, hdrop, hα, hbelow, hk'⟩ := ih hpath hj
      refine ⟨hlt, k', below, β, hdrop, ?_, hbelow, hk'⟩
      rw [htake, hα, List.append_assoc]

/-- A production that ends in a state has been read last, and the state below it began it. -/
theorem Path.unwind_of_ends (hg : g.Ranged)
    (hq : (ofGrammar g).grammar.productions[p]? = some q)
    (hpath : (ofGrammar g).Path (n :: stack) α) (hends : (ofGrammar g).Ends n p t) :
    ∃ k below β, (n :: stack).drop q.rhs.length = k :: below ∧ α = β ++ q.rhs ∧
      (ofGrammar g).Path (k :: below) β ∧ (ofGrammar g).Knows k ⟨p, 0⟩ none := by
  obtain ⟨⟨p', d⟩, hknows, hr, rfl⟩ := hends
  rw [remaining_eq hq, List.drop_eq_nil_iff] at hr
  obtain ⟨hd, k, below, β, hdrop, hα, hbelow, hk⟩ := hpath.unwind hg hq (knows_none hknows)
  have hlength : d = q.rhs.length := Nat.le_antisymm hd hr
  rw [hlength] at hdrop hα
  rw [List.take_length] at hα
  exact ⟨k, below, β, hdrop, hα, hbelow, hk⟩

end FluentGrammar.Analysis
