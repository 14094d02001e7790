import FluentGrammar.Proofs.Automaton.Exits
import FluentGrammar.Proofs.Graph.Chains
import FluentGrammar.Proofs.Language.Spines

/-
  Chains of reductions that come back. Followed back, a loop of reductions on an action is a row of
  nonterminals in which each has a production for those right behind it (`Unrolling`): the state
  that a production is reduced in was entered by the symbols of its right-hand side. The action may
  follow all of these productions, so none of them derives anything in two ways. Hence all
  nonterminals on the loop derive nothing, provided that each derives something
  (`Builds.derives_nil_of_loop`).
-/

namespace FluentGrammar.Analysis

open ParseTable Report

variable {g : Grammar} {table : ParseTable} {ds : List Diagnostic} {n m d k : Nat}
  {t : TerminalId} {l : NonterminalId} {p : ProductionId} {q : Production}

/-- What may follow a production at some position may follow it at its front, somewhere. -/
theorem Follows.exists_front (h : Follows g n ⟨p, d⟩ t) : ∃ m, Follows g m ⟨p, 0⟩ t := by
  generalize hi : (⟨p, d⟩ : Item) = i at h
  induction h generalizing d with
  | finish =>
    obtain rfl := congrArg Item.production hi
    exact ⟨0, .finish⟩
  | head hj hr hq hl ht =>
    obtain rfl := congrArg Item.production hi
    exact ⟨_, .head hj hr hq hl ht⟩
  | pass hj hr hq hl hempty =>
    obtain rfl := congrArg Item.production hi
    exact ⟨_, .pass hj hr hq hl hempty⟩
  | @move n j x m t hj hx hmove ih =>
    have hp : p = j.production := congrArg Item.production hi
    exact ih (d := j.dot) (by rw [hp])

/-- Going back from an item to the front of its production, along any states that transitions lead
    through. -/
theorem take_of_backward (hg : g.WellFormed) {states : Nat → StateId} {symbols : Nat → Symbol}
    (hmoves : ∀ i, (ofGrammar g).Moves (states (i + 1)) (symbols i) (states i))
    (hq : (ofGrammar g).grammar.productions[p]? = some q)
    (hi : (ofGrammar g).Knows (states k) ⟨p, d⟩ none) :
    d ≤ q.rhs.length ∧ q.rhs.take d = (List.range' k d).reverse.map symbols := by
  induction d generalizing k with
  | zero => exact ⟨Nat.zero_le _, List.take_zero⟩
  | succ d ih =>
    obtain ⟨hj, hx⟩ := knows_of_moves_back hg.ranged (hmoves k) hi
    obtain ⟨hlt, htake⟩ := take_of_next? hq hx
    obtain ⟨-, hback⟩ := ih hj
    refine ⟨hlt, ?_⟩
    rw [htake, hback, List.range'_succ, List.reverse_cons, List.map_append]
    rfl

section

variable (hg : g.WellFormed) (h : (ofGrammar g).Builds g table ds)

include hg h

/-- One step of a chain: a production that is reduced, and the transition over its nonterminal. -/
theorem Builds.exists_production_of_chain (hchain : table.Chain t n [l] m) :
    ∃ p q, g.productions[p]? = some q ∧ q.lhs = l ∧ (ofGrammar g).Ends n p t ∧
      (ofGrammar g).Moves n (.nonterminal l) m := by
  obtain ⟨p, reduction, hact, hr, rfl, hgoto⟩ := hchain.exists_reduce
  have hends := (h.ends_of_reduce hg.ranged hact).2
  rw [h.reduction, Option.map_eq_some_iff] at hr
  obtain ⟨q, hq, rfl⟩ := hr
  exact ⟨p, q, hq, rfl, hends, ((h.goto_iff hg.ranged).1 hgoto).2⟩

variable (ht : t < g.endTerminal)

include ht

/-- The right-hand side of a production that is reduced on an action derives nothing in two
    ways. -/
theorem Builds.unambiguous_of_ends (hends : (ofGrammar g).Ends n p t)
    (hq : g.productions[p]? = some q) : g.Unambiguous q.rhs := by
  obtain ⟨⟨p', d⟩, hknows, -, rfl⟩ := hends
  obtain ⟨m, hfront⟩ := (follows_of_knows hg.ranged hknows).exists_front
  intro cs cs' u hcs hcs'
  exact h.eq_of_parses hg ht (hfront.knows hg.ranged) hq hcs hcs'

/-- When all nonterminals of a loop of reductions derive something, all of them derive nothing. -/
theorem Builds.derives_nil_of_loop {loop : List NonterminalId} (hloop : table.Chain t n loop n)
    (hsome : ∀ l ∈ loop, ∃ w, g.Derives [.nonterminal l] w) :
    ∀ l ∈ loop, g.Derives [.nonterminal l] [] := by
  intro l hl
  obtain ⟨states, symbols, rfl, hback⟩ := hloop.exists_backward hl
  have hstep := fun i => h.exists_production_of_chain hg (hback i).2
  have hmoves : ∀ i,
      (ofGrammar g).Moves (states (i + 1)) (.nonterminal (symbols i)) (states i) := by
    intro i
    obtain ⟨p, q, -, -, -, hmove⟩ := hstep i
    exact hmove
  have hbound : ∀ i, symbols i < g.nonterminals.length := by
    intro i
    obtain ⟨p, q, hq, hl, -, -⟩ := hstep i
    exact hl ▸ hg.lhs q (List.mem_of_getElem? hq)
  refine Grammar.derives_nil_of_row hbound (fun i => hsome _ (hback i).1) (fun i => ?_) 0
  -- The production reduced in a state is for the symbols by which the state was entered.
  obtain ⟨p, q, hq, hl, hends, -⟩ := hstep i
  have hown := (getElem?_of_productions hq).1
  obtain ⟨⟨p', d⟩, hknows, hr, rfl⟩ := id hends
  rw [remaining_eq hown, List.drop_eq_nil_iff] at hr
  obtain ⟨-, htake⟩ := take_of_backward hg hmoves hown (knows_none hknows)
  refine ⟨_, q, d, hq, hl, ?_, h.unambiguous_of_ends hg ht hends hq⟩
  rw [← htake, List.take_of_length_le hr]

end

end FluentGrammar.Analysis
