import FluentGrammar.Proofs.Automaton.Numbering
import FluentGrammar.Proofs.Automaton.Paths
import FluentGrammar.Proofs.Language.Trees

/-
  Every state is the end of a path (`exists_path`), because exploring finds new kernels only by
  transitions from states found before. And every path is the beginning of sentences, if the
  nonterminals that productions lead to derive something: the trees of its symbols are made first
  in the tree of a sentence, and trees for what an item of its last state has to read come right
  after them (`Path.exists_sentence`).
-/

namespace FluentGrammar

namespace Grammar

variable {g : Grammar} {α β : List Symbol} {ts : List Tree} {w : List TerminalId}

theorem Parses.split (h : g.Parses (α ++ β) ts w) : ∃ ts₁ ts₂ u v, ts = ts₁ ++ ts₂ ∧ w = u ++ v ∧
    g.Parses α ts₁ u ∧ g.Parses β ts₂ v := by
  induction α generalizing ts w with
  | nil => exact ⟨[], ts, [], w, rfl, rfl, .nil, h⟩
  | cons s α ih =>
    cases h with
    | terminal h =>
      obtain ⟨ts₁, ts₂, u, v, rfl, rfl, hu, hv⟩ := ih h
      exact ⟨_ :: ts₁, ts₂, _ :: u, v, rfl, rfl, .terminal hu, hv⟩
    | nonterminal hp hn hr h =>
      obtain ⟨ts₁, ts₂, u, v, rfl, rfl, hu, hv⟩ := ih h
      exact ⟨_ :: ts₁, ts₂, _ ++ u, v, rfl, (List.append_assoc ..).symm,
        .nonterminal hp hn hr hu, hv⟩

/-- When the nonterminals derive something, a string of symbols does. -/
theorem exists_derives_of_reached (hsome : ∀ l, g.Reached l → ∃ w, g.Derives [.nonterminal l] w)
    (hα : ∀ l, .nonterminal l ∈ α → g.Reached l) : ∃ w, g.Derives α w := by
  refine exists_derives_of_forall fun x hx => ?_
  cases x with
  | terminal t => exact ⟨[t], .terminal .nil⟩
  | nonterminal l => exact hsome l (hα l hx)

end Grammar

namespace Analysis

variable {g : Grammar} {n m : Nat} {stack : List Nat} {α : List Symbol} {i j : Item}
  {x : Symbol} {ts : List Tree} {u : List TerminalId}

/-! ## Paths to all states -/

/-- Every state is the end of a path. -/
theorem exists_path (hg : g.Ranged) (hn : n < (ofGrammar g).states.length) :
    ∃ stack α, (ofGrammar g).Path (n :: stack) α := by
  have hm := madeOf_settle hg (bound_lt hg)
  induction n using Nat.strong_induction_on with
  | _ n ih =>
    rcases Nat.eq_zero_or_pos n with rfl | hpos
    · exact ⟨[], [], .start⟩
    · have hstate := List.getElem?_eq_getElem hn
      obtain ⟨kernel, hkernel, -⟩ := hm.state hstate
      have hsize := (List.getElem?_eq_some_iff.1 hkernel).1
      obtain ⟨k, hkn, row, hrow, x, hx⟩ := (skeleton_numbered _).origin n hpos hsize
      have hk := Nat.lt_trans hkn hn
      have hstate' := List.getElem?_eq_getElem hk
      obtain rfl := Option.some.inj (((hm.states k _).1 hstate').2.symm.trans hrow)
      obtain ⟨stack, α, hpath⟩ := ih k hkn hk
      exact ⟨_, _, hpath.step ⟨_, hstate', hx⟩⟩

/-! ## Paths are beginnings -/

/-- Productions lead to what the item has still to read, and trees for that come right after the
    given ones in the tree of a sentence. -/
def Completes (g : Grammar) (ts : List Tree) (u : List TerminalId) (i : Item) : Prop :=
  (∀ l, .nonterminal l ∈ (ofGrammar g).remaining i → g.Reached l) ∧
    ∀ rs v, g.Parses ((ofGrammar g).remaining i) rs v → ∃ T w rest,
      g.Parses [.nonterminal g.start] [T] (u ++ v ++ w) ∧
        T.turns = Tree.turnsOfAll ts ++ (Tree.turnsOfAll rs ++ rest)

theorem Completes.enter (hg : g.Ranged)
    (hsome : ∀ l, g.Reached l → ∃ w, g.Derives [.nonterminal l] w) {l : NonterminalId}
    {after : List Symbol} {p : ProductionId} {q : Production} (h : Completes g ts u j)
    (hr : (ofGrammar g).remaining j = .nonterminal l :: after)
    (hq : (ofGrammar g).grammar.productions[p]? = some q) (hl : q.lhs = l) :
    Completes g ts u ⟨p, 0⟩ := by
  obtain ⟨hreached, hcomplete⟩ := h
  rw [hr] at hreached hcomplete
  obtain ⟨hown, hne⟩ := mem_productions_of_next hg hr hq hl
  have hp := getElem?_of_ne_accept hq hne
  rw [Completes, remaining_eq hq, List.drop_zero]
  refine ⟨fun k hk => (hreached l List.mem_cons_self).tail ⟨q, hown, hl, hk⟩, fun rs v hrs => ?_⟩
  obtain ⟨w, hw⟩ := Grammar.exists_derives_of_reached hsome
    fun k hk => hreached k (List.mem_cons_of_mem _ hk)
  obtain ⟨es, hes⟩ := Grammar.derives_iff_parses.1 hw
  obtain ⟨T, x, rest, hT, hturns⟩ := hcomplete _ _ (.nonterminal hp hl hrs hes)
  refine ⟨T, w ++ x, .reduce p :: (Tree.turnsOfAll es ++ rest), ?_, ?_⟩
  · simpa using hT
  · rw [hturns, Tree.turnsOfAll, Tree.turns]
    simp

theorem Completes.advance (hx : (ofGrammar g).next? j = some x) {T : Tree} {v : List TerminalId}
    (h : Completes g ts u j) (hT : g.Parses [x] [T] v) :
    Completes g (ts ++ [T]) (u ++ v) j.advance := by
  obtain ⟨after, hr⟩ := next?_eq_some_iff.1 hx
  obtain ⟨hreached, hcomplete⟩ := h
  rw [hr] at hreached hcomplete
  rw [Completes, remaining_advance hr]
  refine ⟨fun l hl => hreached l (List.mem_cons_of_mem _ hl), fun rs v' hrs => ?_⟩
  obtain ⟨S, w, rest, hS, hturns⟩ := hcomplete _ _ (hT.append hrs)
  refine ⟨S, w, rest, by simpa using hS, ?_⟩
  rw [hturns, Tree.turnsOfAll_append, Tree.turnsOfAll_append]
  simp

/-- The trees of a path come first in the tree of a sentence, and trees for what an item of its
    last state has to read come right after them. -/
theorem Path.completes (hg : g.Ranged)
    (hsome : ∀ l, g.Reached l → ∃ w, g.Derives [.nonterminal l] w)
    (hpath : (ofGrammar g).Path (n :: stack) α) (hts : g.Parses α ts u)
    (hi : (ofGrammar g).Knows n i none) : Completes g ts u i := by
  have enter {ts u} : ∀ j l after p q, Completes g ts u j →
      (ofGrammar g).remaining j = .nonterminal l :: after →
      (ofGrammar g).grammar.productions[p]? = some q → q.lhs = l → Completes g ts u ⟨p, 0⟩ :=
    fun _ _ _ _ _ h hr hq hl => h.enter hg hsome hr hq hl
  generalize hs : n :: stack = states at hpath
  induction hpath generalizing n stack i ts u with
  | start =>
    obtain ⟨rfl, rfl⟩ := List.cons.inj hs
    cases hts
    refine knows_induction_start hg (motive := Completes g [] []) ?_ enter hi
    rw [Completes, remaining_startItem]
    refine ⟨fun l hl => ?_, fun rs v hrs => ?_⟩
    · obtain rfl : l = g.start := by simpa using hl
      exact .refl
    · obtain ⟨T, rfl⟩ := List.length_eq_one_iff.1 hrs.length_eq
      exact ⟨T, [], [], by simpa using hrs, by simp [Tree.turnsOfAll]⟩
  | step _ hmove ih =>
    obtain ⟨rfl, rfl⟩ := List.cons.inj hs
    obtain ⟨ts₁, ts₂, u₁, u₂, rfl, rfl, h₁, h₂⟩ := hts.split
    obtain ⟨T, rfl⟩ := List.length_eq_one_iff.1 h₂.length_eq
    exact knows_induction_of_moves hg (motive := Completes g (ts₁ ++ [T]) (u₁ ++ u₂)) hmove
      (fun j hj hx => (ih h₁ hj rfl).advance hx h₂) enter hi

end Analysis

end FluentGrammar
