import FluentGrammar.Proofs.Automaton.Collection
import FluentGrammar.Proofs.Automaton.Follow
import Mathlib.Order.Bounds.Basic

/-
  The lookaheads of the kernels are the least solution of the equations by which lookaheads spread
  (`isLeast_lookaheads`). What a closure has and no kernel can are items at the front of
  productions, so what may follow an item of a kernel comes with a transition or is the end of
  input (`ne_of_mem_core`).
-/

namespace FluentGrammar

namespace Grammar

/-! ## The equations -/

/-- What may follow the items of a closure, when `L` may follow those of the kernel. -/
inductive Spreads (g : Grammar) (K : Set Item) (L : Item → Set TerminalId) :
    Item → TerminalId → Prop
  | base {i t} : i ∈ K → t ∈ L i → Spreads g K L i t
  /-- The productions of a nonterminal that comes next have what stands behind it to follow, -/
  | head {i l after p q t} : g.Closure K i →
      (Analysis.ofGrammar g).remaining i = .nonterminal l :: after →
      g.augmented.productions[p]? = some q → q.lhs = l → g.Heads t after →
      Spreads g K L ⟨p, 0⟩ t
  /-- and also what follows the item, when nothing needs to stand behind it. -/
  | pass {i l after p q t} : Spreads g K L i t →
      (Analysis.ofGrammar g).remaining i = .nonterminal l :: after →
      g.augmented.productions[p]? = some q → q.lhs = l → g.Derives after [] →
      Spreads g K L ⟨p, 0⟩ t

/-- What may follow the items of the kernels, when `L` may: the end of input follows a whole
    sentence, and transitions take along what may follow. -/
def propagate (g : Grammar) (states : List ItemState) (L : Nat → Item → Set TerminalId) (m : Nat)
    (j : Item) : Set TerminalId :=
  {t | (m = 0 ∧ j = (Analysis.ofGrammar g).startItem ∧ t = g.endTerminal) ∨
    ∃ n s x i, states[n]? = some s ∧ (x, m) ∈ s.transitions ∧ g.Spreads s.core (L n) i t ∧
      (Analysis.ofGrammar g).next? i = some x ∧ i.advance = j}

end Grammar

/-- What may follow the items of the kernels. -/
def lookaheads (states : List ItemState) (n : Nat) (i : Item) : Set TerminalId :=
  {t | ∃ s, states[n]? = some s ∧ t ∈ s.kernel.lookaheads i}

namespace Analysis

variable {g : Grammar} {i j : Item} {x : Symbol} {n m : Nat} {s s' : ItemState} {t : TerminalId}
  {l : NonterminalId} {after : List Symbol} {p : ProductionId} {q : Production}

theorem mem_lookaheads (hs : (ofGrammar g).states[n]? = some s) :
    t ∈ lookaheads (ofGrammar g).states n i ↔ s.kernel.Has i (some t) := by
  constructor
  · rintro ⟨s', hs', ht⟩
    obtain rfl := Option.some.inj (hs.symm.trans hs')
    exact ht
  · exact fun h => ⟨s, hs, h⟩

/-! ## Kernels and their closures -/

/-- A nonterminal that comes next brings no item of a kernel. -/
theorem ne_of_mem_core (hg : g.Ranged) (hs : (ofGrammar g).states[n]? = some s)
    (hj : j ∈ s.core) (hr : (ofGrammar g).remaining i = .nonterminal l :: after)
    (hq : (ofGrammar g).grammar.productions[p]? = some q) (hl : q.lhs = l) : j ≠ ⟨p, 0⟩ := by
  rintro rfl
  obtain ⟨stack, α, hpath⟩ := exists_path hg (List.getElem?_eq_some_iff.1 hs).1
  cases hpath with
  | start =>
    obtain ⟨s', hs', hcore⟩ := exists_first_state hg
    obtain rfl := Option.some.inj (hs.symm.trans hs')
    rw [hcore] at hj
    exact (mem_productions_of_next hg hr hq hl).2 (congrArg Item.production hj)
  | step _ hmove =>
    obtain ⟨s₀, hs₀, -⟩ := id hmove
    obtain ⟨-, s', hs', hcore⟩ := (moves_iff_goto hg hs₀).1 hmove
    obtain rfl := Option.some.inj (hs.symm.trans hs')
    rw [hcore] at hj
    obtain ⟨i, -, -, hadvance⟩ := hj
    exact Nat.succ_ne_zero _ (congrArg Item.dot hadvance)

/-- What spreads to an item of the kernel was there. -/
theorem mem_of_spreads (hg : g.Ranged) {L : Item → Set TerminalId}
    (hs : (ofGrammar g).states[n]? = some s) (hj : j ∈ s.core) (h : g.Spreads s.core L j t) :
    t ∈ L j := by
  cases h with
  | base _ ht => exact ht
  | head _ hr hq hl => exact absurd rfl (ne_of_mem_core hg hs hj hr hq hl)
  | pass _ hr hq hl => exact absurd rfl (ne_of_mem_core hg hs hj hr hq hl)

/-- Closing an item set spreads what may follow its items. -/
theorem closes_some_iff (hg : g.Ranged) {set : ItemSet} :
    (ofGrammar g).Closes set i (some t) ↔
      g.Spreads {j | j ∈ set.items} (fun j => {t | set.Has j (some t)}) i t := by
  constructor
  · intro h
    generalize ho : some t = o at h
    induction h with
    | base hi =>
      subst ho
      exact .base (ItemSet.has_none_of_has_some hi) hi
    | enter => cases ho
    | head hj hr hp ht =>
      obtain rfl := Option.some.inj ho
      obtain ⟨q, hq, hl⟩ := (mem_byLhs_iff hg).1 hp
      exact .head ((closes_none_iff hg).1 hj) hr hq hl ((mem_first_iff hg (own_after hg hr)).1 ht)
    | pass _ hr hp hempty ih =>
      obtain ⟨q, hq, hl⟩ := (mem_byLhs_iff hg).1 hp
      exact .pass (ih ho) hr hq hl ((nullable_iff hg (own_after hg hr)).1 hempty)
  · intro h
    induction h with
    | base _ hi => exact .base hi
    | head hj hr hq hl ht =>
      exact .head ((closes_none_iff hg).2 hj) hr ((mem_byLhs_iff hg).2 ⟨_, hq, hl⟩)
        ((mem_first_iff hg (own_after hg hr)).2 ht)
    | pass _ hr hq hl hempty ih =>
      exact .pass ih hr ((mem_byLhs_iff hg).2 ⟨_, hq, hl⟩)
        ((nullable_iff hg (own_after hg hr)).2 hempty)

/-- The closure of a state has the lookaheads that spread from its kernel. -/
theorem knows_some_iff (hg : g.Ranged) (hs : (ofGrammar g).states[n]? = some s) :
    (ofGrammar g).Knows n i (some t) ↔
      g.Spreads s.core (lookaheads (ofGrammar g).states n) i t := by
  have hm := madeOf_settle hg (bound_lt hg)
  have hlookaheads : lookaheads (ofGrammar g).states n = fun j => {t | s.kernel.Has j (some t)} :=
    funext fun j => Set.ext fun t => mem_lookaheads hs
  rw [hlookaheads, knows_iff_of_state hs, hm.has_closure_iff hg (bound_lt hg) hs]
  exact closes_some_iff hg

/-- What is known to follow an item of a kernel is among its lookaheads. -/
theorem mem_lookaheads_of_knows (hg : g.Ranged) (hs : (ofGrammar g).states[n]? = some s)
    (hj : j ∈ s.core) (h : (ofGrammar g).Knows n j (some t)) :
    t ∈ lookaheads (ofGrammar g).states n j :=
  mem_of_spreads hg hs hj ((knows_some_iff hg hs).1 h)

/-! ## The least solution -/

/-- The lookaheads of the kernels solve the equations. -/
theorem propagate_lookaheads (hg : g.Ranged) :
    g.propagate (ofGrammar g).states (lookaheads (ofGrammar g).states) =
      lookaheads (ofGrammar g).states := by
  funext m j
  ext t
  constructor
  · rintro (⟨rfl, rfl, rfl⟩ | ⟨n, s, x, i, hs, hmem, hi, hx, rfl⟩)
    · obtain ⟨s, hs, hcore⟩ := exists_first_state hg
      refine mem_lookaheads_of_knows hg hs ?_ (knows_start hg)
      rw [hcore]
      rfl
    · have hmove : (ofGrammar g).Moves n x m := ⟨s, hs, hmem⟩
      obtain ⟨-, s', hs', hcore⟩ := (moves_iff_goto hg hs).1 hmove
      have hknows := (knows_some_iff hg hs).2 hi
      refine mem_lookaheads_of_knows hg hs' ?_ (knows_of_moves hg hmove hknows hx)
      rw [hcore]
      exact ⟨i, (knows_none_iff hg hs).1 (knows_none hknows), hx, rfl⟩
  · rintro ⟨s, hs, ht⟩
    have hj : j ∈ s.core := ItemSet.has_none_of_has_some (t := t) ht
    have hknows := (knows_some_iff hg hs).2 (.base hj ((mem_lookaheads hs).2 ht))
    cases follows_of_knows hg hknows with
    | finish => exact .inl ⟨rfl, rfl, rfl⟩
    | head _ hr hq hl => exact absurd rfl (ne_of_mem_core hg hs hj hr hq hl)
    | pass _ hr hq hl => exact absurd rfl (ne_of_mem_core hg hs hj hr hq hl)
    | move hi hx hmove =>
      obtain ⟨s', hs', hmem⟩ := hmove
      exact .inr ⟨_, s', _, _, hs', hmem, (knows_some_iff hg hs').1 (hi.knows hg), hx, rfl⟩

/-- Whatever satisfies the equations has them. -/
theorem lookaheads_le (hg : g.Ranged) {L : Nat → Item → Set TerminalId}
    (hL : g.propagate (ofGrammar g).states L ≤ L) : lookaheads (ofGrammar g).states ≤ L := by
  -- What follows an item for a reason spreads to it from what satisfies the equations.
  have hspreads {n i t} (h : Follows g n i t) : ∀ s, (ofGrammar g).states[n]? = some s →
      g.Spreads s.core (L n) i t := by
    induction h with
    | finish =>
      intro s hs
      obtain ⟨s', hs', hcore⟩ := exists_first_state hg
      obtain rfl := Option.some.inj (hs.symm.trans hs')
      exact .base (hcore ▸ rfl) (hL 0 _ (.inl ⟨rfl, rfl, rfl⟩))
    | head hj hr hq hl ht => exact fun s hs => .head ((knows_none_iff hg hs).1 hj) hr hq hl ht
    | pass _ hr hq hl hempty ih => exact fun s hs => .pass (ih s hs) hr hq hl hempty
    | move hi hx hmove ih =>
      intro s' hs'
      obtain ⟨s, hs, hmem⟩ := id hmove
      obtain ⟨-, s'', hs'', hcore⟩ := (moves_iff_goto hg hs).1 hmove
      obtain rfl := Option.some.inj (hs'.symm.trans hs'')
      refine .base ?_ (hL _ _ (.inr ⟨_, s, _, _, hs, hmem, ih s hs, hx, rfl⟩))
      rw [hcore]
      exact ⟨_, (knows_none_iff hg hs).1 (knows_none (hi.knows hg)), hx, rfl⟩
  intro m j t ht
  obtain ⟨s, hs, hmem⟩ := id ht
  have hj : j ∈ s.core := ItemSet.has_none_of_has_some (t := t) hmem
  have hknows := (knows_some_iff hg hs).2 (.base hj ht)
  exact mem_of_spreads hg hs hj (hspreads (follows_of_knows hg hknows) s hs)

/-- The lookaheads of the kernels are the least solution of the equations. -/
theorem isLeast_lookaheads (hg : g.Ranged) :
    IsLeast {L | g.propagate (ofGrammar g).states L = L} (lookaheads (ofGrammar g).states) :=
  ⟨propagate_lookaheads hg, fun _ hL => lookaheads_le hg hL.le⟩

end Analysis

end FluentGrammar
