import FluentGrammar.Proofs.Graph.Resolve
import Mathlib.Combinatorics.Pigeonhole

/-
  Chains of reductions from state to state, with the nonterminals of their gotos (`Chain`). A graph
  is missing only where a chain takes more steps than there are states, and then it comes to a
  state that it comes back to (`exists_loop_of_error`). From every nonterminal on a loop the loop
  can be followed back without end (`Chain.exists_backward`).
-/

namespace FluentGrammar

/-- A failure of a map is the failure on the first element that there is one on. -/
theorem exists_first_of_mapM_eq_error {ε α β : Type} {f : α → Except ε β} {xs : List α} {e : ε}
    (h : xs.mapM f = .error e) : ∃ front x back, xs = front ++ x :: back ∧ f x = .error e ∧
      ∀ y ∈ front, ∃ b, f y = .ok b := by
  induction xs with
  | nil => cases h
  | cons x xs ih =>
    rw [List.mapM_cons] at h
    obtain hx | ⟨b, hb, h⟩ := of_bind_eq_error h
    · exact ⟨[], x, xs, rfl, hx, by simp⟩
    · obtain hxs | ⟨ys, -, h⟩ := of_bind_eq_error h
      · obtain ⟨front, y, back, rfl, hy, hfront⟩ := ih hxs
        refine ⟨x :: front, y, back, rfl, hy, ?_⟩
        intro z hz
        rcases List.mem_cons.1 hz with rfl | hz
        · exact ⟨b, hb⟩
        · exact hfront z hz
      · cases h

/-- In an ascending list the lower entries stand in front. -/
theorem mem_front_of_lt {front back : List Nat} {x y : Nat}
    (h : (front ++ x :: back).Pairwise (· < ·)) (hy : y ∈ front ++ x :: back) (hlt : y < x) :
    y ∈ front := by
  rcases List.mem_append.1 hy with hy | hy
  · exact hy
  · rcases List.mem_cons.1 hy with rfl | hy
    · omega
    · have := (List.pairwise_cons.1 (List.pairwise_append.1 h).2.1).1 y hy
      omega

namespace ParseTable

/-- The table goes from one state to another by reductions on a terminal, with nothing taken from a
    stack. The nonterminals are those of the gotos. -/
inductive Chain (t : ParseTable) (a : TerminalId) : StateId → List NonterminalId → StateId → Prop
  | stop (n : StateId) : Chain t a n [] n
  | reduce {n m k ls r reduction} : t.action n a = .reduce r → t.reduction? r = some reduction →
      t.goto n reduction.produces = some m → Chain t a m ls k →
      Chain t a n (reduction.produces :: ls) k

variable {t : ParseTable} {a : TerminalId} {terminals : List TerminalId} {n m k : StateId}
  {l : NonterminalId} {ls ls' loop : List NonterminalId} {e : EndlessChain}

theorem Chain.trans (h : t.Chain a n ls m) (h' : t.Chain a m ls' k) :
    t.Chain a n (ls ++ ls') k := by
  induction h with
  | stop => exact h'
  | reduce hact hr hgoto _ ih => exact .reduce hact hr hgoto (ih h')

theorem Chain.split (h : t.Chain a n (ls ++ ls') k) :
    ∃ m, t.Chain a n ls m ∧ t.Chain a m ls' k := by
  induction ls generalizing n with
  | nil => exact ⟨n, .stop n, h⟩
  | cons l ls ih =>
    cases h with
    | reduce hact hr hgoto h =>
      obtain ⟨m, hm, hk⟩ := ih h
      exact ⟨m, .reduce hact hr hgoto hm, hk⟩

/-- One step of a chain. -/
theorem Chain.exists_reduce (h : t.Chain a n [l] m) : ∃ r reduction, t.action n a = .reduce r ∧
    t.reduction? r = some reduction ∧ reduction.produces = l ∧ t.goto n l = some m := by
  cases h with
  | reduce hact hr hgoto h =>
    cases h
    exact ⟨_, _, hact, hr, rfl, hgoto⟩

/-! ## Chains that do not settle -/

/-- The states of a chain that does not settle. -/
theorem exists_states_of_follow {steps : Nat} (h : t.follow a steps n = none) :
    ∃ s : Nat → StateId, s 0 = n ∧ ∀ i < steps, ∃ l, t.Chain a (s i) [l] (s (i + 1)) := by
  induction steps generalizing n with
  | zero => exact ⟨fun _ => n, rfl, fun i hi => absurd hi (Nat.not_lt_zero i)⟩
  | succ steps ih =>
    rw [follow] at h
    split at h
    · cases h
    · cases h
    · cases h
    · next r hact =>
      split at h
      · next m hm =>
        obtain ⟨reduction, hr, hgoto⟩ := Option.bind_eq_some_iff.1 hm
        obtain ⟨s, rfl, hs⟩ := ih h
        refine ⟨fun i => i.casesOn n s, rfl, fun i hi => ?_⟩
        cases i with
        | zero => exact ⟨_, .reduce hact hr hgoto (.stop _)⟩
        | succ i => exact hs i (Nat.lt_of_succ_lt_succ hi)
      · cases h

theorem exists_chain_of_states {s : Nat → StateId} {steps : Nat}
    (hs : ∀ i < steps, ∃ l, t.Chain a (s i) [l] (s (i + 1))) (i d : Nat) (hd : i + d ≤ steps) :
    ∃ ls, ls.length = d ∧ t.Chain a (s i) ls (s (i + d)) := by
  induction d with
  | zero => exact ⟨[], rfl, .stop _⟩
  | succ d ih =>
    obtain ⟨ls, hlength, hchain⟩ := ih (Nat.le_of_succ_le hd)
    obtain ⟨l, hl⟩ := hs (i + d) hd
    exact ⟨ls ++ [l], by rw [List.length_append, hlength, List.length_singleton], hchain.trans hl⟩

/-- Only a state of the table reduces. -/
theorem Chain.lt_stateCount (h : t.Chain a n [l] m) : n < t.stateCount := by
  obtain ⟨r, reduction, hact, -⟩ := h.exists_reduce
  by_contra hn
  have herror : t.action n a = .error := if_neg fun h => hn h.1
  rw [herror] at hact
  cases hact

/-- A chain longer than there are states comes to a state that it comes back to. -/
theorem exists_loop_of_follow (h : t.follow a (t.stateCount + 1) n = none) :
    ∃ ls m loop, t.Chain a n ls m ∧ t.Chain a m loop m ∧ loop ≠ [] := by
  obtain ⟨s, rfl, hs⟩ := exists_states_of_follow h
  have hbound : ∀ i ∈ Finset.range (t.stateCount + 1), s i ∈ Finset.range t.stateCount := by
    intro i hi
    rw [Finset.mem_range] at hi ⊢
    obtain ⟨l, hl⟩ := hs i hi
    exact hl.lt_stateCount
  have twice {i j : Nat} (hlt : i < j) (hj : j < t.stateCount + 1) (heq : s i = s j) :
      ∃ ls m loop, t.Chain a (s 0) ls m ∧ t.Chain a m loop m ∧ loop ≠ [] := by
    obtain ⟨ls, -, hchain⟩ := exists_chain_of_states hs 0 i (by omega)
    obtain ⟨loop, hlength, hloop⟩ := exists_chain_of_states hs i (j - i) (by omega)
    rw [Nat.zero_add] at hchain
    rw [Nat.add_sub_cancel' (Nat.le_of_lt hlt), ← heq] at hloop
    have hpos : 0 < loop.length := by omega
    exact ⟨ls, s i, loop, hchain, hloop, List.ne_nil_of_length_pos hpos⟩
  obtain ⟨i, hi, j, hj, hne, heq⟩ := Finset.exists_ne_map_eq_of_card_lt_of_maps_to (by simp) hbound
  rw [Finset.mem_range] at hi hj
  rcases Nat.lt_or_gt_of_ne hne with hlt | hgt
  · exact twice hlt hj heq
  · exact twice hgt hi heq.symm

theorem edge?_eq_error (h : t.edge? n a = .error e) :
    e = ⟨n, a, t.stateCount⟩ ∧ t.follow a (t.stateCount + 1) n = none := by
  unfold edge? at h
  split at h
  · next hfollow => exact ⟨(Except.error.inj h).symm, hfollow⟩
  · cases h

/-- A graph is missing for the first state and the first of the terminals in order on which the
    steps do not suffice. -/
theorem follow_of_error (h : t.graph terminals = .error e) :
    e.terminal ∈ terminals ∧ e.state < t.stateCount ∧ e.bound = t.stateCount ∧
      t.follow e.terminal (t.stateCount + 1) e.state = none ∧
      ∀ n < t.stateCount, ∀ a ∈ terminals, n < e.state ∨ n = e.state ∧ a < e.terminal →
        t.follow a (t.stateCount + 1) n ≠ none := by
  obtain hnodes | ⟨nodes, -, hrest⟩ := of_bind_eq_error h
  · obtain ⟨states, n, later, hstates, hnode, hbefore⟩ := exists_first_of_mapM_eq_error hnodes
    obtain hedges | ⟨edges, -, hrest⟩ := of_bind_eq_error hnode
    · obtain ⟨front, a, back, hterminals, hedge, hfront⟩ := exists_first_of_mapM_eq_error hedges
      obtain ⟨rfl, hfollow⟩ := edge?_eq_error hedge
      have hmem {b : TerminalId} : b ∈ front ++ a :: back ↔ b ∈ terminals := by
        rw [← hterminals, OrderedSet.mem_union]
        simp
      have hrange {k : StateId} : k ∈ states ++ n :: later ↔ k < t.stateCount := by
        rw [← hstates, List.mem_range]
      refine ⟨hmem.1 (by simp), hrange.1 (by simp), rfl, hfollow, ?_⟩
      intro k hk b hb hless hnone
      -- So the steps suffice on the states in front, and here on the terminals in front.
      have hfails : ∀ edge, t.edge? k b ≠ .ok edge := by
        intro edge hedge
        rw [(follow_of_edge? hedge).1] at hnone
        cases hnone
      obtain hlt | ⟨rfl, hlt⟩ := hless
      · have hpairwise := hstates ▸ List.pairwise_lt_range (n := t.stateCount)
        obtain ⟨node, hnode⟩ := hbefore k (mem_front_of_lt hpairwise (hrange.2 hk) hlt)
        obtain ⟨edges, hedges, -⟩ := of_bind_eq_ok hnode
        obtain ⟨edge, -, hedge⟩ := exists_of_mem_left (forall₂_of_mapM_eq_ok hedges)
          (OrderedSet.mem_union.2 (.inl hb))
        exact hfails edge hedge
      · have hpairwise : (front ++ a :: back).Pairwise (· < ·) :=
          hterminals ▸ OrderedSet.pairwise_union .nil
        obtain ⟨edge, hedge⟩ := hfront b (mem_front_of_lt hpairwise (hmem.2 hb) hlt)
        exact hfails edge hedge
    · cases hrest
  · cases hrest

/-- Where there is no graph, a chain comes to a loop. -/
theorem exists_loop_of_error (h : t.graph terminals = .error e) : ∃ ls n loop,
      t.Chain e.terminal e.state ls n ∧ t.Chain e.terminal n loop n ∧ loop ≠ [] := by
  obtain ⟨-, -, -, hfollow, -⟩ := follow_of_error h
  exact exists_loop_of_follow hfollow

/-! ## Loops -/

/-- A loop can be gone through as often as one likes. -/
theorem Chain.exists_long (h : t.Chain a n loop n) (hne : loop ≠ []) (size : Nat) :
    ∃ ls, size ≤ ls.length ∧ t.Chain a n ls n ∧ ∀ l ∈ ls, l ∈ loop := by
  induction size with
  | zero => exact ⟨[], Nat.le_refl 0, .stop n, fun l hl => absurd hl List.not_mem_nil⟩
  | succ size ih =>
    obtain ⟨ls, hsize, hchain, hmem⟩ := ih
    have hpos : 0 < loop.length := List.length_pos_iff.2 hne
    refine ⟨loop ++ ls, by rw [List.length_append]; omega, h.trans hchain, fun l hl => ?_⟩
    rcases List.mem_append.1 hl with hl | hl
    · exact hl
    · exact hmem l hl

/-- A state that a chain through some of the nonterminals comes back to. -/
def OnLoop (t : ParseTable) (a : TerminalId) (loop : List NonterminalId) (n : StateId) : Prop :=
  ∃ ls, t.Chain a n ls n ∧ ls ≠ [] ∧ ∀ l ∈ ls, l ∈ loop

/-- The step of a loop that comes to a state. -/
theorem OnLoop.exists_before (h : t.OnLoop a loop n) :
    ∃ l m, l ∈ loop ∧ t.Chain a m [l] n ∧ t.OnLoop a loop m := by
  obtain ⟨ls, hchain, hne, hmem⟩ := h
  obtain ⟨front, l, rfl⟩ := (List.eq_nil_or_concat' ls).resolve_left hne
  obtain ⟨m, hfront, hlast⟩ := hchain.split
  refine ⟨l, m, hmem l (List.mem_append_right _ (List.mem_singleton_self l)), hlast,
    [l] ++ front, hlast.trans hfront, by simp, fun x hx => ?_⟩
  exact hmem x (List.mem_append.2 (List.mem_append.1 hx).symm)

/-- A loop followed back without end from a nonterminal on it. -/
theorem Chain.exists_backward (h : t.Chain a n loop n) (hl : l ∈ loop) :
    ∃ (states : Nat → StateId) (symbols : Nat → NonterminalId), symbols 0 = l ∧
      ∀ i, symbols i ∈ loop ∧ t.Chain a (states (i + 1)) [symbols i] (states i) := by
  obtain ⟨front, back, rfl⟩ := List.append_of_mem hl
  obtain ⟨m, hfront, hrest⟩ := h.split
  have hsplit : t.Chain a m ([l] ++ back) n := hrest
  obtain ⟨m', hstep, hback⟩ := hsplit.split
  have hloop : t.OnLoop a (front ++ l :: back) m := by
    refine ⟨([l] ++ back) ++ front, (hstep.trans hback).trans hfront, by simp, fun x hx => ?_⟩
    simp only [List.mem_append, List.mem_cons] at hx ⊢
    tauto
  have step : ∀ s : {n // t.OnLoop a (front ++ l :: back) n},
      ∃ s' : {n // t.OnLoop a (front ++ l :: back) n}, ∃ x ∈ front ++ l :: back,
        t.Chain a s'.1 [x] s.1 := by
    rintro ⟨n, hn⟩
    obtain ⟨x, m, hx, hm, hon⟩ := hn.exists_before
    exact ⟨⟨m, hon⟩, x, hx, hm⟩
  choose before symbol hsymbol hbefore using step
  refine ⟨fun i => i.casesOn m' fun i => (before^[i] ⟨m, hloop⟩).1,
    fun i => i.casesOn l fun i => symbol (before^[i] ⟨m, hloop⟩), rfl, fun i => ?_⟩
  cases i with
  | zero => exact ⟨hl, hstep⟩
  | succ i =>
    refine ⟨hsymbol _, ?_⟩
    dsimp only
    rw [Function.iterate_succ_apply']
    exact hbefore _

end ParseTable

end FluentGrammar
