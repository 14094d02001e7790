import FluentGrammar.Proofs.Automaton.Heads

/-
  Where lookaheads come from. The end of input follows a whole sentence; what the symbols behind a
  nonterminal have at their front follows its productions, and so does what follows the item when
  those symbols may derive nothing; and transitions take along what follows an item (`Follows`).
  Passing lookaheads along until nothing grows adds nothing else, so this is all that follows an
  item of a state (`knows_iff_follows`).
-/

namespace FluentGrammar

/-- Adding to a set adds what it is told to add and nothing else. -/
theorem ItemSet.has_of_has_add {s : ItemSet} {i j : Item} {ts : List TerminalId} {t : TerminalId}
    (h : (s.add j ts).Has i (some t)) : s.Has i (some t) ∨ j = i ∧ t ∈ ts := by
  simp only [Has, lookaheads] at h ⊢
  induction s with
  | nil =>
    rw [add, List.lookup_cons] at h
    split at h
    · next hij => exact .inr ⟨(beq_iff_eq.1 hij).symm, h⟩
    · exact absurd h List.not_mem_nil
  | cons y s ih =>
    obtain ⟨k, us⟩ := y
    rw [add] at h
    rw [List.lookup_cons]
    split at h
    · next hjk =>
      subst hjk
      rw [List.lookup_cons] at h
      split at h
      · next hij =>
        rcases OrderedSet.mem_union.1 h with ht | ht
        · exact .inr ⟨(beq_iff_eq.1 hij).symm, ht⟩
        · exact .inl ht
      · exact .inl h
    · split at h
      · rw [List.lookup_cons] at h
        split at h
        · next hij => exact .inr ⟨(beq_iff_eq.1 hij).symm, h⟩
        · rw [List.lookup_cons] at h
          exact .inl h
      · rw [List.lookup_cons] at h
        split at h
        · exact .inl h
        · exact ih h

namespace Analysis

variable {g : Grammar} {n m : Nat} {i : Item} {x : Symbol} {t : TerminalId}

/-- The terminal may follow the item in the state, for one of these reasons. -/
inductive Follows (g : Grammar) : Nat → Item → TerminalId → Prop
  | finish : Follows g 0 (ofGrammar g).startItem g.endTerminal
  | head {n j l after p q t} : (ofGrammar g).Knows n j none →
      (ofGrammar g).remaining j = .nonterminal l :: after →
      (ofGrammar g).grammar.productions[p]? = some q → q.lhs = l → g.Heads t after →
      Follows g n ⟨p, 0⟩ t
  | pass {n j l after p q t} : Follows g n j t →
      (ofGrammar g).remaining j = .nonterminal l :: after →
      (ofGrammar g).grammar.productions[p]? = some q → q.lhs = l → g.Derives after [] →
      Follows g n ⟨p, 0⟩ t
  | move {n j x m t} : Follows g n j t → (ofGrammar g).next? j = some x →
      (ofGrammar g).Moves n x m → Follows g m j.advance t

theorem Follows.knows (hg : g.Ranged) (h : Follows g n i t) :
    (ofGrammar g).Knows n i (some t) := by
  induction h with
  | finish => exact knows_start hg
  | head hj hr hq hl ht => exact knows_head hg hj hr hq hl ht
  | pass _ hr hq hl hempty ih => exact knows_ahead hg ih hr hq hl hempty
  | move _ hx hmove ih => exact knows_of_moves hg hmove ih hx

/-- What follows items of a set for a reason follows the items of its closure for a reason. -/
theorem follows_of_closes (hg : g.Ranged) {s : ItemSet}
    (hs : ∀ i t, s.Has i (some t) → Follows g n i t)
    (hitems : ∀ i, (ofGrammar g).Closes s i none → (ofGrammar g).Knows n i none)
    (h : (ofGrammar g).Closes s i (some t)) : Follows g n i t := by
  generalize ho : some t = o at h
  induction h with
  | base h =>
    subst ho
    exact hs _ t h
  | enter => cases ho
  | head hj hr hp ht =>
    obtain rfl := Option.some.inj ho
    obtain ⟨q, hq, hl⟩ := (mem_byLhs_iff hg).1 hp
    exact .head (hitems _ hj) hr hq hl ((mem_first_iff hg (own_after hg hr)).1 ht)
  | pass _ hr hp hempty ih =>
    obtain rfl := Option.some.inj ho
    obtain ⟨q, hq, hl⟩ := (mem_byLhs_iff hg).1 hp
    exact .pass (ih rfl) hr hq hl ((nullable_iff hg (own_after hg hr)).1 hempty)

/-! ## Passing along -/

/-- The kernels on the way have lookaheads for a reason only. -/
def Sourced (g : Grammar) (settling : Array ItemSet) : Prop :=
  ∀ (n : Nat) s, settling.toList[n]? = some s → ∀ i t, s.Has i (some t) → Follows g n i t

theorem has_of_has_receive {a : Analysis} {closure s : ItemSet}
    (h : (a.receive closure x s).Has i (some t)) : s.Has i (some t) ∨
      ∃ y ∈ closure, a.next? y.1 = some x ∧ y.1.advance = i ∧ t ∈ y.2 := by
  unfold receive at h
  induction closure generalizing s with
  | nil => exact .inl h
  | cons y closure ih =>
    obtain ⟨j, us⟩ := y
    rw [List.foldl_cons] at h
    obtain h | ⟨z, hz, hnext⟩ := ih h
    · dsimp only at h
      split at h
      · next hnext =>
        rcases ItemSet.has_of_has_add h with h | ⟨hadvance, ht⟩
        · exact .inl h
        · exact .inr ⟨(j, us), List.mem_cons_self, beq_iff_eq.1 hnext, hadvance, ht⟩
      · exact .inl h
    · exact .inr ⟨z, List.mem_cons_of_mem _ hz, hnext⟩

/-- One transition, with what follows the items of the closure for a reason. -/
theorem Sourced.pass {settling : Array ItemSet} (h : Sourced g settling) {closure : ItemSet}
    (hclosure : ∀ y ∈ closure, ∀ t ∈ y.2, Follows g n y.1 t)
    (hmove : (ofGrammar g).Moves n x m) :
    Sourced g ((ofGrammar g).pass closure settling (x, m)) := by
  intro k s hs i t ht
  rw [toList_pass, List.getElem?_modify] at hs
  obtain ⟨s', hs', heq⟩ := Option.map_eq_some_iff.1 hs
  split at heq
  · next htarget =>
    subst heq htarget
    obtain hold | ⟨y, hy, hnext, rfl, hnew⟩ := has_of_has_receive ht
    · exact h _ s' hs' i t hold
    · exact .move (hclosure y hy t hnew) hnext hmove
  · subst heq
    exact h k s' hs' i t ht

section

variable {Q : TerminalId → Prop} {kernels : List (List Item)} {rows : List (List Transition)}
  {settled settling : Array ItemSet}

/-- All transitions of a row. -/
theorem Sourced.passRow (hg : g.Ranged) (hQ : (ofGrammar g).Bound Q)
    (hm : (ofGrammar g).MadeOf Q kernels rows settled)
    (hset : (ofGrammar g).Settling Q kernels settling) (h : Sourced g settling)
    {row : List Transition} (hrow : rows[n]? = some row) :
    Sourced g (row.foldl ((ofGrammar g).pass ((ofGrammar g).closure (settling.getD n [])))
      settling) := by
  obtain ⟨k, hk, -⟩ := hm.explored.row n row hrow
  have hkernel := hm.explored.kernel k (List.mem_of_getElem? hk)
  obtain ⟨state, hstate, hmade⟩ := hm.exists_state hk
  have htransitions : state.transitions = row :=
    Option.some.inj (((hm.states n state).1 hstate).2.symm.trans hrow)
  obtain ⟨s, hs, hcarries⟩ := exists_right_of_forall₂ hset.carries hk
  rw [getD_of_toList hs]
  have hbelow := fun i t ht => hQ.lt t (hcarries.has_bound hkernel i t ht)
  -- The items of the closure are those of the state.
  have hitems (i : Item) (hi : (ofGrammar g).Closes s i none) :
      (ofGrammar g).Knows n i none := by
    have hmem := (hcarries.mem_closure hg hQ hkernel).1
      ((has_closure_iff (inBounds hg) (hcarries.ordered hkernel) hbelow).2 hi)
    exact ⟨state, hstate, (hmade.mem_closure hg hQ hkernel).2 hmem⟩
  have hclosure : ∀ y ∈ (ofGrammar g).closure s, ∀ t ∈ y.2, Follows g n y.1 t := by
    intro y hy t ht
    have hordered := ordered_closure (inBounds hg) (hcarries.ordered hkernel) hbelow
    have hhas := (has_closure_iff (inBounds hg) (hcarries.ordered hkernel) hbelow).1
      (hordered.has_some_iff.2 ⟨y.2, hy, ht⟩)
    exact follows_of_closes hg (h n s hs) hitems hhas
  refine List.foldlRecOn row _ h fun settling' h' y hy => ?_
  exact h'.pass hclosure ⟨state, hstate, htransitions ▸ hy⟩

theorem Sourced.passAll (hg : g.Ranged) (hQ : (ofGrammar g).Bound Q)
    (hm : (ofGrammar g).MadeOf Q kernels rows settled)
    (hset : (ofGrammar g).Settling Q kernels settling) (h : Sourced g settling) :
    Sourced g ((ofGrammar g).passAll rows settling) := by
  have hboth : (ofGrammar g).Settling Q kernels ((ofGrammar g).passAll rows settling) ∧
      Sourced g ((ofGrammar g).passAll rows settling) := by
    refine List.foldlRecOn (motive := fun settling => (ofGrammar g).Settling Q kernels settling ∧
      Sourced g settling) rows.zipIdx _ ⟨hset, h⟩ fun settling' h' y hy => ?_
    have hrow := List.mk_mem_zipIdx_iff_getElem?.1 hy
    exact ⟨h'.1.passRow hg hQ hm.explored hrow, h'.2.passRow hg hQ hm h'.1 hrow⟩
  exact hboth.2

theorem Sourced.settle (hg : g.Ranged) (hQ : (ofGrammar g).Bound Q)
    (hm : (ofGrammar g).MadeOf Q kernels rows settled)
    (hset : (ofGrammar g).Settling Q kernels settling) (h : Sourced g settling) (fuel : Nat) :
    Sourced g ((ofGrammar g).settle rows fuel settling) := by
  induction fuel generalizing settling with
  | zero => exact h
  | succ fuel ih =>
    rw [Analysis.settle]
    split
    · exact h
    · exact ih (hset.passAll hg hQ hm.explored) (h.passAll hg hQ hm hset)

end

theorem sourced_blank {kernels : Array (List Item)}
    (hfirst : kernels.toList[0]? = some [(ofGrammar g).startItem]) :
    Sourced g ((ofGrammar g).blank kernels) := by
  obtain ⟨others, hothers⟩ := exists_others hfirst
  intro n s hs i t ht
  rw [toList_blank hothers] at hs
  cases n with
  | zero =>
    obtain rfl := Option.some.inj hs
    simp only [ItemSet.Has, ItemSet.lookaheads, List.lookup_cons] at ht
    split at ht
    · next hi =>
      obtain rfl := beq_iff_eq.1 hi
      obtain rfl := List.mem_singleton.1 ht
      exact .finish
    · exact absurd ht List.not_mem_nil
  | succ n =>
    rw [List.getElem?_cons_succ, List.getElem?_map] at hs
    obtain ⟨kernel, -, rfl⟩ := Option.map_eq_some_iff.1 hs
    exact absurd ht not_has_some_bare

/-- What may follow an item of a state does so for a reason. -/
theorem follows_of_knows (hg : g.Ranged) (h : (ofGrammar g).Knows n i (some t)) :
    Follows g n i t := by
  have hm := madeOf_settle hg (bound_lt hg)
  obtain ⟨s, hs, hi⟩ := h
  have hsourced := (sourced_blank hm.explored.first).settle hg (bound_lt hg) hm
    (settling_blank (bound_lt hg) hm.explored.first)
    ((ofGrammar g).capacity (ofGrammar g).skeleton.1 + 1)
  have hiff := fun i o => hm.has_closure_iff hg (bound_lt hg) hs (i := i) (o := o)
  exact follows_of_closes hg (hsourced n s.kernel ((hm.states n s).1 hs).1)
    (fun i hc => ⟨s, hs, (hiff i none).2 hc⟩) ((hiff i _).1 hi)

theorem knows_iff_follows (hg : g.Ranged) :
    (ofGrammar g).Knows n i (some t) ↔ Follows g n i t :=
  ⟨follows_of_knows hg, fun h => h.knows hg⟩

end Analysis

end FluentGrammar
