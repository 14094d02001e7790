import FluentGrammar.Proofs.Automaton.Propagation
import FluentGrammar.Proofs.Automaton.Worklist

/-
  What the closure of a state on the way passes on. As long as the lookaheads of the state are some
  of those that it has in the end, so are those that it passes on (`Fits.delivery`), and they go to
  the kernels that exploring enters from there (`Fits.kernels_deliveries`).
-/

namespace FluentGrammar

namespace Analysis

variable {g : Grammar} {n m : Nat} {i j : Item} {x : Symbol} {t : TerminalId}
  {o : Option TerminalId} {s more : ItemSet} {st : ItemState}

/-! ## Item sets that belong to states -/

theorem Closes.mono {a : Analysis} (hle : ∀ i o, s.Has i o → more.Has i o) (h : a.Closes s i o) :
    a.Closes more i o := by
  induction h with
  | base h => exact .base (hle _ _ h)
  | enter _ hr hp ih => exact .enter ih hr hp
  | head _ hr hp ht ih => exact .head ih hr hp ht
  | pass _ hr hp hempty ih => exact .pass ih hr hp hempty

theorem Carries.pairwise_lookaheads {a : Analysis} {Q : TerminalId → Prop} {kernel : List Item}
    (hk : a.IsKernel kernel) (h : Carries Q kernel s) (i : Item) :
    (s.lookaheads i).Pairwise (· < ·) := by
  rw [ItemSet.lookaheads]
  cases hl : s.lookup i with
  | none => exact .nil
  | some ts => exact (h.entry _ ((h.ordered hk).lookup_eq_some_iff.1 hl)).1

/-- Item sets of one kernel with the same lookaheads are the same. -/
theorem Carries.eq_of_has_iff {a : Analysis} {Q : TerminalId → Prop} {kernel : List Item}
    (hk : a.IsKernel kernel) (h : Carries Q kernel s) (h' : Carries Q kernel more)
    (hiff : ∀ i t, s.Has i (some t) ↔ more.Has i (some t)) : s = more := by
  rw [(h.ordered hk).eq_map, (h'.ordered hk).eq_map, h.items, h'.items]
  refine List.map_congr_left fun i _ => congrArg (i, ·) ?_
  exact List.Pairwise.eq_of_mem_iff (h.pairwise_lookaheads hk i) (h'.pairwise_lookaheads hk i)
    fun t => hiff i t

/-- The items of a kernel, with lookaheads that a state with these items has. -/
structure Fits (g : Grammar) (s : ItemSet) : Prop where
  kernel : (ofGrammar g).IsKernel s.items
  entry : ∀ y ∈ s, y.2.Pairwise (· < ·) ∧
    ∀ t ∈ y.2, t < (ofGrammar g).grammar.terminals.length
  within : ∀ (m : Nat) st, (ofGrammar g).states[m]? = some st → st.kernel.items = s.items →
    ∀ i t, s.Has i (some t) → st.kernel.Has i (some t)

theorem Fits.carries (h : Fits g s) :
    Carries (· < (ofGrammar g).grammar.terminals.length) s.items s := ⟨rfl, h.entry⟩

theorem Fits.ordered (h : Fits g s) : s.Ordered := h.kernel.ascending

theorem Fits.has_addAll (h : Fits g s) (h' : Fits g more) :
    (s.addAll more).Has j o ↔ s.Has j o ∨ more.Has j o := by
  rw [h.ordered.has_addAll, h'.ordered.has_iff]

theorem Fits.addAll (h : Fits g s) (h' : Fits g more) (heq : s.items = more.items) :
    (s.addAll more).items = s.items ∧ Fits g (s.addAll more) := by
  have hcarries :
      Carries (· < (ofGrammar g).grammar.terminals.length) s.items (s.addAll more) := by
    rw [ItemSet.addAll]
    refine List.foldlRecOn more _ h.carries fun s' hs' y hy => ?_
    exact hs'.add h.kernel (heq ▸ List.mem_map_of_mem hy) (h'.entry y hy).2
  have hkernel : (ofGrammar g).IsKernel (s.addAll more).items := hcarries.items ▸ h.kernel
  refine ⟨hcarries.items, hkernel, hcarries.entry, fun m st hst hitems i t hi => ?_⟩
  rw [hcarries.items] at hitems
  rcases (h.has_addAll h').1 hi with hi | hi
  · exact h.within m st hst hitems i t hi
  · exact h'.within m st hst (hitems.trans heq) i t hi

/-- A set that grows by adding to it has gained a lookahead. -/
theorem Fits.exists_gain (h : Fits g s) (h' : Fits g more) (heq : s.items = more.items)
    (hgrew : s.addAll more ≠ s) :
    ∃ i t, (s.addAll more).Has i (some t) ∧ ¬s.Has i (some t) := by
  obtain ⟨hitems, hfits⟩ := h.addAll h' heq
  by_contra hnone
  push Not at hnone
  refine hgrew (Carries.eq_of_has_iff h.kernel (hitems ▸ hfits.carries) h.carries fun i t => ?_)
  exact ⟨hnone i t, fun ht => (h.has_addAll h').2 (.inl ht)⟩

/-- An item set that fits and a state with the same items. -/
theorem Fits.has_closure_iff (hg : g.Ranged) (h : Fits g s) :
    ((ofGrammar g).closure s).Has i o ↔ (ofGrammar g).Closes s i o :=
  Analysis.has_closure_iff (inBounds hg) h.ordered (h.carries.has_bound h.kernel)

theorem Fits.ordered_closure (hg : g.Ranged) (h : Fits g s) :
    ((ofGrammar g).closure s).Ordered :=
  Analysis.ordered_closure (inBounds hg) h.ordered (h.carries.has_bound h.kernel)

theorem Fits.items_closure (hg : g.Ranged) (h : Fits g s) :
    ((ofGrammar g).closure s).items = (ofGrammar g).closureItems s.items := by
  have hordered : ((ofGrammar g).closureItems s.items).Pairwise fun i j => i.before j = true :=
    Analysis.ordered_closure (inBounds hg) h.kernel.ordered_bare
      fun _ _ h => absurd h not_has_some_bare
  exact List.Pairwise.eq_of_mem_iff (h.ordered_closure hg) hordered fun i =>
    h.carries.mem_closure hg (bound_lt hg) h.kernel

/-! ## Deliveries -/

theorem receive_eq_addAll (a : Analysis) (closure : ItemSet) (x : Symbol) (s : ItemSet) :
    a.receive closure x s = s.addAll
      ((closure.filter fun y => a.next? y.1 == some x).map fun y => (y.1.advance, y.2)) := by
  rw [ItemSet.addAll, List.foldl_map, List.foldl_filter]
  rfl

theorem has_receive_bare {a : Analysis} {closure : ItemSet} {kernel : List Item}
    (hk : a.IsKernel kernel) : (a.receive closure x (bare kernel)).Has j (some t) ↔
      ∃ y ∈ closure, a.next? y.1 = some x ∧ y.1.advance = j ∧ t ∈ y.2 := by
  rw [receive_eq_addAll, hk.ordered_bare.has_addAll]
  constructor
  · rintro (h | ⟨z, hz, rfl, ht⟩)
    · exact absurd h not_has_some_bare
    · obtain ⟨y, hy, rfl⟩ := List.mem_map.1 hz
      obtain ⟨hy, hnext⟩ := List.mem_filter.1 hy
      exact ⟨y, hy, beq_iff_eq.1 hnext, rfl, ht t rfl⟩
  · rintro ⟨y, hy, hnext, rfl, ht⟩
    refine .inr ⟨(y.1.advance, y.2), List.mem_map.2 ⟨y, ?_, rfl⟩, rfl, by simpa using ht⟩
    exact List.mem_filter.2 ⟨hy, beq_iff_eq.2 hnext⟩

/-- What a state delivers along its transitions. -/
structure Delivery (g : Grammar) (s : ItemSet) (move : Symbol × ItemSet) : Prop where
  fits : Fits g move.2
  nonempty : move.2.items ≠ []
  has_iff : ∀ j t, move.2.Has j (some t) ↔ ∃ y ∈ (ofGrammar g).closure s,
    (ofGrammar g).next? y.1 = some move.1 ∧ y.1.advance = j ∧ t ∈ y.2

/-- The items past a symbol, with what is passed on to them. -/
theorem Fits.carries_receive (hg : g.Ranged) (h : Fits g s) (x : Symbol) :
    Carries (· < (ofGrammar g).grammar.terminals.length)
      ((ofGrammar g).movedPast x ((ofGrammar g).closureItems s.items))
      ((ofGrammar g).receive ((ofGrammar g).closure s) x
        (bare ((ofGrammar g).movedPast x ((ofGrammar g).closureItems s.items)))) := by
  refine ((carries_bare _).receive (h.kernel.movedPast hg x) (fun y hy hnext => ?_)
    (h.carries.closure_bound hg (bound_lt hg) h.kernel)).1
  rw [← h.items_closure hg]
  exact mem_movedPast.2 ⟨y.1, List.mem_map_of_mem hy, hnext, rfl⟩

theorem Fits.deliveries_eq (hg : g.Ranged) (h : Fits g s) :
    (ofGrammar g).deliveries ((ofGrammar g).closure s) =
      ((ofGrammar g).moves ((ofGrammar g).closureItems s.items)).map fun m =>
        (m.1, (ofGrammar g).receive ((ofGrammar g).closure s) m.1 (bare m.2)) := by
  rw [deliveries, h.items_closure hg]

/-- Deliveries are for the kernels that exploring enters. -/
theorem Fits.kernels_deliveries (hg : g.Ranged) (h : Fits g s) :
    Worklist.kernels ((ofGrammar g).deliveries ((ofGrammar g).closure s)) =
      (ofGrammar g).moves ((ofGrammar g).closureItems s.items) := by
  rw [h.deliveries_eq hg, Worklist.kernels, List.map_map]
  refine (List.map_congr_left fun m hm => ?_).trans (List.map_id _)
  obtain ⟨x, kernel⟩ := m
  obtain ⟨-, rfl⟩ := mem_moves.1 hm
  exact congrArg (x, ·) (h.carries_receive hg x).items

/-- What a state delivers belongs where its transitions lead. -/
theorem Fits.delivery (hg : g.Ranged) (h : Fits g s)
    (hst : (ofGrammar g).states[n]? = some st) (hitems : st.kernel.items = s.items)
    {move : Symbol × ItemSet}
    (hmove : move ∈ (ofGrammar g).deliveries ((ofGrammar g).closure s)) : Delivery g s move := by
  rw [h.deliveries_eq hg] at hmove
  obtain ⟨⟨x, kernel⟩, hm, rfl⟩ := List.mem_map.1 hmove
  obtain ⟨⟨i₀, hi₀, hx₀⟩, rfl⟩ := mem_moves.1 hm
  have hk := h.kernel.movedPast hg x
  have hcarries := h.carries_receive hg x
  have hmem : i₀.advance ∈ (ofGrammar g).movedPast x ((ofGrammar g).closureItems s.items) :=
    mem_movedPast.2 ⟨i₀, hi₀, hx₀, rfl⟩
  refine ⟨⟨?_, hcarries.entry, fun m st' hst' hitems' i t hi => ?_⟩, fun hnil => ?_,
    fun j t => has_receive_bare hk⟩
  · rwa [hcarries.items]
  · -- The closure of the state has what the closure delivered has, and its transition takes it
    -- along.
    rw [hcarries.items] at hitems'
    obtain ⟨y, hy, hnext, rfl, ht⟩ := (has_receive_bare hk).1 hi
    have hcloses := (h.has_closure_iff hg).1
      ((h.ordered_closure hg).has_some_iff.2 ⟨y.2, hy, ht⟩)
    have hm := madeOf_settle hg (bound_lt hg)
    have hknows : (ofGrammar g).Knows n y.1 (some t) := by
      refine ⟨st, hst, (hm.has_closure_iff hg (bound_lt hg) hst).2 (hcloses.mono fun i o ho => ?_)⟩
      cases o with
      | none =>
        rw [ItemSet.Has, hitems]
        exact ho
      | some u => exact h.within n st hst hitems i u ho
    have hmoves : (ofGrammar g).Moves n x m := by
      refine (hm.moves_iff hst (hm.getElem?_kernels hst).1).2 ?_
      rw [hitems, ← hitems']
      exact ⟨⟨i₀, hi₀, hx₀⟩, (hm.getElem?_kernels hst').1⟩
    refine (mem_lookaheads hst').1 (mem_lookaheads_of_knows hg hst' ?_
      (knows_of_moves hg hmoves hknows hnext))
    show y.1.advance ∈ st'.kernel.items
    rw [hitems', ← h.items_closure hg]
    exact mem_movedPast.2 ⟨y.1, List.mem_map_of_mem hy, hnext, rfl⟩
  · rw [hcarries.items] at hnil
    exact List.ne_nil_of_mem hmem hnil

end Analysis

end FluentGrammar
