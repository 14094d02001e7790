import FluentGrammar.Proofs.Automaton.Lookaheads

/-
  The laws of the automaton. What is known in a state (`Knows`) is closed under deriving and moves
  along the transitions; a state that a transition enters knows nothing but what was moved there
  and what that derives, and the first state nothing but what the start item derives. All that is
  said of the automaton elsewhere is derived from these laws.
-/

namespace FluentGrammar.Analysis

variable {g : Grammar} {Q : TerminalId → Prop} {n m k : Nat} {i : Item} {x : Symbol}
  {o : Option TerminalId} {t : TerminalId} {s : ItemState}

/-- The closure of a state has the item, and the terminal, if one is given, may follow it. -/
def Knows (a : Analysis) (n : Nat) (i : Item) (o : Option TerminalId) : Prop :=
  ∃ s, a.states[n]? = some s ∧ (a.closure s.kernel).Has i o

/-- A transition leads from one state to another. -/
def Moves (a : Analysis) (n : Nat) (x : Symbol) (m : Nat) : Prop :=
  ∃ s, a.states[n]? = some s ∧ (x, m) ∈ s.transitions

theorem knows_iff_of_state {a : Analysis} (hs : a.states[n]? = some s) :
    a.Knows n i o ↔ (a.closure s.kernel).Has i o := by
  simp [Knows, hs]

theorem moves_iff_of_state {a : Analysis} (hs : a.states[n]? = some s) :
    a.Moves n x m ↔ (x, m) ∈ s.transitions := by
  simp [Moves, hs]

theorem bound_lt (hg : g.Ranged) :
    (ofGrammar g).Bound fun t => t < (ofGrammar g).grammar.terminals.length where
  lt _ h := h
  finish := hg.endTerminal_lt
  head := (inBounds hg).head

/-! ## What the states are -/

/-- The kernels, rows and lookaheads that the states were made of. -/
structure MadeOf (a : Analysis) (Q : TerminalId → Prop) (kernels : List (List Item))
    (rows : List (List Transition)) (settled : Array ItemSet) : Prop where
  explored : a.Explored kernels rows
  settling : a.Settling Q kernels settled
  fixed : a.passAll rows settled = settled
  length : rows.length = kernels.length
  states : ∀ (n : Nat) s, a.states[n]? = some s ↔
    settled.toList[n]? = some s.kernel ∧ rows[n]? = some s.transitions

/-- The states are made of the kernels and rows explored and of the kernels settled. -/
theorem madeOf_settle (hg : g.Ranged) (hQ : (ofGrammar g).Bound Q) :
    (ofGrammar g).MadeOf Q (ofGrammar g).skeleton.1.toList (ofGrammar g).skeleton.2
      ((ofGrammar g).settle (ofGrammar g).skeleton.2
        ((ofGrammar g).capacity (ofGrammar g).skeleton.1 + 1)
        ((ofGrammar g).blank (ofGrammar g).skeleton.1)) := by
  obtain ⟨hex, hlength⟩ := skeleton_explored hg
  obtain ⟨hsettling, hfixed⟩ := settle_settling hg hQ hex
  refine ⟨hex, hsettling, hfixed, by rw [hlength, Array.length_toList], fun n s => ?_⟩
  have hstates : (ofGrammar g).states = List.zipWith (fun kernel transitions =>
      ItemState.mk kernel transitions)
      ((ofGrammar g).settle (ofGrammar g).skeleton.2
        ((ofGrammar g).capacity (ofGrammar g).skeleton.1 + 1)
        ((ofGrammar g).blank (ofGrammar g).skeleton.1)).toList (ofGrammar g).skeleton.2 := rfl
  rw [hstates, List.getElem?_zipWith_eq_some]
  constructor
  · rintro ⟨kernel, row, hk, hr, rfl⟩
    exact ⟨hk, hr⟩
  · rintro ⟨hk, hr⟩
    exact ⟨_, _, hk, hr, rfl⟩

theorem exists_madeOf (hg : g.Ranged) (hQ : (ofGrammar g).Bound Q) :
    ∃ kernels rows settled, (ofGrammar g).MadeOf Q kernels rows settled :=
  ⟨_, _, _, madeOf_settle hg hQ⟩

section

variable {kernels : List (List Item)} {rows : List (List Transition)} {settled : Array ItemSet}

/-- A state by the kernel that it was made of. -/
theorem MadeOf.state (h : (ofGrammar g).MadeOf Q kernels rows settled)
    (hs : (ofGrammar g).states[n]? = some s) : ∃ kernel, kernels[n]? = some kernel ∧
      (ofGrammar g).IsKernel kernel ∧ Carries Q kernel s.kernel ∧
      IsRow kernels ((ofGrammar g).moves ((ofGrammar g).closureItems kernel)) s.transitions := by
  obtain ⟨hk, hr⟩ := (h.states n s).1 hs
  obtain ⟨kernel, hkernel, hcarries⟩ := exists_of_forall₂ h.settling.carries hk
  obtain ⟨kernel', hkernel', hrow⟩ := h.explored.row n s.transitions hr
  obtain rfl := Option.some.inj (hkernel.symm.trans hkernel')
  exact ⟨kernel, hkernel, h.explored.kernel kernel (List.mem_of_getElem? hkernel), hcarries, hrow⟩

theorem MadeOf.has_closure_iff (hg : g.Ranged) (hQ : (ofGrammar g).Bound Q)
    (h : (ofGrammar g).MadeOf Q kernels rows settled)
    (hs : (ofGrammar g).states[n]? = some s) :
    ((ofGrammar g).closure s.kernel).Has i o ↔ (ofGrammar g).Closes s.kernel i o := by
  obtain ⟨kernel, -, hk, hcarries, -⟩ := h.state hs
  exact Analysis.has_closure_iff (inBounds hg) (hcarries.ordered hk)
    fun i t ht => hQ.lt t (hcarries.has_bound hk i t ht)

/-- The state that a number below the number of kernels stands for. -/
theorem MadeOf.exists_state (h : (ofGrammar g).MadeOf Q kernels rows settled)
    {kernel : List Item} (hk : kernels[n]? = some kernel) :
    ∃ s, (ofGrammar g).states[n]? = some s ∧ Carries Q kernel s.kernel := by
  have hlt : n < rows.length := h.length ▸ (List.getElem?_eq_some_iff.1 hk).1
  obtain ⟨s, hs, hcarries⟩ := exists_right_of_forall₂ h.settling.carries hk
  exact ⟨⟨s, rows[n]⟩, (h.states n _).2 ⟨hs, List.getElem?_eq_getElem hlt⟩, hcarries⟩

/-- A transition leads to the state whose kernel is what is moved past the symbol. -/
theorem MadeOf.moves_iff (h : (ofGrammar g).MadeOf Q kernels rows settled)
    (hs : (ofGrammar g).states[n]? = some s) {kernel : List Item}
    (hk : kernels[n]? = some kernel) : (ofGrammar g).Moves n x m ↔
      (∃ i ∈ (ofGrammar g).closureItems kernel, (ofGrammar g).next? i = some x) ∧
        kernels[m]? = some ((ofGrammar g).movedPast x ((ofGrammar g).closureItems kernel)) := by
  obtain ⟨kernel', hk', -, -, hrow⟩ := h.state hs
  obtain rfl := Option.some.inj (hk.symm.trans hk')
  rw [moves_iff_of_state hs]
  constructor
  · intro hmem
    obtain ⟨⟨y, target⟩, hmove, hxy, hget⟩ := exists_of_mem_right hrow hmem
    obtain rfl : x = y := hxy
    obtain ⟨hnext, rfl⟩ := mem_moves.1 hmove
    exact ⟨hnext, hget⟩
  · rintro ⟨hnext, hget⟩
    obtain ⟨⟨y, m'⟩, hmem, hxy, hget'⟩ := exists_of_mem_left hrow (mem_moves.2 ⟨hnext, rfl⟩)
    obtain rfl : y = x := hxy
    have hmm : m' = m := by
      obtain ⟨hlt, heq⟩ := List.getElem?_eq_some_iff.1 hget
      obtain ⟨hlt', heq'⟩ := List.getElem?_eq_some_iff.1 hget'
      exact (List.Nodup.getElem_inj_iff h.explored.nodup).1 (heq'.trans heq.symm)
    exact hmm ▸ hmem

end

/-! ## Laws -/

/-- What goes over to productions of the nonterminals that come next holds of a whole closure. -/
theorem closes_induction (hg : g.Ranged) {motive : Item → Prop} {s : ItemSet}
    (base : ∀ j, s.Has j none → motive j)
    (enter : ∀ j l after p q, motive j →
      (ofGrammar g).remaining j = .nonterminal l :: after →
      (ofGrammar g).grammar.productions[p]? = some q → q.lhs = l → motive ⟨p, 0⟩)
    (h : (ofGrammar g).Closes s i o) : motive i := by
  have derived {j : Item} {l after p} (hj : motive j)
      (hr : (ofGrammar g).remaining j = .nonterminal l :: after)
      (hp : p ∈ (ofGrammar g).byLhs.getD l []) : motive ⟨p, 0⟩ := by
    obtain ⟨q, hq, hl⟩ := (mem_byLhs_iff hg).1 hp
    exact enter j l after p q hj hr hq hl
  induction h with
  | base h => exact base _ (ItemSet.has_none_of_has h)
  | enter _ hr hp ih => exact derived ih hr hp
  | head _ hr hp _ ih => exact derived ih hr hp
  | pass _ hr hp _ ih => exact derived ih hr hp

theorem knows_none (h : (ofGrammar g).Knows n i o) : (ofGrammar g).Knows n i none := by
  obtain ⟨s, hs, hi⟩ := h
  exact ⟨s, hs, ItemSet.has_none_of_has hi⟩

/-- In the first state a whole sentence is to come, and the end of input follows. -/
theorem knows_start (hg : g.Ranged) :
    (ofGrammar g).Knows 0 (ofGrammar g).startItem (some g.endTerminal) := by
  obtain ⟨kernels, rows, settled, h⟩ := exists_madeOf hg (bound_lt hg)
  obtain ⟨s, hs, -⟩ := h.exists_state h.explored.first
  refine ⟨s, hs, (h.has_closure_iff hg (bound_lt hg) hs).2 (.base ?_)⟩
  exact h.settling.finish s.kernel ((h.states 0 s).1 hs).1

/-- The productions of a nonterminal that comes next are in the state. -/
theorem knows_enter (hg : g.Ranged) {l : NonterminalId} {after : List Symbol}
    {p : ProductionId} {q : Production} (h : (ofGrammar g).Knows n i none)
    (hr : (ofGrammar g).remaining i = .nonterminal l :: after)
    (hq : (ofGrammar g).grammar.productions[p]? = some q) (hl : q.lhs = l) :
    (ofGrammar g).Knows n ⟨p, 0⟩ none := by
  obtain ⟨kernels, rows, settled, hm⟩ := exists_madeOf hg (bound_lt hg)
  obtain ⟨s, hs, hi⟩ := h
  have hiff := fun i o => hm.has_closure_iff hg (bound_lt hg) hs (i := i) (o := o)
  exact ⟨s, hs, (hiff _ none).2
    (.enter ((hiff _ none).1 hi) hr ((mem_byLhs_iff hg).2 ⟨q, hq, hl⟩))⟩

/-- What derives from the symbols behind a nonterminal, or follows when that is nothing, may
    follow the productions of the nonterminal. -/
theorem knows_ahead (hg : g.Ranged) {l : NonterminalId} {after : List Symbol}
    {p : ProductionId} {q : Production} {v : List TerminalId}
    (h : (ofGrammar g).Knows n i (some t))
    (hr : (ofGrammar g).remaining i = .nonterminal l :: after)
    (hq : (ofGrammar g).grammar.productions[p]? = some q) (hl : q.lhs = l)
    (hv : g.Derives after v) : (ofGrammar g).Knows n ⟨p, 0⟩ (some (v.headD t)) := by
  obtain ⟨kernels, rows, settled, hm⟩ := exists_madeOf hg (bound_lt hg)
  obtain ⟨hfirst, hempty⟩ := first_of_derives hg hv
  have hp := (mem_byLhs_iff hg).2 ⟨q, hq, hl⟩
  obtain ⟨s, hs, hi⟩ := h
  have hiff := fun i o => hm.has_closure_iff hg (bound_lt hg) hs (i := i) (o := o)
  refine ⟨s, hs, (hiff _ _).2 ?_⟩
  cases v with
  | nil => exact .pass ((hiff _ _).1 hi) hr hp (hempty rfl)
  | cons u v =>
    exact .head ((hiff _ none).1 (ItemSet.has_none_of_has_some hi)) hr hp (hfirst u rfl)

/-- A state has a transition for every symbol that comes next, -/
theorem exists_moves (hg : g.Ranged) (h : (ofGrammar g).Knows n i none)
    (hx : (ofGrammar g).next? i = some x) : ∃ m, (ofGrammar g).Moves n x m := by
  obtain ⟨kernels, rows, settled, hm⟩ := exists_madeOf hg (bound_lt hg)
  obtain ⟨s, hs, hi⟩ := h
  obtain ⟨kernel, hkernel, hk, hcarries, hrow⟩ := hm.state hs
  have hmem := (hcarries.mem_closure hg (bound_lt hg) hk).1 hi
  obtain ⟨⟨y, m⟩, hmem', hxy, hget⟩ := exists_of_mem_left hrow (mem_moves.2 ⟨⟨i, hmem, hx⟩, rfl⟩)
  obtain rfl : y = x := hxy
  exact ⟨m, s, hs, hmem'⟩

/-- and no two. -/
theorem moves_unique (hg : g.Ranged) (h : (ofGrammar g).Moves n x m)
    (h' : (ofGrammar g).Moves n x k) : m = k := by
  obtain ⟨kernels, rows, settled, hm⟩ := exists_madeOf hg (bound_lt hg)
  obtain ⟨s, hs, -⟩ := id h
  obtain ⟨kernel, hkernel, -, -, -⟩ := hm.state hs
  obtain ⟨hlt, heq⟩ := List.getElem?_eq_some_iff.1 ((hm.moves_iff hs hkernel).1 h).2
  obtain ⟨hlt', heq'⟩ := List.getElem?_eq_some_iff.1 ((hm.moves_iff hs hkernel).1 h').2
  exact (List.Nodup.getElem_inj_iff hm.explored.nodup).1 (heq.trans heq'.symm)

theorem moves_lt (hg : g.Ranged) (h : (ofGrammar g).Moves n x m) :
    m < (ofGrammar g).states.length := by
  obtain ⟨kernels, rows, settled, hm⟩ := exists_madeOf hg (bound_lt hg)
  obtain ⟨s, hs, -⟩ := id h
  obtain ⟨kernel, hkernel, -, -, -⟩ := hm.state hs
  obtain ⟨s', hs', -⟩ := hm.exists_state ((hm.moves_iff hs hkernel).1 h).2
  exact (List.getElem?_eq_some_iff.1 hs').1

/-- A transition goes past a symbol that comes next in the state it leaves. -/
theorem exists_knows_of_moves (hg : g.Ranged) (h : (ofGrammar g).Moves n x m) :
    ∃ i, (ofGrammar g).Knows n i none ∧ (ofGrammar g).next? i = some x := by
  obtain ⟨kernels, rows, settled, hm⟩ := exists_madeOf hg (bound_lt hg)
  obtain ⟨s, hs, -⟩ := id h
  obtain ⟨kernel, hkernel, hk, hcarries, -⟩ := hm.state hs
  obtain ⟨⟨i, hi, hx⟩, -⟩ := (hm.moves_iff hs hkernel).1 h
  exact ⟨i, ⟨s, hs, (hcarries.mem_closure hg (bound_lt hg) hk).2 hi⟩, hx⟩

/-- The state that a transition enters knows the items moved past the symbol, and whatever may
    follow them. -/
theorem knows_of_moves (hg : g.Ranged) (hmove : (ofGrammar g).Moves n x m)
    (h : (ofGrammar g).Knows n i o) (hx : (ofGrammar g).next? i = some x) :
    (ofGrammar g).Knows m i.advance o := by
  obtain ⟨kernels, rows, settled, hm⟩ := exists_madeOf hg (bound_lt hg)
  obtain ⟨s, hs, hi⟩ := h
  obtain ⟨kernel, hkernel, hk, hcarries, -⟩ := hm.state hs
  have hget := ((hm.moves_iff hs hkernel).1 hmove).2
  obtain ⟨s', hs', hcarries'⟩ := hm.exists_state hget
  have hk' := hm.explored.kernel _ (List.mem_of_getElem? hget)
  have hordered' := hcarries'.ordered hk'
  refine ⟨s', hs', (hm.has_closure_iff hg (bound_lt hg) hs').2 (.base ?_)⟩
  cases o with
  | none =>
    have hmem := (hcarries.mem_closure hg (bound_lt hg) hk).1 hi
    rw [ItemSet.Has, hcarries'.items]
    exact mem_movedPast.2 ⟨i, hmem, hx, rfl⟩
  | some t =>
    have hbelow := hcarries.has_bound hk
    have hordered := ordered_closure (inBounds hg) (hcarries.ordered hk)
      fun i t ht => (bound_lt hg).lt t (hbelow i t ht)
    obtain ⟨ts, hmem, ht⟩ := hordered.has_some_iff.1 hi
    obtain ⟨s₀, hs₀, hmem₀⟩ := hmove
    obtain rfl := Option.some.inj (hs.symm.trans hs₀)
    have hadd := receive_eq_of_passAll_eq hm.fixed ((hm.states n s).1 hs).2 hmem₀
      ((hm.states n s).1 hs).1 ((hm.states m s').1 hs').1 _ hmem hx
    rw [← hadd]
    refine hordered'.has_add.2 (.inr ⟨rfl, fun u hu => ?_⟩)
    exact Option.some.inj hu ▸ ht

/-- What is known of all items of a state that a transition enters: it holds of the items moved
    there and goes over to what they derive. -/
theorem knows_induction_of_moves (hg : g.Ranged) {motive : Item → Prop}
    (hmove : (ofGrammar g).Moves n x m)
    (moved : ∀ j, (ofGrammar g).Knows n j none → (ofGrammar g).next? j = some x →
      motive j.advance)
    (enter : ∀ j l after p q, motive j →
      (ofGrammar g).remaining j = .nonterminal l :: after →
      (ofGrammar g).grammar.productions[p]? = some q → q.lhs = l → motive ⟨p, 0⟩)
    (h : (ofGrammar g).Knows m i none) : motive i := by
  obtain ⟨kernels, rows, settled, hm⟩ := exists_madeOf hg (bound_lt hg)
  obtain ⟨s', hs', hi⟩ := h
  obtain ⟨s, hs, -⟩ := id hmove
  obtain ⟨kernel, hkernel, hk, hcarries, -⟩ := hm.state hs
  have hget := ((hm.moves_iff hs hkernel).1 hmove).2
  obtain ⟨s'', hs'', hcarries'⟩ := hm.exists_state hget
  obtain rfl := Option.some.inj (hs'.symm.trans hs'')
  refine closes_induction hg (fun j hj => ?_) enter
    ((hm.has_closure_iff hg (bound_lt hg) hs').1 hi)
  rw [ItemSet.Has, hcarries'.items] at hj
  obtain ⟨j', hj', hx, rfl⟩ := mem_movedPast.1 hj
  exact moved j' ⟨s, hs, (hcarries.mem_closure hg (bound_lt hg) hk).2 hj'⟩ hx

/-- What is known of all items of the first state. -/
theorem knows_induction_start (hg : g.Ranged) {motive : Item → Prop}
    (start : motive (ofGrammar g).startItem)
    (enter : ∀ j l after p q, motive j →
      (ofGrammar g).remaining j = .nonterminal l :: after →
      (ofGrammar g).grammar.productions[p]? = some q → q.lhs = l → motive ⟨p, 0⟩)
    (h : (ofGrammar g).Knows 0 i none) : motive i := by
  obtain ⟨kernels, rows, settled, hm⟩ := exists_madeOf hg (bound_lt hg)
  obtain ⟨s, hs, hi⟩ := h
  obtain ⟨kernel, hkernel, -, hcarries, -⟩ := hm.state hs
  obtain rfl := Option.some.inj (hm.explored.first.symm.trans hkernel)
  refine closes_induction hg (fun j hj => ?_) enter
    ((hm.has_closure_iff hg (bound_lt hg) hs).1 hi)
  rw [ItemSet.Has, hcarries.items] at hj
  exact List.mem_singleton.1 hj ▸ start

/-- What may follow an item is as it should be. -/
theorem bound_of_knows (hg : g.Ranged) (hQ : (ofGrammar g).Bound Q)
    (h : (ofGrammar g).Knows n i (some t)) : Q t := by
  obtain ⟨kernels, rows, settled, hm⟩ := exists_madeOf hg hQ
  obtain ⟨s, hs, hi⟩ := h
  obtain ⟨kernel, -, hk, hcarries, -⟩ := hm.state hs
  exact ((hm.has_closure_iff hg hQ hs).1 hi).bound hQ (hcarries.has_bound hk) t rfl

end FluentGrammar.Analysis
