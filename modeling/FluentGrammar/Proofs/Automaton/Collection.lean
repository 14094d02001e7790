import FluentGrammar.Proofs.Automaton.Numbering
import FluentGrammar.Proofs.Automaton.Prefixes

/-
  The states without lookaheads are the collection of the augmented grammar: the kernels that
  symbols lead to from the start item on, each of them once, with the transitions that lead there
  (`states_isCollection`). They are numbered breadth first: the targets of the transitions, state
  by state and in the order of symbols, come up for the first time in the order of their numbers.
-/

namespace FluentGrammar

namespace Grammar

/-! ## Kernels that symbols lead to -/

/-- The items that a set of items stands for: its own, and the productions of all nonterminals that
    come next. -/
inductive Closure (g : Grammar) (K : Set Item) : Item → Prop
  | base {i} : i ∈ K → Closure g K i
  | enter {i l after p q} : Closure g K i →
      (Analysis.ofGrammar g).remaining i = .nonterminal l :: after →
      g.augmented.productions[p]? = some q → q.lhs = l → Closure g K ⟨p, 0⟩

/-- The items that are moved past a symbol. -/
def goto (g : Grammar) (K : Set Item) (x : Symbol) : Set Item :=
  {j | ∃ i, Closure g K i ∧ (Analysis.ofGrammar g).next? i = some x ∧ i.advance = j}

/-- The kernels that symbols lead to, from the item for a whole sentence on. -/
inductive Kernel (g : Grammar) : Set Item → Prop
  | start : Kernel g {(Analysis.ofGrammar g).startItem}
  | goto {K} (x : Symbol) : Kernel g K → (g.goto K x).Nonempty → Kernel g (g.goto K x)

end Grammar

/-- The items that a state is entered with. -/
def ItemState.core (s : ItemState) : Set Item := {i | i ∈ s.kernel.items}

/-- The targets of all transitions, state by state. -/
def targets (states : List ItemState) : List Nat := (states.flatMap (·.transitions)).map (·.2)

/-- The states stand for the kernels that symbols lead to, numbered breadth first. -/
structure IsCollection (g : Grammar) (states : List ItemState) : Prop where
  /-- Each kernel is that of exactly one state. -/
  kernel : ∀ K, g.Kernel K ↔ ∃! n : Nat, ∃ s, states[n]? = some s ∧ s.core = K
  first : ∃ s, states[0]? = some s ∧ s.core = {(Analysis.ofGrammar g).startItem}
  /-- The transitions of a state lead wherever symbols lead. -/
  goto : ∀ (n : Nat) s, states[n]? = some s → ∀ x m, (x, m) ∈ s.transitions ↔
    (g.goto s.core x).Nonempty ∧ ∃ s', states[m]? = some s' ∧ s'.core = g.goto s.core x
  /-- They stand in the order of symbols, -/
  ascending : ∀ s ∈ states, s.transitions.Pairwise fun t u => t.1.Before u.1
  /-- and states are numbered in the order in which they lead there. -/
  numbered : (0 :: targets states).eraseDups = List.range states.length

namespace Analysis

variable {a : Analysis} {g : Grammar} {i j : Item} {x : Symbol} {n m : Nat} {s s' : ItemState}

/-! ## The items of states -/

theorem closes_none_iff (hg : g.Ranged) {set : ItemSet} :
    (ofGrammar g).Closes set i none ↔ g.Closure {j | j ∈ set.items} i := by
  constructor
  · exact closes_induction hg (motive := g.Closure {j | j ∈ set.items}) (fun _ hj => .base hj)
      fun _ _ _ _ _ hj hr hq hl => .enter hj hr hq hl
  · intro h
    induction h with
    | base hi => exact .base hi
    | enter _ hr hq hl ih => exact .enter ih hr ((mem_byLhs_iff hg).2 ⟨_, hq, hl⟩)

theorem IsKernel.mem_closureItems_iff {kernel : List Item} (hg : g.Ranged)
    (h : (ofGrammar g).IsKernel kernel) :
    i ∈ (ofGrammar g).closureItems kernel ↔ g.Closure {j | j ∈ kernel} i := by
  rw [h.mem_closureItems hg, closes_none_iff hg, items_bare]

/-- The items of a closure moved past a symbol are those that the symbol leads to. -/
theorem IsKernel.setOf_movedPast {kernel : List Item} (hg : g.Ranged)
    (h : (ofGrammar g).IsKernel kernel) (x : Symbol) :
    {j | j ∈ (ofGrammar g).movedPast x ((ofGrammar g).closureItems kernel)} =
      g.goto {j | j ∈ kernel} x := by
  ext j
  show j ∈ (ofGrammar g).movedPast x ((ofGrammar g).closureItems kernel) ↔ _
  simp only [mem_movedPast, h.mem_closureItems_iff hg]
  rfl

theorem IsKernel.eq_of_setOf_eq {kernel kernel' : List Item} (h : a.IsKernel kernel)
    (h' : a.IsKernel kernel') (heq : {j | j ∈ kernel} = {j | j ∈ kernel'}) : kernel = kernel' :=
  List.Pairwise.eq_of_mem_iff h.ascending h'.ascending fun j => Set.ext_iff.1 heq j

section

variable {Q : TerminalId → Prop} {kernels : List (List Item)} {rows : List (List Transition)}
  {settled : Array ItemSet}

/-- The items of a state are the kernel that it was made of. -/
theorem MadeOf.getElem?_kernels (h : (ofGrammar g).MadeOf Q kernels rows settled)
    (hs : (ofGrammar g).states[n]? = some s) :
    kernels[n]? = some s.kernel.items ∧ (ofGrammar g).IsKernel s.kernel.items := by
  obtain ⟨kernel, hkernel, hk, hcarries, -⟩ := h.state hs
  obtain rfl := hcarries.items
  exact ⟨hkernel, hk⟩

end

/-- The items of the closure of a state are those that its own items stand for. -/
theorem knows_none_iff (hg : g.Ranged) (hs : (ofGrammar g).states[n]? = some s) :
    (ofGrammar g).Knows n i none ↔ g.Closure s.core i := by
  have hm := madeOf_settle hg (bound_lt hg)
  rw [knows_iff_of_state hs, hm.has_closure_iff hg (bound_lt hg) hs]
  exact closes_none_iff hg

/-- States with the same items are the same. -/
theorem eq_of_core_eq (hg : g.Ranged) (hs : (ofGrammar g).states[n]? = some s)
    (hs' : (ofGrammar g).states[m]? = some s') (h : s.core = s'.core) : n = m := by
  have hm := madeOf_settle hg (bound_lt hg)
  obtain ⟨hn, hk⟩ := hm.getElem?_kernels hs
  obtain ⟨hn', hk'⟩ := hm.getElem?_kernels hs'
  rw [← hk.eq_of_setOf_eq hk' h] at hn'
  obtain ⟨hlt, heq⟩ := List.getElem?_eq_some_iff.1 hn
  obtain ⟨hlt', heq'⟩ := List.getElem?_eq_some_iff.1 hn'
  exact (List.Nodup.getElem_inj_iff hm.explored.nodup).1 (heq.trans heq'.symm)

/-- A transition leads to the state of the items that its symbol leads to. -/
theorem moves_iff_goto (hg : g.Ranged) (hs : (ofGrammar g).states[n]? = some s) :
    (ofGrammar g).Moves n x m ↔ (g.goto s.core x).Nonempty ∧
      ∃ s', (ofGrammar g).states[m]? = some s' ∧ s'.core = g.goto s.core x := by
  have hm := madeOf_settle hg (bound_lt hg)
  obtain ⟨hn, hk⟩ := hm.getElem?_kernels hs
  have hgoto := hk.setOf_movedPast hg x
  have hnonempty : (g.goto s.core x).Nonempty ↔
      ∃ i ∈ (ofGrammar g).closureItems s.kernel.items, (ofGrammar g).next? i = some x := by
    constructor
    · rintro ⟨j, i, hi, hx, -⟩
      exact ⟨i, (hk.mem_closureItems_iff hg).2 hi, hx⟩
    · rintro ⟨i, hi, hx⟩
      exact ⟨i.advance, i, (hk.mem_closureItems_iff hg).1 hi, hx, rfl⟩
  rw [hm.moves_iff hs hn, hnonempty]
  refine and_congr_right fun _ => ⟨fun hget => ?_, ?_⟩
  · obtain ⟨s', hs', hcarries⟩ := hm.exists_state hget
    refine ⟨s', hs', ?_⟩
    rw [ItemState.core, hcarries.items, hgoto]
    rfl
  · rintro ⟨s', hs', hcore⟩
    obtain ⟨hn', hk'⟩ := hm.getElem?_kernels hs'
    rw [hn', hk'.eq_of_setOf_eq (hk.movedPast hg x) (hcore.trans hgoto.symm)]

/-! ## The collection -/

theorem exists_first_state (hg : g.Ranged) :
    ∃ s, (ofGrammar g).states[0]? = some s ∧ s.core = {(ofGrammar g).startItem} := by
  have hm := madeOf_settle hg (bound_lt hg)
  obtain ⟨s, hs, hcarries⟩ := hm.exists_state hm.explored.first
  refine ⟨s, hs, ?_⟩
  rw [ItemState.core, hcarries.items]
  exact Set.ext fun i => List.mem_singleton

/-- The last state of a path stands for a kernel that symbols lead to. -/
theorem Path.kernel (hg : g.Ranged) {stack : List Nat} {α : List Symbol}
    (hpath : (ofGrammar g).Path (n :: stack) α) (hs : (ofGrammar g).states[n]? = some s) :
    g.Kernel s.core := by
  generalize hstates : n :: stack = states at hpath
  induction hpath generalizing n stack s with
  | start =>
    obtain ⟨rfl, -⟩ := List.cons.inj hstates
    obtain ⟨s', hs', hcore⟩ := exists_first_state hg
    obtain rfl := Option.some.inj (hs.symm.trans hs')
    exact hcore ▸ .start
  | step _ hmove ih =>
    obtain ⟨rfl, -⟩ := List.cons.inj hstates
    obtain ⟨s₀, hs₀, -⟩ := id hmove
    obtain ⟨hnonempty, s', hs', hcore⟩ := (moves_iff_goto hg hs₀).1 hmove
    obtain rfl := Option.some.inj (hs.symm.trans hs')
    exact hcore ▸ .goto _ (ih hs₀ rfl) hnonempty

theorem kernel_iff (hg : g.Ranged) {K : Set Item} :
    g.Kernel K ↔ ∃ (n : Nat) (s : _), (ofGrammar g).states[n]? = some s ∧ s.core = K := by
  constructor
  · intro h
    induction h with
    | start =>
      obtain ⟨s, hs, hcore⟩ := exists_first_state hg
      exact ⟨0, s, hs, hcore⟩
    | goto x _ hnonempty ih =>
      obtain ⟨n, s, hs, rfl⟩ := ih
      obtain ⟨-, i, hi, hx, -⟩ := id hnonempty
      obtain ⟨m, hmove⟩ := exists_moves hg ((knows_none_iff hg hs).2 hi) hx
      obtain ⟨-, s', hs', hcore⟩ := (moves_iff_goto hg hs).1 hmove
      exact ⟨m, s', hs', hcore⟩
  · rintro ⟨n, s, hs, rfl⟩
    obtain ⟨stack, α, hpath⟩ := exists_path hg (List.getElem?_eq_some_iff.1 hs).1
    exact hpath.kernel hg hs

theorem length_states (hg : g.Ranged) :
    (ofGrammar g).states.length = (ofGrammar g).skeleton.1.toList.length := by
  have hm := madeOf_settle hg (bound_lt hg)
  refine Nat.le_antisymm (Nat.le_of_not_lt fun hlt => ?_) (Nat.le_of_not_lt fun hlt => ?_)
  · have hn := (hm.getElem?_kernels (List.getElem?_eq_getElem hlt)).1
    exact Nat.lt_irrefl _ (List.getElem?_eq_some_iff.1 hn).1
  · obtain ⟨s, hs, -⟩ := hm.exists_state (List.getElem?_eq_getElem hlt)
    exact Nat.lt_irrefl _ (List.getElem?_eq_some_iff.1 hs).1

theorem map_transitions_states (hg : g.Ranged) :
    (ofGrammar g).states.map ItemState.transitions = (ofGrammar g).skeleton.2 := by
  have hm := madeOf_settle hg (bound_lt hg)
  refine List.ext_getElem? fun n => ?_
  rw [List.getElem?_map]
  cases hs : (ofGrammar g).states[n]? with
  | some s => exact ((hm.states n s).1 hs).2.symm
  | none =>
    rw [List.getElem?_eq_none_iff, length_states hg, ← hm.length] at hs
    exact (List.getElem?_eq_none hs).symm

/-- The states are the collection of the augmented grammar. -/
theorem states_isCollection (hg : g.Ranged) : IsCollection g (ofGrammar g).states where
  kernel K := by
    rw [kernel_iff hg]
    constructor
    · rintro ⟨n, s, hs, hcore⟩
      refine ⟨n, ⟨s, hs, hcore⟩, ?_⟩
      rintro m ⟨s', hs', hcore'⟩
      exact eq_of_core_eq hg hs' hs (hcore'.trans hcore.symm)
    · rintro ⟨n, ⟨s, hs, hcore⟩, -⟩
      exact ⟨n, s, hs, hcore⟩
  first := exists_first_state hg
  goto n s hs x m := by
    rw [← moves_iff_goto hg hs, moves_iff_of_state hs]
  ascending s hs := by
    obtain ⟨n, hs⟩ := List.mem_iff_getElem?.1 hs
    obtain ⟨kernel, -, -, -, hrow⟩ := (madeOf_settle hg (bound_lt hg)).state hs
    exact hrow.pairwise (pairwise_moves _ _)
  numbered := by
    have htargets : targets (ofGrammar g).states =
        (ofGrammar g).skeleton.2.flatten.map (·.2) := by
      rw [targets, List.flatMap, map_transitions_states hg]
    rw [htargets, length_states hg]
    exact (skeleton_numbered (ofGrammar g)).order

end Analysis

end FluentGrammar
