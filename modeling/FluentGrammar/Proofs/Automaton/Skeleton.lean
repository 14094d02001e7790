import FluentGrammar.Automaton.States
import FluentGrammar.Proofs.Automaton.Augmented
import Mathlib.Data.Finset.Powerset
import Mathlib.Data.List.Sort

/-
  The states and transitions without lookaheads. Exploring ends when every kernel has a row,
  because kernels are ascending lists of items that occur and are all different, and there are no
  more of those than sets of items (`skeleton_explored`). Every row has a transition for every
  symbol that comes next, and it leads to the kernel of the items moved past the symbol.
-/

namespace FluentGrammar.Analysis

variable {a : Analysis} {g : Grammar} {i : Item} {x : Symbol}

/-! ## Kernels -/

instance : Std.Antisymm fun i j : Item => i.before j = true :=
  ⟨fun _ _ h h' => absurd rfl (Item.ne_of_before (Item.before_trans h h'))⟩

instance : Std.Irrefl fun i j : Item => i.before j = true :=
  ⟨fun _ h => Item.ne_of_before h rfl⟩

/-- The item is of a production, with a position inside it or behind it. -/
def Occurs (a : Analysis) (i : Item) : Prop :=
  ∃ q, a.grammar.productions[i.production]? = some q ∧ i.dot ≤ q.rhs.length

/-- An ascending list of items that occur. -/
structure IsKernel (a : Analysis) (kernel : List Item) : Prop where
  ascending : kernel.Pairwise fun i j => i.before j = true
  occurs : ∀ i ∈ kernel, a.Occurs i

/-- The items of a kernel without lookaheads. -/
def bare (kernel : List Item) : ItemSet := kernel.map fun i => (i, [])

@[simp] theorem items_bare (kernel : List Item) : (bare kernel).items = kernel := by
  simp [bare, ItemSet.items, Function.comp_def]

theorem not_has_some_bare {kernel : List Item} {t : TerminalId} :
    ¬(bare kernel).Has i (some t) := by
  have hnil : ∀ us, (bare kernel).lookup i = some us → us = [] := by
    intro us h
    rw [bare] at h
    induction kernel with
    | nil => cases h
    | cons j kernel ih =>
      rw [List.map_cons, List.lookup_cons] at h
      split at h
      · exact (Option.some.inj h).symm
      · exact ih h
  intro h
  simp only [ItemSet.Has, ItemSet.lookaheads] at h
  cases hl : (bare kernel).lookup i with
  | none => rw [hl] at h; exact absurd h List.not_mem_nil
  | some us =>
    rw [hl, hnil us hl] at h
    exact absurd h List.not_mem_nil

theorem IsKernel.ordered_bare {kernel : List Item} (h : a.IsKernel kernel) :
    (bare kernel).Ordered := by
  rw [ItemSet.Ordered, items_bare]
  exact h.ascending

/-- The closure of a kernel has the items that it has to have. -/
theorem IsKernel.mem_closureItems {kernel : List Item} (hg : g.Ranged)
    (h : (ofGrammar g).IsKernel kernel) :
    i ∈ (ofGrammar g).closureItems kernel ↔ (ofGrammar g).Closes (bare kernel) i none :=
  has_closure_iff (o := none) (inBounds hg) h.ordered_bare
    fun _ _ h => absurd h not_has_some_bare

theorem Occurs.advance (h : (ofGrammar g).next? i = some x) : (ofGrammar g).Occurs i.advance := by
  obtain ⟨rest, hr⟩ := next?_eq_some_iff.1 h
  obtain ⟨q, hq⟩ := exists_of_remaining_ne_nil (i := i) (by rw [hr]; simp)
  rw [remaining_eq hq] at hr
  refine ⟨q, hq, ?_⟩
  have := congrArg List.length hr
  rw [List.length_drop, List.length_cons] at this
  show i.dot + 1 ≤ q.rhs.length
  omega

/-- The items moved past a symbol, from a list of items. -/
def movedPast (a : Analysis) (x : Symbol) (items : List Item) : List Item :=
  (items.filter fun i => a.next? i == some x).map Item.advance

theorem mem_movedPast {items : List Item} {j : Item} :
    j ∈ a.movedPast x items ↔ ∃ i ∈ items, a.next? i = some x ∧ i.advance = j := by
  simp [movedPast, and_assoc]

theorem IsKernel.movedPast {kernel : List Item} (hg : g.Ranged)
    (h : (ofGrammar g).IsKernel kernel) (x : Symbol) :
    (ofGrammar g).IsKernel ((ofGrammar g).movedPast x ((ofGrammar g).closureItems kernel)) := by
  constructor
  · have hordered : ((ofGrammar g).closureItems kernel).Pairwise fun i j => i.before j = true :=
      ordered_closure (inBounds hg) h.ordered_bare fun _ _ h => absurd h not_has_some_bare
    exact List.Pairwise.map _ (fun i j h => Item.before_advance h) (hordered.filter _)
  · intro j hj
    obtain ⟨i, -, hi, rfl⟩ := mem_movedPast.1 hj
    exact .advance hi

/-! ## Counting kernels -/

/-- All items of all productions. -/
def allItems (a : Analysis) : List Item :=
  a.grammar.productions.zipIdx.flatMap fun (q, p) =>
    (List.range (q.rhs.length + 1)).map fun d => ⟨p, d⟩

theorem length_allItems (a : Analysis) : a.allItems.length = a.itemCount := by
  have flat (qs : List Production) (k : Nat) :
      ((qs.zipIdx k).flatMap fun (q, p) =>
        (List.range (q.rhs.length + 1)).map fun d => (⟨p, d⟩ : Item)).length =
          (qs.flatMap (·.rhs)).length + qs.length := by
    induction qs generalizing k with
    | nil => rfl
    | cons q qs ih =>
      simp only [List.zipIdx_cons, List.flatMap_cons, List.length_append, List.length_map,
        List.length_range, List.length_cons, ih]
      omega
  exact flat a.grammar.productions 0

theorem Occurs.mem_allItems (h : a.Occurs i) : i ∈ a.allItems := by
  obtain ⟨q, hq, hd⟩ := h
  refine List.mem_flatMap.2 ⟨(q, i.production), List.mk_mem_zipIdx_iff_getElem?.2 hq, ?_⟩
  exact List.mem_map.2 ⟨i.dot, List.mem_range.2 (Nat.lt_succ_of_le hd), rfl⟩

theorem IsKernel.length_le {kernel : List Item} (h : a.IsKernel kernel) :
    kernel.length ≤ a.itemCount := by
  have hnodup : kernel.Nodup := h.ascending.imp fun hij => Item.ne_of_before hij
  rw [← length_allItems]
  exact (hnodup.subperm fun i hi => (h.occurs i hi).mem_allItems).length_le

/-- There are no more different kernels than sets of items. -/
theorem length_le_of_isKernel {kernels : List (List Item)} (hn : kernels.Nodup)
    (hk : ∀ kernel ∈ kernels, a.IsKernel kernel) : kernels.length ≤ Nat.pow 2 a.itemCount := by
  have hinj : ∀ k ∈ kernels, ∀ k' ∈ kernels, k.toFinset = k'.toFinset → k = k' := by
    intro k h k' h' heq
    refine List.Pairwise.eq_of_mem_iff (hk k h).ascending (hk k' h').ascending fun i => ?_
    rw [← List.mem_toFinset, heq, List.mem_toFinset]
  have hnodup : (kernels.map List.toFinset).Nodup := hn.map_on hinj
  have hsub : (kernels.map List.toFinset).toFinset ⊆ a.allItems.toFinset.powerset := by
    intro s hs
    obtain ⟨k, h, rfl⟩ := List.mem_map.1 (List.mem_toFinset.1 hs)
    refine Finset.mem_powerset.2 fun i hi => ?_
    exact List.mem_toFinset.2 ((hk k h).occurs i (List.mem_toFinset.1 hi)).mem_allItems
  calc kernels.length = (kernels.map List.toFinset).toFinset.card := by
        rw [List.toFinset_card_of_nodup hnodup, List.length_map]
    _ ≤ a.allItems.toFinset.powerset.card := Finset.card_le_card hsub
    _ = 2 ^ a.allItems.toFinset.card := Finset.card_powerset _
    _ ≤ 2 ^ a.itemCount := by
        rw [← length_allItems]
        exact Nat.pow_le_pow_right (by decide) (List.toFinset_card_le _)

/-! ## Rows -/

theorem mem_insertSymbol {y : Symbol} {xs : List Symbol} :
    y ∈ insertSymbol x xs ↔ y = x ∨ y ∈ xs := by
  induction xs with
  | nil => simp [insertSymbol]
  | cons z xs ih =>
    rw [insertSymbol]
    split
    · next h => simp [h]
    · split
      · simp
      · rw [List.mem_cons, ih, List.mem_cons]
        exact or_left_comm

theorem mem_nextSymbols {items : List Item} :
    x ∈ a.nextSymbols items ↔ ∃ i ∈ items, a.next? i = some x := by
  have fold (ys : List Symbol) : x ∈ ys.foldr insertSymbol [] ↔ x ∈ ys := by
    induction ys with
    | nil => rfl
    | cons y ys ih => rw [List.foldr_cons, mem_insertSymbol, ih, List.mem_cons]
  rw [nextSymbols, fold, List.mem_filterMap]

theorem mem_moves {items kernel : List Item} :
    (x, kernel) ∈ a.moves items ↔
      (∃ i ∈ items, a.next? i = some x) ∧ kernel = a.movedPast x items := by
  rw [moves, List.mem_map, ← mem_nextSymbols]
  constructor
  · rintro ⟨y, hy, heq⟩
    obtain ⟨rfl, rfl⟩ := Prod.mk.inj heq
    exact ⟨hy, rfl⟩
  · rintro ⟨hx, rfl⟩
    exact ⟨x, hx, rfl⟩

/-- The row has a transition for every move, to the number of its kernel. -/
def IsRow (kernels : List (List Item)) (moves : List (Symbol × List Item))
    (row : List Transition) : Prop :=
  List.Forall₂ (fun m t => t.1 = m.1 ∧ kernels[t.2]? = some m.2) moves row

theorem IsRow.mono {kernels kernels' : List (List Item)} {moves : List (Symbol × List Item)}
    {row : List Transition} (hk : kernels <+: kernels') (h : IsRow kernels moves row) :
    IsRow kernels' moves row :=
  List.Forall₂.imp (fun _ _ hmt => ⟨hmt.1, getElem?_grown hk hmt.2⟩) h

/-- Entering kernels adds those that are new to the end. -/
theorem enter_isRow (moves : List (Symbol × List Item)) (kernels : Array (List Item)) :
    kernels.toList <+: (enter moves kernels).2.toList ∧
      IsRow (enter moves kernels).2.toList moves (enter moves kernels).1 ∧
      (kernels.toList.Nodup → (enter moves kernels).2.toList.Nodup) ∧
      ∀ k ∈ (enter moves kernels).2.toList, k ∈ kernels.toList ∨ ∃ m ∈ moves, m.2 = k := by
  induction moves generalizing kernels with
  | nil => exact ⟨List.prefix_rfl, .nil, fun h => h, fun k hk => .inl hk⟩
  | cons m moves ih =>
    obtain ⟨y, kernel⟩ := m
    rw [enter]
    split
    · next target hfind =>
      obtain ⟨hgrow, hrow, hnodup, hmem⟩ := ih kernels
      obtain ⟨hlt, heq, -⟩ := Array.findIdx?_eq_some_iff_getElem.1 hfind
      refine ⟨hgrow, .cons ⟨rfl, ?_⟩ hrow, hnodup, fun k hk => ?_⟩
      · refine getElem?_grown hgrow ?_
        rw [List.getElem?_eq_getElem (by simpa using hlt)]
        simpa using heq
      · rcases hmem k hk with h | ⟨m, hm, h⟩
        · exact .inl h
        · exact .inr ⟨m, List.mem_cons_of_mem _ hm, h⟩
    · next hfind =>
      obtain ⟨hgrow, hrow, hnodup, hmem⟩ := ih (kernels.push kernel)
      rw [Array.toList_push] at hgrow hnodup hmem
      have hlast : (enter moves (kernels.push kernel)).2.toList[kernels.size]? = some kernel := by
        refine getElem?_grown hgrow ?_
        rw [← Array.length_toList]
        exact List.getElem?_concat_length
      refine ⟨(List.prefix_append _ _).trans hgrow, .cons ⟨rfl, hlast⟩ hrow, fun h => ?_,
        fun k hk => ?_⟩
      · refine hnodup (List.nodup_append.2 ⟨h, List.nodup_singleton _, fun k hk k' hk' => ?_⟩)
        obtain rfl := List.mem_singleton.1 hk'
        rintro rfl
        simpa using Array.findIdx?_eq_none_iff.1 hfind k (by simpa using hk)
      · rcases hmem k hk with h | ⟨m, hm, h⟩
        · rcases List.mem_append.1 h with h | h
          · exact .inl h
          · exact .inr ⟨_, List.mem_cons_self, (List.mem_singleton.1 h).symm⟩
        · exact .inr ⟨m, List.mem_cons_of_mem _ hm, h⟩

/-! ## Exploring -/

/-- The kernels found so far, and rows for the first of them, in order. -/
structure Explored (a : Analysis) (kernels : List (List Item)) (rows : List (List Transition)) :
    Prop where
  first : kernels[0]? = some [a.startItem]
  nodup : kernels.Nodup
  kernel : ∀ k ∈ kernels, a.IsKernel k
  row : ∀ (i : Nat) row, rows[i]? = some row →
    ∃ k, kernels[i]? = some k ∧ IsRow kernels (a.moves (a.closureItems k)) row

/-- Entering the moves of the first kernel that has no row gives it one. -/
theorem Explored.enter (hg : g.Ranged) {kernels : Array (List Item)}
    {rows : List (List Transition)} {kernel : List Item}
    (h : (ofGrammar g).Explored kernels.toList rows)
    (hkernel : kernels.toList[rows.length]? = some kernel) :
    let entered := enter ((ofGrammar g).moves ((ofGrammar g).closureItems kernel)) kernels
    (ofGrammar g).Explored entered.2.toList (rows ++ [entered.1]) := by
  have hk := h.kernel kernel (List.mem_of_getElem? hkernel)
  obtain ⟨hgrow, hrow, hnodup, hmem⟩ :=
    enter_isRow ((ofGrammar g).moves ((ofGrammar g).closureItems kernel)) kernels
  refine ⟨getElem?_grown hgrow h.first, hnodup h.nodup, fun k hk' => ?_, fun i row hi => ?_⟩
  · rcases hmem k hk' with hk' | ⟨m, hm, rfl⟩
    · exact h.kernel k hk'
    · rw [(mem_moves.1 hm).2]
      exact hk.movedPast hg _
  · rw [List.getElem?_append] at hi
    split at hi
    · obtain ⟨k, hk', hr⟩ := h.row i row hi
      exact ⟨k, getElem?_grown hgrow hk', hr.mono hgrow⟩
    · next hi' =>
      obtain ⟨hlt, heq⟩ := List.getElem?_eq_some_iff.1 hi
      obtain rfl : i = rows.length := by
        rw [List.length_singleton] at hlt
        omega
      obtain rfl : (Analysis.enter ((ofGrammar g).moves ((ofGrammar g).closureItems kernel))
        kernels).1 = row := by simpa using heq
      exact ⟨kernel, getElem?_grown hgrow hkernel, hrow⟩

theorem explore_explored (hg : g.Ranged) (fuel state : Nat) (kernels : Array (List Item))
    (rows : List (List Transition)) (h : (ofGrammar g).Explored kernels.toList rows.reverse)
    (hrows : rows.length = state) (hstate : state ≤ kernels.size)
    (hfuel : Nat.pow 2 (ofGrammar g).itemCount < fuel + state) :
    let result := (ofGrammar g).explore fuel state kernels rows
    (ofGrammar g).Explored result.1.toList result.2 ∧ result.2.length = result.1.size := by
  induction fuel generalizing state kernels rows with
  | zero =>
    have hle := length_le_of_isKernel h.nodup h.kernel
    rw [Array.length_toList] at hle
    omega
  | succ fuel ih =>
    rw [explore]
    split
    · next hnone =>
      rw [Array.getElem?_eq_none_iff] at hnone
      refine ⟨h, ?_⟩
      show rows.reverse.length = kernels.size
      rw [List.length_reverse]
      omega
    · next kernel hkernel =>
      have hlt := (Array.getElem?_eq_some_iff.1 hkernel).1
      have hsome : kernels.toList[rows.reverse.length]? = some kernel := by
        rw [List.length_reverse, hrows]
        simpa using hkernel
      have henter := h.enter hg hsome
      dsimp only at henter
      rw [← List.reverse_cons] at henter
      have hsize := (enter_isRow ((ofGrammar g).moves ((ofGrammar g).closureItems kernel))
        kernels).1.length_le
      rw [Array.length_toList, Array.length_toList] at hsize
      exact ih (state + 1) _ (_ :: rows) henter (by rw [List.length_cons, hrows]) (by omega)
        (by omega)

/-- Before exploring there is the kernel of the first state, without a row. -/
theorem explored_start (g : Grammar) :
    (ofGrammar g).Explored [[(ofGrammar g).startItem]] [] := by
  refine ⟨rfl, List.nodup_singleton _, fun k hk => ?_, fun i row hi => by simp at hi⟩
  rw [List.mem_singleton.1 hk]
  refine ⟨List.pairwise_singleton _ _, fun i hi => ?_⟩
  rw [List.mem_singleton.1 hi]
  exact ⟨g.sentence, getElem?_accept g, Nat.zero_le _⟩

/-- Exploring finds all kernels, and every kernel has its row. -/
theorem skeleton_explored (hg : g.Ranged) :
    (ofGrammar g).Explored (ofGrammar g).skeleton.1.toList (ofGrammar g).skeleton.2 ∧
      (ofGrammar g).skeleton.2.length = (ofGrammar g).skeleton.1.size := by
  exact explore_explored hg _ 0 _ [] (explored_start g) rfl (Nat.zero_le _) (by omega)

end FluentGrammar.Analysis
