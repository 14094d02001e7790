import FluentGrammar.Proofs.Automaton.Skeleton

/-
  The numbering of the kernels. The transitions of a kernel stand in the order of symbols, and the
  kernels are numbered in the order in which the rows lead to them (`skeleton_numbered`), since
  exploring takes one kernel after the other and puts those that are new to the end.
-/

namespace FluentGrammar

/-- Terminals come before nonterminals, and each kind is ordered by index. -/
inductive Symbol.Before : Symbol → Symbol → Prop
  | terminals {a b} : a < b → Before (.terminal a) (.terminal b)
  | kinds (a b) : Before (.terminal a) (.nonterminal b)
  | nonterminals {a b} : a < b → Before (.nonterminal a) (.nonterminal b)

namespace Analysis

variable {a : Analysis} {x y : Symbol} {n : Nat}

/-! ## The order of symbols -/

theorem before_of_le (hne : x ≠ y) (h : x.le y = true) : x.Before y := by
  cases x with
  | terminal t =>
    cases y with
    | terminal u =>
      refine .terminals (Nat.lt_of_le_of_ne (by simpa [Symbol.le] using h) ?_)
      exact fun htu => hne (congrArg _ htu)
    | nonterminal l => exact .kinds t l
  | nonterminal l =>
    cases y with
    | terminal u => cases h
    | nonterminal k =>
      refine .nonterminals (Nat.lt_of_le_of_ne (by simpa [Symbol.le] using h) ?_)
      exact fun hlk => hne (congrArg _ hlk)

theorem before_of_not_le (h : ¬x.le y = true) : y.Before x := by
  cases x with
  | terminal t =>
    cases y with
    | terminal u => exact .terminals (by simpa [Symbol.le] using h)
    | nonterminal l => exact absurd rfl h
  | nonterminal l =>
    cases y with
    | terminal u => exact .kinds u l
    | nonterminal k => exact .nonterminals (by simpa [Symbol.le] using h)

theorem ne_of_before (h : x.Before y) : x ≠ y := by
  rintro rfl
  cases h with
  | terminals h => exact Nat.lt_irrefl _ h
  | nonterminals h => exact Nat.lt_irrefl _ h

theorem not_le_of_before (h : x.Before y) : ¬y.le x = true := by
  cases h with
  | terminals h => simpa [Symbol.le] using h
  | kinds => exact Bool.false_ne_true
  | nonterminals h => simpa [Symbol.le] using h

theorem before_trans {z : Symbol} (h : x.Before y) (h' : y.Before z) : x.Before z := by
  cases h with
  | terminals h =>
    cases h' with
    | terminals h' => exact .terminals (Nat.lt_trans h h')
    | kinds => exact .kinds _ _
  | kinds =>
    cases h' with
    | nonterminals => exact .kinds _ _
  | nonterminals h =>
    cases h' with
    | nonterminals h' => exact .nonterminals (Nat.lt_trans h h')

theorem pairwise_insertSymbol {xs : List Symbol} (h : xs.Pairwise Symbol.Before) :
    (insertSymbol x xs).Pairwise Symbol.Before := by
  induction xs with
  | nil => exact List.pairwise_singleton _ _
  | cons y xs ih =>
    obtain ⟨hy, hxs⟩ := List.pairwise_cons.1 h
    rw [insertSymbol]
    split
    · exact h
    · next hne =>
      split
      · next hle =>
        have hxy := before_of_le hne hle
        refine List.pairwise_cons.2 ⟨fun z hz => ?_, h⟩
        rcases List.mem_cons.1 hz with rfl | hz
        · exact hxy
        · exact before_trans hxy (hy z hz)
      · next hle =>
        refine List.pairwise_cons.2 ⟨fun z hz => ?_, ih hxs⟩
        rcases mem_insertSymbol.1 hz with rfl | hz
        · exact before_of_not_le hle
        · exact hy z hz

theorem pairwise_nextSymbols (a : Analysis) (items : List Item) :
    (a.nextSymbols items).Pairwise Symbol.Before :=
  List.foldrRecOn (items.filterMap a.next?) insertSymbol .nil
    fun _ h _ _ => pairwise_insertSymbol h

theorem pairwise_moves (a : Analysis) (items : List Item) :
    (a.moves items).Pairwise fun m m' => m.1.Before m'.1 :=
  (a.pairwise_nextSymbols items).map _ fun _ _ h => h

theorem IsRow.pairwise {kernels : List (List Item)} {moves : List (Symbol × List Item)}
    {row : List Transition} (hmoves : moves.Pairwise fun m m' => m.1.Before m'.1)
    (h : IsRow kernels moves row) : row.Pairwise fun t u => t.1.Before u.1 := by
  induction h with
  | nil => exact .nil
  | cons hmt hrow ih =>
    obtain ⟨hm, hmoves⟩ := List.pairwise_cons.1 hmoves
    refine List.pairwise_cons.2 ⟨fun u hu => ?_, ih hmoves⟩
    obtain ⟨m', hm', hmt', -⟩ := exists_of_mem_right hrow hu
    rw [hmt.1, hmt']
    exact hm m' hm'

/-! ## The order of states -/

theorem eraseDups_concat_of_mem {ns : List Nat} (h : n ∈ ns) :
    (ns ++ [n]).eraseDups = ns.eraseDups := by
  rw [List.eraseDups_append, List.removeAll]
  simp [h]

theorem eraseDups_concat_of_not_mem {ns : List Nat} (h : n ∉ ns) :
    (ns ++ [n]).eraseDups = ns.eraseDups ++ [n] := by
  rw [List.eraseDups_append, List.removeAll]
  simp [h, List.eraseDups_cons]

/-- Entering kernels numbers those that are new in the order in which they are entered. -/
theorem eraseDups_enter (moves : List (Symbol × List Item)) (kernels : Array (List Item))
    {ns : List Nat} (h : ns.eraseDups = List.range kernels.size) :
    (ns ++ (enter moves kernels).1.map (·.2)).eraseDups =
      List.range (enter moves kernels).2.size := by
  have hmem (k : Nat) : k ∈ ns ↔ k < kernels.size := by
    rw [← List.mem_eraseDups, h, List.mem_range]
  induction moves generalizing kernels ns with
  | nil => simpa [enter] using h
  | cons move moves ih =>
    obtain ⟨y, kernel⟩ := move
    rw [enter]
    split
    · next target hfind =>
      have hlt := (Array.findIdx?_eq_some_iff_getElem.1 hfind).1
      have hconcat := eraseDups_concat_of_mem ((hmem target).2 hlt)
      have hrest := ih kernels (hconcat.trans h) fun k => by
        rw [← List.mem_eraseDups, hconcat, List.mem_eraseDups, hmem]
      rwa [List.append_assoc] at hrest
    · have hsize : (kernels.push kernel).size = kernels.size + 1 := Array.size_push _
      have hnot : kernels.size ∉ ns := fun hin => Nat.lt_irrefl _ ((hmem _).1 hin)
      have hconcat : (ns ++ [kernels.size]).eraseDups =
          List.range (kernels.push kernel).size := by
        rw [eraseDups_concat_of_not_mem hnot, h, hsize, List.range_succ]
      have hrest := ih (kernels.push kernel) hconcat fun k => by
        rw [← List.mem_eraseDups, hconcat, List.mem_range]
      rwa [List.append_assoc] at hrest

/-- What entering the moves of a kernel without a row keeps holds of all that exploring finds. -/
theorem explore_induction {motive : List (List Item) → List (List Transition) → Prop}
    (step : ∀ (kernels : Array (List Item)) rows kernel, motive kernels.toList rows →
      kernels.toList[rows.length]? = some kernel →
      motive (enter (a.moves (a.closureItems kernel)) kernels).2.toList
        (rows ++ [(enter (a.moves (a.closureItems kernel)) kernels).1]))
    (fuel state : Nat) (kernels : Array (List Item)) (rows : List (List Transition))
    (h : motive kernels.toList rows.reverse) (hrows : rows.length = state) :
    motive (a.explore fuel state kernels rows).1.toList (a.explore fuel state kernels rows).2 := by
  induction fuel generalizing state kernels rows with
  | zero => exact h
  | succ fuel ih =>
    rw [explore]
    split
    · exact h
    · next kernel hkernel =>
      have hsome : kernels.toList[rows.reverse.length]? = some kernel := by
        rw [List.length_reverse, hrows]
        simpa using hkernel
      have hstep := step kernels rows.reverse kernel h hsome
      rw [← List.reverse_cons] at hstep
      exact ih (state + 1) _ (_ :: rows) hstep (by rw [List.length_cons, hrows])

/-- The rows lead to the kernels for the first time in the order of their numbers, and to every
    kernel but the first from one that comes before it. -/
structure Numbered (kernels : List (List Item)) (rows : List (List Transition)) : Prop where
  order : (0 :: rows.flatten.map (·.2)).eraseDups = List.range kernels.length
  length : rows.length ≤ kernels.length
  origin : ∀ n, 0 < n → n < kernels.length →
    ∃ m < n, ∃ row, rows[m]? = some row ∧ ∃ x, (x, n) ∈ row

theorem Numbered.enter {kernels : Array (List Item)} {rows : List (List Transition)}
    {kernel : List Item} (h : Numbered kernels.toList rows)
    (hkernel : kernels.toList[rows.length]? = some kernel)
    (moves : List (Symbol × List Item)) :
    Numbered (enter moves kernels).2.toList (rows ++ [(enter moves kernels).1]) := by
  have hlt := (List.getElem?_eq_some_iff.1 hkernel).1
  have hsize := (enter_isRow moves kernels).1.length_le
  have horder : ((0 :: rows.flatten.map (·.2)) ++
      (Analysis.enter moves kernels).1.map (·.2)).eraseDups =
        List.range (Analysis.enter moves kernels).2.toList.length := by
    have := h.order
    rw [Array.length_toList] at this ⊢
    exact eraseDups_enter moves kernels this
  refine ⟨by simpa using horder, ?_, fun n hn hlast => ?_⟩
  · rw [List.length_append, List.length_singleton]
    exact Nat.lt_of_lt_of_le hlt hsize
  · by_cases hold : n < kernels.toList.length
    · obtain ⟨m, hm, row, hrow, hx⟩ := h.origin n hn hold
      exact ⟨m, hm, row, getElem?_grown (List.prefix_append _ _) hrow, hx⟩
    · -- A number that no row before has led to is one that this row leads to.
      have hmem : n ∈ (0 :: rows.flatten.map (·.2)) ++
          (Analysis.enter moves kernels).1.map (·.2) := by
        rw [← List.mem_eraseDups, horder, List.mem_range]
        exact hlast
      rcases List.mem_append.1 hmem with hmem | hmem
      · rw [← List.mem_eraseDups, h.order, List.mem_range] at hmem
        exact absurd hmem hold
      · obtain ⟨⟨x, _⟩, ht, rfl⟩ := List.mem_map.1 hmem
        exact ⟨rows.length, by omega, _, List.getElem?_concat_length, x, ht⟩

theorem skeleton_numbered (a : Analysis) : Numbered a.skeleton.1.toList a.skeleton.2 := by
  refine explore_induction (motive := Numbered) (fun kernels rows kernel h hkernel => ?_) _ 0 _ []
    ?_ rfl
  · exact h.enter hkernel _
  · refine ⟨rfl, Nat.zero_le _, fun n hn hlast => ?_⟩
    have : n < 1 := hlast
    omega

end Analysis

end FluentGrammar
