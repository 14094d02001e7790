import FluentGrammar.Proofs.Automaton.Choosing

/-
  Filling the table. State by state, the transitions over nonterminals are written as gotos, and one
  action is chosen and written for every cell with candidates, so that after `k` states the table
  holds what belongs to them and nothing else (`exists_fillStates`). Every number is looked up, the
  places of the table too. For a grammar in range all of them are found and every loop ends, and
  what comes out is the parse table (`build?_eq`).
-/

namespace FluentGrammar

open Report

namespace Analysis

variable {g : Grammar} {n : StateId} {s : ItemState}

/-! ## Filling states -/

/-- Writes the action of a cell, and adds the report on it. -/
def writeCell? (a : Analysis) (n : StateId) (written : ParseTable × List Diagnostic)
    (x : TerminalId × List TableAction) : Option (ParseTable × List Diagnostic) := do
  let (act, reports) ← a.resolve? n x.1 x.2
  let table ← written.1.setAction? n x.1 act
  return (table, written.2 ++ reports)

/-- Writes the transitions of a state over nonterminals. -/
def writeGotos? (n : StateId) (table : ParseTable) (transitions : List Transition) :
    Option ParseTable :=
  transitions.foldlM (fun table x =>
    match x.1 with
    | .terminal _ => some table
    | .nonterminal l => table.setGoto? n l x.2) table

/-- Writes all that there is to a state. -/
noncomputable def fillState? (a : Analysis) (written : ParseTable × List Diagnostic)
    (x : ItemState × StateId) : Option (ParseTable × List Diagnostic) := do
  let table ← writeGotos? x.2 written.1 x.1.transitions
  let closure ← a.closure? x.1.kernel
  let entries ← a.entries? x.1.transitions closure
  (Cells.collect entries).foldlM (a.writeCell? x.2) (table, written.2)

open ParseTable

variable {table : ParseTable} {ds : List Diagnostic} {b : Contents}

/-- Cells that are decided one after the other. -/
theorem exists_writeCells {f : TerminalId → TableAction}
    {r : TerminalId → List Diagnostic} {a : Analysis} {cells : Cells}
    (ds : List Diagnostic) (htable : table.Holds b) (hn : n < b.stateCount)
    (hcells : ∀ x ∈ cells, x.1 < b.terminals.length ∧
      a.resolve? n x.1 x.2 = some (f x.1, r x.1)) :
    ∃ table', cells.foldlM (a.writeCell? n) (table, ds) =
        some (table', ds ++ cells.flatMap fun x => r x.1) ∧
      table'.Holds { b with action := fun m t =>
        if m = n ∧ ∃ x ∈ cells, x.1 = t then f t else b.action m t } := by
  induction cells generalizing table ds b with
  | nil =>
    refine ⟨table, by simp, ?_⟩
    simpa using htable
  | cons x cells ih =>
    obtain ⟨⟨hx, hresolve⟩, hcells⟩ := List.forall_mem_cons.1 hcells
    obtain ⟨table₁, hset, hholds⟩ := htable.setAction? hn hx (f x.1)
    obtain ⟨table₂, hfold, hholds'⟩ := ih (ds ++ r x.1) hholds hn hcells
    refine ⟨table₂, ?_, ?_⟩
    · rw [List.foldlM_cons, writeCell?, hresolve]
      simp only [Option.bind_eq_bind, Option.bind_some, hset, Option.pure_def]
      rw [hfold, List.flatMap_cons, List.append_assoc]
    · have haction : (fun m t => if m = n ∧ ∃ y ∈ cells, y.1 = t then f t
          else if m = n ∧ t = x.1 then f x.1 else b.action m t) =
          fun m t => if m = n ∧ ∃ y ∈ x :: cells, y.1 = t then f t else b.action m t := by
        funext m t
        simp only [List.mem_cons, exists_eq_or_imp]
        by_cases hm : m = n
        · by_cases hrest : ∃ y ∈ cells, y.1 = t
          · simp [hm, hrest]
          · by_cases ht : t = x.1
            · simp [hm, ht]
            · simp [hm, hrest, ht, Ne.symm ht]
        · simp [hm]
      rw [← haction]
      exact hholds'

theorem lookup_cons_terminal (t : TerminalId) (m : StateId) (transitions : List Transition)
    (l : NonterminalId) : ((Symbol.terminal t, m) :: transitions).lookup (.nonterminal l) =
      transitions.lookup (.nonterminal l) := by
  have hne : (Symbol.nonterminal l == Symbol.terminal t) = false := rfl
  rw [List.lookup_cons, hne]

/-- A goto that is written before all others of its state is overwritten by none of them. -/
theorem or_lookup_cons {k : NonterminalId} {transitions : List Transition}
    (hk : ∀ x ∈ transitions, .nonterminal k ≠ x.1) (m : StateId) (l : NonterminalId)
    (old : Option StateId) :
    (((Symbol.nonterminal k, m) :: transitions).lookup (.nonterminal l)).or old =
      (transitions.lookup (.nonterminal l)).or (if l = k then some m else old) := by
  rw [List.lookup_cons]
  by_cases hlk : l = k
  · subst hlk
    have hnone : transitions.lookup (.nonterminal l) = none :=
      List.lookup_eq_none_iff.2 fun x hx => by simpa using hk x hx
    simp [hnone]
  · have hne : (Symbol.nonterminal l == Symbol.nonterminal k) = false :=
      beq_false_of_ne fun h => hlk (Symbol.nonterminal.inj h)
    simp [hlk, hne]

/-- Gotos that are written one after the other. -/
theorem exists_writeGotos {transitions : List Transition} (htable : table.Holds b)
    (hn : n < b.stateCount) (hdistinct : transitions.Pairwise fun x y => x.1 ≠ y.1)
    (hl : ∀ l m, (.nonterminal l, m) ∈ transitions → l < b.nonterminals.length) :
    ∃ table', writeGotos? n table transitions = some table' ∧
      table'.Holds { b with goto := fun m l =>
        if m = n then (transitions.lookup (.nonterminal l)).or (b.goto m l) else b.goto m l } := by
  induction transitions generalizing table b with
  | nil =>
    refine ⟨table, rfl, ?_⟩
    simpa using htable
  | cons x transitions ih =>
    obtain ⟨y, m⟩ := x
    obtain ⟨hy, hothers⟩ := List.pairwise_cons.1 hdistinct
    have hrest : ∀ l m, (.nonterminal l, m) ∈ transitions → l < b.nonterminals.length :=
      fun l m hmem => hl l m (List.mem_cons_of_mem _ hmem)
    cases y with
    | terminal t =>
      obtain ⟨table', hwrite, hholds⟩ := ih htable hn hothers hrest
      refine ⟨table', hwrite, ?_⟩
      simp only [lookup_cons_terminal]
      exact hholds
    | nonterminal k =>
      have hk := hl k m List.mem_cons_self
      obtain ⟨table₁, hset, hholds⟩ := htable.setGoto? hn hk m
      obtain ⟨table₂, hwrite, hholds'⟩ := ih hholds hn hothers hrest
      refine ⟨table₂, ?_, ?_⟩
      · rw [writeGotos?, List.foldlM_cons]
        simp only [hset, Option.bind_eq_bind, Option.bind_some]
        exact hwrite
      · have hgoto : (fun m' l => if m' = n then (transitions.lookup (.nonterminal l)).or
            (if m' = n ∧ l = k then some m else b.goto m' l)
            else if m' = n ∧ l = k then some m else b.goto m' l) =
            fun m' l => if m' = n then
              (((Symbol.nonterminal k, m) :: transitions).lookup (.nonterminal l)).or (b.goto m' l)
              else b.goto m' l := by
          funext m' l
          by_cases hm : m' = n
          · simp [hm, or_lookup_cons hy]
          · simp [hm]
        rw [← hgoto]
        exact hholds'

/-- What the table holds when its first states have been filled in. -/
def filled (g : Grammar) (k : Nat) : Contents :=
  { contents g with
    action := fun n t => if n < k then (contents g).action n t else .error
    goto := fun n l => if n < k then (contents g).goto n l else none }

theorem filled_stateCount (k : Nat) : (filled g k).stateCount = (ofGrammar g).states.length := by
  simp only [filled, contents]

theorem filled_action (k : Nat) (t : TerminalId) : (filled g k).action n t =
    if n < k then (contents g).action n t else .error := rfl

theorem filled_goto (k : Nat) (l : NonterminalId) : (filled g k).goto n l =
    if n < k then (contents g).goto n l else none := rfl

theorem closure?_eq_of_state (hg : g.Ranged) (hs : (ofGrammar g).states[n]? = some s) :
    (ofGrammar g).closure? s.kernel = some ((ofGrammar g).closure s.kernel) := by
  obtain ⟨kernels, rows, settled, hm⟩ := exists_madeOf hg (bound_lt hg)
  obtain ⟨kernel, -, hk, hcarries, -⟩ := hm.state hs
  refine closure?_eq hg (hcarries.ordered hk) (fun i hi => ?_) (hcarries.has_bound hk)
  rw [hcarries.items] at hi
  obtain ⟨q, hq, -⟩ := hk.occurs i hi
  exact (List.getElem?_eq_some_iff.1 hq).1

/-- A state has one transition for a symbol. -/
theorem pairwise_transitions (hg : g.Ranged) (hs : (ofGrammar g).states[n]? = some s) :
    s.transitions.Pairwise fun x y => x.1 ≠ y.1 := by
  obtain ⟨kernels, rows, settled, hm⟩ := exists_madeOf hg (bound_lt hg)
  obtain ⟨kernel, -, -, -, hrow⟩ := hm.state hs
  exact (hrow.pairwise (pairwise_moves _ _)).imp ne_of_before

/-- Reports are only lost where there are none. -/
theorem filterMap_range_eq {f : Nat → Option Diagnostic} {count : Nat} {ks : List Nat}
    (hks : ks.Pairwise (· < ·)) (hlt : ∀ k ∈ ks, k < count)
    (hall : ∀ k, f k ≠ none → k < count → k ∈ ks) :
    (List.range count).filterMap f = ks.filterMap f := by
  have hfilter : (List.range count).filter (· ∈ ks) = ks := by
    refine List.Pairwise.eq_of_mem_iff (List.pairwise_lt_range.filter _) hks fun k => ?_
    rw [List.mem_filter, List.mem_range, decide_eq_true_iff]
    exact ⟨And.right, fun hk => ⟨hlt k hk, hk⟩⟩
  rw [← hfilter, List.filterMap_filter]
  refine List.filterMap_congr fun k hk => ?_
  by_cases hmem : k ∈ ks
  · rw [if_pos (decide_eq_true hmem)]
  · rw [if_neg (by simpa using hmem)]
    by_contra hne
    exact hmem (hall k hne (List.mem_range.1 hk))

/-- The reports on the cells collected are those on the state. -/
theorem flatMap_report? {cells : Cells} (htidy : cells.Tidy)
    (hlt : ∀ x ∈ cells, x.1 < g.terminals.length)
    (hcell : ∀ t, (ofGrammar g).cell n t ≠ [] ↔ ∃ x ∈ cells, x.1 = t) :
    (cells.flatMap fun x => ((ofGrammar g).report? n x.1).toList) =
      (List.range g.terminals.length).filterMap ((ofGrammar g).report? n) := by
  rw [filterMap_range_eq (List.pairwise_map.2 htidy.ordered)]
  · rw [List.filterMap_eq_flatMap_toList, List.flatMap_map]
  · intro t ht
    obtain ⟨x, hx, rfl⟩ := List.mem_map.1 ht
    exact hlt x hx
  · intro t hreport _
    refine List.mem_map.2 ((hcell t).1 fun hnil => hreport ?_)
    rw [report?, hnil]
    rfl

/-- Writing the actions and the gotos of a state fills it in. -/
theorem filled_succ (hs : (ofGrammar g).states[n]? = some s) {cells : Cells}
    (hcell : ∀ t, (ofGrammar g).cell n t ≠ [] ↔ ∃ x ∈ cells, x.1 = t) :
    ({ filled g n with
      action := fun m t => if m = n ∧ ∃ x ∈ cells, x.1 = t then (contents g).action n t
        else (filled g n).action m t
      goto := fun m l => if m = n then
        (s.transitions.lookup (.nonterminal l)).or ((filled g n).goto m l)
        else (filled g n).goto m l } : Contents) = filled g (n + 1) := by
  have haction (m : StateId) (t : TerminalId) :
      (if m = n ∧ ∃ x ∈ cells, x.1 = t then (contents g).action n t
        else if m < n then (contents g).action m t else .error) =
          if m < n + 1 then (contents g).action m t else .error := by
    rcases Nat.lt_trichotomy m n with hm | rfl | hm
    · rw [if_neg fun h => Nat.ne_of_lt hm h.1, if_pos hm, if_pos (Nat.lt_succ_of_lt hm)]
    · rw [if_neg (Nat.lt_irrefl m), if_pos (Nat.lt_succ_self m)]
      split
      · rfl
      · next hnone =>
        have hnil : (ofGrammar g).cell m t = [] := by
          by_contra hne
          exact hnone ⟨rfl, (hcell t).1 hne⟩
        rw [contents_action, hnil]
        rfl
    · rw [if_neg fun h => Nat.ne_of_gt hm h.1, if_neg (Nat.lt_asymm hm), if_neg (Nat.not_lt.2 hm)]
  have hgoto (m : StateId) (l : NonterminalId) :
      (if m = n then (s.transitions.lookup (.nonterminal l)).or
          (if m < n then (contents g).goto m l else none)
        else if m < n then (contents g).goto m l else none) =
          if m < n + 1 then (contents g).goto m l else none := by
    rcases Nat.lt_trichotomy m n with hm | rfl | hm
    · rw [if_neg (Nat.ne_of_lt hm), if_pos hm, if_pos (Nat.lt_succ_of_lt hm)]
    · rw [if_pos rfl, if_neg (Nat.lt_irrefl m), if_pos (Nat.lt_succ_self m), Option.or_none]
      rw [contents_goto, hs, Option.bind_some]
    · rw [if_neg (Nat.ne_of_gt hm), if_neg (Nat.lt_asymm hm), if_neg (Nat.not_lt.2 hm)]
  simp only [filled, haction, hgoto]

theorem exists_fillState (hg : g.Ranged) (hs : (ofGrammar g).states[n]? = some s)
    (htable : table.Holds (filled g n)) (ds : List Diagnostic) :
    ∃ table', (ofGrammar g).fillState? (table, ds) (s, n) = some (table', ds ++
        (List.range g.terminals.length).filterMap ((ofGrammar g).report? n)) ∧
      table'.Holds (filled g (n + 1)) := by
  have hn : n < (filled g n).stateCount := by
    rw [filled_stateCount]
    exact (List.getElem?_eq_some_iff.1 hs).1
  have hnonterminal : ∀ l m, (.nonterminal l, m) ∈ s.transitions →
      l < (filled g n).nonterminals.length := by
    intro l m hmem
    obtain ⟨i, -, hx⟩ := exists_knows_of_moves hg ⟨s, hs, hmem⟩
    show l < (g.nonterminals.map (·.name)).length
    rw [List.length_map]
    exact lt_length_of_next? hg hx
  obtain ⟨table₁, hgotos, hholds₁⟩ :=
    exists_writeGotos htable hn (pairwise_transitions hg hs) hnonterminal
  generalize hcells : Cells.collect
    ((ofGrammar g).entries s.transitions ((ofGrammar g).closure s.kernel)) = cells
  obtain ⟨htidy, hmem, hcell⟩ := collect_entries hg hs hcells
  have hlt : ∀ x ∈ cells, x.1 < g.terminals.length := by
    intro x hx
    obtain ⟨act, hact⟩ := List.exists_mem_of_ne_nil _ (htidy.filled x hx)
    exact lt_of_candidate hg ((hmem x hx act).1 hact)
  obtain ⟨table₂, hwrite, hholds₂⟩ := exists_writeCells (a := ofGrammar g) (n := n)
    (f := (contents g).action n) (r := fun t => ((ofGrammar g).report? n t).toList) ds hholds₁ hn
    fun x hx => ⟨hlt x hx, resolve?_eq hg (htidy.filled x hx) (htidy.nodup x hx) (hmem x hx)⟩
  refine ⟨table₂, ?_, filled_succ hs hcell ▸ hholds₂⟩
  rw [fillState?, hgotos]
  simp only [Option.bind_eq_bind, Option.bind_some, closure?_eq_of_state hg hs,
    entries?_eq hg hs, hcells, hwrite, flatMap_report? htidy hlt hcell]

/-- States that are filled in one after the other, from state `k` on. -/
theorem exists_fillStates (hg : g.Ranged) (rest : List ItemState) (k : Nat)
    (hrest : (ofGrammar g).states.drop k = rest) (htable : table.Holds (filled g k))
    (ds : List Diagnostic) : ∃ table',
      (rest.zipIdx k).foldlM (ofGrammar g).fillState? (table, ds) = some (table', ds ++
        (List.range' k rest.length).flatMap fun n =>
          (List.range g.terminals.length).filterMap ((ofGrammar g).report? n)) ∧
      table'.Holds (filled g (k + rest.length)) := by
  induction rest generalizing k table ds with
  | nil => exact ⟨table, by simp, htable⟩
  | cons s rest ih =>
    have hs : (ofGrammar g).states[k]? = some s := by
      rw [← List.head?_drop, hrest]
      rfl
    have hdrop : (ofGrammar g).states.drop (k + 1) = rest := by
      rw [← List.drop_drop, hrest, List.drop_one, List.tail_cons]
    obtain ⟨table₁, hfill, hholds₁⟩ := exists_fillState hg hs htable ds
    obtain ⟨table₂, hfold, hholds₂⟩ := ih (k + 1) hdrop hholds₁
      (ds ++ (List.range g.terminals.length).filterMap ((ofGrammar g).report? k))
    refine ⟨table₂, ?_, ?_⟩
    · rw [List.zipIdx_cons, List.foldlM_cons, hfill]
      simp only [Option.bind_eq_bind, Option.bind_some]
      rw [hfold, List.length_cons, List.range'_succ, List.flatMap_cons, List.append_assoc]
    · rw [List.length_cons, Nat.add_comm rest.length, ← Nat.add_assoc]
      exact hholds₂

end Analysis

/-! ## The table -/

namespace Grammar

open Analysis ParseTable

/-- The parse table, with every number looked up: `none` for a number that is not found or for a
    loop that does not end. -/
noncomputable def build? (g : Grammar) :
    Option (Except CompileError (ParseTable × List Diagnostic)) := do
  let a ← Analysis.ofGrammar? g
  let states ← a.states?
  let own := a.grammar.nonterminals.take (a.grammar.nonterminals.length - 1)
  let reductions := (a.grammar.productions.take a.accept).map fun p =>
    (⟨p.lhs, p.rhs.length⟩ : Reduction)
  let table := reductions.foldl (fun table r => (table.pushReduction r).2)
    (ParseTable.blank a.grammar.terminals (own.map (·.name)) states.length)
  let (table, reports) ← states.zipIdx.foldlM a.fillState? (table, [])
  if Diagnostic.anyError reports then return .error (.conflict reports)
  else return .ok (table, reports)

variable {g : Grammar}

/-- Before any state is filled in, the table has its reductions and nothing else. -/
theorem holds_filled_zero (g : Grammar) :
    ((g.productions.map fun p => (⟨p.lhs, p.rhs.length⟩ : Reduction)).foldl
      (fun table r => (table.pushReduction r).2)
      (ParseTable.blank g.terminals (g.nonterminals.map (·.name))
        (ofGrammar g).states.length)).Holds (filled g 0) := by
  have h := (holds_blank g.terminals (g.nonterminals.map (·.name))
    (ofGrammar g).states.length).pushReductions
      (g.productions.map fun p => ⟨p.lhs, p.rhs.length⟩)
  simpa [filled, contents] using h

/-- For a grammar in range every number is found and every loop ends, with the parse table. -/
theorem build?_eq (hg : g.WellFormed) : g.build? = some g.parseTable := by
  obtain ⟨table, hholds, hparse⟩ := exists_holds_contents g
  obtain ⟨table', hfill, hholds'⟩ := exists_fillStates hg.ranged (ofGrammar g).states 0 rfl
    (holds_filled_zero g) []
  rw [Nat.zero_add] at hholds'
  obtain rfl : table' = table := by
    refine hholds'.unique hholds rfl rfl rfl (fun n hn t _ => ?_) (fun n hn l _ => ?_) rfl
    · rw [filled_stateCount] at hn
      rw [filled_action, if_pos hn]
    · rw [filled_stateCount] at hn
      rw [filled_goto, if_pos hn]
  have hreports : (List.range' 0 (ofGrammar g).states.length).flatMap (fun n =>
      (List.range g.terminals.length).filterMap ((ofGrammar g).report? n)) =
        (ofGrammar g).reports := by
    rw [← List.range_eq_range', reports_eq]
    rfl
  have hown : (ofGrammar g).grammar.nonterminals.take
      ((ofGrammar g).grammar.nonterminals.length - 1) = g.nonterminals := by
    show (g.nonterminals ++ [_]).take ((g.nonterminals ++ [_]).length - 1) = _
    rw [List.length_append, List.length_singleton, Nat.add_sub_cancel, List.take_left]
  have hproductions : (ofGrammar g).grammar.productions.take (ofGrammar g).accept =
      g.productions := by
    rw [accept_ofGrammar]
    exact List.take_left
  rw [hreports, List.nil_append] at hfill
  rw [build?, ofGrammar?_eq hg.ranged]
  simp only [Option.bind_eq_bind, Option.bind_some, states?_eq hg.ranged, hown, hproductions]
  have hfill' : (ofGrammar g).states.zipIdx.foldlM (ofGrammar g).fillState?
      ((g.productions.map fun p => (⟨p.lhs, p.rhs.length⟩ : Reduction)).foldl
        (fun table r => (table.pushReduction r).2)
        (ParseTable.blank (ofGrammar g).grammar.terminals (g.nonterminals.map (·.name))
          (ofGrammar g).states.length), []) = some (table', (ofGrammar g).reports) := hfill
  rw [hfill', hparse, Option.bind_some]
  dsimp only
  split
  · rfl
  · rfl

end Grammar

end FluentGrammar
