import FluentGrammar.Automaton.Build
import FluentGrammar.Proofs.Automaton.States
import FluentGrammar.Proofs.Automaton.Writing

/-
  The parse table against the automaton. A cell has a shift for a transition, a reduction for a
  complete production that the terminal may follow, and acceptance for a complete sentence
  (`mem_cell`), and the action is one of these. A table built without reports has at most one
  candidate in every cell, and a table built at all has at most one in the columns of actions.
-/

namespace FluentGrammar

open Report

namespace Analysis

variable {g : Grammar} {n m : Nat} {t : TerminalId} {l : NonterminalId} {p : ProductionId}
  {table : ParseTable} {ds : List Diagnostic} {act : TableAction}

/-- The candidates of a state on a terminal. -/
def cell (a : Analysis) (n : Nat) (t : TerminalId) : List TableAction :=
  (a.states[n]?).elim [] fun s => a.candidates s.transitions (a.closure s.kernel) t

/-- The production is complete in the state, and the terminal may follow. -/
def Ends (a : Analysis) (n : Nat) (p : ProductionId) (t : TerminalId) : Prop :=
  ∃ i, a.Knows n i (some t) ∧ a.remaining i = [] ∧ i.production = p

/-! ## Candidates -/

theorem ordered_closure_of_state (hg : g.Ranged) {s : ItemState}
    (hs : (ofGrammar g).states[n]? = some s) : ((ofGrammar g).closure s.kernel).Ordered := by
  obtain ⟨kernels, rows, settled, hm⟩ := exists_madeOf hg (bound_lt hg)
  obtain ⟨kernel, -, hk, hcarries, -⟩ := hm.state hs
  exact ordered_closure (inBounds hg) (hcarries.ordered hk) (hcarries.has_bound hk)

theorem mem_completed (hg : g.Ranged) {s : ItemState}
    (hs : (ofGrammar g).states[n]? = some s) :
    p ∈ (ofGrammar g).completed ((ofGrammar g).closure s.kernel) t ↔
      (ofGrammar g).Ends n p t := by
  have hordered := ordered_closure_of_state hg hs
  rw [completed, List.mem_filterMap]
  constructor
  · rintro ⟨⟨i, ts⟩, hmem, hi⟩
    dsimp only at hi
    split at hi
    · next h =>
      rw [Bool.and_eq_true, List.isEmpty_iff, List.contains_iff_mem] at h
      exact ⟨i, ⟨s, hs, hordered.has_some_iff.2 ⟨ts, hmem, h.2⟩⟩, h.1, Option.some.inj hi⟩
    · cases hi
  · rintro ⟨i, hi, hr, rfl⟩
    obtain ⟨ts, hmem, ht⟩ := hordered.has_some_iff.1 ((knows_iff_of_state hs).1 hi)
    exact ⟨(i, ts), hmem, by simp [hr, ht]⟩

theorem lookup_transitions (hg : g.Ranged) {s : ItemState}
    (hs : (ofGrammar g).states[n]? = some s) {x : Symbol} :
    s.transitions.lookup x = some m ↔ (ofGrammar g).Moves n x m := by
  constructor
  · exact fun h => ⟨s, hs, mem_of_lookup_eq_some h⟩
  · intro h
    cases hl : s.transitions.lookup x with
    | none =>
      have := List.lookup_eq_none_iff.1 hl (x, m) ((moves_iff_of_state hs).1 h)
      simp at this
    | some k => rw [moves_unique hg h ⟨s, hs, mem_of_lookup_eq_some hl⟩]

/-- What the candidates of a cell are. -/
theorem mem_cell (hg : g.Ranged) :
    act ∈ (ofGrammar g).cell n t ↔
      (act = .accept ∧ (ofGrammar g).Ends n (ofGrammar g).accept t) ∨
      (∃ m, act = .shift m ∧ (ofGrammar g).Moves n (.terminal t) m) ∨
      ∃ p, act = .reduce p ∧ p ≠ (ofGrammar g).accept ∧ (ofGrammar g).Ends n p t := by
  cases hs : (ofGrammar g).states[n]? with
  | none =>
    have hends : ∀ p, ¬(ofGrammar g).Ends n p t := by
      rintro p ⟨i, ⟨s, hs', -⟩, -⟩
      cases hs.symm.trans hs'
    have hmoves : ∀ m, ¬(ofGrammar g).Moves n (.terminal t) m := by
      rintro m ⟨s, hs', -⟩
      cases hs.symm.trans hs'
    simp [cell, hs, hends, hmoves]
  | some s =>
    have hcell : (ofGrammar g).cell n t =
        (ofGrammar g).candidates s.transitions ((ofGrammar g).closure s.kernel) t := by
      rw [cell, hs]
      rfl
    rw [hcell, candidates, List.mem_append, List.mem_append, or_assoc]
    refine or_congr ?_ (or_congr ?_ ?_)
    · split
      · next h =>
        rw [List.contains_iff_mem, mem_completed hg hs] at h
        simp [h]
      · next h =>
        rw [List.contains_iff_mem, mem_completed hg hs] at h
        simp [h]
    · rw [Option.mem_toList, Option.map_eq_some_iff]
      constructor
      · rintro ⟨m, hm, rfl⟩
        exact ⟨m, rfl, (lookup_transitions hg hs).1 hm⟩
      · rintro ⟨m, rfl, hm⟩
        exact ⟨m, (lookup_transitions hg hs).2 hm, rfl⟩
    · rw [List.mem_map]
      constructor
      · rintro ⟨p, hp, rfl⟩
        rw [List.mem_filter, mem_completed hg hs, bne_iff_ne] at hp
        exact ⟨p, rfl, hp.2, hp.1⟩
      · rintro ⟨p, rfl, hne, hp⟩
        refine ⟨p, ?_, rfl⟩
        rw [List.mem_filter, mem_completed hg hs, bne_iff_ne]
        exact ⟨hp, hne⟩

/-! ## The table -/

/-- A table and the reports on it, from the automaton. -/
structure Builds (a : Analysis) (g : Grammar) (table : ParseTable) (ds : List Diagnostic) :
    Prop where
  stateCount : table.stateCount = a.states.length
  action : ∀ n t, table.action n t =
    if t < g.terminals.length then (a.cell n t).head?.getD .error else .error
  goto : ∀ n l, table.goto n l =
    if l < g.nonterminals.length then
      a.states[n]?.bind fun s => s.transitions.lookup (.nonterminal l)
    else none
  reduction : ∀ p, table.reduction? p = g.productions[p]?.map fun q => ⟨q.lhs, q.rhs.length⟩
  report : ∀ n t, t < g.terminals.length → 1 < (a.cell n t).length → ∃ d ∈ ds,
    d.kind = if t = g.endTerminal then .endConflict else .grammarConflict
  clean : ∀ d ∈ ds, d.severity = .warning

theorem kind_conflict (a : Analysis) (n : Nat) (t : TerminalId) (c : List TableAction) :
    (a.conflict n t c).kind =
      if t = a.grammar.endTerminal then .endConflict else .grammarConflict := by
  have related (ps : List Production) (d : Diagnostic) :
      (ps.foldl (fun report p =>
        report.relatedTo ("reduce by `" ++ a.grammar.productionText p ++ "`") p.span) d).kind =
        d.kind :=
    List.foldlRecOn (motive := fun report : Diagnostic => report.kind = d.kind) ps _ rfl
      fun _ h _ _ => h
  rw [conflict, related]
  by_cases h : t = a.grammar.endTerminal
  · rw [if_pos (beq_iff_eq.2 h), if_pos h]
    rfl
  · rw [if_neg (by simpa using h), if_neg h]
    rfl

/-- The reports on all cells of all states. -/
def reports (a : Analysis) : List Diagnostic :=
  ((a.states.map a.row).zipIdx.map fun (row, state) => a.rowConflicts state row).flatten

theorem row_eq {a : Analysis} {s : ItemState} (hs : a.states[n]? = some s) :
    a.row s = (List.range a.grammar.terminals.length).map (a.cell n) := by
  refine List.map_congr_left fun t _ => ?_
  rw [cell, hs]
  rfl

theorem length_row (a : Analysis) (s : ItemState) :
    (a.row s).length = a.grammar.terminals.length := by
  rw [row, List.length_map, List.length_range]

/-- Only states have candidates. -/
theorem lt_of_length_cell {a : Analysis} (h : 0 < (a.cell n t).length) : n < a.states.length := by
  by_contra hn
  rw [cell, List.getElem?_eq_none (Nat.le_of_not_lt hn), Option.elim_none] at h
  exact absurd h (Nat.lt_irrefl 0)

/-- The report on a cell, if it has several candidates. -/
def report? (a : Analysis) (n : StateId) (t : TerminalId) : Option Diagnostic :=
  if 1 < (a.cell n t).length then some (a.conflict n t (a.cell n t)) else none

/-- The reports by state and then by terminal. -/
theorem reports_eq (a : Analysis) : a.reports = (List.range a.states.length).flatMap fun n =>
    (List.range a.grammar.terminals.length).filterMap (a.report? n) := by
  have hrow (n : Nat) (s : ItemState) (hs : a.states[n]? = some s) : a.rowConflicts n (a.row s) =
      (List.range a.grammar.terminals.length).filterMap (a.report? n) := by
    rw [rowConflicts, row_eq hs, zipIdx_map_range, List.filterMap_map]
    refine List.filterMap_congr fun t _ => ?_
    simp only [Function.comp_apply, report?, gt_iff_lt]
  rw [reports, List.zipIdx_map, List.map_map, List.flatMap, map_zipIdx_eq fun n s hs => hrow n s hs]

/-- Cells with several candidates are reported, and nothing else is. -/
theorem mem_reports_iff {a : Analysis} {d : Diagnostic} : d ∈ a.reports ↔
    ∃ n t, t < a.grammar.terminals.length ∧ 1 < (a.cell n t).length ∧
      d = a.conflict n t (a.cell n t) := by
  rw [reports_eq, List.mem_flatMap]
  constructor
  · intro h
    obtain ⟨n, -, h⟩ := h
    obtain ⟨t, ht, h⟩ := List.mem_filterMap.1 h
    obtain ⟨hlength, heq⟩ := Option.ite_none_right_eq_some.1 h
    exact ⟨n, t, List.mem_range.1 ht, hlength, (Option.some.inj heq).symm⟩
  · intro h
    obtain ⟨n, t, ht, hlength, heq⟩ := h
    rw [heq]
    refine ⟨n, List.mem_range.2 ?_, List.mem_filterMap.2 ⟨t, List.mem_range.2 ht, if_pos hlength⟩⟩
    exact lt_of_length_cell (Nat.zero_lt_of_lt hlength)

/-- What a table made from the automaton holds: the best candidate of every cell, and the
    transitions over nonterminals. -/
def contents (g : Grammar) : ParseTable.Contents where
  terminals := g.terminals
  nonterminals := g.nonterminals.map (·.name)
  stateCount := (ofGrammar g).states.length
  action n t := ((ofGrammar g).cell n t).head?.getD .error
  goto n l := (ofGrammar g).states[n]?.bind fun s => s.transitions.lookup (.nonterminal l)
  reductions := g.productions.map fun p => ⟨p.lhs, p.rhs.length⟩

theorem contents_stateCount : (contents g).stateCount = (ofGrammar g).states.length := by
  simp only [contents]

theorem contents_action :
    (contents g).action n t = ((ofGrammar g).cell n t).head?.getD .error := by
  simp only [contents]

theorem contents_goto : (contents g).goto n l =
    (ofGrammar g).states[n]?.bind fun s => s.transitions.lookup (.nonterminal l) := by
  simp only [contents]

/-- There is one such table, and it is refused only for what is reported. -/
theorem exists_holds_contents (g : Grammar) : ∃ table : ParseTable, table.Holds (contents g) ∧
    g.parseTable = if Diagnostic.anyError (ofGrammar g).reports then
      .error (.conflict (ofGrammar g).reports) else .ok (table, (ofGrammar g).reports) := by
  unfold Grammar.parseTable
  refine ⟨_, ?_, rfl⟩
  refine ⟨rfl, rfl, rfl, ?_, ?_, rfl⟩
  · have hrow : ∀ s ∈ (ofGrammar g).states, (((ofGrammar g).row s).map fun c =>
        c.head?.getD .error).length = g.terminals.length := by
      intro s _
      rw [List.length_map, length_row]
      rfl
    simp only [contents, List.flatMap_map, List.map_flatMap, id_eq]
    refine (RowByRow.flatMap (d := .error) hrow).congr fun n hn t ht => ?_
    have hs := List.getElem?_eq_getElem hn
    have hrange : (List.range (ofGrammar g).grammar.terminals.length)[t]? = some t :=
      List.getElem?_range ht
    rw [hs, Option.bind_some, row_eq hs, List.getElem?_map, List.getElem?_map, hrange,
      Option.map_some, Option.map_some, Option.getD_some]
  · have hrow : ∀ s ∈ (ofGrammar g).states, ((List.range g.nonterminals.length).map fun l =>
        s.transitions.lookup (.nonterminal l)).length =
          (g.nonterminals.map Nonterminal.name).length := by
      intro s _
      rw [List.length_map, List.length_map, List.length_range]
    simp only [contents]
    refine (RowByRow.flatMap (d := none) hrow).congr fun n hn l hl => ?_
    have hs := List.getElem?_eq_getElem hn
    have hl' : l < g.nonterminals.length := by
      rwa [List.length_map] at hl
    rw [hs, Option.bind_some, Option.bind_some, List.getElem?_map, List.getElem?_range hl',
      Option.map_some, Option.getD_some]

theorem warning_of_not_anyError (h : Diagnostic.anyError ds = false) :
    ∀ d ∈ ds, d.severity = .warning := by
  intro d hd
  have hne := List.any_eq_false.1 h d hd
  cases hsev : d.severity with
  | warning => rfl
  | error =>
    rw [hsev] at hne
    exact absurd rfl hne

theorem builds_of_parseTable (h : g.parseTable = .ok (table, ds)) :
    (ofGrammar g).Builds g table ds := by
  obtain ⟨table', hholds, hparse⟩ := exists_holds_contents g
  rw [hparse] at h
  split at h
  · cases h
  · next hclean =>
    have hany : Diagnostic.anyError (ofGrammar g).reports = false := Bool.not_eq_true _ ▸ hclean
    obtain ⟨htable, hds⟩ := Prod.mk.inj (Except.ok.inj h)
    rw [← htable, ← hds]
    refine ⟨hholds.stateCount.trans contents_stateCount, fun n t => ?_, fun n l => ?_,
      fun p => ?_, fun n t ht hc => ?_, warning_of_not_anyError hany⟩
    · rw [hholds.action_eq, contents_stateCount, contents_action]
      by_cases hn : n < (ofGrammar g).states.length
      · simp only [contents, hn, true_and]
      · rw [if_neg fun hin => hn hin.1, cell, List.getElem?_eq_none (Nat.le_of_not_lt hn),
          Option.elim_none, List.head?_nil, Option.getD_none, ite_self]
    · rw [hholds.goto_eq, contents_stateCount, contents_goto]
      by_cases hn : n < (ofGrammar g).states.length
      · simp only [contents, hn, true_and, List.length_map]
      · rw [if_neg fun hin => hn hin.1, List.getElem?_eq_none (Nat.le_of_not_lt hn),
          Option.bind_none, ite_self]
    · rw [ParseTable.reduction?, ← Array.getElem?_toList, hholds.reductions]
      exact List.getElem?_map ..
    · exact ⟨_, mem_reports_iff.2 ⟨n, t, ht, hc, rfl⟩, kind_conflict _ n t _⟩

/-! ## Actions and gotos -/

theorem Builds.mem_cell_of_action (h : (ofGrammar g).Builds g table ds)
    (hact : table.action n t = act) (hne : act ≠ .error) : act ∈ (ofGrammar g).cell n t := by
  rw [h.action] at hact
  split at hact
  · cases hc : (ofGrammar g).cell n t with
    | nil =>
      rw [hc] at hact
      exact absurd hact.symm hne
    | cons b rest =>
      rw [hc] at hact
      obtain rfl : b = act := hact
      exact List.mem_cons_self
  · exact absurd hact.symm hne

theorem Builds.action_of_mem_cell (h : (ofGrammar g).Builds g table ds)
    (ht : t < g.terminals.length) (hone : ((ofGrammar g).cell n t).length ≤ 1)
    (hmem : act ∈ (ofGrammar g).cell n t) : table.action n t = act := by
  obtain ⟨b, hb⟩ : ∃ b, (ofGrammar g).cell n t = [b] :=
    List.length_eq_one_iff.1 (Nat.le_antisymm hone (List.length_pos_of_mem hmem))
  rw [hb, List.mem_singleton] at hmem
  rw [h.action, if_pos ht, hb, hmem]
  rfl

theorem Builds.goto_iff (hg : g.Ranged) (h : (ofGrammar g).Builds g table ds) :
    table.goto n l = some m ↔
      l < g.nonterminals.length ∧ (ofGrammar g).Moves n (.nonterminal l) m := by
  rw [h.goto]
  split
  · next hl =>
    rw [Option.bind_eq_some_iff]
    constructor
    · rintro ⟨s, hs, hm⟩
      exact ⟨hl, (lookup_transitions hg hs).1 hm⟩
    · rintro ⟨-, hm⟩
      obtain ⟨s, hs, -⟩ := id hm
      exact ⟨s, hs, (lookup_transitions hg hs).2 hm⟩
  · next hl => simp [hl]

theorem Builds.moves_of_shift (hg : g.Ranged) (h : (ofGrammar g).Builds g table ds)
    (hact : table.action n t = .shift m) : (ofGrammar g).Moves n (.terminal t) m := by
  have hmem := h.mem_cell_of_action hact nofun
  obtain ⟨hact', -⟩ | ⟨m', hact', hmove⟩ | ⟨p, hact', -⟩ := (mem_cell hg).1 hmem
  · cases hact'
  · obtain rfl := TableAction.shift.inj hact'
    exact hmove
  · cases hact'

theorem Builds.ends_of_reduce (hg : g.Ranged) (h : (ofGrammar g).Builds g table ds)
    (hact : table.action n t = .reduce p) :
    p ≠ (ofGrammar g).accept ∧ (ofGrammar g).Ends n p t := by
  have hmem := h.mem_cell_of_action hact nofun
  obtain ⟨hact', -⟩ | ⟨m', hact', -⟩ | ⟨p', hact', hends⟩ := (mem_cell hg).1 hmem
  · cases hact'
  · cases hact'
  · obtain rfl := TableAction.reduce.inj hact'
    exact hends

theorem Builds.ends_of_accept (hg : g.Ranged) (h : (ofGrammar g).Builds g table ds)
    (hact : table.action n t = .accept) : (ofGrammar g).Ends n (ofGrammar g).accept t := by
  have hmem := h.mem_cell_of_action hact nofun
  obtain ⟨-, hends⟩ | ⟨m, hact', -⟩ | ⟨p, hact', -⟩ := (mem_cell hg).1 hmem
  · exact hends
  · cases hact'
  · cases hact'

/-- Every reduction is that of a production. -/
theorem Builds.exists_production (h : (ofGrammar g).Builds g table ds) {reduction : Reduction}
    (hr : table.reduction? p = some reduction) : ∃ q ∈ g.productions,
      (ofGrammar g).grammar.productions[p]? = some q ∧ reduction = ⟨q.lhs, q.rhs.length⟩ := by
  rw [h.reduction, Option.map_eq_some_iff] at hr
  obtain ⟨q, hq, rfl⟩ := hr
  exact ⟨q, List.mem_of_getElem? hq,
    getElem?_grown (List.prefix_append g.productions [g.sentence]) hq, rfl⟩

theorem Builds.reduction_eq_some (h : (ofGrammar g).Builds g table ds) {q : Production}
    (hq : (ofGrammar g).grammar.productions[p]? = some q) (hne : p ≠ (ofGrammar g).accept) :
    table.reduction? p = some ⟨q.lhs, q.rhs.length⟩ := by
  rw [h.reduction, getElem?_of_ne_accept hq hne, Option.map_some]

/-! ## One candidate -/

/-- A table without reports has no cell with several candidates. -/
theorem Builds.length_cell_le_of_nil (h : (ofGrammar g).Builds g table [])
    (ht : t < g.terminals.length) : ((ofGrammar g).cell n t).length ≤ 1 := by
  by_contra hlt
  obtain ⟨d, hd, -⟩ := h.report n t ht (Nat.not_le.1 hlt)
  exact absurd hd List.not_mem_nil

/-- In the columns of actions no table has one, since a table is only built without errors. -/
theorem Builds.length_cell_le (hg : g.Ranged) (h : (ofGrammar g).Builds g table ds)
    (ht : t < g.endTerminal) : ((ofGrammar g).cell n t).length ≤ 1 := by
  by_contra hlt
  obtain ⟨d, hd, hkind⟩ :=
    h.report n t (Nat.lt_trans ht hg.endTerminal_lt) (Nat.not_le.1 hlt)
  rw [if_neg (Nat.ne_of_lt ht)] at hkind
  have hseverity := h.clean d hd
  rw [Diagnostic.severity, hkind] at hseverity
  cases hseverity

/-- So a transition on an action is shifted, whatever else the state knows. -/
theorem Builds.action_of_moves (hg : g.Ranged) (h : (ofGrammar g).Builds g table ds)
    (ht : t < g.endTerminal) (hmove : (ofGrammar g).Moves n (.terminal t) m) :
    table.action n t = .shift m := by
  have hmem := (mem_cell hg).2 (.inr (.inl ⟨m, rfl, hmove⟩))
  exact h.action_of_mem_cell (Nat.lt_trans ht hg.endTerminal_lt) (h.length_cell_le hg ht) hmem

end Analysis

end FluentGrammar
