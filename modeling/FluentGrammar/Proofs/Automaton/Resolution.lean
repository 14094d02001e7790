import FluentGrammar.Proofs.Automaton.Filling
import Mathlib.Order.Bounds.Basic

/-
  Conflicts and how they are resolved. A table is refused just when some state has a choice on an
  action. In a table that is not refused, a cell of an action holds the one candidate that there is,
  the cell of the end of input holds acceptance or else the lowest reduction, and one warning is
  given for every state that has a choice there. Whatever such a table refers to exists: targets of
  shifts and gotos are states other than the first, reductions are those of productions, acceptance
  is on the end of input only, and no shift is (`build_resolves`).
-/

namespace FluentGrammar

open Report Analysis

/-- The table holds what is left of the candidates of the automaton, the reports name the choices
    made, and all that the table refers to exists. -/
structure Grammar.Resolves (g : Grammar) (table : ParseTable) (ds : List Diagnostic) : Prop where
  stateCount : table.stateCount = (ofGrammar g).states.length
  chosen : ∀ n t, table.action n t = .error ∨ (ofGrammar g).Candidate n t (table.action n t)
  only : ∀ n t act, t < g.endTerminal → (ofGrammar g).Candidate n t act → table.action n t = act
  accepted : ∀ n, (ofGrammar g).Candidate n g.endTerminal .accept →
    table.action n g.endTerminal = .accept
  lowest : ∀ n p, ¬(ofGrammar g).Candidate n g.endTerminal .accept →
    IsLeast {p | (ofGrammar g).Candidate n g.endTerminal (.reduce p)} p →
      table.action n g.endTerminal = .reduce p
  warnings : ∃ ns : List StateId, ns.Pairwise (· < ·) ∧
    (∀ n, n ∈ ns ↔ (ofGrammar g).Contested n g.endTerminal) ∧
    ds = ns.map fun n => (ofGrammar g).conflict n g.endTerminal ((ofGrammar g).cell n g.endTerminal)
  kinds : ∀ d ∈ ds, d.kind = .endConflict
  shift : ∀ n t m, table.action n t = .shift m →
    t < g.endTerminal ∧ 0 < m ∧ m < table.stateCount
  goto : ∀ n l m, table.goto n l = some m → 0 < m ∧ m < table.stateCount
  reduce : ∀ n t r, table.action n t = .reduce r → ∃ p, g.productions[r]? = some p ∧
    table.reduction? r = some ⟨p.lhs, p.rhs.length⟩
  acceptance : ∀ n t, table.action n t = .accept → t = g.endTerminal

namespace Analysis

variable {g : Grammar} {table : ParseTable} {ds : List Diagnostic} {n : StateId} {t : TerminalId}
  {p : ProductionId} {act : TableAction}

/-! ## Refused tables -/

theorem lt_endTerminal_of_ne (ht : t < g.terminals.length) (hne : t ≠ g.endTerminal) :
    t < g.endTerminal :=
  Nat.lt_of_le_of_ne (Nat.le_sub_one_of_lt ht) hne

/-- An error is reported just when there is a choice on an action. -/
theorem anyError_reports_iff (hg : g.WellFormed) :
    Diagnostic.anyError (ofGrammar g).reports = true ↔
      ∃ n t, t < g.endTerminal ∧ (ofGrammar g).Contested n t := by
  have hseverity (n : StateId) (t : TerminalId) (c : List TableAction) :
      ((ofGrammar g).conflict n t c).severity = .error ↔ t ≠ g.endTerminal := by
    rw [Diagnostic.severity, kind_conflict]
    show (if t = g.endTerminal then Kind.endConflict else .grammarConflict).severity = _ ↔ _
    split
    · next heq => simp [Kind.severity, heq]
    · next hne => simp [Kind.severity, hne]
  rw [Diagnostic.anyError, List.any_eq_true]
  constructor
  · intro h
    obtain ⟨d, hd, herror⟩ := h
    obtain ⟨n, t, ht, hlength, heq⟩ := mem_reports_iff.1 hd
    rw [heq, beq_iff_eq] at herror
    have hne := (hseverity n t _).1 herror
    exact ⟨n, t, lt_endTerminal_of_ne ht hne, (contested_iff hg.ranged).2 hlength⟩
  · intro h
    obtain ⟨n, t, ht, hcontested⟩ := h
    have ht' := Nat.lt_trans ht hg.ranged.endTerminal_lt
    refine ⟨_, mem_reports_iff.2 ⟨n, t, ht', (contested_iff hg.ranged).1 hcontested, rfl⟩, ?_⟩
    exact beq_iff_eq.2 ((hseverity n t _).2 (Nat.ne_of_lt ht))

/-- A table is refused for choices on actions only, and always for these. -/
theorem parseTable_eq_error_iff (hg : g.WellFormed) :
    (∃ ds, g.parseTable = .error (.conflict ds)) ↔
      ∃ n t, t < g.endTerminal ∧ (ofGrammar g).Contested n t := by
  obtain ⟨table, -, hparse⟩ := exists_holds_contents g
  rw [← anyError_reports_iff hg, hparse]
  split
  · next herror => exact iff_of_true ⟨_, rfl⟩ herror
  · next herror => exact iff_of_false (fun ⟨_, h⟩ => nomatch h) herror

theorem reports_of_parseTable (h : g.parseTable = .ok (table, ds)) :
    ds = (ofGrammar g).reports := by
  obtain ⟨table', -, hparse⟩ := exists_holds_contents g
  rw [hparse] at h
  split at h
  · cases h
  · exact (Prod.mk.inj (Except.ok.inj h)).2.symm

/-! ## Cells -/

theorem Builds.candidate_of_action (hg : g.WellFormed) (h : (ofGrammar g).Builds g table ds)
    (hact : table.action n t ≠ .error) : (ofGrammar g).Candidate n t (table.action n t) :=
  (mem_cell_iff hg.ranged).1 (h.mem_cell_of_action rfl hact)

/-- On the end of input the first of the candidates is taken. -/
theorem Builds.action_endTerminal (hg : g.WellFormed) (h : (ofGrammar g).Builds g table ds)
    (hact : (ofGrammar g).Candidate n g.endTerminal act) :
    (ofGrammar g).Candidate n g.endTerminal (table.action n g.endTerminal) ∧
      (act = table.action n g.endTerminal ∨
        (table.action n g.endTerminal).before act = true) := by
  obtain ⟨b, hb, hcand, hfirst⟩ := exists_first_of_candidate hg.ranged hact
  rw [h.action, if_pos hg.ranged.endTerminal_lt, hb]
  exact ⟨hcand, hfirst act hact⟩

theorem Builds.action_of_accept (hg : g.WellFormed) (h : (ofGrammar g).Builds g table ds)
    (hact : (ofGrammar g).Candidate n g.endTerminal .accept) :
    table.action n g.endTerminal = .accept := by
  obtain ⟨-, heq | hbefore⟩ := h.action_endTerminal hg hact
  · exact heq.symm
  · -- Nothing is before acceptance.
    rw [TableAction.before_iff] at hbefore
    simp [TableAction.rank] at hbefore

theorem Builds.action_of_isLeast (hg : g.WellFormed) (h : (ofGrammar g).Builds g table ds)
    (haccept : ¬(ofGrammar g).Candidate n g.endTerminal .accept)
    (hp : IsLeast {p | (ofGrammar g).Candidate n g.endTerminal (.reduce p)} p) :
    table.action n g.endTerminal = .reduce p := by
  obtain ⟨hcand, hfirst⟩ := h.action_endTerminal hg hp.1
  rcases hfirst with heq | hbefore
  · exact heq.symm
  · generalize table.action n g.endTerminal = b at hcand hbefore
    cases id hcand with
    | accept _ => exact absurd hcand haccept
    | shift hmove => exact absurd (lt_endTerminal_of_moves hg hmove) (Nat.lt_irrefl _)
    | @reduce q _ _ =>
      -- A reduction before that of `p` would be of a lower production.
      have hle : p ≤ q := hp.2 hcand
      rw [TableAction.before_iff] at hbefore
      have hlt : q < p := by simpa [TableAction.rank] using hbefore
      exact absurd hlt (Nat.not_lt.2 hle)

/-! ## Warnings -/

/-- The reports on a table that is built: one for every state with a choice on the end of input. -/
theorem exists_warnings (hg : g.WellFormed) (h : g.parseTable = .ok (table, ds)) :
    ∃ ns : List StateId, ns.Pairwise (· < ·) ∧
      (∀ n, n ∈ ns ↔ (ofGrammar g).Contested n g.endTerminal) ∧
      ds = ns.map fun n =>
        (ofGrammar g).conflict n g.endTerminal ((ofGrammar g).cell n g.endTerminal) := by
  have hbuilds := builds_of_parseTable h
  have hrow (n : StateId) : (List.range g.terminals.length).filterMap ((ofGrammar g).report? n) =
      ((ofGrammar g).report? n g.endTerminal).toList := by
    rw [← List.flatMap_singleton fun t => ((ofGrammar g).report? n t).toList,
      ← List.filterMap_eq_flatMap_toList]
    refine filterMap_range_eq (List.pairwise_singleton _ _) (fun t ht => ?_) fun t hreport ht => ?_
    · rw [List.mem_singleton.1 ht]
      exact hg.ranged.endTerminal_lt
    · rw [List.mem_singleton]
      by_contra hne
      have hlength : ((ofGrammar g).cell n t).length ≤ 1 :=
        hbuilds.length_cell_le hg.ranged (lt_endTerminal_of_ne ht hne)
      exact hreport (if_neg (Nat.not_lt.2 hlength))
  refine ⟨(List.range (ofGrammar g).states.length).filter fun n =>
    1 < ((ofGrammar g).cell n g.endTerminal).length, List.pairwise_lt_range.filter _, ?_, ?_⟩
  · intro n
    rw [List.mem_filter, List.mem_range, decide_eq_true_iff, contested_iff hg.ranged]
    exact ⟨And.right, fun hlength => ⟨lt_of_length_cell (Nat.zero_lt_of_lt hlength), hlength⟩⟩
  · have hstates : (ofGrammar g).reports = (List.range (ofGrammar g).states.length).filterMap
        fun n => (ofGrammar g).report? n g.endTerminal := by
      rw [reports_eq, List.filterMap_eq_flatMap_toList]
      exact congrArg (List.flatMap · _) (funext hrow)
    rw [reports_of_parseTable h, hstates]
    exact filterMap_ite_some _ _ _

/-! ## References -/

theorem Builds.exists_reduction (hg : g.WellFormed) (h : (ofGrammar g).Builds g table ds)
    (hact : table.action n t = .reduce p) : ∃ q, g.productions[p]? = some q ∧
      table.reduction? p = some ⟨q.lhs, q.rhs.length⟩ := by
  obtain ⟨hne, i, hi, -, rfl⟩ := h.ends_of_reduce hg.ranged hact
  obtain ⟨s, hs, hhas⟩ := knows_none hi
  obtain ⟨q, hq, -⟩ := occurs_of_has hg.ranged hs hhas
  exact ⟨q, getElem?_of_ne_accept hq hne, h.reduction_eq_some hq hne⟩

theorem Builds.target_of_moves (hg : g.WellFormed) (h : (ofGrammar g).Builds g table ds)
    {x : Symbol} {m : StateId} (hmove : (ofGrammar g).Moves n x m) :
    0 < m ∧ m < table.stateCount :=
  ⟨pos_of_moves hg.ranged hmove, h.stateCount ▸ moves_lt hg.ranged hmove⟩

end Analysis

namespace Grammar

variable {g : Grammar} {table : ParseTable} {ds : List Diagnostic}

theorem resolves_of_parseTable (hg : g.WellFormed) (h : g.parseTable = .ok (table, ds)) :
    g.Resolves table ds := by
  have hbuilds := builds_of_parseTable h
  obtain ⟨ns, hordered, hns, hds⟩ := exists_warnings hg h
  refine ⟨hbuilds.stateCount, fun n t => ?_, fun n t act ht hact => ?_,
    fun n => hbuilds.action_of_accept hg, fun n p => hbuilds.action_of_isLeast hg,
    ⟨ns, hordered, hns, hds⟩, fun d hd => ?_, fun n t m hact => ?_, fun n l m hgoto => ?_,
    fun n t r => hbuilds.exists_reduction hg, fun n t hact => ?_⟩
  · by_cases hact : table.action n t = .error
    · exact .inl hact
    · exact .inr (hbuilds.candidate_of_action hg hact)
  · exact hbuilds.action_of_mem_cell (Nat.lt_trans ht hg.ranged.endTerminal_lt)
      (hbuilds.length_cell_le hg.ranged ht) ((mem_cell_iff hg.ranged).2 hact)
  · rw [hds] at hd
    obtain ⟨n, -, rfl⟩ := List.mem_map.1 hd
    exact (kind_conflict _ n g.endTerminal _).trans (if_pos rfl)
  · have hmove := hbuilds.moves_of_shift hg.ranged hact
    exact ⟨lt_endTerminal_of_moves hg hmove, hbuilds.target_of_moves hg hmove⟩
  · exact hbuilds.target_of_moves hg ((hbuilds.goto_iff hg.ranged).1 hgoto).2
  · obtain ⟨i, hi, -, haccept⟩ := hbuilds.ends_of_accept hg.ranged hact
    exact eq_endTerminal_of_knows hg.ranged hi haccept

/-- Building the table of a grammar in range finds every number that it looks up and ends. It fails
    just when some state has a choice on an action, and otherwise the table and its warnings are
    what the candidates say. -/
theorem build_resolves (hg : g.WellFormed) :
    g.build? = some g.parseTable ∧
    ((∃ ds, g.parseTable = .error (.conflict ds)) ↔
      ∃ n t, t < g.endTerminal ∧ (ofGrammar g).Contested n t) ∧
    (∀ e, g.parseTable = .error e → ∃ ds, e = .conflict ds) ∧
    ∀ table ds, g.parseTable = .ok (table, ds) → g.Resolves table ds := by
  refine ⟨build?_eq hg, parseTable_eq_error_iff hg, fun e he => ?_,
    fun table ds => resolves_of_parseTable hg⟩
  obtain ⟨table, -, hparse⟩ := exists_holds_contents g
  rw [hparse] at he
  split at he
  · exact ⟨_, (Except.error.inj he).symm⟩
  · cases he

/-- One action that is read in two ways, `s → x | y`, `x → A` and `y → A`. -/
def twofold : Grammar where
  terminals := ["A", "$end"]
  nonterminals := [⟨"s", default⟩, ⟨"x", default⟩, ⟨"y", default⟩]
  productions := [⟨0, [.nonterminal 1], default⟩, ⟨0, [.nonterminal 2], default⟩,
    ⟨1, [.terminal 0], default⟩, ⟨2, [.terminal 0], default⟩]
  start := 0

theorem wellFormed_twofold : twofold.WellFormed where
  terminals := by decide
  start := by decide
  lhs := by decide
  nonterminals p hp n hn := by
    simp only [twofold, List.mem_cons, List.not_mem_nil, or_false] at hp
    rcases hp with rfl | rfl | rfl | rfl
    · obtain rfl : n = 1 := by simpa using hn
      decide
    · obtain rfl : n = 2 := by simpa using hn
      decide
    · simp at hn
    · simp at hn
  actions p hp t ht := by
    simp only [twofold, List.mem_cons, List.not_mem_nil, or_false] at hp
    rcases hp with rfl | rfl | rfl | rfl
    · simp at ht
    · simp at ht
    · obtain rfl : t = 0 := by simpa using ht
      decide
    · obtain rfl : t = 0 := by simpa using ht
      decide

/-- The lower production is taken at the end of input, with one warning. -/
theorem exists_build_twofold : ∃ table d, twofold.build? = some (.ok (table, [d])) ∧
    twofold.Resolves table [d] ∧ (ofGrammar twofold).Contested 1 twofold.endTerminal ∧
    table.action 1 twofold.endTerminal = .reduce 2 := by
  have hdecided : (twofold.parseTable.toOption.map fun r =>
      (r.2.length, r.1.action 1 twofold.endTerminal)) = some (1, .reduce 2) := by decide +kernel
  obtain ⟨⟨table, ds⟩, h, hdecided⟩ := exists_eq_ok_of_map hdecided
  obtain ⟨hlength, hact⟩ := Prod.mk.inj hdecided
  obtain ⟨d, rfl⟩ := List.length_eq_one_iff.1 hlength
  have hcell : 1 < ((ofGrammar twofold).cell 1 twofold.endTerminal).length := by decide +kernel
  obtain ⟨hbuild, -, -, hresolves⟩ := build_resolves wellFormed_twofold
  exact ⟨table, d, hbuild.trans (congrArg some h), hresolves table [d] h,
    (contested_iff wellFormed_twofold.ranged).2 hcell, hact⟩

end Grammar

end FluentGrammar
