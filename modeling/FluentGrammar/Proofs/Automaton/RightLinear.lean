import FluentGrammar.Proofs.Automaton.Spelling

/-
  Tables of right-linear grammars. Only the end of input follows a production there, so no state
  reduces on an action and none accepts on one: a cell in the column of an action has at most the
  shift (`length_cell_le_of_rightLinear`). Hence such a grammar has a table, whatever else is said
  of the end of input (`exists_parseTable_of_rightLinear`), its columns of actions hold shifts and
  errors (`Builds.action_of_rightLinear`), and no chain of reductions is longer than nothing, so
  the table has a graph (`exists_graph_of_columns`).
-/

namespace FluentGrammar

open Report

namespace Analysis

variable {g : Grammar} {table : ParseTable} {ds : List Diagnostic} {n : Nat} {t : TerminalId}

section

variable (hg : g.WellFormed) (hlinear : ∀ p ∈ g.productions, p.RightLinear)

include hg hlinear

/-- A cell in the column of an action has nothing but shifts. -/
theorem eq_shift_of_mem_cell (ht : t ≠ g.endTerminal) {act : TableAction}
    (hact : act ∈ (ofGrammar g).cell n t) : ∃ m, act = .shift m := by
  obtain ⟨-, hends⟩ | ⟨m, rfl, -⟩ | ⟨p, -, -, hends⟩ := (mem_cell hg.ranged).1 hact
  · exact absurd (eq_endTerminal_of_ends hg hlinear hends) ht
  · exact ⟨m, rfl⟩
  · exact absurd (eq_endTerminal_of_ends hg hlinear hends) ht

/-- It has at most one, that of the transition. -/
theorem length_cell_le_of_rightLinear (ht : t ≠ g.endTerminal) :
    ((ofGrammar g).cell n t).length ≤ 1 := by
  cases hs : (ofGrammar g).states[n]? with
  | none =>
    rw [cell, hs]
    exact Nat.zero_le 1
  | some s =>
    have hnone : (ofGrammar g).completed ((ofGrammar g).closure s.kernel) t = [] := by
      rw [List.eq_nil_iff_forall_not_mem]
      intro p hp
      exact ht (eq_endTerminal_of_ends hg hlinear ((mem_completed hg.ranged hs).1 hp))
    rw [cell, hs, Option.elim_some, candidates, hnone]
    cases s.transitions.lookup (.terminal t) <;> simp

/-- Every report is on the end of input. -/
theorem kind_of_mem_reports {d : Diagnostic} (hd : d ∈ (ofGrammar g).reports) :
    d.kind = .endConflict := by
  obtain ⟨n, t, -, hlength, heq⟩ := mem_reports_iff.1 hd
  have hend : t = g.endTerminal := by
    by_contra hne
    exact absurd (length_cell_le_of_rightLinear hg hlinear hne) (Nat.not_le.2 hlength)
  rw [heq, kind_conflict]
  exact if_pos hend

/-- So a right-linear grammar has a table. -/
theorem exists_parseTable_of_rightLinear : ∃ table ds, g.parseTable = .ok (table, ds) := by
  have hquiet : Diagnostic.anyError (ofGrammar g).reports = false := by
    rw [Diagnostic.anyError, List.any_eq_false]
    intro d hd
    rw [Diagnostic.severity, kind_of_mem_reports hg hlinear hd]
    decide
  obtain ⟨table, -, hparse⟩ := exists_holds_contents g
  rw [hparse, hquiet]
  exact ⟨_, _, rfl⟩

/-- Outside the column of the end of input the table shifts or has nothing. -/
theorem Builds.action_of_rightLinear (h : (ofGrammar g).Builds g table ds)
    (ht : t ≠ g.endTerminal) :
    table.action n t = .error ∨ ∃ m, table.action n t = .shift m := by
  by_cases hne : table.action n t = .error
  · exact .inl hne
  · exact .inr (eq_shift_of_mem_cell hg hlinear ht (h.mem_cell_of_action rfl hne))

end

end Analysis

namespace ParseTable

variable {t : ParseTable} {terminals : List TerminalId}

/-- A table that only shifts on some terminals has a graph over them. -/
theorem exists_graph_of_columns
    (h : ∀ n, ∀ a ∈ terminals, t.action n a = .error ∨ ∃ m, t.action n a = .shift m) :
    ∃ g, t.graph terminals = .ok g := by
  have hedge : ∀ n, ∀ a ∈ OrderedSet.union terminals [], ∃ e, t.edge? n a = .ok e := by
    intro n a ha
    have hmem : a ∈ terminals := by simpa using ha
    rw [edge?, follow]
    obtain hact | ⟨m, hact⟩ := h n a hmem <;> rw [hact] <;> exact ⟨_, rfl⟩
  have hnode : ∀ n, ∃ node, t.node (OrderedSet.union terminals []) n = .ok node := by
    intro n
    obtain ⟨edges, hedges⟩ := exists_mapM_eq_ok (hedge n)
    rw [node, hedges]
    exact ⟨_, rfl⟩
  have hnodes : ∃ nodes,
      (List.range t.stateCount).mapM (t.node (OrderedSet.union terminals [])) = .ok nodes :=
    exists_mapM_eq_ok fun n _ => hnode n
  obtain ⟨nodes, hnodes⟩ := hnodes
  rw [graph, hnodes]
  exact ⟨_, rfl⟩

end ParseTable

end FluentGrammar
