import FluentGrammar.Proofs.Automaton.Driver

/-
  Grammars whose table has nothing to report are unambiguous. Where every cell has one candidate,
  the driver takes the turns of a tree of a sentence and stops behind them. It has no choice, so
  two trees of one sentence have the same turns, and then they are the same tree.
-/

namespace FluentGrammar

open ParseTable Analysis

/-- Runs from one configuration to where nothing is left to do take the same turns. -/
theorem ParseTable.Takes.log_unique {t : ParseTable} {c c' c'' : Config} {log log' : List Turn}
    {verdict verdict' : Bool} (h : t.Takes c log c') (hstop : t.step c' = .inr verdict)
    (h' : t.Takes c log' c'') (hstop' : t.step c'' = .inr verdict') : log = log' := by
  obtain ⟨more, rfl, hmore⟩ | ⟨more, rfl, hmore⟩ := h.goes_on h'
  · rw [hmore.eq_nil_of_stop hstop, List.append_nil]
  · rw [hmore.eq_nil_of_stop hstop', List.append_nil]

namespace Grammar

/-- A grammar whose table is built with nothing to report is unambiguous: no sequence of actions
    has two derivation trees from the start symbol, and those that it derives have one. -/
theorem parseTable_unambiguous {g : Grammar} (hg : g.WellFormed) {table : ParseTable}
    (h : g.parseTable = .ok (table, [])) (w : List TerminalId) :
    (∀ T T', g.Parses [.nonterminal g.start] [T] w → g.Parses [.nonterminal g.start] [T'] w →
        T = T') ∧
      (g.Derives [.nonterminal g.start] w ↔ ∃ T, g.Parses [.nonterminal g.start] [T] w) := by
  have hb := builds_of_parseTable h
  have hone : ∀ n t, t < g.terminals.length → ((ofGrammar g).cell n t).length ≤ 1 :=
    fun n t ht => hb.length_cell_le_of_nil ht
  constructor
  · intro T T' hT hT'
    obtain ⟨c, htakes, hstop⟩ := hb.takes_sentence hg hone hT
    obtain ⟨c', htakes', hstop'⟩ := hb.takes_sentence hg hone hT'
    have hturns := htakes.log_unique hstop htakes' hstop'
    exact (List.cons.inj (eq_of_turns_eq hT hT' hturns)).1
  · constructor
    · intro hw
      obtain ⟨ts, hts⟩ := derives_iff_parses.1 hw
      obtain ⟨T, rfl⟩ := List.length_eq_one_iff.1 hts.length_eq
      exact ⟨T, hts⟩
    · rintro ⟨T, hT⟩
      exact hT.derives

theorem exists_nested_unambiguous : ∃ table, nested.parseTable = .ok (table, []) ∧
    ∃! T, nested.Parses [.nonterminal 0] [T] [0, 0, 1, 1] := by
  obtain ⟨⟨table, ds⟩, h⟩ := exists_eq_ok
    (show nested.parseTable.toOption.isSome = true by with_unfolding_all rfl)
  have hds : (nested.parseTable.toOption.map (·.2)) = some [] := by with_unfolding_all rfl
  rw [h] at hds
  obtain rfl : ds = [] := Option.some.inj hds
  obtain ⟨hunique, hiff⟩ := parseTable_unambiguous wellFormed_nested h [0, 0, 1, 1]
  obtain ⟨T, hT⟩ := hiff.1 derives_nested
  exact ⟨table, h, T, hT, fun T' hT' => hunique T' T hT' hT⟩

end Grammar

end FluentGrammar
