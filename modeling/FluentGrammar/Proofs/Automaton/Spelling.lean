import FluentGrammar.Proofs.Automaton.Paths
import FluentGrammar.Proofs.Graph.Resolve
import FluentGrammar.Proofs.Lowering.Lower

/-
  What the table of a grammar spells, against the grammar. A spelled string is that of a path
  through the automaton, so whatever it derives is the beginning of a form of the start symbol
  (`reads_of_spells`). In a right-linear grammar only the end of input follows a production, so
  actions are never reduced on: the table spells just the actions, and it spells everything that
  the start symbol begins with (`spells_actions_iff`).
-/

namespace FluentGrammar.Analysis

open Report ParseTable

variable {g : Grammar} {table : ParseTable} {ds : List Diagnostic} {n m k : Nat}
  {stack : List Nat} {t : TerminalId} {w u : List TerminalId} {α β : List Symbol} {i : Item}

/-! ## Spelled strings are paths -/

/-- What is spelled from the last state of a path on makes the path longer. -/
theorem Builds.exists_path_of_spells (hg : g.WellFormed) (h : (ofGrammar g).Builds g table ds)
    (hs : table.Spells n w β k) (hpath : (ofGrammar g).Path (n :: stack) α) :
    ∃ stack', (ofGrammar g).Path (k :: stack') (α ++ β) := by
  induction hs generalizing stack α with
  | stop n =>
    rw [List.append_nil]
    exact ⟨stack, hpath⟩
  | shift hact _ ih =>
    have hmove := h.moves_of_shift hg.ranged hact
    rw [List.append_cons]
    exact ih (hpath.step hmove)
  | reduce hact hr hgoto _ ih =>
    have hmove := ((h.goto_iff hg.ranged).1 hgoto).2
    rw [List.append_cons]
    exact ih (hpath.step hmove)

/-- Whatever a string spelled from the first state derives begins a form of the start symbol. -/
theorem Builds.reads_of_spells (hg : g.WellFormed) (h : (ofGrammar g).Builds g table ds)
    (hs : table.Spells 0 w α k) (hu : g.Derives α u) :
    g.Reads .start [.nonterminal g.start] u := by
  obtain ⟨stack, hpath⟩ := h.exists_path_of_spells hg hs .start
  exact hpath.reads hg.ranged hu

/-! ## What spelled strings derive -/

/-- A reduction goes on with a nonterminal whose right-hand side the path has read last. So where
    the symbols of the path derive something, those spelled from there do too. -/
theorem Builds.derives_of_spells (hg : g.WellFormed) (h : (ofGrammar g).Builds g table ds)
    (hs : table.Spells n w β k) (hpath : (ofGrammar g).Path (n :: stack) α)
    (hα : ∀ x ∈ α, ∃ u, g.Derives [x] u) : ∀ x ∈ β, ∃ u, g.Derives [x] u := by
  induction hs generalizing stack α with
  | stop => exact fun x hx => absurd hx List.not_mem_nil
  | @shift n m k t w β hact _ ih =>
    have hx : ∃ u, g.Derives [.terminal t] u := ⟨[t], .terminal .nil⟩
    have hmove := h.moves_of_shift hg.ranged hact
    refine List.forall_mem_cons.2 ⟨hx, ih (hpath.step hmove) fun y hy => ?_⟩
    rcases List.mem_append.1 hy with hy | hy
    · exact hα y hy
    · exact List.mem_singleton.1 hy ▸ hx
  | @reduce n m k t w β p reduction hact hr hgoto _ ih =>
    obtain ⟨q, hmem, hq, rfl⟩ := h.exists_production hr
    obtain ⟨-, -, γ, -, rfl, -, -⟩ :=
      hpath.unwind_of_ends hg.ranged hq (h.ends_of_reduce hg.ranged hact).2
    have hx : ∃ u, g.Derives [.nonterminal q.lhs] u := by
      obtain ⟨u, hu⟩ := Grammar.exists_derives_of_forall
        fun x hx => hα x (List.mem_append_right γ hx)
      exact ⟨u, Grammar.derives_nonterminal_iff.2 ⟨q, hmem, rfl, hu⟩⟩
    have hmove := ((h.goto_iff hg.ranged).1 hgoto).2
    refine List.forall_mem_cons.2 ⟨hx, ih (hpath.step hmove) fun y hy => ?_⟩
    rcases List.mem_append.1 hy with hy | hy
    · exact hα y hy
    · exact List.mem_singleton.1 hy ▸ hx

theorem Builds.exists_derives_of_spells (hg : g.WellFormed)
    (h : (ofGrammar g).Builds g table ds) (hs : table.Spells 0 w α k) : ∃ u, g.Derives α u :=
  Grammar.exists_derives_of_forall
    (h.derives_of_spells hg hs .start fun _ hx => absurd hx List.not_mem_nil)

/-- What a spelled string derives has the actions in it, in their order. -/
theorem sublist_of_spells (hs : table.Spells n w α k) (hu : g.Derives α u) : w.Sublist u := by
  induction hs generalizing u with
  | stop => exact List.nil_sublist u
  | shift _ _ ih =>
    cases hu with
    | terminal hu => exact (ih hu).cons_cons _
  | reduce _ _ _ _ ih =>
    cases hu with
    | nonterminal _ _ _ hv => exact (ih hv).trans (List.sublist_append_right _ _)

/-- When the nonterminals derive nothing, the string derives the actions alone. -/
theorem derives_actions_of_spells (hs : table.Spells n w α k)
    (hempty : ∀ l, .nonterminal l ∈ α → g.Derives [.nonterminal l] []) : g.Derives α w := by
  induction hs with
  | stop => exact .nil
  | shift _ _ ih => exact .terminal (ih fun l hl => hempty l (List.mem_cons_of_mem _ hl))
  | reduce _ _ _ _ ih =>
    have hrest := ih fun l hl => hempty l (List.mem_cons_of_mem _ hl)
    exact (hempty _ List.mem_cons_self).append hrest

/-! ## Right-linear grammars -/

/-- Behind the nonterminal of a right-linear production stands nothing. -/
theorem drop_of_rightLinear {p : Production} (hp : p.RightLinear) {d : Nat} {l : NonterminalId}
    {after : List Symbol} (h : p.rhs.drop d = .nonterminal l :: after) : after = [] := by
  obtain hnil | ⟨a, m, hside⟩ := hp
  · rw [hnil, List.drop_nil] at h
    cases h
  · rw [hside] at h
    cases a with
    | none =>
      cases d with
      | zero => exact (List.cons.inj h).2.symm
      | succ d => simp [Flatten.side] at h
    | some t =>
      cases d with
      | zero => simp [Flatten.side] at h
      | succ d =>
        cases d with
        | zero => exact (List.cons.inj h).2.symm
        | succ d => simp [Flatten.side] at h

section

variable (hg : g.WellFormed) (hlinear : ∀ p ∈ g.productions, p.RightLinear)

include hlinear

theorem after_of_remaining {l : NonterminalId} {after : List Symbol}
    (hr : (ofGrammar g).remaining i = .nonterminal l :: after) : after = [] := by
  obtain ⟨q, hq⟩ := exists_of_remaining_ne_nil (i := i) (by rw [hr]; simp)
  rw [remaining_eq hq] at hr
  obtain ⟨-, hmem⟩ | ⟨-, rfl⟩ := getElem?_productions hq
  · exact drop_of_rightLinear (hlinear q hmem) hr
  · exact drop_of_rightLinear (.inr ⟨none, g.start, rfl⟩) hr

include hg

/-- Only the end of input follows a production. -/
theorem bound_of_rightLinear : (ofGrammar g).Bound fun t => t = g.endTerminal where
  lt t ht := ht ▸ hg.ranged.endTerminal_lt
  finish := rfl
  head i l after hr t ht := by
    rw [after_of_remaining hlinear hr] at ht
    exact absurd ht List.not_mem_nil

theorem eq_endTerminal_of_ends {p : ProductionId} (h : (ofGrammar g).Ends n p t) :
    t = g.endTerminal := by
  obtain ⟨i, hi, -, -⟩ := h
  exact bound_of_knows (Q := fun t => t = g.endTerminal) hg.ranged
    (bound_of_rightLinear hg hlinear) hi

/-- Nothing but the actions is spelled. -/
theorem Builds.eq_of_spells (h : (ofGrammar g).Builds g table ds)
    (hw : ∀ t ∈ w, t < g.endTerminal) (hs : table.Spells n w α k) : α = w.map .terminal := by
  induction hs with
  | stop => rfl
  | shift _ _ ih =>
    obtain ⟨-, hw⟩ := List.forall_mem_cons.1 hw
    rw [ih hw, List.map_cons]
  | reduce hact _ _ _ _ =>
    obtain ⟨ht, -⟩ := List.forall_mem_cons.1 hw
    have hend := eq_endTerminal_of_ends hg hlinear (h.ends_of_reduce hg.ranged hact).2
    exact absurd hend (Nat.ne_of_lt ht)

/-- What an item begins with is spelled from every state that knows the item. -/
theorem Builds.exists_spells_of_reads (h : (ofGrammar g).Builds g table ds)
    (hw : ∀ t ∈ w, t < g.endTerminal) (hr : g.Reads .start α w)
    (hi : (ofGrammar g).Knows n i none) (hα : (ofGrammar g).remaining i = α) :
    ∃ k, table.Spells n w (w.map .terminal) k := by
  generalize hx : Extent.start = x at hr
  induction hr generalizing n i with
  | cut => exact ⟨n, .stop n⟩
  | nil => cases hx
  | @terminal x t rest w _ ih =>
    obtain ⟨ht, hw⟩ := List.forall_mem_cons.1 hw
    have hnext := next?_eq_some_iff.2 ⟨rest, hα⟩
    obtain ⟨m, hmove⟩ := exists_moves hg.ranged hi hnext
    obtain ⟨k, hk⟩ := ih hw (knows_of_moves hg.ranged hmove hi hnext) (remaining_advance hα) hx
    exact ⟨k, .shift (h.action_of_moves hg.ranged ht hmove) hk⟩
  | @expand x l p rest w hp hl _ ih =>
    obtain rfl := after_of_remaining hlinear hα
    obtain ⟨j, hj, -⟩ := exists_getElem?_of_mem hp
    refine ih hw (knows_enter hg.ranged hi hα hj hl) ?_ hx
    rw [remaining_eq hj, List.drop_zero, List.append_nil]

/-- The table spells the actions from the first state when the start symbol begins with them. -/
theorem Builds.spells_actions_iff (h : (ofGrammar g).Builds g table ds)
    (hw : ∀ t ∈ w, t < g.endTerminal) :
    (∃ α k, table.Spells 0 w α k) ↔ g.Reads .start [.nonterminal g.start] w := by
  constructor
  · rintro ⟨α, k, hs⟩
    obtain rfl := h.eq_of_spells hg hlinear hw hs
    exact h.reads_of_spells hg hs (.terminals w)
  · intro hr
    obtain ⟨k, hk⟩ := h.exists_spells_of_reads hg hlinear hw hr
      (knows_none (knows_start hg.ranged)) (remaining_startItem g)
    exact ⟨_, k, hk⟩

end

end FluentGrammar.Analysis
