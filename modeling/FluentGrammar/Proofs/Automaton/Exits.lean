import FluentGrammar.Proofs.Automaton.Driver
import FluentGrammar.Proofs.Automaton.Follow

/-
  What happens behind a production that has been read, when an action may follow it. A terminal
  follows an item for a reason, and the reason is a run of the driver that reads it: for some
  stack, the driver goes on behind the item and reads the action (`exists_exit`). It does so with
  what tables are always built with, one candidate in the columns of actions. So the driver is not
  caught in a loop there, and two derivations of one sequence of actions from the right-hand side
  of the production are the same (`eq_of_parses`), although the state may not be one that a
  sentence leads to, and although cells on the end of input may have several candidates.
-/

namespace FluentGrammar

namespace ParseTable

variable {t : ParseTable} {c c' d : Config} {log loop : List Turn}

theorem Takes.length_input_le (h : t.Takes c log c') : c'.input.length ≤ c.input.length := by
  induction h with
  | stop => exact Nat.le_refl _
  | read _ _ ih => exact Nat.le_succ_of_le ih
  | reduce _ _ _ _ _ ih => exact ih

/-- Whatever the driver gets to from a loop is on the loop. -/
theorem Takes.comes_back (hloop : t.Takes d loop d) (hne : loop ≠ []) (h : t.Takes d log c) :
    ∃ more, t.Takes c more d := by
  generalize hsize : log.length = size
  induction size using Nat.strong_induction_on generalizing log with
  | _ size ih =>
    obtain ⟨more, rfl, hmore⟩ | ⟨more, -, hmore⟩ := hloop.goes_on h
    · have hpos : 0 < loop.length := List.length_pos_iff.2 hne
      rw [List.length_append] at hsize
      exact ih more.length (by omega) hmore rfl
    · exact ⟨more, hmore⟩

end ParseTable

namespace Analysis

open ParseTable Report

variable {g : Grammar} {table : ParseTable} {ds : List Diagnostic} {n m k : Nat} {i : Item}
  {t : TerminalId} {l : NonterminalId} {p : ProductionId} {q : Production} {α : List Symbol}
  {u : List TerminalId} {stack below : List Nat}

/-- At `m`, on top of `below`, the driver has read what was left of an item at `n`, on top of
    `stack`, and `t` may follow the item. -/
structure Behind (g : Grammar) (n : Nat) (stack : List Nat) (i : Item) (t : TerminalId) (m : Nat)
    (below : List Nat) : Prop where
  drop : (m :: below).drop ((ofGrammar g).remaining i).length = n :: stack
  knows : (ofGrammar g).Knows m
    ⟨i.production, i.dot + ((ofGrammar g).remaining i).length⟩ (some t)

/-- Behind what an item has left after a symbol, the driver is behind the item. -/
theorem Behind.of_advance {x : Symbol} (hr : (ofGrammar g).remaining i = x :: α)
    (hb : Behind g k (n :: stack) i.advance t m below) : Behind g n stack i t m below := by
  obtain ⟨hdrop, hm⟩ := hb
  rw [remaining_advance hr] at hdrop hm
  refine ⟨?_, ?_⟩
  · rw [hr, List.length_cons, ← List.drop_drop, hdrop]
    rfl
  · have hend : i.advance.dot + α.length = i.dot + ((ofGrammar g).remaining i).length := by
      rw [hr, List.length_cons]
      show i.dot + 1 + α.length = i.dot + (α.length + 1)
      omega
    rwa [hend] at hm

theorem Builds.takes_behind (hg : g.WellFormed) (h : (ofGrammar g).Builds g table ds)
    {ts : List Tree} (hts : g.Parses ((ofGrammar g).remaining i) ts u)
    (hone : ∀ n, ∀ c ∈ u ++ [t], ((ofGrammar g).cell n c).length ≤ 1)
    (hi : (ofGrammar g).Knows n i (some t)) (stack : List Nat) (z : List TerminalId) :
    ∃ m below, table.Takes ⟨n :: stack, u ++ t :: z⟩ (Tree.turnsOfAll ts) ⟨m :: below, t :: z⟩ ∧
      Behind g n stack i t m below := by
  obtain ⟨m, below, htakes, hdrop, hm⟩ := h.takes_symbols hg hts n stack i t z hone hi rfl
  exact ⟨m, below, htakes, hdrop, hm⟩

/-- Behind a production, the driver reduces it. -/
theorem Builds.reduces (hg : g.WellFormed) (h : (ofGrammar g).Builds g table ds)
    (hone : ((ofGrammar g).cell m t).length ≤ 1) (ht : t < g.terminals.length)
    (hq : (ofGrammar g).grammar.productions[p]? = some q) (hne : p ≠ (ofGrammar g).accept)
    (hmove : (ofGrammar g).Moves n (.nonterminal q.lhs) k)
    (hb : Behind g n stack ⟨p, 0⟩ t m below) (z : List TerminalId) :
    table.Takes ⟨m :: below, t :: z⟩ [.reduce p] ⟨k :: n :: stack, t :: z⟩ := by
  obtain ⟨hdrop, hm⟩ := hb
  rw [remaining_eq hq, List.drop_zero] at hdrop hm
  exact h.takes_reduce hg hone ht hq hne (ends_of_knows hq hm) hdrop hmove z

/-- A nonterminal is read when what comes behind it may follow its productions. -/
theorem Builds.takes_nonterminal (hg : g.WellFormed) (h : (ofGrammar g).Builds g table ds)
    {T : Tree} (hT : g.Parses [.nonterminal l] [T] u)
    (hone : ∀ n, ∀ c ∈ u ++ [t], ((ofGrammar g).cell n c).length ≤ 1)
    (hahead : ∀ p q, (ofGrammar g).grammar.productions[p]? = some q → q.lhs = l →
      (ofGrammar g).Knows n ⟨p, 0⟩ (some t))
    (hmove : (ofGrammar g).Moves n (.nonterminal l) k) (stack : List Nat) (z : List TerminalId) :
    table.Takes ⟨n :: stack, u ++ t :: z⟩ T.turns ⟨k :: n :: stack, t :: z⟩ := by
  cases hT with
  | @nonterminal _ p q _ cs _ u v hp hl hcs hv =>
    cases hv
    rw [List.append_nil] at hone ⊢
    obtain ⟨hq, hne⟩ := getElem?_of_productions hp
    have hknows := hahead p q hq hl
    rw [← List.drop_zero (l := q.rhs), ← remaining_eq hq 0] at hcs
    obtain ⟨m, below, htakes, hb⟩ := h.takes_behind hg hcs hone hknows stack z
    have hlt : t < g.terminals.length :=
      bound_of_knows (Q := fun t => t < g.terminals.length) hg.ranged (bound_lt hg.ranged) hknows
    have hlast : t ∈ u ++ [t] := List.mem_append_right _ (List.mem_singleton_self t)
    exact htakes.trans (h.reduces hg (hone m t hlast) hlt hq hne (hl ▸ hmove) hb z)

/-- A production with something that may follow it stands in front of its nonterminal. -/
theorem Follows.exists_moves (hg : g.WellFormed) (hf : Follows g n ⟨p, 0⟩ t)
    (hq : (ofGrammar g).grammar.productions[p]? = some q) (hne : p ≠ (ofGrammar g).accept) :
    ∃ k, (ofGrammar g).Moves n (.nonterminal q.lhs) k := by
  generalize hi : (⟨p, 0⟩ : Item) = i at hf
  cases hf with
  | finish => exact absurd (congrArg Item.production hi) hne
  | head hj hr hq' hl _ =>
    obtain rfl := congrArg Item.production hi
    obtain rfl := Option.some.inj (hq.symm.trans hq')
    exact Analysis.exists_moves hg.ranged hj (next?_eq_some_iff.2 ⟨_, hl ▸ hr⟩)
  | pass hj hr hq' hl _ =>
    obtain rfl := congrArg Item.production hi
    obtain rfl := Option.some.inj (hq.symm.trans hq')
    exact Analysis.exists_moves hg.ranged (knows_none (hj.knows hg.ranged))
      (next?_eq_some_iff.2 ⟨_, hl ▸ hr⟩)
  | move => cases congrArg Item.dot hi

section

variable (hg : g.WellFormed) (h : (ofGrammar g).Builds g table ds) (ht : t < g.endTerminal)

include hg h ht

theorem Builds.length_cell_le_of_empty :
    ∀ n, ∀ c ∈ ([] : List TerminalId) ++ [t], ((ofGrammar g).cell n c).length ≤ 1 := by
  intro n c hc
  rw [List.mem_singleton.1 hc]
  exact h.length_cell_le hg.ranged ht

/-- An action at the front of what an item has to read is read. -/
theorem Builds.reads_of_heads (hα : g.Heads t α) (hi : (ofGrammar g).Knows n i none)
    (hr : (ofGrammar g).remaining i = α) (stack : List Nat) (z : List TerminalId) :
    ∃ log c, table.Takes ⟨n :: stack, t :: z⟩ log c ∧ c.input = z := by
  induction hα generalizing n i stack with
  | terminal rest =>
    obtain ⟨k, hk⟩ := exists_moves hg.ranged hi (next?_eq_some_iff.2 ⟨rest, hr⟩)
    exact ⟨_, _, h.takes_read hg ht hk stack z, rfl⟩
  | expand rest hq hl _ ih =>
    obtain ⟨p, hp⟩ := List.mem_iff_getElem?.1 hq
    have hown := (getElem?_of_productions hp).1
    exact ih (knows_enter hg.ranged hi hr hown hl) (remaining_eq hown 0) stack
  | @skip l rest hempty hrest ih =>
    have hx := next?_eq_some_iff.2 ⟨rest, hr⟩
    obtain ⟨k, hk⟩ := exists_moves hg.ranged hi hx
    obtain ⟨T, hts⟩ := Grammar.exists_tree hempty
    have hover := h.takes_nonterminal hg hts (h.length_cell_le_of_empty hg ht)
      (fun p q hq hl => knows_head hg.ranged hi hr hq hl hrest) hk stack z
    obtain ⟨log, c, htakes, hc⟩ := ih (knows_of_moves hg.ranged hk hi hx) (remaining_advance hr)
      (n :: stack)
    exact ⟨_, c, hover.trans htakes, hc⟩

/-- Behind a production of the nonterminal that comes next in an item, the driver gets behind the
    nonterminal. -/
theorem Builds.exists_reduces (hi : (ofGrammar g).Knows n i none)
    (hr : (ofGrammar g).remaining i = .nonterminal l :: α)
    (hq : (ofGrammar g).grammar.productions[p]? = some q) (hl : q.lhs = l)
    (hb : Behind g n stack ⟨p, 0⟩ t m below) (z : List TerminalId) :
    ∃ k, (ofGrammar g).Moves n (.nonterminal l) k ∧
      table.Takes ⟨m :: below, t :: z⟩ [.reduce p] ⟨k :: n :: stack, t :: z⟩ := by
  obtain ⟨k, hk⟩ := exists_moves hg.ranged hi (next?_eq_some_iff.2 ⟨α, hr⟩)
  have hlt : t < g.terminals.length := Nat.lt_trans ht hg.ranged.endTerminal_lt
  have hne := (mem_productions_of_next hg.ranged hr hq hl).2
  exact ⟨k, hk, h.reduces hg (h.length_cell_le hg.ranged ht) hlt hq hne (hl ▸ hk) hb z⟩

/-- For some stack, the driver reads the action that may follow an item when it is behind the
    item. -/
theorem Builds.exists_exit (hf : Follows g n i t) : ∃ stack, ∀ z m below,
    Behind g n stack i t m below →
      ∃ log c, table.Takes ⟨m :: below, t :: z⟩ log c ∧ c.input = z := by
  induction hf with
  | finish => exact absurd ht (Nat.lt_irrefl _)
  | head hj hr hq hl hheads =>
    refine ⟨[], fun z m below hb => ?_⟩
    obtain ⟨k, hk, hreduce⟩ := h.exists_reduces hg ht hj hr hq hl hb z
    have hadvance := knows_of_moves hg.ranged hk hj (next?_eq_some_iff.2 ⟨_, hr⟩)
    obtain ⟨log, c, htakes, hc⟩ := h.reads_of_heads hg ht hheads hadvance (remaining_advance hr) _ z
    exact ⟨_, c, hreduce.trans htakes, hc⟩
  | pass hj hr hq hl hempty ih =>
    obtain ⟨stack, hexit⟩ := ih ht
    refine ⟨stack, fun z m below hb => ?_⟩
    have hknows := hj.knows hg.ranged
    obtain ⟨k, hk, hreduce⟩ := h.exists_reduces hg ht (knows_none hknows) hr hq hl hb z
    have hadvance := knows_of_moves hg.ranged hk hknows (next?_eq_some_iff.2 ⟨_, hr⟩)
    rw [← remaining_advance hr] at hempty
    obtain ⟨ts, hts⟩ := Grammar.derives_iff_parses.1 hempty
    obtain ⟨m', below', hover, hb'⟩ :=
      h.takes_behind hg hts (h.length_cell_le_of_empty hg ht) hadvance _ z
    obtain ⟨log, c, htakes, hc⟩ := hexit z m' below' (hb'.of_advance hr)
    exact ⟨_, c, (hreduce.trans hover).trans htakes, hc⟩
  | move _ hx _ ih =>
    obtain ⟨stack, hexit⟩ := ih ht
    obtain ⟨rest, hr⟩ := next?_eq_some_iff.1 hx
    exact ⟨_, fun z m below hb => hexit z m below (hb.of_advance hr)⟩

/-- Where an action may follow a production, the driver does not get from one place behind the
    production to another. -/
theorem Builds.eq_nil_of_takes (hp : (ofGrammar g).Knows n ⟨p, 0⟩ (some t))
    (hq : g.productions[p]? = some q) {z : List TerminalId}
    (hexit : ∀ m below, Behind g n stack ⟨p, 0⟩ t m below →
      ∃ log c, table.Takes ⟨m :: below, t :: z⟩ log c ∧ c.input = z)
    {m' : Nat} {below' : List Nat} {more : List Turn}
    (hb : Behind g n stack ⟨p, 0⟩ t m below) (hb' : Behind g n stack ⟨p, 0⟩ t m' below')
    (htakes : table.Takes ⟨m :: below, t :: z⟩ more ⟨m' :: below', t :: z⟩) : more = [] := by
  obtain ⟨hown, hne⟩ := getElem?_of_productions hq
  obtain ⟨k, hk⟩ := (follows_of_knows hg.ranged hp).exists_moves hg hown hne
  have hlt : t < g.terminals.length := Nat.lt_trans ht hg.ranged.endTerminal_lt
  -- From both places the production is reduced, to the same place.
  have reduced {m below} (hb : Behind g n stack ⟨p, 0⟩ t m below) :
      table.Takes ⟨m :: below, t :: z⟩ [.reduce p] ⟨k :: n :: stack, t :: z⟩ :=
    h.reduces hg (h.length_cell_le hg.ranged ht) hlt hown hne hk hb z
  by_contra hmore
  obtain ⟨more', hover⟩ :
      ∃ more', table.Takes ⟨k :: n :: stack, t :: z⟩ more' ⟨m' :: below', t :: z⟩ := by
    obtain ⟨more', -, hover⟩ | ⟨more', heq, hover⟩ := (reduced hb).goes_on htakes
    · exact ⟨more', hover⟩
    · have hlength := congrArg List.length heq
      have hpos : 0 < more.length := List.length_pos_iff.2 hmore
      rw [List.length_append, List.length_singleton] at hlength
      obtain rfl : more' = [] := List.length_eq_zero_iff.1 (by omega)
      cases hover
      exact ⟨[], .stop _⟩
  have hloop := hover.trans (reduced hb')
  -- So the driver would be in a loop, from which it does not read the action.
  obtain ⟨log, c, hlog, hc⟩ := hexit m below hb
  obtain ⟨back, hback⟩ : ∃ back, table.Takes c back ⟨k :: n :: stack, t :: z⟩ := by
    obtain ⟨rest, -, hrest⟩ | ⟨back, -, hback⟩ := (reduced hb).goes_on hlog
    · exact hloop.comes_back (by simp) hrest
    · exact ⟨back, hback⟩
  have hlength := hback.length_input_le
  rw [hc, List.length_cons] at hlength
  omega

/-- Where an action may follow a production, its right-hand side derives no sequence of actions in
    two ways. -/
theorem Builds.eq_of_parses (hp : (ofGrammar g).Knows n ⟨p, 0⟩ (some t))
    (hq : g.productions[p]? = some q) {cs cs' : List Tree} (hcs : g.Parses q.rhs cs u)
    (hcs' : g.Parses q.rhs cs' u) : cs = cs' := by
  have hown := (getElem?_of_productions hq).1
  obtain ⟨stack, hexit⟩ := h.exists_exit hg ht (follows_of_knows hg.ranged hp)
  have hone : ∀ n, ∀ c ∈ u ++ [t], ((ofGrammar g).cell n c).length ≤ 1 := by
    intro n c hc
    refine h.length_cell_le hg.ranged ?_
    rcases List.mem_append.1 hc with hc | hc
    · have hread := Grammar.derives_iff_reads.1 hcs.derives
      exact hread.lt_endTerminal hg (hg.actions q (List.mem_of_getElem? hq)) c hc
    · rwa [List.mem_singleton.1 hc]
  have goes {ts} (hts : g.Parses q.rhs ts u) : ∃ m below,
      table.Takes ⟨n :: stack, u ++ [t]⟩ (Tree.turnsOfAll ts) ⟨m :: below, [t]⟩ ∧
        Behind g n stack ⟨p, 0⟩ t m below := by
    rw [← List.drop_zero (l := q.rhs), ← remaining_eq hown 0] at hts
    exact h.takes_behind hg hts hone hp stack []
  obtain ⟨m, below, htakes, hb⟩ := goes hcs
  obtain ⟨m', below', htakes', hb'⟩ := goes hcs'
  refine Grammar.eq_of_turns_eq hcs hcs' ?_
  obtain ⟨more, heq, hmore⟩ | ⟨more, heq, hmore⟩ := htakes.goes_on htakes'
  · rw [heq, h.eq_nil_of_takes hg ht hp hq (hexit []) hb hb' hmore, List.append_nil]
  · rw [heq, h.eq_nil_of_takes hg ht hp hq (hexit []) hb' hb hmore, List.append_nil]

end

end Analysis

end FluentGrammar
