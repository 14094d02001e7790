import FluentGrammar.Proofs.Automaton.Cycles
import FluentGrammar.Proofs.Automaton.Prefixes
import Mathlib.Data.Fintype.Pigeonhole
import Mathlib.Order.Interval.Finset.Nat

/-
  Loops over nonterminals that derive nothing. A path can go along such a loop as often as one
  likes, and every longer path is the beginning of a sentence, read after the same actions
  (`exists_sentences_of_loop`). Some terminal comes next in infinitely many of these sentences. The
  driver reduces the nonterminals of the loop before it reads that terminal, and in doing so it
  sees nothing of the input behind the terminal, so it would have to do it in all these numbers at
  once. Hence a table with nothing to report has no such loop, if the nonterminals that productions
  lead to derive something (`Builds.eq_nil_of_loop`).
-/

namespace FluentGrammar

/-- The action that a turn reads. -/
def Turn.read? : Turn → Option TerminalId
  | .read t => some t
  | .reduce _ => none

@[simp] theorem Turn.read?_read (t : TerminalId) : (Turn.read t).read? = some t := rfl

@[simp] theorem Turn.read?_reduce (p : ProductionId) : (Turn.reduce p).read? = none := rfl

theorem Tree.length_le_length_turnsOfAll (ts : List Tree) :
    ts.length ≤ (turnsOfAll ts).length := by
  induction ts with
  | nil => exact Nat.le_refl 0
  | cons T ts ih =>
    have hpos : 0 < T.turns.length := by
      cases T with
      | leaf t => exact Nat.one_pos
      | node p cs => simp [turns]
    rw [turnsOfAll, List.length_append, List.length_cons]
    omega

/-- The turns of trees read what the trees derive. -/
theorem Grammar.Parses.filterMap_read? {g : Grammar} {α : List Symbol} {ts : List Tree}
    {w : List TerminalId} (h : g.Parses α ts w) :
    (Tree.turnsOfAll ts).filterMap Turn.read? = w := by
  induction h with
  | nil => rfl
  | terminal _ ih => simp [Tree.turnsOfAll, Tree.turns, ih]
  | @nonterminal _ p _ _ _ _ _ _ _ _ _ _ ihcs ihts =>
    simp [Tree.turnsOfAll, Tree.turns, List.filterMap_cons_none (Turn.read?_reduce p), ihcs, ihts]

theorem Grammar.derives_nil_of_forall {g : Grammar} {ls : List NonterminalId}
    (h : ∀ l ∈ ls, g.Derives [.nonterminal l] []) : g.Derives (ls.map .nonterminal) [] := by
  induction ls with
  | nil => exact .nil
  | cons l ls ih =>
    obtain ⟨hl, hls⟩ := List.forall_mem_cons.1 h
    exact hl.append (ih hls)

namespace ParseTable

variable {t : ParseTable} {c c' : Config} {log log' : List Turn} {s s' : List StateId}
  {b : TerminalId} {u z : List TerminalId}

theorem Takes.input_eq (h : t.Takes c log c') :
    c.input = log.filterMap Turn.read? ++ c'.input := by
  induction h with
  | stop => rfl
  | read _ _ ih => exact congrArg (List.cons _) ih
  | reduce _ _ _ _ _ ih => exact ih

theorem Takes.split (h : t.Takes c (log ++ log') c') :
    ∃ d, t.Takes c log d ∧ t.Takes d log' c' := by
  induction log generalizing c with
  | nil => exact ⟨c, .stop c, h⟩
  | cons turn log ih =>
    cases h with
    | read hact h =>
      obtain ⟨d, hd, hc⟩ := ih h
      exact ⟨d, .read hact hd, hc⟩
    | reduce hact hr hdrop hgoto h =>
      obtain ⟨d, hd, hc⟩ := ih h
      exact ⟨d, .reduce hact hr hdrop hgoto hd, hc⟩

/-- The driver sees nothing of the input behind the next terminal. -/
theorem Takes.ahead (h : t.Takes ⟨s, u ++ b :: z⟩ log ⟨s', b :: z⟩) (z' : List TerminalId) :
    t.Takes ⟨s, u ++ b :: z'⟩ log ⟨s', b :: z'⟩ := by
  generalize hc : (⟨s, u ++ b :: z⟩ : Config) = c at h
  generalize hc' : (⟨s', b :: z⟩ : Config) = c' at h
  induction h generalizing s u with
  | stop =>
    subst hc
    obtain ⟨rfl, hinput⟩ := Config.mk.inj hc'
    obtain rfl : u = [] := by simpa using congrArg List.length hinput
    exact .stop _
  | @read n m stack a rest log c hact hrest ih =>
    obtain ⟨rfl, hinput⟩ := Config.mk.inj hc
    cases u with
    | nil =>
      -- Otherwise the next terminal would still be there after it was read.
      obtain ⟨rfl, rfl⟩ := List.cons.inj hinput
      have hlength := hrest.length_input_le
      subst hc'
      exact absurd hlength (by simp)
    | cons a' u =>
      obtain ⟨rfl, rfl⟩ := List.cons.inj hinput
      exact .read hact (ih rfl hc')
  | @reduce n m k stack below a rest log c r reduction hact hr hdrop hgoto _ ih =>
    obtain ⟨rfl, hinput⟩ := Config.mk.inj hc
    obtain ⟨rest', hrest'⟩ : ∃ rest', u ++ b :: z' = a :: rest' := by
      cases u with
      | nil => exact ⟨z', congrArg (· :: z') (List.cons.inj hinput).1⟩
      | cons a' u => exact ⟨u ++ b :: z', congrArg (· :: (u ++ b :: z')) (List.cons.inj hinput).1⟩
    have hbelow := ih (s := m :: k :: below) (u := u) (by rw [← hinput]) hc'
    rw [hrest'] at hbelow ⊢
    exact .reduce hact hr hdrop hgoto hbelow

end ParseTable

namespace Analysis

open ParseTable Report

variable {g : Grammar} {table : ParseTable} {ds : List Diagnostic} {n m : Nat}
  {stack : List Nat} {t : TerminalId} {α : List Symbol} {ls loop : List NonterminalId}
  {u : List TerminalId}

/-- A chain makes a path longer by the nonterminals of its gotos. -/
theorem Builds.exists_path_of_chain (hg : g.WellFormed) (h : (ofGrammar g).Builds g table ds)
    (hchain : table.Chain t n ls m) (hpath : (ofGrammar g).Path (n :: stack) α) :
    ∃ stack', (ofGrammar g).Path (m :: stack') (α ++ ls.map .nonterminal) := by
  induction hchain generalizing stack α with
  | stop =>
    rw [List.map_nil, List.append_nil]
    exact ⟨stack, hpath⟩
  | reduce hact hr hgoto _ ih =>
    rw [List.map_cons, List.append_cons]
    exact ih (hpath.step ((h.goto_iff hg.ranged).1 hgoto).2)

/-- Productions lead to a nonterminal that a path can go on with. -/
theorem Path.reached_of_moves (hg : g.WellFormed)
    (hsome : ∀ l, g.Reached l → ∃ w, g.Derives [.nonterminal l] w) {ts : List Tree}
    (hpath : (ofGrammar g).Path (n :: stack) α) (hts : g.Parses α ts u) {l : NonterminalId}
    (hmove : (ofGrammar g).Moves n (.nonterminal l) m) : g.Reached l := by
  obtain ⟨j, hj, hx⟩ := exists_knows_of_moves hg.ranged hmove
  obtain ⟨after, hr⟩ := next?_eq_some_iff.1 hx
  obtain ⟨hreached, -⟩ := hpath.completes hg.ranged hsome hts hj
  exact hreached l (hr ▸ List.mem_cons_self)

/-- The symbols of a path have trees. -/
theorem Path.exists_parses (hg : g.WellFormed)
    (hsome : ∀ l, g.Reached l → ∃ w, g.Derives [.nonterminal l] w)
    (hpath : (ofGrammar g).Path (n :: stack) α) : ∃ ts u, g.Parses α ts u := by
  generalize hs : n :: stack = states at hpath
  induction hpath generalizing n stack with
  | start => exact ⟨[], [], .nil⟩
  | @step k stack α x m hpath hmove ih =>
    obtain ⟨ts, u, hts⟩ := ih rfl
    obtain ⟨v, hv⟩ := Grammar.exists_derives_of_reached (α := [x]) hsome fun l hl =>
      hpath.reached_of_moves hg hsome hts (List.mem_singleton.1 hl ▸ hmove)
    obtain ⟨us, hus⟩ := Grammar.derives_iff_parses.1 hv
    exact ⟨ts ++ us, u ++ v, hts.append hus⟩

/-- Productions lead to the nonterminals of a loop. -/
theorem Builds.reached_of_loop (hg : g.WellFormed) (h : (ofGrammar g).Builds g table ds)
    (hsome : ∀ l, g.Reached l → ∃ w, g.Derives [.nonterminal l] w)
    (hloop : table.Chain t n loop n) : ∀ l ∈ loop, g.Reached l := by
  intro l hl
  obtain ⟨states, symbols, rfl, hback⟩ := hloop.exists_backward hl
  obtain ⟨-, -, -, -, -, hmove⟩ := h.exists_production_of_chain hg (hback 0).2
  obtain ⟨s, hs, -⟩ := id hmove
  obtain ⟨stack, α, hpath⟩ := exists_path hg.ranged (List.getElem?_eq_some_iff.1 hs).1
  obtain ⟨ts, u, hts⟩ := hpath.exists_parses hg hsome
  exact hpath.reached_of_moves hg hsome hts hmove

/-- Sentences that begin alike, with as many turns as one likes before what they go on with is
    read. -/
theorem Builds.exists_sentences_of_loop (hg : g.WellFormed) (h : (ofGrammar g).Builds g table ds)
    (hsome : ∀ l, g.Reached l → ∃ w, g.Derives [.nonterminal l] w)
    (hloop : table.Chain t n loop n) (hne : loop ≠ [])
    (hempty : ∀ l ∈ loop, g.Derives [.nonterminal l] []) : ∃ u, ∀ size, ∃ T w front rest,
      g.Parses [.nonterminal g.start] [T] (u ++ w) ∧ T.turns = front ++ rest ∧
        size ≤ front.length ∧ front.filterMap Turn.read? = u := by
  have hon : table.OnLoop t loop n := ⟨loop, hloop, hne, fun _ hl => hl⟩
  obtain ⟨l, k, -, hstep, -⟩ := hon.exists_before
  obtain ⟨-, -, -, -, -, hmove⟩ := h.exists_production_of_chain hg hstep
  obtain ⟨stack, α, hpath⟩ := exists_path hg.ranged (moves_lt hg.ranged hmove)
  obtain ⟨ts, u, hts⟩ := hpath.exists_parses hg hsome
  refine ⟨u, fun size => ?_⟩
  obtain ⟨ls, hsize, hchain, hmem⟩ := hloop.exists_long hne size
  obtain ⟨stack', hpath'⟩ := h.exists_path_of_chain hg hchain hpath
  obtain ⟨ns, hns⟩ := Grammar.derives_iff_parses.1
    (Grammar.derives_nil_of_forall fun l hl => hempty l (hmem l hl))
  have hfront := hts.append hns
  rw [List.append_nil] at hfront
  obtain ⟨i, hi⟩ := hpath'.exists_knows hg.ranged
  obtain ⟨hreached, hcomplete⟩ := hpath'.completes hg.ranged hsome hfront hi
  obtain ⟨v, hv⟩ := Grammar.exists_derives_of_reached hsome hreached
  obtain ⟨rs, hrs⟩ := Grammar.derives_iff_parses.1 hv
  obtain ⟨T, w, rest, hT, hturns⟩ := hcomplete rs v hrs
  rw [List.append_assoc] at hT
  refine ⟨T, v ++ w, _, _, hT, hturns, ?_, hfront.filterMap_read?⟩
  have hlength := Tree.length_le_length_turnsOfAll (ts ++ ns)
  have hns' := hns.length_eq
  rw [List.length_map] at hns'
  rw [List.length_append] at hlength
  omega

/-- The driver takes the turns at the front of the tree of a sentence before it reads what the
    sentence goes on with. -/
theorem Builds.exists_takes_front (hg : g.WellFormed) (h : (ofGrammar g).Builds g table [])
    {T : Tree} {w : List TerminalId} {front rest : List Turn}
    (hT : g.Parses [.nonterminal g.start] [T] (u ++ w)) (hturns : T.turns = front ++ rest)
    (hread : front.filterMap Turn.read? = u) :
    ∃ z c log s, table.Takes ⟨[0], u ++ w.headD g.endTerminal :: z⟩ log c ∧
      table.step c = .inr true ∧ table.Takes ⟨[0], u ++ w.headD g.endTerminal :: z⟩ front
        ⟨s, w.headD g.endTerminal :: z⟩ := by
  obtain ⟨c, htakes, hstop⟩ := h.takes_sentence hg (fun n t ht => h.length_cell_le_of_nil ht) hT
  obtain ⟨z, hz⟩ := exists_append_cons w g.endTerminal []
  rw [List.append_assoc, hz] at htakes
  rw [Tree.turnsOfAll, Tree.turnsOfAll, List.append_nil, hturns] at htakes
  obtain ⟨⟨s, input⟩, hfront, -⟩ := htakes.split
  have hinput := hfront.input_eq
  rw [hread] at hinput
  obtain rfl := List.append_cancel_left hinput
  exact ⟨z, c, _, s, htakes, hstop, hfront⟩

/-- What comes next in a sentence is a terminal. -/
theorem headD_lt (hg : g.WellFormed) {w : List TerminalId}
    (hw : g.Derives [.nonterminal g.start] (u ++ w)) :
    w.headD g.endTerminal < g.terminals.length := by
  have hactions := (Grammar.derives_iff_reads.1 hw).lt_endTerminal hg (by simp)
  cases w with
  | nil => exact hg.ranged.endTerminal_lt
  | cons a v => exact Nat.lt_trans (hactions a (by simp)) hg.ranged.endTerminal_lt

/-- A table with nothing to report has no loop over nonterminals that derive nothing. -/
theorem Builds.eq_nil_of_loop (hg : g.WellFormed) (h : (ofGrammar g).Builds g table [])
    (hsome : ∀ l, g.Reached l → ∃ w, g.Derives [.nonterminal l] w)
    (hloop : table.Chain t n loop n) (hempty : ∀ l ∈ loop, g.Derives [.nonterminal l] []) :
    loop = [] := by
  by_contra hne
  obtain ⟨u, hsentences⟩ := h.exists_sentences_of_loop hg hsome hloop hne hempty
  choose T w front rest hT hturns hsize hread using hsentences
  choose z c log s hlog hstop hfront using
    fun k => h.exists_takes_front hg (hT k) (hturns k) (hread k)
  -- The same terminal comes next for infinitely many numbers of turns in front,
  let next : Nat → Fin g.terminals.length := fun k =>
    ⟨(w k).headD g.endTerminal, headD_lt hg (hT k).derives⟩
  obtain ⟨b, hb⟩ := Finite.exists_infinite_fiber next
  have hinfinite : (Set.preimage next {b}).Infinite := Set.infinite_coe_iff.1 hb
  obtain ⟨i, hi, -⟩ := hinfinite.exists_gt 0
  obtain ⟨k, hk, hik⟩ := hinfinite.exists_gt (log i).length
  have hsame : (w k).headD g.endTerminal = (w i).headD g.endTerminal :=
    congrArg Fin.val ((show next k = b from hk).trans (show next i = b from hi).symm)
  -- and the driver takes all of them on each of these sentences.
  have hlong := (hfront k).ahead (z i)
  rw [hsame] at hlong
  have hlength : (front k).length ≤ (log i).length := by
    obtain ⟨more, hmore, htakes⟩ | ⟨more, hmore, -⟩ := (hlog i).goes_on hlong
    · rw [hmore, htakes.eq_nil_of_stop (hstop i), List.append_nil]
    · rw [hmore, List.length_append]
      exact Nat.le_add_right _ _
  have hfrontsize := hsize k
  omega

end Analysis

end FluentGrammar
