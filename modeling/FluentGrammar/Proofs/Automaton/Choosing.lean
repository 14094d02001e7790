import FluentGrammar.Proofs.Automaton.Candidates
import FluentGrammar.Proofs.Automaton.Lookups

/-
  Choosing actions. What a state may do is collected by terminal, and in every cell that has come
  about the candidates are sorted and the first one is taken, with a report when there are others.
  The names in a report are looked up. For a state of the automaton the cells collected are those
  with candidates (`collect_entries`), and what is chosen is what the table holds there
  (`resolve?_eq`).
-/

namespace FluentGrammar

open Report

/-- The candidates of the cells of a state, by terminal. -/
abbrev Cells := List (TerminalId × List TableAction)

namespace Cells

/-- Puts a candidate into the cell of a terminal, unless it is there. -/
def add (t : TerminalId) (act : TableAction) : Cells → Cells
  | [] => [(t, [act])]
  | (u, c) :: rest =>
    if t = u then (u, if act ∈ c then c else c ++ [act]) :: rest
    else if t < u then (t, [act]) :: (u, c) :: rest
    else (u, c) :: add t act rest

/-- The cells of candidates that come one after the other. -/
def collect (entries : List (TerminalId × TableAction)) : Cells :=
  entries.foldl (fun cells e => add e.1 e.2 cells) []

/-- The candidate is in the cell of the terminal. -/
def Has (cells : Cells) (t : TerminalId) (act : TableAction) : Prop :=
  ∃ c, (t, c) ∈ cells ∧ act ∈ c

/-- The cells are in the order of their terminals, and each has candidates, each once. -/
structure Tidy (cells : Cells) : Prop where
  ordered : cells.Pairwise fun x y => x.1 < y.1
  filled : ∀ x ∈ cells, x.2 ≠ []
  nodup : ∀ x ∈ cells, x.2.Nodup

variable {cells : Cells} {t u : TerminalId} {act b : TableAction} {c : List TableAction}
  {entries : List (TerminalId × TableAction)}

theorem has_cons : Has ((t, c) :: cells) u b ↔ (u = t ∧ b ∈ c) ∨ cells.Has u b := by
  constructor
  · intro h
    obtain ⟨c', hmem, hb⟩ := h
    rcases List.mem_cons.1 hmem with heq | hmem
    · obtain ⟨rfl, rfl⟩ := Prod.mk.inj heq
      exact .inl ⟨rfl, hb⟩
    · exact .inr ⟨c', hmem, hb⟩
  · intro h
    obtain ⟨rfl, hb⟩ | ⟨c', hmem, hb⟩ := h
    · exact ⟨c, List.mem_cons_self, hb⟩
    · exact ⟨c', List.mem_cons_of_mem _ hmem, hb⟩

theorem has_add : (add t act cells).Has u b ↔ (u = t ∧ b = act) ∨ cells.Has u b := by
  induction cells with
  | nil => simp [add, Has]
  | cons x cells ih =>
    obtain ⟨v, c⟩ := x
    rw [add]
    split
    · next htv =>
      subst htv
      rw [has_cons, has_cons, ← or_assoc, ← and_or_left]
      refine or_congr (and_congr_right fun _ => ?_) Iff.rfl
      split
      · next hact =>
        constructor
        · exact .inr
        · rintro (rfl | hb)
          · exact hact
          · exact hb
      · rw [List.mem_append, List.mem_singleton, or_comm]
    · split
      · rw [has_cons, List.mem_singleton]
      · rw [has_cons, has_cons, ih]
        exact or_left_comm

theorem fst_add {x : TerminalId × List TableAction} (hx : x ∈ add t act cells) :
    x.1 = t ∨ ∃ y ∈ cells, y.1 = x.1 := by
  induction cells with
  | nil => exact .inl (congrArg Prod.fst (List.mem_singleton.1 hx))
  | cons y cells ih =>
    obtain ⟨u, c⟩ := y
    rw [add] at hx
    have hrest (hx : x ∈ cells) : ∃ y ∈ (u, c) :: cells, y.1 = x.1 :=
      ⟨x, List.mem_cons_of_mem _ hx, rfl⟩
    split at hx
    · next htu =>
      rcases List.mem_cons.1 hx with rfl | hx
      · exact .inl htu.symm
      · exact .inr (hrest hx)
    · split at hx
      · rcases List.mem_cons.1 hx with rfl | hx
        · exact .inl rfl
        · exact .inr ⟨x, hx, rfl⟩
      · rcases List.mem_cons.1 hx with rfl | hx
        · exact .inr ⟨_, List.mem_cons_self, rfl⟩
        · rcases ih hx with h | ⟨y, hy, heq⟩
          · exact .inl h
          · exact .inr ⟨y, List.mem_cons_of_mem _ hy, heq⟩

theorem Tidy.add (h : cells.Tidy) (t : TerminalId) (act : TableAction) :
    (add t act cells).Tidy := by
  induction cells with
  | nil =>
    refine ⟨List.pairwise_singleton _ _, fun x hx => ?_, fun x hx => ?_⟩
    · obtain rfl := List.mem_singleton.1 hx
      exact List.cons_ne_nil _ _
    · obtain rfl := List.mem_singleton.1 hx
      exact List.nodup_singleton act
  | cons y cells ih =>
    obtain ⟨u, c⟩ := y
    obtain ⟨hu, hordered⟩ := List.pairwise_cons.1 h.ordered
    obtain ⟨hc, hfilled⟩ := List.forall_mem_cons.1 h.filled
    obtain ⟨hc', hnodup⟩ := List.forall_mem_cons.1 h.nodup
    rw [Cells.add]
    split
    · refine ⟨List.pairwise_cons.2 ⟨hu, hordered⟩, List.forall_mem_cons.2 ⟨?_, hfilled⟩,
        List.forall_mem_cons.2 ⟨?_, hnodup⟩⟩
      · dsimp only
        split
        · exact hc
        · exact List.append_ne_nil_of_right_ne_nil _ (List.cons_ne_nil _ _)
      · dsimp only
        split
        · exact hc'
        · next hact =>
          rw [← List.concat_eq_append]
          exact hc'.concat hact
    · next hne =>
      split
      · next hlt =>
        refine ⟨List.pairwise_cons.2 ⟨fun x hx => ?_, h.ordered⟩,
          List.forall_mem_cons.2 ⟨List.cons_ne_nil _ _, h.filled⟩,
          List.forall_mem_cons.2 ⟨List.nodup_singleton act, h.nodup⟩⟩
        rcases List.mem_cons.1 hx with rfl | hx
        · exact hlt
        · exact Nat.lt_trans hlt (hu x hx)
      · next hlt =>
        have hrest := ih ⟨hordered, hfilled, hnodup⟩
        refine ⟨List.pairwise_cons.2 ⟨fun x hx => ?_, hrest.ordered⟩,
          List.forall_mem_cons.2 ⟨hc, hrest.filled⟩, List.forall_mem_cons.2 ⟨hc', hrest.nodup⟩⟩
        rcases fst_add hx with heq | ⟨y, hy, heq⟩
        · rw [heq]
          exact Nat.lt_of_le_of_ne (Nat.le_of_not_lt hlt) (Ne.symm hne)
        · rw [← heq]
          exact hu y hy

/-- There is one cell for a terminal. -/
theorem Tidy.mem_iff (h : cells.Tidy) {x : TerminalId × List TableAction} (hx : x ∈ cells) :
    act ∈ x.2 ↔ cells.Has x.1 act := by
  constructor
  · exact fun hact => ⟨x.2, hx, hact⟩
  · intro hhas
    obtain ⟨c, hmem, hact⟩ := hhas
    have hnodup : (cells.map Prod.fst).Nodup :=
      List.pairwise_map.2 (h.ordered.imp fun hlt => Nat.ne_of_lt hlt)
    rwa [← List.inj_on_of_nodup_map hnodup hmem hx rfl]

/-- Collecting loses nothing and adds nothing. -/
theorem collect_tidy (entries : List (TerminalId × TableAction)) :
    (collect entries).Tidy ∧ ∀ t act, (collect entries).Has t act ↔ (t, act) ∈ entries := by
  have hfold (entries : List (TerminalId × TableAction)) (cells : Cells) (h : cells.Tidy) :
      (entries.foldl (fun cells e => Cells.add e.1 e.2 cells) cells).Tidy ∧
        ∀ t act, (entries.foldl (fun cells e => Cells.add e.1 e.2 cells) cells).Has t act ↔
          cells.Has t act ∨ (t, act) ∈ entries := by
    induction entries generalizing cells with
    | nil => exact ⟨h, fun t act => by simp⟩
    | cons e entries ih =>
      obtain ⟨htidy, hhas⟩ := ih (Cells.add e.1 e.2 cells) (h.add e.1 e.2)
      refine ⟨htidy, fun t act => (hhas t act).trans ?_⟩
      rw [has_add, List.mem_cons, Prod.ext_iff, or_comm (a := _ ∧ _), or_assoc]
  obtain ⟨htidy, hhas⟩ := hfold entries [] ⟨.nil, nofun, nofun⟩
  exact ⟨htidy, fun t act => (hhas t act).trans (by simp [Has])⟩

end Cells

/-! ## Choosing an action -/

namespace Grammar

/-- The name of a symbol. -/
def symbolName? (g : Grammar) : Symbol → Option String
  | .terminal t => g.terminals[t]?
  | .nonterminal n => g.nonterminals[n]?.map (·.name)

/-- A production in words. -/
def productionText? (g : Grammar) (p : Production) : Option String := do
  let lhs ← g.nonterminals[p.lhs]?
  let names ← p.rhs.mapM g.symbolName?
  return lhs.name ++ " →" ++
    (if names.isEmpty then " ε" else String.join (names.map fun name => " " ++ name))

variable {g : Grammar} {p : Production}

theorem productionText?_eq (hg : g.Ranged) (hp : p ∈ g.augmented.productions) :
    g.augmented.productionText? p = some (g.augmented.productionText p) := by
  have hname : ∀ x ∈ p.rhs, g.augmented.symbolName? x = some (g.augmented.symbolName x) := by
    intro x hx
    cases x with
    | terminal t =>
      have ht := List.getElem?_eq_getElem (hg.terminalsInRange p hp t hx)
      rw [symbolName?, symbolName, terminalName, List.getD_eq_getElem?_getD, ht, Option.getD_some]
    | nonterminal n =>
      have hn := List.getElem?_eq_getElem (hg.rhs_augmented p hp n hx)
      rw [symbolName?, symbolName, nonterminal, List.getD_eq_getElem?_getD, hn, Option.getD_some,
        Option.map_some]
  have hlhs := List.getElem?_eq_getElem (hg.lhs_augmented p hp)
  rw [productionText?, mapM_eq_some hname, hlhs, productionText, nonterminal,
    List.getD_eq_getElem?_getD, hlhs]
  simp only [Option.bind_eq_bind, Option.bind_some, Option.getD_some, List.isEmpty_map,
    List.map_map, Option.pure_def]
  rfl

end Grammar

namespace Analysis

/-- The report on a cell with several candidates, which is about the first production of them. -/
def conflict? (a : Analysis) (state : StateId) (t : TerminalId) (cell : List TableAction) :
    Option Diagnostic := do
  let productions ← (cell.filterMap a.productionOf?).mapM fun p => a.grammar.productions[p]?
  let first ← productions.head?
  let shifts := cell.any fun
    | .shift _ => true
    | _ => false
  let shape := if shifts then "shift/reduce" else "reduce/reduce"
  let place := " in state " ++ toString state
  let report ←
    if t == a.grammar.endTerminal then
      some (Diagnostic.about .endConflict first.span (shape ++ " conflict" ++ place))
    else
      a.grammar.terminals[t]?.map fun name =>
        Diagnostic.about .grammarConflict first.span
          (shape ++ " conflict on `" ++ name ++ "`" ++ place)
  productions.foldlM (fun report p => do
    let text ← a.grammar.productionText? p
    return report.relatedTo ("reduce by `" ++ text ++ "`") p.span) report

/-- The first of the candidates in order, and a report when there are others. -/
def resolve? (a : Analysis) (state : StateId) (t : TerminalId) (cell : List TableAction) :
    Option (TableAction × List Diagnostic) := do
  let sorted := cell.mergeSort fun b c => !c.before b
  let chosen ← sorted.head?
  if sorted.length = 1 then return (chosen, [])
  else
    let report ← a.conflict? state t sorted
    return (chosen, [report])

variable {g : Grammar} {n : StateId} {t : TerminalId} {act : TableAction} {c : List TableAction}
  {p : ProductionId} {s : ItemState}

/-- Sorting brings the candidates of a cell into their order. -/
theorem mergeSort_eq_cell (hg : g.Ranged) (hnodup : c.Nodup)
    (hmem : ∀ act, act ∈ c ↔ (ofGrammar g).Candidate n t act) :
    (c.mergeSort fun b c => !c.before b) = (ofGrammar g).cell n t := by
  have hsorted : (c.mergeSort fun b c => !c.before b).Pairwise
      fun a b => (!b.before a) = true := by
    refine List.pairwise_mergeSort (fun a b d hab hbd => ?_) (fun a b => ?_) c
    · rw [Bool.not_eq_true', ← Bool.not_eq_true, TableAction.before_iff] at hab hbd ⊢
      omega
    · rw [Bool.or_eq_true, Bool.not_eq_true', Bool.not_eq_true', ← Bool.not_eq_true,
        ← Bool.not_eq_true, TableAction.before_iff, TableAction.before_iff]
      omega
  have hperm := List.mergeSort_perm c fun b c => !c.before b
  have hstrict : (c.mergeSort fun b c => !c.before b).Pairwise fun a b => a.before b = true := by
    refine (hsorted.and (hperm.nodup_iff.2 hnodup)).imp fun hab => ?_
    rw [Bool.not_eq_true', ← Bool.not_eq_true] at hab
    exact TableAction.before_of_not_before hab.1 (Ne.symm hab.2)
  refine List.Pairwise.eq_of_mem_iff hstrict (pairwise_cell hg n t) fun act => ?_
  rw [hperm.mem_iff, hmem, mem_cell_iff hg]

theorem lt_of_candidate (hg : g.Ranged) (h : (ofGrammar g).Candidate n t act) :
    t < g.terminals.length := by
  cases h with
  | accept hends =>
    obtain ⟨i, hi, -⟩ := hends
    exact bound_of_knows (Q := fun t => t < g.terminals.length) hg (bound_lt hg) hi
  | shift hmove =>
    obtain ⟨i, -, hx⟩ := exists_knows_of_moves hg hmove
    exact lt_of_next?_terminal hg hx
  | reduce _ hends =>
    obtain ⟨i, hi, -⟩ := hends
    exact bound_of_knows (Q := fun t => t < g.terminals.length) hg (bound_lt hg) hi

/-- A candidate that ends a production ends one of the grammar. -/
theorem lt_of_productionOf? (hg : g.Ranged) (h : (ofGrammar g).Candidate n t act)
    (hp : (ofGrammar g).productionOf? act = some p) :
    p < (ofGrammar g).grammar.productions.length := by
  have hends : (ofGrammar g).Ends n p t := by
    cases h with
    | accept hends => exact Option.some.inj hp ▸ hends
    | shift _ => cases hp
    | reduce _ hends => exact Option.some.inj hp ▸ hends
  obtain ⟨i, hi, -, rfl⟩ := hends
  obtain ⟨s, hs, hhas⟩ := knows_none hi
  obtain ⟨q, hq, -⟩ := occurs_of_has hg hs hhas
  exact (List.getElem?_eq_some_iff.1 hq).1

/-- Where there is a choice, one of the candidates ends a production, because there is at most one
    shift. -/
theorem exists_productionOf? (hg : g.Ranged) (h : (ofGrammar g).Contested n t) :
    ∃ act ∈ (ofGrammar g).cell n t, ∃ p, (ofGrammar g).productionOf? act = some p := by
  obtain ⟨act, act', hact, hact', hne⟩ := h
  have hmem {act : TableAction} : act ∈ (ofGrammar g).cell n t ↔ (ofGrammar g).Candidate n t act :=
    mem_cell_iff hg
  cases id hact with
  | accept _ => exact ⟨_, hmem.2 hact, _, rfl⟩
  | reduce _ _ => exact ⟨_, hmem.2 hact, _, rfl⟩
  | shift hmove =>
    cases id hact' with
    | accept _ => exact ⟨_, hmem.2 hact', _, rfl⟩
    | reduce _ _ => exact ⟨_, hmem.2 hact', _, rfl⟩
    | shift hmove' => exact absurd (congrArg TableAction.shift (moves_unique hg hmove hmove')) hne

theorem conflict?_eq (hg : g.Ranged) (h : (ofGrammar g).Contested n t) :
    (ofGrammar g).conflict? n t ((ofGrammar g).cell n t) =
      some ((ofGrammar g).conflict n t ((ofGrammar g).cell n t)) := by
  have hlookup : ∀ p ∈ ((ofGrammar g).cell n t).filterMap (ofGrammar g).productionOf?,
      (ofGrammar g).grammar.productions[p]? = some ((ofGrammar g).grammar.production p) := by
    intro p hp
    obtain ⟨act, hact, hp⟩ := List.mem_filterMap.1 hp
    have hlt := lt_of_productionOf? hg ((mem_cell_iff hg).1 hact) hp
    rw [Grammar.production, List.getD_eq_getElem?_getD, List.getElem?_eq_getElem hlt,
      Option.getD_some]
  have hne : ((ofGrammar g).cell n t).filterMap (ofGrammar g).productionOf? ≠ [] := by
    obtain ⟨act, hact, p, hp⟩ := exists_productionOf? hg h
    exact List.ne_nil_of_mem (List.mem_filterMap.2 ⟨act, hact, hp⟩)
  have hname : (ofGrammar g).grammar.terminals[t]? =
      some ((ofGrammar g).grammar.terminalName t) := by
    obtain ⟨act, act', hact, -⟩ := h
    have ht : t < (ofGrammar g).grammar.terminals.length := lt_of_candidate (g := g) hg hact
    rw [Grammar.terminalName, List.getD_eq_getElem?_getD, List.getElem?_eq_getElem ht,
      Option.getD_some]
  have htext : ∀ q ∈ (((ofGrammar g).cell n t).filterMap (ofGrammar g).productionOf?).map
      (ofGrammar g).grammar.production,
      (ofGrammar g).grammar.productionText? q = some ((ofGrammar g).grammar.productionText q) := by
    intro q hq
    obtain ⟨p, hp, rfl⟩ := List.mem_map.1 hq
    exact Grammar.productionText?_eq hg (List.mem_of_getElem? (hlookup p hp))
  obtain ⟨p, rest, hps⟩ := List.exists_cons_of_ne_nil hne
  rw [conflict?, mapM_eq_some hlookup, hname, conflict]
  rw [hps] at htext ⊢
  simp only [Option.bind_eq_bind, Option.bind_some, List.map_cons, List.head?_cons,
    Option.map_some, Option.getD_some] at htext ⊢
  have hfold (report : Diagnostic) :=
    foldlM_eq_some (P := fun _ : Diagnostic => True) (b := report)
      (f := fun report q => report.relatedTo
        ("reduce by `" ++ (ofGrammar g).grammar.productionText q ++ "`") q.span)
      (k := fun report q => do
        let text ← (ofGrammar g).grammar.productionText? q
        return report.relatedTo ("reduce by `" ++ text ++ "`") q.span)
      (fun report q hq _ => ⟨by rw [htext q hq]; rfl, trivial⟩) trivial
  split
  · exact hfold _
  · exact hfold _

/-- What becomes of a cell: its best candidate, and a report when there is a choice. -/
theorem resolve?_eq (hg : g.Ranged) (hfilled : c ≠ []) (hnodup : c.Nodup)
    (hmem : ∀ act, act ∈ c ↔ (ofGrammar g).Candidate n t act) :
    (ofGrammar g).resolve? n t c = some ((contents g).action n t,
      ((ofGrammar g).report? n t).toList) := by
  have hcell := mergeSort_eq_cell hg hnodup hmem
  have hne : (ofGrammar g).cell n t ≠ [] := by
    rw [← hcell]
    intro hnil
    exact hfilled (List.length_eq_zero_iff.1 (by rw [← List.length_mergeSort, hnil]; rfl))
  obtain ⟨b, rest, hb⟩ := List.exists_cons_of_ne_nil hne
  have hchosen : (contents g).action n t = b := by
    rw [contents_action, hb, List.head?_cons, Option.getD_some]
  rw [resolve?, hcell, report?]
  by_cases hlength : 1 < ((ofGrammar g).cell n t).length
  · rw [if_pos hlength, conflict?_eq hg ((contested_iff hg).2 hlength), hchosen, hb]
    rw [hb] at hlength
    exact if_neg (Nat.ne_of_gt hlength)
  · have hone : ((ofGrammar g).cell n t).length = 1 :=
      Nat.le_antisymm (Nat.le_of_not_lt hlength) (List.length_pos_iff.2 hne)
    rw [if_neg hlength, hchosen, hb]
    rw [hb] at hone
    exact if_pos hone

/-! ## What a state may do -/

/-- The candidate that a complete production is. -/
def ending (a : Analysis) (p : ProductionId) : TableAction :=
  if p = a.accept then .accept else .reduce p

/-- The candidates of a state, each with its terminal: those of the transitions, and those of the
    complete items. -/
def entries (a : Analysis) (transitions : List Transition) (closure : ItemSet) :
    List (TerminalId × TableAction) :=
  transitions.filterMap (fun
    | (.terminal t, m) => some (t, TableAction.shift m)
    | (.nonterminal _, _) => none) ++
  closure.flatMap fun (i, ts) =>
    if (a.remaining i).isEmpty then ts.map fun t => (t, a.ending i.production) else []

/-- The candidates of a state, with the next symbols of its items looked up. -/
def entries? (a : Analysis) (transitions : List Transition) (closure : ItemSet) :
    Option (List (TerminalId × TableAction)) := do
  let _ ← a.sides? closure
  return a.entries transitions closure

theorem mem_entries_iff (hg : g.Ranged) (hs : (ofGrammar g).states[n]? = some s) :
    (t, act) ∈ (ofGrammar g).entries s.transitions ((ofGrammar g).closure s.kernel) ↔
      (ofGrammar g).Candidate n t act := by
  have hends {p : ProductionId} : (∃ y ∈ (ofGrammar g).closure s.kernel,
      (ofGrammar g).remaining y.1 = [] ∧ t ∈ y.2 ∧ y.1.production = p) ↔
        (ofGrammar g).Ends n p t := by
    rw [← mem_completed hg hs, completed, List.mem_filterMap]
    simp [and_assoc]
  rw [entries, List.mem_append, List.mem_filterMap, List.mem_flatMap]
  constructor
  · rintro (⟨⟨x, m⟩, hmem, heq⟩ | ⟨⟨i, ts⟩, hmem, heq⟩)
    · cases x with
      | terminal u =>
        obtain ⟨rfl, rfl⟩ := Prod.mk.inj (Option.some.inj heq)
        exact .shift ((moves_iff_of_state hs).2 hmem)
      | nonterminal l => cases heq
    · dsimp only at heq
      split at heq
      · next hempty =>
        obtain ⟨u, hu, heq⟩ := List.mem_map.1 heq
        obtain ⟨rfl, rfl⟩ := Prod.mk.inj heq
        have hend := hends.1 ⟨_, hmem, List.isEmpty_iff.1 hempty, hu, rfl⟩
        rw [ending]
        split
        · next haccept => exact .accept (haccept ▸ hend)
        · next haccept => exact .reduce haccept hend
      · exact absurd heq List.not_mem_nil
  · have hentry {p : ProductionId} (h : (ofGrammar g).Ends n p t) :
        ∃ y ∈ (ofGrammar g).closure s.kernel, (t, (ofGrammar g).ending p) ∈
          if ((ofGrammar g).remaining y.1).isEmpty then
            y.2.map fun t => (t, (ofGrammar g).ending y.1.production) else [] := by
      obtain ⟨y, hy, hr, ht, rfl⟩ := hends.2 h
      refine ⟨y, hy, ?_⟩
      rw [if_pos (List.isEmpty_iff.2 hr)]
      exact List.mem_map.2 ⟨t, ht, rfl⟩
    intro h
    cases h with
    | shift hmove => exact .inl ⟨_, (moves_iff_of_state hs).1 hmove, rfl⟩
    | accept hend =>
      have h := hentry hend
      rw [ending, if_pos rfl] at h
      exact .inr h
    | reduce hne hend =>
      have h := hentry hend
      rw [ending, if_neg hne] at h
      exact .inr h

theorem entries?_eq (hg : g.Ranged) (hs : (ofGrammar g).states[n]? = some s) :
    (ofGrammar g).entries? s.transitions ((ofGrammar g).closure s.kernel) =
      some ((ofGrammar g).entries s.transitions ((ofGrammar g).closure s.kernel)) := by
  have howned : (ofGrammar g).Owned ((ofGrammar g).closure s.kernel) := by
    intro i hi
    obtain ⟨q, hq, -⟩ := occurs_of_has hg hs hi
    exact (List.getElem?_eq_some_iff.1 hq).1
  rw [entries?, sides?_eq howned]
  rfl

/-- The cells of a state that are collected are those with candidates. -/
theorem collect_entries (hg : g.Ranged) (hs : (ofGrammar g).states[n]? = some s) {cells : Cells}
    (hcells : Cells.collect
      ((ofGrammar g).entries s.transitions ((ofGrammar g).closure s.kernel)) = cells) :
    cells.Tidy ∧ (∀ x ∈ cells, ∀ act, act ∈ x.2 ↔ (ofGrammar g).Candidate n x.1 act) ∧
      ∀ t, (ofGrammar g).cell n t ≠ [] ↔ ∃ x ∈ cells, x.1 = t := by
  obtain ⟨htidy, hhas⟩ := Cells.collect_tidy
    ((ofGrammar g).entries s.transitions ((ofGrammar g).closure s.kernel))
  rw [hcells] at htidy hhas
  have hmem : ∀ x ∈ cells, ∀ act, act ∈ x.2 ↔ (ofGrammar g).Candidate n x.1 act := by
    intro x hx act
    rw [htidy.mem_iff hx, hhas, mem_entries_iff hg hs]
  refine ⟨htidy, hmem, fun t => ?_⟩
  constructor
  · intro hne
    obtain ⟨act, hact⟩ := List.exists_mem_of_ne_nil _ hne
    rw [mem_cell_iff hg, ← mem_entries_iff hg hs, ← hhas] at hact
    obtain ⟨c, hc, -⟩ := hact
    exact ⟨_, hc, rfl⟩
  · intro h
    obtain ⟨x, hx, rfl⟩ := h
    obtain ⟨act, hact⟩ := List.exists_mem_of_ne_nil _ (htidy.filled x hx)
    exact List.ne_nil_of_mem ((mem_cell_iff hg).2 ((hmem x hx act).1 hact))

end Analysis

end FluentGrammar
