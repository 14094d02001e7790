import FluentGrammar.Proofs.Automaton.Follow
import FluentGrammar.Proofs.Automaton.Paths

/-
  Candidates of cells. A state shifts a terminal along its transition and reduces the productions
  that are complete in its closure and that the terminal may follow. The cell of the table holds
  each candidate once (`mem_cell_iff`, `pairwise_cell`), acceptance first and the shift before the
  reductions, so it holds several actions just when there are several candidates
  (`contested_iff`). Nobody shifts the end of input, and nobody accepts on anything else.
-/

namespace FluentGrammar

namespace TableAction

/-- Acceptance comes first, then shifts, then reductions, each kind by number. -/
def rank : TableAction → Nat × Nat
  | accept => (0, 0)
  | shift s => (1, s)
  | reduce r => (2, r)
  | error => (3, 0)

/-- The first of the ranks decides, or the second one when the first are equal. -/
def before (a b : TableAction) : Bool :=
  a.rank.1 < b.rank.1 || (a.rank.1 == b.rank.1 && a.rank.2 < b.rank.2)

variable {a b c : TableAction}

theorem before_iff : a.before b = true ↔
    a.rank.1 < b.rank.1 ∨ a.rank.1 = b.rank.1 ∧ a.rank.2 < b.rank.2 := by
  simp [before]

theorem rank_injective : Function.Injective rank := by
  intro a b h
  cases a <;> cases b <;> simp_all [rank]

theorem before_trans (h : a.before b = true) (h' : b.before c = true) : a.before c = true := by
  rw [before_iff] at h h' ⊢
  omega

theorem ne_of_before (h : a.before b = true) : a ≠ b := by
  intro heq
  rw [heq, before_iff] at h
  omega

theorem before_of_not_before (h : ¬a.before b = true) (hne : a ≠ b) : b.before a = true := by
  have hrank : a.rank ≠ b.rank := fun heq => hne (rank_injective heq)
  rw [Ne, Prod.ext_iff] at hrank
  rw [before_iff] at h ⊢
  omega

instance : Std.Antisymm fun a b : TableAction => a.before b = true :=
  ⟨fun _ _ h h' => absurd rfl (ne_of_before (before_trans h h'))⟩

instance : Std.Irrefl fun a b : TableAction => a.before b = true :=
  ⟨fun _ h => ne_of_before h rfl⟩

end TableAction

namespace Analysis

/-- What a state may do on a terminal: shift along its transition, or end a production that is
    complete and that the terminal may follow. -/
inductive Candidate (a : Analysis) (n : StateId) (t : TerminalId) : TableAction → Prop
  | accept : a.Ends n a.accept t → Candidate a n t .accept
  | shift {m} : a.Moves n (.terminal t) m → Candidate a n t (.shift m)
  | reduce {p} : p ≠ a.accept → a.Ends n p t → Candidate a n t (.reduce p)

/-- There is a choice of actions. -/
def Contested (a : Analysis) (n : StateId) (t : TerminalId) : Prop :=
  ∃ act act', a.Candidate n t act ∧ a.Candidate n t act' ∧ act ≠ act'

variable {g : Grammar} {n m : StateId} {t : TerminalId} {p : ProductionId} {x : Symbol}
  {i j : Item} {act : TableAction} {s : ItemState}

/-! ## The order of candidates -/

theorem mem_cell_iff (hg : g.Ranged) :
    act ∈ (ofGrammar g).cell n t ↔ (ofGrammar g).Candidate n t act := by
  rw [mem_cell hg]
  constructor
  · intro h
    obtain ⟨rfl, hends⟩ | ⟨m, rfl, hmove⟩ | ⟨p, rfl, hne, hends⟩ := h
    · exact .accept hends
    · exact .shift hmove
    · exact .reduce hne hends
  · intro h
    cases h with
    | accept hends => exact .inl ⟨rfl, hends⟩
    | shift hmove => exact .inr (.inl ⟨_, rfl, hmove⟩)
    | reduce hne hends => exact .inr (.inr ⟨_, rfl, hne, hends⟩)

/-- The items of a state are of productions, with positions that these have. -/
theorem occurs_of_has (hg : g.Ranged) (hs : (ofGrammar g).states[n]? = some s)
    (h : ((ofGrammar g).closure s.kernel).Has i none) : (ofGrammar g).Occurs i := by
  obtain ⟨kernels, rows, settled, hm⟩ := exists_madeOf hg (bound_lt hg)
  obtain ⟨kernel, -, hk, hcarries, -⟩ := hm.state hs
  refine closes_induction hg (fun j hj => ?_) (fun j l after p q _ _ hq _ => ?_)
    ((hm.has_closure_iff hg (bound_lt hg) hs).1 h)
  · rw [ItemSet.Has, hcarries.items] at hj
    exact hk.occurs j hj
  · exact ⟨q, hq, Nat.zero_le _⟩

/-- Of two complete items the first is of the lower production. -/
theorem production_lt_of_before (hi : (ofGrammar g).Occurs i) (hj : (ofGrammar g).Occurs j)
    (hri : (ofGrammar g).remaining i = []) (h : i.before j = true) :
    i.production < j.production := by
  obtain ⟨p, d⟩ := i
  obtain ⟨q, e⟩ := j
  rcases (Item.before_iff p d q e).1 h with hlt | ⟨rfl, hlt⟩
  · exact hlt
  · -- A complete item has no position behind its own.
    obtain ⟨prod, hprod, hle⟩ := hj
    rw [remaining_eq hprod, List.drop_eq_nil_iff] at hri
    exact absurd (Nat.lt_of_lt_of_le hlt hle) (Nat.not_lt.2 hri)

/-- The productions that are complete in a state, in order and each once. -/
theorem pairwise_completed (hg : g.Ranged) (hs : (ofGrammar g).states[n]? = some s) :
    ((ofGrammar g).completed ((ofGrammar g).closure s.kernel) t).Pairwise (· < ·) := by
  have hordered : ((ofGrammar g).closure s.kernel).Pairwise fun x y => x.1.before y.1 = true :=
    List.pairwise_map.1 (ordered_closure_of_state hg hs)
  have hoccurs : ∀ x ∈ (ofGrammar g).closure s.kernel, (ofGrammar g).Occurs x.1 :=
    fun x hx => occurs_of_has hg hs (List.mem_map_of_mem hx)
  rw [completed, List.pairwise_filterMap]
  refine hordered.imp_of_mem ?_
  intro x y hx hy hbefore p hp q hq
  obtain ⟨i, ts⟩ := x
  obtain ⟨j, us⟩ := y
  dsimp only at hp hq
  obtain ⟨hcomplete, hp⟩ := Option.ite_none_right_eq_some.1 hp
  obtain ⟨-, hq⟩ := Option.ite_none_right_eq_some.1 hq
  obtain rfl := Option.some.inj hp
  obtain rfl := Option.some.inj hq
  rw [Bool.and_eq_true, List.isEmpty_iff] at hcomplete
  exact production_lt_of_before (hoccurs _ hx) (hoccurs _ hy) hcomplete.1 hbefore

/-- A cell has its candidates in the order in which one of them is chosen. -/
theorem pairwise_cell (hg : g.Ranged) (n : StateId) (t : TerminalId) :
    ((ofGrammar g).cell n t).Pairwise fun a b => a.before b = true := by
  cases hs : (ofGrammar g).states[n]? with
  | none =>
    rw [cell, hs]
    exact .nil
  | some s =>
    rw [cell, hs, Option.elim_some, candidates]
    have hshift : ∀ c ∈ ((s.transitions.lookup (.terminal t)).map TableAction.shift).toList,
        ∃ m, c = .shift m := by
      intro c hc
      rw [Option.mem_toList, Option.map_eq_some_iff] at hc
      obtain ⟨m, -, rfl⟩ := hc
      exact ⟨m, rfl⟩
    have hreduce : ∀ c ∈ (((ofGrammar g).completed ((ofGrammar g).closure s.kernel) t).filter
        (· != (ofGrammar g).accept)).map TableAction.reduce, ∃ p, c = .reduce p := by
      intro c hc
      obtain ⟨p, -, rfl⟩ := List.mem_map.1 hc
      exact ⟨p, rfl⟩
    rw [List.append_assoc]
    refine List.pairwise_append.2 ⟨?_, List.pairwise_append.2 ⟨?_, ?_, ?_⟩, ?_⟩
    · split
      · exact List.pairwise_singleton _ _
      · exact .nil
    · cases s.transitions.lookup (.terminal t) with
      | none => exact .nil
      | some m => exact List.pairwise_singleton _ _
    · refine List.Pairwise.map _ ?_ ((pairwise_completed hg hs).filter _)
      intro p q hpq
      exact TableAction.before_iff.2 (.inr ⟨rfl, hpq⟩)
    · intro b hb c hc
      obtain ⟨m, rfl⟩ := hshift b hb
      obtain ⟨p, rfl⟩ := hreduce c hc
      rfl
    · intro b hb c hc
      obtain rfl : b = .accept := by
        split at hb
        · exact List.mem_singleton.1 hb
        · exact absurd hb List.not_mem_nil
      rcases List.mem_append.1 hc with hc | hc
      · obtain ⟨m, rfl⟩ := hshift c hc
        rfl
      · obtain ⟨p, rfl⟩ := hreduce c hc
        rfl

/-- A cell has several actions just when there is a choice. -/
theorem contested_iff (hg : g.Ranged) :
    (ofGrammar g).Contested n t ↔ 1 < ((ofGrammar g).cell n t).length := by
  have hmem {act : TableAction} : act ∈ (ofGrammar g).cell n t ↔ (ofGrammar g).Candidate n t act :=
    mem_cell_iff hg
  have hordered := pairwise_cell hg n t
  constructor
  · intro h
    obtain ⟨act, act', hact, hact', hne⟩ := h
    rw [← hmem] at hact hact'
    generalize (ofGrammar g).cell n t = c at hact hact'
    match c with
    | [] => exact absurd hact List.not_mem_nil
    | [b] =>
      rw [List.mem_singleton] at hact hact'
      exact absurd (hact.trans hact'.symm) hne
    | b :: b' :: rest => exact Nat.succ_lt_succ (Nat.succ_pos _)
  · intro h
    match hc : (ofGrammar g).cell n t with
    | [] | [b] =>
      rw [hc] at h
      exact absurd h (by simp)
    | b :: b' :: rest =>
      rw [hc] at hordered hmem
      have hbefore := (List.pairwise_cons.1 hordered).1 b' List.mem_cons_self
      exact ⟨b, b', hmem.1 List.mem_cons_self,
        hmem.1 (List.mem_cons_of_mem _ List.mem_cons_self), TableAction.ne_of_before hbefore⟩

/-- The action that a cell decides for is before all other candidates. -/
theorem exists_first_of_candidate (hg : g.Ranged) (h : (ofGrammar g).Candidate n t act) :
    ∃ b, ((ofGrammar g).cell n t).head?.getD .error = b ∧ (ofGrammar g).Candidate n t b ∧
      ∀ c, (ofGrammar g).Candidate n t c → c = b ∨ b.before c = true := by
  have hordered := pairwise_cell hg n t
  have hact := (mem_cell_iff hg).2 h
  cases hc : (ofGrammar g).cell n t with
  | nil =>
    rw [hc] at hact
    exact absurd hact List.not_mem_nil
  | cons b rest =>
    have hmem {act : TableAction} : act ∈ b :: rest ↔ (ofGrammar g).Candidate n t act := by
      rw [← hc]
      exact mem_cell_iff hg
    rw [hc] at hordered
    refine ⟨b, rfl, hmem.1 List.mem_cons_self, ?_⟩
    intro c hcand
    rcases List.mem_cons.1 (hmem.2 hcand) with rfl | hrest
    · exact .inl rfl
    · exact .inr ((List.pairwise_cons.1 hordered).1 c hrest)

/-! ## What candidates are there -/

/-- No transition enters the first state. -/
theorem pos_of_moves (hg : g.Ranged) (h : (ofGrammar g).Moves n x m) : 0 < m := by
  rcases Nat.eq_zero_or_pos m with rfl | hpos
  · exact absurd (knows_none (knows_start hg)) (not_knows_startItem_of_moves hg h)
  · exact hpos

/-- The end of input is not shifted. -/
theorem lt_endTerminal_of_moves (hg : g.WellFormed)
    (h : (ofGrammar g).Moves n (.terminal t) m) : t < g.endTerminal := by
  obtain ⟨i, -, hx⟩ := exists_knows_of_moves hg.ranged h
  exact lt_endTerminal_of_next? hg hx

/-- Only the end of input follows a whole sentence. -/
theorem eq_endTerminal_of_knows (hg : g.Ranged) (hi : (ofGrammar g).Knows n i (some t))
    (haccept : i.production = (ofGrammar g).accept) : t = g.endTerminal := by
  induction follows_of_knows hg hi with
  | finish => rfl
  | head _ hr hq hl _ => exact absurd haccept (mem_productions_of_next hg hr hq hl).2
  | pass _ hr hq hl _ _ => exact absurd haccept (mem_productions_of_next hg hr hq hl).2
  | move hj _ _ ih => exact ih (hj.knows hg) haccept

end Analysis

end FluentGrammar
