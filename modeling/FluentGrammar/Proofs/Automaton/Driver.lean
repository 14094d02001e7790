import FluentGrammar.Proofs.Automaton.Paths
import FluentGrammar.Proofs.Language.Trees

/-
  The driver of a parse table, and what it accepts. The invariant of a run is that the states on
  the stack are a path whose symbols derive what has been read (`Sees`), so it accepts sentences
  only. Conversely, where every cell has one candidate, the driver takes the turns of the trees
  that the symbols to come in an item derive, and ends behind them (`takes_symbols`), so it accepts
  all sentences.
-/

namespace FluentGrammar

open Report

namespace ParseTable

/-- What the driver has: its states, the latest first, and the terminals left. -/
structure Config where
  stack : List StateId
  input : List TerminalId
  deriving Repr, DecidableEq

/-- One step on the next terminal: another configuration, or whether the input is accepted, which
    it is when the end of input is all that is left. -/
def step (t : ParseTable) : Config → Config ⊕ Bool
  | ⟨n :: stack, c :: rest⟩ =>
    match t.action n c with
    | .error => .inr false
    | .accept => .inr rest.isEmpty
    | .shift m => .inl ⟨m :: n :: stack, rest⟩
    | .reduce r =>
      match t.reduction? r with
      | none => .inr false
      | some reduction =>
        match (n :: stack).drop reduction.length with
        | [] => .inr false
        | k :: below =>
          match t.goto k reduction.produces with
          | none => .inr false
          | some m => .inl ⟨m :: k :: below, c :: rest⟩
  | _ => .inr false

/-- A run of at most so many steps; `none` when they do not suffice. -/
def run (t : ParseTable) : Nat → Config → Option Bool
  | 0, _ => none
  | steps + 1, c =>
    match t.step c with
    | .inl c' => t.run steps c'
    | .inr verdict => some verdict

/-- The driver accepts the terminals, which end with the end of input. -/
def Accepts (t : ParseTable) (input : List TerminalId) : Prop :=
  ∃ steps, t.run steps ⟨[0], input⟩ = some true

/-- The driver gets from one configuration to another. -/
def Leads (t : ParseTable) (c c' : Config) : Prop :=
  ∃ k, ∀ steps, t.run (steps + k) c = t.run steps c'

variable {t : ParseTable} {c c' c'' : Config}

theorem Leads.refl (c : Config) : t.Leads c c := ⟨0, fun _ => rfl⟩

theorem Leads.trans (h : t.Leads c c') (h' : t.Leads c' c'') : t.Leads c c'' := by
  obtain ⟨k, hk⟩ := h
  obtain ⟨k', hk'⟩ := h'
  refine ⟨k' + k, fun steps => ?_⟩
  rw [← Nat.add_assoc, hk, hk']

theorem leads_of_step (h : t.step c = .inl c') : t.Leads c c' :=
  ⟨1, fun steps => by rw [run, h]⟩

theorem Leads.accepts {input : List TerminalId} (h : t.Leads ⟨[0], input⟩ c)
    (hc : t.step c = .inr true) : t.Accepts input := by
  obtain ⟨k, hk⟩ := h
  exact ⟨1 + k, by rw [hk, run, hc]⟩

/-! ## Turns -/

/-- The driver gets from one configuration to another by the turns in their order. -/
inductive Takes (t : ParseTable) : Config → List Turn → Config → Prop
  | stop (c : Config) : Takes t c [] c
  | read {n m stack a rest log c} : t.action n a = .shift m →
      Takes t ⟨m :: n :: stack, rest⟩ log c → Takes t ⟨n :: stack, a :: rest⟩ (.read a :: log) c
  | reduce {n m k stack below a rest log c r reduction} : t.action n a = .reduce r →
      t.reduction? r = some reduction → (n :: stack).drop reduction.length = k :: below →
      t.goto k reduction.produces = some m → Takes t ⟨m :: k :: below, a :: rest⟩ log c →
      Takes t ⟨n :: stack, a :: rest⟩ (.reduce r :: log) c

section

variable {n m k : StateId} {a : TerminalId} {stack below : List StateId} {rest : List TerminalId}
  {r : ProductionId} {reduction : Reduction} {log log' : List Turn}

theorem step_read (hact : t.action n a = .shift m) :
    t.step ⟨n :: stack, a :: rest⟩ = .inl ⟨m :: n :: stack, rest⟩ := by
  rw [step, hact]

theorem step_reduce (hact : t.action n a = .reduce r) (hr : t.reduction? r = some reduction)
    (hdrop : (n :: stack).drop reduction.length = k :: below)
    (hgoto : t.goto k reduction.produces = some m) :
    t.step ⟨n :: stack, a :: rest⟩ = .inl ⟨m :: k :: below, a :: rest⟩ := by
  simp only [step, hact, hr, hdrop, hgoto]

/-- Every step is a turn. -/
theorem exists_takes_of_step (h : t.step c = .inl c') : ∃ turn, t.Takes c [turn] c' := by
  obtain ⟨stack, rest⟩ := c
  unfold step at h
  split at h
  · next n stack a rest heq =>
    obtain ⟨rfl, rfl⟩ := Config.mk.inj heq
    split at h
    · cases h
    · cases h
    · next m hact =>
      obtain rfl := Sum.inl.inj h
      exact ⟨.read a, .read hact (.stop _)⟩
    · next r hact =>
      split at h
      · cases h
      · next reduction hr =>
        split at h
        · cases h
        · next k below hdrop =>
          split at h
          · cases h
          · next m hgoto =>
            obtain rfl := Sum.inl.inj h
            exact ⟨.reduce r, .reduce hact hr hdrop hgoto (.stop _)⟩
  · cases h

/-- The run ends well where the table accepts on the last terminal. -/
theorem step_eq_inr_true_iff : t.step c = .inr true ↔
    ∃ n stack e, c = ⟨n :: stack, [e]⟩ ∧ t.action n e = .accept := by
  constructor
  · intro h
    obtain ⟨stack, rest⟩ := c
    unfold step at h
    split at h
    · next n stack e rest heq =>
      obtain ⟨rfl, rfl⟩ := Config.mk.inj heq
      split at h
      · cases h
      · next hact =>
        obtain rfl : rest = [] := List.isEmpty_iff.1 (Sum.inr.inj h)
        exact ⟨n, stack, e, rfl, hact⟩
      · cases h
      · split at h
        · cases h
        · split at h
          · cases h
          · split at h <;> cases h
    · cases h
  · rintro ⟨n, stack, e, rfl, hact⟩
    rw [step, hact]
    rfl

theorem Takes.trans (h : t.Takes c log c') (h' : t.Takes c' log' c'') :
    t.Takes c (log ++ log') c'' := by
  induction h with
  | stop => exact h'
  | read hact _ ih => exact .read hact (ih h')
  | reduce hact hr hdrop hgoto _ ih => exact .reduce hact hr hdrop hgoto (ih h')

theorem Takes.leads (h : t.Takes c log c') : t.Leads c c' := by
  induction h with
  | stop c => exact .refl c
  | read hact _ ih => exact (leads_of_step (step_read hact)).trans ih
  | reduce hact hr hdrop hgoto _ ih =>
    exact (leads_of_step (step_reduce hact hr hdrop hgoto)).trans ih

/-- A configuration with a turn to take has a step to take. -/
theorem Takes.step_cons {turn : Turn} (h : t.Takes c (turn :: log) c') :
    ∃ d, t.step c = .inl d ∧ t.Takes d log c' := by
  cases h with
  | read hact h => exact ⟨_, step_read hact, h⟩
  | reduce hact hr hdrop hgoto h => exact ⟨_, step_reduce hact hr hdrop hgoto, h⟩

theorem Takes.eq_nil_of_stop {verdict : Bool} (h : t.Takes c log c')
    (hstop : t.step c = .inr verdict) : log = [] := by
  cases log with
  | nil => rfl
  | cons turn log =>
    obtain ⟨d, hd, -⟩ := h.step_cons
    cases hd.symm.trans hstop

/-- The driver has no choice: of two runs from one configuration one goes on where the other
    ends. -/
theorem Takes.goes_on (h : t.Takes c log c') (h' : t.Takes c log' c'') :
    (∃ more, log' = log ++ more ∧ t.Takes c' more c'') ∨
      ∃ more, log = log' ++ more ∧ t.Takes c'' more c' := by
  induction h generalizing log' with
  | stop => exact .inl ⟨log', rfl, h'⟩
  | read hact h ih =>
    cases h' with
    | stop => exact .inr ⟨_, rfl, .read hact h⟩
    | read hact' h' =>
      obtain rfl := TableAction.shift.inj (hact.symm.trans hact')
      obtain ⟨more, rfl, hmore⟩ | ⟨more, rfl, hmore⟩ := ih h'
      · exact .inl ⟨more, rfl, hmore⟩
      · exact .inr ⟨more, rfl, hmore⟩
    | reduce hact' => cases hact.symm.trans hact'
  | reduce hact hr hdrop hgoto h ih =>
    cases h' with
    | stop => exact .inr ⟨_, rfl, .reduce hact hr hdrop hgoto h⟩
    | read hact' => cases hact.symm.trans hact'
    | reduce hact' hr' hdrop' hgoto' h' =>
      obtain rfl := TableAction.reduce.inj (hact.symm.trans hact')
      obtain rfl := Option.some.inj (hr.symm.trans hr')
      obtain ⟨rfl, rfl⟩ := List.cons.inj (hdrop.symm.trans hdrop')
      obtain rfl := Option.some.inj (hgoto.symm.trans hgoto')
      obtain ⟨more, rfl, hmore⟩ | ⟨more, rfl, hmore⟩ := ih h'
      · exact .inl ⟨more, rfl, hmore⟩
      · exact .inr ⟨more, rfl, hmore⟩

end

end ParseTable

namespace Analysis

open ParseTable

variable {g : Grammar} {table : ParseTable} {ds : List Diagnostic} {n m : Nat}
  {t : TerminalId} {w : List TerminalId}

/-! ## Accepted inputs are sentences -/

/-- The states are a path whose symbols derive what has been read of the input. -/
def Sees (g : Grammar) (input : List TerminalId) (c : Config) : Prop :=
  ∃ α u, (ofGrammar g).Path c.stack α ∧ g.Derives α u ∧ u ++ c.input = input

/-- Every step of the driver keeps the invariant. -/
theorem Sees.step (hg : g.WellFormed) (h : (ofGrammar g).Builds g table ds)
    {input : List TerminalId} {c c' : Config} (hc : Sees g input c)
    (hstep : table.step c = .inl c') : Sees g input c' := by
  obtain ⟨α, u, hpath, hu, hinput⟩ := hc
  obtain ⟨turn, hturn⟩ := exists_takes_of_step hstep
  cases hturn with
  | @read n m stack t rest _ _ hact hstop =>
    -- The symbol shifted derives itself.
    cases hstop
    refine ⟨α ++ [.terminal t], u ++ [t], .step hpath (h.moves_of_shift hg.ranged hact),
      hu.append (.terminal .nil), ?_⟩
    rw [List.append_assoc]
    exact hinput
  | reduce hact hr hdrop hgoto hstop =>
    -- The symbols of the right-hand side are replaced by the nonterminal that derives them.
    cases hstop
    obtain ⟨q, hmem, hq, rfl⟩ := h.exists_production hr
    have hends := (h.ends_of_reduce hg.ranged hact).2
    obtain ⟨k, below, β, hdrop', rfl, hbelow, -⟩ := hpath.unwind_of_ends hg.ranged hq hends
    obtain ⟨rfl, rfl⟩ := List.cons.inj (hdrop.symm.trans hdrop')
    obtain ⟨u₁, u₂, rfl, hu₁, hu₂⟩ := hu.split
    have hlhs : g.Derives [.nonterminal q.lhs] u₂ :=
      Grammar.derives_nonterminal_iff.2 ⟨q, hmem, rfl, hu₂⟩
    exact ⟨β ++ [.nonterminal q.lhs], u₁ ++ u₂,
      .step hbelow ((h.goto_iff hg.ranged).1 hgoto).2, hu₁.append hlhs, hinput⟩

/-- A run that accepts ends in a configuration that is accepted, with the invariant. -/
theorem Sees.exists_accepted (hg : g.WellFormed) (h : (ofGrammar g).Builds g table ds)
    {input : List TerminalId} {c : Config} (hc : Sees g input c) {steps : Nat}
    (hrun : table.run steps c = some true) : ∃ c', Sees g input c' ∧ table.step c' = .inr true := by
  induction steps generalizing c with
  | zero => cases hrun
  | succ steps ih =>
    rw [run] at hrun
    split at hrun
    · next c' hstep => exact ih (hc.step hg h hstep) hrun
    · next verdict hstep =>
      obtain rfl := Option.some.inj hrun
      exact ⟨c, hc, hstep⟩

/-- What is accepted is on the stack as the start symbol alone. -/
theorem Sees.derives (hg : g.WellFormed) (h : (ofGrammar g).Builds g table ds) {e : TerminalId}
    {c : Config} (hc : Sees g (w ++ [e]) c) (hstep : table.step c = .inr true) :
    g.Derives [.nonterminal g.start] w := by
  obtain ⟨α, u, hpath, hu, hinput⟩ := hc
  obtain ⟨n, stack, t, rfl, hact⟩ := step_eq_inr_true_iff.1 hstep
  obtain ⟨k, below, β, -, rfl, hbelow, hk⟩ :=
    hpath.unwind_of_ends hg.ranged (getElem?_accept g) (h.ends_of_accept hg.ranged hact)
  obtain ⟨rfl, -⟩ := List.append_inj' hinput rfl
  cases hbelow with
  | start => exact hu
  | step _ hmoves => exact absurd hk (not_knows_startItem_of_moves hg.ranged hmoves)

/-! ## Sentences are accepted -/

theorem exists_append_cons (v : List TerminalId) (t : TerminalId) (z : List TerminalId) :
    ∃ z', v ++ t :: z = v.headD t :: z' := by
  cases v with
  | nil => exact ⟨z, rfl⟩
  | cons a v => exact ⟨v ++ t :: z, rfl⟩

theorem Builds.takes_read (hg : g.WellFormed) (h : (ofGrammar g).Builds g table ds)
    (ht : t < g.endTerminal) (hmove : (ofGrammar g).Moves n (.terminal t) m) (stack : List Nat)
    (rest : List TerminalId) :
    table.Takes ⟨n :: stack, t :: rest⟩ [.read t] ⟨m :: n :: stack, rest⟩ :=
  .read (h.action_of_moves hg.ranged ht hmove) (.stop _)

/-- Reducing a production that ends where the cell has no other candidate. -/
theorem Builds.takes_reduce (hg : g.WellFormed) (h : (ofGrammar g).Builds g table ds)
    (hone : ((ofGrammar g).cell m t).length ≤ 1) (ht : t < g.terminals.length)
    {p : ProductionId} {q : Production} (hq : (ofGrammar g).grammar.productions[p]? = some q)
    (hne : p ≠ (ofGrammar g).accept) (hends : (ofGrammar g).Ends m p t) {k : Nat}
    {below stack : List Nat} (hdrop : (m :: below).drop q.rhs.length = n :: stack)
    (hmove : (ofGrammar g).Moves n (.nonterminal q.lhs) k) (rest : List TerminalId) :
    table.Takes ⟨m :: below, t :: rest⟩ [.reduce p] ⟨k :: n :: stack, t :: rest⟩ := by
  have hact := h.action_of_mem_cell ht hone
    ((mem_cell hg.ranged).2 (.inr (.inr ⟨p, rfl, hne, hends⟩)))
  have hlhs : q.lhs < g.nonterminals.length := by
    obtain ⟨-, hmem⟩ | ⟨heq, -⟩ := getElem?_productions hq
    · exact hg.lhs q hmem
    · exact absurd heq hne
  have hgoto : table.goto n q.lhs = some k := (h.goto_iff hg.ranged).2 ⟨hlhs, hmove⟩
  exact .reduce hact (h.reduction_eq_some hq hne) hdrop hgoto (.stop _)

/-- An item that has been read up to its end ends its production. -/
theorem ends_of_knows {p : ProductionId} {q : Production}
    (hq : (ofGrammar g).grammar.productions[p]? = some q)
    (hm : (ofGrammar g).Knows m ⟨p, 0 + q.rhs.length⟩ (some t)) : (ofGrammar g).Ends m p t := by
  refine ⟨_, hm, ?_, rfl⟩
  rw [remaining_eq hq, Nat.zero_add]
  exact List.drop_length

/-- Where the cells of the actions to be read and of what follows have one candidate each, the
    driver takes the turns of the trees of the symbols to come in an item, and ends with their
    states on the stack. -/
theorem Builds.takes_symbols (hg : g.WellFormed) (h : (ofGrammar g).Builds g table ds)
    {α : List Symbol} {ts : List Tree} {u : List TerminalId} (hu : g.Parses α ts u) (n : Nat)
    (stack : List Nat) (i : Item) (t : TerminalId) (z : List TerminalId)
    (hone : ∀ n, ∀ c ∈ u ++ [t], ((ofGrammar g).cell n c).length ≤ 1)
    (hi : (ofGrammar g).Knows n i (some t)) (hr : (ofGrammar g).remaining i = α) :
    ∃ m below, table.Takes ⟨n :: stack, u ++ t :: z⟩ (Tree.turnsOfAll ts) ⟨m :: below, t :: z⟩ ∧
      (m :: below).drop α.length = n :: stack ∧
      (ofGrammar g).Knows m ⟨i.production, i.dot + α.length⟩ (some t) := by
  induction hu generalizing n stack i t z with
  | nil => exact ⟨n, stack, .stop _, rfl, hi⟩
  | @terminal a rest ts v _ ih =>
    have hx : (ofGrammar g).next? i = some (.terminal a) := next?_eq_some_iff.2 ⟨rest, hr⟩
    obtain ⟨k, hk⟩ := exists_moves hg.ranged (knows_none hi) hx
    have hread := h.takes_read hg (lt_endTerminal_of_next? hg hx) hk stack (v ++ t :: z)
    have hrest : ∀ n, ∀ c ∈ v ++ [t], ((ofGrammar g).cell n c).length ≤ 1 :=
      fun n c hc => hone n c (List.mem_cons_of_mem _ hc)
    obtain ⟨m, below, htakes, hdrop, hm⟩ := ih k (n :: stack) i.advance t z hrest
      (knows_of_moves hg.ranged hk hi hx) (remaining_advance hr)
    refine ⟨m, below, hread.trans htakes, ?_, ?_⟩
    · rw [List.length_cons, ← List.drop_drop, hdrop]
      rfl
    · rw [List.length_cons, Nat.add_comm rest.length, ← Nat.add_assoc]
      exact hm
  | @nonterminal l p q rest cs ts u v hp hl hu hv ihu ihv =>
    have hx : (ofGrammar g).next? i = some (.nonterminal l) := next?_eq_some_iff.2 ⟨rest, hr⟩
    obtain ⟨k, hk⟩ := exists_moves hg.ranged (knows_none hi) hx
    obtain ⟨hq, hne⟩ := getElem?_of_productions hp
    obtain ⟨z', hz'⟩ := exists_append_cons v t z
    have hhead : v.headD t ∈ v ++ [t] := by
      cases v with
      | nil => exact List.mem_singleton_self t
      | cons a v => exact List.mem_cons_self
    -- First the production is read, with what comes behind the nonterminal as its lookahead,
    have hahead := knows_ahead hg.ranged hi hr hq hl hv.derives
    have hfront : ∀ n, ∀ c ∈ u ++ [v.headD t], ((ofGrammar g).cell n c).length ≤ 1 := by
      intro n c hc
      refine hone n c ?_
      rw [List.append_assoc]
      rcases List.mem_append.1 hc with hc | hc
      · exact List.mem_append_left _ hc
      · rw [List.mem_singleton.1 hc]
        exact List.mem_append_right _ hhead
    obtain ⟨m, below, htakes, hdrop, hm⟩ := ihu n stack ⟨p, 0⟩ (v.headD t) z' hfront hahead
      (remaining_eq hq 0)
    -- then it is replaced by the nonterminal,
    have hlt : v.headD t < g.terminals.length :=
      bound_of_knows (Q := fun t => t < g.terminals.length) hg.ranged (bound_lt hg.ranged) hahead
    have hreduce := h.takes_reduce hg (hfront m _ (List.mem_append_right _ List.mem_cons_self)) hlt
      hq hne (ends_of_knows hq hm) hdrop (hl ▸ hk) z'
    -- and the rest is read behind it.
    have hback : ∀ n, ∀ c ∈ v ++ [t], ((ofGrammar g).cell n c).length ≤ 1 := by
      intro n c hc
      refine hone n c ?_
      rw [List.append_assoc]
      exact List.mem_append_right _ hc
    obtain ⟨m', below', htakes', hdrop', hm'⟩ := ihv k (n :: stack) i.advance t z hback
      (knows_of_moves hg.ranged hk hi hx) (remaining_advance hr)
    rw [← hz'] at htakes hreduce
    refine ⟨m', below', ?_, ?_, ?_⟩
    · rw [List.append_assoc, Tree.turnsOfAll, Tree.turns]
      exact (htakes.trans hreduce).trans htakes'
    · rw [List.length_cons, ← List.drop_drop, hdrop']
      rfl
    · rw [List.length_cons, Nat.add_comm rest.length, ← Nat.add_assoc]
      exact hm'

/-- The trees of a sentence lead to where it is accepted. -/
theorem Builds.takes_sentence (hg : g.WellFormed) (h : (ofGrammar g).Builds g table ds)
    (hone : ∀ n t, t < g.terminals.length → ((ofGrammar g).cell n t).length ≤ 1) {ts : List Tree}
    (hw : g.Parses [.nonterminal g.start] ts w) :
    ∃ c, table.Takes ⟨[0], w ++ [g.endTerminal]⟩ (Tree.turnsOfAll ts) c ∧
      table.step c = .inr true := by
  have hlt := hg.ranged.endTerminal_lt
  have hcells : ∀ n, ∀ c ∈ w ++ [g.endTerminal], ((ofGrammar g).cell n c).length ≤ 1 := by
    intro n c hc
    refine hone n c ?_
    rcases List.mem_append.1 hc with hc | hc
    · have hread := Grammar.derives_iff_reads.1 hw.derives
      exact Nat.lt_trans (hread.lt_endTerminal hg (by simp) c hc) hlt
    · rwa [List.mem_singleton.1 hc]
  obtain ⟨m, below, htakes, -, hm⟩ := h.takes_symbols hg hw 0 [] (ofGrammar g).startItem
    g.endTerminal [] hcells (knows_start hg.ranged) (remaining_startItem g)
  refine ⟨_, htakes, ?_⟩
  have hends : (ofGrammar g).Ends m (ofGrammar g).accept g.endTerminal :=
    ⟨_, hm, remaining_eq (getElem?_accept g) 1, rfl⟩
  have hact := h.action_of_mem_cell hlt (hone m _ hlt) ((mem_cell hg.ranged).2 (.inl ⟨rfl, hends⟩))
  exact step_eq_inr_true_iff.2 ⟨m, below, g.endTerminal, rfl, hact⟩

theorem Builds.accepts_of_derives (hg : g.WellFormed) (h : (ofGrammar g).Builds g table ds)
    (hone : ∀ n t, t < g.terminals.length → ((ofGrammar g).cell n t).length ≤ 1)
    (hw : g.Derives [.nonterminal g.start] w) : table.Accepts (w ++ [g.endTerminal]) := by
  obtain ⟨ts, hts⟩ := Grammar.derives_iff_parses.1 hw
  obtain ⟨c, htakes, hstep⟩ := h.takes_sentence hg hone hts
  exact htakes.leads.accepts hstep

end Analysis

open Analysis ParseTable

/-- The driver on the table of a grammar accepts sentences only, and all of them when there is
    nothing to report. -/
theorem Grammar.parseTable_accepts {g : Grammar} (hg : g.WellFormed) {table : ParseTable}
    {ds : List Diagnostic} (h : g.parseTable = .ok (table, ds)) :
    (∀ w, table.Accepts (w ++ [g.endTerminal]) → g.Derives [.nonterminal g.start] w) ∧
      (ds = [] → ∀ w, g.Derives [.nonterminal g.start] w →
        table.Accepts (w ++ [g.endTerminal])) := by
  have hb := builds_of_parseTable h
  constructor
  · rintro w ⟨steps, hrun⟩
    have hstart : Sees g (w ++ [g.endTerminal]) ⟨[0], w ++ [g.endTerminal]⟩ :=
      ⟨[], [], .start, .nil, rfl⟩
    obtain ⟨c, hc, hstep⟩ := hstart.exists_accepted hg hb hrun
    exact hc.derives hg hb hstep
  · rintro rfl w hw
    exact hb.accepts_of_derives hg (fun n t ht => hb.length_cell_le_of_nil ht) hw

namespace Grammar

/-- The grammar `s → a s b | a b`. -/
def nested : Grammar where
  terminals := ["a", "b", endName]
  nonterminals := [⟨"s", default⟩]
  productions := [⟨0, [.terminal 0, .nonterminal 0, .terminal 1], default⟩,
    ⟨0, [.terminal 0, .terminal 1], default⟩]
  start := 0

theorem wellFormed_nested : nested.WellFormed where
  terminals := by decide
  start := by decide
  lhs := by decide
  nonterminals p hp n hn := by
    simp only [nested, List.mem_cons, List.not_mem_nil, or_false] at hp
    rcases hp with rfl | rfl
    · obtain rfl : n = 0 := by simpa using hn
      decide
    · simp at hn
  actions p hp t ht := by
    simp only [nested, List.mem_cons, List.not_mem_nil, or_false] at hp
    rcases hp with rfl | rfl
    · obtain rfl | rfl : t = 0 ∨ t = 1 := by simpa using ht
      · decide
      · decide
    · obtain rfl | rfl : t = 0 ∨ t = 1 := by simpa using ht
      · decide
      · decide

theorem derives_nested : nested.Derives [.nonterminal 0] [0, 0, 1, 1] := by
  have outer : ⟨0, [.terminal 0, .nonterminal 0, .terminal 1], default⟩ ∈ nested.productions := by
    decide
  have inner : ⟨0, [.terminal 0, .terminal 1], default⟩ ∈ nested.productions := by decide
  have once : nested.Derives [.nonterminal 0, .terminal 1] ([0, 1] ++ [1]) :=
    .nonterminal inner rfl (.terminal (.terminal .nil)) (.terminal .nil)
  exact .nonterminal (v := []) outer rfl (.terminal once) .nil

theorem exists_nested_accepts : ∃ table, nested.parseTable = .ok (table, []) ∧
    table.Accepts ([0, 0, 1, 1] ++ [nested.endTerminal]) := by
  obtain ⟨⟨table, ds⟩, h⟩ := exists_eq_ok
    (show nested.parseTable.toOption.isSome = true by decide +kernel)
  have hds : (nested.parseTable.toOption.map (·.2)) = some [] := by decide +kernel
  rw [h] at hds
  obtain rfl : ds = [] := Option.some.inj hds
  exact ⟨table, h, (parseTable_accepts wellFormed_nested h).2 rfl _ derives_nested⟩

end Grammar

end FluentGrammar
