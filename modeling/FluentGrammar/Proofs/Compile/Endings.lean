import FluentGrammar.Proofs.Compile.Orderings
import FluentGrammar.Proofs.Graph.States
import FluentGrammar.Proofs.Source.Resolved

/-
  Where chains of operations end. With flattened rules every walk from the first node is the
  beginning of a sentence of the start rule, provided that all rules that references lead to derive
  something: only the start rule is checked for that. An operation leads to the end when no action
  can follow, so a walk to the end that is the beginning of a sentence is a sentence
  (`compile_walk_completes`). Behind a rule that derives nothing a walk may come to the end without
  being the beginning of any sentence (`exists_compile_unfinished`).
-/

namespace FluentGrammar

open Report

section

variable {source : String} {catalog : Catalog} {o : CompileOptions} {tree : Source.Tree}
  {parsed resolved earlier lowered built : List Diagnostic} {rules : Rules} {c : Compiled}
  {w : List TerminalId}

namespace Compiled.Stages

variable (h : c.Stages rules catalog o earlier lowered built)

include h

/-- What the start rule begins with are actions of the catalog. -/
theorem lt_of_begins (hw : rules.Begins Rules.start w) : ∀ t ∈ w, t < catalog.size := by
  rw [← h.endTerminal]
  exact (h.reads_iff_begins.2 hw).lt_endTerminal h.wellFormed (by simp)

/-- With flattened rules the merged graph can be walked along what the start rule begins with. -/
theorem merged_walk?_iff_begins (hflatten : o.lowering = .flatten)
    (hregular : ∀ d ∈ c.diagnostics, d.kind ≠ .nonRegularGrammar) :
    (c.merged.walk? 0 w).isSome = true ↔ rules.Begins Rules.start w := by
  rw [h.isSome_merged_walk?]
  constructor
  · intro hwalk
    obtain ⟨k, hk⟩ := Option.isSome_iff_exists.1 hwalk
    exact (h.walk?_iff_begins hflatten hregular (h.lt_of_walk? hk)).1 hwalk
  · intro hbegins
    exact (h.walk?_iff_begins hflatten hregular (h.lt_of_begins hbegins)).2 hbegins

end Compiled.Stages

/-- With flattened rules, actions that can be walked are a beginning of the start rule. They can be
    completed to a sentence when every rule that references lead to derives something. The last of
    them is an operation of the state that the others lead to, and when it leads to the end and some
    sentence begins with the actions, they are a sentence. -/
theorem compile_walk_completes (hparse : Source.parse source o.nestingLimit = .ok (tree, parsed))
    (hrules : Rules.ofDocument catalog tree.document = .ok (rules, resolved))
    (hcompile : compile source catalog o = .ok c) (hflatten : o.lowering = .flatten)
    (hregular : ∀ d ∈ c.diagnostics, d.kind ≠ .nonRegularGrammar)
    (hwalk : (c.merged.walk? 0 w).isSome = true) :
    rules.Begins Rules.start w ∧
      ((∀ r, rules.Reached r → ∃ u, rules.Sentence r u) →
        ∃ v, rules.Sentence Rules.start (w ++ v)) ∧
      ∀ u t, w = u ++ [t] → ∃ s ∈ c.states, c.merged.walk? 0 u = some s.node ∧
        ∃ op ∈ s.operations, c.merged.operationOf? catalog o.states s.node t = some op ∧
          (op.target = .done → (∃ v, rules.Sentence Rules.start (w ++ v)) →
            rules.Sentence Rules.start w) := by
  obtain ⟨lowered, built, h⟩ := stages_of_compile hparse hrules hcompile
  have hiff {w : List TerminalId} := h.merged_walk?_iff_begins (w := w) hflatten hregular
  have hbegins := hiff.1 hwalk
  refine ⟨hbegins, fun hsentences => ?_, ?_⟩
  · obtain ⟨-, hscript⟩ := Source.document_of_parse hparse (anyError_of_compile hparse hcompile)
    exact Rules.exists_sentence_of_begins (Rules.hasBranches_of_script hscript hrules) hsentences
      hbegins
  · rintro u t rfl
    obtain ⟨m, hm⟩ := Option.isSome_iff_exists.1 hwalk
    have hsplit : (c.merged.walk? 0 u).bind (fun n => c.merged.walk? n [t]) = some m :=
      (walkThrough_append c.merged.node? 0 u [t]).symm.trans hm
    obtain ⟨n, hn, hlast⟩ := Option.bind_eq_some_iff.1 hsplit
    have ht := h.lt_of_begins hbegins t (List.mem_append_right _ (List.mem_singleton_self t))
    obtain ⟨s, hs, rfl, op, hop, hof, htarget⟩ := MergedGraph.exists_state ht hn hlast
    rw [← h.states] at hs
    refine ⟨s, hs, hn, op, hop, hof, ?_⟩
    rintro hdone ⟨v, hv⟩
    cases v with
    | nil => rwa [List.append_nil] at hv
    | cons a v =>
      -- Another action would have to follow the one that leads to the end.
      rw [List.append_cons (u ++ [t]) a v] at hv
      have hnext := hiff.2 (Rules.Begins.of_append hv.begins)
      have hnone := MergedGraph.walk?_eq_none_of_done (htarget ▸ hdone) a
      rw [MergedGraph.walk?, walkThrough_append, show walkThrough _ 0 (u ++ [t]) = some m from hm,
        Option.bind_some, show walkThrough _ m [a] = none from hnone] at hnext
      cases hnext

/-- What `s : t* T ; t : X ;` means over two actions. -/
def Rules.closing : Rules :=
  ⟨[⟨"s", ⟨0, 1⟩, .seq [.repeated (.rule 1) .zeroOrMore, .terminal 1]⟩,
    ⟨"t", ⟨11, 12⟩, .terminal 0⟩]⟩

set_option maxRecDepth 100000 in
theorem front_closing :
    ((Source.parse "s : t* T ; t : X ;" Source.defaultNestingLimit).toOption.bind fun x =>
      (Rules.ofDocument Rules.twoActions x.1.document).toOption.map fun y => (y.1, x.2, y.2)) =
        some (Rules.closing, [], []) := by
  cbv

theorem Rules.exists_closing_sentence (r : RuleId) : ∃ w, Rules.closing.Sentence r w := by
  match r with
  | 0 => exact ⟨[] ++ ([1] ++ []), .rule (.seqCons .starNone (.seqCons (.terminal 1) .seqNil))⟩
  | 1 => exact ⟨[0], .rule (.terminal 0)⟩
  | _ + 2 => exact ⟨[], .rule .empty⟩

theorem exists_compile_closing : ∃ c s op,
    compile "s : t* T ; t : X ;" Rules.twoActions {} = .ok c ∧
      c.merged.walk? 0 [0] = some s.node ∧ s ∈ c.states ∧ op ∈ s.operations ∧
      op.target = .done ∧ Rules.closing.Sentence Rules.start [0, 1] := by
  obtain ⟨tree, c, hparse, hrules, hcompile, hc⟩ := exists_compile (o := {}) front_closing
    (show (Rules.closing.compile Rules.twoActions {} []).toOption.map (fun c =>
      ((c.merged.walk? 0 [0, 1]).isSome, c.diagnostics.isEmpty,
        (c.merged.walk? 0 [0]).all fun n =>
          (c.merged.operationOf? Rules.twoActions {} n 1).any (·.target == .done))) =
        some (true, true, true) by with_unfolding_all rfl)
  simp only [Prod.mk.injEq, List.isEmpty_iff] at hc
  obtain ⟨hwalk, hquiet, hdone⟩ := hc
  have hregular : ∀ d ∈ c.diagnostics, d.kind ≠ .nonRegularGrammar := by
    rw [hquiet]
    exact fun d hd => absurd hd List.not_mem_nil
  obtain ⟨-, hcomplete, hlast⟩ := compile_walk_completes hparse hrules hcompile rfl hregular hwalk
  obtain ⟨s, hs, hnode, op, hop, hof, hend⟩ := hlast [0] 1 rfl
  have htarget : op.target = .done := by
    rw [hnode, Option.all_some, hof] at hdone
    simpa using hdone
  exact ⟨c, s, op, hcompile, hnode, hs, hop, htarget,
    hend htarget (hcomplete fun r _ => Rules.exists_closing_sentence r)⟩

end

/-! ## A walk that cannot be completed -/

/-- What `s : X | T t ; t : u ; u : t ;` means over two actions. Behind `T` come rules that derive
    nothing. -/
def Rules.unfinished : Rules :=
  ⟨[⟨"s", ⟨0, 1⟩, .alt [.terminal 0, .seq [.terminal 1, .rule 1]]⟩,
    ⟨"t", ⟨14, 15⟩, .rule 2⟩, ⟨"u", ⟨22, 23⟩, .rule 1⟩]⟩

set_option maxRecDepth 100000 in
theorem front_unfinished :
    ((Source.parse "s : X | T t ; t : u ; u : t ;" Source.defaultNestingLimit).toOption.bind
      fun x => (Rules.ofDocument Rules.twoActions x.1.document).toOption.map fun y =>
        (y.1, x.2, y.2)) = some (Rules.unfinished, [], []) := by
  cbv

/-- The two rules only lead to each other. -/
theorem Rules.not_unfinished_sentence {r : RuleId} {w : List TerminalId} (hr : r = 1 ∨ r = 2) :
    ¬Rules.unfinished.Sentence r w := by
  intro h
  have hleads : ∀ e w, Expr.Derives Rules.unfinished e w → e ≠ .rule 1 ∧ e ≠ .rule 2 := by
    intro e w h
    induction h with
    | rule _ ih =>
      refine ⟨fun h => ?_, fun h => ?_⟩
      · obtain rfl := Expr.rule.inj h
        exact ih.2 rfl
      · obtain rfl := Expr.rule.inj h
        exact ih.1 rfl
    | empty | terminal | seqNil | seqCons | alt | starNone | starMore | plusOnce | plusMore
      | skip | take => exact ⟨nofun, nofun⟩
  rcases hr with rfl | rfl
  · exact (hleads _ _ h).1 rfl
  · exact (hleads _ _ h).2 rfl

theorem Rules.not_unfinished_sentence_start (w : List TerminalId) :
    ¬Rules.unfinished.Sentence Rules.start (1 :: w) := by
  intro h
  generalize hw : 1 :: w = v at h
  cases h with
  | rule h =>
    cases h with
    | alt hb h =>
      rcases List.mem_cons.1 hb with rfl | hb
      · cases h
        cases hw
      · obtain rfl := List.mem_singleton.1 hb
        cases h with
        | seqCons _ h =>
          cases h with
          | seqCons h _ => exact Rules.not_unfinished_sentence (.inl rfl) h

/-- The walk along `T` leads to the end, and no sentence begins with `T`. -/
theorem exists_compile_unfinished : ∃ tree c s op,
    Source.parse "s : X | T t ; t : u ; u : t ;" Source.defaultNestingLimit = .ok (tree, []) ∧
      Rules.ofDocument Rules.twoActions tree.document = .ok (Rules.unfinished, []) ∧
      compile "s : X | T t ; t : u ; u : t ;" Rules.twoActions {} = .ok c ∧
      (∀ d ∈ c.diagnostics, d.kind ≠ .nonRegularGrammar) ∧
      (c.merged.walk? 0 [1]).isSome = true ∧ s ∈ c.states ∧ s.node = 0 ∧
      c.merged.operationOf? Rules.twoActions {} 0 1 = some op ∧ op ∈ s.operations ∧
      op.target = .done ∧ ¬∃ v, Rules.unfinished.Sentence Rules.start ([1] ++ v) := by
  obtain ⟨tree, c, hparse, hrules, hcompile, hc⟩ := exists_compile (o := {}) front_unfinished
    (show (Rules.unfinished.compile Rules.twoActions {} []).toOption.map (fun c =>
      ((c.merged.walk? 0 []).isSome, (c.merged.walk? 0 [1]).isSome,
        c.diagnostics.all (·.kind != .nonRegularGrammar),
        (c.merged.operationOf? Rules.twoActions {} 0 1).any (·.target == .done))) =
        some (true, true, true, true) by decide +kernel)
  simp only [Prod.mk.injEq, List.all_eq_true, bne_iff_ne] at hc
  obtain ⟨hfirst, hwalk, hregular, hdone⟩ := hc
  obtain ⟨lowered, built, h⟩ := stages_of_compile hparse hrules hcompile
  obtain ⟨n, hn⟩ := Option.isSome_iff_exists.1 hfirst
  obtain ⟨-, -, rfl⟩ := Option.map_eq_some_iff.1 hn
  obtain ⟨m, hm⟩ := Option.isSome_iff_exists.1 hwalk
  have haction : 1 < Rules.twoActions.size := by decide
  obtain ⟨s, hs, hnode, op, hop, hof, -⟩ := MergedGraph.exists_state haction hn hm
  rw [← h.states] at hs
  have htarget : op.target = .done := by
    rw [show c.merged.operationOf? Rules.twoActions {} 0 1 = some op from hof] at hdone
    simpa using hdone
  exact ⟨tree, c, s, op, hparse, hrules, hcompile, hregular, hwalk, hs, hnode, hof, hop, htarget,
    fun ⟨v, hv⟩ => Rules.not_unfinished_sentence_start v hv⟩

end FluentGrammar
