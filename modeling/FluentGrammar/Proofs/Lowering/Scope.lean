import FluentGrammar.Proofs.Lowering.LeftRecursion
import FluentGrammar.Rules.Resolve

/-
  Rules and actions that expressions mention. Rules made from a document mention only each other
  and actions of the catalog (`ofDocument_scope`), and removing left recursion adds no mention.
-/

namespace FluentGrammar

namespace Expr

mutual

/-- The actions that an expression mentions. -/
def actions : Expr → List TerminalId
  | empty | rule _ => []
  | terminal t => [t]
  | seq items => actionsOfAll items
  | alt bs => actionsOfAll bs
  | repeated inner _ => actions inner

/-- The actions that several expressions mention. -/
def actionsOfAll : List Expr → List TerminalId
  | [] => []
  | e :: es => actions e ++ actionsOfAll es

end

end Expr

/-- The actions that the rules mention. -/
def Rules.actions (rules : Rules) : List TerminalId := rules.rules.flatMap (·.body.actions)

/-- The rules refer to rules only. -/
def Rules.RefsInRange (rules : Rules) : Prop :=
  ∀ rule ∈ rules.rules, ∀ r ∈ rule.body.refs, r < rules.size

instance (rules : Rules) : Decidable rules.RefsInRange :=
  inferInstanceAs (Decidable (∀ rule ∈ rules.rules, ∀ r ∈ rule.body.refs, r < rules.size))

/-- The expression mentions nothing but rules and what they mention. -/
structure Expr.Within (rules : Rules) (e : Expr) : Prop where
  refs : ∀ r ∈ e.refs, r < rules.size
  actions : ∀ t ∈ e.actions, t ∈ rules.actions

namespace Expr

variable {rules : Rules} {e b : Expr} {es : List Expr}

theorem mem_refsOfAll {r : RuleId} : r ∈ refsOfAll es ↔ ∃ e ∈ es, r ∈ e.refs := by
  induction es with
  | nil => simp [refsOfAll]
  | cons e es ih => simp [refsOfAll, ih]

theorem mem_actionsOfAll {t : TerminalId} : t ∈ actionsOfAll es ↔ ∃ e ∈ es, t ∈ e.actions := by
  induction es with
  | nil => simp [actionsOfAll]
  | cons e es ih => simp [actionsOfAll, ih]

theorem within_seq_iff : (seq es).Within rules ↔ ∀ e ∈ es, e.Within rules := by
  constructor
  · intro h e he
    exact ⟨fun r hr => h.refs r (mem_refsOfAll.2 ⟨e, he, hr⟩),
      fun t ht => h.actions t (mem_actionsOfAll.2 ⟨e, he, ht⟩)⟩
  · intro h
    refine ⟨fun r hr => ?_, fun t ht => ?_⟩
    · obtain ⟨e, he, hr⟩ := mem_refsOfAll.1 hr
      exact (h e he).refs r hr
    · obtain ⟨e, he, ht⟩ := mem_actionsOfAll.1 ht
      exact (h e he).actions t ht

theorem within_alt_iff : (alt es).Within rules ↔ ∀ e ∈ es, e.Within rules := by
  rw [← within_seq_iff]
  exact ⟨fun h => ⟨h.refs, h.actions⟩, fun h => ⟨h.refs, h.actions⟩⟩

theorem within_repeated_iff {repetition : Repetition} :
    (repeated e repetition).Within rules ↔ e.Within rules :=
  ⟨fun h => ⟨h.refs, h.actions⟩, fun h => ⟨h.refs, h.actions⟩⟩

theorem within_rule_iff {r : RuleId} : (rule r).Within rules ↔ r < rules.size := by
  constructor
  · exact fun h => h.refs r (List.mem_singleton_self r)
  · exact fun h => ⟨fun i hi => List.mem_singleton.1 hi ▸ h, fun _ ht => absurd ht List.not_mem_nil⟩

theorem within_branches_iff : (∀ b ∈ e.branches, b.Within rules) ↔ e.Within rules := by
  cases e with
  | alt bs => exact within_alt_iff.symm
  | empty | terminal | rule | seq | repeated => exact List.forall_mem_singleton

theorem within_ofBranches (h : ∀ e ∈ es, e.Within rules) : (ofBranches es).Within rules := by
  rcases es with - | ⟨c, - | ⟨d, es⟩⟩
  · exact within_alt_iff.2 h
  · exact h c (List.mem_singleton_self c)
  · exact within_alt_iff.2 h

end Expr

/-! ## Left recursion -/

namespace LeftRecursion

open FluentGrammar.Expr

variable {rules : Rules} {r : RuleId} {b body T : Expr}

theorem within_tail (hb : b.Within rules) (h : tail? r b = some (some T)) : T.Within rules := by
  unfold tail? at h
  split at h
  · split at h <;> simp at h
  · next s rest =>
    have hrest : ∀ e ∈ rest, e.Within rules :=
      fun e he => within_seq_iff.1 hb e (List.mem_cons_of_mem _ he)
    split at h
    · simp only [Option.some.injEq] at h
      subst h
      split
      · exact hrest _ (List.mem_singleton_self _)
      · exact within_seq_iff.2 hrest
    · simp at h
  · simp at h

/-- The body that the removal leaves mentions nothing that the old one does not. -/
theorem within_bodyOr (h : body.Within rules) :
    ((Outcome.ofBody r body).bodyOr body).Within rules := by
  have hb := within_branches_iff.2 h
  have hbases : (ofBranches (bases r body)).Within rules :=
    within_ofBranches fun b hb' => hb b (mem_bases.1 hb').1
  have htails : (ofBranches (tails r body)).Within rules := by
    refine within_ofBranches fun T hT => ?_
    obtain ⟨b, hb', htail⟩ := mem_tails.1 hT
    exact within_tail (hb b hb') htail
  obtain ⟨hout, -⟩ | ⟨hout, -⟩ | ⟨-, -, ⟨-, hout⟩ | ⟨-, hout⟩⟩ := ofBody_cases r body
  · rw [hout]
    exact h
  · rw [hout]
    exact h
  · rw [hout]
    exact hbases
  · rw [hout]
    refine within_seq_iff.2 fun e he => ?_
    rcases List.mem_cons.1 he with rfl | he
    · exact hbases
    · rw [List.mem_singleton.1 he]
      exact within_repeated_iff.2 htails

end LeftRecursion

namespace Rules

open LeftRecursion FluentGrammar.Expr

variable {g : Rules} {rule : Rule} {r : RuleId}

theorem RefsInRange.within (h : g.RefsInRange) (hr : rule ∈ g.rules) : rule.body.Within g :=
  ⟨h rule hr, fun _ ht => List.mem_flatMap.2 ⟨rule, hr, ht⟩⟩

theorem rule_eq_of_getElem? (h : g.rules[r]? = some rule) : g.rule r = rule := by
  rw [Rules.rule, List.getD_eq_getElem?_getD, h, Option.getD_some]

theorem RefsInRange.within_rule (h : g.RefsInRange) (hr : r < g.size) :
    (g.rule r).body.Within g := by
  rw [rule_eq_of_getElem? (List.getElem?_eq_getElem hr)]
  exact h.within (List.getElem_mem hr)

theorem size_withoutLeftRecursion (g : Rules) : g.withoutLeftRecursion.1.size = g.size := by
  simp [withoutLeftRecursion, size]

/-- A rule without left recursion has the body that the removal leaves of one of the rules. -/
theorem mem_withoutLeftRecursion (h : rule ∈ g.withoutLeftRecursion.1.rules) :
    ∃ old ∈ g.rules, ∃ r, rule.body = (Outcome.ofBody r old.body).bodyOr old.body := by
  rw [rules_withoutLeftRecursion] at h
  obtain ⟨⟨old, r⟩, hmem, rfl⟩ := List.mem_map.1 h
  exact ⟨old, List.fst_mem_of_mem_zipIdx hmem, r, rfl⟩

theorem RefsInRange.withoutLeftRecursion (h : g.RefsInRange) :
    g.withoutLeftRecursion.1.RefsInRange := by
  intro rule hr r hmem
  obtain ⟨old, hold, i, hbody⟩ := mem_withoutLeftRecursion hr
  rw [size_withoutLeftRecursion]
  rw [hbody] at hmem
  exact (within_bodyOr (h.within hold)).refs r hmem

theorem actions_withoutLeftRecursion (h : g.RefsInRange) :
    ∀ t ∈ g.withoutLeftRecursion.1.actions, t ∈ g.actions := by
  intro t ht
  obtain ⟨rule, hr, ht⟩ := List.mem_flatMap.1 ht
  obtain ⟨old, hold, i, hbody⟩ := mem_withoutLeftRecursion hr
  rw [hbody] at ht
  exact (within_bodyOr (h.within hold)).actions t ht

end Rules

/-! ## Documents -/

namespace Source.Term

open FluentGrammar.Expr

variable {meaning : String → Option Meaning} {n k : Nat}

/-- What the meanings refer to exists: `n` rules and `k` actions. -/
def MeaningsBelow (meaning : String → Option Meaning) (n k : Nat) : Prop :=
  (∀ name r, meaning name = some (.rule r) → r < n) ∧
    ∀ name t, meaning name = some (.action t) → t < k

theorem all_below {es : List Expr}
    (h : ∀ e ∈ es, (∀ r ∈ e.refs, r < n) ∧ ∀ a ∈ e.actions, a < k) :
    (∀ r ∈ refsOfAll es, r < n) ∧ ∀ a ∈ actionsOfAll es, a < k := by
  refine ⟨fun r hr => ?_, fun a ha => ?_⟩
  · obtain ⟨e, he, hr⟩ := mem_refsOfAll.1 hr
    exact (h e he).1 r hr
  · obtain ⟨e, he, ha⟩ := mem_actionsOfAll.1 ha
    exact (h e he).2 a ha

mutual

theorem expr_below (hm : MeaningsBelow meaning n k) (t : Term) :
    (∀ r ∈ (t.expr meaning).refs, r < n) ∧ ∀ a ∈ (t.expr meaning).actions, a < k := by
  match t with
  | ref _ name =>
    rw [expr]
    cases h : meaning name.text with
    | none => simp [refs, actions]
    | some m =>
      cases m with
      | rule r => simpa [Meaning.expr, refs, actions] using hm.1 _ _ h
      | action t => simpa [Meaning.expr, refs, actions] using hm.2 _ _ h
  | group _ body =>
    rw [expr]
    exact expr_below hm body
  | quantified _ repetition inner =>
    rw [expr]
    exact expr_below hm inner
  | sequence _ items =>
    have hitems := exprs_below hm items
    rw [expr]
    generalize exprs meaning items = es at hitems
    rcases es with - | ⟨c, - | ⟨d, es⟩⟩
    · simp [ofItems, refs, actions]
    · exact hitems c (List.mem_singleton_self c)
    · exact all_below hitems
  | choice _ branches =>
    have hbranches := exprs_below hm branches
    rw [expr]
    generalize exprs meaning branches = es at hbranches
    rcases es with - | ⟨c, - | ⟨d, es⟩⟩
    · exact all_below hbranches
    · exact hbranches c (List.mem_singleton_self c)
    · exact all_below hbranches

theorem exprs_below (hm : MeaningsBelow meaning n k) (ts : List Term) :
    ∀ e ∈ exprs meaning ts, (∀ r ∈ e.refs, r < n) ∧ ∀ a ∈ e.actions, a < k := by
  match ts with
  | [] =>
    rw [exprs]
    exact fun e he => absurd he List.not_mem_nil
  | t :: ts =>
    rw [exprs]
    intro e he
    rcases List.mem_cons.1 he with rfl | he
    · exact expr_below hm t
    · exact exprs_below hm ts e he

end

end Source.Term

namespace Rules

open Report Source

theorem meaningsBelow (catalog : Catalog) (declared : List Declaration) :
    Term.MeaningsBelow (Meaning.of? catalog declared) declared.length catalog.size := by
  refine ⟨fun name r h => ?_, fun name t h => ?_⟩
  · unfold Meaning.of? at h
    split at h
    · next i hi =>
      obtain rfl : i = r := by simpa using h
      exact (List.findIdx?_eq_some_iff_getElem.1 hi).1
    · simp at h
  · unfold Meaning.of? at h
    split at h
    · simp at h
    · obtain ⟨i, hi, heq⟩ := Option.map_eq_some_iff.1 h
      obtain rfl : i = t := by simpa using heq
      exact (List.findIdx?_eq_some_iff_getElem.1 hi).1

/-- The rules of a document refer to rules and to actions of the catalog. -/
theorem ofDocument_scope {catalog : Catalog} {d : Document} {rules : Rules}
    {reports : List Diagnostic} (h : ofDocument catalog d = .ok (rules, reports)) :
    rules.RefsInRange ∧ ∀ t ∈ rules.actions, t < catalog.size := by
  unfold ofDocument at h
  dsimp only at h
  split at h
  · cases h
  · split at h
    · cases h
    · split at h
      · cases h
      · simp only [Except.ok.injEq, Prod.mk.injEq] at h
        obtain ⟨rfl, -⟩ := h
        have below := Term.expr_below
          (meaningsBelow catalog (Declaration.ofDocument catalog d).1)
        refine ⟨fun rule hr r hmem => ?_, fun t ht => ?_⟩
        · obtain ⟨old, -, rfl⟩ := List.mem_map.1 hr
          simpa [size] using (below old.body).1 r hmem
        · obtain ⟨rule, hr, ht⟩ := List.mem_flatMap.1 ht
          obtain ⟨old, -, rfl⟩ := List.mem_map.1 hr
          exact (below old.body).2 t ht

end Rules

end FluentGrammar
