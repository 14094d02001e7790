import FluentGrammar.Proofs.Iterate
import FluentGrammar.Proofs.Lowering.References
import FluentGrammar.Proofs.Reach

/-
  Rules without a use. A body mentions a rule anywhere inside sequences, alternatives and
  repetitions, and a rule is reached when a chain of mentions leads to it from the start rule. Here
  the search for these rules marks them one by one, with a stack that holds a rule as often as it is
  mentioned, and looks everything up by its number. Every mention is put on the stack at most once,
  so the search ends (`mark_ends`), and what it leaves without a mark are the rules that are
  reported, in their order (`unused_spec`).
-/

namespace FluentGrammar

namespace Expr

/-- The expression mentions rule `r`, at any depth. -/
inductive Mentions (r : RuleId) : Expr → Prop
  | rule : Mentions r (.rule r)
  | seq {e es} : e ∈ es → Mentions r e → Mentions r (.seq es)
  | alt {e es} : e ∈ es → Mentions r e → Mentions r (.alt es)
  | repeated {e repetition} : Mentions r e → Mentions r (.repeated e repetition)

variable {r : RuleId} {e : Expr} {tail : Bool}

theorem RefersTo.mentions (h : e.RefersTo r tail) : e.Mentions r := by
  induction h with
  | rule => exact .rule
  | here _ ih => exact .seq List.mem_cons_self ih
  | there _ ih =>
    obtain _ | ⟨he, hr⟩ := ih
    exact .seq (List.mem_cons_of_mem _ he) hr
  | alt hb _ ih => exact .alt hb ih
  | loop _ _ ih => exact .repeated ih
  | optional _ ih => exact .repeated ih

/-- The collected references are the rules that are mentioned. -/
theorem mem_refs_iff : r ∈ e.refs ↔ e.Mentions r := by
  constructor
  · intro h
    obtain ⟨tail, h⟩ := exists_refersTo e h
    exact h.mentions
  · intro h
    induction h with
    | rule => exact List.mem_singleton_self r
    | seq he _ ih => exact mem_refsOfAll.2 ⟨_, he, ih⟩
    | alt he _ ih => exact mem_refsOfAll.2 ⟨_, he, ih⟩
    | repeated _ ih => exact ih

end Expr

namespace Rules

/-- A chain of mentions leads from the start rule to the rule. -/
def InUse (g : Rules) : RuleId → Prop :=
  Relation.ReflTransGen (fun q r => (g.rule q).body.Mentions r) start

variable {g : Rules} {r : RuleId} {used : List Bool} {stack : List RuleId}

/-- One turn of the search. It takes a rule from the stack, and unless it has a mark already, marks
    it and puts the rules that it mentions on the stack. -/
def markStep? (g : Rules) :
    List Bool × List RuleId → Option (List Bool ⊕ (List Bool × List RuleId))
  | (used, []) => some (.inl used)
  | (used, r :: stack) => do
    let marked ← used[r]?
    if marked then return .inr (used, stack)
    let rule ← g.rules[r]?
    return .inr (used.set r true, rule.body.refs.reverse ++ stack)

/-- What the search begins with. -/
def markStart (g : Rules) : List Bool × List RuleId := (List.replicate g.size false, [start])

/-- A report for every rule that the search leaves without a mark. -/
noncomputable def reportUnused? (g : Rules) : Option (List Diagnostic) := do
  let used ← iterate? g.markStep? g.markStart
  return ((g.rules.zip used).filter fun (_, used) => !used).map fun (rule, _) =>
    Diagnostic.about .unusedRule rule.span rule.name

theorem getElem?_rule (hr : r < g.size) : g.rules[r]? = some (g.rule r) := by
  have hrule := List.getElem?_eq_getElem hr
  rw [hrule, rule_eq_of_getElem? hrule]

/-- What the search keeps: rules with a mark or on the stack are reached, and whatever a rule with a
    mark mentions has a mark, too, or is on the stack. -/
structure Marking (g : Rules) (c : List Bool × List RuleId) : Prop where
  length : c.1.length = g.size
  lt : ∀ r ∈ c.2, r < g.size
  reached : ∀ r, c.1[r]? = some true ∨ r ∈ c.2 → g.InUse r
  start : c.1[start]? = some true ∨ start ∈ c.2
  closed : ∀ q, c.1[q]? = some true → ∀ r, (g.rule q).body.Mentions r →
    c.1[r]? = some true ∨ r ∈ c.2

/-- The mentions on the stack, and those in rules without a mark. -/
def mentionsLeft (g : Rules) (c : List Bool × List RuleId) : Nat :=
  c.2.length + ((g.rules.zip c.1).map fun (rule, marked) =>
    if marked then 0 else rule.body.refs.length).sum

theorem marking_start (hsize : 0 < g.size) : g.Marking g.markStart := by
  have hnone : ∀ q : RuleId, g.markStart.1[q]? ≠ some true := by
    intro q hq
    cases List.eq_of_mem_replicate (List.mem_of_getElem? hq)
  refine ⟨List.length_replicate, ?_, ?_, .inr (List.mem_singleton_self start), ?_⟩
  · exact fun r hr => List.mem_singleton.1 hr ▸ hsize
  · exact fun r hr => List.mem_singleton.1 (hr.resolve_left (hnone r)) ▸ .refl
  · exact fun q hq => absurd hq (hnone q)

/-- A turn with a rule that has a mark takes it from the stack. -/
theorem Marking.skip (h : g.Marking (used, r :: stack)) (hr : used[r]? = some true) :
    g.Marking (used, stack) := by
  have hkept : ∀ q, used[q]? = some true ∨ q ∈ r :: stack → used[q]? = some true ∨ q ∈ stack := by
    rintro q (hq | hq)
    · exact .inl hq
    · obtain rfl | hq := List.mem_cons.1 hq
      · exact .inl hr
      · exact .inr hq
  exact {
    length := h.length
    lt := fun q hq => h.lt q (List.mem_cons_of_mem r hq)
    reached := fun q hq => h.reached q (hq.imp_right (List.mem_cons_of_mem r))
    start := hkept _ h.start
    closed := fun p hp q hq => hkept q (h.closed p hp q hq) }

/-- A turn with a rule that has no mark gives it one, and its mentions are on the stack. -/
theorem Marking.mark (hrefs : g.RefsInRange) (h : g.Marking (used, r :: stack)) :
    g.Marking (used.set r true, (g.refsOf r).reverse ++ stack) := by
  have hlt : r < used.length := h.length ▸ h.lt r List.mem_cons_self
  have hset : ∀ q, (used.set r true)[q]? = some true ↔ q = r ∨ used[q]? = some true := by
    intro q
    by_cases hq : q = r
    · subst hq
      simp only [List.getElem?_set_self hlt, true_or]
    · rw [List.getElem?_set_ne (Ne.symm hq), or_iff_right hq]
  have hkept : ∀ q, used[q]? = some true ∨ q ∈ r :: stack →
      (used.set r true)[q]? = some true ∨ q ∈ (g.refsOf r).reverse ++ stack := by
    rintro q (hq | hq)
    · exact .inl ((hset q).2 (.inr hq))
    · obtain rfl | hq := List.mem_cons.1 hq
      · exact .inl ((hset q).2 (.inl rfl))
      · exact .inr (List.mem_append_right _ hq)
  have hmentioned : ∀ q, q ∈ (g.refsOf r).reverse ↔ (g.rule r).body.Mentions q := by
    intro q
    rw [List.mem_reverse]
    exact Expr.mem_refs_iff
  refine ⟨List.length_set.trans h.length, ?_, ?_, hkept _ h.start, ?_⟩
  · intro q hq
    obtain hq | hq := List.mem_append.1 hq
    · exact (hrefs.within_rule (h.lt r List.mem_cons_self)).refs q (List.mem_reverse.1 hq)
    · exact h.lt q (List.mem_cons_of_mem r hq)
  · have hr : g.InUse r := h.reached r (.inr List.mem_cons_self)
    rintro q (hq | hq)
    · obtain rfl | hq := (hset q).1 hq
      · exact hr
      · exact h.reached q (.inl hq)
    · obtain hq | hq := List.mem_append.1 hq
      · exact hr.tail ((hmentioned q).1 hq)
      · exact h.reached q (.inr (List.mem_cons_of_mem r hq))
  · intro p hp q hq
    obtain rfl | hp := (hset p).1 hp
    · exact .inr (List.mem_append_left _ ((hmentioned q).2 hq))
    · exact hkept q (h.closed p hp q hq)

/-- Marking a rule moves its mentions to the stack. -/
theorem mentionsLeft_mark (hr : r < g.size) (hmark : used[r]? = some false)
    (stack : List RuleId) :
    g.mentionsLeft (used.set r true, (g.refsOf r).reverse ++ stack) + 1 =
      g.mentionsLeft (used, r :: stack) := by
  have hrule := getElem?_rule hr
  have hentry : (g.rules.zip used)[r]? = some (g.rule r, false) :=
    List.getElem?_zip_eq_some.2 ⟨hrule, hmark⟩
  have hsum := sum_map_set (f := fun (entry : Rule × Bool) =>
    if entry.2 then 0 else entry.1.body.refs.length) hentry (g.rule r, true)
  simp only [mentionsLeft, zip_set hrule, List.length_append, List.length_reverse,
    List.length_cons]
  simp only [Bool.false_eq_true, if_false, if_true, Nat.add_zero] at hsum
  have hlength : (g.refsOf r).length = (g.rule r).body.refs.length := rfl
  omega

/-- When nothing is left on the stack, the rules with a mark are the ones that are reached. -/
theorem Marking.marked_iff (h : g.Marking (used, [])) : used[r]? = some true ↔ g.InUse r := by
  refine ⟨fun hr => h.reached r (.inl hr), fun hr => ?_⟩
  induction hr with
  | refl => exact h.start.resolve_right List.not_mem_nil
  | tail _ hstep ih => exact (h.closed _ ih _ hstep).resolve_right List.not_mem_nil

theorem mentionsLeft_markStart (g : Rules) :
    g.mentionsLeft g.markStart = 1 + (g.rules.map (·.body.refs.length)).sum := by
  have hlength : g.rules.length ≤ (List.replicate g.size false).length :=
    List.length_replicate.symm.le
  have hmap : ((g.rules.zip (List.replicate g.size false)).map fun (rule, marked) =>
      if marked then 0 else rule.body.refs.length) = g.rules.map (·.body.refs.length) := by
    conv_rhs => rw [← List.map_fst_zip hlength, List.map_map]
    refine List.map_congr_left ?_
    rintro ⟨rule, marked⟩ hentry
    obtain rfl := List.eq_of_mem_replicate (List.of_mem_zip hentry).2
    rfl
  rw [mentionsLeft, markStart, hmap]
  rfl

/-- The search ends with marks for the rules that are reached. Every turn takes a mention from the
    stack, and a rule puts its mentions there only once. -/
theorem mark_ends (hrefs : g.RefsInRange) (hsize : 0 < g.size) :
    ∃ k ≤ 1 + (g.rules.map (·.body.refs.length)).sum, ∃ used,
      EndsAfter g.markStep? used k g.markStart ∧ used.length = g.size ∧
      ∀ r, used[r]? = some true ↔ g.InUse r := by
  have hstep : ∀ c, g.Marking c →
      (∃ used, g.markStep? c = some (.inl used) ∧
        (used.length = g.size ∧ ∀ r, used[r]? = some true ↔ g.InUse r)) ∨
      ∃ c', g.markStep? c = some (.inr c') ∧ g.Marking c' ∧
        g.mentionsLeft c' < g.mentionsLeft c := by
    rintro ⟨used, - | ⟨r, stack⟩⟩ h
    · exact .inl ⟨used, rfl, h.length, fun r => h.marked_iff⟩
    · have hr : r < g.size := h.lt r List.mem_cons_self
      have hlt : r < used.length := h.length ▸ hr
      have hentry := List.getElem?_eq_getElem hlt
      refine .inr ?_
      rw [markStep?, hentry]
      cases hmarked : used[r] with
      | true =>
        rw [hmarked] at hentry
        refine ⟨_, rfl, h.skip hentry, ?_⟩
        simp only [mentionsLeft, List.length_cons]
        omega
      | false =>
        rw [hmarked] at hentry
        have hleft := mentionsLeft_mark hr hentry stack
        refine ⟨(used.set r true, (g.refsOf r).reverse ++ stack), ?_, h.mark hrefs, by omega⟩
        rw [getElem?_rule hr]
        rfl
  obtain ⟨k, hk, used, hends, hused⟩ := exists_endsAfter g.mentionsLeft hstep (marking_start hsize)
  exact ⟨k, mentionsLeft_markStart g ▸ hk, used, hends, hused⟩

/-! ## Reports -/

/-- The report on a rule without a use. -/
def unusedReport (g : Rules) (r : RuleId) : Diagnostic :=
  Diagnostic.about .unusedRule (g.rule r).span (g.rule r).name

theorem map_rule_range (g : Rules) : (List.range g.size).map g.rule = g.rules := by
  rw [← List.zipIdx_map_fst 0 g.rules]
  exact (map_zipIdx_eq fun r rule hr => (rule_eq_of_getElem? hr).symm).symm

theorem mem_used_iff : r ∈ g.used ↔ g.InUse r := by
  have hnext : ∀ q, g.refsOf q ≠ [] → q ∈ List.range g.size := by
    intro q hq
    rw [List.mem_range]
    by_contra hle
    refine hq ?_
    rw [refsOf, Rules.rule, List.getD_eq_getElem?_getD,
      List.getElem?_eq_none (Nat.le_of_not_lt hle)]
    rfl
  have hsteps : ((List.range g.size).flatMap g.refsOf).length ≤
      (g.rules.flatMap (·.body.refs)).length := by
    conv_rhs => rw [← map_rule_range g, List.flatMap_map]
    exact Nat.le_refl _
  refine (mem_reachableFrom_iff (List.range g.size) hnext hsteps).trans ?_
  have hstep : (fun q r => r ∈ g.refsOf q) = fun q r => (g.rule q).body.Mentions r := by
    funext q r
    exact propext Expr.mem_refs_iff
  rw [hstep]
  rfl

theorem unused_eq_map (g : Rules) :
    g.unused = ((List.range g.size).filter fun r => !g.used.contains r).map g.unusedReport := by
  have hrules : g.rules.zipIdx = (List.range g.size).map fun r => (g.rule r, r) := by
    rw [← List.map_id g.rules.zipIdx]
    refine map_zipIdx_eq fun r rule hr => ?_
    rw [rule_eq_of_getElem? hr]
    rfl
  rw [unused, hrules, List.filter_map, List.map_map]
  rfl

/-- What is reported when these rules have marks. -/
theorem report_eq_map (h : used.length = g.size) :
    (((g.rules.zip used).filter fun (_, used) => !used).map fun (rule, _) =>
      Diagnostic.about .unusedRule rule.span rule.name) =
    ((List.range g.size).filter fun r => !used.getD r false).map g.unusedReport := by
  have hzip : g.rules.zip used =
      (List.range g.size).map fun r => (g.rule r, used.getD r false) := by
    refine List.ext_getElem? fun r => ?_
    rw [List.getElem?_map]
    by_cases hr : r < g.size
    · have hmarked : used[r]? = some (used.getD r false) := by
        rw [List.getD_eq_getElem?_getD, List.getElem?_eq_getElem (h ▸ hr)]
        rfl
      rw [List.getElem?_range hr]
      exact List.getElem?_zip_eq_some.2 ⟨getElem?_rule hr, hmarked⟩
    · rw [List.getElem?_eq_none, List.getElem?_eq_none]
      · rfl
      · rw [List.length_range]
        exact Nat.le_of_not_lt hr
      · rw [List.length_zip]
        exact (Nat.min_le_left _ _).trans (Nat.le_of_not_lt hr)
  rw [hzip, List.filter_map, List.map_map]
  rfl

/-- The search reports the rules that are not used. -/
theorem reportUnused?_eq (hrefs : g.RefsInRange) (hsize : 0 < g.size) :
    g.reportUnused? = some g.unused := by
  obtain ⟨k, -, used, hends, hlength, hused⟩ := mark_ends hrefs hsize
  have hsame : ∀ r, (!used.getD r false) = !g.used.contains r := by
    intro r
    rw [Bool.eq_iff_iff, Bool.not_eq_true', Bool.not_eq_true', ← Bool.not_eq_true,
      ← Bool.not_eq_true, getD_false_iff, hused, List.contains_iff_mem, mem_used_iff]
  rw [reportUnused?, hends.iterate?_eq, unused_eq_map]
  refine congrArg some ((report_eq_map hlength).trans ?_)
  rw [List.filter_congr fun r _ => hsame r]

/-- The rules that are reported are the ones that no chain of mentions leads to from the start
    rule, each once and in the order of the rules. The search with marks looks up the start rule
    first, so there has to be one. It ends after no more turns than there are mentions, and one for
    the start rule, and reports the same. -/
theorem unused_spec (g : Rules) (hrefs : g.RefsInRange) :
    (∃ rs : List RuleId, rs.Pairwise (· < ·) ∧ (∀ r, r ∈ rs ↔ r < g.size ∧ ¬g.InUse r) ∧
      g.unused = rs.map g.unusedReport) ∧
    (0 < g.size → g.reportUnused? = some g.unused ∧
      ∃ k ≤ 1 + (g.rules.map (·.body.refs.length)).sum, ∃ used,
        EndsAfter g.markStep? used k g.markStart) := by
  refine ⟨⟨_, ?_, ?_, unused_eq_map g⟩, fun hsize => ⟨reportUnused?_eq hrefs hsize, ?_⟩⟩
  · exact List.pairwise_lt_range.filter _
  · intro r
    rw [List.mem_filter, List.mem_range, Bool.not_eq_true', ← Bool.not_eq_true,
      List.contains_iff_mem, mem_used_iff]
  · obtain ⟨k, hk, used, hends, -⟩ := mark_ends hrefs hsize
    exact ⟨k, hk, used, hends⟩

/-- Rules that refer to themselves and to each other, in all positions. Nothing used refers to `u`,
    though `u` refers to itself and to a rule that is used. -/
def knotted : Rules :=
  ⟨[⟨"s", ⟨0, 1⟩, .alt [.seq [.terminal 0, .repeated (.rule 2) .zeroOrMore], .rule 0]⟩,
    ⟨"u", ⟨20, 21⟩, .seq [.rule 1, .rule 2]⟩,
    ⟨"a", ⟨30, 31⟩, .alt [.rule 2, .seq [.empty, .alt [.terminal 0, .rule 0]]]⟩]⟩

theorem unused_knotted : knotted.unused = [Diagnostic.about .unusedRule ⟨20, 21⟩ "u"] := by
  have hvisit : visit knotted.refsOf 8 [start] [] = [2, 0] := by decide
  have hused : knotted.used.Perm [2, 0] := hvisit ▸ List.mergeSort_perm _ _
  rw [unused_eq_map, List.filter_congr fun r _ => congrArg _ (hused.contains_eq (a := r))]
  rfl

theorem unused_spec_knotted : knotted.RefsInRange ∧
    (∃ rs : List RuleId, rs.Pairwise (· < ·) ∧
      (∀ r, r ∈ rs ↔ r < knotted.size ∧ ¬knotted.InUse r) ∧
      [Diagnostic.about .unusedRule ⟨20, 21⟩ "u"] = rs.map knotted.unusedReport) ∧
    knotted.reportUnused? = some [Diagnostic.about .unusedRule ⟨20, 21⟩ "u"] ∧
    ∃ k ≤ 7, ∃ used, EndsAfter knotted.markStep? used k knotted.markStart := by
  have hrefs : knotted.RefsInRange := by decide
  obtain ⟨hreports, hsearch⟩ := unused_spec knotted hrefs
  obtain ⟨hfound, hends⟩ := hsearch (by decide)
  rw [unused_knotted] at hreports hfound
  exact ⟨hrefs, hreports, hfound, hends⟩

end Rules

end FluentGrammar
