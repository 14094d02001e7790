import FluentGrammar.Proofs.Lowering.Continuations
import FluentGrammar.Proofs.Lowering.Lower
import Mathlib.Logic.Function.Iterate

/-
  When rules can be flattened: exactly when no used rule nests in itself (`flatten_eq_error_iff`).
  The recursion ends because the open rules are distinct. So calls nest no deeper than one level for
  every rule and one more, and what stands in for calls below that does not matter
  (`unroll_iterate_eq`).
-/

namespace FluentGrammar

namespace Flatten

open FluentGrammar.Expr

variable {rules : Rules} {s : State} {next : NonterminalId} {r : RuleId}

/-! ## The recursion ends -/

/-- A call of a rule, where `f` stands in for the calls nested in it. -/
def unroll (rules : Rules) (f : RuleId → NonterminalId → State → Result) (r : RuleId)
    (next : NonterminalId) (s : State) : Result :=
  match s.expansions.lookup (r, next) with
  | some n => .ok (n, s)
  | none =>
    if s.active.contains r then .error ⟨r⟩
    else do
      let (body, s') ← expand rules f r (rules.rule r).body next (s.enter rules r next)
      return (s.count, { s' with active := s'.active.drop 1 }.produce rules r s.count
        [.nonterminal body])

theorem expandRule_succ (rules : Rules) (room : Nat) :
    expandRule rules (room + 1) = unroll rules (expandRule rules room) := by
  funext r next s
  unfold unroll
  cases hlookup : s.expansions.lookup (r, next) with
  | some n => exact expandRule_of_lookup hlookup
  | none =>
    by_cases hr : r ∈ s.active
    · rw [expandRule_of_mem hlookup hr]
      simp [hr]
    · rw [expandRule_of_new hlookup hr]
      simp [hr]

/-- The open rules are the same afterwards as before. -/
theorem calm_active (rules : Rules) : Calm rules fun s s' => s'.active = s.active where
  refl _ := rfl
  trans h h' := h'.trans h
  fresh _ _ := rfl
  produce _ _ _ _ _ := rfl

theorem keeps_active (rules : Rules) (room : Nat) :
    Keeps (fun s s' => s'.active = s.active) (expandRule rules room) := by
  induction room with
  | zero =>
    intro r next s n s' hok
    cases ExpandRuleCall.of_eq_ok hok with
    | found => rfl
  | succ room ih =>
    intro r next s n s' hok
    cases ExpandRuleCall.of_eq_ok hok with
    | found => rfl
    | entered _ _ h1 =>
      have hbody := (calm_active rules).expand ih _ _ _ _ _ h1
      exact congrArg (List.drop 1) hbody

section

variable {f g : RuleId → NonterminalId → State → Result} {owner : RuleId} {A : List RuleId}

mutual

/-- Nothing but the calls for its references matters to the expansion of an expression, and these
    are made while the same rules are open. -/
theorem expand_congr (hg : Keeps (fun s s' => s'.active = s.active) g) (e : Expr)
    (hfg : ∀ r ∈ e.refs, ∀ next s, s.active = A → f r next s = g r next s)
    (next : NonterminalId) (s : State) (hs : s.active = A) :
    expand rules f owner e next s = expand rules g owner e next s := by
  match e with
  | .empty | .terminal _ => rw [expand, expand]
  | .rule r =>
    rw [expand, expand]
    exact hfg r (List.mem_singleton_self r) next s hs
  | .seq items =>
    rw [expand, expand]
    exact expandSeq_congr hg items hfg next s hs
  | .alt bs =>
    rw [expand, expand]
    exact bind_eq_bind (expandAlt_congr hg bs hfg _ next _ hs) fun _ _ => rfl
  | .repeated inner .zeroOrMore | .repeated inner .oneOrMore | .repeated inner .optional =>
    rw [expand, expand]
    exact bind_eq_bind (expand_congr hg inner hfg _ _ hs) fun _ _ => rfl

theorem expandSeq_congr (hg : Keeps (fun s s' => s'.active = s.active) g) (items : List Expr)
    (hfg : ∀ r ∈ refsOfAll items, ∀ next s, s.active = A → f r next s = g r next s)
    (next : NonterminalId) (s : State) (hs : s.active = A) :
    expandSeq rules f owner items next s = expandSeq rules g owner items next s := by
  match items with
  | [] => rw [expandSeq, expandSeq]
  | item :: rest =>
    rw [expandSeq, expandSeq]
    refine bind_eq_bind (expandSeq_congr hg rest
      (fun r hr => hfg r (List.mem_append_right _ hr)) next s hs) ?_
    rintro ⟨after, s₁⟩ hrest
    refine expand_congr hg item (fun r hr => hfg r (List.mem_append_left _ hr)) after s₁ ?_
    rw [(calm_active rules).expandSeq hg rest next s after s₁ hrest, hs]

theorem expandAlt_congr (hg : Keeps (fun s s' => s'.active = s.active) g) (bs : List Expr)
    (hfg : ∀ r ∈ refsOfAll bs, ∀ next s, s.active = A → f r next s = g r next s)
    (n next : NonterminalId) (s : State) (hs : s.active = A) :
    expandAlt rules f owner n bs next s = expandAlt rules g owner n bs next s := by
  match bs with
  | [] => rw [expandAlt, expandAlt]
  | b :: rest =>
    rw [expandAlt, expandAlt]
    refine bind_eq_bind (expand_congr hg b
      (fun r hr => hfg r (List.mem_append_left _ hr)) next s hs) ?_
    rintro ⟨target, s₁⟩ hb
    refine expandAlt_congr hg rest (fun r hr => hfg r (List.mem_append_right _ hr)) n next _ ?_
    exact ((calm_active rules).expand hg b next s target s₁ hb).trans hs

end

end

/-- With one level for every rule that is not open yet, and one more in which a call can only find
    an expansion or an open rule, no call is left over for `f`. -/
theorem unroll_iterate_eq (hrefs : rules.RefsInRange)
    (f : RuleId → NonterminalId → State → Result) (room : Nat) (hr : r < rules.size)
    (hnodup : s.active.Nodup) (hactive : ∀ q ∈ s.active, q < rules.size)
    (hroom : rules.size ≤ s.active.length + room) :
    (unroll rules)^[room + 1] f r next s = expandRule rules room r next s := by
  induction room generalizing r next s with
  | zero =>
    show unroll rules f r next s = _
    unfold unroll
    cases hlookup : s.expansions.lookup (r, next) with
    | some n => exact (expandRule_of_lookup hlookup).symm
    | none =>
      have hmem : r ∈ s.active := by
        by_contra hnot
        exact absurd (length_lt_size hnodup hactive hr hnot) (Nat.not_lt.2 hroom)
      rw [expandRule_of_mem hlookup hmem]
      simp [hmem]
  | succ room ih =>
    rw [Function.iterate_succ_apply', expandRule_succ]
    unfold unroll
    split
    · rfl
    · split
      · rfl
      · next hnot =>
        have hnew : r ∉ s.active := mt List.contains_iff_mem.2 hnot
        refine bind_eq_bind ?_ fun _ _ => rfl
        refine expand_congr (A := r :: s.active) (keeps_active rules room) _ ?_ next _ rfl
        intro q hq k s' hs'
        refine ih ((hrefs.within_rule hr).refs q hq) ?_ ?_ ?_
        · rw [hs']
          exact List.nodup_cons.2 ⟨hnew, hnodup⟩
        · rw [hs']
          exact List.forall_mem_cons.2 ⟨hr, hactive⟩
        · rw [hs', List.length_cons]
          omega

/-! ## Flattening -/

theorem open_opening (rules : Rules) (catalog : Catalog) : Open rules [] (opening rules catalog) :=
  ⟨rfl, .nil, .nil, nofun, nofun, nofun⟩

/-- The call for the start rule. -/
theorem answers_flatten (hrefs : rules.RefsInRange) (hsize : 0 < rules.size) (catalog : Catalog) :
    Answers rules (Found rules [] Rules.start 0 (opening rules catalog))
      (expandRule rules rules.size Rules.start 0 (opening rules catalog)) :=
  expandRule_handles hrefs hsize rules.size Rules.start 0 _ [] (open_opening rules catalog) rfl
    Nat.zero_lt_one (Nat.le_add_left _ _)

end Flatten

namespace Rules

open FluentGrammar.Expr Flatten Report

variable {rules : Rules} {catalog : Catalog}

/-- The flattened grammar is the one that the expansion of the start rule leaves. -/
theorem flatten_eq (rules : Rules) (catalog : Catalog) : rules.flatten catalog =
    (expandRule rules rules.size start 0 (opening rules catalog)).map fun (n, s) =>
      { s.grammar with start := n } := by
  show (expandRule rules rules.size start 0 (opening rules catalog) >>= fun (n, s) =>
    .ok { s.grammar with start := n }) = _
  cases expandRule rules rules.size start 0 (opening rules catalog) <;> rfl

/-- The expansion of the start rule fails only at a rule that nests in itself, and succeeds only
    when there is none. -/
theorem exists_flatten_eq_error_iff (hrefs : rules.RefsInRange) (hsize : 0 < rules.size)
    (catalog : Catalog) :
    (∀ r, rules.flatten catalog = .error ⟨r⟩ → rules.Nests r) ∧
      ((∃ r, rules.Nests r) → ∃ r, rules.flatten catalog = .error ⟨r⟩) := by
  have h := answers_flatten hrefs hsize catalog
  refine ⟨fun r hr => ?_, fun ⟨r, hr⟩ => ?_⟩
  · cases hok : expandRule rules rules.size start 0 (opening rules catalog) with
    | error e =>
      rw [flatten_eq, hok] at hr
      rw [hok] at h
      obtain rfl := Except.error.inj hr
      exact h
    | ok a =>
      rw [flatten_eq, hok] at hr
      cases hr
  · cases hok : expandRule rules rules.size start 0 (opening rules catalog) with
    | error e =>
      refine ⟨e.rule, ?_⟩
      rw [flatten_eq, hok]
      rfl
    | ok a =>
      rw [hok] at h
      obtain ⟨hopen, -, -, -, hmem⟩ := h
      exact absurd hr (hopen.not_nests hmem)

/-- The removal of left recursion reports nothing but rules without a base case. -/
theorem kind_withoutLeftRecursion {d : Diagnostic} (h : d ∈ rules.withoutLeftRecursion.2) :
    d.kind = .leftRecursionNoBase := by
  obtain ⟨⟨rule, outcome⟩, -, h⟩ := List.mem_filterMap.1 h
  dsimp only at h
  split at h
  · cases h
    rfl
  · cases h

/-- Lowering that may flatten gives the flattened grammar, or the direct one with a warning. -/
theorem lower_flatten_cases {g : Grammar} {ds : List Diagnostic}
    (h : rules.lower catalog .flatten = .ok (g, ds)) :
    (rules.withoutLeftRecursion.1.flatten catalog = .ok g ∧
        ∀ d ∈ ds, d.kind ≠ .nonRegularGrammar) ∨
      ∃ r, rules.withoutLeftRecursion.1.flatten catalog = .error ⟨r⟩ ∧
        g = rules.withoutLeftRecursion.1.direct catalog ∧
        Diagnostic.about .nonRegularGrammar (rules.withoutLeftRecursion.1.rule r).span
          (rules.withoutLeftRecursion.1.rule r).name ∈ ds := by
  unfold lower at h
  dsimp only at h
  split at h
  · cases h
  · split at h
    · cases h
    · split at h
      · next hflat =>
        cases h
        refine .inl ⟨hflat, fun d hd hkind => ?_⟩
        rw [kind_withoutLeftRecursion hd] at hkind
        cases hkind
      · next r hflat =>
        cases h
        exact .inr ⟨r, hflat, rfl, List.mem_append_right _ (List.mem_singleton_self _)⟩

/-- Flattening comes to an end, with calls nested no deeper than there are rules and one more. It
    fails exactly when some used rule nests in itself, and then at such a rule. So lowering falls
    back to the direct grammar, with a warning about such a rule, exactly when there is one after
    the removal of left recursion. -/
theorem flatten_eq_error_iff (hrefs : rules.RefsInRange) (hsize : 0 < rules.size)
    (catalog : Catalog) :
    (∀ f, rules.flatten catalog =
      ((unroll rules)^[rules.size + 1] f start 0 (opening rules catalog)).map fun (n, s) =>
        { s.grammar with start := n }) ∧
    (∀ r, rules.flatten catalog = .error ⟨r⟩ → rules.Nests r) ∧
    ((∃ r, rules.flatten catalog = .error ⟨r⟩) ↔ ∃ r, rules.Nests r) ∧
    ∀ g ds, rules.lower catalog .flatten = .ok (g, ds) →
      ((∃ r, rules.withoutLeftRecursion.1.Nests r) →
        g = rules.withoutLeftRecursion.1.direct catalog ∧
        ∃ r, rules.withoutLeftRecursion.1.Nests r ∧
          Diagnostic.about .nonRegularGrammar (rules.withoutLeftRecursion.1.rule r).span
            (rules.withoutLeftRecursion.1.rule r).name ∈ ds) ∧
      ((¬∃ r, rules.withoutLeftRecursion.1.Nests r) →
        rules.withoutLeftRecursion.1.flatten catalog = .ok g ∧
        ∀ d ∈ ds, d.kind ≠ .nonRegularGrammar) := by
  obtain ⟨hnests, herror⟩ := exists_flatten_eq_error_iff hrefs hsize catalog
  refine ⟨fun f => ?_, hnests, ⟨fun ⟨r, hr⟩ => ⟨r, hnests r hr⟩, herror⟩, fun g ds hlower => ?_⟩
  · have hroll : (unroll rules)^[rules.size + 1] f start 0 (opening rules catalog) =
        expandRule rules rules.size start 0 (opening rules catalog) :=
      unroll_iterate_eq hrefs f rules.size hsize .nil nofun (Nat.le_add_left _ _)
    rw [flatten_eq, hroll]
  · obtain ⟨hnests, herror⟩ := exists_flatten_eq_error_iff hrefs.withoutLeftRecursion
      (lower_cases hlower).1 catalog
    obtain ⟨hflat, hkind⟩ | ⟨r, hflat, hdirect, hmem⟩ := lower_flatten_cases hlower
    · refine ⟨fun h => ?_, fun _ => ⟨hflat, hkind⟩⟩
      obtain ⟨r, hr⟩ := herror h
      rw [hflat] at hr
      cases hr
    · exact ⟨fun _ => ⟨hdirect, r, hnests r hflat, hmem⟩, fun h => absurd ⟨r, hnests r hflat⟩ h⟩

/-- A rule that calls the start rule in tail position and is not called in tail position itself,
    `s : t X | T ; t : T s? ;`. -/
def windingBack : Rules :=
  ⟨[⟨"s", default, .alt [.seq [.rule 1, .terminal 0], .terminal 1]⟩,
    ⟨"t", default, .seq [.terminal 1, .repeated (.rule 0) .optional]⟩]⟩

theorem windingBack_nests : windingBack.Nests 0 := by
  refine ⟨.refl, ?_⟩
  have hdown : (Expr.seq [.rule 1, .terminal 0]).RefersTo 1 (true && allNothing [.terminal 0]) :=
    .here .rule
  have hback : (Expr.seq [.repeated (.rule 0) .optional]).RefersTo 0 (true && allNothing []) :=
    .here (.optional .rule)
  have hstart : windingBack.Chain 0 1 false := .single (.alt List.mem_cons_self hdown)
  have ht : (windingBack.rule 1).body.RefersTo 0 true := .there hback
  exact hstart.snoc ht

theorem exists_lower_windingBack : windingBack.RefsInRange ∧ 0 < windingBack.size ∧
    (∃ r, windingBack.flatten twoActions = .error ⟨r⟩) ∧
    ∃ g ds, windingBack.lower twoActions .flatten = .ok (g, ds) ∧
      ∃ d ∈ ds, d.kind = .nonRegularGrammar := by
  have hrefs : windingBack.RefsInRange := by decide
  have hsize : 0 < windingBack.size := by decide
  obtain ⟨-, -, hiff, hlower⟩ := flatten_eq_error_iff hrefs hsize twoActions
  obtain ⟨⟨g, ds⟩, h⟩ := exists_eq_ok
    (show (windingBack.lower twoActions .flatten).toOption.isSome = true by decide +kernel)
  have hrest : windingBack.withoutLeftRecursion.1 = windingBack := rfl
  obtain ⟨-, r, -, hmem⟩ := (hlower g ds h).1 ⟨0, hrest.symm ▸ windingBack_nests⟩
  exact ⟨hrefs, hsize, hiff.2 ⟨0, windingBack_nests⟩, g, ds, h, _, hmem, rfl⟩

end Rules

end FluentGrammar
