import FluentGrammar.Proofs.Lowering.Scope
import FluentGrammar.Proofs.Support

/-
  What the removal of left recursion does to the rules one by one. The rules that it reports are
  those whose branches all begin with the rule itself, and these derive nothing
  (`withoutLeftRecursion_sentences`). One removal is not always enough: when a rule has only a group
  besides itself, the alternatives of the group become its branches, and they may begin with the
  rule (`Uncovers`). No other rule has such branches afterwards, and without such a rule a second
  removal changes nothing (`startsWith_withoutLeftRecursion_iff`).
-/

namespace FluentGrammar

open Report

/-! ## Outcomes -/

namespace LeftRecursion

variable {r : RuleId} {body : Expr}

theorem ofBody_eq_kept_iff :
    Outcome.ofBody r body = .kept ↔ ∀ b ∈ body.branches, ¬b.StartsWith r := by
  obtain ⟨hout, hnone⟩ | ⟨hout, hne, hall⟩ | ⟨⟨b, hb, hstart⟩, -, hout⟩ := ofBody_cases r body
  · exact ⟨fun _ => hnone, fun _ => hout⟩
  · constructor
    · intro h
      cases hout.symm.trans h
    · intro hnone
      obtain ⟨b, hb⟩ := List.exists_mem_of_ne_nil _ hne
      exact absurd (hall b hb) (hnone b hb)
  · constructor
    · intro h
      obtain ⟨-, hout⟩ | ⟨-, hout⟩ := hout <;> cases hout.symm.trans h
    · exact fun hnone => absurd hstart (hnone b hb)

theorem ofBody_eq_noBase_iff : Outcome.ofBody r body = .noBase ↔
    body.branches ≠ [] ∧ ∀ b ∈ body.branches, b.StartsWith r := by
  obtain ⟨hout, hnone⟩ | ⟨hout, hall⟩ | ⟨-, hbases, hout⟩ := ofBody_cases r body
  · constructor
    · intro h
      cases hout.symm.trans h
    · rintro ⟨hne, hall⟩
      obtain ⟨b, hb⟩ := List.exists_mem_of_ne_nil _ hne
      exact absurd (hall b hb) (hnone b hb)
  · exact ⟨fun _ => hall, fun _ => hout⟩
  · constructor
    · intro h
      obtain ⟨-, hout⟩ | ⟨-, hout⟩ := hout <;> cases hout.symm.trans h
    · rintro ⟨-, hall⟩
      obtain ⟨b, hb⟩ := List.exists_mem_of_ne_nil _ hbases
      obtain ⟨hmem, hother⟩ := mem_bases_iff.1 hb
      exact absurd (hall b hmem) hother

end LeftRecursion

/-! ## Rules without a base case -/

theorem Expr.StartsWith.branches {r : RuleId} {b : Expr} (h : b.StartsWith r) :
    ∀ c ∈ b.branches, c.StartsWith r := by
  cases h with
  | rule => exact List.forall_mem_singleton.2 .rule
  | seq rest => exact List.forall_mem_singleton.2 (.seq rest)

namespace Rules

open LeftRecursion

variable {g : Rules} {r : RuleId} {e : Expr} {w : List TerminalId}

/-- The rule has branches, and all of them begin with the rule. -/
def Baseless (g : Rules) (r : RuleId) : Prop :=
  (g.rule r).body.branches ≠ [] ∧ ∀ b ∈ (g.rule r).body.branches, b.StartsWith r

instance (g : Rules) (r : RuleId) : Decidable (g.Baseless r) :=
  inferInstanceAs (Decidable (_ ∧ _))

theorem sentence_withoutLeftRecursion :
    g.withoutLeftRecursion.1.Sentence r w ↔ g.Sentence r w := by
  rw [sentence_iff_reads, sentence_iff_reads, reads_withoutLeftRecursion]

theorem reports_withoutLeftRecursion (g : Rules) : g.withoutLeftRecursion.2 =
    ((List.range g.size).filter (g.Baseless ·)).map fun r =>
      Diagnostic.about .leftRecursionNoBase (g.rule r).span (g.rule r).name := by
  have houtcomes : (g.rules.zipIdx.map fun x => (x.1, Outcome.ofBody x.2 x.1.body)) =
      (List.range g.size).map fun r => (g.rule r, Outcome.ofBody r (g.rule r).body) := by
    refine map_zipIdx_eq fun r rule hr => ?_
    rw [rule_eq_of_getElem? hr]
  rw [← filterMap_ite_some]
  show (g.rules.zipIdx.map fun x => (x.1, Outcome.ofBody x.2 x.1.body)).filterMap _ = _
  rw [houtcomes, List.filterMap_map]
  congr 1
  funext r
  by_cases hr : g.Baseless r
  · rw [if_pos hr, Function.comp_apply, ofBody_eq_noBase_iff.2 hr]
  · rw [if_neg hr, Function.comp_apply]
    cases hout : Outcome.ofBody r (g.rule r).body with
    | kept | replaced => rfl
    | noBase => exact absurd (ofBody_eq_noBase_iff.1 hout) hr

/-- An expression that begins with a rule without a base case in all its branches derives nothing:
    a derivation would have to get past the rule first. -/
theorem not_startsWith_of_derives (hr : g.Baseless r) (h : e.Derives g w) :
    ¬∀ b ∈ e.branches, b.StartsWith r := by
  induction h with
  | empty | terminal | seqNil | starNone | starMore | plusOnce | plusMore | skip | take =>
    intro hall
    cases hall _ (List.mem_singleton_self _)
  | rule _ ih =>
    intro hall
    cases hall _ (List.mem_singleton_self _)
    exact ih hr.2
  | seqCons _ _ ih _ =>
    intro hall
    cases hall _ (List.mem_singleton_self _)
    exact ih (Expr.StartsWith.rule).branches
  | alt hb _ ih => exact fun hall => ih (hall _ hb).branches

/-- Removing left recursion changes the sentences of no rule. It reports exactly the rules all of
    whose branches begin with the rule itself, if there are any, in order, and these rules have no
    sentences. -/
theorem withoutLeftRecursion_sentences (g : Rules) :
    g.withoutLeftRecursion.1.size = g.size ∧
      (∀ r w, g.withoutLeftRecursion.1.Sentence r w ↔ g.Sentence r w) ∧
      (g.withoutLeftRecursion.2 = ((List.range g.size).filter (g.Baseless ·)).map fun r =>
        Diagnostic.about .leftRecursionNoBase (g.rule r).span (g.rule r).name) ∧
      ∀ r, g.Baseless r → ∀ w, ¬g.Sentence r w := by
  refine ⟨size_withoutLeftRecursion g, fun _ _ => sentence_withoutLeftRecursion,
    reports_withoutLeftRecursion g, fun r hr w h => ?_⟩
  exact not_startsWith_of_derives hr h (Expr.StartsWith.rule).branches

end Rules

/-! ## Branches left over -/

namespace LeftRecursion

variable {r : RuleId} {b body c : Expr} {es : List Expr}

/-- Besides the rule itself the only branch is a group, one of whose alternatives begins with the
    rule. -/
def Uncovers (r : RuleId) (body : Expr) : Prop :=
  ∃ front bs back, body = .alt (front ++ .alt bs :: back) ∧ front ++ back ≠ [] ∧
    (∀ e ∈ front ++ back, e = .rule r) ∧ ∃ b ∈ bs, b.StartsWith r

/-- A body with one base and no tails has the base and otherwise nothing but the rule itself. -/
theorem bases_eq_singleton_iff : bases r body = [c] ∧ tails r body = [] ↔
    ∃ front back, body.branches = front ++ c :: back ∧ (∀ e ∈ front ++ back, e = .rule r) ∧
      ¬c.StartsWith r := by
  constructor
  · rintro ⟨hbases, htails⟩
    obtain ⟨front, back, hbranches, hfront, hc, hback⟩ := List.filter_eq_cons_iff.1 hbases
    have hother : ∀ e ∈ front ++ back, tail? r e ≠ none := by
      intro e he htail
      rcases List.mem_append.1 he with he | he
      · exact hfront e he (by rw [htail]; rfl)
      · exact List.filter_eq_nil_iff.1 hback e he (by rw [htail]; rfl)
    refine ⟨front, back, hbranches, fun e he => ?_, ?_⟩
    · have hmem : e ∈ body.branches :=
        hbranches ▸ ((List.sublist_cons_self c back).append_left front).subset he
      cases htail : tail? r e with
      | none => exact absurd htail (hother e he)
      | some tail =>
        cases tail with
        | none => exact eq_rule_of_tail? htail
        | some T => exact absurd htails (List.ne_nil_of_mem (mem_tails.2 ⟨e, hmem, htail⟩))
    · rw [← tail?_eq_none_iff]
      exact Option.isNone_iff_eq_none.1 hc
  · rintro ⟨front, back, hbranches, hself, hc⟩
    have htail : ∀ e ∈ front ++ back, tail? r e = some none := by
      intro e he
      rw [hself e he]
      simp [tail?]
    have hnone := tail?_eq_none_iff.2 hc
    constructor
    · rw [bases, hbranches]
      refine List.filter_eq_cons_iff.2 ⟨front, back, rfl, fun e he => ?_, by simp [hnone], ?_⟩
      · simp [htail e (List.mem_append_left _ he)]
      · refine List.filter_eq_nil_iff.2 fun e he => ?_
        simp [htail e (List.mem_append_right _ he)]
    · rw [tails, hbranches]
      refine List.filterMap_eq_nil_iff.2 fun e he => ?_
      obtain he | he := List.mem_append.1 he
      · simp [htail e (List.mem_append_left _ he)]
      · obtain rfl | he := List.mem_cons.1 he
        · simp [hnone]
        · simp [htail e (List.mem_append_right _ he)]

/-- The group takes the place of the body. -/
theorem Uncovers.bodyOr_eq (h : Uncovers r body) : ∃ bs, .alt bs ∈ body.branches ∧
    (Outcome.ofBody r body).bodyOr body = .alt bs ∧ ∃ b ∈ bs, b.StartsWith r := by
  obtain ⟨front, bs, back, rfl, hne, hself, hbs⟩ := h
  have hgroup : ¬(Expr.alt bs).StartsWith r := nofun
  obtain ⟨hbases, htails⟩ := bases_eq_singleton_iff.2
    ⟨front, back, (rfl : (Expr.alt (front ++ .alt bs :: back)).branches = _), hself, hgroup⟩
  have hmem : Expr.alt bs ∈ (Expr.alt (front ++ .alt bs :: back)).branches :=
    List.mem_append_right _ List.mem_cons_self
  obtain ⟨-, hnone⟩ | ⟨-, -, hall⟩ | ⟨-, -, ⟨-, hout⟩ | ⟨hsome, -⟩⟩ :=
    ofBody_cases r (.alt (front ++ .alt bs :: back))
  · obtain ⟨e, he⟩ := List.exists_mem_of_ne_nil _ hne
    have hbranch := ((List.sublist_cons_self (Expr.alt bs) back).append_left front).subset he
    exact absurd (hself e he ▸ .rule) (hnone e hbranch)
  · exact absurd (hall _ hmem) hgroup
  · rw [hout, hbases]
    exact ⟨bs, hmem, rfl, hbs⟩
  · exact absurd htails hsome

theorem eq_alt_of_branches_eq {e : Expr} {front back : List Expr}
    (h : e.branches = front ++ c :: back) (hne : front ++ back ≠ []) :
    e = .alt (front ++ c :: back) := by
  cases e with
  | alt bs => exact congrArg Expr.alt h
  | empty | terminal | rule | seq | repeated =>
    have hlength := congrArg List.length h
    have hpos := List.length_pos_iff.2 hne
    simp only [Expr.branches, List.length_append, List.length_cons, List.length_nil] at hlength hpos
    omega

/-- When the only base has branches that begin with the rule, it is a group. -/
theorem uncovers_of_bases (hbases : bases r body = [c]) (htails : tails r body = [])
    (hstart : ∃ b ∈ body.branches, b.StartsWith r) (hleft : ∃ b ∈ c.branches, b.StartsWith r) :
    Uncovers r body := by
  obtain ⟨front, back, hbranches, hself, hc⟩ := bases_eq_singleton_iff.1 ⟨hbases, htails⟩
  have hne : front ++ back ≠ [] := by
    intro hnil
    obtain ⟨rfl, rfl⟩ := List.append_eq_nil_iff.1 hnil
    obtain ⟨b, hb, hstart⟩ := hstart
    rw [hbranches] at hb
    exact hc (List.mem_singleton.1 hb ▸ hstart)
  cases c with
  | alt bs => exact ⟨front, bs, back, eq_alt_of_branches_eq hbranches hne, hne, hself, hleft⟩
  | empty | terminal | rule | seq | repeated =>
    obtain ⟨b, hb, hleft⟩ := hleft
    exact absurd (List.mem_singleton.1 hb ▸ hleft) hc

theorem mem_branches_ofBranches (h : b ∈ (Expr.ofBranches es).branches) :
    (∃ c, es = [c] ∧ b ∈ c.branches) ∨ b ∈ es := by
  rcases es with - | ⟨c, - | ⟨d, es⟩⟩
  · exact .inr h
  · exact .inl ⟨c, rfl, h⟩
  · exact .inr h

theorem eq_singleton_of_ofBranches_eq_rule (h : Expr.ofBranches es = .rule r) :
    es = [.rule r] := by
  rcases es with - | ⟨c, - | ⟨d, es⟩⟩
  · cases h
  · exact congrArg (fun c => [c]) h
  · cases h

/-- When there is a base, the only branches beginning with the rule that are left come out of such
    a group. -/
theorem startsWith_bodyOr_iff (hbase : Outcome.ofBody r body ≠ .noBase) :
    (∃ b ∈ ((Outcome.ofBody r body).bodyOr body).branches, b.StartsWith r) ↔ Uncovers r body := by
  constructor
  · rintro ⟨b, hb, hleft⟩
    obtain ⟨hout, hnone⟩ | ⟨hout, -⟩ | ⟨hstart, hne, ⟨htails, hout⟩ | ⟨-, hout⟩⟩ :=
      ofBody_cases r body
    · rw [hout] at hb
      exact absurd hleft (hnone b hb)
    · exact absurd hout hbase
    · rw [hout, Outcome.bodyOr] at hb
      obtain ⟨c, hbases, hb⟩ | hb := mem_branches_ofBranches hb
      · exact uncovers_of_bases hbases htails hstart ⟨b, hb, hleft⟩
      · exact absurd hleft (mem_bases_iff.1 hb).2
    · rw [hout, Outcome.bodyOr, rewritten] at hb
      obtain rfl := List.mem_singleton.1 hb
      -- The new sequence begins with the bases, and none of them is the rule.
      generalize hfirst : Expr.ofBranches (bases r body) = first at hleft
      cases hleft
      have hrule : Expr.rule r ∈ bases r body := by
        rw [eq_singleton_of_ofBranches_eq_rule hfirst]
        exact List.mem_singleton_self _
      exact absurd .rule (mem_bases_iff.1 hrule).2
  · intro h
    obtain ⟨bs, -, hbody, b, hb, hstart⟩ := h.bodyOr_eq
    rw [hbody]
    exact ⟨b, hb, hstart⟩

/-- When there is a base, a body that stays as it is has no branch that begins with the rule. -/
theorem not_startsWith_of_bodyOr_eq (hbase : Outcome.ofBody r body ≠ .noBase)
    (h : (Outcome.ofBody r body).bodyOr body = body) : ∀ b ∈ body.branches, ¬b.StartsWith r := by
  intro b hb hstart
  obtain ⟨bs, hmem, hbody, -⟩ :=
    ((startsWith_bodyOr_iff hbase).1 ⟨b, h.symm ▸ hb, hstart⟩).bodyOr_eq
  rw [h] at hbody
  rw [hbody] at hmem
  have hlt : sizeOf (Expr.alt bs) < sizeOf bs := List.sizeOf_lt_of_mem hmem
  simp only [Expr.alt.sizeOf_spec] at hlt
  omega

end LeftRecursion

namespace Rules

open LeftRecursion

variable {g : Rules} {r : RuleId}

theorem reports_eq_nil_iff :
    g.withoutLeftRecursion.2 = [] ↔ ∀ r < g.size, ¬g.Baseless r := by
  rw [reports_withoutLeftRecursion, List.map_eq_nil_iff, List.filter_eq_nil_iff]
  simp only [List.mem_range, decide_eq_true_eq]

/-- Nothing is removed when no branch begins with its rule. -/
theorem withoutLeftRecursion_eq_self_iff : g.withoutLeftRecursion = (g, []) ↔
    ∀ r < g.size, ∀ b ∈ (g.rule r).body.branches, ¬b.StartsWith r := by
  constructor
  · intro h r hr
    have hbase : Outcome.ofBody r (g.rule r).body ≠ .noBase :=
      fun hout => reports_eq_nil_iff.1 (congrArg Prod.snd h) r hr (ofBody_eq_noBase_iff.1 hout)
    have hbody := body_withoutLeftRecursion g r
    rw [h] at hbody
    exact not_startsWith_of_bodyOr_eq hbase hbody.symm
  · intro h
    have hkept : ∀ x ∈ g.rules.zipIdx,
        { x.1 with body := (Outcome.ofBody x.2 x.1.body).bodyOr x.1.body } = x.1 := by
      rintro ⟨rule, r⟩ hx
      have hr := List.mk_mem_zipIdx_iff_getElem?.1 hx
      obtain ⟨hlt, -⟩ := List.getElem?_eq_some_iff.1 hr
      have hnone := h r hlt
      rw [rule_eq_of_getElem? hr] at hnone
      dsimp only
      rw [ofBody_eq_kept_iff.2 hnone, Outcome.bodyOr]
    have hrules : g.withoutLeftRecursion.1.rules = g.rules := by
      rw [rules_withoutLeftRecursion, List.map_congr_left hkept, List.zipIdx_map_fst]
    refine Prod.ext (congrArg Rules.mk hrules) (reports_eq_nil_iff.2 fun r hr hbase => ?_)
    obtain ⟨b, hb⟩ := List.exists_mem_of_ne_nil _ hbase.1
    exact h r hr b hb (hbase.2 b hb)

/-- When nothing is reported, a rule has branches afterwards that begin with the rule itself if and
    only if they come out of a group that was its only branch besides the rule. Then, and only
    then, a second removal changes the rules again. -/
theorem startsWith_withoutLeftRecursion_iff (hquiet : g.withoutLeftRecursion.2 = []) :
    (∀ r < g.size, (∃ b ∈ (g.withoutLeftRecursion.1.rule r).body.branches, b.StartsWith r) ↔
      Uncovers r (g.rule r).body) ∧
    (g.withoutLeftRecursion.1.withoutLeftRecursion = (g.withoutLeftRecursion.1, []) ↔
      ∀ r < g.size, ¬Uncovers r (g.rule r).body) := by
  have hleft : ∀ r < g.size,
      (∃ b ∈ (g.withoutLeftRecursion.1.rule r).body.branches, b.StartsWith r) ↔
        Uncovers r (g.rule r).body := by
    intro r hr
    rw [body_withoutLeftRecursion]
    exact startsWith_bodyOr_iff fun hout =>
      reports_eq_nil_iff.1 hquiet r hr (ofBody_eq_noBase_iff.1 hout)
  refine ⟨hleft, ?_⟩
  rw [withoutLeftRecursion_eq_self_iff, size_withoutLeftRecursion]
  constructor
  · intro h r hr huncovers
    obtain ⟨b, hb, hstart⟩ := (hleft r hr).2 huncovers
    exact h r hr b hb hstart
  · intro h r hr b hb hstart
    exact h r hr ((hleft r hr).1 ⟨b, hb, hstart⟩)

/-- A rule with a bare reference to itself besides a group, `r : r | (r T | X) ;`. -/
def selfOrGroup : Rules :=
  ⟨[⟨"r", default, .alt [.rule 0, .alt [.seq [.rule 0, .terminal 1], .terminal 0]]⟩]⟩

/-- Nothing is reported, but a branch of the rule still begins with it, and a second removal finds
    it. -/
theorem selfOrGroup_startsWith : selfOrGroup.withoutLeftRecursion.2 = [] ∧
    (∃ b ∈ (selfOrGroup.withoutLeftRecursion.1.rule 0).body.branches, b.StartsWith 0) ∧
    selfOrGroup.withoutLeftRecursion.1.withoutLeftRecursion.1 ≠
      selfOrGroup.withoutLeftRecursion.1 := by
  refine ⟨by decide, by decide, fun h => ?_⟩
  have hrefs := congrArg (fun g : Rules => g.rules.map (·.body.refs)) h
  exact absurd hrefs (by decide)

/-- One rule whose left recursion is removed at once and one whose is not,
    `s : s T | r ; r : r | (r T | X) ;`. -/
def onceAndTwice : Rules :=
  ⟨[⟨"s", default, .alt [.seq [.rule 0, .terminal 1], .rule 1]⟩,
    ⟨"r", default, .alt [.rule 1, .alt [.seq [.rule 1, .terminal 1], .terminal 0]]⟩]⟩

theorem onceAndTwice_startsWith : onceAndTwice.withoutLeftRecursion.2 = [] ∧
    (¬∃ b ∈ (onceAndTwice.withoutLeftRecursion.1.rule 0).body.branches, b.StartsWith 0) ∧
    (∃ b ∈ (onceAndTwice.withoutLeftRecursion.1.rule 1).body.branches, b.StartsWith 1) ∧
    onceAndTwice.withoutLeftRecursion.1.withoutLeftRecursion ≠
      (onceAndTwice.withoutLeftRecursion.1, []) := by
  have hquiet : onceAndTwice.withoutLeftRecursion.2 = [] := by decide
  obtain ⟨hleft, hagain⟩ := startsWith_withoutLeftRecursion_iff hquiet
  have hs : ¬Uncovers 0 (onceAndTwice.rule 0).body := by
    rintro ⟨front, bs, back, hbody, -⟩
    have hgroup : Expr.alt bs ∈ [.seq [.rule 0, .terminal 1], .rule 1] := by
      rw [Expr.alt.inj hbody]
      exact List.mem_append_right _ List.mem_cons_self
    simp at hgroup
  have hr : Uncovers 1 (onceAndTwice.rule 1).body :=
    ⟨[.rule 1], [.seq [.rule 1, .terminal 1], .terminal 0], [], rfl, nofun,
      fun e he => List.mem_singleton.1 he, _, List.mem_cons_self, .seq _⟩
  exact ⟨hquiet, fun h => hs ((hleft 0 (by decide)).1 h), (hleft 1 (by decide)).2 hr,
    fun h => hagain.1 h 1 (by decide) hr⟩

end Rules

end FluentGrammar
