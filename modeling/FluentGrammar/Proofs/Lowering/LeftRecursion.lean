import FluentGrammar.Proofs.Language.Rules
import FluentGrammar.Rules.LeftRecursion
import Mathlib.Tactic.ByContra

/-
  Removing left recursion keeps what is read from every expression, to its end and to any point
  (`reads_withoutLeftRecursion`). The rewritten body reads a base and then tails. The old one goes
  through the recursive branches first, but what it reads is the same base with the same tails
  behind it. What can become of a body is said once, in `ofBody_cases`.
-/

namespace FluentGrammar

open LeftRecursion

namespace Expr

variable {g : Rules} {x : Extent} {e b : Expr} {es : List Expr} {u v w : List TerminalId}

theorem Reads.ofBranches (hb : b ∈ es) (h : Reads g x b w) : Reads g x (ofBranches es) w := by
  rcases es with - | ⟨c, - | ⟨d, es⟩⟩
  · cases hb
  · obtain rfl := List.mem_singleton.1 hb
    exact h
  · exact .alt hb h

/-- What is read from alternatives is read from one of them, unless nothing is read. -/
theorem Reads.ofBranches_cases (h : Reads g x (.ofBranches es) w) :
    (x = .start ∧ w = []) ∨ ∃ b ∈ es, Reads g x b w := by
  rcases es with - | ⟨c, - | ⟨d, es⟩⟩
  · cases h with
    | cut => exact .inl ⟨rfl, rfl⟩
    | alt hb => cases hb
  · exact .inr ⟨c, List.mem_singleton_self c, h⟩
  · cases h with
    | cut => exact .inl ⟨rfl, rfl⟩
    | alt hb h => exact .inr ⟨_, hb, h⟩

/-- Behind whole repetitions the repeated expression is still repeated. -/
theorem Reads.star_append (hu : Reads g .whole (.repeated e .zeroOrMore) u)
    (hv : Reads g x (.repeated e .zeroOrMore) v) :
    Reads g x (.repeated e .zeroOrMore) (u ++ v) := by
  generalize hy : Extent.whole = y at hu
  generalize hs : Expr.repeated e .zeroOrMore = s at hu
  induction hu with
  | starNone =>
    obtain ⟨rfl, -⟩ := Expr.repeated.inj hs
    exact hv
  | starPast ha _ _ ih =>
    obtain ⟨rfl, -⟩ := Expr.repeated.inj hs
    rw [List.append_assoc]
    exact .starPast ha (ih hy hs)
  | starHere => cases hy
  | cut => cases hy
  | _ => cases hs

end Expr

/-! ## The parts of a body -/

/-- The expression is the rule, or a sequence that begins with it. -/
inductive Expr.StartsWith (r : RuleId) : Expr → Prop
  | rule : StartsWith r (.rule r)
  | seq (rest : List Expr) : StartsWith r (.seq (.rule r :: rest))

namespace LeftRecursion

/-- The branches that do not begin with the rule. -/
def bases (r : RuleId) (body : Expr) : List Expr :=
  body.branches.filter fun b => (tail? r b).isNone

/-- What follows the rule in the branches that begin with it. -/
def tails (r : RuleId) (body : Expr) : List Expr :=
  body.branches.filterMap fun b => (tail? r b).join

/-- A base and then any number of tails. -/
def rewritten (r : RuleId) (body : Expr) : Expr :=
  .seq [.ofBranches (bases r body), .repeated (.ofBranches (tails r body)) .zeroOrMore]

/-- The body that an outcome leaves. -/
def Outcome.bodyOr (old : Expr) : Outcome → Expr
  | .replaced body => body
  | .kept | .noBase => old

variable {g : Rules} {r : RuleId} {b body new T : Expr} {x : Extent} {u v w : List TerminalId}

theorem eq_rule_of_tail? (h : tail? r b = some none) : b = .rule r := by
  unfold tail? at h
  split at h
  · next s =>
    split at h
    · next hs => rw [beq_iff_eq.1 hs]
    · cases h
  · split at h <;> cases h
  · cases h

/-- A branch that begins with the rule is the rule and then its tail. -/
theorem eq_seq_of_tail? (h : tail? r b = some (some T)) :
    ∃ rest, b = .seq (.rule r :: rest) ∧
      ∀ (g : Rules) x w, Expr.Reads g x T w ↔ Expr.Reads g x (.seq rest) w := by
  unfold tail? at h
  split at h
  · split at h <;> simp at h
  · next s rest =>
    split at h
    · next hs =>
      obtain rfl : s = r := by simpa using hs
      refine ⟨rest, rfl, fun g x w => ?_⟩
      simp only [Option.some.injEq] at h
      subst h
      split
      · exact Expr.reads_seq_singleton.symm
      · rfl
    · simp at h
  · simp at h

theorem mem_tails : T ∈ tails r body ↔ ∃ b ∈ body.branches, tail? r b = some (some T) := by
  simp [tails, List.mem_filterMap, Option.join_eq_some_iff]

theorem mem_bases : b ∈ bases r body ↔ b ∈ body.branches ∧ tail? r b = none := by
  simp [bases]

theorem isSome_tail?_iff : (tail? r b).isSome = true ↔ b.StartsWith r := by
  constructor
  · intro h
    obtain ⟨tail, htail⟩ := Option.isSome_iff_exists.1 h
    cases tail with
    | none =>
      rw [eq_rule_of_tail? htail]
      exact .rule
    | some T =>
      obtain ⟨rest, rfl, -⟩ := eq_seq_of_tail? htail
      exact .seq rest
  · intro h
    cases h with
    | rule => simp [tail?]
    | seq rest => simp [tail?]

instance (r : RuleId) (b : Expr) : Decidable (b.StartsWith r) :=
  decidable_of_iff _ isSome_tail?_iff

theorem tail?_eq_none_iff : tail? r b = none ↔ ¬b.StartsWith r := by
  rw [← isSome_tail?_iff, Option.isSome_iff_ne_none, Classical.not_not]

theorem mem_bases_iff : b ∈ bases r body ↔ b ∈ body.branches ∧ ¬b.StartsWith r := by
  rw [mem_bases, tail?_eq_none_iff]

/-- A body is kept when no branch begins with the rule, and there is no base when all branches do.
    Else the bases stay, with repeated tails behind them if there are tails. -/
theorem ofBody_cases (r : RuleId) (body : Expr) :
    (Outcome.ofBody r body = .kept ∧ ∀ b ∈ body.branches, ¬b.StartsWith r) ∨
    (Outcome.ofBody r body = .noBase ∧ body.branches ≠ [] ∧
      ∀ b ∈ body.branches, b.StartsWith r) ∨
    ((∃ b ∈ body.branches, b.StartsWith r) ∧ bases r body ≠ [] ∧
      ((tails r body = [] ∧ Outcome.ofBody r body = .replaced (.ofBranches (bases r body))) ∨
        (tails r body ≠ [] ∧ Outcome.ofBody r body = .replaced (rewritten r body)))) := by
  have hkept : (body.branches.all fun b => (tail? r b).isNone) = true ↔
      ∀ b ∈ body.branches, ¬b.StartsWith r := by
    simp only [List.all_eq_true, Option.isNone_iff_eq_none, tail?_eq_none_iff]
  unfold Outcome.ofBody
  dsimp only
  split
  · next hall => exact .inl ⟨rfl, hkept.1 hall⟩
  · next hall =>
    obtain ⟨b, hb, hstart⟩ : ∃ b ∈ body.branches, b.StartsWith r := by
      by_contra hnone
      exact hall (hkept.2 fun b hb hstart => hnone ⟨b, hb, hstart⟩)
    split
    · next hbases =>
      refine .inr (.inl ⟨rfl, List.ne_nil_of_mem hb, fun c hc => ?_⟩)
      by_contra hother
      exact List.ne_nil_of_mem (mem_bases_iff.2 ⟨hc, hother⟩) (List.isEmpty_iff.1 hbases)
    · next hbases =>
      refine .inr (.inr ⟨⟨b, hb, hstart⟩, fun h => hbases (List.isEmpty_iff.2 h), ?_⟩)
      split
      · next htails => exact .inl ⟨List.isEmpty_iff.1 htails, rfl⟩
      · next htails => exact .inr ⟨fun h => htails (List.isEmpty_iff.2 h), rfl⟩

theorem reads_star_nil (h : Expr.Reads g x (.repeated (.alt []) .zeroOrMore) w) : w = [] := by
  cases h with
  | cut | starNone => rfl
  | starHere h =>
    cases h with
    | cut => rfl
    | alt hb => cases hb
  | starPast hu _ =>
    cases hu with
    | alt hb => cases hb

/-- A replaced body reads what a base and then tails read, also when there are no tails. -/
theorem reads_of_replaced (h : Outcome.ofBody r body = .replaced new) :
    Expr.Reads g x new w ↔ Expr.Reads g x (rewritten r body) w := by
  obtain ⟨hout, -⟩ | ⟨hout, -⟩ | ⟨-, -, ⟨htails, hout⟩ | ⟨-, hout⟩⟩ := ofBody_cases r body
  · cases hout.symm.trans h
  · cases hout.symm.trans h
  · obtain rfl := Outcome.replaced.inj (hout.symm.trans h)
    rw [rewritten, htails]
    constructor
    · intro h
      cases x with
      | start => exact .seqHere h
      | whole => simpa using Expr.Reads.seqPast h (Expr.reads_seq_singleton.2 .starNone)
    · intro h
      cases h with
      | cut => exact .cut _
      | seqHere h => exact h
      | seqPast hu hv =>
        obtain rfl := reads_star_nil (Expr.reads_seq_singleton.1 hv)
        rw [List.append_nil]
        exact hu.ofWhole
  · obtain rfl := Outcome.replaced.inj (hout.symm.trans h)
    rfl

end LeftRecursion

/-! ## The rules -/

namespace Rules

variable {g : Rules} {r : RuleId} {e : Expr} {x : Extent} {u v w : List TerminalId}

theorem rules_withoutLeftRecursion (g : Rules) : g.withoutLeftRecursion.1.rules =
    g.rules.zipIdx.map fun x =>
      { x.1 with body := (Outcome.ofBody x.2 x.1.body).bodyOr x.1.body } := by
  simp only [withoutLeftRecursion, List.map_map]
  refine List.map_congr_left fun x _ => ?_
  simp only [Function.comp_apply]
  cases Outcome.ofBody x.2 x.1.body <;> rfl

/-- Only bodies change. -/
theorem rule_withoutLeftRecursion (g : Rules) (r : RuleId) : g.withoutLeftRecursion.1.rule r =
    { g.rule r with body := (Outcome.ofBody r (g.rule r).body).bodyOr (g.rule r).body } := by
  rw [rule, rule, rules_withoutLeftRecursion, List.getD_eq_getElem?_getD,
    List.getD_eq_getElem?_getD, List.getElem?_map, List.getElem?_zipIdx, Nat.zero_add]
  cases g.rules[r]? <;> rfl

theorem body_withoutLeftRecursion (g : Rules) (r : RuleId) :
    (g.withoutLeftRecursion.1.rule r).body =
      (Outcome.ofBody r (g.rule r).body).bodyOr (g.rule r).body :=
  congrArg Rule.body (rule_withoutLeftRecursion g r)

/-- Under the rules without left recursion, one more tail can follow whatever a rewritten rule has
    read: that is bases and tails already. -/
theorem reads_rule_append_tail {new : Expr}
    (hout : Outcome.ofBody r (g.rule r).body = .replaced new)
    (hu : Expr.Reads g.withoutLeftRecursion.1 .whole (.rule r) u)
    (hv : Expr.Reads g.withoutLeftRecursion.1 x (.ofBranches (tails r (g.rule r).body)) v) :
    Expr.Reads g.withoutLeftRecursion.1 x (.rule r) (u ++ v) := by
  have hbody := body_withoutLeftRecursion g r
  rw [hout, Outcome.bodyOr] at hbody
  have hstar : Expr.Reads g.withoutLeftRecursion.1 x
      (.repeated (.ofBranches (tails r (g.rule r).body)) .zeroOrMore) v := by
    cases x with
    | start => exact .starHere hv
    | whole => simpa using Expr.Reads.starPast hv .starNone
  cases hu with
  | rule hu =>
    rw [hbody, reads_of_replaced hout] at hu
    cases hu with
    | seqPast h1 h2 =>
      have h2 := (Expr.reads_seq_singleton.1 h2).star_append hstar
      refine .rule (hbody ▸ (reads_of_replaced hout).2 ?_)
      rw [List.append_assoc]
      exact .seqPast h1 (Expr.reads_seq_singleton.2 h2)

/-- Under the rules without left recursion, the old body of a rule reads no more than the rule. -/
theorem reads_rule_of_old_body
    (h : Expr.Reads g.withoutLeftRecursion.1 x (g.rule r).body w) :
    Expr.Reads g.withoutLeftRecursion.1 x (.rule r) w := by
  have hbody := body_withoutLeftRecursion g r
  cases hout : Outcome.ofBody r (g.rule r).body with
  | kept | noBase =>
    rw [hout, Outcome.bodyOr] at hbody
    exact .rule (hbody ▸ h)
  | replaced new =>
    rw [hout, Outcome.bodyOr] at hbody
    obtain ⟨rfl, rfl⟩ | ⟨b, hb, h⟩ := h.branches_cases
    · exact .cut _
    cases htail : tail? r b with
    | none =>
      have hbase := h.ofBranches (mem_bases.2 ⟨hb, htail⟩)
      refine .rule (hbody ▸ (reads_of_replaced hout).2 ?_)
      cases x with
      | start => exact .seqHere hbase
      | whole =>
        rw [← List.append_nil w]
        exact .seqPast hbase (Expr.reads_seq_singleton.2 .starNone)
    | some tail =>
      cases tail with
      | none => exact eq_rule_of_tail? htail ▸ h
      | some T =>
        obtain ⟨rest, rfl, hT⟩ := eq_seq_of_tail? htail
        cases h with
        | cut => exact .cut _
        | seqHere h => exact h
        | seqPast hu hv =>
          have hTv := ((hT _ _ _).2 hv).ofBranches (mem_tails.2 ⟨_, hb, htail⟩)
          exact reads_rule_append_tail hout hu hTv

/-- Under the old rules, tails can follow whatever the rule has read. -/
theorem reads_rule_append_star (hu : Expr.Reads g .whole (.rule r) u)
    (hv : Expr.Reads g x (.repeated (.ofBranches (tails r (g.rule r).body)) .zeroOrMore) v) :
    Expr.Reads g x (.rule r) (u ++ v) := by
  -- One more tail behind the rule is the recursive branch that the tail was cut from.
  have follow {x u v} (hu : Expr.Reads g .whole (.rule r) u)
      (hv : Expr.Reads g x (.ofBranches (tails r (g.rule r).body)) v) :
      Expr.Reads g x (.rule r) (u ++ v) := by
    obtain ⟨rfl, rfl⟩ | ⟨T, hT, hv⟩ := hv.ofBranches_cases
    · rw [List.append_nil]
      exact hu.toStart
    obtain ⟨b, hb, htail⟩ := mem_tails.1 hT
    obtain ⟨rest, rfl, hreads⟩ := eq_seq_of_tail? htail
    exact .rule (.branches hb (.seqPast hu ((hreads _ _ _).1 hv)))
  generalize hs : Expr.repeated (.ofBranches (tails r (g.rule r).body)) .zeroOrMore = s at hv
  induction hv generalizing u with
  | cut =>
    rw [List.append_nil]
    exact hu.toStart
  | starNone =>
    rw [List.append_nil]
    exact hu
  | starHere h =>
    obtain ⟨rfl, -⟩ := Expr.repeated.inj hs
    exact follow hu h
  | starPast ha _ _ ih =>
    obtain ⟨rfl, -⟩ := Expr.repeated.inj hs
    rw [← List.append_assoc]
    exact ih (follow hu ha) hs
  | _ => cases hs

/-- Under the old rules, the new body of a rule reads no more than the rule. -/
theorem reads_rule_of_new_body
    (h : Expr.Reads g x (g.withoutLeftRecursion.1.rule r).body w) :
    Expr.Reads g x (.rule r) w := by
  have hbody := body_withoutLeftRecursion g r
  cases hout : Outcome.ofBody r (g.rule r).body with
  | kept | noBase =>
    rw [hout, Outcome.bodyOr] at hbody
    exact .rule (hbody ▸ h)
  | replaced new =>
    rw [hout, Outcome.bodyOr] at hbody
    rw [hbody, reads_of_replaced hout] at h
    have base {x w} (h : Expr.Reads g x (.ofBranches (bases r (g.rule r).body)) w) :
        Expr.Reads g x (.rule r) w := by
      obtain ⟨rfl, rfl⟩ | ⟨b, hb, h⟩ := h.ofBranches_cases
      · exact .cut _
      · exact .rule (.branches (mem_bases.1 hb).1 h)
    cases h with
    | cut => exact .cut _
    | seqHere h => exact base h
    | seqPast hu hv => exact reads_rule_append_star (base hu) (Expr.reads_seq_singleton.1 hv)

/-- Expressions are read alike under the rules with and without left recursion. -/
theorem reads_withoutLeftRecursion :
    Expr.Reads g.withoutLeftRecursion.1 x e w ↔ Expr.Reads g x e w :=
  ⟨fun h => h.of_bodies fun _ _ _ => reads_rule_of_new_body,
    fun h => h.of_bodies fun _ _ _ => reads_rule_of_old_body⟩

end Rules

end FluentGrammar
