import FluentGrammar.Proofs.Source.Settled

/-
  What parsing keeps. Every function of the parser is put together from a few steps: looking past
  trivia, attaching trivia or a token, reporting, and closing a node over what was attached. A
  relation between the state before, the trees attached and the state after that these steps keep
  is kept by all functions (`Respects.contents`). Each fact about all of parsing is such a relation.
-/

namespace FluentGrammar.Source.Parsing

open Report

/-- What the parser reports in state `s` about something that began in state `s₀`. -/
inductive Reports (s₀ s : State) : Diagnostic → Prop
  /-- An error at the next token. -/
  | here {d : Diagnostic} (hseverity : d.severity = .error) (hspan : d.span = s.span)
      (hrelated : d.related = []) : Reports s₀ s d
  /-- A rule without a semicolon behind its last token. -/
  | missing (hsettled : s.Settled) : Reports s₀ s
      ((Diagnostic.of .expectedSemicolon (.empty (s.lastStop.getD s.span.start))).relatedTo
        "started here" s₀.span)
  /-- A group that is not closed. -/
  | unclosed : Reports s₀ s
      ((Diagnostic.of .unclosedGroup (s₀.span.cover s.span)).relatedTo "opened here" s₀.span)

theorem Reports.severity {s₀ s : State} {d : Diagnostic} (h : Reports s₀ s d) :
    d.severity = .error := by
  cases h with
  | here hseverity => exact hseverity
  | missing => rfl
  | unclosed => rfl

/-- A relation of two states and the trees attached from the one to the other that the steps of the
    parser keep. -/
structure Respects (R : State → List Tree → State → Prop) : Prop where
  refl : ∀ s, R s [] s
  trans : ∀ {s s' s'' ts us}, R s ts s' → R s' us s'' → R s (ts ++ us) s''
  node : ∀ {s s' ts} (kind : NodeKind), R s ts s' → R s [.node kind ts] s'
  lookAhead : ∀ s, R s [] s.lookAhead
  flush : ∀ s, R s s.flush.1 s.flush.2
  bump : ∀ s, R s s.bump.1 s.bump.2
  report : ∀ {s₀ s ts d} offset, R s₀ ts s → Reports s₀ s d → R s₀ ts (s.report offset d)

variable {R : State → List Tree → State → Prop} {s s' s₀ : State} {ts us : List Tree}
  {room limit bound steps : Nat}

namespace Respects

variable (h : Respects R)

include h

/-- A step that attaches nothing, before others. -/
theorem after (hs : R s [] s₀) (hrest : R s₀ ts s') : R s ts s' := h.trans hs hrest

/-- A step that attaches nothing, behind others. -/
theorem before (hs : R s ts s₀) (hrest : R s₀ [] s') : R s ts s' := by
  rw [← List.append_nil ts]
  exact h.trans hs hrest

theorem errorHere (s : State) {d : Span → Diagnostic} (hd : ∀ span, (d span).severity = .error ∧
    (d span).span = span ∧ (d span).related = []) : R s [] (s.errorHere d) := by
  obtain ⟨hseverity, hspan, hrelated⟩ := hd s.span
  exact h.report _ (h.refl s) (.here hseverity hspan hrelated)

theorem bumpError (s : State) : R s s.bumpError.1 s.bumpError.2 :=
  h.trans (h.flush s) (h.node .error (h.bump _))

theorem eat {kind : TokenKind} (hok : s.eat kind = some (ts, s')) : R s ts s' := by
  rw [State.eat] at hok
  split at hok
  · obtain ⟨rfl, rfl⟩ := Prod.mk.inj (Option.some.inj hok)
    exact h.after (h.lookAhead s) (h.bump _)
  · cases hok

/-- A colon that is taken if there is one. -/
theorem colon (s : State) :
    R s ((s.eat .colon).getD ([], s.lookAhead)).1 ((s.eat .colon).getD ([], s.lookAhead)).2 := by
  cases heat : s.eat .colon with
  | none => exact h.lookAhead s
  | some result => exact h.eat heat

theorem quantifiers {inner : List Tree} (hinner : R s₀ inner s)
    (hok : quantifiers inner steps s = .ok (ts, s')) : R s₀ ts s' := by
  induction steps generalizing inner s with
  | zero => cases hok
  | succ steps ih =>
    have hahead := h.before hinner (h.lookAhead s)
    cases QuantifiersCall.of_eq_ok hok with
    | mark _ _ hmarks => exact ih (h.node .quantifier (h.trans hahead (h.bump _))) hmarks
    | stop => exact hahead

end Respects

/-! ## Expressions -/

/-- The functions on expressions keep the relation with so many steps. -/
structure Keeps (R : State → List Tree → State → Prop) (steps : Nat) : Prop where
  alt : ∀ {room s ts s'}, alt room steps s = .ok (ts, s') → R s ts s'
  branches : ∀ {room s ts s'}, branches room steps s = .ok (ts, s') → R s ts s'
  branch : ∀ {room s ts s'}, branch room steps s = .ok (ts, s') → R s ts s'
  items : ∀ {room s ts s'}, items room steps s = .ok (ts, s') → R s ts s'
  atom : ∀ {room s ts s'}, atom room steps s = .ok (ts, s') → R s ts s'
  group : ∀ {room s ts s'}, group room steps s = .ok (ts, s') → R s ts s'

namespace Respects

variable (h : Respects R) (hk : Keeps R steps)

include h hk

theorem alt_succ (hok : alt room (steps + 1) s = .ok (ts, s')) : R s ts s' := by
  obtain ⟨hfirst, hothers⟩ := AltCall.of_eq_ok hok
  have hbody := h.trans (hk.branch hfirst) (hk.branches hothers)
  exact h.trans (h.flush s) (h.node .alt hbody)

theorem branches_succ (hok : branches room (steps + 1) s = .ok (ts, s')) : R s ts s' := by
  cases BranchesCall.of_eq_ok hok with
  | stop => exact h.lookAhead s
  | bar hbar hnext hothers =>
    have hnext := h.trans (h.eat hbar) (hk.branch hnext)
    exact h.trans hnext (hk.branches hothers)

theorem branch_succ (hok : branch room (steps + 1) s = .ok (ts, s')) : R s ts s' := by
  obtain ⟨hinside⟩ := BranchCall.of_eq_ok hok
  exact h.trans (h.flush s) (h.node .branch (hk.items hinside))

theorem items_succ (hok : items room (steps + 1) s = .ok (ts, s')) : R s ts s' := by
  have hahead := h.lookAhead s
  cases ItemsCall.of_eq_ok hok with
  | sourceEnds => exact hahead
  | branchEnds => exact hahead
  | atom _ _ hfirst hothers =>
    have hfirst := h.after hahead (hk.atom hfirst)
    exact h.trans hfirst (hk.items hothers)
  | @stray kind s₁ _ _ herror hothers =>
    have hreport : R s [] s₁ := by
      rw [← herror]
      refine h.after hahead (h.errorHere _ fun span => ?_)
      unfold stray
      split <;> exact ⟨rfl, rfl, rfl⟩
    have hfirst := h.after hreport (h.bumpError s₁)
    exact h.trans hfirst (hk.items hothers)

theorem atom_succ (hok : atom room (steps + 1) s = .ok (ts, s')) : R s ts s' := by
  cases AtomCall.of_eq_ok hok with
  | group _ hinner hwhole =>
    exact h.trans (h.flush s) (h.quantifiers (hk.group hinner) hwhole)
  | ref _ hwhole =>
    exact h.trans (h.flush s) (h.quantifiers (h.node .ref (h.bump _)) hwhole)

theorem group_succ (hok : group room (steps + 1) s = .ok (ts, s')) : R s ts s' := by
  cases GroupCall.of_eq_ok hok with
  | closed hbody hclose =>
    have hbody := h.trans (h.bump s) (hk.alt hbody)
    exact h.node .group (h.trans hbody (h.eat hclose))
  | unclosed hbody _ =>
    have hbody := h.trans (h.bump s) (hk.alt hbody)
    have hahead := h.before hbody (h.lookAhead _)
    exact h.node .group (h.report _ hahead .unclosed)

omit hk in
theorem keeps (steps : Nat) : Keeps R steps := by
  induction steps with
  | zero =>
    constructor <;> intro room s ts s' hok <;>
      simp [alt, branches, branch, items, atom, group] at hok
  | succ steps ih =>
    exact ⟨h.alt_succ ih, h.branches_succ ih, h.branch_succ ih, h.items_succ ih, h.atom_succ ih,
      h.group_succ ih⟩

end Respects

/-! ## Rules -/

namespace Respects

variable (h : Respects R)

include h

theorem rule (hok : rule room steps s = .ok (ts, s')) : R s ts s' := by
  have hname := h.bump s.flush.2
  have hcolon := h.colon s.flush.2.bump.2
  cases RuleCall.of_eq_ok hok with
  | ended heat hbody hsemicolon =>
    rw [heat] at hcolon
    have hbody := h.trans (h.trans hname hcolon) ((h.keeps steps).alt hbody)
    exact h.trans (h.flush s) (h.node .rule (h.trans hbody (h.eat hsemicolon)))
  | unended heat hbody =>
    rw [heat] at hcolon
    have hsettled := settled_alt hbody
    have hbody := h.trans (h.trans hname hcolon) ((h.keeps steps).alt hbody)
    have hahead := h.before hbody (h.lookAhead _)
    refine h.trans (h.flush s) (h.node .rule ?_)
    exact h.report _ hahead (.missing hsettled.lookAhead)

theorem untilRule (hok : untilRule steps s = .ok (ts, s')) : R s ts s' := by
  induction steps generalizing s ts s' with
  | zero => cases hok
  | succ steps ih =>
    have hahead := h.lookAhead s
    cases UntilRuleCall.of_eq_ok hok with
    | stop => exact hahead
    | token _ hothers =>
      have hfirst := h.after hahead (h.bump _)
      exact h.trans hfirst (ih hothers)

theorem rules (hok : rules limit bound steps s = .ok (ts, s')) : R s ts s' := by
  induction steps generalizing s ts s' with
  | zero => cases hok
  | succ steps ih =>
    have hahead := h.lookAhead s
    cases RulesCall.of_eq_ok hok with
    | sourceEnds => exact hahead
    | rule _ hfirst hothers =>
      have hfirst := h.after hahead (h.rule hfirst)
      exact h.trans hfirst (ih hothers)
    | @skipped s₁ _ _ _ _ herror hinside hothers =>
      have hreport : R s [] s₁ := by
        rw [← herror]
        refine h.after hahead (h.errorHere _ fun span => ?_)
        split <;> exact ⟨rfl, rfl, rfl⟩
      have hbefore := h.after hreport (h.flush s₁)
      have hinside := h.trans hbefore (h.node .error (h.untilRule hinside))
      exact h.trans hinside (ih hothers)

theorem leftover (hok : leftover steps s = .ok (ts, s')) : R s ts s' := by
  induction steps generalizing s ts s' with
  | zero => cases hok
  | succ steps ih =>
    have hahead := h.lookAhead s
    cases LeftoverCall.of_eq_ok hok with
    | sourceEnds => exact hahead
    | @token s₁ _ _ herror hothers =>
      have hreport : R s [] s₁ :=
        herror ▸ h.after hahead (h.errorHere _ fun _ => ⟨rfl, rfl, rfl⟩)
      have hfirst := h.after hreport (h.bumpError s₁)
      exact h.trans hfirst (ih hothers)

/-- All that is read of a source keeps the relation. -/
theorem contents (hok : contents limit bound s = .ok (ts, s')) : R s ts s' := by
  have hahead := h.lookAhead s
  cases ContentsCall.of_eq_ok hok with
  | rules _ hrules => exact h.after hahead (h.rules hrules)
  | nothing => exact hahead
  | expr _ hbody hothers =>
    have hbody := h.after hahead ((h.keeps bound).alt hbody)
    exact h.trans hbody (h.leftover hothers)

end Respects

end FluentGrammar.Source.Parsing
