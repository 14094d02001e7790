import FluentGrammar.Proofs.Support
import FluentGrammar.Source.Parser

/-
  What the functions of the parser do. A function that gives a result has gone one of a few ways:
  what it looked at decides which, the functions it is made of gave results of their own, and its
  trees are put together from theirs. There is a relation for every function, with one constructor
  for each of its ways (`AltCall.of_eq_ok` and the others). All that is proved of results in what
  follows is proved way by way.
-/

namespace FluentGrammar.Source.Parsing

open Report

variable {s s' : State} {ts inner : List Tree} {room limit bound steps : Nat}

/-! ## Expressions -/

inductive QuantifiersCall (inner : List Tree) (steps : Nat) (s : State) :
    List Tree → State → Prop
  | mark {kind whole s₁} : s.lookAhead.kind? = some kind → kind.isQuantifier = true →
      quantifiers [.node .quantifier (inner ++ s.lookAhead.bump.1)] steps s.lookAhead.bump.2 =
        .ok (whole, s₁) → QuantifiersCall inner steps s whole s₁
  | stop : QuantifiersCall inner steps s inner s.lookAhead

theorem QuantifiersCall.of_eq_ok (hok : quantifiers inner (steps + 1) s = .ok (ts, s')) :
    QuantifiersCall inner steps s ts s' := by
  rw [quantifiers] at hok
  dsimp only at hok
  split at hok
  · next hmark =>
    obtain ⟨kind, hkind, hquantifier⟩ := (Option.any_eq_true _ _).1 hmark
    exact .mark hkind hquantifier hok
  · obtain ⟨rfl, rfl⟩ := Prod.mk.inj (Except.ok.inj hok)
    exact .stop

inductive AltCall (room steps : Nat) (s : State) : List Tree → State → Prop
  | intro {first s₁ others s₂} : branch room steps s.flush.2 = .ok (first, s₁) →
      branches room steps s₁ = .ok (others, s₂) →
      AltCall room steps s (s.flush.1 ++ [.node .alt (first ++ others)]) s₂

theorem AltCall.of_eq_ok (hok : alt room (steps + 1) s = .ok (ts, s')) :
    AltCall room steps s ts s' := by
  rw [alt] at hok
  dsimp only at hok
  obtain ⟨⟨first, s₁⟩, hfirst, hok⟩ := of_bind_eq_ok hok
  obtain ⟨⟨others, s₂⟩, hothers, hok⟩ := of_bind_eq_ok hok
  obtain ⟨rfl, rfl⟩ := Prod.mk.inj (Except.ok.inj hok)
  exact .intro hfirst hothers

inductive BranchesCall (room steps : Nat) (s : State) : List Tree → State → Prop
  | stop : s.eat .pipe = none → BranchesCall room steps s [] s.lookAhead
  | bar {bar s₁ next s₂ others s₃} : s.eat .pipe = some (bar, s₁) →
      branch room steps s₁ = .ok (next, s₂) → branches room steps s₂ = .ok (others, s₃) →
      BranchesCall room steps s (bar ++ next ++ others) s₃

theorem BranchesCall.of_eq_ok (hok : branches room (steps + 1) s = .ok (ts, s')) :
    BranchesCall room steps s ts s' := by
  rw [branches] at hok
  split at hok
  · next hbar =>
    obtain ⟨rfl, rfl⟩ := Prod.mk.inj (Except.ok.inj hok)
    exact .stop hbar
  · next bar s₁ hbar =>
    obtain ⟨⟨next, s₂⟩, hnext, hok⟩ := of_bind_eq_ok hok
    obtain ⟨⟨others, s₃⟩, hothers, hok⟩ := of_bind_eq_ok hok
    obtain ⟨rfl, rfl⟩ := Prod.mk.inj (Except.ok.inj hok)
    exact .bar hbar hnext hothers

inductive BranchCall (room steps : Nat) (s : State) : List Tree → State → Prop
  | intro {inside s₁} : items room steps s.flush.2 = .ok (inside, s₁) →
      BranchCall room steps s (s.flush.1 ++ [.node .branch inside]) s₁

theorem BranchCall.of_eq_ok (hok : branch room (steps + 1) s = .ok (ts, s')) :
    BranchCall room steps s ts s' := by
  rw [branch] at hok
  dsimp only at hok
  obtain ⟨⟨inside, s₁⟩, hinside, hok⟩ := of_bind_eq_ok hok
  obtain ⟨rfl, rfl⟩ := Prod.mk.inj (Except.ok.inj hok)
  exact .intro hinside

/-- The report on a token in a branch that begins no atom. -/
def stray (kind : TokenKind) (span : Span) : Diagnostic :=
  if kind.isQuantifier then .about .expectedExpression span "quantifier has nothing to repeat"
  else .of .unexpectedToken span

inductive ItemsCall (room steps : Nat) (s : State) : List Tree → State → Prop
  | sourceEnds : s.lookAhead.kind? = none → ItemsCall room steps s [] s.lookAhead
  | branchEnds {kind} : s.lookAhead.kind? = some kind →
      (kind.endsBranch || s.lookAhead.atRuleStart) = true →
      ItemsCall room steps s [] s.lookAhead
  | atom {kind first s₁ others s₂} : s.lookAhead.kind? = some kind → kind.startsAtom = true →
      atom room steps s.lookAhead = .ok (first, s₁) → items room steps s₁ = .ok (others, s₂) →
      ItemsCall room steps s (first ++ others) s₂
  | stray {kind s₁ others s₂} : s.lookAhead.errorHere (stray kind) = s₁ →
      items room steps s₁.bumpError.2 = .ok (others, s₂) →
      ItemsCall room steps s (s₁.bumpError.1 ++ others) s₂

theorem ItemsCall.of_eq_ok (hok : items room (steps + 1) s = .ok (ts, s')) :
    ItemsCall room steps s ts s' := by
  rw [items] at hok
  dsimp only at hok
  split at hok
  · next hnone =>
    obtain ⟨rfl, rfl⟩ := Prod.mk.inj (Except.ok.inj hok)
    exact .sourceEnds hnone
  · next kind hkind =>
    split at hok
    · next hends =>
      obtain ⟨rfl, rfl⟩ := Prod.mk.inj (Except.ok.inj hok)
      exact .branchEnds hkind hends
    · split at hok
      · next hatom =>
        obtain ⟨⟨first, s₁⟩, hfirst, hok⟩ := of_bind_eq_ok hok
        obtain ⟨⟨others, s₂⟩, hothers, hok⟩ := of_bind_eq_ok hok
        obtain ⟨rfl, rfl⟩ := Prod.mk.inj (Except.ok.inj hok)
        exact .atom hkind hatom hfirst hothers
      · obtain ⟨⟨others, s₂⟩, hothers, hok⟩ := of_bind_eq_ok hok
        obtain ⟨rfl, rfl⟩ := Prod.mk.inj (Except.ok.inj hok)
        exact .stray rfl hothers

inductive AtomCall (room steps : Nat) (s : State) : List Tree → State → Prop
  | group {inner s₁ whole s₂} : s.isAt .parenOpen = true →
      group room steps s.flush.2 = .ok (inner, s₁) →
      quantifiers inner steps s₁ = .ok (whole, s₂) →
      AtomCall room steps s (s.flush.1 ++ whole) s₂
  | ref {whole s₁} : s.isAt .parenOpen = false →
      quantifiers s.flush.2.bumpRef.1 steps s.flush.2.bumpRef.2 = .ok (whole, s₁) →
      AtomCall room steps s (s.flush.1 ++ whole) s₁

theorem AtomCall.of_eq_ok (hok : atom room (steps + 1) s = .ok (ts, s')) :
    AtomCall room steps s ts s' := by
  rw [atom] at hok
  dsimp only at hok
  obtain ⟨⟨inner, s₁⟩, hinner, hok⟩ := of_bind_eq_ok hok
  obtain ⟨⟨whole, s₂⟩, hwhole, hok⟩ := of_bind_eq_ok hok
  obtain ⟨rfl, rfl⟩ := Prod.mk.inj (Except.ok.inj hok)
  split at hinner
  · next hparen => exact .group hparen hinner hwhole
  · next hparen =>
    obtain ⟨rfl, rfl⟩ := Prod.mk.inj (Except.ok.inj hinner)
    exact .ref (Bool.not_eq_true _ ▸ hparen) hwhole

/-- There is no way without room for a group. -/
inductive GroupCall (steps : Nat) (s : State) : Nat → List Tree → State → Prop
  | closed {room body s₁ close s₂} : alt room steps s.bump.2 = .ok (body, s₁) →
      s₁.eat .parenClose = some (close, s₂) →
      GroupCall steps s (room + 1) [.node .group (s.bump.1 ++ body ++ close)] s₂
  | unclosed {room body s₁} : alt room steps s.bump.2 = .ok (body, s₁) →
      s₁.eat .parenClose = none →
      GroupCall steps s (room + 1) [.node .group (s.bump.1 ++ body)]
        (s₁.lookAhead.unclosed .unclosedGroup s.span)

theorem GroupCall.of_eq_ok (hok : group room (steps + 1) s = .ok (ts, s')) :
    GroupCall steps s room ts s' := by
  cases room with
  | zero =>
    rw [group] at hok
    cases hok
  | succ room =>
    rw [group] at hok
    dsimp only at hok
    obtain ⟨⟨body, s₁⟩, hbody, hok⟩ := of_bind_eq_ok hok
    dsimp only at hok
    split at hok
    · next close s₂ hclose =>
      obtain ⟨rfl, rfl⟩ := Prod.mk.inj (Except.ok.inj hok)
      exact .closed hbody hclose
    · next hclose =>
      obtain ⟨rfl, rfl⟩ := Prod.mk.inj (Except.ok.inj hok)
      exact .unclosed hbody hclose

/-! ## Rules -/

inductive RuleCall (room steps : Nat) (s : State) : List Tree → State → Prop
  | ended {colon s₁ body s₂ semicolon s₃} :
      (s.flush.2.bump.2.eat .colon).getD ([], s.flush.2.bump.2.lookAhead) = (colon, s₁) →
      alt room steps s₁ = .ok (body, s₂) → s₂.eat .semicolon = some (semicolon, s₃) →
      RuleCall room steps s
        (s.flush.1 ++ [.node .rule (s.flush.2.bump.1 ++ colon ++ body ++ semicolon)]) s₃
  | unended {colon s₁ body s₂} :
      (s.flush.2.bump.2.eat .colon).getD ([], s.flush.2.bump.2.lookAhead) = (colon, s₁) →
      alt room steps s₁ = .ok (body, s₂) → s₂.eat .semicolon = none →
      RuleCall room steps s (s.flush.1 ++ [.node .rule (s.flush.2.bump.1 ++ colon ++ body)])
        (s₂.lookAhead.missing .expectedSemicolon s.flush.2.span)

theorem RuleCall.of_eq_ok (hok : rule room steps s = .ok (ts, s')) :
    RuleCall room steps s ts s' := by
  rw [rule] at hok
  dsimp only at hok
  obtain ⟨⟨body, s₂⟩, hbody, hok⟩ := of_bind_eq_ok hok
  dsimp only at hok
  split at hok
  · next semicolon s₃ hsemicolon =>
    obtain ⟨rfl, rfl⟩ := Prod.mk.inj (Except.ok.inj hok)
    exact .ended rfl hbody hsemicolon
  · next hsemicolon =>
    obtain ⟨rfl, rfl⟩ := Prod.mk.inj (Except.ok.inj hok)
    exact .unended rfl hbody hsemicolon

inductive UntilRuleCall (steps : Nat) (s : State) : List Tree → State → Prop
  | stop : (s.lookAhead.rest.isEmpty || s.lookAhead.atRuleStart) = true →
      UntilRuleCall steps s [] s.lookAhead
  | token {others s₁} : (s.lookAhead.rest.isEmpty || s.lookAhead.atRuleStart) = false →
      untilRule steps s.lookAhead.bump.2 = .ok (others, s₁) →
      UntilRuleCall steps s (s.lookAhead.bump.1 ++ others) s₁

theorem UntilRuleCall.of_eq_ok (hok : untilRule (steps + 1) s = .ok (ts, s')) :
    UntilRuleCall steps s ts s' := by
  rw [untilRule] at hok
  dsimp only at hok
  split at hok
  · next hstop =>
    obtain ⟨rfl, rfl⟩ := Prod.mk.inj (Except.ok.inj hok)
    exact .stop hstop
  · next hgo =>
    obtain ⟨⟨others, s₁⟩, hothers, hok⟩ := of_bind_eq_ok hok
    obtain ⟨rfl, rfl⟩ := Prod.mk.inj (Except.ok.inj hok)
    exact .token (Bool.not_eq_true _ ▸ hgo) hothers

inductive RulesCall (limit bound steps : Nat) (s : State) : List Tree → State → Prop
  | sourceEnds : s.lookAhead.rest = [] → RulesCall limit bound steps s [] s.lookAhead
  | rule {first s₁ others s₂} : s.lookAhead.atRuleStart = true →
      rule limit bound s.lookAhead = .ok (first, s₁) →
      rules limit bound steps s₁ = .ok (others, s₂) →
      RulesCall limit bound steps s (first ++ others) s₂
  | skipped {s₁ inside s₂ others s₃} : s.lookAhead.errorHere
        (.of (if s.lookAhead.isAt .name then .expectedColon else .expectedRuleName)) = s₁ →
      untilRule bound s₁.flush.2 = .ok (inside, s₂) →
      rules limit bound steps s₂ = .ok (others, s₃) →
      RulesCall limit bound steps s (s₁.flush.1 ++ [.node .error inside] ++ others) s₃

theorem RulesCall.of_eq_ok (hok : rules limit bound (steps + 1) s = .ok (ts, s')) :
    RulesCall limit bound steps s ts s' := by
  rw [rules] at hok
  dsimp only at hok
  split at hok
  · next hend =>
    obtain ⟨rfl, rfl⟩ := Prod.mk.inj (Except.ok.inj hok)
    exact .sourceEnds (List.isEmpty_iff.1 hend)
  · split at hok
    · next hstart =>
      obtain ⟨⟨first, s₁⟩, hfirst, hok⟩ := of_bind_eq_ok hok
      obtain ⟨⟨others, s₂⟩, hothers, hok⟩ := of_bind_eq_ok hok
      obtain ⟨rfl, rfl⟩ := Prod.mk.inj (Except.ok.inj hok)
      exact .rule hstart hfirst hothers
    · obtain ⟨⟨inside, s₂⟩, hinside, hok⟩ := of_bind_eq_ok hok
      obtain ⟨⟨others, s₃⟩, hothers, hok⟩ := of_bind_eq_ok hok
      obtain ⟨rfl, rfl⟩ := Prod.mk.inj (Except.ok.inj hok)
      exact .skipped rfl hinside hothers

inductive LeftoverCall (steps : Nat) (s : State) : List Tree → State → Prop
  | sourceEnds : s.lookAhead.rest = [] → LeftoverCall steps s [] s.lookAhead
  | token {s₁ others s₂} : s.lookAhead.errorHere (.of .unexpectedToken) = s₁ →
      leftover steps s₁.bumpError.2 = .ok (others, s₂) →
      LeftoverCall steps s (s₁.bumpError.1 ++ others) s₂

theorem LeftoverCall.of_eq_ok (hok : leftover (steps + 1) s = .ok (ts, s')) :
    LeftoverCall steps s ts s' := by
  rw [leftover] at hok
  dsimp only at hok
  split at hok
  · next hend =>
    obtain ⟨rfl, rfl⟩ := Prod.mk.inj (Except.ok.inj hok)
    exact .sourceEnds (List.isEmpty_iff.1 hend)
  · obtain ⟨⟨others, s₂⟩, hothers, hok⟩ := of_bind_eq_ok hok
    obtain ⟨rfl, rfl⟩ := Prod.mk.inj (Except.ok.inj hok)
    exact .token rfl hothers

inductive ContentsCall (limit bound : Nat) (s : State) : List Tree → State → Prop
  | rules {all s₁} : s.lookAhead.atRuleStart = true →
      rules limit bound bound s.lookAhead = .ok (all, s₁) → ContentsCall limit bound s all s₁
  | nothing : s.lookAhead.atRuleStart = false → s.lookAhead.rest = [] →
      ContentsCall limit bound s [] s.lookAhead
  | expr {body s₁ others s₂} : s.lookAhead.atRuleStart = false →
      alt limit bound s.lookAhead = .ok (body, s₁) → leftover bound s₁ = .ok (others, s₂) →
      ContentsCall limit bound s (body ++ others) s₂

theorem ContentsCall.of_eq_ok (hok : contents limit bound s = .ok (ts, s')) :
    ContentsCall limit bound s ts s' := by
  rw [contents] at hok
  dsimp only at hok
  split at hok
  · next hstart => exact .rules hstart hok
  · next hstart =>
    have hstart : s.lookAhead.atRuleStart = false := Bool.not_eq_true _ ▸ hstart
    split at hok
    · next hend =>
      obtain ⟨rfl, rfl⟩ := Prod.mk.inj (Except.ok.inj hok)
      exact .nothing hstart (List.isEmpty_iff.1 hend)
    · obtain ⟨⟨body, s₁⟩, hbody, hok⟩ := of_bind_eq_ok hok
      obtain ⟨⟨others, s₂⟩, hothers, hok⟩ := of_bind_eq_ok hok
      obtain ⟨rfl, rfl⟩ := Prod.mk.inj (Except.ok.inj hok)
      exact .expr hstart hbody hothers

end FluentGrammar.Source.Parsing
