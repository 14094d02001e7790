import FluentGrammar.Proofs.Source.Leaves
import FluentGrammar.Proofs.Source.Phrase

/-
  What the parser accepts. An error stays with the state once it is reported
  (`respects_lastError`), so a run that ends without one met none, and every function then took
  tokens that the grammar derives. The induction is on the steps, with one lemma for each function.
-/

namespace FluentGrammar.Source.Parsing

open Report

variable {s s' : State} {ts : List Tree} {room limit bound steps : Nat}

/-! ## Errors stay -/

/-- No step takes an error back. -/
theorem respects_lastError :
    Respects fun s _ s' => s'.lastError = none → s.lastError = none where
  refl _ h := h
  trans h h' hlast := h (h' hlast)
  node _ h := h
  lookAhead _ h := h
  flush _ h := h
  bump s h := by rwa [State.lastError_bump] at h
  report _ _ _ := nofun

/-- There is a diagnostic as soon as there is an error. -/
theorem respects_diagnostics :
    Respects fun s _ s' => (s.lastError = none ↔ s.diagnostics = []) →
      (s'.lastError = none ↔ s'.diagnostics = []) where
  refl _ h := h
  trans h h' hs := h' (h hs)
  node _ h := h
  lookAhead _ h := h
  flush _ h := h
  bump s h := by rwa [State.lastError_bump, State.diagnostics_bump]
  report := by
    intro _ s _ d offset hs _ h
    replace h := hs h
    show some offset = none ↔ (if s.lastError == some offset then s.diagnostics
      else s.diagnostics ++ [d]) = []
    split
    · next hlast =>
      rw [beq_iff_eq.1 hlast] at h
      simpa using h
    · simp

/-! ## Tokens taken -/

/-- The tokens taken between two states are a phrase whose groups nest no deeper than there is
    room. -/
def Takes (c : Category) (room : Nat) (p : Phrase) (s s' : State) : Prop :=
  p.depth ≤ room ∧ ∃ ts, s.input = ts ++ s'.input ∧ p.Derives c ts

/-- Marks that are taken. -/
theorem quantifiers_sound {atom : List Tree} (hok : quantifiers atom steps s = .ok (ts, s'))
    (p : Phrase) : ∃ q marks, Marked p marks q ∧ s.input = marks ++ s'.input := by
  induction steps generalizing atom s p with
  | zero => cases hok
  | succ steps ih =>
    cases QuantifiersCall.of_eq_ok hok with
    | mark hkind hmark hmarks =>
      obtain ⟨r, hr⟩ := TokenKind.exists_repetition? hmark
      obtain ⟨t, rfl, -, hinput⟩ := s.ready_lookAhead.exists_bump hkind
      obtain ⟨q, marks, hmarks, hrest⟩ := ih hmarks (.quantified r p)
      rw [State.input_lookAhead, hrest] at hinput
      exact ⟨q, t :: marks, .cons hr hmarks, hinput⟩
    | stop => exact ⟨p, [], .nil, by simp⟩

/-- The functions on expressions take phrases with so many steps. -/
structure Sound (steps : Nat) : Prop where
  alt : ∀ {room s ts s'}, alt room steps s = .ok (ts, s') → s'.lastError = none →
    ∃ p, Takes .alt room p s s'
  branches : ∀ {room s ts s'}, branches room steps s = .ok (ts, s') → s'.lastError = none →
    ∃ ps, Takes .branches room (.choice ps) s s'
  branch : ∀ {room s ts s'}, branch room steps s = .ok (ts, s') → s'.lastError = none →
    ∃ p, Takes .branch room p s s'
  items : ∀ {room s ts s'}, items room steps s = .ok (ts, s') → s'.lastError = none →
    ∃ ps, Takes .branch room (.sequence ps) s s'
  atom : ∀ {room s ts s' k}, atom room steps s = .ok (ts, s') → s'.lastError = none →
    s.Ready → s.kind? = some k → k.startsAtom = true → ∃ p, Takes .atom room p s s'
  group : ∀ {room s ts s'}, group room steps s = .ok (ts, s') → s'.lastError = none →
    s.Ready → s.isAt .parenOpen = true → ∃ left p inside right, left.kind = .parenOpen ∧
      right.kind = .parenClose ∧ p.Derives .alt inside ∧ (Phrase.group p).depth ≤ room ∧
      s.input = left :: (inside ++ right :: s'.input)

namespace Sound

variable (h : Sound steps)

include h

theorem alt_succ (hok : Parsing.alt room (steps + 1) s = .ok (ts, s'))
    (hlast : s'.lastError = none) : ∃ p, Takes .alt room p s s' := by
  obtain ⟨hfirst, hothers⟩ := AltCall.of_eq_ok hok
  have hlast' := (respects_lastError.keeps steps).branches hothers hlast
  obtain ⟨p, hp, us, hus, hderives⟩ := h.branch hfirst hlast'
  obtain ⟨ps, hps, vs, hvs, hothers⟩ := h.branches hothers hlast
  refine ⟨.choice (p :: ps), Nat.max_le.2 ⟨hp, hps⟩, us ++ vs, ?_, .alt hderives hothers⟩
  rw [← State.input_flush, hus, hvs, List.append_assoc]

theorem branches_succ (hok : Parsing.branches room (steps + 1) s = .ok (ts, s'))
    (hlast : s'.lastError = none) : ∃ ps, Takes .branches room (.choice ps) s s' := by
  cases BranchesCall.of_eq_ok hok with
  | stop => exact ⟨[], Nat.zero_le _, [], by simp, .noBar⟩
  | bar hbar hnext hothers =>
    have hlast' := (respects_lastError.keeps steps).branches hothers hlast
    obtain ⟨t, ht, hinput⟩ := State.input_of_eat hbar
    obtain ⟨p, hp, us, hus, hderives⟩ := h.branch hnext hlast'
    obtain ⟨ps, hps, vs, hvs, hothers⟩ := h.branches hothers hlast
    refine ⟨p :: ps, Nat.max_le.2 ⟨hp, hps⟩, t :: (us ++ vs), ?_, .bar ht hderives hothers⟩
    rw [hinput, hus, hvs, List.cons_append, List.append_assoc]

theorem branch_succ (hok : Parsing.branch room (steps + 1) s = .ok (ts, s'))
    (hlast : s'.lastError = none) : ∃ p, Takes .branch room p s s' := by
  obtain ⟨hinside⟩ := BranchCall.of_eq_ok hok
  obtain ⟨ps, hps⟩ := h.items hinside hlast
  exact ⟨.sequence ps, hps⟩

theorem items_succ (hok : Parsing.items room (steps + 1) s = .ok (ts, s'))
    (hlast : s'.lastError = none) : ∃ ps, Takes .branch room (.sequence ps) s s' := by
  cases ItemsCall.of_eq_ok hok with
  | sourceEnds => exact ⟨[], Nat.zero_le _, [], by simp, .noAtom⟩
  | branchEnds => exact ⟨[], Nat.zero_le _, [], by simp, .noAtom⟩
  | atom hkind hatom hfirst hothers =>
    have hlast' := (respects_lastError.keeps steps).items hothers hlast
    obtain ⟨p, hp, us, hus, hderives⟩ := h.atom hfirst hlast' s.ready_lookAhead hkind hatom
    obtain ⟨ps, hps, vs, hvs, hothers⟩ := h.items hothers hlast
    refine ⟨p :: ps, Nat.max_le.2 ⟨hp, hps⟩, us ++ vs, ?_, .item hderives hothers⟩
    rw [← State.input_lookAhead, hus, hvs, List.append_assoc]
  | stray herror hothers =>
    have hlast' := (respects_lastError.keeps steps).items hothers hlast
    have hreport := respects_lastError.bumpError _ hlast'
    rw [← herror] at hreport
    cases hreport

theorem atom_succ {k : TokenKind} (hok : Parsing.atom room (steps + 1) s = .ok (ts, s'))
    (hlast : s'.lastError = none) (hready : s.Ready) (hkind : s.kind? = some k)
    (hatom : k.startsAtom = true) : ∃ p, Takes .atom room p s s' := by
  cases AtomCall.of_eq_ok hok with
  | group hparen hinner hwhole =>
    have hlast' := respects_lastError.quantifiers id hwhole hlast
    obtain ⟨left, p, inside, right, hleft, hright, hderives, hp, hinput⟩ :=
      h.group hinner hlast' hready hparen
    obtain ⟨q, marks, hmarks, hrest⟩ := quantifiers_sound hwhole (.group p)
    refine ⟨q, ?_, left :: (inside ++ right :: marks), ?_, .group hleft hderives hright hmarks⟩
    · rw [hmarks.depth_eq]
      exact hp
    · rw [← State.input_flush, hinput, hrest]
      simp
  | ref hparen hwhole =>
    have hready' : s.flush.2.Ready := hready
    obtain ⟨t, rfl, -, hinput⟩ := hready'.exists_bump hkind
    have hname : t.kind = .name := by
      have hother : t.kind ≠ .parenOpen := by
        intro hk
        rw [State.isAt, hkind, hk] at hparen
        cases hparen
      revert hatom hother
      cases t.kind <;> simp [TokenKind.startsAtom]
    obtain ⟨q, marks, hmarks, hrest⟩ := quantifiers_sound hwhole (.ref t)
    refine ⟨q, ?_, t :: marks, ?_, .name hname hmarks⟩
    · rw [hmarks.depth_eq]
      exact Nat.zero_le _
    · rw [← State.input_flush, hinput]
      exact congrArg (t :: ·) hrest

theorem group_succ (hok : Parsing.group room (steps + 1) s = .ok (ts, s'))
    (hlast : s'.lastError = none) (hready : s.Ready) (hparen : s.isAt .parenOpen = true) :
    ∃ left p inside right, left.kind = .parenOpen ∧ right.kind = .parenClose ∧
      p.Derives .alt inside ∧ (Phrase.group p).depth ≤ room ∧
      s.input = left :: (inside ++ right :: s'.input) := by
  cases GroupCall.of_eq_ok hok with
  | closed hbody hclose =>
    obtain ⟨left, hleft, -, hinput⟩ := hready.exists_bump (beq_iff_eq.1 hparen)
    obtain ⟨right, hright, hafter⟩ := State.input_of_eat hclose
    obtain ⟨p, hp, inside, hinside, hderives⟩ :=
      h.alt hbody (respects_lastError.eat hclose hlast)
    refine ⟨left, p, inside, right, hleft, hright, hderives, Nat.succ_le_succ hp, ?_⟩
    rw [hinput, hinside, hafter]
  | unclosed => cases hlast

end Sound

theorem sound (steps : Nat) : Sound steps := by
  induction steps with
  | zero =>
    constructor <;> intros <;>
      simp_all [alt, branches, branch, items, atom, group]
  | succ steps ih =>
    exact ⟨ih.alt_succ, ih.branches_succ, ih.branch_succ, ih.items_succ, ih.atom_succ,
      ih.group_succ⟩

/-! ## Rules -/

/-- Where a rule starts, a name and a colon come first. -/
theorem exists_of_startsRule {ts : List Token} (h : startsRule ts = true) :
    ∃ name colon rest, ts = name :: colon :: rest ∧ name.kind = .name ∧ colon.kind = .colon := by
  match ts, h with
  | name :: colon :: rest, h =>
    simp only [startsRule, Bool.and_eq_true, beq_iff_eq] at h
    exact ⟨name, colon, rest, rfl, h.1, h.2⟩

/-- A rule that is taken. -/
theorem rule_sound (hok : rule room steps s = .ok (ts, s')) (hlast : s'.lastError = none)
    (hready : s.Ready) (hstart : startsRule s.input = true) :
    ∃ (name colon semicolon : Token) (p : Phrase) (inside : List Token), name.kind = .name ∧
      colon.kind = .colon ∧ semicolon.kind = .semicolon ∧ p.Derives .alt inside ∧ p.depth ≤ room ∧
      s.input = name :: colon :: (inside ++ semicolon :: s'.input) := by
  obtain ⟨name, colon, rest, hinput, hname, hcolon⟩ := exists_of_startsRule hstart
  have hready' : s.flush.2.Ready := hready
  obtain ⟨-, hafter⟩ := hready'.bump_of_input hinput
  obtain ⟨ws, s₀, heat, hrest, -⟩ := State.eat_of_input hafter hcolon
  cases RuleCall.of_eq_ok hok with
  | ended hname' hbody hsemicolon =>
    rw [heat] at hname'
    obtain ⟨rfl, rfl⟩ := Prod.mk.inj hname'
    obtain ⟨semicolon, hkind, hlast'⟩ := State.input_of_eat hsemicolon
    obtain ⟨p, hp, inside, hinside, hderives⟩ :=
      (sound steps).alt hbody (respects_lastError.eat hsemicolon hlast)
    refine ⟨name, colon, semicolon, p, inside, hname, hcolon, hkind, hderives, hp, ?_⟩
    rw [hinput, ← hrest, hinside, hlast']
  | unended => cases hlast

/-- Rules that are taken. -/
theorem rules_sound (hok : rules limit bound steps s = .ok (ts, s')) (hlast : s'.lastError = none) :
    ∃ rs, Script.DerivesRules rs s.input ∧ Phrase.depthOfAll (rs.map (·.2)) ≤ limit := by
  induction steps generalizing s ts with
  | zero => cases hok
  | succ steps ih =>
    cases RulesCall.of_eq_ok hok with
    | sourceEnds hend =>
      have hinput := s.ready_lookAhead.rest_eq_nil_iff.1 hend
      rw [State.input_lookAhead] at hinput
      exact ⟨[], hinput ▸ .nil, Nat.zero_le _⟩
    | rule hstart hfirst hothers =>
      rw [s.ready_lookAhead.atRuleStart_eq] at hstart
      have hrule :=
        rule_sound hfirst (respects_lastError.rules hothers hlast) s.ready_lookAhead hstart
      obtain ⟨name, colon, semicolon, p, inside, hname, hcolon, hsemicolon, hderives, hp,
        hinput⟩ := hrule
      obtain ⟨rs, hrs, hdepth⟩ := ih hothers
      refine ⟨(name, p) :: rs, ?_, Nat.max_le.2 ⟨hp, hdepth⟩⟩
      rw [← State.input_lookAhead, hinput]
      exact .cons hname hcolon hderives hsemicolon hrs
    | skipped herror hinside hothers =>
      have hlast' := respects_lastError.rules hothers hlast
      have hreport := respects_lastError.untilRule hinside hlast'
      rw [← herror] at hreport
      cases hreport

/-- Nothing is left over. -/
theorem leftover_sound (hok : leftover steps s = .ok (ts, s')) (hlast : s'.lastError = none) :
    s.input = [] := by
  cases steps with
  | zero => cases hok
  | succ steps =>
    cases LeftoverCall.of_eq_ok hok with
    | sourceEnds hend =>
      rw [← State.input_lookAhead]
      exact s.ready_lookAhead.rest_eq_nil_iff.1 hend
    | token herror hothers =>
      have hlast' := respects_lastError.leftover hothers hlast
      have hreport := respects_lastError.bumpError _ hlast'
      rw [← herror] at hreport
      cases hreport

/-- A source that is accepted is a script. -/
theorem contents_sound (hok : contents limit bound s = .ok (ts, s')) (hlast : s'.lastError = none) :
    ∃ script : Script, script.Derives s.input ∧ script.depth ≤ limit := by
  have hstart_eq : s.lookAhead.atRuleStart = startsRule s.input := by
    rw [s.ready_lookAhead.atRuleStart_eq, State.input_lookAhead]
  cases ContentsCall.of_eq_ok hok with
  | rules hstart hrules =>
    obtain ⟨rs, hrs, hdepth⟩ := rules_sound hrules hlast
    rw [State.input_lookAhead] at hrs
    exact ⟨⟨none, rs⟩, .rules (hstart_eq ▸ hstart) hrs, hdepth⟩
  | nothing hstart hend =>
    have hinput := s.ready_lookAhead.rest_eq_nil_iff.1 hend
    rw [State.input_lookAhead] at hinput
    have hempty : (Phrase.choice [.sequence []]).Derives .alt s.input := by
      rw [hinput]
      exact .alt .noAtom .noBar
    exact ⟨⟨some (.choice [.sequence []]), []⟩, .expr (hstart_eq ▸ hstart) hempty,
      Nat.zero_le _⟩
  | expr hstart hbody hothers =>
    obtain ⟨p, hp, us, hus, hderives⟩ :=
      (sound bound).alt hbody (respects_lastError.leftover hothers hlast)
    rw [State.input_lookAhead, leftover_sound hothers hlast, List.append_nil] at hus
    refine ⟨⟨some p, []⟩, .expr (hstart_eq ▸ hstart) (hus ▸ hderives), ?_⟩
    exact Nat.max_le.2 ⟨hp, Nat.zero_le _⟩

end FluentGrammar.Source.Parsing
