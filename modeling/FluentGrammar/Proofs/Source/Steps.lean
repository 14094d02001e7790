import FluentGrammar.Proofs.Source.Frame
import FluentGrammar.Proofs.Source.State

/-
  The parser ends. No function brings tokens back, and every repetition of a loop and every group
  takes at least one, so a function that may look at `n` tokens needs no more than `6 * n` steps and
  a few more (`contents_ne_outOfSteps`).
-/

namespace FluentGrammar.Source.Parsing

open Report

variable {s s' : State} {ts : List Tree} {room limit bound steps : Nat}

/-! ## Tokens are used up -/

theorem length_rest_lookAhead_le (s : State) : s.lookAhead.rest.length ≤ s.rest.length :=
  (List.dropWhile_sublist _).length_le

theorem length_rest_bump (h : s.rest ≠ []) : s.bump.2.rest.length + 1 = s.rest.length := by
  obtain ⟨t, after, hrest⟩ := List.exists_cons_of_ne_nil h
  rw [State.rest_bump_of_cons hrest, hrest, List.length_cons]

theorem length_rest_bump_le (s : State) : s.bump.2.rest.length ≤ s.rest.length := by
  cases hrest : s.rest with
  | nil => exact Nat.le_of_eq (by rw [State.bump_of_nil hrest, State.rest_flush, hrest])
  | cons t after => rw [State.rest_bump_of_cons hrest, List.length_cons]; omega

theorem respects_length_le :
    Respects fun s _ s' => s'.rest.length ≤ s.rest.length where
  refl _ := Nat.le_refl _
  trans h h' := Nat.le_trans h' h
  node _ h := h
  lookAhead := length_rest_lookAhead_le
  flush _ := Nat.le_refl _
  bump := length_rest_bump_le
  report _ h _ := h

theorem length_rest_bumpError (h : s.rest ≠ []) :
    s.bumpError.2.rest.length + 1 = s.rest.length :=
  length_rest_bump (s := s.flush.2) h

theorem length_rest_eat {kind : TokenKind} (h : s.eat kind = some (ts, s')) :
    s'.rest.length + 1 ≤ s.rest.length := by
  obtain ⟨hat, -, rfl⟩ := State.eat_eq_some h
  obtain ⟨t, after, hrest, -⟩ := State.isAt_iff.1 hat
  rw [length_rest_bump (by simp [hrest])]
  exact length_rest_lookAhead_le s

/-- A group takes its parenthesis. -/
theorem length_rest_group (h : s.rest ≠ []) (hok : group room steps s = .ok (ts, s')) :
    s'.rest.length + 1 ≤ s.rest.length := by
  have hbump := length_rest_bump h
  cases steps with
  | zero =>
    rw [group] at hok
    cases hok
  | succ steps =>
    cases GroupCall.of_eq_ok hok with
    | closed hbody hclose =>
      have hbody := (respects_length_le.keeps steps).alt hbody
      have hlast := length_rest_eat hclose
      omega
    | @unclosed _ _ s₁ hbody _ =>
      have hbody := (respects_length_le.keeps steps).alt hbody
      have hahead := length_rest_lookAhead_le s₁
      show s₁.lookAhead.rest.length + 1 ≤ s.rest.length
      omega

/-- An atom takes at least one token. -/
theorem length_rest_atom (h : s.rest ≠ []) (hok : atom room steps s = .ok (ts, s')) :
    s'.rest.length + 1 ≤ s.rest.length := by
  cases steps with
  | zero =>
    rw [atom] at hok
    cases hok
  | succ steps =>
    -- Marks behind the atom take no tokens back.
    have marks {inner whole : List Tree} {s₁ s₂ : State}
        (hwhole : quantifiers inner steps s₁ = .ok (whole, s₂)) :
        s₂.rest.length ≤ s₁.rest.length :=
      respects_length_le.quantifiers (Nat.le_refl _) hwhole
    cases AtomCall.of_eq_ok hok with
    | group _ hinner hwhole =>
      have hinner := length_rest_group (s := s.flush.2) h hinner
      exact Nat.le_trans (Nat.succ_le_succ (marks hwhole)) hinner
    | ref _ hwhole =>
      have hname := length_rest_bump (s := s.flush.2) h
      exact Nat.le_trans (Nat.succ_le_succ (marks hwhole)) (Nat.le_of_eq hname)

/-- A rule takes its name. -/
theorem length_rest_rule (h : s.rest ≠ []) (hok : rule room steps s = .ok (ts, s')) :
    s'.rest.length + 1 ≤ s.rest.length := by
  have hname := length_rest_bump (s := s.flush.2) h
  have hcolon := respects_length_le.colon s.flush.2.bump.2
  rw [State.rest_flush] at hname
  cases RuleCall.of_eq_ok hok with
  | ended heat hbody hsemicolon =>
    rw [heat] at hcolon
    have hbody := (respects_length_le.keeps steps).alt hbody
    have hlast := length_rest_eat hsemicolon
    dsimp only at hcolon
    omega
  | @unended _ _ _ s₂ heat hbody _ =>
    rw [heat] at hcolon
    have hbody := (respects_length_le.keeps steps).alt hbody
    have hahead := length_rest_lookAhead_le s₂
    show s₂.lookAhead.rest.length + 1 ≤ s.rest.length
    dsimp only at hcolon
    omega

/-- Unless a rule begins here, the way to the next one is not empty. -/
theorem length_rest_untilRule (hready : s.Ready) (h : s.rest ≠ []) (hrule : s.atRuleStart = false)
    (hok : untilRule steps s = .ok (ts, s')) : s'.rest.length + 1 ≤ s.rest.length := by
  cases steps with
  | zero => cases hok
  | succ steps =>
    have hsame := hready.rest_lookAhead
    cases UntilRuleCall.of_eq_ok hok with
    | stop hstop =>
      have hrule' : s.lookAhead.atRuleStart = false := by
        rw [State.atRuleStart, hsame]
        exact hrule
      exact absurd hstop (by simp [hsame, h, hrule'])
    | token _ hothers =>
      have hfirst := length_rest_bump (s := s.lookAhead) (by rw [hsame]; exact h)
      have hothers := respects_length_le.untilRule hothers
      rw [hsame] at hfirst
      omega

/-! ## Steps suffice -/

theorem quantifiers_ne_outOfSteps {atom : List Tree} (hs : s.rest.length + 1 ≤ steps) :
    quantifiers atom steps s ≠ .error .outOfSteps := by
  induction steps generalizing s atom with
  | zero => omega
  | succ steps ih =>
    rw [quantifiers]
    dsimp only
    split
    · next hmark =>
      obtain ⟨kind, hkind, -⟩ := (Option.any_eq_true _ _).1 hmark
      have hne := State.rest_ne_nil hkind
      have hahead := length_rest_lookAhead_le s
      have hbump := length_rest_bump hne
      exact ih (by omega)
    · exact ok_ne_error _ _

/-- How many steps the functions on expressions need for the tokens to come. -/
structure Suffices (steps : Nat) : Prop where
  alt : ∀ {room s}, 6 * s.rest.length + 4 ≤ steps → alt room steps s ≠ .error .outOfSteps
  branches : ∀ {room s}, 6 * s.rest.length + 3 ≤ steps →
    branches room steps s ≠ .error .outOfSteps
  branch : ∀ {room s}, 6 * s.rest.length + 3 ≤ steps → branch room steps s ≠ .error .outOfSteps
  items : ∀ {room s}, 6 * s.rest.length + 2 ≤ steps → items room steps s ≠ .error .outOfSteps
  atom : ∀ {room s}, s.rest ≠ [] → 6 * s.rest.length + 1 ≤ steps →
    atom room steps s ≠ .error .outOfSteps
  group : ∀ {room s}, s.rest ≠ [] → 6 * s.rest.length ≤ steps →
    group room steps s ≠ .error .outOfSteps

namespace Suffices

variable (h : Suffices steps)

include h

theorem alt_succ (hs : 6 * s.rest.length + 4 ≤ steps + 1) :
    Parsing.alt room (steps + 1) s ≠ .error .outOfSteps := by
  rw [Parsing.alt]
  dsimp only
  refine bind_ne_error (h.branch (s := s.flush.2) (by rw [State.rest_flush]; omega)) ?_
  rintro ⟨first, s₁⟩ h1
  have hfirst := (respects_length_le.keeps steps).branch h1
  rw [State.rest_flush] at hfirst
  dsimp only
  exact bind_ne_error (h.branches (by omega)) fun _ _ => ok_ne_error _ _

theorem branches_succ (hs : 6 * s.rest.length + 3 ≤ steps + 1) :
    Parsing.branches room (steps + 1) s ≠ .error .outOfSteps := by
  rw [Parsing.branches]
  split
  · exact ok_ne_error _ _
  · next bar s₁ hbar =>
    have hlength := length_rest_eat hbar
    refine bind_ne_error (h.branch (by omega)) ?_
    rintro ⟨next, s₂⟩ h1
    have hnext := (respects_length_le.keeps steps).branch h1
    dsimp only
    exact bind_ne_error (h.branches (by omega)) fun _ _ => ok_ne_error _ _

theorem branch_succ (hs : 6 * s.rest.length + 3 ≤ steps + 1) :
    Parsing.branch room (steps + 1) s ≠ .error .outOfSteps := by
  rw [Parsing.branch]
  dsimp only
  exact bind_ne_error (h.items (s := s.flush.2) (by rw [State.rest_flush]; omega))
    fun _ _ => ok_ne_error _ _

theorem items_succ (hs : 6 * s.rest.length + 2 ≤ steps + 1) :
    Parsing.items room (steps + 1) s ≠ .error .outOfSteps := by
  have hahead := length_rest_lookAhead_le s
  rw [Parsing.items]
  dsimp only
  split
  · exact ok_ne_error _ _
  · next kind hkind =>
    have hne := State.rest_ne_nil hkind
    split
    · exact ok_ne_error _ _
    · split
      · refine bind_ne_error (h.atom hne (by omega)) ?_
        rintro ⟨first, s₁⟩ h1
        have hfirst := length_rest_atom hne h1
        dsimp only
        exact bind_ne_error (h.items (by omega)) fun _ _ => ok_ne_error _ _
      · generalize herror : State.errorHere _ _ = s₁
        have hrest : s₁.rest = s.lookAhead.rest := by
          rw [← herror, State.rest_errorHere]
        have hfirst := length_rest_bumpError (s := s₁) (by rw [hrest]; exact hne)
        rw [hrest] at hfirst
        exact bind_ne_error (h.items (by omega)) fun _ _ => ok_ne_error _ _

theorem atom_succ (hne : s.rest ≠ []) (hs : 6 * s.rest.length + 1 ≤ steps + 1) :
    Parsing.atom room (steps + 1) s ≠ .error .outOfSteps := by
  have hpos := List.length_pos_iff.2 hne
  rw [Parsing.atom]
  dsimp only
  refine bind_ne_error ?_ ?_
  · split
    · exact h.group (s := s.flush.2) hne (by rw [State.rest_flush]; omega)
    · exact ok_ne_error _ _
  · rintro ⟨inner, s₁⟩ h1
    have hinner : s₁.rest.length + 1 ≤ s.rest.length := by
      split at h1
      · exact length_rest_group (s := s.flush.2) hne h1
      · obtain ⟨-, rfl⟩ := Prod.mk.inj (Except.ok.inj h1)
        exact Nat.le_of_eq (length_rest_bump (s := s.flush.2) hne)
    dsimp only
    exact bind_ne_error (quantifiers_ne_outOfSteps (by omega)) fun _ _ => ok_ne_error _ _

theorem group_succ (hne : s.rest ≠ []) (hs : 6 * s.rest.length ≤ steps + 1) :
    Parsing.group room (steps + 1) s ≠ .error .outOfSteps := by
  have hbump := length_rest_bump hne
  cases room with
  | zero =>
    rw [Parsing.group]
    intro h
    cases h
  | succ room =>
    rw [Parsing.group]
    dsimp only
    refine bind_ne_error (h.alt (by omega)) ?_
    rintro ⟨body, s₁⟩ -
    dsimp only
    split <;> exact ok_ne_error _ _

end Suffices

theorem suffices_steps (steps : Nat) : Suffices steps := by
  induction steps with
  | zero =>
    refine ⟨fun h => ?_, fun h => ?_, fun h => ?_, fun h => ?_, fun _ h => ?_, fun hne h => ?_⟩
    · omega
    · omega
    · omega
    · omega
    · omega
    · have := List.length_pos_iff.2 hne
      omega
  | succ steps ih =>
    exact ⟨ih.alt_succ, ih.branches_succ, ih.branch_succ, ih.items_succ, ih.atom_succ,
      ih.group_succ⟩

theorem rule_ne_outOfSteps (hne : s.rest ≠ []) (hs : 6 * s.rest.length ≤ steps) :
    rule room steps s ≠ .error .outOfSteps := by
  have hname := length_rest_bump (s := s.flush.2) hne
  have hcolon := respects_length_le.colon s.flush.2.bump.2
  rw [State.rest_flush] at hname
  rw [rule]
  dsimp only
  refine bind_ne_error ((suffices_steps steps).alt (by omega)) ?_
  rintro ⟨body, s₁⟩ -
  dsimp only
  split <;> exact ok_ne_error _ _

theorem untilRule_ne_outOfSteps (hs : s.rest.length + 1 ≤ steps) :
    untilRule steps s ≠ .error .outOfSteps := by
  induction steps generalizing s with
  | zero => omega
  | succ steps ih =>
    rw [untilRule]
    dsimp only
    split
    · exact ok_ne_error _ _
    · next hmore =>
      have hne : s.lookAhead.rest ≠ [] := by
        intro hnil
        simp [hnil] at hmore
      have hahead := length_rest_lookAhead_le s
      have hbump := length_rest_bump hne
      exact bind_ne_error (ih (by omega)) fun _ _ => ok_ne_error _ _

theorem rules_ne_outOfSteps (hbound : 6 * s.rest.length + 1 ≤ bound)
    (hs : s.rest.length + 1 ≤ steps) : rules limit bound steps s ≠ .error .outOfSteps := by
  induction steps generalizing s with
  | zero => omega
  | succ steps ih =>
    have hahead := length_rest_lookAhead_le s
    rw [rules]
    dsimp only
    split
    · exact ok_ne_error _ _
    · next hmore =>
      have hne := mt List.isEmpty_iff.2 hmore
      split
      · refine bind_ne_error (rule_ne_outOfSteps hne (by omega)) ?_
        rintro ⟨first, s₁⟩ h1
        have hfirst := length_rest_rule hne h1
        dsimp only
        exact bind_ne_error (ih (by omega) (by omega)) fun _ _ => ok_ne_error _ _
      · next hrule =>
        generalize herror : State.errorHere _ _ = s₁
        have hrest : s₁.flush.2.rest = s.lookAhead.rest := by
          rw [← herror, State.rest_flush, State.rest_errorHere]
        refine bind_ne_error (untilRule_ne_outOfSteps (by rw [hrest]; omega)) ?_
        rintro ⟨inside, s₂⟩ h1
        have hready : s₁.flush.2.Ready := by
          intro t ht
          rw [hrest] at ht
          exact s.ready_lookAhead t ht
        have hnot : s₁.flush.2.atRuleStart = false := by
          rw [State.atRuleStart, hrest]
          exact Bool.not_eq_true _ ▸ hrule
        have hinside := length_rest_untilRule hready (by rw [hrest]; exact hne) hnot h1
        rw [hrest] at hinside
        dsimp only
        exact bind_ne_error (ih (by omega) (by omega)) fun _ _ => ok_ne_error _ _

theorem leftover_ne_outOfSteps (hs : s.rest.length + 1 ≤ steps) :
    leftover steps s ≠ .error .outOfSteps := by
  induction steps generalizing s with
  | zero => omega
  | succ steps ih =>
    rw [leftover]
    dsimp only
    split
    · exact ok_ne_error _ _
    · next hmore =>
      have hne := mt List.isEmpty_iff.2 hmore
      have hahead := length_rest_lookAhead_le s
      have hbump := length_rest_bumpError
        (s := s.lookAhead.errorHere (.of .unexpectedToken)) hne
      rw [State.rest_errorHere] at hbump
      exact bind_ne_error (ih (by omega)) fun _ _ => ok_ne_error _ _

/-- The steps for the tokens to come suffice. -/
theorem contents_ne_outOfSteps (hbound : stepsFor s.rest.length ≤ bound) :
    contents limit bound s ≠ .error .outOfSteps := by
  have hahead := length_rest_lookAhead_le s
  unfold stepsFor at hbound
  rw [contents]
  dsimp only
  split
  · exact rules_ne_outOfSteps (by omega) (by omega)
  · split
    · exact ok_ne_error _ _
    · refine bind_ne_error ((suffices_steps bound).alt (by omega)) ?_
      rintro ⟨body, s₁⟩ h1
      have hbody := (respects_length_le.keeps bound).alt h1
      dsimp only
      exact bind_ne_error (leftover_ne_outOfSteps (by omega)) fun _ _ => ok_ne_error _ _

end FluentGrammar.Source.Parsing
