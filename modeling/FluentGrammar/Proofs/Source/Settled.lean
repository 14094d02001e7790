import FluentGrammar.Proofs.Source.Calls
import FluentGrammar.Proofs.Source.State

/-
  Where alternations stop. The functions on branches take every token that fits nowhere into an
  error, so what they leave ends a branch or is the name of a rule (`settled_alt`). It is never
  trivia and never garbage.
-/

namespace FluentGrammar.Source.Parsing

variable {s s' : State} {ts : List Tree} {room steps : Nat}

/-- What comes next, if anything, ends a branch or is a name. -/
def State.Settled (s : State) : Prop :=
  ∀ t ∈ s.rest.head?, t.kind.endsBranch = true ∨ t.kind = .name

theorem State.Settled.ready (h : s.Settled) : s.Ready := by
  intro t ht
  have hkind := h t ht
  cases hk : t.kind <;> simp_all [TokenKind.endsBranch, TokenKind.isTrivia]

theorem State.Settled.lookAhead (h : s.Settled) : s.lookAhead.Settled := by
  intro t ht
  rw [h.ready.rest_lookAhead] at ht
  exact h t ht

theorem State.settled_of_endsBranch {kind : TokenKind} (hkind : s.kind? = some kind)
    (h : (kind.endsBranch || s.atRuleStart) = true) : s.Settled := by
  intro t ht
  rw [State.kind?, Option.mem_def.1 ht, Option.map_some, Option.some.injEq] at hkind
  subst hkind
  rcases Bool.or_eq_true_iff.1 h with hends | hrule
  · exact .inl hends
  · obtain ⟨after, hrest⟩ := List.head?_eq_some_iff.1 ht
    rw [State.atRuleStart, hrest, Bool.and_eq_true] at hrule
    exact .inr (beq_iff_eq.1 hrule.1)

theorem settled_items (hok : items room steps s = .ok (ts, s')) : s'.Settled := by
  induction steps generalizing s ts with
  | zero =>
    rw [items] at hok
    cases hok
  | succ steps ih =>
    cases ItemsCall.of_eq_ok hok with
    | sourceEnds hnone =>
      rw [State.kind?, Option.map_eq_none_iff] at hnone
      intro t ht
      rw [hnone] at ht
      cases ht
    | branchEnds hkind hends => exact State.settled_of_endsBranch hkind hends
    | atom _ _ _ hothers => exact ih hothers
    | stray _ hothers => exact ih hothers

theorem settled_branch (hok : branch room steps s = .ok (ts, s')) : s'.Settled := by
  cases steps with
  | zero =>
    rw [branch] at hok
    cases hok
  | succ steps =>
    obtain ⟨hinside⟩ := BranchCall.of_eq_ok hok
    exact settled_items hinside

theorem settled_branches (hs : s.Settled) (hok : branches room steps s = .ok (ts, s')) :
    s'.Settled := by
  induction steps generalizing s ts with
  | zero =>
    rw [branches] at hok
    cases hok
  | succ steps ih =>
    cases BranchesCall.of_eq_ok hok with
    | stop => exact hs.lookAhead
    | bar _ hnext hothers => exact ih (settled_branch hnext) hothers

/-- Behind an alternation comes what ends a branch, or a name. -/
theorem settled_alt (hok : alt room steps s = .ok (ts, s')) : s'.Settled := by
  cases steps with
  | zero =>
    rw [alt] at hok
    cases hok
  | succ steps =>
    obtain ⟨hfirst, hothers⟩ := AltCall.of_eq_ok hok
    exact settled_branches (settled_branch hfirst) hothers

end FluentGrammar.Source.Parsing
