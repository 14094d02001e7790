import FluentGrammar.Proofs.Source.Placeless

/-
  The same tokens in other places. A phrase is known up to places by the term without places that
  reads as it, and where the grammar derives some tokens as a phrase, it derives the same tokens
  elsewhere as the same phrase (`Phrase.exists_derives`).
-/

namespace FluentGrammar.Source

/-! ## Phrases without places -/

namespace Phrase

mutual

/-- The term without places that reads as the phrase. -/
def bare : Phrase → Term
  | ref name => .ref default name.bare
  | group body => .group default (bare body)
  | quantified repetition inner => .quantified default repetition (bare inner)
  | sequence items => .sequence default (bareAll items)
  | choice branches => .choice default (bareAll branches)

/-- The terms without places that read as the phrases. -/
def bareAll : List Phrase → List Term
  | [] => []
  | p :: rest => bare p :: bareAll rest

end

/-- The phrases differ in places at most. -/
structure Same (p q : Phrase) : Prop where
  bare : q.bare = p.bare
  depth : q.depth = p.depth

end Phrase

namespace Term

mutual

theorem bare_phrase (t : Term) : t.phrase.bare = t.bare := by
  match t with
  | ref _ _ => rfl
  | group _ body => rw [phrase, Phrase.bare, bare_phrase body, bare]
  | quantified _ _ inner => rw [phrase, Phrase.bare, bare_phrase inner, bare]
  | sequence _ items => rw [phrase, Phrase.bare, bareAll_phrases items, bare]
  | choice _ branches => rw [phrase, Phrase.bare, bareAll_phrases branches, bare]

theorem bareAll_phrases (ts : List Term) : Phrase.bareAll (phrases ts) = bareAll ts := by
  match ts with
  | [] => rfl
  | t :: rest =>
    rw [phrases, Phrase.bareAll, bare_phrase t, bareAll_phrases rest, bareAll]

end

end Term

/-- A rule without places is known by its name and its phrase. -/
theorem RuleTerm.bare_eq (r : RuleTerm) :
    r.bare = ⟨default, r.phrase.1.bare, r.phrase.2.bare⟩ := by
  rw [bare, phrase, Term.bare_phrase]

theorem Token.kind_of_bare {t u : Token} (h : u.bare = t.bare) : u.kind = t.kind :=
  (Token.mk.inj h).1

/-! ## Derivations -/

namespace Phrase

variable {p q p' : Phrase} {ps qs : List Phrase} {ts us : List Token}

theorem Same.quantified (h : Same p q) (r : Repetition) :
    Same (.quantified r p) (.quantified r q) :=
  ⟨congrArg (Term.quantified default r) h.bare, h.depth⟩

theorem Same.group (h : Same p q) : Same (.group p) (.group q) :=
  ⟨congrArg (Term.group default) h.bare, congrArg (· + 1) h.depth⟩

theorem Same.choice (h : Same p q) (hs : Same (.choice ps) (.choice qs)) :
    Same (.choice (p :: ps)) (.choice (q :: qs)) := by
  have hbare : bareAll qs = bareAll ps := (Term.choice.inj hs.bare).2
  have hdepth : depthOfAll qs = depthOfAll ps := hs.depth
  refine ⟨?_, ?_⟩
  · rw [Phrase.bare, Phrase.bare, bareAll, bareAll, h.bare, hbare]
  · rw [Phrase.depth, Phrase.depth, depthOfAll, depthOfAll, h.depth, hdepth]

theorem Same.sequence (h : Same p q) (hs : Same (.sequence ps) (.sequence qs)) :
    Same (.sequence (p :: ps)) (.sequence (q :: qs)) := by
  have hbare : bareAll qs = bareAll ps := (Term.sequence.inj hs.bare).2
  have hdepth : depthOfAll qs = depthOfAll ps := hs.depth
  refine ⟨?_, ?_⟩
  · rw [Phrase.bare, Phrase.bare, bareAll, bareAll, h.bare, hbare]
  · rw [Phrase.depth, Phrase.depth, depthOfAll, depthOfAll, h.depth, hdepth]

theorem eq_choice_of_derives (h : q.Derives .branches ts) : ∃ qs, q = .choice qs := by
  cases h <;> exact ⟨_, rfl⟩

theorem eq_sequence_of_derives (h : q.Derives .branch ts) : ∃ qs, q = .sequence qs := by
  cases h <;> exact ⟨_, rfl⟩

/-- Marks elsewhere make the same of the same phrase. -/
theorem exists_marked {marks : List Token} (h : Marked p marks q) (hp : Same p p')
    (hus : us.map Token.bare = marks.map Token.bare) : ∃ q', Marked p' us q' ∧ Same q q' := by
  induction h generalizing p' us with
  | nil =>
    obtain rfl := List.map_eq_nil_iff.1 hus
    exact ⟨p', .nil, hp⟩
  | cons hmark _ ih =>
    obtain ⟨u, us, rfl, hu, hus⟩ := List.map_eq_cons_iff.1 hus
    obtain ⟨q', hmarked, hq⟩ := ih (hp.quantified _) hus
    exact ⟨q', .cons (Token.kind_of_bare hu ▸ hmark) hmarked, hq⟩

/-- The same tokens elsewhere are those of the same phrase. -/
theorem exists_derives {c : Category} (h : p.Derives c ts)
    (hus : us.map Token.bare = ts.map Token.bare) : ∃ q, q.Derives c us ∧ Same p q := by
  induction h generalizing us with
  | alt _ _ ih₁ ih₂ =>
    rw [List.map_append] at hus
    obtain ⟨us₁, us₂, rfl, h₁, h₂⟩ := List.map_eq_append_iff.1 hus
    obtain ⟨q, hq, hsame⟩ := ih₁ h₁
    obtain ⟨qs, hqs, hothers⟩ := ih₂ h₂
    obtain ⟨qs, rfl⟩ := eq_choice_of_derives hqs
    exact ⟨_, .alt hq hqs, hsame.choice hothers⟩
  | noBar =>
    obtain rfl := List.map_eq_nil_iff.1 hus
    exact ⟨_, .noBar, rfl, rfl⟩
  | bar hbar _ _ ih₁ ih₂ =>
    obtain ⟨u, us, rfl, hu, hus⟩ := List.map_eq_cons_iff.1 hus
    rw [List.map_append] at hus
    obtain ⟨us₁, us₂, rfl, h₁, h₂⟩ := List.map_eq_append_iff.1 hus
    obtain ⟨q, hq, hsame⟩ := ih₁ h₁
    obtain ⟨qs, hqs, hothers⟩ := ih₂ h₂
    obtain ⟨qs, rfl⟩ := eq_choice_of_derives hqs
    exact ⟨_, .bar ((Token.kind_of_bare hu).trans hbar) hq hqs, hsame.choice hothers⟩
  | noAtom =>
    obtain rfl := List.map_eq_nil_iff.1 hus
    exact ⟨_, .noAtom, rfl, rfl⟩
  | item _ _ ih₁ ih₂ =>
    rw [List.map_append] at hus
    obtain ⟨us₁, us₂, rfl, h₁, h₂⟩ := List.map_eq_append_iff.1 hus
    obtain ⟨q, hq, hsame⟩ := ih₁ h₁
    obtain ⟨qs, hqs, hothers⟩ := ih₂ h₂
    obtain ⟨qs, rfl⟩ := eq_sequence_of_derives hqs
    exact ⟨_, .item hq hqs, hsame.sequence hothers⟩
  | name hname hmarks =>
    obtain ⟨u, us, rfl, hu, hus⟩ := List.map_eq_cons_iff.1 hus
    have hsame : Same (.ref _) (.ref u) := ⟨congrArg (Term.ref default) hu, rfl⟩
    obtain ⟨q, hmarked, hq⟩ := exists_marked hmarks hsame hus
    exact ⟨q, .name ((Token.kind_of_bare hu).trans hname) hmarked, hq⟩
  | group hleft _ hright hmarks ih =>
    obtain ⟨left, us, rfl, hu, hus⟩ := List.map_eq_cons_iff.1 hus
    rw [List.map_append] at hus
    obtain ⟨us₁, us₂, rfl, h₁, h₂⟩ := List.map_eq_append_iff.1 hus
    obtain ⟨right, us₂, rfl, hv, h₂⟩ := List.map_eq_cons_iff.1 h₂
    obtain ⟨body, hbody, hsame⟩ := ih h₁
    obtain ⟨q, hmarked, hq⟩ := exists_marked hmarks hsame.group h₂
    exact ⟨q, .group ((Token.kind_of_bare hu).trans hleft) hbody
      ((Token.kind_of_bare hv).trans hright) hmarked, hq⟩

end Phrase

end FluentGrammar.Source
