import FluentGrammar.Proofs.Language.Completion
import FluentGrammar.Proofs.Source.Scripts

/-
  Rules of sources without errors. The grammar of sources gives every alternation a branch, so the
  rules that such a source is resolved to have no alternation without one.
-/

namespace FluentGrammar

open Report

/-! ## Phrases -/

namespace Source.Phrase

mutual

/-- Every alternation in the phrase has a branch. -/
def HasBranches : Phrase → Prop
  | ref _ => True
  | group body => HasBranches body
  | quantified _ inner => HasBranches inner
  | sequence items => AllHaveBranches items
  | choice bs => bs ≠ [] ∧ AllHaveBranches bs

/-- Every alternation in the phrases has a branch. -/
def AllHaveBranches : List Phrase → Prop
  | [] => True
  | p :: rest => HasBranches p ∧ AllHaveBranches rest

end

theorem hasBranches_of_marked {p q : Phrase} {marks : List Token} (h : Marked p marks q)
    (hp : p.HasBranches) : q.HasBranches := by
  induction h with
  | nil => exact hp
  | cons _ _ ih => exact ih hp

/-- The branches that the grammar derives, and what it derives of any other category. -/
theorem hasBranches_of_derives {c : Category} {p : Phrase} {ts : List Token} (h : p.Derives c ts) :
    (∀ ps, p = .choice ps → AllHaveBranches ps) ∧ (c ≠ .branches → p.HasBranches) := by
  induction h with
  | alt _ _ ih₁ ih₂ =>
    have hall := And.intro (ih₁.2 nofun) (ih₂.1 _ rfl)
    exact ⟨fun ps hps => Phrase.choice.inj hps ▸ hall, fun _ => ⟨List.cons_ne_nil _ _, hall⟩⟩
  | noBar => exact ⟨fun ps hps => Phrase.choice.inj hps ▸ trivial, fun h => absurd rfl h⟩
  | bar _ _ _ ih₁ ih₂ =>
    have hall := And.intro (ih₁.2 nofun) (ih₂.1 _ rfl)
    exact ⟨fun ps hps => Phrase.choice.inj hps ▸ hall, fun h => absurd rfl h⟩
  | noAtom => exact ⟨nofun, fun _ => trivial⟩
  | item _ _ ih₁ ih₂ => exact ⟨nofun, fun _ => ⟨ih₁.2 nofun, ih₂.2 nofun⟩⟩
  | name _ hmarks =>
    have hp := hasBranches_of_marked hmarks trivial
    refine ⟨fun ps hps => ?_, fun _ => hp⟩
    subst hps
    exact hp.2
  | group _ _ _ hmarks ih =>
    have hp := hasBranches_of_marked hmarks (ih.2 nofun)
    refine ⟨fun ps hps => ?_, fun _ => hp⟩
    subst hps
    exact hp.2

end Source.Phrase

/-! ## Expressions of terms -/

namespace Source.Term

open FluentGrammar.Expr

theorem hasBranches_ofItems {es : List Expr} (h : AllHaveBranches es) :
    (Expr.ofItems es).HasBranches := by
  match es with
  | [] => trivial
  | [e] => exact h.1
  | _ :: _ :: _ => exact h

theorem hasBranches_ofBranches {es : List Expr} (hne : es ≠ []) (h : AllHaveBranches es) :
    (Expr.ofBranches es).HasBranches := by
  match es with
  | [] => exact absurd rfl hne
  | [e] => exact h.1
  | _ :: _ :: _ => exact ⟨List.cons_ne_nil _ _, h⟩

variable {meaning : String → Option Meaning}

mutual

theorem hasBranches_expr (t : Term) (h : t.phrase.HasBranches) :
    (t.expr meaning).HasBranches := by
  match t with
  | ref _ name =>
    rw [expr]
    cases meaning name.text with
    | none => trivial
    | some m => cases m <;> trivial
  | group _ body =>
    rw [expr]
    exact hasBranches_expr body h
  | quantified _ _ inner =>
    rw [expr]
    exact hasBranches_expr inner h
  | sequence _ items =>
    rw [expr]
    exact hasBranches_ofItems (hasBranches_exprs items h)
  | choice _ branches =>
    rw [expr]
    refine hasBranches_ofBranches ?_ (hasBranches_exprs branches h.2)
    intro hnil
    cases branches with
    | nil => exact h.1 rfl
    | cons b bs => cases hnil

theorem hasBranches_exprs (ts : List Term) (h : Phrase.AllHaveBranches (phrases ts)) :
    AllHaveBranches (exprs meaning ts) := by
  match ts with
  | [] => trivial
  | t :: ts => exact ⟨hasBranches_expr t h.1, hasBranches_exprs ts h.2⟩

end

end Source.Term

/-! ## Rules of documents -/

open Source

/-- A declaration has the body of a rule that it was made from, or was there before. -/
theorem Declaration.mem_ofRules {catalog : Catalog} {declared : List Declaration}
    {rs : List RuleTerm} {d : Declaration} (h : d ∈ (ofRules catalog declared rs).1) :
    d ∈ declared ∨ ∃ r ∈ rs, d.body = r.body := by
  induction rs generalizing declared with
  | nil => exact .inl h
  | cons r rs ih =>
    rw [ofRules] at h
    dsimp only at h
    split at h
    · rcases ih h with h | ⟨r', hr', hbody⟩
      · exact .inl h
      · exact .inr ⟨r', List.mem_cons_of_mem _ hr', hbody⟩
    · rcases ih h with h | ⟨r', hr', hbody⟩
      · rcases List.mem_append.1 h with h | h
        · exact .inl h
        · exact .inr ⟨r, List.mem_cons_self, by rw [List.mem_singleton.1 h]⟩
      · exact .inr ⟨r', List.mem_cons_of_mem _ hr', hbody⟩

/-- A declaration has the body of a rule of the document or its expression. -/
theorem Declaration.mem_ofDocument {catalog : Catalog} {doc : Document} {d : Declaration}
    (h : d ∈ (ofDocument catalog doc).1) :
    doc.expr = some d.body ∨ ∃ r ∈ doc.rules, d.body = r.body := by
  rw [ofDocument] at h
  dsimp only at h
  rcases List.mem_append.1 h with h | h
  · obtain ⟨body, hbody, rfl⟩ := Option.map_eq_some_iff.1 (Option.mem_toList.1 h)
    exact .inl hbody
  · rcases mem_ofRules h with h | hrule
    · cases h
    · exact .inr hrule

theorem Source.Script.DerivesRules.exists_derives {rules : List (Token × Phrase)} {ts : List Token}
    (h : DerivesRules rules ts) {rule : Token × Phrase} (hrule : rule ∈ rules) :
    ∃ us, rule.2.Derives .alt us := by
  induction h with
  | nil => cases hrule
  | cons _ _ hbody _ _ ih =>
    rcases List.mem_cons.1 hrule with rfl | hrule
    · exact ⟨_, hbody⟩
    · exact ih hrule

/-- The rules of a script have no alternation without a branch. -/
theorem Rules.hasBranches_of_script {catalog : Catalog} {doc : Document} {rules : Rules}
    {reports : List Diagnostic} {ts : List Token}
    (hscript : doc.script = .empty ∨ doc.script.Derives ts)
    (h : ofDocument catalog doc = .ok (rules, reports)) (r : RuleId) :
    (rules.rule r).body.HasBranches := by
  have hterms : ∀ t : Term, (doc.expr = some t ∨ ∃ r ∈ doc.rules, t = r.body) →
      t.phrase.HasBranches := by
    intro t ht
    have hderives : ∃ us, t.phrase.Derives .alt us := by
      rcases ht with ht | ⟨rule, hrule, rfl⟩
      · have hexpr : doc.script.expr = some t.phrase := by
          rw [Document.script, ht]
          rfl
        rcases hscript with hempty | hscript
        · rw [hempty] at hexpr
          cases hexpr
        · generalize doc.script = script at hscript hexpr
          cases hscript with
          | rules => cases hexpr
          | expr _ hp => exact ⟨_, Option.some.inj hexpr ▸ hp⟩
      · have hmem : rule.phrase ∈ doc.script.rules := List.mem_map_of_mem hrule
        rcases hscript with hempty | hscript
        · rw [hempty] at hmem
          cases hmem
        · generalize doc.script = script at hscript hmem
          cases hscript with
          | rules _ hrs => exact hrs.exists_derives hmem
          | expr => cases hmem
    obtain ⟨us, hus⟩ := hderives
    refine (Phrase.hasBranches_of_derives hus).2 ?_
    intro hbranches
    cases hbranches
  unfold ofDocument at h
  dsimp only at h
  split at h
  · cases h
  · split at h
    · cases h
    · split at h
      · cases h
      · obtain ⟨rfl, -⟩ := Prod.mk.inj (Except.ok.inj h)
        rw [Rules.rule, List.getD_eq_getElem?_getD, List.getElem?_map]
        cases hget : (Declaration.ofDocument catalog doc).1[r]? with
        | none => trivial
        | some d =>
          have hmem := List.mem_of_getElem? hget
          exact Term.hasBranches_expr d.body (hterms _ (Declaration.mem_ofDocument hmem))

end FluentGrammar
