import FluentGrammar.Proofs.Language.Grammar

/-
  Forms are the strings of symbols between a nonterminal and its sentences. A step replaces a
  nonterminal anywhere in a form, so the order in which productions are used is left open. Steps
  lead to terminals alone exactly if the form derives them (`derives_iff_rewrites`).
-/

namespace FluentGrammar.Grammar

/-- A nonterminal somewhere in a form is replaced by the right-hand side of a production. -/
inductive Step (g : Grammar) : List Symbol → List Symbol → Prop
  | expand {p : Production} (front back : List Symbol) (hp : p ∈ g.productions) :
    Step g (front ++ .nonterminal p.lhs :: back) (front ++ p.rhs ++ back)

/-- Steps lead from the first form to the second. -/
def Rewrites (g : Grammar) : List Symbol → List Symbol → Prop := Relation.ReflTransGen g.Step

variable {g : Grammar} {α β α' β' : List Symbol} {w : List TerminalId}

theorem Step.append_left (h : g.Step α β) (front : List Symbol) :
    g.Step (front ++ α) (front ++ β) := by
  obtain ⟨before, back, hp⟩ := h
  rw [← List.append_assoc, ← List.append_assoc, ← List.append_assoc]
  exact .expand (front ++ before) back hp

theorem Step.append_right (h : g.Step α β) (back : List Symbol) :
    g.Step (α ++ back) (β ++ back) := by
  obtain ⟨front, after, hp⟩ := h
  rw [List.append_assoc, List.append_assoc _ after]
  exact .expand front (after ++ back) hp

/-- Parts of a form are rewritten apart. -/
theorem Rewrites.append (hα : g.Rewrites α α') (hβ : g.Rewrites β β') :
    g.Rewrites (α ++ β) (α' ++ β') :=
  (Relation.ReflTransGen.lift (· ++ β) (fun _ _ h => h.append_right β) _ _ hα).trans
    (Relation.ReflTransGen.lift (α' ++ ·) (fun _ _ h => h.append_left α') _ _ hβ)

/-- A nonterminal at the front may be replaced by what a production leads to. -/
theorem Rewrites.expand {p : Production} (hp : p ∈ g.productions) (h : g.Rewrites (p.rhs ++ β) α) :
    g.Rewrites (.nonterminal p.lhs :: β) α :=
  .head (.expand [] β hp) h

theorem Derives.rewrites (h : g.Derives α w) : g.Rewrites α (w.map .terminal) := by
  induction h with
  | nil => exact .refl
  | @terminal t rest w _ ih => exact Rewrites.append (α := [.terminal t]) .refl ih
  | nonterminal hp hn _ _ ihu ihv =>
    subst hn
    rw [List.map_append]
    exact .expand hp (ihu.append ihv)

/-- What is derived after a step was derived before. -/
theorem Step.derives (h : g.Step α β) (hβ : g.Derives β w) : g.Derives α w := by
  obtain ⟨front, back, hp⟩ := h
  obtain ⟨uv, z, rfl, hfront, hback⟩ := hβ.split
  obtain ⟨u, v, rfl, hu, hv⟩ := hfront.split
  rw [List.append_assoc]
  exact hu.append (.nonterminal hp rfl hv hback)

/-- Derivation trees and steps in any order give the same sentences. -/
theorem derives_iff_rewrites : g.Derives α w ↔ g.Rewrites α (w.map .terminal) := by
  refine ⟨Derives.rewrites, fun h => ?_⟩
  induction h using Relation.ReflTransGen.head_induction_on with
  | refl => exact .terminals w
  | head hstep _ ih => exact hstep.derives ih

end FluentGrammar.Grammar
