import Mathlib
import FluentGrammar.Proofs.Language.Equations
import FluentGrammar.Proofs.Source.Definitions

/-
  What a source says of the sentences of its rules. A phrase has a language as soon as every name
  has one: groups do not count, branches are alternatives, atoms stand one behind the other, and
  marks repeat. The expression that a phrase becomes has this language (`Term.language_expr`), so a
  source is a system of equations between the languages of its rules, and their sentences are its
  least solution (`Rules.ofDocument_least`).
-/

namespace FluentGrammar

open Report

/-- The language of what a name stands for, when the rules have the given ones. -/
def Meaning.language (x : RuleId → Language TerminalId) : Meaning → Language TerminalId
  | rule r => x r
  | action t => {[t]}

/-- The languages of names. A name that stands for nothing has only the empty word. -/
def Meaning.languages (meaning : String → Option Meaning) (x : RuleId → Language TerminalId)
    (name : String) : Language TerminalId :=
  ((meaning name).map (·.language x)).getD 1

namespace Source

namespace Phrase

mutual

/-- The language of a phrase when the names have the given ones. -/
def language (x : String → Language TerminalId) : Phrase → Language TerminalId
  | ref name => x name.text
  | group body => language x body
  | quantified repetition inner => repetition.language (language x inner)
  | sequence items => languageOfSeq x items
  | choice branches => languageOfAlt x branches

/-- The language of phrases one behind the other. -/
def languageOfSeq (x : String → Language TerminalId) : List Phrase → Language TerminalId
  | [] => 1
  | p :: ps => language x p * languageOfSeq x ps

/-- The language of branches. -/
def languageOfAlt (x : String → Language TerminalId) : List Phrase → Language TerminalId
  | [] => 0
  | p :: ps => language x p + languageOfAlt x ps

end

end Phrase

namespace Term

variable (meaning : String → Option Meaning) (x : RuleId → Language TerminalId)

mutual

/-- The expression of a term has the language of its phrase. -/
theorem language_expr (t : Term) :
    (t.expr meaning).language x = t.phrase.language (Meaning.languages meaning x) := by
  match t with
  | ref _ name =>
    rw [expr, phrase, Phrase.language, Meaning.languages]
    cases meaning name.text with
    | none => rfl
    | some m => cases m <;> rfl
  | group _ body =>
    rw [expr, phrase, Phrase.language]
    exact language_expr body
  | quantified _ repetition inner =>
    rw [expr, phrase, Phrase.language, Expr.language, language_expr inner]
  | sequence _ items =>
    rw [expr, phrase, Phrase.language, Expr.language_ofItems]
    exact languageOfSeq_exprs items
  | choice _ branches =>
    rw [expr, phrase, Phrase.language, Expr.language_ofBranches]
    exact languageOfAlt_exprs branches

theorem languageOfSeq_exprs (ts : List Term) : Expr.languageOfSeq x (exprs meaning ts) =
    Phrase.languageOfSeq (Meaning.languages meaning x) (phrases ts) := by
  match ts with
  | [] => rfl
  | t :: ts =>
    rw [exprs, phrases, Expr.languageOfSeq, Phrase.languageOfSeq, language_expr t,
      languageOfSeq_exprs ts]

theorem languageOfAlt_exprs (ts : List Term) : Expr.languageOfAlt x (exprs meaning ts) =
    Phrase.languageOfAlt (Meaning.languages meaning x) (phrases ts) := by
  match ts with
  | [] => rfl
  | t :: ts =>
    rw [exprs, phrases, Expr.languageOfAlt, Phrase.languageOfAlt, language_expr t,
      languageOfAlt_exprs ts]

end

end Term

end Source

open Source

namespace Rules

variable {catalog : Catalog} {d : Document} {rules : Rules} {reports : List Diagnostic}
  {ts : List Token} {x : RuleId → Language TerminalId}

/-- The rules have the bodies of the document. -/
theorem bodies_of_ofDocument (hscript : d.script = .empty ∨ d.script.Derives ts)
    (h : ofDocument catalog d = .ok (rules, reports)) :
    rules.rules.map (·.body) = d.bodies.map (·.expr (d.meaning? catalog)) := by
  obtain ⟨hwritten, hbare⟩ := rules_of_ofDocument hscript h
  rw [Document.bodies]
  cases hexpr : d.expr with
  | none =>
    rw [hwritten hexpr, List.map_map, Option.toList_none, List.nil_append, List.map_map]
    rfl
  | some body =>
    rw [hbare body hexpr, Document.rules_eq_nil hscript hexpr]
    rfl

/-- A body has the language of its phrase, where names stand for what they do in the document. -/
theorem language_body (hscript : d.script = .empty ∨ d.script.Derives ts)
    (h : ofDocument catalog d = .ok (rules, reports)) {i : Nat} {body : Term}
    (hbody : d.bodies[i]? = some body) (x : RuleId → Language TerminalId) :
    (rules.rule i).body.language x =
      body.phrase.language (Meaning.languages (d.meaning? catalog) x) := by
  have hget : (rules.rules.map (·.body))[i]? = some (body.expr (d.meaning? catalog)) := by
    rw [bodies_of_ofDocument hscript h, List.getElem?_map, hbody]
    rfl
  rw [List.getElem?_map] at hget
  obtain ⟨rule, hrule, heq⟩ := Option.map_eq_some_iff.1 hget
  rw [Rules.rule, List.getD_eq_getElem?_getD, hrule, ← Term.language_expr, ← heq]
  rfl

theorem size_of_ofDocument (hscript : d.script = .empty ∨ d.script.Derives ts)
    (h : ofDocument catalog d = .ok (rules, reports)) : rules.size = d.bodies.length := by
  rw [← List.length_map (f := fun body : Term => body.expr (d.meaning? catalog)),
    ← bodies_of_ofDocument hscript h, List.length_map, Rules.size]

/-- Names stand for rules of the document, so languages that agree on those rules agree on names. -/
theorem languages_congr {y : RuleId → Language TerminalId}
    (hxy : ∀ r < d.bodies.length, x r = y r) :
    Meaning.languages (d.meaning? catalog) x = Meaning.languages (d.meaning? catalog) y := by
  funext name
  rw [Meaning.languages, Meaning.languages, Document.meaning?]
  cases hindex : d.ruleNames.idxOf? name with
  | none => cases catalog.lookup? name <;> rfl
  | some r =>
    obtain ⟨hr, -⟩ := List.idxOf?_eq_some_iff.1 hindex
    rw [Document.ruleNames, List.length_map] at hr
    have hlt : r < d.bodies.length := by
      rw [Document.bodies, List.length_append, List.length_map]
      omega
    exact hxy r hlt

/-- The sentences of the rules of a source are the least solution of the equations that the source
    is: the language of a rule is what its body says, where names of rules stand for their languages
    and other names for actions. -/
theorem ofDocument_least {source : String} {limit : Nat} {tree : Source.Tree}
    (hparse : parse source limit = .ok (tree, []))
    (h : ofDocument catalog tree.document = .ok (rules, reports)) :
    (∀ i body, tree.document.bodies[i]? = some body → rules.languages i =
      body.phrase.language (Meaning.languages (tree.document.meaning? catalog) rules.languages)) ∧
    ∀ x : RuleId → Language TerminalId,
      (∀ i body, tree.document.bodies[i]? = some body →
        body.phrase.language (Meaning.languages (tree.document.meaning? catalog) x) ≤ x i) →
      ∀ i < rules.size, rules.languages i ≤ x i := by
  have hscript := (document_of_parse hparse rfl).2
  refine ⟨fun i body hbody => ?_, fun x hx i hi => ?_⟩
  · rw [languages_eq, language_body hscript h hbody]
  · -- What is no rule has no equation, and any language will do for it.
    have hsolves : ∀ r, (rules.rule r).body.language (fun r => if r < rules.size then x r else ⊤) ≤
        if r < rules.size then x r else ⊤ := by
      intro r
      split
      · next hr =>
        rw [size_of_ofDocument hscript h] at hr ⊢
        have hbody := List.getElem?_eq_getElem hr
        rw [language_body hscript h hbody, languages_congr (y := x) fun r hr => if_pos hr]
        exact hx r _ hbody
      · exact le_top
    have hle := languages_le hsolves i
    rwa [if_pos hi] at hle

end Rules

end FluentGrammar
