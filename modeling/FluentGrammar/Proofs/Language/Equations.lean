import FluentGrammar.Proofs.Language.Rules
import Mathlib.Computability.Language
import Mathlib.Order.CompletePartialOrder

/-
  Rules as equations between languages. An expression has a language as soon as every rule has one,
  built with the operations on languages, so rules are equations: the language of a rule is that of
  its body. The sentences of the rules solve them (`Rules.languages_eq`), and every other solution
  has more sentences (`Rules.languages_le`).
-/

namespace FluentGrammar

open Computability

/-- What is repeated as often as the repetition allows. -/
def Repetition.language (l : Language TerminalId) : Repetition → Language TerminalId
  | zeroOrMore => l∗
  | oneOrMore => l * l∗
  | optional => 1 + l

/-- The languages of rules: their sentences. -/
def Rules.languages (g : Rules) (r : RuleId) : Language TerminalId := {w | g.Sentence r w}

namespace Expr

mutual

/-- The language of an expression when the rules have the given ones. -/
def language (x : RuleId → Language TerminalId) : Expr → Language TerminalId
  | empty => 1
  | terminal t => {[t]}
  | rule r => x r
  | seq items => languageOfSeq x items
  | alt bs => languageOfAlt x bs
  | repeated inner repetition => repetition.language (language x inner)

/-- The language of expressions one behind the other. -/
def languageOfSeq (x : RuleId → Language TerminalId) : List Expr → Language TerminalId
  | [] => 1
  | e :: es => language x e * languageOfSeq x es

/-- The language of alternatives. -/
def languageOfAlt (x : RuleId → Language TerminalId) : List Expr → Language TerminalId
  | [] => 0
  | e :: es => language x e + languageOfAlt x es

end

variable {g : Rules} {x : RuleId → Language TerminalId} {e b : Expr} {es bs : List Expr}
  {w : List TerminalId}

theorem language_ofItems (x : RuleId → Language TerminalId) (es : List Expr) :
    (ofItems es).language x = languageOfSeq x es := by
  match es with
  | [] => rfl
  | [e] => exact (mul_one _).symm
  | _ :: _ :: _ => rfl

theorem language_ofBranches (x : RuleId → Language TerminalId) (es : List Expr) :
    (ofBranches es).language x = languageOfAlt x es := by
  match es with
  | [] => rfl
  | [e] => exact (add_zero _).symm
  | _ :: _ :: _ => rfl

theorem mem_languageOfAlt : w ∈ languageOfAlt x bs ↔ ∃ b ∈ bs, w ∈ b.language x := by
  induction bs with
  | nil => exact iff_of_false (Language.notMem_zero w) fun ⟨b, hb, _⟩ => List.not_mem_nil hb
  | cons b bs ih =>
    rw [languageOfAlt, Language.mem_add, ih]
    simp only [List.mem_cons, exists_eq_or_imp]

/-! ## Derivations -/

theorem append_mem_kstar {l : Language TerminalId} {u v : List TerminalId} (hu : u ∈ l)
    (hv : v ∈ l∗) : u ++ v ∈ l∗ := by
  have hle : l * l∗ ≤ l∗ := mul_kstar_le_kstar
  exact hle (Language.append_mem_mul hu hv)

/-- What an expression derives is in its language, when the rules have languages that the
    languages of their bodies go into. -/
theorem Derives.mem_language (hx : ∀ r, (g.rule r).body.language x ≤ x r) (h : e.Derives g w) :
    w ∈ e.language x := by
  induction h with
  | empty | seqNil => exact Language.nil_mem_one
  | terminal t => exact Set.mem_singleton [t]
  | rule _ ih => exact hx _ ih
  | seqCons _ _ ihu ihv => exact Language.append_mem_mul ihu ihv
  | alt hb _ ih => exact mem_languageOfAlt.2 ⟨_, hb, ih⟩
  | starNone => exact Language.nil_mem_kstar _
  | starMore _ _ ihu ihv => exact append_mem_kstar ihu ihv
  | @plusOnce _ w _ ih =>
    rw [← List.append_nil w]
    exact Language.append_mem_mul ih (Language.nil_mem_kstar _)
  | plusMore _ _ ihu ihv =>
    obtain ⟨v, hv, v', hv', rfl⟩ := Language.mem_mul.1 ihv
    exact Language.append_mem_mul ihu (append_mem_kstar hv hv')
  | skip => exact .inl Language.nil_mem_one
  | take _ ih => exact .inr ih

/-- What is repeated is derived when the parts are. -/
theorem derives_repeated {l : Language TerminalId} (hl : ∀ u ∈ l, e.Derives g u)
    {repetition : Repetition} (h : w ∈ repetition.language l) :
    (repeated e repetition).Derives g w := by
  cases repetition with
  | zeroOrMore =>
    obtain ⟨ws, rfl, hws⟩ := Language.mem_kstar.1 h
    clear h
    induction ws with
    | nil => exact .starNone
    | cons u ws ih =>
      obtain ⟨hu, hws⟩ := List.forall_mem_cons.1 hws
      exact .starMore (hl u hu) (ih hws)
  | oneOrMore =>
    obtain ⟨u, hu, v, hv, rfl⟩ := Language.mem_mul.1 h
    obtain ⟨ws, rfl, hws⟩ := Language.mem_kstar.1 hv
    clear h hv
    induction ws generalizing u with
    | nil => exact (List.append_nil u).symm ▸ .plusOnce (hl u hu)
    | cons v ws ih =>
      obtain ⟨hv, hws⟩ := List.forall_mem_cons.1 hws
      exact .plusMore (hl u hu) (ih v hv hws)
  | optional =>
    rcases h with h | h
    · obtain rfl := (Language.mem_one w).1 h
      exact .skip
    · exact .take (hl w h)

mutual

/-- The expression derives its language, when the rules have sentences as their languages. -/
theorem derives_of_mem_language (e : Expr) (w : List TerminalId) (h : w ∈ e.language g.languages) :
    e.Derives g w := by
  match e with
  | .empty =>
    obtain rfl := (Language.mem_one w).1 h
    exact .empty
  | .terminal t =>
    obtain rfl := Set.mem_singleton_iff.1 h
    exact .terminal t
  | .rule r => exact h
  | .seq items => exact derives_of_mem_languageOfSeq items w h
  | .alt bs =>
    obtain ⟨b, hb, h⟩ := derives_of_mem_languageOfAlt bs w h
    exact .alt hb h
  | .repeated inner _ => exact derives_repeated (derives_of_mem_language inner) h

theorem derives_of_mem_languageOfSeq (es : List Expr) (w : List TerminalId)
    (h : w ∈ languageOfSeq g.languages es) : (seq es).Derives g w := by
  match es with
  | [] =>
    obtain rfl := (Language.mem_one w).1 h
    exact .seqNil
  | e :: es =>
    obtain ⟨u, hu, v, hv, rfl⟩ := Language.mem_mul.1 h
    exact .seqCons (derives_of_mem_language e u hu) (derives_of_mem_languageOfSeq es v hv)

theorem derives_of_mem_languageOfAlt (bs : List Expr) (w : List TerminalId)
    (h : w ∈ languageOfAlt g.languages bs) : ∃ b ∈ bs, b.Derives g w := by
  match bs with
  | [] => exact absurd h (Language.notMem_zero w)
  | b :: bs =>
    rcases h with h | h
    · exact ⟨b, List.mem_cons_self, derives_of_mem_language b w h⟩
    · obtain ⟨c, hc, h⟩ := derives_of_mem_languageOfAlt bs w h
      exact ⟨c, List.mem_cons_of_mem b hc, h⟩

end

end Expr

/-! ## Equations -/

namespace Rules

variable {g : Rules} {x : RuleId → Language TerminalId}

/-- The sentences of a rule are the language of its body. -/
theorem languages_eq (g : Rules) (r : RuleId) :
    g.languages r = (g.rule r).body.language g.languages := by
  have hbody : ∀ r, (g.rule r).body.language g.languages ≤ g.languages r :=
    fun r w h => .rule (Expr.derives_of_mem_language _ w h)
  refine le_antisymm (fun w h => ?_) (hbody r)
  cases h with
  | rule h => exact h.mem_language hbody

/-- No languages that the languages of the bodies go into have fewer sentences. -/
theorem languages_le (hx : ∀ r, (g.rule r).body.language x ≤ x r) (r : RuleId) :
    g.languages r ≤ x r :=
  fun _ h => Expr.Derives.mem_language hx h

end Rules

end FluentGrammar
