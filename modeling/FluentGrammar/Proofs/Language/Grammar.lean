import FluentGrammar.Grammar.Basic
import FluentGrammar.Proofs.Language.Rules
import Mathlib.Logic.Relation

/-
  What grammars derive. `Grammar.Derives` follows derivation trees: a nonterminal derives what the
  right-hand side of one of its productions derives. `Grammar.Reads` goes through a string of
  symbols from the left with leftmost expansion, to its end or to any point, and
  `Grammar.Reaches` are the leftmost forms of the start symbol, the terminals at the front apart.
-/

namespace FluentGrammar.Grammar

/-- The symbols derive the terminals. -/
inductive Derives (g : Grammar) : List Symbol → List TerminalId → Prop
  | nil : Derives g [] []
  | terminal {t rest w} : Derives g rest w → Derives g (.terminal t :: rest) (t :: w)
  | nonterminal {n p rest u v} : p ∈ g.productions → p.lhs = n → Derives g p.rhs u →
      Derives g rest v → Derives g (.nonterminal n :: rest) (u ++ v)

/-- The terminals read when the symbols are gone through as far as the extent says. -/
inductive Reads (g : Grammar) : Extent → List Symbol → List TerminalId → Prop
  | cut (α : List Symbol) : Reads g .start α []
  | nil : Reads g .whole [] []
  | terminal {x t rest w} : Reads g x rest w → Reads g x (.terminal t :: rest) (t :: w)
  | expand {x n p rest w} : p ∈ g.productions → p.lhs = n → Reads g x (p.rhs ++ rest) w →
      Reads g x (.nonterminal n :: rest) w

/-- Leftmost expansion of the start symbol reaches the terminals followed by the symbols. -/
inductive Reaches (g : Grammar) : List TerminalId → List Symbol → Prop
  | start : Reaches g [] [.nonterminal g.start]
  | terminal {w t rest} : Reaches g w (.terminal t :: rest) → Reaches g (w ++ [t]) rest
  | expand {w n p rest} : p ∈ g.productions → p.lhs = n → Reaches g w (.nonterminal n :: rest) →
      Reaches g w (p.rhs ++ rest)

/-- Every index is in range, and no production mentions the end of input. -/
structure WellFormed (g : Grammar) : Prop where
  terminals : g.terminals ≠ []
  start : g.start < g.nonterminals.length
  lhs : ∀ p ∈ g.productions, p.lhs < g.nonterminals.length
  nonterminals : ∀ p ∈ g.productions, ∀ n, .nonterminal n ∈ p.rhs → n < g.nonterminals.length
  actions : ∀ p ∈ g.productions, ∀ t, .terminal t ∈ p.rhs → t < g.endTerminal

/-- Every index is in range. Productions may mention the end of input. -/
structure Ranged (g : Grammar) : Prop where
  terminals : g.terminals ≠ []
  start : g.start < g.nonterminals.length
  lhs : ∀ p ∈ g.productions, p.lhs < g.nonterminals.length
  nonterminals : ∀ p ∈ g.productions, ∀ n, .nonterminal n ∈ p.rhs → n < g.nonterminals.length
  symbols : ∀ p ∈ g.productions, ∀ t, .terminal t ∈ p.rhs → t < g.terminals.length

/-- Productions lead from the start symbol to the nonterminal. -/
def Reached (g : Grammar) (l : NonterminalId) : Prop :=
  Relation.ReflTransGen (fun m l => ∃ q ∈ g.productions, q.lhs = m ∧ .nonterminal l ∈ q.rhs)
    g.start l

variable {g : Grammar} {x : Extent} {α β : List Symbol} {u v w : List TerminalId}

/-! ## Indices in range -/

theorem Ranged.endTerminal_lt (hg : g.Ranged) : g.endTerminal < g.terminals.length :=
  Nat.sub_lt (List.length_pos_iff.2 hg.terminals) Nat.one_pos

theorem WellFormed.ranged (hg : g.WellFormed) : g.Ranged where
  terminals := hg.terminals
  start := hg.start
  lhs := hg.lhs
  nonterminals := hg.nonterminals
  symbols p hp t ht := Nat.lt_of_lt_of_le (hg.actions p hp t ht) (Nat.sub_le _ _)

theorem lhs_lt_of_inRange (hg : g.inRange = true) :
    ∀ p ∈ g.productions, p.lhs < g.nonterminals.length := by
  intro p hp
  have hall := List.all_eq_true.1 (Bool.and_eq_true_iff.1 hg).2 p hp
  exact of_decide_eq_true (Bool.and_eq_true_iff.1 hall).1

theorem hasSymbol_of_inRange (hg : g.inRange = true) :
    ∀ p ∈ g.productions, ∀ s ∈ p.rhs, g.hasSymbol s = true := by
  intro p hp
  have hall := List.all_eq_true.1 (Bool.and_eq_true_iff.1 hg).2 p hp
  exact List.all_eq_true.1 (Bool.and_eq_true_iff.1 hall).2

theorem ranged_of_inRange (ht : g.terminals ≠ []) (hg : g.inRange = true) : g.Ranged where
  terminals := ht
  start := of_decide_eq_true (Bool.and_eq_true_iff.1 hg).1
  lhs := lhs_lt_of_inRange hg
  nonterminals p hp _ hn := of_decide_eq_true (hasSymbol_of_inRange hg p hp _ hn)
  symbols p hp _ ht := of_decide_eq_true (hasSymbol_of_inRange hg p hp _ ht)

/-! ## Strings of symbols one after the other -/

theorem Derives.append (ha : g.Derives α u) (hb : g.Derives β v) :
    g.Derives (α ++ β) (u ++ v) := by
  induction ha with
  | nil => exact hb
  | terminal _ ih => exact .terminal ih
  | nonterminal hp hn hr _ _ ih =>
    rw [List.append_assoc]
    exact .nonterminal hp hn hr ih

theorem Derives.terminals (w : List TerminalId) : g.Derives (w.map .terminal) w := by
  induction w with
  | nil => exact .nil
  | cons t w ih => exact .terminal ih

theorem Derives.split (h : g.Derives (α ++ β) w) :
    ∃ u v, w = u ++ v ∧ g.Derives α u ∧ g.Derives β v := by
  induction α generalizing w with
  | nil => exact ⟨[], w, rfl, .nil, h⟩
  | cons s α ih =>
    cases h with
    | terminal h =>
      obtain ⟨u, v, rfl, hu, hv⟩ := ih h
      exact ⟨_ :: u, v, rfl, .terminal hu, hv⟩
    | nonterminal hp hn hr h =>
      obtain ⟨u, v, rfl, hu, hv⟩ := ih h
      exact ⟨_ ++ u, v, (List.append_assoc ..).symm, .nonterminal hp hn hr hu, hv⟩

/-- Every symbol derives something, so the string does. -/
theorem exists_derives_of_forall (hα : ∀ x ∈ α, ∃ u, g.Derives [x] u) : ∃ u, g.Derives α u := by
  induction α with
  | nil => exact ⟨[], .nil⟩
  | cons x α ih =>
    obtain ⟨hx, hα⟩ := List.forall_mem_cons.1 hα
    obtain ⟨u, hu⟩ := hx
    obtain ⟨v, hv⟩ := ih hα
    exact ⟨u ++ v, hu.append hv⟩

/-- A nonterminal derives what one of its productions derives. -/
theorem derives_nonterminal_iff {n : NonterminalId} :
    g.Derives [.nonterminal n] w ↔ ∃ p ∈ g.productions, p.lhs = n ∧ g.Derives p.rhs w := by
  constructor
  · intro h
    cases h with
    | nonterminal hp hn hr hv =>
      cases hv
      exact ⟨_, hp, hn, by simpa using hr⟩
  · rintro ⟨p, hp, hn, hr⟩
    simpa using Derives.nonterminal hp hn hr .nil

theorem Reads.append (ha : g.Reads .whole α u) (hb : g.Reads x β v) :
    g.Reads x (α ++ β) (u ++ v) := by
  generalize hy : Extent.whole = y at ha
  induction ha with
  | cut => cases hy
  | nil => exact hb
  | terminal _ ih => exact .terminal (ih hy)
  | expand hp hn _ ih =>
    rw [List.cons_append]
    refine .expand hp hn ?_
    rw [← List.append_assoc]
    exact ih hy

theorem Reads.append_here (β : List Symbol) (h : g.Reads .start α w) :
    g.Reads .start (α ++ β) w := by
  generalize hy : Extent.start = y at h
  induction h with
  | cut => exact .cut _
  | nil => cases hy
  | terminal _ ih => exact .terminal (ih hy)
  | expand hp hn _ ih =>
    rw [List.cons_append]
    refine .expand hp hn ?_
    rw [← List.append_assoc]
    exact ih hy

/-- Derivation trees and leftmost expansion to the end give the same sentences. -/
theorem derives_iff_reads : g.Derives α w ↔ g.Reads .whole α w := by
  constructor
  · intro h
    induction h with
    | nil => exact .nil
    | terminal _ ih => exact .terminal ih
    | nonterminal hp hn _ _ ihu ihv => exact .expand hp hn (ihu.append ihv)
  · intro h
    generalize hy : Extent.whole = y at h
    induction h with
    | cut => cases hy
    | nil => exact .nil
    | terminal _ ih => exact .terminal (ih hy)
    | expand hp hn _ ih =>
      obtain ⟨u, v, rfl, hu, hv⟩ := (ih hy).split
      exact .nonterminal hp hn hu hv

/-- What is read of actions is actions. -/
theorem Reads.lt_endTerminal (hg : g.WellFormed) (h : g.Reads x α w)
    (hα : ∀ t, .terminal t ∈ α → t < g.endTerminal) : ∀ t ∈ w, t < g.endTerminal := by
  induction h with
  | cut => simp
  | nil => simp
  | terminal _ ih =>
    intro t ht
    rcases List.mem_cons.1 ht with rfl | ht
    · exact hα _ List.mem_cons_self
    · exact ih (fun t ht => hα t (List.mem_cons_of_mem _ ht)) t ht
  | expand hp _ _ ih =>
    refine ih fun t ht => ?_
    rcases List.mem_append.1 ht with ht | ht
    · exact hg.actions _ hp t ht
    · exact hα t (List.mem_cons_of_mem _ ht)

/-! ## Leftmost forms -/

/-- What a form reads is the beginning of a form further on. -/
theorem Reaches.reads (h : g.Reaches w α) (hv : g.Reads .start α v) :
    g.Reads .start [.nonterminal g.start] (w ++ v) := by
  induction h generalizing v with
  | start => exact hv
  | terminal _ ih =>
    rw [List.append_assoc]
    exact ih (.terminal hv)
  | expand hp hn _ ih => exact ih (.expand hp hn hv)

/-- A string at the front of a form may be replaced by what it derives. -/
theorem Reaches.derives (h : g.Reaches w (α ++ β)) (hu : g.Derives α u) :
    g.Reaches (w ++ u) β := by
  induction hu generalizing w β with
  | nil => simpa using h
  | terminal _ ih =>
    have := ih (.terminal h)
    rwa [List.append_assoc] at this
  | nonterminal hp hn _ _ ihu ihv =>
    rw [← List.append_assoc]
    exact ihv (ihu (.expand hp hn h))

end FluentGrammar.Grammar
