import FluentGrammar.Proofs.Source.Moved
import FluentGrammar.Proofs.Source.Recovery
import FluentGrammar.Proofs.Source.Scripts
import FluentGrammar.Proofs.Source.Tokens
import Mathlib

/-
  Sources of rules with mistakes between them. A mistake moves every token behind it, so a source
  with mistakes is compared with the one without them up to places (`Moved`). It is parsed to the
  same rules, with one report for every mistake (`parse_recovers`).
-/

namespace FluentGrammar.Source

open Parsing

variable {source original : String} {limit : Nat} {written : List (Clause × Fault)}

theorem fresh_start (source : String) :
    (State.start (lex source) (Text.byteLength source.toList)).Fresh where
  ordered := pairwise_lex source
  start_lt_stop _ ht := start_lt_stop ht
  behind := nofun
  unreported := nofun

/-- A source of rules and mistakes is read as the rules, with a report on every mistake. -/
theorem parse_of_disturbed (hne : written ≠ [])
    (hsource : significant (lex source) = disturbed written)
    (hroom : ∀ w ∈ written, w.1.body.depth ≤ limit) :
    ∃ tree ds, parse source limit = .ok (tree, ds) ∧
      tree.document.script = ⟨none, written.map fun w => (w.1.name, w.1.body)⟩ ∧
      ds.map (·.kind) = written.filterMap (·.2.kind?) := by
  have hcontents := contents_recovers (stepsFor (lex source).length) (fresh_start source) hne
    hsource hroom
  have hsteps := parse_ne_outOfSteps source limit
  unfold parse at hsteps ⊢
  dsimp only at hsteps ⊢
  generalize contents limit _ _ = result at hcontents hsteps ⊢
  cases hcontents with
  | outOfSteps => exact absurd rfl hsteps
  | @ok body s h => exact ⟨_, _, rfl, h.reads.document s.lookAhead.pending, h.kinds⟩

/-- Without mistakes there are no reports. -/
theorem parse_of_intact (hne : written ≠ [])
    (hsource : significant (lex source) = written.flatMap (·.1.tokens))
    (hroom : ∀ w ∈ written, w.1.body.depth ≤ limit) :
    ∃ tree, parse source limit = .ok (tree, []) ∧
      tree.document.script = ⟨none, written.map fun w => (w.1.name, w.1.body)⟩ := by
  have hintact : significant (lex source) =
      disturbed (written.map fun w => (w.1, .intact)) := by
    rw [hsource, disturbed, List.flatMap_map]
    rfl
  obtain ⟨tree, ds, hparse, hscript, hkinds⟩ := parse_of_disturbed
    (mt List.map_eq_nil_iff.1 hne) hintact (List.forall_mem_map.2 hroom)
  have hsilent : (written.map fun w => (w.1, Fault.intact)).filterMap (·.2.kind?) = [] := by
    rw [List.filterMap_map]
    exact List.filterMap_eq_nil_iff.2 fun _ _ => rfl
  obtain rfl := List.map_eq_nil_iff.1 (hkinds.trans hsilent)
  refine ⟨tree, hparse, ?_⟩
  rw [hscript, List.map_map]
  rfl

/-- A rule with its fault is another one up to places. -/
structure Moved (w w' : Clause × Fault) : Prop where
  name : w'.1.name.bare = w.1.name.bare
  body : Phrase.Same w.1.body w'.1.body
  kind : w'.2.kind? = w.2.kind?

/-- The tokens of a rule elsewhere are those of a rule. -/
theorem Clause.exists_moved (c : Clause) {us : List Token}
    (h : us.map Token.bare = c.tokens.map Token.bare) :
    ∃ c' : Clause, c'.tokens = us ∧ c'.name.bare = c.name.bare ∧ Phrase.Same c.body c'.body := by
  obtain ⟨name, us, rfl, hname, h⟩ := List.map_eq_cons_iff.1 h
  obtain ⟨colon, us, rfl, hcolon, h⟩ := List.map_eq_cons_iff.1 h
  rw [List.map_append] at h
  obtain ⟨inside, us, rfl, hinside, h⟩ := List.map_eq_append_iff.1 h
  obtain ⟨semicolon, us, rfl, hsemicolon, h⟩ := List.map_eq_cons_iff.1 h
  obtain rfl := List.map_eq_nil_iff.1 h
  obtain ⟨body, hbody, hsame⟩ := Phrase.exists_derives c.derives hinside
  exact ⟨⟨name, colon, inside, semicolon, body, (Token.kind_of_bare hname).trans c.kind_name,
    (Token.kind_of_bare hcolon).trans c.kind_colon, hbody,
    (Token.kind_of_bare hsemicolon).trans c.kind_semicolon⟩, rfl, hname, hsame⟩

/-- The tokens of a rule with its fault elsewhere are those of a rule with that fault. -/
theorem exists_moved (w : Clause × Fault) {us : List Token}
    (h : us.map Token.bare = (w.2.disturb w.1).map Token.bare) :
    ∃ w' : Clause × Fault, w'.2.disturb w'.1 = us ∧ Moved w w' := by
  obtain ⟨c, fault⟩ := w
  cases fault with
  | intact =>
    obtain ⟨c', rfl, hname, hbody⟩ := c.exists_moved h
    exact ⟨(c', .intact), rfl, hname, hbody, rfl⟩
  | unended =>
    have hclosed : (us ++ [c.semicolon]).map Token.bare = c.tokens.map Token.bare := by
      rw [List.map_append, h, ← List.map_append]
      rfl
    obtain ⟨c', htokens, hname, hbody⟩ := c.exists_moved hclosed
    have hsplit : (c'.name :: c'.colon :: c'.inside) ++ [c'.semicolon] = us ++ [c.semicolon] :=
      htokens
    exact ⟨(c', .unended), (List.append_inj' hsplit rfl).1, hname, hbody, rfl⟩
  | followed first more noRule =>
    obtain ⟨us, vs, rfl, hus, hvs⟩ :=
      List.map_eq_append_iff.1 (h.trans List.map_append)
    obtain ⟨c', rfl, hname, hbody⟩ := c.exists_moved hus
    have hnone : (vs.map Token.bare).IsChain fun t u => ¬ (t.kind = .name ∧ u.kind = .colon) := by
      rw [hvs]
      exact (List.isChain_map Token.bare).2 noRule
    replace hnone := (List.isChain_map Token.bare).1 hnone
    obtain ⟨first', more', rfl, hfirst, -⟩ := List.map_eq_cons_iff.1 hvs
    refine ⟨(c', .followed first' more' hnone), rfl, hname, hbody, ?_⟩
    simp only [Fault.kind?, Token.kind_of_bare hfirst]

/-- Tokens of rules and mistakes elsewhere are those of rules with the same mistakes. -/
theorem exists_disturbed {us : List Token}
    (h : us.map Token.bare = (disturbed written).map Token.bare) :
    ∃ written', disturbed written' = us ∧ List.Forall₂ Moved written written' := by
  induction written generalizing us with
  | nil =>
    obtain rfl := List.map_eq_nil_iff.1 h
    exact ⟨[], rfl, .nil⟩
  | cons w written ih =>
    obtain ⟨us, vs, rfl, hus, hvs⟩ := List.map_eq_append_iff.1 (h.trans List.map_append)
    obtain ⟨w', rfl, hw⟩ := exists_moved w hus
    obtain ⟨written', rfl, hwritten⟩ := ih hvs
    exact ⟨w' :: written', rfl, .cons hw hwritten⟩

/-- What does not depend on places is the same of all rules. -/
theorem map_eq_of_moved {α : Type} {f : Clause × Fault → α} {written' : List (Clause × Fault)}
    (hf : ∀ w w', Moved w w' → f w' = f w) (h : List.Forall₂ Moved written written') :
    written'.map f = written.map f := by
  induction h with
  | nil => rfl
  | cons hw _ ih => rw [List.map_cons, List.map_cons, hf _ _ hw, ih]

/-- The rules of a document that says some rules, without their places. -/
theorem Document.map_bare_rules {d : Document} {rules : List (Token × Phrase)}
    (h : d.script = ⟨none, rules⟩) :
    d.rules.map RuleTerm.bare = rules.map fun r => ⟨default, r.1.bare, r.2.bare⟩ := by
  rw [← (Script.mk.inj h).2, List.map_map]
  exact List.map_congr_left fun r _ => r.bare_eq

/-- Rules with mistakes. Each of them may lack its semicolon, or may be followed by further tokens
    among which no rule begins. The source is parsed all the same, to the rules of the source
    without mistakes up to places. There is one report for every mistake and no other, about a
    missing semicolon, or about the first of the further tokens. -/
theorem parse_recovers (hne : written ≠ []) (hroom : ∀ w ∈ written, w.1.body.depth ≤ limit)
    (horiginal : significant (lex original) = written.flatMap (·.1.tokens))
    (hsource : (significant (lex source)).map Token.bare =
      (disturbed written).map Token.bare) :
    ∃ tree₀ tree ds, parse original limit = .ok (tree₀, []) ∧
      tree₀.document.script = ⟨none, written.map fun w => (w.1.name, w.1.body)⟩ ∧
      parse source limit = .ok (tree, ds) ∧
      tree.document.expr = none ∧ tree.document.rules.length = written.length ∧
      tree.document.rules.map RuleTerm.bare = tree₀.document.rules.map RuleTerm.bare ∧
      ds.map (·.kind) = written.filterMap (·.2.kind?) := by
  obtain ⟨tree₀, hparse₀, hscript₀⟩ := parse_of_intact hne horiginal hroom
  obtain ⟨written', hwritten', hmoved⟩ := exists_disturbed hsource
  have hne' : written' ≠ [] := by
    rintro rfl
    cases hmoved
    exact hne rfl
  have hroom' : ∀ w ∈ written', w.1.body.depth ≤ limit := by
    have hdepth := map_eq_of_moved (f := fun w => w.1.body.depth) (fun _ _ hw => hw.body.depth)
      hmoved
    rw [← List.forall_mem_map (P := (· ≤ limit)), hdepth, List.forall_mem_map]
    exact hroom
  obtain ⟨tree, ds, hparse, hscript, hkinds⟩ := parse_of_disturbed hne' hwritten'.symm hroom'
  refine ⟨tree₀, tree, ds, hparse₀, hscript₀, hparse, ?_, ?_, ?_, ?_⟩
  · exact Option.map_eq_none_iff.1 (Script.mk.inj hscript).1
  · have hrules := congrArg List.length (Script.mk.inj hscript).2
    rw [List.length_map, List.length_map] at hrules
    exact hrules.trans hmoved.length_eq.symm
  · rw [Document.map_bare_rules hscript, Document.map_bare_rules hscript₀, List.map_map,
      List.map_map]
    refine map_eq_of_moved (fun w w' hw => ?_) hmoved
    exact congrArg₂ (RuleTerm.mk default) hw.name hw.body.bare
  · have hmistakes := map_eq_of_moved (f := fun w => w.2.kind?) (fun _ _ hw => hw.kind) hmoved
    have hreported := congrArg (List.filterMap id) hmistakes
    rw [List.filterMap_map, List.filterMap_map] at hreported
    exact hkinds.trans hreported

/-- The rule `name: target;` at a place. -/
def Clause.short (n : Nat) (name target : String) : Clause where
  name := ⟨.name, name, ⟨n, n + 1⟩⟩
  colon := ⟨.colon, ":", ⟨n + 1, n + 2⟩⟩
  inside := [⟨.name, target, ⟨n + 3, n + 4⟩⟩]
  semicolon := ⟨.semicolon, ";", ⟨n + 4, n + 5⟩⟩
  body := .choice [.sequence [.ref ⟨.name, target, ⟨n + 3, n + 4⟩⟩]]
  kind_name := rfl
  kind_colon := rfl
  derives := .alt (.item (.name rfl .nil) .noAtom) .noBar
  kind_semicolon := rfl

/-- Three rules with mistakes. The tokens behind the second end with a name, and a name and a colon
    come next. -/
def mistaken : List (Clause × Fault) :=
  [(.short 0 "a" "B", .unended),
    (.short 6 "c" "D", .followed ⟨.parenClose, ")", default⟩ [⟨.name, "x", default⟩] (by decide)),
    (.short 12 "e" "F", .unended)]

theorem exists_mistaken : ∃ tree₀ tree ds, parse "a: B; c: D; e: F;" 256 = .ok (tree₀, []) ∧
    parse "a: B c: D; ) x e: F" 256 = .ok (tree, ds) ∧
    tree.document.rules.map RuleTerm.bare = tree₀.document.rules.map RuleTerm.bare ∧
    tree.document.rules.length = 3 ∧
    ds.map (·.kind) = [.expectedSemicolon, .expectedRuleName, .expectedSemicolon] := by
  have hroom : ∀ w ∈ mistaken, w.1.body.depth ≤ 256 := by decide
  have horiginal : significant (lex "a: B; c: D; e: F;") = mistaken.flatMap (·.1.tokens) := by cbv
  have hsource : (significant (lex "a: B c: D; ) x e: F")).map Token.bare =
      (disturbed mistaken).map Token.bare := by cbv
  obtain ⟨tree₀, tree, ds, hparse₀, -, hparse, -, hlength, hrules, hkinds⟩ :=
    parse_recovers (List.cons_ne_nil _ _) hroom horiginal hsource
  exact ⟨tree₀, tree, ds, hparse₀, hparse, hrules, hlength, hkinds⟩

end FluentGrammar.Source
