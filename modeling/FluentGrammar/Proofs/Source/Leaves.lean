import FluentGrammar.Proofs.Source.Steps
import Mathlib

/-
  No token is lost. Between two states of the parser, the tokens that wait and the tokens to come
  are the leaves of what was attached and then the tokens that wait and come afterwards
  (`respects_leaves`). The parser ends with no tokens to come, and attaches the trivia that still
  waits, so the leaves of the tree are the tokens of the source (`parse_leaves`).
-/

namespace FluentGrammar.Source

open Report

/-! ## The text of tokens -/

/-- Placing lexemes changes no text. -/
theorem flatten_place (start : Nat) (ls : List Lexeme) :
    ((Token.place start ls).map (·.text.toList)).flatten = (ls.map (·.chars)).flatten := by
  induction ls generalizing start with
  | nil => rfl
  | cons l others ih =>
    rw [Token.place]
    simp only [List.map_cons, List.flatten_cons, String.toList_ofList, ih]

/-- The tokens spell the source. -/
theorem join_lex (source : String) : String.join ((lex source).map (·.text)) = source := by
  have htext : ((lex source).map (·.text.toList)).flatten = source.toList := by
    rw [lex, flatten_place, Lexeme.flatten_all]
  apply String.toList_injective
  rw [String.toList_join, List.flatMap_map, List.flatMap_def]
  exact htext

namespace Tree

@[simp] theorem leavesOfAll_append (ts us : List Tree) :
    leavesOfAll (ts ++ us) = leavesOfAll ts ++ leavesOfAll us := by
  induction ts with
  | nil => rfl
  | cons t ts ih => simp [leavesOfAll, ih]

@[simp] theorem leavesOfAll_ofTokens (ts : List Token) : leavesOfAll (ofTokens ts) = ts := by
  induction ts with
  | nil => rfl
  | cons t ts ih =>
    show [t] ++ leavesOfAll (ofTokens ts) = t :: ts
    rw [ih]
    rfl

theorem leavesOfAll_node (kind : NodeKind) (children : List Tree) :
    leavesOfAll [.node kind children] = leavesOfAll children := by
  simp [leavesOfAll, leaves]

end Tree

namespace Parsing

variable {s s' : State} {ts : List Tree} {limit bound steps : Nat}

/-! ## Leaves -/

/-- The tokens that are not attached. -/
def State.unattached (s : State) : List Token := s.pending ++ s.rest

/-- Each step attaches the first of the tokens that are not attached. -/
theorem respects_leaves :
    Respects fun s ts s' => s.unattached = Tree.leavesOfAll ts ++ s'.unattached where
  refl _ := rfl
  trans h h' := by rw [h, h', Tree.leavesOfAll_append, List.append_assoc]
  node kind h := by rw [Tree.leavesOfAll_node, h]
  lookAhead s := by
    show s.pending ++ s.rest = (s.pending ++ s.rest.takeWhile _) ++ s.rest.dropWhile _
    rw [List.append_assoc, List.takeWhile_append_dropWhile]
  flush s := by
    show s.pending ++ s.rest = Tree.leavesOfAll (Tree.ofTokens s.pending) ++ s.rest
    rw [Tree.leavesOfAll_ofTokens]
  bump s := by
    cases hrest : s.rest with
    | nil =>
      rw [State.bump_of_nil hrest]
      show s.pending ++ s.rest = Tree.leavesOfAll (Tree.ofTokens s.pending) ++ s.rest
      rw [Tree.leavesOfAll_ofTokens]
    | cons t after =>
      obtain ⟨htrees, hafter, hpending⟩ := State.bump_of_cons hrest
      rw [htrees, Tree.leavesOfAll_ofTokens, State.unattached, State.unattached, hrest, hafter,
        hpending]
      simp
  report _ h _ := h

/-! ## The end of the source -/

theorem rest_of_rules (hok : rules limit bound steps s = .ok (ts, s')) : s'.rest = [] := by
  induction steps generalizing s ts with
  | zero => cases hok
  | succ steps ih =>
    cases RulesCall.of_eq_ok hok with
    | sourceEnds hend => exact hend
    | rule _ _ hothers => exact ih hothers
    | skipped _ _ hothers => exact ih hothers

theorem rest_of_leftover (hok : leftover steps s = .ok (ts, s')) : s'.rest = [] := by
  induction steps generalizing s ts with
  | zero => cases hok
  | succ steps ih =>
    cases LeftoverCall.of_eq_ok hok with
    | sourceEnds hend => exact hend
    | token _ hothers => exact ih hothers

/-- All of the source is looked at. -/
theorem rest_of_contents (hok : contents limit bound s = .ok (ts, s')) : s'.rest = [] := by
  cases ContentsCall.of_eq_ok hok with
  | rules _ hrules => exact rest_of_rules hrules
  | nothing _ hend => exact hend
  | expr _ _ hothers => exact rest_of_leftover hothers

end Parsing

/-! ## The tree of a source -/

variable {source : String} {limit : Nat}

open Parsing in
/-- What a source is parsed to, taken apart. -/
theorem of_parse_eq_ok {tree : Tree} {ds : List Diagnostic}
    (h : parse source limit = .ok (tree, ds)) :
    ∃ body s, contents limit (stepsFor (lex source).length)
        (State.start (lex source) (Text.byteLength source.toList)) = .ok (body, s) ∧
      tree = .node .root (body ++ Tree.ofTokens s.lookAhead.pending) ∧ ds = s.diagnostics := by
  unfold parse at h
  obtain ⟨⟨body, s⟩, hbody, h⟩ := of_bind_eq_ok h
  obtain ⟨rfl, rfl⟩ := Prod.mk.inj (Except.ok.inj h)
  exact ⟨body, s, hbody, rfl, rfl⟩

open Parsing in
theorem parse_ne_outOfSteps (source : String) (limit : Nat) :
    parse source limit ≠ .error .outOfSteps := by
  unfold parse
  refine bind_ne_error (contents_ne_outOfSteps (Nat.le_refl _)) ?_
  exact fun _ _ => nofun

open Parsing in
/-- The leaves of the tree are the tokens of the source. -/
theorem leaves_of_parse {tree : Tree} {ds : List Diagnostic}
    (h : parse source limit = .ok (tree, ds)) : tree.leaves = lex source := by
  obtain ⟨body, s, hbody, rfl, -⟩ := of_parse_eq_ok h
  have hall : lex source = Tree.leavesOfAll body ++ (s.pending ++ s.rest) :=
    respects_leaves.contents hbody
  have hahead : s.lookAhead.pending = s.pending := by
    show s.pending ++ s.rest.takeWhile _ = s.pending
    rw [rest_of_contents hbody]
    exact List.append_nil _
  rw [rest_of_contents hbody, List.append_nil] at hall
  rw [hall, hahead, Tree.leaves, Tree.leavesOfAll_append, Tree.leavesOfAll_ofTokens]

/-- The parser ends on every source, however malformed, with a tree of all its tokens or, where
    groups nest too deeply, with none. The text of a tree is the source. The leaves have the spans
    of the tokens, whose offsets are not bounded; 32 bits are enough for a source below 4 GiB. -/
theorem parse_leaves (source : String) (limit : Nat) :
    parse source limit ≠ .error .outOfSteps ∧
      ∀ tree ds, parse source limit = .ok (tree, ds) →
        tree.leaves = lex source ∧ String.join (tree.leaves.map (·.text)) = source := by
  refine ⟨parse_ne_outOfSteps source limit, ?_⟩
  intro tree ds h
  have hleaves := leaves_of_parse h
  refine ⟨hleaves, ?_⟩
  rw [hleaves]
  exact join_lex source

/-- A group with garbage and a comment in it is not closed, and a name without a colon follows. All
    of it is in the tree. -/
theorem exists_parse_leaves :
    ∃ tree ds, parse "a : (b # /* é */ ; d" 256 = .ok (tree, ds) ∧ ds.length = 3 ∧
      tree.leaves.map (·.text) =
        ["a", " ", ":", " ", "(", "b", " ", "#", " ", "/* é */", " ", ";", " ", "d"] ∧
      String.join (tree.leaves.map (·.text)) = "a : (b # /* é */ ; d" := by
  obtain ⟨⟨tree, ds⟩, hparse, hlength⟩ := exists_eq_ok_of_map
    (show (parse "a : (b # /* é */ ; d" 256).toOption.map (·.2.length) = some 3 by cbv)
  obtain ⟨-, hok⟩ := parse_leaves "a : (b # /* é */ ; d" 256
  obtain ⟨hleaves, hjoin⟩ := hok tree ds hparse
  refine ⟨tree, ds, hparse, hlength, ?_, hjoin⟩
  rw [hleaves]
  cbv

end FluentGrammar.Source
