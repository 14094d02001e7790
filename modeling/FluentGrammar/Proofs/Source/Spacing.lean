import FluentGrammar.Proofs.Source.Placeless
import FluentGrammar.Proofs.Source.Scripts
import Mathlib

/-
  Spacing does not matter. Two runs of the parser over the same tokens in different trivia make the
  same decisions, also where the input is malformed: their trees differ in places and trivia only,
  and an error is reported in both or in neither. How many are reported may differ, since an error
  is dropped when the last one was at its place, and trivia moves places apart.

  The runs are compared step by step. They may have different numbers of steps left, so a run that
  is out of steps agrees with anything; in the end none is. The induction is on the steps of the
  first run, with one lemma for each function of the parser.
-/

namespace FluentGrammar.Source

open Report

namespace Parsing

/-! ## Agreement -/

/-- The states are told apart by nothing but places, trivia and how often an error was reported. -/
structure Alike (s s' : State) : Prop where
  input : s.input.map Token.bare = s'.input.map Token.bare
  lastError : s.lastError = none ↔ s'.lastError = none

/-- The trees are told apart by nothing but places and trivia. -/
def Match (ts ts' : List Tree) : Prop := Tree.bareOfAll ts = Tree.bareOfAll ts'

/-- The results are told apart by nothing but places and trivia, or a run is out of steps. -/
inductive Agree : Result → Result → Prop
  | left (r : Result) : Agree (.error .outOfSteps) r
  | right (r : Result) : Agree r (.error .outOfSteps)
  | tooDeep : Agree (.error .tooDeep) (.error .tooDeep)
  | ok {ts ts' s s'} (hts : Match ts ts') (hs : Alike s s') : Agree (.ok (ts, s)) (.ok (ts', s'))

variable {s s' : State} {ts ts' us us' : List Tree} {room limit bound bound' steps steps' : Nat}

theorem Match.append (h : Match ts ts') (h' : Match us us') : Match (ts ++ us) (ts' ++ us') := by
  rw [Match, Tree.bareOfAll_append, Tree.bareOfAll_append, h, h']

theorem Match.node (kind : NodeKind) (h : Match ts ts') :
    Match [.node kind ts] [.node kind ts'] := by
  rw [Match, Tree.bareOfAll_node, Tree.bareOfAll_node, h]

/-! ## Steps -/

theorem bareOfAll_pending (s : State) : Tree.bareOfAll (Tree.ofTokens s.pending) = [] := by
  rw [Tree.bareOfAll_ofTokens, List.filter_eq_nil_iff.2 fun t ht => by
    simp [s.isTrivia_pending t ht]]
  rfl

namespace Alike

theorem lookAhead (h : Alike s s') : Alike s.lookAhead s'.lookAhead :=
  ⟨by rw [State.input_lookAhead, State.input_lookAhead, h.input], h.lastError⟩

theorem flush (h : Alike s s') : Match s.flush.1 s'.flush.1 ∧ Alike s.flush.2 s'.flush.2 :=
  ⟨(bareOfAll_pending s).trans (bareOfAll_pending s').symm, h.input, h.lastError⟩

/-- An error is reported in both. -/
theorem report (h : Alike s s') (offset offset' : Nat) (d d' : Diagnostic) :
    Alike (s.report offset d) (s'.report offset' d') :=
  ⟨h.input, iff_of_false nofun nofun⟩

theorem of_errorHere {s₁ s₁' : State} {d d' : Span → Diagnostic} (h : Alike s s')
    (herror : s.errorHere d = s₁) (herror' : s'.errorHere d' = s₁') : Alike s₁ s₁' := by
  rw [← herror, ← herror']
  exact h.report ..

section Ready

variable (h : Alike s s') (hs : s.Ready) (hs' : s'.Ready)

include h hs hs'

/-- The next tokens are of one class. -/
theorem kind?_eq : s.kind? = s'.kind? := by
  have hinput := congrArg (fun ts => ts.head?.map (·.kind)) h.input
  rw [List.head?_map, List.head?_map, Option.map_map, Option.map_map] at hinput
  rw [hs.kind?_eq, hs'.kind?_eq]
  exact hinput

theorem isAt_eq (kind : TokenKind) : s.isAt kind = s'.isAt kind := by
  rw [State.isAt, State.isAt, h.kind?_eq hs hs']

theorem isEmpty_eq : s.rest.isEmpty = s'.rest.isEmpty := by
  rw [Bool.eq_iff_iff, List.isEmpty_iff, List.isEmpty_iff, hs.rest_eq_nil_iff,
    hs'.rest_eq_nil_iff, ← List.map_eq_nil_iff, h.input, List.map_eq_nil_iff]

theorem atRuleStart_eq : s.atRuleStart = s'.atRuleStart := by
  have hbare : ∀ ts : List Token, startsRule (ts.map Token.bare) = startsRule ts
    | [] | [_] | _ :: _ :: _ => rfl
  rw [hs.atRuleStart_eq, hs'.atRuleStart_eq, ← hbare, h.input, hbare]

/-- The next tokens are attached. -/
theorem bump : Match s.bump.1 s'.bump.1 ∧ Alike s.bump.2 s'.bump.2 := by
  have hinput := h.input
  have hlast : s.bump.2.lastError = none ↔ s'.bump.2.lastError = none := by
    rw [State.lastError_bump, State.lastError_bump]
    exact h.lastError
  cases htokens : s.input with
  | nil =>
    rw [htokens, List.map_nil, eq_comm, List.map_eq_nil_iff] at hinput
    rw [State.bump_of_nil (hs.rest_eq_nil_iff.2 htokens),
      State.bump_of_nil (hs'.rest_eq_nil_iff.2 hinput)]
    exact h.flush
  | cons t rest =>
    rw [htokens, List.map_cons, eq_comm, List.map_eq_cons_iff] at hinput
    obtain ⟨t', rest', htokens', ht, hrest⟩ := hinput
    obtain ⟨htrees, hinput⟩ := hs.bump_of_input htokens
    obtain ⟨htrees', hinput'⟩ := hs'.bump_of_input htokens'
    have hkind : t'.kind = t.kind := congrArg (·.kind) ht
    refine ⟨?_, by rw [hinput, hinput', hrest], hlast⟩
    rw [htrees, htrees', Tree.ofTokens, Tree.ofTokens, List.map_append, List.map_append]
    refine h.flush.1.append ?_
    show (if t.kind.isTrivia then [] else [Tree.token t.bare]) =
      if t'.kind.isTrivia then [] else [Tree.token t'.bare]
    rw [hkind, ht]

theorem bumpError : Match s.bumpError.1 s'.bumpError.1 ∧ Alike s.bumpError.2 s'.bumpError.2 := by
  obtain ⟨hbefore, hflush⟩ := h.flush
  obtain ⟨hinside, hbump⟩ := hflush.bump hs hs'
  exact ⟨hbefore.append (hinside.node .error), hbump⟩

end Ready

/-- A token of a class is taken in both or in neither. -/
theorem eat (h : Alike s s') (kind : TokenKind) :
    (s.eat kind = none ∧ s'.eat kind = none) ∨
    ∃ ts s₁ ts' s₁', s.eat kind = some (ts, s₁) ∧ s'.eat kind = some (ts', s₁') ∧
      Match ts ts' ∧ Alike s₁ s₁' := by
  have hat := h.lookAhead.isAt_eq s.ready_lookAhead s'.ready_lookAhead kind
  obtain ⟨hts, hbump⟩ := h.lookAhead.bump s.ready_lookAhead s'.ready_lookAhead
  rw [State.eat, State.eat, ← hat]
  cases s.lookAhead.isAt kind with
  | false => exact .inl ⟨rfl, rfl⟩
  | true => exact .inr ⟨_, _, _, _, rfl, rfl, hts, hbump⟩

end Alike

/-- Runs that agree may be continued by runs that agree. -/
theorem Agree.bind {r r' : Result} {f f' : List Tree × State → Result} (h : Agree r r')
    (hf : ∀ ts s ts' s', Match ts ts' → Alike s s' → Agree (f (ts, s)) (f' (ts', s'))) :
    Agree (r >>= f) (r' >>= f') := by
  cases h with
  | left => exact .left _
  | right => exact .right _
  | tooDeep => exact .tooDeep
  | ok hts hs => exact hf _ _ _ _ hts hs

theorem agree_quantifiers (hts : Match ts ts') (h : Alike s s') :
    Agree (quantifiers ts steps s) (quantifiers ts' steps' s') := by
  induction steps generalizing s s' ts ts' steps' with
  | zero => exact .left _
  | succ steps ih =>
    cases steps' with
    | zero => exact .right _
    | succ steps' =>
      have hready := s.ready_lookAhead
      have hready' := s'.ready_lookAhead
      rw [quantifiers, quantifiers]
      dsimp only
      rw [← h.lookAhead.kind?_eq hready hready']
      split
      · obtain ⟨hmark, hbump⟩ := h.lookAhead.bump hready hready'
        exact ih ((hts.append hmark).node .quantifier) hbump
      · exact .ok hts h.lookAhead

/-! ## Expressions -/

/-- With so many steps the functions on expressions agree with runs of any number of steps. -/
structure Agrees (steps : Nat) : Prop where
  alt : ∀ {room steps' s s'}, Alike s s' → Agree (alt room steps s) (alt room steps' s')
  branches : ∀ {room steps' s s'}, Alike s s' →
    Agree (branches room steps s) (branches room steps' s')
  branch : ∀ {room steps' s s'}, Alike s s' → Agree (branch room steps s) (branch room steps' s')
  items : ∀ {room steps' s s'}, Alike s s' → Agree (items room steps s) (items room steps' s')
  atom : ∀ {room steps' s s'}, Alike s s' → s.Ready → s'.Ready →
    Agree (atom room steps s) (atom room steps' s')
  group : ∀ {room steps' s s'}, Alike s s' → s.Ready → s'.Ready →
    Agree (group room steps s) (group room steps' s')

namespace Agrees

variable (ih : Agrees steps)

include ih

theorem alt_succ (h : Alike s s') :
    Agree (Parsing.alt room (steps + 1) s) (Parsing.alt room steps' s') := by
  cases steps' with
  | zero =>
    rw [Parsing.alt, Parsing.alt]
    exact .right _
  | succ steps' =>
    obtain ⟨hbefore, hflush⟩ := h.flush
    rw [Parsing.alt, Parsing.alt]
    refine (ih.branch hflush).bind fun _ _ _ _ hfirst h₁ => ?_
    refine (ih.branches h₁).bind fun _ _ _ _ hothers h₂ => ?_
    exact .ok (hbefore.append ((hfirst.append hothers).node .alt)) h₂

theorem branches_succ (h : Alike s s') :
    Agree (Parsing.branches room (steps + 1) s) (Parsing.branches room steps' s') := by
  cases steps' with
  | zero =>
    rw [Parsing.branches, Parsing.branches]
    exact .right _
  | succ steps' =>
    rw [Parsing.branches, Parsing.branches]
    obtain ⟨heat, heat'⟩ | ⟨ts, s₁, ts', s₁', heat, heat', hbar, h₁⟩ := h.eat .pipe
    · rw [heat, heat']
      exact .ok rfl h.lookAhead
    · rw [heat, heat']
      refine (ih.branch h₁).bind fun _ _ _ _ hnext h₂ => ?_
      refine (ih.branches h₂).bind fun _ _ _ _ hothers h₃ => ?_
      exact .ok ((hbar.append hnext).append hothers) h₃

theorem branch_succ (h : Alike s s') :
    Agree (Parsing.branch room (steps + 1) s) (Parsing.branch room steps' s') := by
  cases steps' with
  | zero =>
    rw [Parsing.branch, Parsing.branch]
    exact .right _
  | succ steps' =>
    obtain ⟨hbefore, hflush⟩ := h.flush
    rw [Parsing.branch, Parsing.branch]
    refine (ih.items hflush).bind fun _ _ _ _ hinside h₁ => ?_
    exact .ok (hbefore.append (hinside.node .branch)) h₁

theorem items_succ (h : Alike s s') :
    Agree (Parsing.items room (steps + 1) s) (Parsing.items room steps' s') := by
  cases steps' with
  | zero =>
    rw [Parsing.items, Parsing.items]
    exact .right _
  | succ steps' =>
    have hready := s.ready_lookAhead
    have hready' := s'.ready_lookAhead
    rw [Parsing.items, Parsing.items]
    dsimp only
    rw [← h.lookAhead.kind?_eq hready hready', ← h.lookAhead.atRuleStart_eq hready hready']
    cases s.lookAhead.kind? with
    | none => exact .ok rfl h.lookAhead
    | some kind =>
      dsimp only
      split
      · exact .ok rfl h.lookAhead
      · split
        · refine (ih.atom h.lookAhead hready hready').bind fun _ _ _ _ hfirst h₁ => ?_
          refine (ih.items h₁).bind fun _ _ _ _ hothers h₂ => ?_
          exact .ok (hfirst.append hothers) h₂
        · generalize herror : State.errorHere _ _ = s₁
          generalize herror' : State.errorHere s'.lookAhead _ = s₁'
          have h₁ := h.lookAhead.of_errorHere herror herror'
          obtain ⟨hfirst, h₂⟩ := h₁.bumpError (herror ▸ hready) (herror' ▸ hready')
          refine (ih.items h₂).bind fun _ _ _ _ hothers h₃ => ?_
          exact .ok (hfirst.append hothers) h₃

theorem atom_succ (h : Alike s s') (hready : s.Ready) (hready' : s'.Ready) :
    Agree (Parsing.atom room (steps + 1) s) (Parsing.atom room steps' s') := by
  cases steps' with
  | zero =>
    rw [Parsing.atom, Parsing.atom]
    exact .right _
  | succ steps' =>
    obtain ⟨hbefore, hflush⟩ := h.flush
    rw [Parsing.atom, Parsing.atom]
    dsimp only
    rw [← hflush.isAt_eq hready hready']
    refine Agree.bind (?_ : Agree (if _ then _ else _) (if _ then _ else _))
      fun _ _ _ _ hinner h₁ => ?_
    · split
      · exact ih.group hflush hready hready'
      · obtain ⟨hname, hbump⟩ := hflush.bump hready hready'
        exact .ok (hname.node .ref) hbump
    · refine (agree_quantifiers hinner h₁).bind fun _ _ _ _ hwhole h₂ => ?_
      exact .ok (hbefore.append hwhole) h₂

theorem group_succ (h : Alike s s') (hready : s.Ready) (hready' : s'.Ready) :
    Agree (Parsing.group room (steps + 1) s) (Parsing.group room steps' s') := by
  cases steps' with
  | zero =>
    have hshort : Parsing.group room 0 s' = .error .outOfSteps := by rw [Parsing.group]
    rw [hshort]
    exact .right _
  | succ steps' =>
    cases room with
    | zero =>
      rw [Parsing.group, Parsing.group]
      exact .tooDeep
    | succ room =>
      obtain ⟨hparen, hbump⟩ := h.bump hready hready'
      rw [Parsing.group, Parsing.group]
      dsimp only
      refine (ih.alt hbump).bind fun _ s₁ _ s₁' hbody h₁ => ?_
      dsimp only
      obtain ⟨heat, heat'⟩ | ⟨ts, s₂, ts', s₂', heat, heat', hclose, h₂⟩ := h₁.eat .parenClose
      · rw [heat, heat']
        exact .ok ((hparen.append hbody).node .group) (h₁.lookAhead.report ..)
      · rw [heat, heat']
        exact .ok (((hparen.append hbody).append hclose).node .group) h₂

end Agrees

theorem agrees (steps : Nat) : Agrees steps := by
  induction steps with
  | zero =>
    constructor <;> intros <;> simp only [alt, branches, branch, items, atom, group] <;>
      exact .left _
  | succ steps ih =>
    exact ⟨ih.alt_succ, ih.branches_succ, ih.branch_succ, ih.items_succ, ih.atom_succ,
      ih.group_succ⟩

/-! ## Rules -/

theorem agree_rule (h : Alike s s') (hready : s.Ready) (hready' : s'.Ready) :
    Agree (rule room steps s) (rule room steps' s') := by
  obtain ⟨hbefore, hflush⟩ := h.flush
  obtain ⟨hname, hbump⟩ := hflush.bump hready hready'
  have hcolon : Match ((s.flush.2.bump.2.eat .colon).getD ([], s.flush.2.bump.2.lookAhead)).1
        ((s'.flush.2.bump.2.eat .colon).getD ([], s'.flush.2.bump.2.lookAhead)).1 ∧
      Alike ((s.flush.2.bump.2.eat .colon).getD ([], s.flush.2.bump.2.lookAhead)).2
        ((s'.flush.2.bump.2.eat .colon).getD ([], s'.flush.2.bump.2.lookAhead)).2 := by
    obtain ⟨heat, heat'⟩ | ⟨ts, s₁, ts', s₁', heat, heat', htaken, h₁⟩ := hbump.eat .colon
    · rw [heat, heat']
      exact ⟨rfl, hbump.lookAhead⟩
    · rw [heat, heat']
      exact ⟨htaken, h₁⟩
  obtain ⟨hcolon, h₁⟩ := hcolon
  rw [rule, rule]
  dsimp only
  refine ((agrees steps).alt h₁).bind fun _ s₂ _ s₂' hbody h₂ => ?_
  have hinside := (hname.append hcolon).append hbody
  dsimp only
  obtain ⟨heat, heat'⟩ | ⟨ts, s₃, ts', s₃', heat, heat', hsemicolon, h₃⟩ := h₂.eat .semicolon
  · rw [heat, heat']
    exact .ok (hbefore.append (hinside.node .rule)) (h₂.lookAhead.report ..)
  · rw [heat, heat']
    exact .ok (hbefore.append ((hinside.append hsemicolon).node .rule)) h₃

theorem agree_untilRule (h : Alike s s') : Agree (untilRule steps s) (untilRule steps' s') := by
  induction steps generalizing s s' steps' with
  | zero => exact .left _
  | succ steps ih =>
    cases steps' with
    | zero => exact .right _
    | succ steps' =>
      have hready := s.ready_lookAhead
      have hready' := s'.ready_lookAhead
      rw [untilRule, untilRule]
      dsimp only
      rw [← h.lookAhead.isEmpty_eq hready hready', ← h.lookAhead.atRuleStart_eq hready hready']
      split
      · exact .ok rfl h.lookAhead
      · obtain ⟨hfirst, hbump⟩ := h.lookAhead.bump hready hready'
        refine (ih hbump).bind fun _ _ _ _ hothers h₁ => ?_
        exact .ok (hfirst.append hothers) h₁

theorem agree_rules (h : Alike s s') :
    Agree (rules limit bound steps s) (rules limit bound' steps' s') := by
  induction steps generalizing s s' steps' with
  | zero => exact .left _
  | succ steps ih =>
    cases steps' with
    | zero => exact .right _
    | succ steps' =>
      have hready := s.ready_lookAhead
      have hready' := s'.ready_lookAhead
      rw [rules, rules]
      dsimp only
      rw [← h.lookAhead.isEmpty_eq hready hready', ← h.lookAhead.atRuleStart_eq hready hready',
        ← h.lookAhead.isAt_eq hready hready']
      split
      · exact .ok rfl h.lookAhead
      · split
        · refine (agree_rule h.lookAhead hready hready').bind fun _ _ _ _ hfirst h₁ => ?_
          refine (ih h₁).bind fun _ _ _ _ hothers h₂ => ?_
          exact .ok (hfirst.append hothers) h₂
        · generalize herror : State.errorHere s.lookAhead _ = s₁
          generalize herror' : State.errorHere s'.lookAhead _ = s₁'
          have h₁ := h.lookAhead.of_errorHere herror herror'
          obtain ⟨hbefore, hflush⟩ := h₁.flush
          refine (agree_untilRule hflush).bind fun _ _ _ _ hinside h₂ => ?_
          refine (ih h₂).bind fun _ _ _ _ hothers h₃ => ?_
          exact .ok ((hbefore.append (hinside.node .error)).append hothers) h₃

theorem agree_leftover (h : Alike s s') : Agree (leftover steps s) (leftover steps' s') := by
  induction steps generalizing s s' steps' with
  | zero => exact .left _
  | succ steps ih =>
    cases steps' with
    | zero => exact .right _
    | succ steps' =>
      have hready := s.ready_lookAhead
      have hready' := s'.ready_lookAhead
      rw [leftover, leftover]
      dsimp only
      rw [← h.lookAhead.isEmpty_eq hready hready']
      split
      · exact .ok rfl h.lookAhead
      · generalize herror : State.errorHere s.lookAhead _ = s₁
        generalize herror' : State.errorHere s'.lookAhead _ = s₁'
        have h₁ := h.lookAhead.of_errorHere herror herror'
        obtain ⟨hfirst, h₂⟩ := h₁.bumpError (herror ▸ hready) (herror' ▸ hready')
        refine (ih h₂).bind fun _ _ _ _ hothers h₃ => ?_
        exact .ok (hfirst.append hothers) h₃

theorem agree_contents (h : Alike s s') :
    Agree (contents limit bound s) (contents limit bound' s') := by
  have hready := s.ready_lookAhead
  have hready' := s'.ready_lookAhead
  rw [contents, contents]
  dsimp only
  rw [← h.lookAhead.isEmpty_eq hready hready', ← h.lookAhead.atRuleStart_eq hready hready']
  split
  · exact agree_rules h.lookAhead
  · split
    · exact .ok rfl h.lookAhead
    · refine ((agrees bound).alt h.lookAhead).bind fun _ _ _ _ hbody h₁ => ?_
      refine (agree_leftover h₁).bind fun _ _ _ _ hothers h₂ => ?_
      exact .ok (hbody.append hothers) h₂

end Parsing

/-! ## Sources -/

/-- A token without its place: its class and its text. -/
def Token.lexeme (t : Token) : TokenKind × String := (t.kind, t.text)

open Parsing in
/-- Sources whose tokens agree, trivia apart, have trees that do, or both nest too deeply. -/
theorem parse_agree {source source' : String} (limit : Nat)
    (h : (significant (lex source)).map Token.lexeme =
      (significant (lex source')).map Token.lexeme) :
    (parse source limit = .error .tooDeep ∧ parse source' limit = .error .tooDeep) ∨
    ∃ tree ds tree' ds', parse source limit = .ok (tree, ds) ∧
      parse source' limit = .ok (tree', ds') ∧ tree.bare = tree'.bare ∧ (ds = [] ↔ ds' = []) := by
  have hbare : Token.bare = (fun l : TokenKind × String => ⟨l.1, l.2, default⟩) ∘ Token.lexeme :=
    rfl
  have hstart : Alike (.start (lex source) (Text.byteLength source.toList))
      (.start (lex source') (Text.byteLength source'.toList)) := by
    refine ⟨?_, Iff.rfl⟩
    rw [input_start, input_start, hbare, ← List.map_map, h, List.map_map]
  have hagree : Agree (contents limit (stepsFor (lex source).length) _)
      (contents limit (stepsFor (lex source').length) _) := agree_contents hstart
  have hends := parse_ne_outOfSteps source limit
  have hends' := parse_ne_outOfSteps source' limit
  unfold parse at hends hends' ⊢
  dsimp only at hends hends' ⊢
  generalize hresult : contents limit _ _ = result at hagree hends ⊢
  generalize hresult' : contents limit (stepsFor (lex source').length) _ = result'
    at hagree hends' ⊢
  cases hagree with
  | left => exact absurd rfl hends
  | right => exact absurd rfl hends'
  | tooDeep => exact .inl ⟨rfl, rfl⟩
  | @ok body body' s s' hbody hlast =>
    have hreported := respects_diagnostics.contents hresult ⟨fun _ => rfl, fun _ => rfl⟩
    have hreported' := respects_diagnostics.contents hresult' ⟨fun _ => rfl, fun _ => rfl⟩
    have htrailing := hlast.lookAhead.flush.1
    refine .inr ⟨_, _, _, _, rfl, rfl, ?_, ?_⟩
    · exact congrArg (Tree.node .root) (hbody.append htrailing)
    · exact hreported.symm.trans (hlast.lastError.trans hreported')

/-- The diagnostics of a parse have an error exactly if there are any. -/
theorem anyError_of_parse {source : String} {limit : Nat} {tree : Tree} {ds : List Diagnostic}
    (h : parse source limit = .ok (tree, ds)) : Diagnostic.anyError ds = true ↔ ds ≠ [] := by
  refine ⟨fun hany hnil => ?_, fun hne => ?_⟩
  · subst hnil
    cases hany
  · obtain ⟨d, rest, rfl⟩ := List.exists_cons_of_ne_nil hne
    refine List.any_eq_true.2 ⟨d, List.mem_cons_self, ?_⟩
    rw [severity_of_parse h d List.mem_cons_self]
    rfl

/-- Blanks, line ends and comments do not matter. Two sources whose other tokens have the same
    classes and texts in the same order, well-formed or not, are both refused for their nesting or
    both parsed. The trees then have one outline, and there is an error in both or in neither.
    Resolving names over any catalog gives the same rules and reports up to places, or fails in the
    same way and about the same name. -/
theorem spacing_irrelevant {source source' : String} (limit : Nat) (catalog : Catalog)
    (h : (significant (lex source)).map Token.lexeme =
      (significant (lex source')).map Token.lexeme) :
    (parse source limit = .error .tooDeep ∧ parse source' limit = .error .tooDeep) ∨
    ∃ tree ds tree' ds', parse source limit = .ok (tree, ds) ∧
      parse source' limit = .ok (tree', ds') ∧ tree.dump = tree'.dump ∧
      Diagnostic.anyError ds = Diagnostic.anyError ds' ∧
      Rules.bareResult (Rules.ofDocument catalog tree.document) =
        Rules.bareResult (Rules.ofDocument catalog tree'.document) := by
  obtain hdeep | ⟨tree, ds, tree', ds', hparse, hparse', htree, hempty⟩ := parse_agree limit h
  · exact .inl hdeep
  · refine .inr ⟨tree, ds, tree', ds', hparse, hparse', ?_, ?_, ?_⟩
    · rw [← Tree.dump_bare, htree, Tree.dump_bare]
    · rw [Bool.eq_iff_iff, anyError_of_parse hparse, anyError_of_parse hparse', ne_eq, ne_eq,
        hempty]
    · rw [← Rules.ofDocument_bare, ← Rules.ofDocument_bare, ← Tree.document_bare,
        ← Tree.document_bare, htree]

/-- A malformed source with and without trivia. The second error of the one is at the place of its
    first error and dropped, which a comment prevents in the other. -/
theorem exists_spacing :
    (significant (lex "a: b)")).map Token.lexeme =
        (significant (lex "a : // c\n b /* d */ )")).map Token.lexeme ∧
      ∃ tree ds tree' ds', parse "a: b)" 256 = .ok (tree, ds) ∧
        parse "a : // c\n b /* d */ )" 256 = .ok (tree', ds') ∧ tree.dump = tree'.dump ∧
        Diagnostic.anyError ds = Diagnostic.anyError ds' ∧ ds.length = 1 ∧ ds'.length = 2 := by
  have hsame : (significant (lex "a: b)")).map Token.lexeme =
      (significant (lex "a : // c\n b /* d */ )")).map Token.lexeme := by cbv
  have hone : (parse "a: b)" 256).toOption.map (·.2.length) = some 1 := by cbv
  have htwo : (parse "a : // c\n b /* d */ )" 256).toOption.map (·.2.length) = some 2 := by cbv
  refine ⟨hsame, ?_⟩
  obtain ⟨hdeep, -⟩ | ⟨tree, ds, tree', ds', hparse, hparse', hdump, hany, -⟩ :=
    spacing_irrelevant 256 ⟨[], List.nodup_nil⟩ hsame
  · rw [hdeep] at hone
    cases hone
  · rw [hparse] at hone
    rw [hparse'] at htwo
    exact ⟨tree, ds, tree', ds', hparse, hparse', hdump, hany, Option.some.inj hone,
      Option.some.inj htwo⟩

end FluentGrammar.Source
