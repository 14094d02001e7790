import FluentGrammar.Proofs.Source.Phrase
import FluentGrammar.Rules.Resolve

/-
  What a source says, wherever it says it. A token, a tree, a document and what is made of them are
  bare when all spans are forgotten, and a bare tree has no trivia. The outline of a tree is the
  outline of the bare tree, its document is that of the bare tree (`document_bare`), and resolving
  names never looks at a span, so that a bare document gives bare rules and bare reports
  (`ofDocument_bare`).
-/

namespace FluentGrammar

open Report

/-! ## Forgetting places -/

namespace Report

/-- A second place, forgotten. -/
def Related.bare (r : Related) : Related := { r with span := default }

end Report

/-- A diagnostic without its places. -/
def Diagnostic.bare (d : Diagnostic) : Diagnostic :=
  { d with span := default, related := d.related.map Related.bare }

/-- A failure without the places of its diagnostics. -/
def CompileError.bare : CompileError → CompileError
  | malformedSource ds => malformedSource (ds.map Diagnostic.bare)
  | undefinedSymbol name ds => undefinedSymbol name (ds.map Diagnostic.bare)
  | invalidGrammar ds => invalidGrammar (ds.map Diagnostic.bare)
  | conflict ds => conflict (ds.map Diagnostic.bare)
  | e => e

/-- A rule without its place. -/
def Rule.bare (r : Rule) : Rule := { r with span := default }

/-- Rules without their places. -/
def Rules.bare (g : Rules) : Rules := ⟨g.rules.map Rule.bare⟩

namespace Source

/-- A token without its place. -/
def Token.bare (t : Token) : Token := { t with span := default }

namespace Term

mutual

/-- A term without its places. -/
def bare : Term → Term
  | ref _ name => ref default name.bare
  | group _ body => group default (bare body)
  | quantified _ repetition inner => quantified default repetition (bare inner)
  | sequence _ items => sequence default (bareAll items)
  | choice _ branches => choice default (bareAll branches)

/-- Terms without their places. -/
def bareAll : List Term → List Term
  | [] => []
  | t :: rest => bare t :: bareAll rest

end

theorem bareAll_eq_map (ts : List Term) : bareAll ts = ts.map bare := by
  induction ts with
  | nil => rfl
  | cons t ts ih => rw [bareAll, ih, List.map_cons]

end Term

/-- A rule as written, without its places. -/
def RuleTerm.bare (r : RuleTerm) : RuleTerm := ⟨default, r.name.bare, r.body.bare⟩

/-- A source as written, without its places. -/
def Document.bare (d : Document) : Document :=
  ⟨default, d.expr.map Term.bare, d.rules.map RuleTerm.bare⟩

namespace Tree

/-- The tree is a leaf of trivia. -/
def isTrivia : Tree → Bool
  | token t => t.kind.isTrivia
  | node _ _ => false

mutual

/-- A tree without its places and without the trivia in it. -/
def bare : Tree → Tree
  | token t => token t.bare
  | node kind children => node kind (bareOfAll children)

/-- Trees without their places and without trivia. -/
def bareOfAll : List Tree → List Tree
  | [] => []
  | t :: rest => if t.isTrivia then bareOfAll rest else bare t :: bareOfAll rest

end

variable {t : Tree} {ts us : List Tree}

theorem bareOfAll_append (ts us : List Tree) :
    bareOfAll (ts ++ us) = bareOfAll ts ++ bareOfAll us := by
  induction ts with
  | nil => rfl
  | cons t ts ih =>
    rw [List.cons_append, bareOfAll, bareOfAll, ih]
    split <;> rfl

theorem bareOfAll_node (kind : NodeKind) (ts : List Tree) :
    bareOfAll [node kind ts] = [node kind (bareOfAll ts)] := rfl

/-- Of tokens, those stay that are not trivia. -/
theorem bareOfAll_ofTokens (ts : List Token) :
    bareOfAll (ofTokens ts) =
      ofTokens ((ts.filter fun t => !t.kind.isTrivia).map Token.bare) := by
  induction ts with
  | nil => rfl
  | cons t ts ih =>
    rw [ofTokens, List.map_cons, bareOfAll, ← ofTokens, ih, List.filter_cons, isTrivia]
    cases t.kind.isTrivia <;> rfl

/-! ## Outlines -/

theorem outline_of_isTrivia (h : t.isTrivia = true) (depth : Nat) : outline depth t = [] := by
  cases t with
  | token t =>
    rw [outline]
    exact if_pos h
  | node kind children => cases h

mutual

theorem outline_bare (depth : Nat) (t : Tree) : outline depth t.bare = outline depth t := by
  match t with
  | token t =>
    rw [bare, outline, outline]
    rfl
  | node kind children => rw [bare, outline, outline, outlineOfAll_bare]

theorem outlineOfAll_bare (depth : Nat) (ts : List Tree) :
    outlineOfAll depth (bareOfAll ts) = outlineOfAll depth ts := by
  match ts with
  | [] => rw [bareOfAll]
  | t :: rest =>
    rw [bareOfAll, outlineOfAll]
    split
    · next h => rw [outline_of_isTrivia h, List.nil_append, outlineOfAll_bare depth rest]
    · rw [outlineOfAll, outline_bare depth t, outlineOfAll_bare depth rest]

end

/-- The outline of a tree does not depend on places and trivia. -/
theorem dump_bare (t : Tree) : t.bare.dump = t.dump := by
  rw [dump, dump, outline_bare]

/-! ## Documents -/

mutual

theorem stop_bare (t : Tree) : stop 0 t.bare = 0 := by
  match t with
  | token t => rw [bare, stop]; rfl
  | node kind children =>
    rw [bare, stop]
    exact stopOfAll_bare children

theorem stopOfAll_bare (ts : List Tree) : stopOfAll 0 (bareOfAll ts) = 0 := by
  match ts with
  | [] => rw [bareOfAll, stopOfAll]
  | t :: rest =>
    rw [bareOfAll]
    split
    · exact stopOfAll_bare rest
    · rw [stopOfAll, stop_bare t, stopOfAll_bare rest]

end

theorem tokenOf?_token (kind : TokenKind) (t : Token) (ts : List Tree) :
    tokenOf? kind (token t :: ts) = if t.kind = kind then some t else tokenOf? kind ts := by
  by_cases h : t.kind = kind <;> simp [tokenOf?, h]

theorem tokenOf?_bareOfAll {kind : TokenKind} (hkind : kind.isTrivia = false) (ts : List Tree) :
    tokenOf? kind (bareOfAll ts) = (tokenOf? kind ts).map Token.bare := by
  induction ts with
  | nil => rfl
  | cons t ts ih =>
    rw [bareOfAll]
    cases t with
    | node k children => exact ih
    | token t =>
      rw [tokenOf?_token, isTrivia]
      by_cases h : t.kind = kind
      · rw [if_pos h, h, hkind, if_neg Bool.false_ne_true, bare, tokenOf?_token]
        exact if_pos h
      · rw [if_neg h]
        split
        · exact ih
        · rw [bare, tokenOf?_token, ← ih]
          exact if_neg h

theorem markOf?_token (t : Token) (ts : List Tree) :
    markOf? (token t :: ts) = t.kind.repetition?.or (markOf? ts) := by
  cases h : t.kind.repetition? <;> simp [markOf?, h]

theorem markOf?_bareOfAll (ts : List Tree) : markOf? (bareOfAll ts) = markOf? ts := by
  induction ts with
  | nil => rfl
  | cons t ts ih =>
    rw [bareOfAll]
    cases t with
    | node k children => exact ih
    | token t =>
      rw [markOf?_token, isTrivia]
      split
      · next h => rw [TokenKind.repetition?_of_isTrivia h, Option.none_or, ih]
      · rw [bare, markOf?_token, ih]
        rfl

mutual

/-- The term of a bare tree is the bare term of the tree, which may begin anywhere. -/
theorem term?_bare (start : Nat) (t : Tree) : term? 0 t.bare = (term? start t).map Term.bare := by
  match t with
  | token t => rfl
  | node kind children =>
    have hterms := terms_bareOfAll start children
    rw [bare]
    cases kind with
    | ref =>
      rw [term?, term?, tokenOf?_bareOfAll rfl, stopOfAll_bare]
      cases tokenOf? .name children <;> rfl
    | group =>
      rw [term?, term?, hterms, stopOfAll_bare]
      cases terms start children <;> rfl
    | quantifier =>
      rw [term?, term?, hterms, markOf?_bareOfAll, stopOfAll_bare]
      cases markOf? children <;> cases terms start children <;> rfl
    | branch =>
      rw [term?, term?, hterms, stopOfAll_bare, Option.map_some, Term.bare, Term.bareAll_eq_map]
      rfl
    | alt =>
      rw [term?, term?, hterms, stopOfAll_bare, Option.map_some, Term.bare, Term.bareAll_eq_map]
      rfl
    | root | rule | error => rfl

theorem terms_bareOfAll (start : Nat) (ts : List Tree) :
    terms 0 (bareOfAll ts) = (terms start ts).map Term.bare := by
  match ts with
  | [] => rfl
  | t :: rest =>
    have hrest := terms_bareOfAll (stop start t) rest
    rw [bareOfAll, terms, List.map_append, ← hrest]
    split
    · next h =>
      cases t with
      | token t => rfl
      | node kind children => cases h
    · rw [terms, stop_bare, term?_bare start t]
      cases term? start t <;> rfl

end

theorem ruleTerm?_bare (start : Nat) (t : Tree) :
    ruleTerm? 0 t.bare = (ruleTerm? start t).map RuleTerm.bare := by
  cases t with
  | token t => rfl
  | node kind children =>
    cases kind with
    | rule =>
      rw [bare, ruleTerm?, ruleTerm?, stopOfAll_bare, terms_bareOfAll start,
        tokenOf?_bareOfAll rfl]
      cases tokenOf? .name children <;> cases terms start children <;> rfl
    | root | alt | branch | group | quantifier | ref | error => rfl

theorem ruleTerms_bareOfAll (start : Nat) (ts : List Tree) :
    ruleTerms 0 (bareOfAll ts) = (ruleTerms start ts).map RuleTerm.bare := by
  induction ts generalizing start with
  | nil => rfl
  | cons t rest ih =>
    rw [bareOfAll, ruleTerms, List.map_append, ← ih (stop start t)]
    split
    · next h =>
      cases t with
      | token t => rfl
      | node kind children => cases h
    · rw [ruleTerms, stop_bare, ruleTerm?_bare start t]
      cases ruleTerm? start t <;> rfl

/-- The document of a bare tree is the bare document of the tree. -/
theorem document_bare (t : Tree) : t.bare.document = t.document.bare := by
  cases t with
  | token t => rfl
  | node kind children =>
    rw [bare, document, document, stopOfAll_bare, terms_bareOfAll 0, ruleTerms_bareOfAll 0,
      List.head?_map]
    rfl

end Tree

end Source

/-! ## Names -/

/-- A declaration without its places. -/
def Declaration.bare (d : Declaration) : Declaration :=
  { d with span := default, body := d.body.bare }

open Source

variable {catalog : Catalog} {declared : List Declaration} {name : String}

theorem Diagnostic.bare_relatedTo (d : Diagnostic) (label : String) (span : Span) :
    (d.relatedTo label span).bare = d.bare.relatedTo label default := by
  simp [Diagnostic.relatedTo, Diagnostic.bare, Related.bare]

theorem Diagnostic.anyError_bare (ds : List Diagnostic) :
    Diagnostic.anyError (ds.map Diagnostic.bare) = Diagnostic.anyError ds := by
  rw [Diagnostic.anyError, List.any_map]
  rfl

namespace Declaration

theorem find?_bare (declared : List Declaration) (name : String) :
    find? (declared.map bare) name = (find? declared name).map bare := by
  rw [find?, List.find?_map]
  rfl

theorem ofRules_bare (catalog : Catalog) (declared : List Declaration) (rs : List RuleTerm) :
    ofRules catalog (declared.map bare) (rs.map RuleTerm.bare) =
      ((ofRules catalog declared rs).1.map bare,
        (ofRules catalog declared rs).2.map Diagnostic.bare) := by
  induction rs generalizing declared with
  | nil => rfl
  | cons r rest ih =>
    rw [List.map_cons, ofRules, ofRules]
    dsimp only
    rw [show r.bare.name.text = r.name.text from rfl, find?_bare]
    cases hfind : find? declared r.name.text with
    | some first =>
      rw [Option.map_some]
      dsimp only
      rw [ih declared, List.map_cons, Diagnostic.bare_relatedTo]
      rfl
    | none =>
      rw [Option.map_none]
      dsimp only
      have hgrown := ih (declared ++ [⟨r.name.text, r.name.span, r.body, true⟩])
      rw [List.map_append] at hgrown
      rw [show [(⟨r.name.text, r.bare.name.span, r.bare.body, true⟩ : Declaration)] =
        [(⟨r.name.text, r.name.span, r.body, true⟩ : Declaration)].map bare from rfl, hgrown]
      split <;> rfl

theorem ofDocument_bare (catalog : Catalog) (d : Document) :
    ofDocument catalog d.bare =
      ((ofDocument catalog d).1.map bare, (ofDocument catalog d).2.map Diagnostic.bare) := by
  have hrules : ofRules catalog [] d.bare.rules =
      ((ofRules catalog [] d.rules).1.map bare,
        (ofRules catalog [] d.rules).2.map Diagnostic.bare) := ofRules_bare catalog [] d.rules
  have hrange (t : Term) : t.bare.range = default := by cases t <;> rfl
  rw [ofDocument, ofDocument, hrules]
  dsimp only
  rw [List.map_append]
  cases hexpr : d.expr with
  | none => simp [Document.bare, hexpr]
  | some body => simp [Document.bare, hexpr, bare, hrange]

end Declaration

theorem meaning_bare (catalog : Catalog) (declared : List Declaration) :
    Meaning.of? catalog (declared.map Declaration.bare) = Meaning.of? catalog declared := by
  funext name
  rw [Meaning.of?, Meaning.of?, List.findIdx?_map]
  rfl

namespace Source.Term

mutual

theorem names_bare (t : Term) : names t.bare = (names t).map Token.bare := by
  match t with
  | ref _ name => rfl
  | group _ body =>
    rw [bare, names, names]
    exact names_bare body
  | quantified _ repetition inner =>
    rw [bare, names, names]
    exact names_bare inner
  | sequence _ items =>
    rw [bare, names, names]
    exact namesOfAll_bareAll items
  | choice _ branches =>
    rw [bare, names, names]
    exact namesOfAll_bareAll branches

theorem namesOfAll_bareAll (ts : List Term) :
    namesOfAll (bareAll ts) = (namesOfAll ts).map Token.bare := by
  match ts with
  | [] => rfl
  | t :: rest =>
    rw [bareAll, namesOfAll, namesOfAll, List.map_append, names_bare t, namesOfAll_bareAll rest]

end

mutual

theorem expr_bare (meaning : String → Option Meaning) (t : Term) :
    expr meaning t.bare = expr meaning t := by
  match t with
  | ref _ name => rfl
  | group _ body =>
    rw [bare, expr, expr]
    exact expr_bare meaning body
  | quantified _ repetition inner => rw [bare, expr, expr, expr_bare meaning inner]
  | sequence _ items => rw [bare, expr, expr, exprs_bareAll meaning items]
  | choice _ branches => rw [bare, expr, expr, exprs_bareAll meaning branches]

theorem exprs_bareAll (meaning : String → Option Meaning) (ts : List Term) :
    exprs meaning (bareAll ts) = exprs meaning ts := by
  match ts with
  | [] => rfl
  | t :: rest => rw [bareAll, exprs, exprs, expr_bare meaning t, exprs_bareAll meaning rest]

end

end Source.Term

namespace Rules

theorem rule_bare (g : Rules) (r : RuleId) : g.bare.rule r = (g.rule r).bare := by
  rw [rule, rule, bare, List.getD_eq_getElem?_getD, List.getD_eq_getElem?_getD, List.getElem?_map]
  cases g.rules[r]? <;> rfl

theorem used_bare (g : Rules) : g.bare.used = g.used := by
  have hrefs : g.bare.refsOf = g.refsOf := by
    funext r
    rw [refsOf, refsOf, rule_bare]
    rfl
  rw [used, used, hrefs, bare, List.flatMap_map]
  rfl

theorem unused_bare (g : Rules) : g.bare.unused = g.unused.map Diagnostic.bare := by
  rw [unused, unused, used_bare]
  dsimp only
  rw [bare, List.zipIdx_map, List.filter_map, List.map_map, List.map_map]
  rfl

/-- Rules without their places, and failures without theirs. -/
def bareResult : Except CompileError (Rules × List Diagnostic) →
    Except CompileError (Rules × List Diagnostic)
  | .ok (rules, ds) => .ok (rules.bare, ds.map Diagnostic.bare)
  | .error e => .error e.bare

/-- Names are resolved without a look at places. -/
theorem ofDocument_bare (catalog : Catalog) (d : Document) :
    ofDocument catalog d.bare = bareResult (ofDocument catalog d) := by
  rw [ofDocument, ofDocument, Declaration.ofDocument_bare]
  generalize Declaration.ofDocument catalog d = read
  obtain ⟨declared, reports⟩ := read
  dsimp only
  rw [meaning_bare, List.isEmpty_map]
  split
  · rw [bareResult, CompileError.bare, List.map_append]
    rfl
  · have hnames : (declared.map Declaration.bare).flatMap (·.body.names) =
        (declared.flatMap (·.body.names)).map Token.bare := by
      rw [List.flatMap_map, List.map_flatMap]
      refine congrArg List.flatten (List.map_congr_left fun r _ => ?_)
      exact Term.names_bare r.body
    have hrules : Rules.mk ((declared.map Declaration.bare).map fun r =>
          ⟨r.name, r.span, r.body.expr (Meaning.of? catalog declared)⟩) =
        bare ⟨declared.map fun r =>
          ⟨r.name, r.span, r.body.expr (Meaning.of? catalog declared)⟩⟩ := by
      rw [bare, List.map_map, List.map_map]
      refine congrArg Rules.mk (List.map_congr_left fun r _ => ?_)
      exact congrArg (Rule.mk r.name default) (Term.expr_bare _ r.body)
    rw [hnames, hrules, unused_bare, List.filter_map]
    generalize Rules.mk _ = g
    rw [show ((fun n => (Meaning.of? catalog declared n.text).isNone) ∘ Token.bare) =
      fun n : Token => (Meaning.of? catalog declared n.text).isNone from rfl]
    generalize List.filter _ _ = undefined
    have hreports : reports.map Diagnostic.bare ++
          (undefined.map Token.bare).map
            (fun n => Diagnostic.about .undefinedSymbol n.span n.text) ++
          g.unused.map Diagnostic.bare =
        (reports ++ (undefined.map fun n => Diagnostic.about .undefinedSymbol n.span n.text) ++
          g.unused).map Diagnostic.bare := by
      rw [List.map_append, List.map_append, List.map_map, List.map_map]
      rfl
    rw [hreports, Diagnostic.anyError_bare]
    cases undefined with
    | cons n more => rfl
    | nil =>
      show (if _ then _ else _) = bareResult (if _ then _ else _)
      split <;> rfl

end Rules

end FluentGrammar
