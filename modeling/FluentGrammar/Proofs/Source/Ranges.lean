import FluentGrammar.Proofs.Source.Places
import FluentGrammar.Proofs.Source.Scripts
import FluentGrammar.Rules.Resolve

/-
  Where the parts of a document are. Names are tokens of the source, and a range is what its tree
  takes of the source. A source without errors has no garbage, so that every place between its
  tokens can be shown (`spansAre_of_parse`), and resolving names reports nothing but such places
  (`spansAre_of_ofDocument`).
-/

namespace FluentGrammar

open Text Report

namespace Source

/-! ## Names -/

namespace Tree

variable {x : Token} {t : Tree} {ts : List Tree} {n : Nat}

theorem mem_leavesOfAll_of_tokenOf? {kind : TokenKind} (h : tokenOf? kind ts = some x) :
    x ∈ leavesOfAll ts := by
  obtain ⟨t, ht, hx⟩ := List.exists_of_findSome?_eq_some h
  have hsub : ∀ {ts : List Tree}, t ∈ ts → ∀ y ∈ leaves t, y ∈ leavesOfAll ts := by
    intro ts ht y hy
    obtain ⟨front, back, rfl⟩ := List.append_of_mem ht
    rw [leavesOfAll_append, leavesOfAll]
    exact List.mem_append_right _ (List.mem_append_left _ hy)
  refine hsub ht x ?_
  cases t with
  | token t =>
    dsimp only at hx
    split at hx
    · rw [leaves, List.mem_singleton]
      exact (Option.some.inj hx).symm
    · cases hx
  | node kind children => cases hx

mutual

/-- The names in the term of a tree are leaves of the tree. -/
theorem mem_leaves_of_mem_names (n : Nat) (t : Tree) {y : Term} (hy : term? n t = some y)
    (hx : x ∈ y.names) : x ∈ leaves t := by
  match t with
  | token t => cases hy
  | node kind children =>
    have hterms := mem_leavesOfAll_of_mem_names n children
    rw [leaves]
    cases kind with
    | ref =>
      rw [term?] at hy
      obtain ⟨name, hname, rfl⟩ := Option.map_eq_some_iff.1 hy
      rw [Term.names, List.mem_singleton] at hx
      exact hx ▸ mem_leavesOfAll_of_tokenOf? hname
    | group =>
      rw [term?] at hy
      obtain ⟨inner, hinner, rfl⟩ := Option.map_eq_some_iff.1 hy
      obtain ⟨others, hothers⟩ := List.head?_eq_some_iff.1 hinner
      rw [Term.names] at hx
      refine hterms ?_
      rw [hothers, Term.namesOfAll]
      exact List.mem_append_left _ hx
    | quantifier =>
      rw [term?] at hy
      obtain ⟨mark, -, hy⟩ := Option.bind_eq_some_iff.1 hy
      obtain ⟨inner, hinner, hy⟩ := Option.bind_eq_some_iff.1 hy
      obtain rfl := Option.some.inj hy
      obtain ⟨others, hothers⟩ := List.head?_eq_some_iff.1 hinner
      rw [Term.names] at hx
      refine hterms ?_
      rw [hothers, Term.namesOfAll]
      exact List.mem_append_left _ hx
    | branch =>
      rw [term?] at hy
      obtain rfl := Option.some.inj hy
      exact hterms hx
    | alt =>
      rw [term?] at hy
      obtain rfl := Option.some.inj hy
      exact hterms hx
    | root | rule | error => cases hy

theorem mem_leavesOfAll_of_mem_names (n : Nat) (ts : List Tree)
    (hx : x ∈ Term.namesOfAll (terms n ts)) : x ∈ leavesOfAll ts := by
  match ts with
  | [] => cases hx
  | t :: rest =>
    rw [terms] at hx
    rw [leavesOfAll]
    cases hy : term? n t with
    | none =>
      rw [hy] at hx
      exact List.mem_append_right _ (mem_leavesOfAll_of_mem_names _ rest hx)
    | some y =>
      rw [hy, Option.toList_some, List.singleton_append, Term.namesOfAll] at hx
      rcases List.mem_append.1 hx with hx | hx
      · exact List.mem_append_left _ (mem_leaves_of_mem_names n t hy hx)
      · exact List.mem_append_right _ (mem_leavesOfAll_of_mem_names _ rest hx)

end

/-- The name and the names in the body of the rule of a tree are leaves of the tree. -/
theorem mem_leaves_of_ruleTerm? {r : RuleTerm} (h : ruleTerm? n t = some r) :
    r.name ∈ leaves t ∧ ∀ x ∈ r.body.names, x ∈ leaves t := by
  cases t with
  | token t => cases h
  | node kind children =>
    cases kind with
    | rule =>
      obtain ⟨name, hname, h⟩ := Option.bind_eq_some_iff.1 h
      obtain ⟨body, hbody, h⟩ := Option.bind_eq_some_iff.1 h
      obtain rfl := Option.some.inj h
      obtain ⟨others, hothers⟩ := List.head?_eq_some_iff.1 hbody
      refine ⟨mem_leavesOfAll_of_tokenOf? hname, fun x hx => ?_⟩
      refine mem_leavesOfAll_of_mem_names n children ?_
      rw [hothers, Term.namesOfAll]
      exact List.mem_append_left _ hx
    | root | alt | branch | group | quantifier | ref | error => cases h

theorem mem_leavesOfAll_of_mem_ruleTerms {r : RuleTerm} (h : r ∈ ruleTerms n ts) :
    r.name ∈ leavesOfAll ts ∧ ∀ x ∈ r.body.names, x ∈ leavesOfAll ts := by
  induction ts generalizing n with
  | nil => cases h
  | cons t rest ih =>
    rw [leavesOfAll]
    rcases List.mem_append.1 h with h | h
    · obtain ⟨hname, hbody⟩ := mem_leaves_of_ruleTerm? (Option.mem_toList.1 h)
      exact ⟨List.mem_append_left _ hname, fun x hx => List.mem_append_left _ (hbody x hx)⟩
    · obtain ⟨hname, hbody⟩ := ih h
      exact ⟨List.mem_append_right _ hname, fun x hx => List.mem_append_right _ (hbody x hx)⟩

/-! ## Ranges -/

variable {cs : List Char}

mutual

/-- A tree ends where its leaves do. -/
theorem stop_of_spell (n : Nat) (t : Tree) (cs : List Char) (h : Spell n (leaves t) cs) :
    stop n t = n + byteLength cs := by
  match t with
  | token t =>
    have hlast : Spell n ([] ++ [t]) cs := h
    exact hlast.stop_eq
  | node kind children => exact stopOfAll_of_spell n children cs h

theorem stopOfAll_of_spell (n : Nat) (ts : List Tree) (cs : List Char)
    (h : Spell n (leavesOfAll ts) cs) : stopOfAll n ts = n + byteLength cs := by
  match ts with
  | [] =>
    cases h
    rfl
  | t :: rest =>
    obtain ⟨before, after, rfl, ht, hrest⟩ := h.append
    rw [stopOfAll, stop_of_spell n t before ht, stopOfAll_of_spell _ rest after hrest,
      byteLength_append, Nat.add_assoc]

end

theorem range_of_term? {y : Term} (h : term? n t = some y) : y.range = ⟨n, stop n t⟩ := by
  cases t with
  | token t => cases h
  | node kind children =>
    cases kind with
    | ref =>
      rw [term?] at h
      obtain ⟨name, -, rfl⟩ := Option.map_eq_some_iff.1 h
      rfl
    | group =>
      rw [term?] at h
      obtain ⟨inner, -, rfl⟩ := Option.map_eq_some_iff.1 h
      rfl
    | quantifier =>
      rw [term?] at h
      obtain ⟨mark, -, h⟩ := Option.bind_eq_some_iff.1 h
      obtain ⟨inner, -, h⟩ := Option.bind_eq_some_iff.1 h
      obtain rfl := Option.some.inj h
      rfl
    | branch | alt =>
      rw [term?] at h
      obtain rfl := Option.some.inj h
      rfl
    | root | rule | error => cases h

/-- Without garbage among the leaves, the range of a term can be shown. -/
theorem fits_of_mem_terms (front : List Char) {y : Term} (hy : y ∈ terms (byteLength front) ts)
    (h : Spell (byteLength front) (leavesOfAll ts) cs)
    (hts : ∀ x ∈ leavesOfAll ts, x.kind ≠ .garbage) : y.range.Fits (front ++ cs) := by
  induction ts generalizing front cs with
  | nil => cases hy
  | cons t rest ih =>
    rw [leavesOfAll] at hts
    have hplain := h.plain fun x hx => hts x (List.mem_of_head? hx)
    obtain ⟨before, after, rfl, ht, hrest⟩ := h.append
    rw [terms, stop_of_spell _ t before ht, ← byteLength_append] at hy
    rw [← byteLength_append] at hrest
    rcases List.mem_append.1 hy with hy | hy
    · rw [range_of_term? (Option.mem_toList.1 hy), stop_of_spell _ t before ht]
      refine ⟨Nat.le_add_right _ _, ⟨front, before ++ after, rfl, rfl⟩,
        ⟨front ++ before, after, ?_, byteLength_append _ _⟩, fun _ => ?_⟩
      · rw [List.append_assoc]
      · exact ⟨front, before ++ after, rfl, rfl, hplain⟩
    · rw [← List.append_assoc]
      exact ih _ hy hrest fun x hx => hts x (List.mem_append_right _ hx)

end Tree

/-- A phrase has no garbage. -/
theorem Phrase.Derives.kind_ne_garbage {c : Category} {p : Phrase} {ts : List Token}
    (h : p.Derives c ts) : ∀ t ∈ ts, t.kind ≠ .garbage := by
  have hne {t : Token} {kind : TokenKind} (ht : t.kind = kind) (hkind : kind ≠ .garbage) :
      t.kind ≠ .garbage := ht ▸ hkind
  have hmarks {p q : Phrase} {marks : List Token} (h : Marked p marks q) :
      ∀ t ∈ marks, t.kind ≠ .garbage := by
    intro t ht hkind
    have hquantifier := h.isQuantifier t ht
    rw [hkind] at hquantifier
    cases hquantifier
  induction h with
  | noBar | noAtom => exact fun t ht => absurd ht List.not_mem_nil
  | alt _ _ ih₁ ih₂ => exact List.forall_mem_append.2 ⟨ih₁, ih₂⟩
  | item _ _ ih₁ ih₂ => exact List.forall_mem_append.2 ⟨ih₁, ih₂⟩
  | bar hbar _ _ ih₁ ih₂ =>
    exact List.forall_mem_cons.2 ⟨hne hbar nofun, List.forall_mem_append.2 ⟨ih₁, ih₂⟩⟩
  | name hname h => exact List.forall_mem_cons.2 ⟨hne hname nofun, hmarks h⟩
  | group hleft _ hright h ih =>
    refine List.forall_mem_cons.2 ⟨hne hleft nofun, List.forall_mem_append.2 ⟨ih, ?_⟩⟩
    exact List.forall_mem_cons.2 ⟨hne hright nofun, hmarks h⟩

/-- A script has no garbage. -/
theorem Script.Derives.kind_ne_garbage {script : Script} {ts : List Token}
    (h : script.Derives ts) : ∀ t ∈ ts, t.kind ≠ .garbage := by
  have hne {t : Token} {kind : TokenKind} (ht : t.kind = kind) (hkind : kind ≠ .garbage) :
      t.kind ≠ .garbage := ht ▸ hkind
  cases h with
  | expr _ hp => exact hp.kind_ne_garbage
  | rules hstart h =>
    clear hstart
    induction h with
    | nil => exact fun t ht => absurd ht List.not_mem_nil
    | cons hname hcolon hbody hsemicolon _ ih =>
      refine List.forall_mem_cons.2 ⟨hne hname nofun, ?_⟩
      refine List.forall_mem_cons.2 ⟨hne hcolon nofun, ?_⟩
      refine List.forall_mem_append.2 ⟨hbody.kind_ne_garbage, ?_⟩
      exact List.forall_mem_cons.2 ⟨hne hsemicolon nofun, ih⟩

/-- The names in a document, and the range of an expression without rules, have the property. -/
structure Document.SpansAre (P : Span → Prop) (d : Document) : Prop where
  expr : ∀ body ∈ d.expr, P body.range ∧ ∀ x ∈ body.names, P x.span
  rules : ∀ r ∈ d.rules, P r.name.span ∧ ∀ x ∈ r.body.names, P x.span

/-- The document of a source without errors names and ranges over places that can be shown, and so
    can the beginning of the source. -/
theorem spansAre_of_parse {source : String} {limit : Nat} {tree : Tree}
    (h : parse source limit = .ok (tree, [])) :
    tree.document.SpansAre (·.Fits source.toList) ∧ (Span.empty 0).Fits source.toList := by
  obtain ⟨script, hscript, -⟩ := exists_script_of_parse h
  have hclean : ∀ t ∈ lex source, t.kind ≠ .garbage := by
    intro t ht hkind
    refine hscript.kind_ne_garbage t (List.mem_filter.2 ⟨ht, ?_⟩) hkind
    rw [hkind]
    rfl
  have hleaves := leaves_of_parse h
  obtain ⟨body, s, -, rfl, -⟩ := of_parse_eq_ok h
  have hfits : ∀ x ∈ Tree.leavesOfAll (body ++ Tree.ofTokens s.lookAhead.pending),
      x.span.Fits source.toList := fun x hx => fits_of_mem_lex (hleaves ▸ hx)
  have hspell := spell_lex source
  refine ⟨⟨fun y hy => ?_, fun r hr => ?_⟩, ?_⟩
  · obtain ⟨others, hothers⟩ := List.head?_eq_some_iff.1 (Option.mem_def.1 hy)
    refine ⟨?_, fun x hx => hfits x (Tree.mem_leavesOfAll_of_mem_names 0 _ ?_)⟩
    · rw [← hleaves] at hspell hclean
      exact Tree.fits_of_mem_terms [] (List.mem_of_head? hy) hspell hclean
    · rw [hothers, Term.namesOfAll]
      exact List.mem_append_left _ hx
  · obtain ⟨hname, hbody⟩ := Tree.mem_leavesOfAll_of_mem_ruleTerms hr
    exact ⟨hfits _ hname, fun x hx => hfits x (hbody x hx)⟩
  · refine Span.fits_empty ⟨[], source.toList, rfl, rfl, ?_⟩
    exact hspell.plain fun t ht => hclean t (List.mem_of_head? ht)

end Source

/-! ## Names resolved -/

open Source

/-- All spans of the diagnostics have the property. -/
def Diagnostic.SpansAre (P : Span → Prop) (ds : List Diagnostic) : Prop :=
  ∀ d ∈ ds, ∀ s ∈ d.spans, P s

/-- A stage gives something with a property, and the spans of its diagnostics have another. -/
inductive CompileError.StageSpansAre {α : Type} (P : Span → Prop) (Q : α → Prop) :
    Except CompileError (α × List Diagnostic) → Prop
  | ok {a : α} {ds : List Diagnostic} (ha : Q a) (hds : Diagnostic.SpansAre P ds) :
      StageSpansAre P Q (.ok (a, ds))
  | error {e : CompileError} (h : Diagnostic.SpansAre P (e.diagnostics?.getD [])) :
      StageSpansAre P Q (.error e)

/-- All spans of the rules have the property. -/
def Rules.SpansAre (P : Span → Prop) (g : Rules) : Prop := ∀ r ∈ g.rules, P r.span

variable {P : Span → Prop} {ds ds' : List Diagnostic}

theorem Diagnostic.SpansAre.append (h : SpansAre P ds) (h' : SpansAre P ds') :
    SpansAre P (ds ++ ds') := List.forall_mem_append.2 ⟨h, h'⟩

theorem Diagnostic.spans_about {kind : Kind} {span : Span} {detail : String} (h : P span) :
    ∀ s ∈ (Diagnostic.about kind span detail).spans, P s := List.forall_mem_singleton.2 h

namespace Declaration

/-- The span of the declaration and the names in its body have the property. -/
def SpanIs (P : Span → Prop) (r : Declaration) : Prop := P r.span ∧ ∀ x ∈ r.body.names, P x.span

variable (catalog : Catalog)

theorem spansAre_ofRules {declared : List Declaration} {rs : List RuleTerm}
    (hdeclared : ∀ r ∈ declared, r.SpanIs P)
    (hrs : ∀ r ∈ rs, P r.name.span ∧ ∀ x ∈ r.body.names, P x.span) :
    (∀ r ∈ (ofRules catalog declared rs).1, r.SpanIs P) ∧
      Diagnostic.SpansAre P (ofRules catalog declared rs).2 := by
  induction rs generalizing declared with
  | nil => exact ⟨hdeclared, nofun⟩
  | cons r rest ih =>
    obtain ⟨hr, hrest⟩ := List.forall_mem_cons.1 hrs
    rw [ofRules]
    dsimp only
    split
    · next first hfirst =>
      obtain ⟨hall, hds⟩ := ih hdeclared hrest
      refine ⟨hall, List.forall_mem_cons.2 ⟨?_, hds⟩⟩
      have hspan := (hdeclared first (List.mem_of_find?_eq_some hfirst)).1
      exact List.forall_mem_cons.2 ⟨hr.1, List.forall_mem_singleton.2 hspan⟩
    · have hgrown : ∀ d ∈ declared ++ [⟨r.name.text, r.name.span, r.body, true⟩], SpanIs P d :=
        List.forall_mem_append.2 ⟨hdeclared, List.forall_mem_singleton.2 hr⟩
      obtain ⟨hall, hds⟩ := ih hgrown hrest
      refine ⟨hall, ?_⟩
      split
      · exact List.forall_mem_cons.2 ⟨Diagnostic.spans_about hr.1, hds⟩
      · exact hds

theorem spansAre_ofDocument {d : Document} (h : d.SpansAre P) :
    (∀ r ∈ (ofDocument catalog d).1, r.SpanIs P) ∧
      Diagnostic.SpansAre P (ofDocument catalog d).2 := by
  obtain ⟨hall, hds⟩ := spansAre_ofRules catalog (List.forall_mem_nil _) h.rules
  refine ⟨List.forall_mem_append.2 ⟨fun r hr => ?_, hall⟩, hds⟩
  obtain ⟨body, hbody, rfl⟩ := Option.map_eq_some_iff.1 (Option.mem_toList.1 hr)
  exact h.expr body hbody

end Declaration

namespace Rules

theorem spansAre_unused {g : Rules} (h : g.SpansAre P) : Diagnostic.SpansAre P g.unused := by
  intro d hd
  obtain ⟨⟨rule, r⟩, hmem, rfl⟩ := List.mem_map.1 hd
  exact Diagnostic.spans_about (h rule (List.fst_mem_of_mem_zipIdx (List.mem_filter.1 hmem).1))

/-- Rules and reports have the spans of the document, or the empty one at the beginning. -/
theorem spansAre_of_ofDocument {catalog : Catalog} {d : Document} (h : d.SpansAre P)
    (hstart : P (.empty 0)) :
    CompileError.StageSpansAre P (SpansAre P) (ofDocument catalog d) := by
  obtain ⟨hdeclared, hreports⟩ := Declaration.spansAre_ofDocument catalog h
  rw [ofDocument]
  generalize Declaration.ofDocument catalog d = read at hdeclared hreports
  obtain ⟨declared, reports⟩ := read
  dsimp only at hdeclared hreports ⊢
  split
  · have hempty : ∀ s ∈ (Diagnostic.of .emptyGrammar (.empty 0)).spans, P s :=
      List.forall_mem_singleton.2 hstart
    exact .error (hreports.append (List.forall_mem_singleton.2 hempty))
  · have hrules : Rules.SpansAre P ⟨declared.map fun r =>
        ⟨r.name, r.span, r.body.expr (Meaning.of? catalog declared)⟩⟩ := by
      intro r hr
      obtain ⟨r', hr', rfl⟩ := List.mem_map.1 hr
      exact (hdeclared r' hr').1
    have hundefined : ∀ n ∈ (declared.flatMap (·.body.names)).filter fun n =>
        (Meaning.of? catalog declared n.text).isNone, P n.span := by
      intro n hn
      obtain ⟨r', hr', hn⟩ := List.mem_flatMap.1 (List.mem_filter.1 hn).1
      exact (hdeclared r' hr').2 n hn
    revert hundefined
    generalize List.filter _ _ = undefined
    intro hundefined
    have hmissing : Diagnostic.SpansAre P (undefined.map fun n =>
        Diagnostic.about .undefinedSymbol n.span n.text) := by
      intro d hd
      obtain ⟨n, hn, rfl⟩ := List.mem_map.1 hd
      exact Diagnostic.spans_about (hundefined n hn)
    have hall := (hreports.append hmissing).append (spansAre_unused hrules)
    cases undefined with
    | cons n others => exact .error hall
    | nil =>
      dsimp only
      split
      · exact .error hall
      · exact .ok hrules hall

end Rules

end FluentGrammar
