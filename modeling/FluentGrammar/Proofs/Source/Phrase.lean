import FluentGrammar.Proofs.Source.State
import FluentGrammar.Source.Term

/-
  The grammar of sources. A phrase is an expression without the spans of its parts, and a script
  what a source says without spans. `Script.Derives` is the grammar as it is documented, over the
  tokens that are not trivia; the depth of a script is how deep its groups nest.

  The trees of a node are read behind whatever comes first, and the spans of terms depend on that.
  `Reads` is the reading without spans, which does not.
-/

namespace FluentGrammar.Source

/-! ## Phrases -/

/-- Expressions without spans. -/
inductive Phrase where
  | ref (name : Token)
  | group (body : Phrase)
  | quantified (repetition : Repetition) (inner : Phrase)
  | sequence (items : List Phrase)
  | choice (branches : List Phrase)

namespace Phrase

mutual

/-- How deep groups nest. -/
def depth : Phrase → Nat
  | ref _ => 0
  | group body => depth body + 1
  | quantified _ inner => depth inner
  | sequence items => depthOfAll items
  | choice branches => depthOfAll branches

/-- How deep groups nest in several phrases. -/
def depthOfAll : List Phrase → Nat
  | [] => 0
  | p :: rest => max (depth p) (depthOfAll rest)

end

end Phrase

namespace Term

mutual

/-- The term without spans. -/
def phrase : Term → Phrase
  | ref _ name => .ref name
  | group _ body => .group (phrase body)
  | quantified _ r inner => .quantified r (phrase inner)
  | sequence _ items => .sequence (phrases items)
  | choice _ branches => .choice (phrases branches)

/-- The terms without spans. -/
def phrases : List Term → List Phrase
  | [] => []
  | t :: rest => phrase t :: phrases rest

end

theorem phrases_append (ts us : List Term) : phrases (ts ++ us) = phrases ts ++ phrases us := by
  induction ts with
  | nil => rfl
  | cons t ts ih => simp [phrases, ih]

theorem head?_phrases (ts : List Term) : (phrases ts).head? = ts.head?.map phrase := by
  cases ts <;> rfl

end Term

/-- What a source says: an expression or rules. -/
structure Script where
  expr : Option Phrase
  rules : List (Token × Phrase)

/-- The name and the body of a rule without spans. -/
def RuleTerm.phrase (r : RuleTerm) : Token × Phrase := (r.name, r.body.phrase)

/-- The document without spans. -/
def Document.script (d : Document) : Script := ⟨d.expr.map Term.phrase, d.rules.map RuleTerm.phrase⟩

namespace Script

/-- A script that says nothing. -/
def empty : Script := ⟨none, []⟩

/-- How deep groups nest in a script. -/
def depth (s : Script) : Nat := Phrase.depthOfAll (s.expr.toList ++ s.rules.map (·.2))

end Script

/-! ## The grammar -/

/-- Marks behind a phrase, each of which repeats everything before it. -/
inductive Marked : Phrase → List Token → Phrase → Prop
  | nil {p} : Marked p [] p
  | cons {p q r mark marks} : mark.kind.repetition? = some r →
      Marked (.quantified r p) marks q → Marked p (mark :: marks) q

/-- The classes of phrases. -/
inductive Category where
  | alt
  /-- Further branches of an alternation, each after a bar. -/
  | branches
  | branch
  | atom

/-- The phrase is of the category and written with the tokens. -/
inductive Phrase.Derives : Category → Phrase → List Token → Prop
  /-- Alternations: `alt := branch ('|' branch)*` -/
  | alt {p ps ts us} : Derives .branch p ts → Derives .branches (.choice ps) us →
      Derives .alt (.choice (p :: ps)) (ts ++ us)
  | noBar : Derives .branches (.choice []) []
  | bar {bar p ps ts us} : bar.kind = .pipe → Derives .branch p ts →
      Derives .branches (.choice ps) us →
      Derives .branches (.choice (p :: ps)) (bar :: (ts ++ us))
  /-- Branches: `branch := atom*` -/
  | noAtom : Derives .branch (.sequence []) []
  | item {p ps ts us} : Derives .atom p ts → Derives .branch (.sequence ps) us →
      Derives .branch (.sequence (p :: ps)) (ts ++ us)
  /-- Atoms: `atom := (name | '(' alt ')') ('*' | '+' | '?')*` -/
  | name {t p marks} : t.kind = .name → Marked (.ref t) marks p → Derives .atom p (t :: marks)
  | group {left right body p ts marks} : left.kind = .parenOpen → Derives .alt body ts →
      right.kind = .parenClose → Marked (.group body) marks p →
      Derives .atom p (left :: (ts ++ right :: marks))

namespace Script

/-- Rules, one behind the other: `rule := name ':' alt ';'` -/
inductive DerivesRules : List (Token × Phrase) → List Token → Prop
  | nil : DerivesRules [] []
  | cons {name colon semicolon body rules ts us} : name.kind = .name → colon.kind = .colon →
      body.Derives .alt ts → semicolon.kind = .semicolon → DerivesRules rules us →
      DerivesRules ((name, body) :: rules) (name :: colon :: (ts ++ semicolon :: us))

/-- Sources: `root := rule* | alt`, with rules exactly where a name and a colon come first -/
inductive Derives : Script → List Token → Prop
  | rules {rules ts} : startsRule ts = true → DerivesRules rules ts → Derives ⟨none, rules⟩ ts
  | expr {p ts} : startsRule ts = false → p.Derives .alt ts → Derives ⟨some p, []⟩ ts

end Script

theorem TokenKind.isQuantifier_of_repetition? {k : TokenKind} {r : Repetition}
    (h : k.repetition? = some r) : k.isQuantifier = true := by
  cases k <;> simp_all [repetition?, isQuantifier]

theorem TokenKind.repetition?_of_isTrivia {k : TokenKind} (h : k.isTrivia = true) :
    k.repetition? = none := by
  cases k <;> simp_all [repetition?, isTrivia]

theorem TokenKind.exists_repetition? {k : TokenKind} (h : k.isQuantifier = true) :
    ∃ r, k.repetition? = some r := by
  cases k <;> simp_all [repetition?, isQuantifier]

theorem Marked.isQuantifier {p q : Phrase} {marks : List Token} (h : Marked p marks q) :
    ∀ t ∈ marks, t.kind.isQuantifier = true := by
  induction h with
  | nil => simp
  | cons hmark _ ih =>
    intro t ht
    rcases List.mem_cons.1 ht with rfl | ht
    · exact TokenKind.isQuantifier_of_repetition? hmark
    · exact ih t ht

theorem Marked.depth_eq {p q : Phrase} {marks : List Token} (h : Marked p marks q) :
    q.depth = p.depth := by
  induction h with
  | nil => rfl
  | cons _ _ ih => rw [ih, Phrase.depth]

namespace Phrase.Derives

variable {c : Category} {p : Phrase} {ps : List Phrase} {ts rest : List Token}

/-- No colon stands inside an expression. -/
theorem kind_ne_colon (h : p.Derives c ts) : ∀ t ∈ ts, t.kind ≠ .colon := by
  have hmarks {p q : Phrase} {marks : List Token} (hm : Marked p marks q) :
      ∀ t ∈ marks, t.kind ≠ .colon := by
    intro t ht hcolon
    have := hm.isQuantifier t ht
    rw [hcolon] at this
    cases this
  induction h with
  | alt _ _ ih₁ ih₂ =>
    intro t ht
    rcases List.mem_append.1 ht with ht | ht
    · exact ih₁ t ht
    · exact ih₂ t ht
  | noBar => simp
  | bar hbar _ _ ih₁ ih₂ =>
    intro t ht
    rcases List.mem_cons.1 ht with rfl | ht
    · simp [hbar]
    · rcases List.mem_append.1 ht with ht | ht
      · exact ih₁ t ht
      · exact ih₂ t ht
  | noAtom => simp
  | item _ _ ih₁ ih₂ =>
    intro t ht
    rcases List.mem_append.1 ht with ht | ht
    · exact ih₁ t ht
    · exact ih₂ t ht
  | name hname hm =>
    intro t ht
    rcases List.mem_cons.1 ht with rfl | ht
    · simp [hname]
    · exact hmarks hm t ht
  | group hleft _ hright hm ih =>
    intro t ht
    rcases List.mem_cons.1 ht with rfl | ht
    · simp [hleft]
    · rcases List.mem_append.1 ht with ht | ht
      · exact ih t ht
      · rcases List.mem_cons.1 ht with rfl | ht
        · simp [hright]
        · exact hmarks hm t ht

/-- An atom begins with a token that begins atoms. -/
theorem exists_startsAtom (h : p.Derives .atom ts) :
    ∃ t us, ts = t :: us ∧ t.kind.startsAtom = true := by
  cases h with
  | name hname _ => exact ⟨_, _, rfl, by rw [hname]; rfl⟩
  | group hleft _ _ _ => exact ⟨_, _, rfl, by rw [hleft]; rfl⟩

/-- What comes first in a branch, or behind an empty one. -/
theorem head?_append (h : Derives .branch (.sequence ps) ts) :
    ∀ t ∈ (ts ++ rest).head?, t.kind.startsAtom = true ∨ t ∈ rest.head? := by
  intro t ht
  cases h with
  | noAtom => exact .inr ht
  | item hatom _ =>
    obtain ⟨u, us, rfl, hu⟩ := hatom.exists_startsAtom
    obtain rfl : u = t := Option.some.inj ht
    exact .inl hu

end Phrase.Derives

/-- No rule begins in an expression. -/
theorem startsRule_append {ts rest : List Token} (hts : ts ≠ [])
    (hcolon : ∀ t ∈ ts, t.kind ≠ .colon) (hrest : ∀ t ∈ rest.head?, t.kind ≠ .colon) :
    startsRule (ts ++ rest) = false := by
  match ts, hts with
  | [t], _ =>
    cases rest with
    | nil => rfl
    | cons u rest =>
      have := hrest u rfl
      simp [startsRule, this]
  | t :: u :: ts, _ =>
    have := hcolon u (by simp)
    simp [startsRule, this]

/-! ## Reading trees -/

/-- The trees read as the phrases. -/
def Reads (ts : List Tree) (ps : List Phrase) : Prop :=
  ∀ start, Term.phrases (Tree.terms start ts) = ps

/-- The trees read as the rules. -/
def ReadsRules (ts : List Tree) (rules : List (Token × Phrase)) : Prop :=
  ∀ start, (Tree.ruleTerms start ts).map RuleTerm.phrase = rules

namespace Tree

theorem terms_append (start : Nat) (ts us : List Tree) :
    terms start (ts ++ us) = terms start ts ++ terms (stopOfAll start ts) us := by
  induction ts generalizing start with
  | nil => rfl
  | cons t ts ih => simp [terms, stopOfAll, ih]

theorem ruleTerms_append (start : Nat) (ts us : List Tree) :
    ruleTerms start (ts ++ us) = ruleTerms start ts ++ ruleTerms (stopOfAll start ts) us := by
  induction ts generalizing start with
  | nil => rfl
  | cons t ts ih => simp [ruleTerms, stopOfAll, ih]

theorem terms_ofTokens (start : Nat) (ts : List Token) : terms start (ofTokens ts) = [] := by
  induction ts generalizing start with
  | nil => rfl
  | cons t ts ih =>
    show (term? start (token t)).toList ++ terms _ (ofTokens ts) = []
    rw [ih, term?]
    rfl

theorem ruleTerms_ofTokens (start : Nat) (ts : List Token) :
    ruleTerms start (ofTokens ts) = [] := by
  induction ts generalizing start with
  | nil => rfl
  | cons t ts ih =>
    show (ruleTerm? start (token t)).toList ++ ruleTerms _ (ofTokens ts) = []
    rw [ih]
    rfl

/-- A token behind tokens of other classes is found first. -/
theorem tokenOf?_ofTokens {kind : TokenKind} {ws : List Token} {t : Token} (rest : List Tree)
    (hws : ∀ w ∈ ws, w.kind ≠ kind) (ht : t.kind = kind) :
    tokenOf? kind (ofTokens (ws ++ [t]) ++ rest) = some t := by
  induction ws with
  | nil => simp [tokenOf?, ofTokens, ht]
  | cons w ws ih =>
    have hw := hws w (by simp)
    have := ih fun v hv => hws v (by simp [hv])
    simp [tokenOf?, ofTokens, hw] at this ⊢
    exact this

/-- The mark behind a node and trivia. -/
theorem markOf?_node {kind : NodeKind} {children : List Tree} {ws : List Token} {t : Token}
    (hws : ∀ w ∈ ws, w.kind.isTrivia = true) :
    markOf? ([.node kind children] ++ ofTokens (ws ++ [t])) = t.kind.repetition? := by
  have htokens : markOf? (ofTokens (ws ++ [t])) = t.kind.repetition? := by
    induction ws with
    | nil => simp [markOf?, ofTokens]
    | cons w ws ih =>
      have hw := TokenKind.repetition?_of_isTrivia (hws w (by simp))
      have := ih fun v hv => hws v (by simp [hv])
      simp [markOf?, ofTokens, hw] at this ⊢
      exact this
  exact htokens

end Tree

variable {ts us : List Tree} {ps qs : List Phrase} {p : Phrase}

theorem reads_ofTokens (ws : List Token) : Reads (Tree.ofTokens ws) [] := by
  intro start
  rw [Tree.terms_ofTokens]
  rfl

theorem Reads.append (h : Reads ts ps) (h' : Reads us qs) : Reads (ts ++ us) (ps ++ qs) := by
  intro start
  rw [Tree.terms_append, Term.phrases_append, h, h']

/-- The term of a node is that of a row with nothing else. -/
theorem reads_node_iff {kind : NodeKind} {children : List Tree} :
    Reads [.node kind children] ps ↔
      ∀ start, Term.phrases (Tree.term? start (.node kind children)).toList = ps := by
  simp [Reads, Tree.terms]

theorem Reads.alt (h : Reads ts ps) : Reads [.node .alt ts] [.choice ps] := by
  rw [reads_node_iff]
  intro start
  rw [Tree.term?, Option.toList_some, Term.phrases, Term.phrase, h]
  rfl

theorem Reads.branch (h : Reads ts ps) : Reads [.node .branch ts] [.sequence ps] := by
  rw [reads_node_iff]
  intro start
  rw [Tree.term?, Option.toList_some, Term.phrases, Term.phrase, h]
  rfl

/-- The first of the terms that trees read as. -/
theorem Reads.head?_terms (h : Reads ts (p :: ps)) (start : Nat) :
    ∃ t, (Tree.terms start ts).head? = some t ∧ t.phrase = p := by
  have hhead : (Tree.terms start ts).head?.map Term.phrase = some p := by
    rw [← Term.head?_phrases, h]
    rfl
  exact Option.map_eq_some_iff.1 hhead

theorem Reads.group (h : Reads ts [p]) : Reads [.node .group ts] [.group p] := by
  rw [reads_node_iff]
  intro start
  obtain ⟨t, ht, rfl⟩ := h.head?_terms start
  rw [Tree.term?, ht]
  rfl

theorem Reads.quantifier {r : Repetition} (h : Reads ts [p]) (hmark : Tree.markOf? ts = some r) :
    Reads [.node .quantifier ts] [.quantified r p] := by
  rw [reads_node_iff]
  intro start
  obtain ⟨t, ht, rfl⟩ := h.head?_terms start
  rw [Tree.term?, ht, hmark]
  rfl

theorem reads_ref {name : Token} (h : Tree.tokenOf? .name ts = some name) :
    Reads [.node .ref ts] [.ref name] := by
  rw [reads_node_iff]
  intro start
  rw [Tree.term?, h]
  rfl

theorem reads_rule (ts : List Tree) : Reads [.node .rule ts] [] := by
  rw [reads_node_iff]
  intro start
  rw [Tree.term?]
  rfl

/-! ## Reading rules -/

variable {rules others : List (Token × Phrase)}

theorem readsRules_ofTokens (ws : List Token) : ReadsRules (Tree.ofTokens ws) [] := by
  intro start
  rw [Tree.ruleTerms_ofTokens]
  rfl

theorem ReadsRules.append (h : ReadsRules ts rules) (h' : ReadsRules us others) :
    ReadsRules (ts ++ us) (rules ++ others) := by
  intro start
  rw [Tree.ruleTerms_append, List.map_append, h, h']

theorem readsRules_alt (ts : List Tree) : ReadsRules [.node .alt ts] [] := by
  intro start
  rfl

theorem Reads.rule {name : Token} (h : Reads ts [p]) (hname : Tree.tokenOf? .name ts = some name) :
    ReadsRules [.node .rule ts] [(name, p)] := by
  intro start
  obtain ⟨t, ht, rfl⟩ := h.head?_terms start
  simp [Tree.ruleTerms, Tree.ruleTerm?, hname, ht, RuleTerm.phrase]

/-! ## Reading sources -/

/-- The trees read as the expression and the rules of a script. -/
structure ReadsScript (ts : List Tree) (script : Script) : Prop where
  expr : Reads ts script.expr.toList
  rules : ReadsRules ts script.rules

theorem readsScript_ofTokens (ws : List Token) : ReadsScript (Tree.ofTokens ws) .empty :=
  ⟨reads_ofTokens ws, readsRules_ofTokens ws⟩

theorem ReadsScript.document {script : Script} (h : ReadsScript ts script) (ws : List Token) :
    (Tree.node .root (ts ++ Tree.ofTokens ws)).document.script = script := by
  have hexpr : Reads (ts ++ Tree.ofTokens ws) script.expr.toList := by
    have := h.expr.append (reads_ofTokens ws)
    rwa [List.append_nil] at this
  have hrules : ReadsRules (ts ++ Tree.ofTokens ws) script.rules := by
    have := h.rules.append (readsRules_ofTokens ws)
    rwa [List.append_nil] at this
  have hhead : (Tree.terms 0 (ts ++ Tree.ofTokens ws)).head?.map Term.phrase = script.expr := by
    rw [← Term.head?_phrases, hexpr]
    cases script.expr <;> rfl
  rw [Tree.document, Document.script]
  dsimp only
  rw [hhead, hrules]

end FluentGrammar.Source
