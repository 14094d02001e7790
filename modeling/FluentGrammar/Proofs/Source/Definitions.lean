import FluentGrammar.Proofs.Lowering.Lower
import FluentGrammar.Proofs.Source.Scripts
import FluentGrammar.Proofs.Source.Tokens
import Mathlib

/-
  Which sources have rules. A source without syntax errors has them exactly if there is something
  in it, no rule name is given twice and every name in a body is known, as that of a rule or else
  of an action (`Rules.ofDocument_exact`). Otherwise the first unknown name in a body that counts is
  reported, where the body of a repeated rule does not count, and what remains are repeated rules
  and an empty source.
-/

namespace FluentGrammar

open Report

namespace Source

/-! ## Names in phrases -/

namespace Phrase

mutual

/-- The names that a phrase mentions, in order. -/
def names : Phrase → List Token
  | ref name => [name]
  | group body => names body
  | quantified _ inner => names inner
  | sequence items => namesOfAll items
  | choice branches => namesOfAll branches

/-- The names that several phrases mention. -/
def namesOfAll : List Phrase → List Token
  | [] => []
  | p :: rest => names p ++ namesOfAll rest

end

variable {p q : Phrase} {ts : List Token} {c : Category}

theorem names_of_marked {marks : List Token} (h : Marked p marks q) : q.names = p.names := by
  induction h with
  | nil => rfl
  | cons _ _ ih => rw [ih, names]

theorem filter_marks {marks : List Token} (h : Marked p marks q) :
    marks.filter (·.kind == .name) = [] := by
  refine List.filter_eq_nil_iff.2 fun t ht hname => ?_
  have hmark := h.isQuantifier t ht
  rw [beq_iff_eq.1 hname] at hmark
  cases hmark

/-- A phrase mentions the names among its tokens. -/
theorem names_of_derives (h : p.Derives c ts) : p.names = ts.filter (·.kind == .name) := by
  induction h with
  | noBar | noAtom => rfl
  | alt _ _ ih₁ ih₂ | item _ _ ih₁ ih₂ =>
    rw [names] at ih₂ ⊢
    rw [namesOfAll, ih₁, ih₂, List.filter_append]
  | bar hbar _ _ ih₁ ih₂ =>
    rw [names] at ih₂ ⊢
    rw [namesOfAll, ih₁, ih₂, List.filter_cons, hbar, List.filter_append]
    rfl
  | name hname hmarks =>
    rw [names_of_marked hmarks, List.filter_cons, hname, filter_marks hmarks]
    rfl
  | group hleft _ hright hmarks ih =>
    rw [names_of_marked hmarks, names, ih, List.filter_cons, List.filter_append, List.filter_cons,
      hleft, hright, filter_marks hmarks]
    exact (List.append_nil _).symm

end Phrase

namespace Term

mutual

theorem names_phrase (t : Term) : t.phrase.names = t.names := by
  match t with
  | ref _ _ => rfl
  | group _ body => exact names_phrase body
  | quantified _ _ inner => exact names_phrase inner
  | sequence _ items => exact namesOfAll_phrases items
  | choice _ branches => exact namesOfAll_phrases branches

theorem namesOfAll_phrases (ts : List Term) :
    Phrase.namesOfAll (phrases ts) = namesOfAll ts := by
  match ts with
  | [] => rfl
  | t :: rest =>
    rw [phrases, Phrase.namesOfAll, names_phrase t, namesOfAll_phrases rest, namesOfAll]

end

end Term

/-- The names in the bodies of rules stand among the tokens, in order. -/
theorem Script.DerivesRules.names_sublist {rules : List (Token × Phrase)} {ts : List Token}
    (h : DerivesRules rules ts) : (rules.flatMap (·.2.names)).Sublist ts := by
  induction h with
  | nil => exact .slnil
  | cons _ _ hbody _ _ ih =>
    rw [List.flatMap_cons, Phrase.names_of_derives hbody]
    exact .cons _ (.cons _ (List.filter_sublist.append (.cons _ ih)))

/-! ## What a document defines and mentions -/

/-- The first rule of every name, in order. -/
def firstRules : List RuleTerm → List RuleTerm
  | [] => []
  | r :: rest => r :: (firstRules rest).filter (·.name.text != r.name.text)

theorem firstRules_sublist (rs : List RuleTerm) : (firstRules rs).Sublist rs := by
  induction rs with
  | nil => exact .slnil
  | cons r rest ih => exact (List.filter_sublist.trans ih).cons_cons r

theorem mem_names_firstRules {rs : List RuleTerm} {x : String} :
    x ∈ (firstRules rs).map (·.name.text) ↔ x ∈ rs.map (·.name.text) := by
  refine ⟨fun h => ((firstRules_sublist rs).map _).mem h, fun h => ?_⟩
  induction rs with
  | nil => exact h
  | cons r rest ih =>
    rw [firstRules, List.map_cons, List.mem_cons]
    by_cases hx : x = r.name.text
    · exact .inl hx
    · have hrest := (List.mem_cons.1 h).resolve_left hx
      obtain ⟨r', hr', rfl⟩ := List.mem_map.1 (ih hrest)
      exact .inr (List.mem_map_of_mem (List.mem_filter.2 ⟨hr', bne_iff_ne.2 hx⟩))

theorem firstRules_of_nodup {rs : List RuleTerm} (h : (rs.map (·.name.text)).Nodup) :
    firstRules rs = rs := by
  induction rs with
  | nil => rfl
  | cons r rest ih =>
    obtain ⟨hr, hrest⟩ := List.nodup_cons.1 h
    rw [firstRules, ih hrest, List.filter_eq_self.2]
    intro r' hr'
    refine bne_iff_ne.2 fun heq => hr ?_
    show r.name.text ∈ _
    rw [← heq]
    exact List.mem_map_of_mem hr'

namespace Document

variable (catalog : Catalog) (d : Document)

/-- The names of the rules. -/
def ruleNames : List String := d.rules.map (·.name.text)

/-- There is a rule or an action of the name. -/
def Knows (name : String) : Prop := name ∈ d.ruleNames ∨ (catalog.lookup? name).isSome

instance (name : String) : Decidable (d.Knows catalog name) := by
  unfold Knows
  infer_instance

/-- All bodies of a document. -/
def bodies : List Term := d.expr.toList ++ d.rules.map (·.body)

/-- The bodies that count: of rules with one name, only that of the first. -/
def firstBodies : List Term := d.expr.toList ++ (firstRules d.rules).map (·.body)

/-- The unknown names in the bodies that count, in order. -/
def unknown : List Token :=
  (d.firstBodies.flatMap Term.names).filter fun n => ¬ d.Knows catalog n.text

/-- The rule of a name, or else the action. -/
def meaning? (name : String) : Option Meaning :=
  ((d.ruleNames.idxOf? name).map .rule).or ((catalog.lookup? name).map .action)

end Document

end Source

open Source

/-! ## Declarations -/

namespace Declaration

/-- The declaration of a rule. -/
def ofRule (r : RuleTerm) : Declaration := ⟨r.name.text, r.name.span, r.body, true⟩

/-- The declaration of an expression without rules. -/
def ofBare (body : Term) : Declaration := ⟨implicitName, body.range, body, false⟩

variable {catalog : Catalog} {declared : List Declaration} {rs : List RuleTerm} {x : String}

theorem find?_eq_none_iff : find? declared x = none ↔ ∀ d ∈ declared, d.name ≠ x := by
  rw [find?, List.find?_eq_none]
  simp only [beq_iff_eq, ne_eq]

/-- A rule is declared if its name is new. -/
theorem ofRules_fst (declared : List Declaration) (rs : List RuleTerm) :
    (ofRules catalog declared rs).1 = declared ++
      ((firstRules rs).filter fun r => (find? declared r.name.text).isNone).map ofRule := by
  induction rs generalizing declared with
  | nil => exact (List.append_nil declared).symm
  | cons r rest ih =>
    rw [ofRules, firstRules, List.filter_cons, List.filter_filter]
    dsimp only
    split
    · next first hfirst =>
      rw [ih, hfirst, if_neg (by simp)]
      congr 2
      refine List.filter_congr fun r' _ => ?_
      by_cases heq : r'.name.text = r.name.text
      · rw [heq, hfirst]
        rfl
      · rw [bne_iff_ne.2 heq, Bool.and_true]
    · next hnew =>
      have hrest : (firstRules rest).filter
            (fun r' => (find? (declared ++ [ofRule r]) r'.name.text).isNone) =
          (firstRules rest).filter fun r' =>
            (find? declared r'.name.text).isNone && r'.name.text != r.name.text := by
        refine List.filter_congr fun r' _ => ?_
        rw [Bool.eq_iff_iff, Bool.and_eq_true, Option.isNone_iff_eq_none,
          Option.isNone_iff_eq_none, find?_eq_none_iff, find?_eq_none_iff, List.forall_mem_append,
          List.forall_mem_singleton, bne_iff_ne]
        exact and_congr_right fun _ => ne_comm
      rw [ih, hnew, if_pos Option.isNone_none, List.map_cons, ← hrest, List.append_assoc]
      rfl

/-- There is no error exactly if every rule has a new name. -/
theorem anyError_ofRules : Diagnostic.anyError (ofRules catalog declared rs).2 = false ↔
    (∀ r ∈ rs, find? declared r.name.text = none) ∧ (rs.map (·.name.text)).Nodup := by
  induction rs generalizing declared with
  | nil => exact iff_of_true rfl ⟨List.forall_mem_nil _, List.nodup_nil⟩
  | cons r rest ih =>
    rw [ofRules, List.forall_mem_cons, List.map_cons, List.nodup_cons]
    dsimp only
    split
    · next first hfirst =>
      refine iff_of_false nofun fun h => ?_
      rw [h.1.1] at hfirst
      cases hfirst
    · next hnew =>
      have hshadowing (ds : List Diagnostic) :
          Diagnostic.anyError (if (catalog.lookup? r.name.text).isSome = true then
            Diagnostic.about .shadowedAction r.name.span r.name.text :: ds else ds) =
          Diagnostic.anyError ds := by
        split <;> rfl
      rw [hshadowing, ih]
      simp only [find?_eq_none_iff, List.forall_mem_append, List.forall_mem_singleton,
        List.mem_map, not_exists, not_and] at hnew ⊢
      constructor
      · rintro ⟨hrest, hnodup⟩
        exact ⟨⟨hnew, fun r' hr' => (hrest r' hr').1⟩,
          fun r' hr' heq => (hrest r' hr').2 heq.symm, hnodup⟩
      · rintro ⟨⟨-, hrest⟩, hother, hnodup⟩
        exact ⟨fun r' hr' => ⟨hrest r' hr', fun heq => hother r' hr' heq.symm⟩, hnodup⟩

/-- Reports on rules are not about unknown names. -/
theorem kind_of_mem_ofRules {diagnostic : Diagnostic}
    (h : diagnostic ∈ (ofRules catalog declared rs).2) : diagnostic.kind ≠ .undefinedSymbol := by
  induction rs generalizing declared with
  | nil => cases h
  | cons r rest ih =>
    rw [ofRules] at h
    dsimp only at h
    split at h
    · rcases List.mem_cons.1 h with rfl | h
      · exact nofun
      · exact ih h
    · split at h
      · rcases List.mem_cons.1 h with rfl | h
        · exact nofun
        · exact ih h
      · exact ih h

variable (catalog) (d : Document)

theorem ofDocument_fst : (ofDocument catalog d).1 =
    (d.expr.map ofBare).toList ++ (firstRules d.rules).map ofRule := by
  have hall : (firstRules d.rules).filter (fun r => (find? [] r.name.text).isNone) =
      firstRules d.rules := List.filter_eq_self.2 fun _ _ => rfl
  rw [ofDocument]
  dsimp only
  rw [ofRules_fst, hall]
  rfl

theorem isEmpty_ofDocument :
    (ofDocument catalog d).1.isEmpty = true ↔ d.expr = none ∧ d.rules = [] := by
  rw [ofDocument_fst, List.isEmpty_iff, List.append_eq_nil_iff, List.map_eq_nil_iff,
    Option.toList_eq_nil_iff, Option.map_eq_none_iff]
  refine and_congr_right fun _ => ⟨fun h => ?_, fun h => by rw [h, firstRules]⟩
  cases hrules : d.rules with
  | nil => rfl
  | cons r rest =>
    rw [hrules] at h
    cases h

/-- The declarations have the bodies that count. -/
theorem flatMap_names_ofDocument :
    (ofDocument catalog d).1.flatMap (·.body.names) = d.firstBodies.flatMap Term.names := by
  rw [ofDocument_fst, Document.firstBodies, List.flatMap_append, List.flatMap_append,
    List.flatMap_map, List.flatMap_map]
  cases d.expr <;> rfl

theorem anyError_ofDocument :
    Diagnostic.anyError (ofDocument catalog d).2 = false ↔ d.ruleNames.Nodup :=
  anyError_ofRules.trans (and_iff_right fun _ _ => rfl)

/-- A name has a meaning exactly if it is known. -/
theorem isNone_of? (x : String) :
    (Meaning.of? catalog (ofDocument catalog d).1 x).isNone = true ↔ ¬ d.Knows catalog x := by
  have hnamed : (ofDocument catalog d).1.findIdx? (fun r => r.named && r.name == x) = none ↔
      x ∉ d.ruleNames := by
    have hbare : ∀ r ∈ (d.expr.map ofBare).toList, (r.named && r.name == x) = false := by
      intro r hr
      obtain ⟨body, -, rfl⟩ := Option.map_eq_some_iff.1 (Option.mem_toList.1 hr)
      rfl
    rw [List.findIdx?_eq_none_iff, ofDocument_fst, List.forall_mem_append, and_iff_right hbare,
      List.forall_mem_map, Document.ruleNames, ← mem_names_firstRules, List.mem_map, not_exists]
    simp only [ofRule, Bool.true_and, beq_eq_false_iff_ne, ne_eq, not_and]
  rw [Document.Knows, not_or, ← hnamed, Meaning.of?]
  cases (ofDocument catalog d).1.findIdx? fun r => r.named && r.name == x with
  | none => simp
  | some i => simp

/-- Without repeated names and beside no expression, rules are declared as they stand. -/
theorem ofDocument_of_rules (hexpr : d.expr = none) (hnodup : d.ruleNames.Nodup) :
    (ofDocument catalog d).1 = d.rules.map ofRule ∧
      Meaning.of? catalog (ofDocument catalog d).1 = d.meaning? catalog := by
  have hdeclared : (ofDocument catalog d).1 = d.rules.map ofRule := by
    rw [ofDocument_fst, hexpr, firstRules_of_nodup hnodup]
    rfl
  refine ⟨hdeclared, funext fun x => ?_⟩
  have hindex : (d.rules.map ofRule).findIdx? (fun r => r.named && r.name == x) =
      d.ruleNames.idxOf? x := by
    rw [List.findIdx?_map, Document.ruleNames, List.idxOf?, List.findIdx?_map]
    rfl
  rw [hdeclared, Meaning.of?, hindex, Document.meaning?]
  cases d.ruleNames.idxOf? x <;> rfl

/-- An expression without rules is declared, and no name refers to it. -/
theorem ofDocument_of_expr {body : Term} (hexpr : d.expr = some body) (hrules : d.rules = []) :
    (ofDocument catalog d).1 = [ofBare body] ∧
      Meaning.of? catalog (ofDocument catalog d).1 = d.meaning? catalog := by
  have hdeclared : (ofDocument catalog d).1 = [ofBare body] := by
    rw [ofDocument_fst, hexpr, hrules]
    rfl
  refine ⟨hdeclared, funext fun x => ?_⟩
  rw [hdeclared, Document.meaning?, Document.ruleNames, hrules]
  rfl

end Declaration

/-! ## Rules -/

namespace Rules

variable (catalog : Catalog) (d : Document)

/-- The rules of all declarations, with the empty expression for a name that is not known. -/
def ofDeclarations : Rules :=
  ⟨(Declaration.ofDocument catalog d).1.map fun r =>
    ⟨r.name, r.span, r.body.expr (Meaning.of? catalog (Declaration.ofDocument catalog d).1)⟩⟩

/-- The reports on a document that has something in it. -/
def documentReports : List Diagnostic :=
  (Declaration.ofDocument catalog d).2 ++
    (d.unknown catalog).map (fun n => Diagnostic.about .undefinedSymbol n.span n.text) ++
    (ofDeclarations catalog d).unused

variable {catalog d}

theorem unused_warns {g : Rules} {diagnostic : Diagnostic} (h : diagnostic ∈ g.unused) :
    diagnostic.kind = .unusedRule := by
  obtain ⟨⟨rule, r⟩, -, rfl⟩ := List.mem_map.1 h
  rfl

/-- The reports on unknown names are one for each of them. -/
theorem filter_reports : (documentReports catalog d).filter (·.kind == .undefinedSymbol) =
    (d.unknown catalog).map fun n => Diagnostic.about .undefinedSymbol n.span n.text := by
  rw [documentReports, List.filter_append, List.filter_append]
  have hdeclared : (Declaration.ofDocument catalog d).2.filter (·.kind == .undefinedSymbol) = [] :=
    List.filter_eq_nil_iff.2 fun _ hd h => Declaration.kind_of_mem_ofRules hd (beq_iff_eq.1 h)
  have hunused : (ofDeclarations catalog d).unused.filter (·.kind == .undefinedSymbol) = [] := by
    refine List.filter_eq_nil_iff.2 fun diagnostic hd h => ?_
    rw [unused_warns hd] at h
    cases h
  have hunknown : ∀ diagnostic ∈ (d.unknown catalog).map fun n =>
      Diagnostic.about .undefinedSymbol n.span n.text,
      (diagnostic.kind == .undefinedSymbol) = true := List.forall_mem_map.2 fun _ _ => rfl
  rw [hdeclared, hunused, List.nil_append, List.append_nil, List.filter_eq_self.2 hunknown]

/-- If all names are known, the only errors are about repeated rules. -/
theorem anyError_reports (h : d.unknown catalog = []) :
    Diagnostic.anyError (documentReports catalog d) = false ↔ d.ruleNames.Nodup := by
  have hunused : Diagnostic.anyError (ofDeclarations catalog d).unused = false := by
    refine List.any_eq_false.2 fun diagnostic hd herror => ?_
    rw [Diagnostic.severity, unused_warns hd] at herror
    cases herror
  rw [← Declaration.anyError_ofDocument catalog d, documentReports, h, List.map_nil,
    List.append_nil, Diagnostic.anyError, List.any_append]
  rw [Diagnostic.anyError] at hunused
  rw [hunused, Bool.or_false]
  rfl

/-- What becomes of a document that has something in it. -/
theorem ofDocument_eq (h : ¬ (d.expr = none ∧ d.rules = [])) :
    ofDocument catalog d =
      match d.unknown catalog with
      | n :: _ => .error (.undefinedSymbol n.text (documentReports catalog d))
      | [] =>
        if Diagnostic.anyError (documentReports catalog d) then
          .error (.invalidGrammar (documentReports catalog d))
        else .ok (ofDeclarations catalog d, documentReports catalog d) := by
  have hunknown : ((Declaration.ofDocument catalog d).1.flatMap (·.body.names)).filter (fun n =>
      (Meaning.of? catalog (Declaration.ofDocument catalog d).1 n.text).isNone) =
      d.unknown catalog := by
    rw [Declaration.flatMap_names_ofDocument, Document.unknown]
    refine List.filter_congr fun n _ => ?_
    rw [Bool.eq_iff_iff, Declaration.isNone_of?, decide_eq_true_iff]
  rw [ofDocument]
  dsimp only
  rw [if_neg (mt (Declaration.isEmpty_ofDocument catalog d).1 h), hunknown]
  rfl

/-- The first of the unknown names is reported as the failure. -/
theorem ofDocument_of_unknown {n : Token} {more : List Token}
    (h : d.unknown catalog = n :: more) :
    ofDocument catalog d = .error (.undefinedSymbol n.text (documentReports catalog d)) := by
  have hsome : ¬ (d.expr = none ∧ d.rules = []) := by
    rintro ⟨hexpr, hrules⟩
    rw [Document.unknown, Document.firstBodies, hexpr, hrules] at h
    cases h
  rw [ofDocument_eq hsome, h]

theorem ofDocument_of_invalid (h : d.unknown catalog = [])
    (hinvalid : (d.expr = none ∧ d.rules = []) ∨ ¬ d.ruleNames.Nodup) :
    ∃ reports, ofDocument catalog d = .error (.invalidGrammar reports) := by
  by_cases hempty : d.expr = none ∧ d.rules = []
  · rw [ofDocument]
    dsimp only
    rw [if_pos ((Declaration.isEmpty_ofDocument catalog d).2 hempty)]
    exact ⟨_, rfl⟩
  · rw [ofDocument_eq hempty, h]
    dsimp only
    rw [if_pos]
    · exact ⟨_, rfl⟩
    · rw [← Bool.not_eq_false, anyError_reports h]
      exact hinvalid.resolve_left hempty

theorem ofDocument_of_valid (h : d.unknown catalog = []) (hsome : ¬ (d.expr = none ∧ d.rules = []))
    (hnodup : d.ruleNames.Nodup) :
    ofDocument catalog d = .ok (ofDeclarations catalog d, documentReports catalog d) := by
  rw [ofDocument_eq hsome, h]
  dsimp only
  rw [if_neg]
  rw [Bool.not_eq_true]
  exact (anyError_reports h).2 hnodup

theorem exists_ofDocument_iff :
    (∃ rules reports, ofDocument catalog d = .ok (rules, reports)) ↔
      ¬ (d.expr = none ∧ d.rules = []) ∧ d.ruleNames.Nodup ∧ d.unknown catalog = [] := by
  constructor
  · rintro ⟨rules, reports, hok⟩
    have hknown : d.unknown catalog = [] := by
      cases hunknown : d.unknown catalog with
      | nil => rfl
      | cons n more =>
        rw [ofDocument_of_unknown hunknown] at hok
        cases hok
    by_contra hinvalid
    obtain ⟨reports', herror⟩ := ofDocument_of_invalid hknown
      (or_iff_not_imp_left.2 fun hsome hnodup => hinvalid ⟨hsome, hnodup, hknown⟩)
    rw [herror] at hok
    cases hok
  · rintro ⟨hsome, hnodup, hknown⟩
    exact ⟨_, _, ofDocument_of_valid hknown hsome hnodup⟩

end Rules

/-! ## Sources without syntax errors -/

namespace Source

/-- The names in the bodies that count stand among the tokens, in order. -/
theorem Document.names_sublist {d : Document} {ts : List Token}
    (h : d.script = .empty ∨ d.script.Derives ts) :
    (d.firstBodies.flatMap Term.names).Sublist ts := by
  have hrules (rs : List RuleTerm) : (rs.map (·.body)).flatMap Term.names =
      (rs.map RuleTerm.phrase).flatMap (·.2.names) := by
    rw [List.flatMap_map, List.flatMap_map]
    exact List.flatMap_congr fun r _ => (Term.names_phrase r.body).symm
  obtain ⟨range, expr, rules⟩ := d
  rw [Document.firstBodies, List.flatMap_append]
  dsimp only
  rcases h with h | h
  · obtain ⟨hexpr, hnone⟩ := Script.mk.inj h
    obtain rfl := Option.map_eq_none_iff.1 hexpr
    obtain rfl := List.map_eq_nil_iff.1 hnone
    exact List.nil_sublist ts
  · generalize hscript : Document.script _ = script at h
    cases h with
    | rules _ hrs =>
      obtain ⟨hexpr, rfl⟩ := Script.mk.inj hscript
      obtain rfl := Option.map_eq_none_iff.1 hexpr
      rw [hrules]
      exact (((firstRules_sublist rules).map _).flatMap _).trans hrs.names_sublist
    | expr _ hp =>
      obtain ⟨hexpr, hnone⟩ := Script.mk.inj hscript
      obtain rfl := List.map_eq_nil_iff.1 hnone
      obtain ⟨body, rfl, rfl⟩ := Option.map_eq_some_iff.1 hexpr
      show (body.names ++ [] ++ []).Sublist ts
      rw [List.append_nil, List.append_nil, ← Term.names_phrase, Phrase.names_of_derives hp]
      exact List.filter_sublist

/-- A script has no rules beside an expression. -/
theorem Document.rules_eq_nil {d : Document} {ts : List Token} {body : Term}
    (h : d.script = .empty ∨ d.script.Derives ts) (hexpr : d.expr = some body) : d.rules = [] := by
  obtain ⟨range, expr, rules⟩ := d
  dsimp only at hexpr
  subst hexpr
  rcases h with h | h
  · cases (Script.mk.inj h).1
  · generalize hscript : Document.script _ = script at h
    cases h with
    | rules => cases (Script.mk.inj hscript).1
    | expr => exact List.map_eq_nil_iff.1 (Script.mk.inj hscript).2

/-- A name has its rule as its meaning, where no rule name is repeated. -/
theorem Document.meaning?_of_getElem? (catalog : Catalog) {d : Document} (h : d.ruleNames.Nodup)
    {i : Nat} {r : RuleTerm} (hr : d.rules[i]? = some r) :
    d.meaning? catalog r.name.text = some (.rule i) := by
  have hname : d.ruleNames[i]? = some r.name.text := by
    rw [ruleNames, List.getElem?_map, hr, Option.map_some]
  obtain ⟨hi, hname⟩ := List.getElem?_eq_some_iff.1 hname
  have hindex : d.ruleNames.idxOf? r.name.text = some i :=
    List.idxOf?_eq_some_iff.2 ⟨hi, hname, fun j hj heq =>
      Nat.ne_of_lt hj (h.getElem_inj_iff.1 (heq.trans hname.symm))⟩
  rw [meaning?, hindex, Option.map_some, Option.some_or]

/-- All names in bodies are known exactly if those in bodies that count are, where no rule name is
    repeated. -/
theorem Document.unknown_eq_nil_iff {catalog : Catalog} {d : Document} (h : d.ruleNames.Nodup) :
    d.unknown catalog = [] ↔ ∀ body ∈ d.bodies, ∀ n ∈ body.names, d.Knows catalog n.text := by
  rw [unknown, List.filter_eq_nil_iff, firstBodies, firstRules_of_nodup h]
  simp only [decide_eq_true_eq, not_not, List.mem_flatMap, forall_exists_index, and_imp]
  exact ⟨fun hall body hbody n hn => hall n body hbody hn,
    fun hall n body hbody hn => hall body hbody n hn⟩

end Source

namespace Rules

/-- The rules are those of the document as they stand, or one rule with its expression. -/
theorem rules_of_ofDocument {catalog : Catalog} {d : Document} {rules : Rules}
    {reports : List Diagnostic} {ts : List Token}
    (hscript : d.script = .empty ∨ d.script.Derives ts)
    (h : ofDocument catalog d = .ok (rules, reports)) :
    (d.expr = none → rules.rules = d.rules.map fun r =>
      ⟨r.name.text, r.name.span, r.body.expr (d.meaning? catalog)⟩) ∧
    ∀ body, d.expr = some body → rules.rules =
      [⟨Declaration.implicitName, body.range, body.expr (d.meaning? catalog)⟩] := by
  obtain ⟨hsome, hnodup, hknown⟩ := exists_ofDocument_iff.1 ⟨rules, reports, h⟩
  rw [ofDocument_of_valid hknown hsome hnodup] at h
  obtain ⟨rfl, -⟩ := Prod.mk.inj (Except.ok.inj h)
  constructor
  · intro hexpr
    obtain ⟨hdeclared, hmeaning⟩ := Declaration.ofDocument_of_rules catalog d hexpr hnodup
    rw [ofDeclarations, hmeaning, hdeclared, List.map_map]
    rfl
  · intro body hexpr
    obtain ⟨hdeclared, hmeaning⟩ := Declaration.ofDocument_of_expr catalog d hexpr
      (Document.rules_eq_nil hscript hexpr)
    rw [ofDeclarations, hmeaning, hdeclared]
    rfl

/-- Without syntax errors a source has rules exactly if there is a rule or an expression in it, no
    rule name is repeated, and every name in a body is known. These are then the rules as they
    stand, or one rule with the expression. They refer to each other and to actions of the catalog,
    and where a name is of both it refers to the rule. Otherwise the first unknown name in a body
    that counts is the failure, with a report on every one of them, and without such names the
    source is invalid. -/
theorem ofDocument_exact {source : String} {limit : Nat} {tree : Source.Tree}
    (h : parse source limit = .ok (tree, [])) (catalog : Catalog) :
    ((∃ rules reports, ofDocument catalog tree.document = .ok (rules, reports)) ↔
      (tree.document.rules ≠ [] ∨ tree.document.expr.isSome) ∧
        tree.document.ruleNames.Nodup ∧
        ∀ body ∈ tree.document.bodies, ∀ n ∈ body.names, tree.document.Knows catalog n.text) ∧
    (∀ rules reports, ofDocument catalog tree.document = .ok (rules, reports) →
      (tree.document.expr = none → rules.rules = tree.document.rules.map fun r =>
        ⟨r.name.text, r.name.span, r.body.expr (tree.document.meaning? catalog)⟩) ∧
      (∀ body, tree.document.expr = some body → rules.rules =
        [⟨Declaration.implicitName, body.range,
          body.expr (tree.document.meaning? catalog)⟩]) ∧
      rules.RefsInRange ∧ (∀ t ∈ rules.actions, t < catalog.size) ∧
      ∀ i r, tree.document.rules[i]? = some r →
        tree.document.meaning? catalog r.name.text = some (.rule i)) ∧
    (∀ n more, tree.document.unknown catalog = n :: more →
      ∃ reports, ofDocument catalog tree.document = .error (.undefinedSymbol n.text reports) ∧
        reports.filter (·.kind == .undefinedSymbol) =
          (n :: more).map fun n => Diagnostic.about .undefinedSymbol n.span n.text) ∧
    (tree.document.unknown catalog).Pairwise (fun t u => t.span.stop ≤ u.span.start) ∧
    (tree.document.unknown catalog = [] →
      (∀ rules reports, ofDocument catalog tree.document ≠ .ok (rules, reports)) →
      ∃ reports, ofDocument catalog tree.document = .error (.invalidGrammar reports)) := by
  have hscript := (document_of_parse h rfl).2
  generalize tree.document = d at hscript
  refine ⟨?_, fun rules reports hrules => ?_, fun n more hunknown => ?_, ?_, fun hknown hne => ?_⟩
  · rw [exists_ofDocument_iff]
    refine and_congr ?_ (and_congr_right fun hnodup => Document.unknown_eq_nil_iff hnodup)
    rw [not_and_or, or_comm, ne_eq, Option.isSome_iff_ne_none]
  · obtain ⟨-, hnodup, -⟩ := exists_ofDocument_iff.1 ⟨rules, reports, hrules⟩
    obtain ⟨hrefs, hactions⟩ := ofDocument_scope hrules
    obtain ⟨hwritten, hbare⟩ := rules_of_ofDocument hscript hrules
    exact ⟨hwritten, hbare, hrefs, hactions,
      fun i r hr => Document.meaning?_of_getElem? catalog hnodup hr⟩
  · exact ⟨_, ofDocument_of_unknown hunknown, hunknown ▸ filter_reports⟩
  · have hnames := (Document.names_sublist hscript).trans List.filter_sublist
    exact (pairwise_lex source).sublist (List.filter_sublist.trans hnames)
  · refine ofDocument_of_invalid hknown (or_iff_not_imp_left.2 fun hsome hnodup => ?_)
    exact hne _ _ (ofDocument_of_valid hknown hsome hnodup)

/-- A rule with the name of an action, referred to from a group with two branches and from a
    repetition, and a repeated rule beside two unknown names. -/
theorem exists_ofDocument :
    (∃ tree rules reports, parse "s : X (T | X T)* a ; a : X+ | ; X : T? ;" 256 = .ok (tree, []) ∧
      ofDocument twoActions tree.document = .ok (rules, reports) ∧
      rules.rules.map (·.body) =
        [.seq [.rule 2, .repeated (.alt [.terminal 1, .seq [.rule 2, .terminal 1]]) .zeroOrMore,
          .rule 1],
        .alt [.repeated (.rule 2) .oneOrMore, .empty], .repeated (.terminal 1) .optional]) ∧
    ∃ tree reports, parse "s : a q ; a : p ; a : r ;" 256 = .ok (tree, []) ∧
      ofDocument twoActions tree.document = .error (.undefinedSymbol "q" reports) ∧
      (reports.filter (·.kind == .undefinedSymbol)).map (·.span) = [⟨6, 7⟩, ⟨14, 15⟩] := by
  constructor
  · obtain ⟨⟨tree, ds⟩, hparse, hread⟩ := exists_eq_ok_of_map
      (show (parse "s : X (T | X T)* a ; a : X+ | ; X : T? ;" 256).toOption.map (fun x =>
        (x.2, x.1.document.expr.isNone, x.1.document.ruleNames, x.1.document.unknown twoActions,
          x.1.document.rules.map fun r => r.body.expr (x.1.document.meaning? twoActions))) =
        some ([], true, ["s", "a", "X"], [],
          [.seq [.rule 2, .repeated (.alt [.terminal 1, .seq [.rule 2, .terminal 1]]) .zeroOrMore,
            .rule 1],
          .alt [.repeated (.rule 2) .oneOrMore, .empty], .repeated (.terminal 1) .optional]) by
        cbv)
    simp only [Prod.mk.injEq] at hread
    obtain ⟨rfl, hexpr, hnames, hknown, hbodies⟩ := hread
    obtain ⟨hok, hread, -⟩ := ofDocument_exact hparse twoActions
    have hnodup : tree.document.ruleNames.Nodup := hnames ▸ by decide
    have hrules : tree.document.rules ≠ [] := by
      intro hnil
      rw [Document.ruleNames, hnil] at hnames
      cases hnames
    obtain ⟨rules, reports, h⟩ :=
      hok.2 ⟨.inl hrules, hnodup, (Document.unknown_eq_nil_iff hnodup).1 hknown⟩
    refine ⟨tree, rules, reports, hparse, h, ?_⟩
    rw [(hread rules reports h).1 (Option.isNone_iff_eq_none.1 hexpr), List.map_map, ← hbodies]
    rfl
  · obtain ⟨⟨tree, ds⟩, hparse, hread⟩ := exists_eq_ok_of_map
      (show (parse "s : a q ; a : p ; a : r ;" 256).toOption.map (fun x =>
        (x.2, x.1.document.unknown twoActions)) =
        some ([], [⟨.name, "q", ⟨6, 7⟩⟩, ⟨.name, "p", ⟨14, 15⟩⟩]) by cbv)
    obtain ⟨rfl, hunknown⟩ := Prod.mk.inj hread
    obtain ⟨-, -, herror, -⟩ := ofDocument_exact hparse twoActions
    obtain ⟨reports, h, hreports⟩ := herror _ _ hunknown
    refine ⟨tree, reports, hparse, h, ?_⟩
    rw [hreports]
    rfl

end Rules

end FluentGrammar
