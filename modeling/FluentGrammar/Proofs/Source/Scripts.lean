import FluentGrammar.Proofs.Source.Completeness
import FluentGrammar.Proofs.Source.Soundness
import Mathlib

/-
  Which sources are accepted. A source is parsed without a diagnostic exactly when its tokens,
  trivia apart, are a script whose groups nest within the limit, and the document then says what
  the script says. There is one exception: a source without any such token. The grammar sees an
  alternation of one empty branch in it, and the parser, which opens no alternation at the end of
  a source, a document with neither an expression nor rules.
-/

namespace FluentGrammar.Source

open Parsing Report

variable {source : String} {limit : Nat} {tree : Tree} {script : Script}

/-- Every group takes a token. -/
theorem Phrase.Derives.depth_le_length {c : Category} {p : Phrase} {ts : List Token}
    (h : p.Derives c ts) : p.depth ≤ ts.length := by
  induction h with
  | alt _ _ ih₁ ih₂ | item _ _ ih₁ ih₂ =>
    simp only [Phrase.depth, Phrase.depthOfAll, List.length_append] at *
    omega
  | bar _ _ _ ih₁ ih₂ =>
    simp only [Phrase.depth, Phrase.depthOfAll, List.length_cons, List.length_append] at *
    omega
  | noBar => exact Nat.zero_le _
  | noAtom => exact Nat.zero_le _
  | name _ hmarks =>
    rw [hmarks.depth_eq]
    exact Nat.zero_le _
  | group _ _ _ hmarks ih =>
    rw [hmarks.depth_eq, Phrase.depth]
    simp only [List.length_cons, List.length_append]
    omega

/-- A script of no tokens has no groups. -/
theorem Script.Derives.depth_of_nil (h : script.Derives []) : script.depth = 0 := by
  cases h with
  | rules hstart _ => cases hstart
  | expr _ hp =>
    have hdepth := hp.depth_le_length
    simp only [List.length_nil, Nat.le_zero] at hdepth
    simp [Script.depth, Phrase.depthOfAll, hdepth]

/-- The start of a parse has the tokens of the source to come. -/
theorem input_start (source : String) :
    (State.start (lex source) (Text.byteLength source.toList)).input = significant (lex source) :=
  rfl

/-- A source that is parsed without a diagnostic is a script. -/
theorem exists_script_of_parse (h : parse source limit = .ok (tree, [])) :
    ∃ script : Script, script.Derives (significant (lex source)) ∧ script.depth ≤ limit := by
  obtain ⟨body, s, hbody, -, hdiagnostics⟩ := of_parse_eq_ok h
  have hstart : (State.start (lex source) (Text.byteLength source.toList)).lastError = none ↔
      (State.start (lex source) (Text.byteLength source.toList)).diagnostics = [] :=
    ⟨fun _ => rfl, fun _ => rfl⟩
  have hlast : s.lastError = none :=
    (respects_diagnostics.contents hbody hstart).2 hdiagnostics.symm
  exact contents_sound hbody hlast

/-- A source without tokens other than trivia says nothing. -/
theorem parse_of_significant_eq_nil (limit : Nat) (h : significant (lex source) = []) :
    ∃ tree, parse source limit = .ok (tree, []) ∧ tree.document.script = .empty := by
  rw [← input_start] at h
  have hparse := contents_of_input_eq_nil limit (stepsFor (lex source).length) h
  unfold parse
  dsimp only
  rw [hparse]
  exact ⟨_, rfl, (readsScript_ofTokens []).document _⟩

/-- What a script is parsed to. -/
theorem parse_of_script (hscript : script.Derives (significant (lex source)))
    (hne : significant (lex source) ≠ []) :
    (script.depth ≤ limit ∧ ∃ tree, parse source limit = .ok (tree, []) ∧
      tree.document.script = script) ∨
    (limit < script.depth ∧ parse source limit = .error .tooDeep) := by
  have hcontents := contents_complete limit (stepsFor (lex source).length)
    (s := State.start (lex source) (Text.byteLength source.toList)) hscript hne
  have hsteps := parse_ne_outOfSteps source limit
  unfold parse at hsteps ⊢
  dsimp only at hsteps ⊢
  generalize contents limit _ _ = result at hcontents hsteps ⊢
  cases hcontents with
  | outOfSteps => exact absurd rfl hsteps
  | tooDeep hdeep => exact .inr ⟨hdeep, rfl⟩
  | @read body s hroom hreads _ hreported =>
    have hdiagnostics : s.diagnostics = [] := congrArg Prod.snd hreported
    refine .inl ⟨hroom, _, ?_, hreads.document s.lookAhead.pending⟩
    show Except.ok (_, s.diagnostics) = _
    rw [hdiagnostics]
    rfl

/-- The parser reports nothing but errors. -/
theorem respects_severity :
    Respects fun s _ s' => (∀ d ∈ s.diagnostics, d.severity = .error) →
      ∀ d ∈ s'.diagnostics, d.severity = .error where
  refl _ h := h
  trans h h' hs := h' (h hs)
  node _ h := h
  lookAhead _ h := h
  flush _ h := h
  bump s h := by rwa [State.diagnostics_bump]
  report := by
    intro _ s _ d offset hs hd h e he
    replace h := hs h
    change e ∈ (if s.lastError == some offset then s.diagnostics else s.diagnostics ++ [d]) at he
    split at he
    · exact h e he
    · rcases List.mem_append.1 he with he | he
      · exact h e he
      · exact List.mem_singleton.1 he ▸ hd.severity

theorem severity_of_parse {ds : List Diagnostic} (h : parse source limit = .ok (tree, ds)) :
    ∀ d ∈ ds, d.severity = .error := by
  obtain ⟨body, s, hbody, -, rfl⟩ := of_parse_eq_ok h
  exact respects_severity.contents hbody fun _ hd => absurd hd List.not_mem_nil

/-- A source without errors is a script that its document says, or says nothing. -/
theorem document_of_parse {ds : List Diagnostic} (h : parse source limit = .ok (tree, ds))
    (hclean : Diagnostic.anyError ds = false) :
    ds = [] ∧ (tree.document.script = .empty ∨
      tree.document.script.Derives (significant (lex source))) := by
  have hnone : ds = [] := by
    rw [List.eq_nil_iff_forall_not_mem]
    intro d hd
    have hsome : Diagnostic.anyError ds = true :=
      List.any_eq_true.2 ⟨d, hd, by rw [severity_of_parse h d hd]; rfl⟩
    rw [hclean] at hsome
    cases hsome
  subst hnone
  refine ⟨rfl, ?_⟩
  by_cases hne : significant (lex source) = []
  · obtain ⟨tree', htree, hempty⟩ := parse_of_significant_eq_nil limit hne
    obtain ⟨rfl, -⟩ := Prod.mk.inj (Except.ok.inj (h.symm.trans htree))
    exact .inl hempty
  · obtain ⟨script, hscript, hroom⟩ := exists_script_of_parse h
    rcases parse_of_script hscript hne with ⟨-, tree', htree, hread⟩ | ⟨hdeep, -⟩
    · obtain ⟨rfl, -⟩ := Prod.mk.inj (Except.ok.inj (h.symm.trans htree))
      exact .inr (hread ▸ hscript)
    · exact absurd hdeep (Nat.not_lt.2 hroom)

/-- A source is parsed without a diagnostic exactly when its tokens, trivia apart, are a script
    whose groups nest within the limit. The document then says what the script says, unless there
    are no such tokens and the document says nothing. A script whose groups nest deeper is refused
    for that. -/
theorem parse_eq_ok_iff_derives (source : String) (limit : Nat) :
    ((∃ tree, parse source limit = .ok (tree, [])) ↔
      ∃ script : Script, script.Derives (significant (lex source)) ∧ script.depth ≤ limit) ∧
    ∀ script : Script, script.Derives (significant (lex source)) →
      (script.depth ≤ limit → ∃ tree, parse source limit = .ok (tree, []) ∧
        tree.document.script = if significant (lex source) = [] then .empty else script) ∧
      (limit < script.depth → parse source limit = .error .tooDeep) := by
  have hreads : ∀ script : Script, script.Derives (significant (lex source)) →
      (script.depth ≤ limit → ∃ tree, parse source limit = .ok (tree, []) ∧
        tree.document.script = if significant (lex source) = [] then .empty else script) ∧
      (limit < script.depth → parse source limit = .error .tooDeep) := by
    intro script hscript
    by_cases hne : significant (lex source) = []
    · rw [if_pos hne]
      refine ⟨fun _ => parse_of_significant_eq_nil limit hne, fun hdeep => ?_⟩
      rw [hne] at hscript
      rw [hscript.depth_of_nil] at hdeep
      exact absurd hdeep (Nat.not_lt_zero _)
    · rw [if_neg hne]
      rcases parse_of_script hscript hne with ⟨hroom, htree⟩ | ⟨hdeep, herror⟩
      · exact ⟨fun _ => htree, fun hdeep => absurd hdeep (Nat.not_lt.2 hroom)⟩
      · exact ⟨fun hroom => absurd hdeep (Nat.not_lt.2 hroom), fun _ => herror⟩
  refine ⟨⟨fun ⟨tree, h⟩ => exists_script_of_parse h, ?_⟩, hreads⟩
  rintro ⟨script, hscript, hroom⟩
  obtain ⟨tree, htree, -⟩ := (hreads script hscript).1 hroom
  exact ⟨tree, htree⟩

/-- Two rules: one with a group that is repeated twice over, and one with a group in a group. -/
def groupedSource : String := "s : (a b |)*? ; // x\nc : ((s)) ;"

/-- With room for two groups the rules are read as they are written, and with room for one they are
    refused. -/
theorem exists_script_read :
    ∃ script : Script, script.Derives (significant (lex groupedSource)) ∧
      script.rules.map (·.1.text) = ["s", "c"] ∧ script.depth = 2 ∧
      (script.rules.map (·.2))[0]? = some (.choice [.sequence [.quantified .optional
        (.quantified .zeroOrMore (.group (.choice [
          .sequence [.ref ⟨.name, "a", ⟨5, 6⟩⟩, .ref ⟨.name, "b", ⟨7, 8⟩⟩], .sequence []])))]]) ∧
      (∃ tree, parse groupedSource 2 = .ok (tree, []) ∧ tree.document.script = script) ∧
      parse groupedSource 1 = .error .tooDeep := by
  obtain ⟨⟨tree, ds⟩, hparse, hread⟩ := exists_eq_ok_of_map
    (show (parse groupedSource 2).toOption.map (fun x =>
      (x.2, x.1.document.script.rules.map (·.1.text), x.1.document.script.depth,
        (x.1.document.script.rules.map (·.2))[0]?)) =
      some ([], ["s", "c"], 2, some (.choice [.sequence [.quantified .optional
        (.quantified .zeroOrMore (.group (.choice [
          .sequence [.ref ⟨.name, "a", ⟨5, 6⟩⟩, .ref ⟨.name, "b", ⟨7, 8⟩⟩],
          .sequence []])))]])) by cbv)
  simp only [Prod.mk.injEq] at hread
  obtain ⟨rfl, hnames, hdepth, hbody⟩ := hread
  have hlength : (significant (lex groupedSource)).length = 18 := by cbv
  obtain ⟨hok, hscripts⟩ := parse_eq_ok_iff_derives groupedSource 2
  obtain ⟨script, hscript, hroom⟩ := hok.1 ⟨tree, hparse⟩
  obtain ⟨tree', hparse', hdocument⟩ := (hscripts script hscript).1 hroom
  obtain ⟨rfl, -⟩ := Prod.mk.inj (Except.ok.inj (hparse.symm.trans hparse'))
  have hne : significant (lex groupedSource) ≠ [] := by
    intro hnil
    rw [hnil] at hlength
    cases hlength
  rw [if_neg hne] at hdocument
  rw [hdocument] at hnames hdepth hbody
  obtain ⟨-, hscripts'⟩ := parse_eq_ok_iff_derives groupedSource 1
  have hdeep := (hscripts' script hscript).2 (by rw [hdepth]; decide)
  exact ⟨script, hscript, hnames, hdepth, hbody, ⟨tree, hparse, hdocument⟩, hdeep⟩

/-- The alternation of one empty branch is a script of the empty source, but its document has no
    expression. -/
theorem exists_script_not_read :
    ∃ script : Script, script.Derives (significant (lex "")) ∧ script.depth ≤ 256 ∧
      ∃ tree, parse "" 256 = .ok (tree, []) ∧ tree.document.script ≠ script := by
  have hlex : lex "" = [] := by
    rw [lex]
    simp [Lexeme.all, Token.place]
  have hnone : significant (lex "") = [] := by
    rw [hlex]
    rfl
  obtain ⟨tree, htree, hempty⟩ := parse_of_significant_eq_nil 256 hnone
  refine ⟨⟨some (.choice [.sequence []]), []⟩, ?_, Nat.zero_le _, tree, htree, ?_⟩
  · rw [hlex]
    exact .expr rfl (.alt .noAtom .noBar)
  · rw [hempty]
    intro h
    cases h

end FluentGrammar.Source
