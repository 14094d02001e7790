import FluentGrammar.Proofs.Source.Phrase

/-
  What the parser makes of a script. Where tokens come that the grammar derives, with something
  behind them that can only follow, the function for their category takes exactly these tokens,
  reports nothing, and attaches trees that read as the phrase; where groups nest deeper than there
  is room it stops as too deep. Both are in `Outcome`. The induction is on the steps.
-/

namespace FluentGrammar.Source.Parsing

open Report

/-! ## Outcomes -/

/-- How a function ends that has to read tokens of some depth with `rest` behind them, unless it
    runs out of steps. `reported` is what has been reported so far. -/
inductive Outcome (Reading : List Tree → Prop) (room depth : Nat)
    (reported : Option Nat × List Diagnostic) (rest : List Token) : Result → Prop
  | outOfSteps : Outcome Reading room depth reported rest (.error .outOfSteps)
  | tooDeep : room < depth → Outcome Reading room depth reported rest (.error .tooDeep)
  | read {ts s'} : depth ≤ room → Reading ts → s'.input = rest → s'.reported = reported →
      Outcome Reading room depth reported rest (.ok (ts, s'))

variable {s s' : State} {ts us : List Tree} {room limit bound steps : Nat}
  {p q : Phrase} {ps : List Phrase} {inside rest : List Token}

/-- One function after the other. -/
theorem Outcome.bind {Reading Reading' : List Tree → Prop} {depth room' depth' : Nat}
    {reported : Option Nat × List Diagnostic} {rest' : List Token} {x : Result}
    {k : List Tree × State → Result} (h : Outcome Reading room depth reported rest x)
    (hdeep : room < depth → room' < depth')
    (hk : ∀ ts s', depth ≤ room → Reading ts → s'.input = rest → s'.reported = reported →
      Outcome Reading' room' depth' reported rest' (k (ts, s'))) :
    Outcome Reading' room' depth' reported rest' (x >>= k) := by
  cases h with
  | outOfSteps => exact .outOfSteps
  | tooDeep h => exact .tooDeep (hdeep h)
  | read hroom hreading hinput hreported => exact hk _ _ hroom hreading hinput hreported

/-! ## What may follow -/

/-- A branch ends before these tokens. -/
def EndsBranch (rest : List Token) : Prop :=
  (∀ t ∈ rest.head?, t.kind.endsBranch = true) ∨ startsRule rest = true

/-- An alternation ends before these tokens. -/
def EndsAlt (rest : List Token) : Prop :=
  (∀ t ∈ rest.head?, t.kind = .semicolon ∨ t.kind = .parenClose) ∨ startsRule rest = true

/-- A rule begins with a name. -/
theorem kind_of_startsRule (h : startsRule rest = true) : ∀ t ∈ rest.head?, t.kind = .name := by
  intro t ht
  obtain ⟨rest, rfl⟩ := List.head?_eq_some_iff.1 ht
  cases rest with
  | nil => cases h
  | cons u rest => exact beq_iff_eq.1 (Bool.and_eq_true_iff.1 h).1

theorem EndsAlt.endsBranch (h : EndsAlt rest) : EndsBranch rest := by
  refine h.imp_left fun hends t ht => ?_
  rcases hends t ht with hk | hk <;> rw [hk] <;> rfl

/-- What comes behind a branch ends branches or is a name. -/
theorem EndsBranch.kind_eq (h : EndsBranch rest) :
    ∀ t ∈ rest.head?, t.kind.endsBranch = true ∨ t.kind = .name :=
  h.elim (fun hends t ht => .inl (hends t ht))
    fun hrule t ht => .inr (kind_of_startsRule hrule t ht)

theorem EndsBranch.kind_ne_colon (h : EndsBranch rest) : ∀ t ∈ rest.head?, t.kind ≠ .colon := by
  intro t ht hk
  have := h.kind_eq t ht
  rw [hk] at this
  rcases this with this | this <;> cases this

theorem EndsBranch.isQuantifier (h : EndsBranch rest) :
    ∀ t ∈ rest.head?, t.kind.isQuantifier = false := by
  intro t ht
  have := h.kind_eq t ht
  revert this
  cases t.kind <;> simp [TokenKind.endsBranch, TokenKind.isQuantifier]

theorem EndsAlt.kind_ne_pipe (h : EndsAlt rest) : ∀ t ∈ rest.head?, t.kind ≠ .pipe := by
  intro t ht hk
  rcases h with hends | hrule
  · rcases hends t ht with h | h <;> cases hk.symm.trans h
  · cases hk.symm.trans (kind_of_startsRule hrule t ht)

theorem endsAlt_cons {t : Token} (ht : t.kind = .semicolon ∨ t.kind = .parenClose)
    (rest : List Token) : EndsAlt (t :: rest) := by
  refine .inl fun u hu => ?_
  obtain rfl : t = u := Option.some.inj hu
  exact ht

/-- A bar or the end of the alternation follows a branch. -/
theorem endsBranch_append (h : Phrase.Derives .branches (.choice ps) inside)
    (hrest : EndsAlt rest) : EndsBranch (inside ++ rest) := by
  cases h with
  | noBar => exact hrest.endsBranch
  | bar hbar _ _ =>
    refine .inl fun t ht => ?_
    obtain rfl := Option.some.inj ht
    rw [hbar]
    rfl

/-- No mark follows an atom. -/
theorem isQuantifier_append (h : Phrase.Derives .branch (.sequence ps) inside)
    (hrest : EndsBranch rest) : ∀ t ∈ (inside ++ rest).head?, t.kind.isQuantifier = false := by
  intro t ht
  rcases h.head?_append t ht with hatom | ht
  · revert hatom
    cases t.kind <;> simp [TokenKind.startsAtom, TokenKind.isQuantifier]
  · exact hrest.isQuantifier t ht

/-! ## Expressions -/

theorem quantifiers_complete (room steps : Nat) {kind : NodeKind} {children : List Tree}
    {marks : List Token} (hmarks : Marked p marks q) (hreads : Reads [.node kind children] [p])
    (hinput : s.input = marks ++ rest) (hrest : ∀ t ∈ rest.head?, t.kind.isQuantifier = false) :
    Outcome (Reads · [q]) room 0 s.reported rest (quantifiers [.node kind children] steps s) := by
  induction steps generalizing s p kind children marks with
  | zero => exact .outOfSteps
  | succ steps ih =>
    have hready := s.ready_lookAhead
    rw [← State.input_lookAhead] at hinput
    rw [quantifiers]
    dsimp only
    cases hmarks with
    | nil =>
      have hnone : ¬ s.lookAhead.kind?.any (·.isQuantifier) = true := by
        intro hany
        obtain ⟨k, hkind, hk⟩ := (Option.any_eq_true _ _).1 hany
        rw [hready.kind?_eq, hinput, List.nil_append] at hkind
        obtain ⟨t, ht, rfl⟩ := Option.map_eq_some_iff.1 hkind
        rw [hrest t ht] at hk
        cases hk
      rw [if_neg hnone]
      exact .read (Nat.zero_le _) hreads hinput rfl
    | cons hmark hmore =>
      next r mark marks =>
      have hany : s.lookAhead.kind?.any (·.isQuantifier) = true := by
        rw [hready.kind?_eq, hinput]
        exact TokenKind.isQuantifier_of_repetition? hmark
      obtain ⟨htrees, hafter⟩ := hready.bump_of_input hinput
      have hnode : Reads [.node .quantifier ([.node kind children] ++ s.lookAhead.bump.1)]
          [.quantified r p] := by
        rw [htrees]
        refine Reads.quantifier (hreads.append (reads_ofTokens _)) ?_
        rw [Tree.markOf?_node s.lookAhead.isTrivia_pending, hmark]
      rw [if_pos hany]
      have hmarked := ih hmore hnode hafter
      rw [State.reported_bump] at hmarked
      exact hmarked

/-- The functions on expressions read what the grammar derives with so many steps. -/
structure Complete (steps : Nat) : Prop where
  alt : ∀ {room s p inside rest}, Phrase.Derives .alt p inside → s.input = inside ++ rest →
    EndsAlt rest →
    Outcome (ReadsScript · ⟨some p, []⟩) room p.depth s.reported rest (alt room steps s)
  branches : ∀ {room s ps inside rest}, Phrase.Derives .branches (.choice ps) inside →
    s.input = inside ++ rest → EndsAlt rest →
    Outcome (Reads · ps) room (Phrase.depthOfAll ps) s.reported rest (branches room steps s)
  branch : ∀ {room s p inside rest}, Phrase.Derives .branch p inside → s.input = inside ++ rest →
    EndsBranch rest → Outcome (Reads · [p]) room p.depth s.reported rest (branch room steps s)
  items : ∀ {room s ps inside rest}, Phrase.Derives .branch (.sequence ps) inside →
    s.input = inside ++ rest → EndsBranch rest →
    Outcome (Reads · ps) room (Phrase.depthOfAll ps) s.reported rest (items room steps s)
  atom : ∀ {room s p inside rest}, Phrase.Derives .atom p inside → s.Ready →
    s.input = inside ++ rest → (∀ t ∈ rest.head?, t.kind.isQuantifier = false) →
    Outcome (Reads · [p]) room p.depth s.reported rest (atom room steps s)
  group : ∀ {room s left p inside right rest}, Phrase.Derives .alt p inside →
    right.kind = .parenClose → s.Ready → s.input = left :: (inside ++ right :: rest) →
    Outcome (fun ts => ∃ children, ts = [.node .group children] ∧ Reads ts [.group p]) room
      (p.depth + 1) s.reported rest (group room steps s)

namespace Complete

variable (h : Complete steps)

include h

theorem alt_succ (hp : Phrase.Derives .alt p inside) (hinput : s.input = inside ++ rest)
    (hrest : EndsAlt rest) :
    Outcome (ReadsScript · ⟨some p, []⟩) room p.depth s.reported rest
      (Parsing.alt room (steps + 1) s) := by
  cases hp with
  | alt hbranch hbranches =>
    rw [List.append_assoc, ← State.input_flush] at hinput
    rw [Parsing.alt]
    dsimp only
    refine (h.branch hbranch hinput (endsBranch_append hbranches hrest)).bind
      (fun hdeep => Nat.lt_of_lt_of_le hdeep (Nat.le_max_left _ _)) ?_
    intro first s₁ hroom₁ hfirst hinput₁ hreported₁
    rw [← hreported₁]
    refine (h.branches hbranches hinput₁ hrest).bind
      (fun hdeep => Nat.lt_of_lt_of_le hdeep (Nat.le_max_right _ _)) ?_
    intro others s₂ hroom₂ hothers hinput₂ hreported₂
    have hbefore := readsScript_ofTokens s.pending
    have hbody := (hfirst.append hothers).alt
    refine .read (Nat.max_le.2 ⟨hroom₁, hroom₂⟩) ⟨?_, ?_⟩ hinput₂ hreported₂
    · exact hbefore.expr.append hbody
    · exact hbefore.rules.append (readsRules_alt _)

theorem branches_succ (hps : Phrase.Derives .branches (.choice ps) inside)
    (hinput : s.input = inside ++ rest) (hrest : EndsAlt rest) :
    Outcome (Reads · ps) room (Phrase.depthOfAll ps) s.reported rest
      (Parsing.branches room (steps + 1) s) := by
  rw [Parsing.branches]
  cases hps with
  | noBar =>
    rw [State.eat_eq_none (hinput ▸ hrest.kind_ne_pipe)]
    exact .read (Nat.zero_le _) (reads_ofTokens []) (by simpa using hinput) rfl
  | bar hbar hbranch hbranches =>
    rw [List.cons_append, List.append_assoc] at hinput
    obtain ⟨ws, s₀, heat, hafter, hreported₀⟩ := State.eat_of_input hinput hbar
    rw [heat, ← hreported₀]
    refine (h.branch hbranch hafter (endsBranch_append hbranches hrest)).bind
      (fun hdeep => Nat.lt_of_lt_of_le hdeep (Nat.le_max_left _ _)) ?_
    intro next s₁ hroom₁ hnext hinput₁ hreported₁
    rw [← hreported₁]
    refine (h.branches hbranches hinput₁ hrest).bind
      (fun hdeep => Nat.lt_of_lt_of_le hdeep (Nat.le_max_right _ _)) ?_
    intro others s₂ hroom₂ hothers hinput₂ hreported₂
    refine .read (Nat.max_le.2 ⟨hroom₁, hroom₂⟩) ?_ hinput₂ hreported₂
    exact ((reads_ofTokens ws).append hnext).append hothers

theorem branch_succ (hp : Phrase.Derives .branch p inside) (hinput : s.input = inside ++ rest)
    (hrest : EndsBranch rest) :
    Outcome (Reads · [p]) room p.depth s.reported rest
      (Parsing.branch room (steps + 1) s) := by
  obtain ⟨ps, rfl⟩ : ∃ ps, p = .sequence ps := by
    cases hp with
    | noAtom => exact ⟨_, rfl⟩
    | item _ _ => exact ⟨_, rfl⟩
  rw [← State.input_flush] at hinput
  rw [Parsing.branch]
  dsimp only
  refine (h.items hp hinput hrest).bind id ?_
  intro items s₁ hroom hitems hinput₁ hreported₁
  exact .read hroom ((reads_ofTokens s.pending).append hitems.branch) hinput₁ hreported₁

theorem items_succ (hps : Phrase.Derives .branch (.sequence ps) inside)
    (hinput : s.input = inside ++ rest) (hrest : EndsBranch rest) :
    Outcome (Reads · ps) room (Phrase.depthOfAll ps) s.reported rest
      (Parsing.items room (steps + 1) s) := by
  have hready := s.ready_lookAhead
  rw [← State.input_lookAhead] at hinput
  rw [Parsing.items]
  dsimp only
  cases hps with
  | noAtom =>
    have hend : ∀ k, s.lookAhead.kind? = some k →
        (k.endsBranch || s.lookAhead.atRuleStart) = true := by
      intro k hkind
      rw [hready.kind?_eq, hinput] at hkind
      obtain ⟨t, ht, rfl⟩ := Option.map_eq_some_iff.1 hkind
      rw [hready.atRuleStart_eq, hinput, Bool.or_eq_true]
      exact hrest.imp_left fun hends => hends t ht
    split
    · exact .read (Nat.zero_le _) (reads_ofTokens []) hinput rfl
    · next k hkind =>
      rw [if_pos (hend k hkind)]
      exact .read (Nat.zero_le _) (reads_ofTokens []) hinput rfl
  | item hatom hitems =>
    next p ps us vs =>
    obtain ⟨t, after, hus, ht⟩ := hatom.exists_startsAtom
    have hkind : s.lookAhead.kind? = some t.kind := by
      rw [hready.kind?_eq, hinput, hus]
      rfl
    have hends : t.kind.endsBranch = false := by
      revert ht
      cases t.kind <;> simp [TokenKind.startsAtom, TokenKind.endsBranch]
    have hrule : s.lookAhead.atRuleStart = false := by
      rw [hready.atRuleStart_eq, hinput]
      refine startsRule_append (by simp [hus]) ?_ hrest.kind_ne_colon
      exact (Phrase.Derives.item hatom hitems).kind_ne_colon
    rw [List.append_assoc] at hinput
    simp only [hkind, hends, hrule, ht, Bool.or_self, Bool.false_eq_true, if_false, if_true]
    refine (h.atom hatom hready hinput (isQuantifier_append hitems hrest)).bind
      (fun hdeep => Nat.lt_of_lt_of_le hdeep (Nat.le_max_left _ _)) ?_
    intro first s₁ hroom₁ hfirst hinput₁ hreported₁
    rw [State.reported_lookAhead] at hreported₁
    rw [State.reported_lookAhead, ← hreported₁]
    refine (h.items hitems hinput₁ hrest).bind
      (fun hdeep => Nat.lt_of_lt_of_le hdeep (Nat.le_max_right _ _)) ?_
    intro others s₂ hroom₂ hothers hinput₂ hreported₂
    exact .read (Nat.max_le.2 ⟨hroom₁, hroom₂⟩) (hfirst.append hothers) hinput₂ hreported₂

theorem atom_succ (hp : Phrase.Derives .atom p inside) (hready : s.Ready)
    (hinput : s.input = inside ++ rest)
    (hrest : ∀ t ∈ rest.head?, t.kind.isQuantifier = false) :
    Outcome (Reads · [p]) room p.depth s.reported rest (Parsing.atom room (steps + 1) s) := by
  have hready' : s.flush.2.Ready := hready
  rw [← State.input_flush] at hinput
  rw [Parsing.atom]
  dsimp only
  cases hp with
  | name hname hmarks =>
    next t marks =>
    have hparen : ¬ s.flush.2.isAt .parenOpen = true := by
      rw [State.isAt, hready'.kind?_eq, hinput]
      simp [hname]
    obtain ⟨htrees, hinput₁⟩ := hready'.bump_of_input hinput
    have href : Reads [.node .ref s.flush.2.bump.1] [.ref t] := by
      rw [htrees, ← List.append_nil (Tree.ofTokens _)]
      exact reads_ref (Tree.tokenOf?_ofTokens [] (by simp [State.flush]) hname)
    rw [if_neg hparen]
    have hmarked := quantifiers_complete room steps hmarks href hinput₁ hrest
    rw [State.reported_bump, State.reported_flush] at hmarked
    refine hmarked.bind nofun ?_
    intro whole s₁ hroom hwhole hinput₂ hreported
    rw [hmarks.depth_eq]
    exact .read (Nat.zero_le _) ((reads_ofTokens s.pending).append hwhole) hinput₂ hreported
  | group hleft hbody hright hmarks =>
    have hparen : s.flush.2.isAt .parenOpen = true := by
      rw [State.isAt, hready'.kind?_eq, hinput]
      simp [hleft]
    rw [List.cons_append, List.append_assoc, List.cons_append] at hinput
    rw [if_pos hparen, hmarks.depth_eq]
    refine (h.group hbody hright hready' hinput).bind id ?_
    rintro inner s₁ hroom ⟨children, rfl, hinner⟩ hinput₁ hreported₁
    rw [← hreported₁]
    refine (quantifiers_complete room steps hmarks hinner hinput₁ hrest).bind nofun ?_
    intro whole s₂ _ hwhole hinput₂ hreported₂
    exact .read hroom ((reads_ofTokens s.pending).append hwhole) hinput₂ hreported₂

theorem group_succ {left right : Token} (hp : Phrase.Derives .alt p inside)
    (hright : right.kind = .parenClose) (hready : s.Ready)
    (hinput : s.input = left :: (inside ++ right :: rest)) :
    Outcome (fun ts => ∃ children, ts = [.node .group children] ∧ Reads ts [.group p]) room
      (p.depth + 1) s.reported rest (Parsing.group room (steps + 1) s) := by
  cases room with
  | zero =>
    rw [Parsing.group]
    exact .tooDeep (Nat.succ_pos _)
  | succ room =>
    rw [Parsing.group]
    dsimp only
    obtain ⟨htrees, hinput₁⟩ := hready.bump_of_input hinput
    rw [← State.reported_bump]
    refine (h.alt hp hinput₁ (endsAlt_cons (.inr hright) rest)).bind Nat.succ_lt_succ ?_
    intro body s₁ hroom hbody hinput₂ hreported₁
    obtain ⟨ws, s₂, heat, hinput₃, hreported₂⟩ := State.eat_of_input hinput₂ hright
    dsimp only
    rw [heat]
    have hparen := reads_ofTokens (s.pending ++ [left])
    rw [← htrees] at hparen
    have hchildren := (hparen.append hbody.expr).append (reads_ofTokens ws)
    exact .read (Nat.succ_le_succ hroom) ⟨_, rfl, hchildren.group⟩ hinput₃
      (hreported₂.trans hreported₁)

end Complete

theorem complete (steps : Nat) : Complete steps := by
  induction steps with
  | zero =>
    constructor <;> intros <;> simp only [alt, branches, branch, items, atom, group]
    all_goals exact .outOfSteps
  | succ steps ih =>
    exact ⟨ih.alt_succ, ih.branches_succ, ih.branch_succ, ih.items_succ, ih.atom_succ,
      ih.group_succ⟩

/-! ## Rules -/

variable {rs : List (Token × Phrase)}

/-- A rule is read off its name and its body. -/
theorem readsScript_rule {name : Token} {body : List Tree} (hname : name.kind = .name)
    (hbody : ReadsScript body ⟨some p, []⟩) (before ws vs : List Token) :
    ReadsScript (Tree.ofTokens before ++ [.node .rule
      (Tree.ofTokens [name] ++ Tree.ofTokens ws ++ body ++ Tree.ofTokens vs)])
      ⟨none, [(name, p)]⟩ := by
  have hchildren :
      Reads (Tree.ofTokens [name] ++ Tree.ofTokens ws ++ body ++ Tree.ofTokens vs) [p] :=
    (((reads_ofTokens _).append (reads_ofTokens ws)).append hbody.expr).append (reads_ofTokens vs)
  have hfound : Tree.tokenOf? .name
      (Tree.ofTokens [name] ++ Tree.ofTokens ws ++ body ++ Tree.ofTokens vs) = some name := by
    rw [List.append_assoc, List.append_assoc]
    exact Tree.tokenOf?_ofTokens _ (List.forall_mem_nil _) hname
  have hbefore := readsScript_ofTokens before
  exact ⟨hbefore.expr.append (reads_rule _), hbefore.rules.append (hchildren.rule hfound)⟩

theorem rule_complete {name colon semicolon : Token} (hname : name.kind = .name)
    (hcolon : colon.kind = .colon) (hp : Phrase.Derives .alt p inside)
    (hsemicolon : semicolon.kind = .semicolon) (hready : s.Ready)
    (hinput : s.input = name :: colon :: (inside ++ semicolon :: rest)) :
    Outcome (ReadsScript · ⟨none, [(name, p)]⟩) room p.depth s.reported rest
      (rule room steps s) := by
  have hready' : s.flush.2.Ready := hready
  rw [← State.input_flush] at hinput
  obtain ⟨htrees, hinput₁⟩ := hready'.bump_of_input hinput
  obtain ⟨ws, s₁, heat, hinput₂, hreported₁⟩ := State.eat_of_input hinput₁ hcolon
  rw [State.reported_bump, State.reported_flush] at hreported₁
  rw [rule]
  dsimp only
  rw [heat, ← hreported₁]
  refine ((complete steps).alt hp hinput₂ (endsAlt_cons (.inl hsemicolon) rest)).bind id ?_
  intro body s₂ hroom hbody hinput₃ hreported₂
  obtain ⟨vs, s₃, heat', hinput₄, hreported₃⟩ := State.eat_of_input hinput₃ hsemicolon
  dsimp only [Option.getD_some]
  rw [heat', htrees]
  exact .read hroom (readsScript_rule hname hbody s.pending ws vs) hinput₄
    (hreported₃.trans hreported₂)

/-- Where a rule begins it is read, and then the rules behind it. -/
theorem rules_of_startsRule (h : startsRule s.input = true) :
    rules limit bound (steps + 1) s = (do
      let (first, s) ← rule limit bound s.lookAhead
      let (others, s) ← rules limit bound steps s
      return (first ++ others, s)) := by
  have hready := s.ready_lookAhead
  have hsome : ¬ s.lookAhead.rest.isEmpty = true := by
    rw [List.isEmpty_iff, hready.rest_eq_nil_iff, State.input_lookAhead]
    intro hnil
    rw [hnil] at h
    cases h
  have hstart : s.lookAhead.atRuleStart = true := by
    rw [hready.atRuleStart_eq, State.input_lookAhead, h]
  rw [rules]
  dsimp only
  rw [if_neg hsome, if_pos hstart]

/-- At the end of the source there are no more rules. -/
theorem rules_of_input_eq_nil (h : s.input = []) :
    rules limit bound (steps + 1) s = .ok ([], s.lookAhead) := by
  rw [← State.input_lookAhead] at h
  rw [rules]
  exact if_pos (List.isEmpty_iff.2 (s.ready_lookAhead.rest_eq_nil_iff.2 h))

theorem rules_complete (hrs : Script.DerivesRules rs s.input) :
    Outcome (ReadsScript · ⟨none, rs⟩) limit (Phrase.depthOfAll (rs.map (·.2))) s.reported []
      (rules limit bound steps s) := by
  induction steps generalizing s rs with
  | zero => exact .outOfSteps
  | succ steps ih =>
    generalize hinput : s.input = input at hrs
    cases hrs with
    | nil =>
      rw [rules_of_input_eq_nil hinput]
      rw [← State.input_lookAhead] at hinput
      exact .read (Nat.zero_le _) (readsScript_ofTokens []) hinput rfl
    | cons hname hcolon hp hsemicolon hmore =>
      rw [rules_of_startsRule (by simp [hinput, startsRule, hname, hcolon])]
      rw [← State.input_lookAhead] at hinput
      refine (rule_complete hname hcolon hp hsemicolon s.ready_lookAhead hinput).bind
        (fun hdeep => Nat.lt_of_lt_of_le hdeep (Nat.le_max_left _ _)) ?_
      intro first s₁ hroom₁ hfirst hinput₁ hreported₁
      rw [← hreported₁]
      refine (ih (hinput₁ ▸ hmore)).bind
        (fun hdeep => Nat.lt_of_lt_of_le hdeep (Nat.le_max_right _ _)) ?_
      intro others s₂ hroom₂ hothers hinput₂ hreported₂
      refine .read (Nat.max_le.2 ⟨hroom₁, hroom₂⟩) ⟨?_, ?_⟩ hinput₂ hreported₂
      · exact hfirst.expr.append hothers.expr
      · exact hfirst.rules.append hothers.rules

theorem leftover_complete (limit : Nat) (hinput : s.input = []) :
    Outcome (· = []) limit 0 s.reported [] (leftover steps s) := by
  cases steps with
  | zero => exact .outOfSteps
  | succ steps =>
    rw [← State.input_lookAhead] at hinput
    rw [leftover]
    dsimp only
    rw [if_pos (List.isEmpty_iff.2 (s.ready_lookAhead.rest_eq_nil_iff.2 hinput))]
    exact .read (Nat.zero_le _) rfl hinput rfl

/-- A source that says nothing has no trees but its trivia. -/
theorem contents_of_input_eq_nil (limit bound : Nat) (hinput : s.input = []) :
    contents limit bound s = .ok ([], s.lookAhead) := by
  have hready := s.ready_lookAhead
  rw [← State.input_lookAhead] at hinput
  rw [contents]
  dsimp only
  rw [hready.atRuleStart_eq, hinput]
  exact if_pos (List.isEmpty_iff.2 (hready.rest_eq_nil_iff.2 hinput))

theorem contents_complete (limit bound : Nat) {script : Script}
    (hscript : script.Derives s.input) (hne : s.input ≠ []) :
    Outcome (ReadsScript · script) limit script.depth s.reported [] (contents limit bound s) := by
  have hready := s.ready_lookAhead
  rw [contents]
  dsimp only
  rw [hready.atRuleStart_eq, State.input_lookAhead]
  have hsome : ¬ s.lookAhead.rest.isEmpty = true := by
    rw [List.isEmpty_iff, hready.rest_eq_nil_iff, State.input_lookAhead]
    exact hne
  generalize hinput : s.input = input at hscript
  cases hscript with
  | rules hstart hrs =>
    rw [if_pos hstart]
    rw [← hinput, ← State.input_lookAhead] at hrs
    exact rules_complete hrs
  | expr hstart hp =>
    rw [if_neg (by simp [hstart]), if_neg hsome]
    rw [← State.input_lookAhead, ← List.append_nil input] at hinput
    refine ((complete bound).alt hp hinput (.inl nofun)).bind
      (fun hdeep => Nat.lt_of_lt_of_le hdeep (Nat.le_max_left _ _)) ?_
    intro body s₁ hroom hbody hinput₁ hreported₁
    rw [← hreported₁]
    refine (leftover_complete limit hinput₁).bind nofun ?_
    rintro others s₂ - rfl hinput₂ hreported₂
    rw [List.append_nil]
    exact .read (Nat.max_le.2 ⟨hroom, Nat.zero_le _⟩) hbody hinput₂ hreported₂

end FluentGrammar.Source.Parsing
