import FluentGrammar.Source.Parser

/-
  What the steps of the parser do to its state. The input of a state are the tokens to come that
  are not trivia; behind trivia (`Ready`) the decisions of the parser depend on the input alone.
-/

namespace FluentGrammar.Source

/-- The tokens that are not trivia. -/
def significant (ts : List Token) : List Token := ts.filter fun t => !t.kind.isTrivia

/-- The tokens begin with a name and a colon. -/
def startsRule : List Token → Bool
  | t :: u :: _ => t.kind == .name && u.kind == .colon
  | _ => false

theorem significant_dropWhile (ts : List Token) :
    significant (ts.dropWhile (·.kind.isTrivia)) = significant ts := by
  induction ts with
  | nil => rfl
  | cons t ts ih =>
    rw [List.dropWhile_cons]
    split
    · next h =>
      rw [ih]
      simp [significant, h]
    · rfl

namespace Parsing.State

open Report

variable {s s' : State} {t : Token} {after : List Token} {kind : TokenKind} {ts : List Tree}

/-! ## The tokens to come -/

@[simp] theorem rest_flush (s : State) : s.flush.2.rest = s.rest := rfl

@[simp] theorem rest_errorHere (s : State) (d : Span → Diagnostic) :
    (s.errorHere d).rest = s.rest := rfl

theorem bump_of_cons (h : s.rest = t :: after) :
    s.bump.1 = Tree.ofTokens (s.pending ++ [t]) ∧ s.bump.2.rest = after ∧
      s.bump.2.pending = [] := by
  rw [bump]
  split
  · next u rest hrest =>
    obtain ⟨rfl, rfl⟩ := List.cons.inj (h.symm.trans hrest)
    exact ⟨rfl, rfl, rfl⟩
  · next hrest =>
    rw [hrest] at h
    cases h

theorem rest_bump_of_cons (h : s.rest = t :: after) : s.bump.2.rest = after :=
  (bump_of_cons h).2.1

theorem bump_of_nil (h : s.rest = []) : s.bump = s.flush := by
  rw [bump]
  split
  · next t rest hrest =>
    rw [hrest] at h
    cases h
  · rfl

theorem rest_ne_nil (h : s.kind? = some kind) : s.rest ≠ [] := by
  intro hnil
  rw [kind?, hnil] at h
  cases h

/-! ## Reports -/

@[simp] theorem lastError_bump (s : State) : s.bump.2.lastError = s.lastError := by
  rw [bump]
  split <;> rfl

@[simp] theorem diagnostics_bump (s : State) : s.bump.2.diagnostics = s.diagnostics := by
  rw [bump]
  split <;> rfl

/-- What has been reported: the place of the last error, and the diagnostics. -/
def reported (s : State) : Option Nat × List Diagnostic := (s.lastError, s.diagnostics)

@[simp] theorem reported_lookAhead (s : State) : s.lookAhead.reported = s.reported := rfl

@[simp] theorem reported_flush (s : State) : s.flush.2.reported = s.reported := rfl

@[simp] theorem reported_bump (s : State) : s.bump.2.reported = s.reported := by
  rw [reported, lastError_bump, diagnostics_bump, reported]

/-! ## Behind trivia -/

/-- What comes next is not trivia. -/
def Ready (s : State) : Prop := ∀ t ∈ s.rest.head?, t.kind.isTrivia = false

/-- The tokens to come that are not trivia. -/
def input (s : State) : List Token := significant s.rest

theorem ready_lookAhead (s : State) : s.lookAhead.Ready := by
  intro t ht
  have hnot := List.head?_dropWhile_not (fun t : Token => t.kind.isTrivia) s.rest
  rw [show s.lookAhead.rest = s.rest.dropWhile (·.kind.isTrivia) from rfl] at ht
  rw [Option.mem_def.1 ht] at hnot
  simpa using hnot

theorem Ready.rest_lookAhead (h : s.Ready) : s.lookAhead.rest = s.rest := by
  show s.rest.dropWhile (·.kind.isTrivia) = s.rest
  cases hrest : s.rest with
  | nil => rfl
  | cons t after =>
    have ht := h t (by rw [hrest]; rfl)
    rw [List.dropWhile_cons_of_neg (by simp [ht])]

@[simp] theorem input_lookAhead (s : State) : s.lookAhead.input = s.input :=
  significant_dropWhile s.rest

@[simp] theorem input_flush (s : State) : s.flush.2.input = s.input := rfl

theorem Ready.input_of_cons (h : s.Ready) (hrest : s.rest = t :: after) :
    s.input = t :: significant after := by
  have ht := h t (by rw [hrest]; rfl)
  rw [input, hrest, significant, List.filter_cons_of_pos (by simp [ht])]
  rfl

/-- The first token of the input is the next token. -/
theorem Ready.rest_of_input (h : s.Ready) {rest : List Token} (hinput : s.input = t :: rest) :
    ∃ after, s.rest = t :: after ∧ significant after = rest := by
  cases hrest : s.rest with
  | nil =>
    rw [input, hrest] at hinput
    cases hinput
  | cons u after =>
    rw [h.input_of_cons hrest] at hinput
    obtain ⟨rfl, rfl⟩ := List.cons.inj hinput
    exact ⟨after, rfl, rfl⟩

theorem Ready.rest_eq_nil_iff (h : s.Ready) : s.rest = [] ↔ s.input = [] := by
  cases hrest : s.rest with
  | nil => simp [input, hrest, significant]
  | cons t after => simp [h.input_of_cons hrest]

theorem Ready.kind?_eq (h : s.Ready) : s.kind? = s.input.head?.map (·.kind) := by
  cases hrest : s.rest with
  | nil => simp [kind?, input, hrest, significant]
  | cons t after => simp [kind?, h.input_of_cons hrest, hrest]

theorem Ready.atRuleStart_eq (h : s.Ready) : s.atRuleStart = startsRule s.input := by
  cases hrest : s.rest with
  | nil => simp [atRuleStart, input, hrest, significant, startsRule]
  | cons t after =>
    have hfind : (after.find? fun u => !u.kind.isTrivia) = (significant after).head? :=
      (List.head?_filter ..).symm
    rw [h.input_of_cons hrest, atRuleStart, hrest]
    simp only [hfind]
    cases significant after with
    | nil => simp [startsRule]
    | cons u rest => simp [startsRule]

/-- Attaching the next token takes it from the input. -/
theorem Ready.bump_of_input (h : s.Ready) {rest : List Token} (hinput : s.input = t :: rest) :
    s.bump.1 = Tree.ofTokens (s.pending ++ [t]) ∧ s.bump.2.input = rest := by
  obtain ⟨after, hrest, rfl⟩ := h.rest_of_input hinput
  obtain ⟨htrees, hafter, -⟩ := bump_of_cons hrest
  exact ⟨htrees, by rw [input, hafter]⟩

/-- The next token is attached behind the trivia that waits. -/
theorem Ready.exists_bump (h : s.Ready) (hkind : s.kind? = some kind) :
    ∃ t, t.kind = kind ∧ s.bump.1 = Tree.ofTokens (s.pending ++ [t]) ∧
      s.input = t :: s.bump.2.input := by
  rw [h.kind?_eq] at hkind
  obtain ⟨t, ht, rfl⟩ := Option.map_eq_some_iff.1 hkind
  obtain ⟨rest, hinput⟩ := List.head?_eq_some_iff.1 ht
  obtain ⟨htrees, rfl⟩ := h.bump_of_input hinput
  exact ⟨t, rfl, htrees, hinput⟩

theorem eat_eq_some (h : s.eat kind = some (ts, s')) :
    s.lookAhead.isAt kind = true ∧ ts = s.lookAhead.bump.1 ∧ s' = s.lookAhead.bump.2 := by
  rw [eat] at h
  split at h
  · next hkind =>
    obtain ⟨rfl, rfl⟩ := Prod.mk.inj (Option.some.inj h)
    exact ⟨hkind, rfl, rfl⟩
  · cases h

/-- A token that is taken was the first of the input. -/
theorem input_of_eat (h : s.eat kind = some (ts, s')) :
    ∃ t, t.kind = kind ∧ s.input = t :: s'.input := by
  obtain ⟨hat, -, rfl⟩ := eat_eq_some h
  obtain ⟨t, ht, -, hinput⟩ := s.ready_lookAhead.exists_bump (beq_iff_eq.1 hat)
  exact ⟨t, ht, by rw [← input_lookAhead, hinput]⟩

/-- The first token of the input is taken if it has the class. -/
theorem eat_of_input {rest : List Token} (hinput : s.input = t :: rest) (ht : t.kind = kind) :
    ∃ ws s', s.eat kind = some (Tree.ofTokens ws, s') ∧ s'.input = rest ∧
      s'.reported = s.reported := by
  rw [← input_lookAhead] at hinput
  have hkind : s.lookAhead.kind? = some kind := by
    rw [s.ready_lookAhead.kind?_eq, hinput, ← ht]
    rfl
  obtain ⟨htrees, hrest⟩ := s.ready_lookAhead.bump_of_input hinput
  refine ⟨s.lookAhead.pending ++ [t], s.lookAhead.bump.2, ?_, hrest, by simp⟩
  rw [eat, ← htrees]
  exact if_pos (beq_iff_eq.2 hkind)

/-- Nothing is taken when the input begins otherwise. -/
theorem eat_eq_none (h : ∀ t ∈ s.input.head?, t.kind ≠ kind) : s.eat kind = none := by
  rw [← input_lookAhead] at h
  rw [eat]
  refine if_neg ?_
  intro hat
  obtain ⟨t, ht, -, hinput⟩ := s.ready_lookAhead.exists_bump (beq_iff_eq.1 hat)
  exact h t (by rw [hinput]; rfl) ht

theorem isAt_iff : s.isAt kind = true ↔ ∃ t after, s.rest = t :: after ∧ t.kind = kind := by
  rw [isAt, kind?]
  cases s.rest with
  | nil => simp
  | cons t after => simp

end Parsing.State

end FluentGrammar.Source
