import FluentGrammar.Proofs.Source.Completeness
import FluentGrammar.Proofs.Source.Frame
import Mathlib.Data.List.Chain

/-
  Mistakes between rules. A rule may lack its semicolon, or tokens may stand behind it among which
  no rule begins. Each such mistake is reported once and costs no rule (`contents_recovers`): the
  parser ends an expression where the next rule begins, and looks for a rule behind a token that
  begins none. That no report is dropped is a matter of places. A report is dropped only at the
  place of the one before it, and the name of a rule lies between any two of them (`Fresh`).
-/

namespace FluentGrammar.Source

open Report

/-! ## Rules and mistakes -/

/-- A rule as it is written: `rule := name ':' alt ';'`. -/
structure Clause where
  name : Token
  colon : Token
  inside : List Token
  semicolon : Token
  body : Phrase
  kind_name : name.kind = .name
  kind_colon : colon.kind = .colon
  derives : body.Derives .alt inside
  kind_semicolon : semicolon.kind = .semicolon

/-- The tokens of the rule. -/
def Clause.tokens (c : Clause) : List Token :=
  c.name :: c.colon :: (c.inside ++ [c.semicolon])

/-- What may be wrong with a rule. -/
inductive Fault where
  | intact
  /-- The semicolon is missing. -/
  | unended
  /-- Tokens that are not trivia stand behind the semicolon, and no rule begins among them. -/
  | followed (first : Token) (more : List Token)
    (noRule : (first :: more).IsChain fun t u => ¬ (t.kind = .name ∧ u.kind = .colon))

namespace Fault

/-- The tokens of a rule with the fault. -/
def disturb (c : Clause) : Fault → List Token
  | intact => c.tokens
  | unended => c.name :: c.colon :: c.inside
  | followed first more _ => c.tokens ++ first :: more

/-- What is reported of the fault. -/
def kind? : Fault → Option Kind
  | intact => none
  | unended => some .expectedSemicolon
  | followed first _ _ =>
    some (if first.kind = .name then .expectedColon else .expectedRuleName)

end Fault

namespace Parsing

variable {s s' : State} {t : Token} {ts us : List Tree} {n room limit bound steps : Nat}
  {first : Token} {more after rest : List Token}

/-! ## Places -/

/-- The tokens to come are in order and behind the last one attached. -/
structure State.Placed (s : State) : Prop where
  ordered : s.rest.Pairwise fun t u => t.span.stop ≤ u.span.start
  start_lt_stop : ∀ t ∈ s.rest, t.span.start < t.span.stop
  behind : ∀ m ∈ s.lastStop, ∀ t ∈ s.rest, m ≤ t.span.start

/-- The last token attached ends at a place or behind it. -/
structure State.Past (n : Nat) (s : State) : Prop extends s.Placed where
  past : ∃ m ∈ s.lastStop, n ≤ m

/-- The last error is not behind the beginning of a token to come. -/
structure State.Fresh (s : State) : Prop extends s.Placed where
  unreported : ∀ m ∈ s.lastError, ∀ t ∈ s.rest, m ≤ t.span.start

theorem State.Past.le_start (h : s.Past n) (ht : t ∈ s.rest) : n ≤ t.span.start := by
  obtain ⟨m, hm, hle⟩ := h.past
  exact Nat.le_trans hle (h.behind m hm t ht)

theorem State.mem_of_mem_lookAhead (h : t ∈ s.lookAhead.rest) : t ∈ s.rest :=
  (List.dropWhile_sublist _).mem h

/-- Only the tokens to come and the end of the last one attached matter, and a flush or a report
    changes neither. -/
theorem State.Placed.congr (h : s.Placed) (hrest : s'.rest = s.rest)
    (hstop : s'.lastStop = s.lastStop) : s'.Placed where
  ordered := hrest ▸ h.ordered
  start_lt_stop := hrest ▸ h.start_lt_stop
  behind := by
    rw [hrest, hstop]
    exact h.behind

theorem State.Past.congr (h : s.Past n) (hrest : s'.rest = s.rest)
    (hstop : s'.lastStop = s.lastStop) : s'.Past n :=
  ⟨h.toPlaced.congr hrest hstop, hstop ▸ h.past⟩

theorem State.Placed.lookAhead (h : s.Placed) : s.lookAhead.Placed where
  ordered := h.ordered.sublist (List.dropWhile_sublist _)
  start_lt_stop t ht := h.start_lt_stop t (State.mem_of_mem_lookAhead ht)
  behind m hm t ht := h.behind m hm t (State.mem_of_mem_lookAhead ht)

theorem State.Past.lookAhead (h : s.Past n) : s.lookAhead.Past n := ⟨h.toPlaced.lookAhead, h.past⟩

theorem State.Fresh.lookAhead (h : s.Fresh) : s.lookAhead.Fresh :=
  ⟨h.toPlaced.lookAhead, fun m hm t ht =>
    h.unreported m hm t (State.mem_of_mem_lookAhead ht)⟩

theorem State.lastStop_bump (h : s.rest = t :: after) :
    s.bump.2.lastStop = some t.span.stop := by
  rw [State.bump]
  split
  · next u rest hrest =>
    obtain ⟨rfl, rfl⟩ := List.cons.inj (h.symm.trans hrest)
    rfl
  · next hrest =>
    rw [hrest] at h
    cases h

/-- Attaching a token goes past it. -/
theorem State.Placed.bump (h : s.Placed) (hrest : s.rest = t :: after) :
    s.bump.2.Past t.span.stop := by
  have hafter := State.rest_bump_of_cons hrest
  have hlast := State.lastStop_bump hrest
  obtain ⟨hordered, hmore⟩ := List.pairwise_cons.1 (hrest ▸ h.ordered)
  refine ⟨⟨hafter ▸ hmore, fun u hu => ?_, fun m hm u hu => ?_⟩, _, hlast, Nat.le_refl _⟩
  · rw [hafter] at hu
    exact h.start_lt_stop u (hrest ▸ List.mem_cons_of_mem t hu)
  · rw [hlast] at hm
    obtain rfl := Option.some.inj hm
    exact hordered u (hafter ▸ hu)

/-- What is past stays past. -/
theorem respects_past (n : Nat) : Respects fun s _ s' => s.Past n → s'.Past n where
  refl _ h := h
  trans h h' hs := h' (h hs)
  node _ h := h
  lookAhead _ h := h.lookAhead
  flush _ h := h.congr rfl rfl
  bump s h := by
    cases hrest : s.rest with
    | nil =>
      rw [State.bump_of_nil hrest]
      exact h.congr rfl rfl
    | cons t after =>
      obtain ⟨hplaced, m, hm, hle⟩ := h.toPlaced.bump hrest
      have ht : t ∈ s.rest := hrest ▸ List.mem_cons_self
      refine ⟨hplaced, m, hm, ?_⟩
      exact ((h.le_start ht).trans (h.start_lt_stop t ht).le).trans hle
  report _ h _ hs := (h hs).congr rfl rfl

/-- The token that a rule begins with is past when its body is read. -/
theorem past_of_alt (hs : s.Placed) (hrest : s.rest = t :: after)
    {colon : List Tree} {s₁ : State}
    (heat : (s.flush.2.bump.2.eat .colon).getD ([], s.flush.2.bump.2.lookAhead) = (colon, s₁))
    (hok : alt room steps s₁ = .ok (ts, s')) : s'.Past t.span.stop := by
  have hflush : s.flush.2.Placed := hs.congr rfl rfl
  have hpast := respects_past t.span.stop
  have hcolon := hpast.colon _ (hflush.bump hrest)
  rw [heat] at hcolon
  exact (hpast.keeps steps).alt hok hcolon

theorem past_of_rule (hs : s.Placed) (hrest : s.rest = t :: after)
    (hok : rule room steps s = .ok (ts, s')) : s'.Past t.span.stop := by
  cases RuleCall.of_eq_ok hok with
  | ended heat hbody hsemicolon =>
    have hpast := past_of_alt hs hrest heat hbody
    exact (respects_past _).eat hsemicolon hpast
  | unended heat hbody =>
    have hpast := past_of_alt hs hrest heat hbody
    exact hpast.lookAhead.congr rfl rfl

/-! ## Reports -/

theorem State.diagnostics_report {offset : Nat} (h : s.lastError ≠ some offset) (d : Diagnostic) :
    (s.report offset d).diagnostics = s.diagnostics ++ [d] :=
  if_neg fun heq => h (beq_iff_eq.1 heq)

theorem State.missing_of_lastStop (h : s.lastStop = some n) (kind : Kind) (started : Span) :
    s.missing kind started =
      s.report n ((Diagnostic.of kind (.empty n)).relatedTo "started here" started) := by
  rw [State.missing, h, Option.getD_some]

/-- The run gives something with the property, unless it runs out of steps. -/
inductive Recovers (P : List Tree → State → Prop) : Result → Prop
  | outOfSteps : Recovers P (.error .outOfSteps)
  | ok {ts : List Tree} {s' : State} : P ts s' → Recovers P (.ok (ts, s'))

theorem Recovers.bind {P Q : List Tree → State → Prop} {x : Result}
    {k : List Tree × State → Result} (h : Recovers P x)
    (hk : ∀ ts s', P ts s' → Recovers Q (k (ts, s'))) : Recovers Q (x >>= k) := by
  cases h with
  | outOfSteps => exact .outOfSteps
  | ok h => exact hk _ _ h

theorem Recovers.imp {P Q : List Tree → State → Prop} {x : Result} (h : Recovers P x)
    (hpq : ∀ ts s', P ts s' → Q ts s') : Recovers Q x := by
  cases h with
  | outOfSteps => exact .outOfSteps
  | ok h => exact .ok (hpq _ _ h)

/-- What reads tokens for which there is room. -/
theorem Outcome.recovers {Reading : List Tree → Prop} {depth : Nat}
    {reported : Option Nat × List Diagnostic} {x : Result}
    (h : Outcome Reading room depth reported rest x) (hroom : depth ≤ room) :
    Recovers (fun ts s' => x = .ok (ts, s') ∧ Reading ts ∧ s'.input = rest ∧
      s'.reported = reported) x := by
  cases h with
  | outOfSteps => exact .outOfSteps
  | tooDeep hdeep => exact absurd hdeep (Nat.not_lt.2 hroom)
  | read _ hreading hinput hreported => exact .ok ⟨rfl, hreading, hinput, hreported⟩

/-- From the state on rules were read and mistakes reported, with `rest` to come. -/
structure Recovery (s : State) (rules : List (Token × Phrase)) (kinds : List Kind)
    (rest : List Token) (ts : List Tree) (s' : State) : Prop where
  reads : ReadsScript ts ⟨none, rules⟩
  input : s'.input = rest
  kinds : s'.diagnostics.map (·.kind) = s.diagnostics.map (·.kind) ++ kinds
  fresh : s'.Fresh

theorem Recovery.of_lookAhead {rules : List (Token × Phrase)} {kinds : List Kind}
    (h : Recovery s.lookAhead rules kinds rest ts s') : Recovery s rules kinds rest ts s' :=
  ⟨h.reads, h.input, h.kinds, h.fresh⟩

theorem Recovery.append {s'' : State} {rules others : List (Token × Phrase)}
    {kinds kinds' : List Kind} {rest' : List Token} (h : Recovery s rules kinds rest ts s')
    (h' : Recovery s' others kinds' rest' us s'') :
    Recovery s (rules ++ others) (kinds ++ kinds') rest' (ts ++ us) s'' where
  reads := ⟨h.reads.expr.append h'.reads.expr, h.reads.rules.append h'.reads.rules⟩
  input := h'.input
  kinds := by rw [h'.kinds, h.kinds, List.append_assoc]
  fresh := h'.fresh

/-! ## Single mistakes -/

/-- The source ends or a rule begins. -/
def RulesFollow (rest : List Token) : Prop := rest = [] ∨ startsRule rest = true

theorem RulesFollow.endsAlt (h : RulesFollow rest) : EndsAlt rest := by
  rcases h with rfl | h
  · exact .inl nofun
  · exact .inr h

theorem RulesFollow.kind_eq (h : RulesFollow rest) : ∀ t ∈ rest.head?, t.kind = .name := by
  rcases h with rfl | h
  · nofun
  · exact kind_of_startsRule h

/-- A rule without mistakes. Errors before it lie before whatever comes behind it. -/
theorem rule_intact (c : Clause) (hs : s.Fresh) (hready : s.Ready)
    (hinput : s.input = c.tokens ++ rest) (hroom : c.body.depth ≤ room) :
    Recovers (fun ts s' => Recovery s [(c.name, c.body)] [] rest ts s' ∧
      ∀ m ∈ s'.lastError, ∀ t ∈ s'.rest, m < t.span.start) (rule room steps s) := by
  have hinput' : s.input = c.name :: c.colon :: (c.inside ++ c.semicolon :: rest) := by
    rw [hinput, Clause.tokens]
    simp only [List.cons_append, List.append_assoc, List.nil_append]
  obtain ⟨after, hrest, -⟩ := hready.rest_of_input hinput'
  have hname : c.name ∈ s.rest := hrest ▸ List.mem_cons_self
  have hrule : Recovers _ (rule room steps s) := (rule_complete c.kind_name c.kind_colon c.derives
    c.kind_semicolon hready hinput').recovers hroom
  generalize hx : rule room steps s = x at hrule
  cases hrule with
  | outOfSteps => exact .outOfSteps
  | @ok ts s' h =>
    obtain ⟨-, hreads, hinput, hreported⟩ := h
    have hpast := past_of_rule hs.toPlaced hrest hx
    obtain ⟨hlast, hdiagnostics⟩ := Prod.mk.inj hreported
    have hbefore : ∀ m ∈ s'.lastError, ∀ t ∈ s'.rest, m < t.span.start := by
      intro m hm t ht
      rw [hlast] at hm
      calc m ≤ c.name.span.start := hs.unreported m hm _ hname
        _ < c.name.span.stop := hs.start_lt_stop _ hname
        _ ≤ t.span.start := hpast.le_start ht
    refine .ok ⟨⟨hreads, hinput, ?_, hpast.toPlaced, fun m hm t ht => (hbefore m hm t ht).le⟩,
      hbefore⟩
    rw [hdiagnostics, List.append_nil]

/-- What is missing behind a token is reported where nothing was before. -/
theorem missing_recovers (hs : s.Fresh) (ht : t ∈ s.rest) (hpast : s'.Past t.span.stop)
    (hreported : s'.reported = s.reported) (kind : Kind) (started : Span) :
    (s'.missing kind started).Fresh ∧ (s'.missing kind started).diagnostics.map (·.kind) =
      s.diagnostics.map (·.kind) ++ [kind] := by
  obtain ⟨m, hm, hle⟩ := hpast.past
  obtain ⟨hlast, hdiagnostics⟩ := Prod.mk.inj hreported
  have hunreported : s'.lastError ≠ some m := by
    intro heq
    have hbefore : m ≤ t.span.start := hs.unreported m (hlast ▸ heq) t ht
    have hwidth : t.span.start < t.span.stop := hs.start_lt_stop t ht
    omega
  rw [State.missing_of_lastStop hm]
  refine ⟨⟨hpast.toPlaced.congr rfl rfl, fun k hk u hu => ?_⟩, ?_⟩
  · obtain rfl := Option.some.inj hk
    exact hpast.behind _ hm u hu
  · rw [State.diagnostics_report hunreported, List.map_append, hdiagnostics]
    rfl

/-- A rule without its semicolon. -/
theorem rule_unended (c : Clause) (hs : s.Fresh) (hready : s.Ready)
    (hinput : s.input = c.name :: c.colon :: (c.inside ++ rest)) (hrest : RulesFollow rest)
    (hroom : c.body.depth ≤ room) :
    Recovers (Recovery s [(c.name, c.body)] [.expectedSemicolon] rest) (rule room steps s) := by
  have hready' : s.flush.2.Ready := hready
  obtain ⟨after, hafter, -⟩ := hready.rest_of_input hinput
  have hname : c.name ∈ s.rest := hafter ▸ List.mem_cons_self
  rw [← State.input_flush] at hinput
  obtain ⟨htrees, hinput₁⟩ := hready'.bump_of_input hinput
  obtain ⟨ws, s₁, heat, hinput₂, hreported₁⟩ := State.eat_of_input hinput₁ c.kind_colon
  rw [rule]
  dsimp only
  rw [heat, htrees]
  refine (((complete steps).alt c.derives hinput₂ hrest.endsAlt).recovers hroom).bind ?_
  rintro body s₂ ⟨hok, hbody, hinput₃, hreported₂⟩
  have hcolon : (s.flush.2.bump.2.eat .colon).getD ([], s.flush.2.bump.2.lookAhead) =
      (Tree.ofTokens ws, s₁) := by
    rw [heat, Option.getD_some]
  have hpast : s₂.Past c.name.span.stop := past_of_alt hs.toPlaced hafter hcolon hok
  have hreported : s₂.reported = s.reported := by
    rw [hreported₂, hreported₁, State.reported_bump, State.reported_flush]
  have hnone : s₂.eat .semicolon = none := by
    refine State.eat_eq_none fun t ht => ?_
    rw [hinput₃] at ht
    rw [hrest.kind_eq t ht]
    decide
  dsimp only [Option.getD_some]
  rw [hnone]
  have hreads := readsScript_rule c.kind_name hbody s.pending ws []
  rw [show Tree.ofTokens [] = [] from rfl, List.append_nil] at hreads
  obtain ⟨hfresh, hkinds⟩ := missing_recovers hs hname hpast.lookAhead hreported
    .expectedSemicolon _
  exact .ok ⟨hreads, (State.input_lookAhead s₂).trans hinput₃, hkinds, hfresh⟩

/-- No rule begins at tokens among which none does. -/
theorem startsRule_eq_false
    (hnone : (t :: more).IsChain fun t u => ¬ (t.kind = .name ∧ u.kind = .colon))
    (hrest : RulesFollow rest) : startsRule (t :: (more ++ rest)) = false := by
  rw [Bool.eq_false_iff]
  intro hstart
  cases more with
  | nil =>
    cases rest with
    | nil => cases hstart
    | cons u rest =>
      have hcolon := beq_iff_eq.1 (Bool.and_eq_true_iff.1 hstart).2
      have hname := hrest.kind_eq u rfl
      rw [hcolon] at hname
      cases hname
  | cons u more =>
    obtain ⟨hname, hcolon⟩ := Bool.and_eq_true_iff.1 hstart
    exact (List.isChain_cons_cons.1 hnone).1 ⟨beq_iff_eq.1 hname, beq_iff_eq.1 hcolon⟩

/-- A token at which no rule begins is passed over. -/
theorem untilRule_succ (hinput : s.input = t :: after) (hrule : startsRule s.input = false) :
    untilRule (steps + 1) s = (do
      let (others, s') ← untilRule steps s.lookAhead.bump.2
      return (s.lookAhead.bump.1 ++ others, s')) := by
  have hready := s.ready_lookAhead
  have hgo : ¬ (s.lookAhead.rest.isEmpty || s.lookAhead.atRuleStart) = true := by
    rw [Bool.or_eq_true, List.isEmpty_iff, hready.rest_eq_nil_iff, hready.atRuleStart_eq,
      State.input_lookAhead, hrule, hinput]
    simp
  rw [untilRule]
  dsimp only
  rw [if_neg hgo]

/-- Tokens among which no rule begins are passed over. -/
theorem untilRule_passes (steps : Nat)
    (hnone : more.IsChain fun t u => ¬ (t.kind = .name ∧ u.kind = .colon))
    (hrest : RulesFollow rest) (hinput : s.input = more ++ rest) :
    Recovers (fun ts s' => untilRule steps s = .ok (ts, s') ∧ s'.input = rest ∧
      s'.reported = s.reported) (untilRule steps s) := by
  induction steps generalizing s more with
  | zero => exact .outOfSteps
  | succ steps ih =>
    have hready := s.ready_lookAhead
    cases more with
    | nil =>
      have hend : (s.lookAhead.rest.isEmpty || s.lookAhead.atRuleStart) = true := by
        rw [Bool.or_eq_true, List.isEmpty_iff, hready.rest_eq_nil_iff, hready.atRuleStart_eq,
          State.input_lookAhead, hinput]
        exact hrest
      have hstop : untilRule (steps + 1) s = .ok ([], s.lookAhead) := by
        rw [untilRule]
        exact if_pos hend
      rw [hstop]
      exact .ok ⟨rfl, (State.input_lookAhead s).trans hinput, rfl⟩
    | cons t more =>
      have hrule : startsRule s.input = false := by
        rw [hinput]
        exact startsRule_eq_false hnone hrest
      rw [untilRule_succ hinput hrule]
      rw [← State.input_lookAhead] at hinput
      refine (ih hnone.tail (hready.bump_of_input hinput).2).bind ?_
      rintro others s' ⟨hok, hinput', hreported⟩
      rw [State.reported_bump, State.reported_lookAhead] at hreported
      refine .ok ⟨?_, hinput', hreported⟩
      rw [hok]
      rfl

theorem readsScript_error (ts : List Tree) : ReadsScript [.node .error ts] .empty := by
  refine ⟨reads_node_iff.2 fun start => ?_, fun start => rfl⟩
  rw [Tree.term?]
  rfl

/-- The first of the tokens is past then. -/
theorem untilRule_past (hs : s.Placed) (hready : s.Ready)
    (hnone : (first :: more).IsChain fun t u => ¬ (t.kind = .name ∧ u.kind = .colon))
    (hrest : RulesFollow rest) (hinput : s.input = first :: (more ++ rest)) :
    Recovers (fun _ s' => s'.input = rest ∧ s'.reported = s.reported ∧
      s'.Past first.span.stop) (untilRule steps s) := by
  cases steps with
  | zero => exact .outOfSteps
  | succ steps =>
    obtain ⟨after, hafter, -⟩ := hready.rest_of_input hinput
    have hrule : startsRule s.input = false := hinput ▸ startsRule_eq_false hnone hrest
    have hpast : s.lookAhead.bump.2.Past first.span.stop :=
      hs.lookAhead.bump (hready.rest_lookAhead.trans hafter)
    rw [untilRule_succ hinput hrule]
    rw [← State.input_lookAhead] at hinput
    refine (untilRule_passes steps hnone.tail hrest
      (s.ready_lookAhead.bump_of_input hinput).2).bind ?_
    rintro others s' ⟨hok, hinput', hreported⟩
    rw [State.reported_bump, State.reported_lookAhead] at hreported
    exact .ok ⟨hinput', hreported, (respects_past _).untilRule hok hpast⟩

/-- Tokens behind a rule are reported at the first of them, if no error was there. -/
theorem untilRule_recovers (hs : s.Fresh) (hready : s.Ready)
    (hbefore : ∀ m ∈ s.lastError, ∀ t ∈ s.rest, m < t.span.start)
    (hnone : (first :: more).IsChain fun t u => ¬ (t.kind = .name ∧ u.kind = .colon))
    (hrest : RulesFollow rest) (hinput : s.input = first :: (more ++ rest)) (kind : Kind) :
    Recovers (fun ts s' => Recovery s [] [kind] rest
      (Tree.ofTokens s.pending ++ [.node .error ts]) s')
      (untilRule steps (s.errorHere (.of kind)).flush.2) := by
  obtain ⟨after, hafter, -⟩ := hready.rest_of_input hinput
  have hfirst : first ∈ s.rest := hafter ▸ List.mem_cons_self
  have hstart : s.span.start = first.span.start := by rw [State.span, hafter]
  have hunreported : s.lastError ≠ some s.span.start := fun heq =>
    Nat.ne_of_lt (hbefore _ heq first hfirst) hstart
  have hplaced : (s.errorHere (.of kind)).flush.2.Placed := hs.toPlaced.congr rfl rfl
  refine (untilRule_past hplaced hready hnone hrest hinput).imp fun ts s' => ?_
  rintro ⟨hinput', hreported, hpast⟩
  obtain ⟨hlast, hdiagnostics⟩ := Prod.mk.inj hreported
  refine ⟨?_, hinput', ?_, hpast.toPlaced, fun m hm t ht => ?_⟩
  · have hpending := readsScript_ofTokens s.pending
    have herror := readsScript_error ts
    exact ⟨hpending.expr.append herror.expr, hpending.rules.append herror.rules⟩
  · have hreport : s'.diagnostics = s.diagnostics ++ [Diagnostic.of kind s.span] :=
      hdiagnostics.trans (State.diagnostics_report hunreported _)
    rw [hreport, List.map_append]
    rfl
  · rw [hlast] at hm
    obtain rfl := Option.some.inj hm
    rw [hstart]
    exact (hs.start_lt_stop first hfirst).le.trans (hpast.le_start ht)

/-! ## All rules -/

/-- The tokens of the rules with their faults. -/
def disturbed (written : List (Clause × Fault)) : List Token :=
  written.flatMap fun w => w.2.disturb w.1

theorem startsRule_disturbed (w : Clause × Fault) (written : List (Clause × Fault)) :
    startsRule (disturbed (w :: written)) = true := by
  obtain ⟨c, fault⟩ := w
  have hstart (us : List Token) : startsRule (c.name :: c.colon :: us) = true := by
    rw [startsRule, c.kind_name, c.kind_colon]
    rfl
  cases fault <;> exact hstart _

theorem rulesFollow_disturbed (written : List (Clause × Fault)) :
    RulesFollow (disturbed written) := by
  cases written with
  | nil => exact .inl rfl
  | cons w written => exact .inr (startsRule_disturbed w written)

/-- Where tokens stand behind a rule they are passed over, and then the rules behind them are
    read. -/
theorem rules_of_not_startsRule (h : startsRule s.input = false)
    (hinput : s.input = first :: after) :
    rules limit bound (steps + 1) s = (do
      let kind := if first.kind = .name then Kind.expectedColon else Kind.expectedRuleName
      let (inside, s') ← untilRule bound (s.lookAhead.errorHere (.of kind)).flush.2
      let (others, s') ← rules limit bound steps s'
      return (Tree.ofTokens s.lookAhead.pending ++ [.node .error inside] ++ others, s')) := by
  have hready := s.ready_lookAhead
  rw [← State.input_lookAhead] at h hinput
  have hsome : ¬ s.lookAhead.rest.isEmpty = true := by
    rw [List.isEmpty_iff, hready.rest_eq_nil_iff, hinput]
    exact List.cons_ne_nil _ _
  have hrule : ¬ s.lookAhead.atRuleStart = true := by
    rw [hready.atRuleStart_eq, h]
    exact Bool.false_ne_true
  have hname : s.lookAhead.isAt .name = true ↔ first.kind = .name := by
    rw [State.isAt, hready.kind?_eq, hinput, beq_iff_eq]
    exact Option.some_inj
  have hkind : (if s.lookAhead.isAt .name then Kind.expectedColon else .expectedRuleName) =
      if first.kind = .name then .expectedColon else .expectedRuleName := if_congr hname rfl rfl
  rw [rules]
  dsimp only
  rw [if_neg hsome, if_neg hrule, hkind]
  rfl

/-- Tokens behind a rule cost none of the rules that follow. -/
theorem rules_followed {others : List (Token × Phrase)} {kinds : List Kind} (hs : s.Fresh)
    (hbefore : ∀ m ∈ s.lastError, ∀ t ∈ s.rest, m < t.span.start)
    (noRule : (first :: more).IsChain fun t u => ¬ (t.kind = .name ∧ u.kind = .colon))
    (hrest : RulesFollow rest) (hinput : s.input = first :: (more ++ rest))
    (hrules : ∀ steps (s' : State), s'.Fresh → s'.input = rest →
      Recovers (Recovery s' others kinds []) (rules limit bound steps s')) :
    Recovers (Recovery s others ((Fault.followed first more noRule).kind?.toList ++ kinds) [])
      (rules limit bound steps s) := by
  cases steps with
  | zero => exact .outOfSteps
  | succ steps =>
    have hrule : startsRule s.input = false := hinput ▸ startsRule_eq_false noRule hrest
    rw [rules_of_not_startsRule hrule hinput]
    have hinput' := (State.input_lookAhead s).trans hinput
    have hbefore' : ∀ m ∈ s.lookAhead.lastError, ∀ t ∈ s.lookAhead.rest, m < t.span.start :=
      fun m hm t ht => hbefore m hm t (State.mem_of_mem_lookAhead ht)
    refine (untilRule_recovers hs.lookAhead s.ready_lookAhead hbefore' noRule hrest hinput'
      _).bind fun inside s₁ h₁ => ?_
    refine (hrules steps s₁ h₁.fresh h₁.input).bind fun _ s₂ h₂ => ?_
    exact .ok (h₁.append h₂).of_lookAhead

/-- Every rule is read, and every fault reported. -/
theorem rules_recover {written : List (Clause × Fault)} (hs : s.Fresh)
    (hinput : s.input = disturbed written) (hroom : ∀ w ∈ written, w.1.body.depth ≤ limit) :
    Recovers (Recovery s (written.map fun w => (w.1.name, w.1.body))
      (written.filterMap (·.2.kind?)) []) (rules limit bound steps s) := by
  induction written generalizing s steps with
  | nil =>
    cases steps with
    | zero => exact .outOfSteps
    | succ steps =>
      rw [rules_of_input_eq_nil hinput]
      refine .ok ⟨readsScript_ofTokens [], (State.input_lookAhead s).trans hinput, ?_,
        hs.lookAhead⟩
      exact (List.append_nil _).symm
  | cons w written ih =>
    cases steps with
    | zero => exact .outOfSteps
    | succ steps =>
      have hstart : startsRule s.input = true := hinput ▸ startsRule_disturbed w written
      have hfollow := rulesFollow_disturbed written
      obtain ⟨hc, hmore⟩ := List.forall_mem_cons.1 hroom
      have hready := s.ready_lookAhead
      rw [rules_of_startsRule hstart]
      rw [← State.input_lookAhead] at hinput
      obtain ⟨c, fault⟩ := w
      cases fault with
      | intact =>
        refine (rule_intact c hs.lookAhead hready hinput hc).bind ?_
        rintro first s₁ ⟨h₁, -⟩
        refine (ih h₁.fresh h₁.input hmore).bind fun others s₂ h₂ => ?_
        exact .ok (h₁.append h₂).of_lookAhead
      | unended =>
        refine (rule_unended c hs.lookAhead hready hinput hfollow hc).bind ?_
        intro first s₁ h₁
        refine (ih h₁.fresh h₁.input hmore).bind fun others s₂ h₂ => ?_
        exact .ok (h₁.append h₂).of_lookAhead
      | followed first more noRule =>
        have htokens : s.lookAhead.input = c.tokens ++ first :: (more ++ disturbed written) := by
          rw [hinput]
          show (c.tokens ++ first :: more) ++ disturbed written = _
          rw [List.append_assoc, List.cons_append]
        refine (rule_intact c hs.lookAhead hready htokens hc).bind ?_
        rintro rule s₁ ⟨h₁, hbefore⟩
        refine (rules_followed h₁.fresh hbefore noRule hfollow h₁.input fun _ _ hfresh hinput =>
          ih hfresh hinput hmore).bind fun others s₂ h₂ => ?_
        exact .ok (h₁.append h₂).of_lookAhead

theorem contents_recovers (bound : Nat) {written : List (Clause × Fault)} (hs : s.Fresh)
    (hne : written ≠ []) (hinput : s.input = disturbed written)
    (hroom : ∀ w ∈ written, w.1.body.depth ≤ limit) :
    Recovers (Recovery s (written.map fun w => (w.1.name, w.1.body))
      (written.filterMap (·.2.kind?)) []) (contents limit bound s) := by
  have hstart : s.lookAhead.atRuleStart = true := by
    rw [s.ready_lookAhead.atRuleStart_eq, State.input_lookAhead, hinput]
    obtain ⟨w, others, rfl⟩ := List.exists_cons_of_ne_nil hne
    exact startsRule_disturbed w others
  rw [contents]
  dsimp only
  rw [if_pos hstart]
  rw [← State.input_lookAhead] at hinput
  exact (rules_recover hs.lookAhead hinput hroom).imp fun ts s' h => h.of_lookAhead

end Parsing

end FluentGrammar.Source
