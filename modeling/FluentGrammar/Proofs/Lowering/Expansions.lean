import FluentGrammar.Grammar.Flatten
import FluentGrammar.Proofs.Support

/-
  How a rule is expanded. With a continuation for which it has been expanded before, it is found
  again; while it is open it may not be entered once more; else it is entered, and its body is
  expanded with one level less of room (`ExpandRuleCall.of_eq_ok`).
-/

namespace FluentGrammar

namespace Flatten

variable {rules : Rules} {s s' : State} {n next : NonterminalId} {r : RuleId} {room : Nat}

/-- The number of nonterminals so far. -/
def State.count (s : State) : Nat := s.grammar.nonterminals.length

@[simp] theorem count_fresh (rules : Rules) (owner : RuleId) (s : State) :
    (s.fresh rules owner).2.count = s.count + 1 := by
  simp [State.count, State.fresh, Grammar.addNonterminal]

/-- The state in which a rule has just become open. -/
def State.enter (rules : Rules) (r : RuleId) (next : NonterminalId) (s : State) : State :=
  { (s.ruleNonterminal rules r).2 with
    expansions := ((r, next), s.count) :: s.expansions
    active := r :: s.active }

theorem count_enter (rules : Rules) (r : RuleId) (next : NonterminalId) (s : State) :
    (s.enter rules r next).count = s.count + 1 := by
  show (s.ruleNonterminal rules r).2.count = s.count + 1
  unfold State.ruleNonterminal
  split <;> simp [State.count, State.fresh, Grammar.addNonterminal]

/-- The nonterminal of a rule is the next one, and making it records nothing else. -/
theorem ruleNonterminal_eq (rules : Rules) (r : RuleId) (s : State) :
    s.ruleNonterminal rules r = (s.count, (s.ruleNonterminal rules r).2) ∧
      (s.ruleNonterminal rules r).2.expansions = s.expansions ∧
      (s.ruleNonterminal rules r).2.active = s.active := by
  unfold State.ruleNonterminal
  split
  · exact ⟨rfl, rfl, rfl⟩
  · exact ⟨rfl, rfl, rfl⟩

theorem expandRule_of_lookup (h : s.expansions.lookup (r, next) = some n) :
    expandRule rules room r next s = .ok (n, s) := by
  cases room <;> simp [expandRule, h]

theorem expandRule_of_mem (h : s.expansions.lookup (r, next) = none) (hr : r ∈ s.active) :
    expandRule rules room r next s = .error ⟨r⟩ := by
  cases room <;> simp [expandRule, h, hr]

theorem expandRule_of_new (h : s.expansions.lookup (r, next) = none) (hr : r ∉ s.active) :
    expandRule rules (room + 1) r next s = (do
      let (body, s') ← expand rules (expandRule rules room) r (rules.rule r).body next
        (s.enter rules r next)
      return (s.count, { s' with active := s'.active.drop 1 }.produce rules r s.count
        [.nonterminal body])) := by
  obtain ⟨hn, hexpansions, hactive⟩ := ruleNonterminal_eq rules r s
  rw [expandRule, h]
  dsimp only
  rw [if_neg (mt List.contains_iff_mem.1 hr), hn]
  dsimp only
  rw [hexpansions, hactive]
  rfl

/-- The ways in which a rule can get its nonterminal. -/
inductive ExpandRuleCall (rules : Rules) (r : RuleId) (next : NonterminalId) (s : State) :
    Nat → NonterminalId → State → Prop
  | found {room : Nat} {n : NonterminalId} : s.expansions.lookup (r, next) = some n →
      ExpandRuleCall rules r next s room n s
  | entered {room : Nat} {body s₁} : s.expansions.lookup (r, next) = none → r ∉ s.active →
      expand rules (expandRule rules room) r (rules.rule r).body next (s.enter rules r next) =
        .ok (body, s₁) →
      ExpandRuleCall rules r next s (room + 1) s.count
        ({ s₁ with active := s₁.active.drop 1 }.produce rules r s.count [.nonterminal body])

theorem ExpandRuleCall.of_eq_ok (hok : expandRule rules room r next s = .ok (n, s')) :
    ExpandRuleCall rules r next s room n s' := by
  cases hlookup : s.expansions.lookup (r, next) with
  | some m =>
    rw [expandRule_of_lookup hlookup] at hok
    cases hok
    exact .found hlookup
  | none =>
    by_cases hr : r ∈ s.active
    · rw [expandRule_of_mem hlookup hr] at hok
      cases hok
    · cases room with
      | zero => simp [expandRule, hlookup, hr] at hok
      | succ room =>
        rw [expandRule_of_new hlookup hr] at hok
        obtain ⟨⟨body, s₁⟩, hbody, hok⟩ := of_bind_eq_ok hok
        cases hok
        exact .entered hlookup hr hbody

end Flatten

end FluentGrammar
