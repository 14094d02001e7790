import FluentGrammar.Proofs.Lowering.Scope
import Mathlib.Logic.Relation

/-
  References and their positions. A reference is in tail position when nothing is left to do behind
  it in the body it stands in: it is not repeated, and only empty expressions follow it. A used rule
  nests in itself when a chain of references leads from it back to it and not all of them are in
  tail position.
-/

namespace FluentGrammar

namespace Expr

mutual

/-- The empty expression, or a sequence of such expressions. -/
def isNothing : Expr → Bool
  | empty => true
  | seq items => allNothing items
  | terminal _ | rule _ | alt _ | repeated _ _ => false

/-- All of the expressions are empty. -/
def allNothing : List Expr → Bool
  | [] => true
  | e :: es => isNothing e && allNothing es

end

/-- The expression has a reference to rule `r`. It is in tail position if it is not inside `*` or
    `+` and only empty expressions follow it in all the sequences around it. -/
inductive RefersTo (r : RuleId) : Expr → (tail : Bool) → Prop
  | rule : RefersTo r (.rule r) true
  | here {e es tail} : RefersTo r e tail → RefersTo r (.seq (e :: es)) (tail && allNothing es)
  | there {e es tail} : RefersTo r (.seq es) tail → RefersTo r (.seq (e :: es)) tail
  | alt {b bs tail} : b ∈ bs → RefersTo r b tail → RefersTo r (.alt bs) tail
  | loop {e repetition tail} : repetition ≠ .optional → RefersTo r e tail →
      RefersTo r (.repeated e repetition) false
  | optional {e tail} : RefersTo r e tail → RefersTo r (.repeated e .optional) tail

variable {r : RuleId} {e : Expr} {es : List Expr} {tail : Bool}

theorem RefersTo.mem_refs (h : e.RefersTo r tail) : r ∈ e.refs := by
  induction h with
  | rule => exact List.mem_singleton_self r
  | here _ ih => exact mem_refsOfAll.2 ⟨_, List.mem_cons_self, ih⟩
  | there _ ih =>
    obtain ⟨d, hd, hr⟩ := mem_refsOfAll.1 ih
    exact mem_refsOfAll.2 ⟨d, List.mem_cons_of_mem _ hd, hr⟩
  | alt hb _ ih => exact mem_refsOfAll.2 ⟨_, hb, ih⟩
  | loop _ _ ih => exact ih
  | optional _ ih => exact ih

mutual

theorem exists_refersTo (e : Expr) (hr : r ∈ e.refs) : ∃ tail, e.RefersTo r tail := by
  match e with
  | .empty | .terminal _ => exact absurd hr List.not_mem_nil
  | .rule q =>
    obtain rfl := List.mem_singleton.1 hr
    exact ⟨true, .rule⟩
  | .seq items => exact (exists_refersTo_of_all items hr).1
  | .alt bs =>
    obtain ⟨b, hb, tail, h⟩ := (exists_refersTo_of_all bs hr).2
    exact ⟨tail, .alt hb h⟩
  | .repeated inner repetition =>
    obtain ⟨tail, h⟩ := exists_refersTo inner hr
    by_cases hloop : repetition = .optional
    · exact ⟨tail, hloop ▸ .optional h⟩
    · exact ⟨false, .loop hloop h⟩

theorem exists_refersTo_of_all (es : List Expr) (hr : r ∈ refsOfAll es) :
    (∃ tail, (seq es).RefersTo r tail) ∧ ∃ e ∈ es, ∃ tail, e.RefersTo r tail := by
  match es with
  | [] => exact absurd hr List.not_mem_nil
  | e :: es =>
    rcases List.mem_append.1 hr with hr | hr
    · obtain ⟨tail, h⟩ := exists_refersTo e hr
      exact ⟨⟨_, .here h⟩, e, List.mem_cons_self, tail, h⟩
    · obtain ⟨⟨tail, h⟩, d, hd, h'⟩ := exists_refersTo_of_all es hr
      exact ⟨⟨tail, .there h⟩, d, List.mem_cons_of_mem _ hd, h'⟩

end

end Expr

namespace Rules

/-- A chain of references from rule `q` to rule `r`, at least one, and whether all of them are in
    tail position. -/
inductive Chain (rules : Rules) (q : RuleId) : RuleId → (tail : Bool) → Prop
  | single {r tail} : (rules.rule q).body.RefersTo r tail → Chain rules q r tail
  | snoc {p r tail tail'} : Chain rules q p tail → (rules.rule p).body.RefersTo r tail' →
      Chain rules q r (tail && tail')

/-- References lead from the start rule to the rule. -/
def Used (rules : Rules) : RuleId → Prop :=
  Relation.ReflTransGen (fun q r => r ∈ rules.refsOf q) start

/-- The rule is used and nests in itself: references lead from it back to it, and not all of them
    are in tail position. -/
def Nests (rules : Rules) (r : RuleId) : Prop := rules.Used r ∧ rules.Chain r r false

variable {rules : Rules} {q r : RuleId} {tail : Bool}

theorem Used.step (h : rules.Used q) (hr : (rules.rule q).body.RefersTo r tail) : rules.Used r :=
  Relation.ReflTransGen.tail h hr.mem_refs

theorem Used.lt_size (hrefs : rules.RefsInRange) (hsize : 0 < rules.size) (h : rules.Used r) :
    r < rules.size := by
  induction h with
  | refl => exact hsize
  | tail _ hr ih => exact (hrefs.within_rule ih).refs _ hr

end Rules

end FluentGrammar
