import FluentGrammar.Proofs.Automaton.First
import FluentGrammar.Proofs.Automaton.ItemSet
import Mathlib.Data.Finset.Option
import Mathlib.Data.Finset.Prod

/-
  The closure of an item set is the least one that has what the set has and what its items derive
  (`has_closure_iff`). The loop keeps a stack of the items that may still derive something new.
  Every item pushed brings a new fact about an item at the front of a production, and there are
  only so many of those, so the steps that the loop is given suffice to empty the stack.
-/

namespace FluentGrammar.Analysis

/-! ## What items derive -/

/-- What the closure of a set has to have. -/
inductive Closes (a : Analysis) (s : ItemSet) : Item → Option TerminalId → Prop
  | base {i o} : s.Has i o → Closes a s i o
  /-- An item derives the productions of the nonterminal that comes next. -/
  | enter {i n after p} : Closes a s i none → a.remaining i = .nonterminal n :: after →
      p ∈ a.byLhs.getD n [] → Closes a s ⟨p, 0⟩ none
  /-- What the symbols behind the nonterminal begin with may follow. -/
  | head {i n after p t} : Closes a s i none → a.remaining i = .nonterminal n :: after →
      p ∈ a.byLhs.getD n [] → t ∈ (a.first.ofSymbols after).1 → Closes a s ⟨p, 0⟩ (some t)
  /-- When nothing needs to stand behind it, what may follow the item may follow. -/
  | pass {i n after p t} : Closes a s i (some t) → a.remaining i = .nonterminal n :: after →
      p ∈ a.byLhs.getD n [] → (a.first.ofSymbols after).2 = true → Closes a s ⟨p, 0⟩ (some t)

variable {a : Analysis} {s s' : ItemSet} {i j : Item} {n : NonterminalId} {p : ProductionId}
  {ts : List TerminalId} {t : TerminalId} {o : Option TerminalId} {after : List Symbol}
  {stack : List Item}

/-- Which items there are does not depend on what may follow them. -/
theorem Closes.none_congr (hs : ∀ j, s.Has j none → s'.Has j none) (h : a.Closes s i none) :
    a.Closes s' i none := by
  generalize ho : Option.none = o at h
  induction h with
  | base h =>
    subst ho
    exact .base (hs _ h)
  | enter _ hr hp ih => exact ho ▸ .enter (ih rfl) hr hp
  | head => cases ho
  | pass => cases ho

/-- The terminals that an item passes on to the productions of the nonterminal next to it. -/
def ahead (a : Analysis) (s : ItemSet) (i : Item) (after : List Symbol) : List TerminalId :=
  if (a.first.ofSymbols after).2 then
    OrderedSet.union (a.first.ofSymbols after).1 (s.lookaheads i)
  else (a.first.ofSymbols after).1

theorem mem_ahead : t ∈ a.ahead s i after ↔ t ∈ (a.first.ofSymbols after).1 ∨
    (a.first.ofSymbols after).2 = true ∧ s.Has i (some t) := by
  rw [ahead]
  split
  · next h => simp [OrderedSet.mem_union, h, ItemSet.Has]
  · next h => simp [h]

/-- The set has what the item derives. -/
def ClosedAt (a : Analysis) (s : ItemSet) (i : Item) : Prop :=
  ∀ n after, a.remaining i = .nonterminal n :: after → ∀ p ∈ a.byLhs.getD n [], ∀ o,
    (∀ t ∈ o, t ∈ a.ahead s i after) → s.Has ⟨p, 0⟩ o

/-- A greater set that knows nothing more about the item is closed at it too. -/
theorem ClosedAt.mono (hle : ∀ j o, s.Has j o → s'.Has j o)
    (heq : ∀ o, s'.Has i o → s.Has i o) (h : a.ClosedAt s i) : a.ClosedAt s' i := by
  intro n after hr p hp o ho
  refine hle _ _ (h n after hr p hp o fun t ht => ?_)
  rcases mem_ahead.1 (ho t ht) with hm | ⟨hm, ht⟩
  · exact mem_ahead.2 (.inl hm)
  · exact mem_ahead.2 (.inr ⟨hm, heq _ ht⟩)

/-- A closed set has all that it has to have. -/
theorem has_of_closes (hle : ∀ j o, s.Has j o → s'.Has j o)
    (hclosed : ∀ j, s'.Has j none → a.ClosedAt s' j) (h : a.Closes s i o) : s'.Has i o := by
  induction h with
  | base h => exact hle _ _ h
  | enter _ hr hp ih => exact hclosed _ ih _ _ hr _ hp none nofun
  | head _ hr hp ht ih =>
    refine hclosed _ ih _ _ hr _ hp _ fun u hu => ?_
    obtain rfl := Option.some.inj hu
    exact mem_ahead.2 (.inl ht)
  | pass _ hr hp hempty ih =>
    refine hclosed _ (ItemSet.has_none_of_has_some ih) _ _ hr _ hp _ fun u hu => ?_
    obtain rfl := Option.some.inj hu
    exact mem_ahead.2 (.inr ⟨hempty, ih⟩)

/-! ## Counting facts -/

open Classical in
/-- How many facts the set has about items at the front of one of `P` productions, with terminals
    below `T`. -/
noncomputable def facts (P T : Nat) (s : ItemSet) : Nat :=
  ((Finset.range P ×ˢ Finset.insertNone (Finset.range T)).filter fun x =>
    s.Has ⟨x.1, 0⟩ x.2).card

theorem facts_le (P T : Nat) (s : ItemSet) : facts P T s ≤ P * (T + 1) := by
  classical
  refine (Finset.card_filter_le _ _).trans ?_
  rw [Finset.card_product, Finset.card_insertNone, Finset.card_range, Finset.card_range]

theorem facts_lt {P T : Nat} (hle : ∀ j o, s.Has j o → s'.Has j o) (hp : p < P)
    (ho : ∀ t ∈ o, t < T) (hnew : ¬s.Has ⟨p, 0⟩ o) (hnew' : s'.Has ⟨p, 0⟩ o) :
    facts P T s < facts P T s' := by
  classical
  refine Finset.card_lt_card ((Finset.ssubset_iff_of_subset ?_).2 ⟨(p, o), ?_, ?_⟩)
  · intro x hx
    rw [Finset.mem_filter] at hx ⊢
    exact ⟨hx.1, hle _ _ hx.2⟩
  · rw [Finset.mem_filter, Finset.mem_product, Finset.mem_insertNone]
    exact ⟨⟨Finset.mem_range.2 hp, fun t ht => Finset.mem_range.2 (ho t ht)⟩, hnew'⟩
  · rw [Finset.mem_filter]
    exact fun h => hnew h.2

/-! ## Deriving -/

/-- Deriving adds what it is told to add and pushes the items about which it adds something. -/
structure Derived (P T : Nat) (ts : List TerminalId) (ps : List ProductionId)
    (x y : ItemSet × List Item) : Prop where
  ordered : y.1.Ordered
  has_iff : ∀ i o, y.1.Has i o ↔ x.1.Has i o ∨ ∃ p ∈ ps, i = ⟨p, 0⟩ ∧ ∀ t ∈ o, t ∈ ts
  stack : x.2 ⊆ y.2
  pushed : ∀ i ∈ y.2, i ∈ x.2 ∨ y.1.Has i none
  kept : ∀ i, i ∉ y.2 → ∀ o, y.1.Has i o → x.1.Has i o
  count : y.2.length + facts P T x.1 ≤ x.2.length + facts P T y.1

/-- Deriving more productions after others adds what both add. -/
theorem Derived.trans {P T : Nat} {ps qs : List ProductionId} {x y z : ItemSet × List Item}
    (h : Derived P T ts ps x y) (h' : Derived P T ts qs y z) : Derived P T ts (ps ++ qs) x z where
  ordered := h'.ordered
  has_iff i o := by
    simp only [h'.has_iff, h.has_iff, List.mem_append, or_and_right, exists_or, or_assoc]
  stack := fun _ hi => h'.stack (h.stack hi)
  pushed i hi := by
    rcases h'.pushed i hi with hi | hi
    · rcases h.pushed i hi with hi | hi
      · exact .inl hi
      · exact .inr ((h'.has_iff i none).2 (.inl hi))
    · exact .inr hi
  kept i hi o ho := h.kept i (fun hmem => hi (h'.stack hmem)) o (h'.kept i hi o ho)
  count := by
    have := h.count
    have := h'.count
    omega

/-- A production that the set has everything about is passed over. -/
theorem derived_of_covers {P T : Nat} (hs : s.Ordered) (stack : List Item)
    (hcovers : s.covers ⟨p, 0⟩ ts = true) : Derived P T ts [p] (s, stack) (s, stack) where
  ordered := hs
  has_iff i o := by
    obtain ⟨hitem, hall⟩ := ItemSet.covers_iff.1 hcovers
    constructor
    · exact .inl
    · rintro (h | ⟨q, hq, rfl, ho⟩)
      · exact h
      · obtain rfl := List.mem_singleton.1 hq
        cases o with
        | none => exact hitem
        | some t => exact hall t (ho t rfl)
  stack := fun _ h => h
  pushed _ h := .inl h
  kept _ _ _ h := h
  count := Nat.le_refl _

/-- A set that does not have everything about an item has a fact to gain. -/
theorem exists_of_not_covers (h : ¬s.covers i ts = true) :
    ∃ o : Option TerminalId, (∀ t ∈ o, t ∈ ts) ∧ ¬s.Has i o := by
  by_contra hall
  push Not at hall
  refine h (ItemSet.covers_iff.2 ⟨hall none nofun, fun t ht => hall (some t) fun u hu => ?_⟩)
  exact Option.some.inj hu ▸ ht

/-- Any other production is added and pushed, which brings a new fact. -/
theorem derived_add {P T : Nat} (hts : ∀ t ∈ ts, t < T) (hp : p < P) (hs : s.Ordered)
    (stack : List Item) (hcovers : ¬s.covers ⟨p, 0⟩ ts = true) :
    Derived P T ts [p] (s, stack) (s.add ⟨p, 0⟩ ts, ⟨p, 0⟩ :: stack) := by
  have hadd : ∀ i o, (s.add ⟨p, 0⟩ ts).Has i o ↔ s.Has i o ∨ i = ⟨p, 0⟩ ∧ ∀ t ∈ o, t ∈ ts :=
    fun i o => hs.has_add
  refine ⟨hs.add ⟨p, 0⟩ ts, fun i o => ?_, fun i hi => List.mem_cons_of_mem _ hi, fun i hi => ?_,
    fun i hi o ho => ?_, ?_⟩
  · simp only [hadd, List.mem_singleton, exists_eq_left]
  · rcases List.mem_cons.1 hi with rfl | hi
    · exact .inr ((hadd _ none).2 (.inr ⟨rfl, nofun⟩))
    · exact .inl hi
  · rcases (hadd i o).1 ho with ho | ⟨rfl, -⟩
    · exact ho
    · exact absurd List.mem_cons_self hi
  · obtain ⟨o, ho, hnew⟩ := exists_of_not_covers hcovers
    have hlt : facts P T s < facts P T (s.add ⟨p, 0⟩ ts) :=
      facts_lt (fun i o h => (hadd i o).2 (.inl h)) hp (fun t ht => hts t (ho t ht)) hnew
        ((hadd _ o).2 (.inr ⟨rfl, ho⟩))
    simp only [List.length_cons]
    omega

theorem derive_derived {P T : Nat} (hts : ∀ t ∈ ts, t < T) (ps : List ProductionId)
    (hps : ∀ p ∈ ps, p < P) (hs : s.Ordered) (stack : List Item) :
    Derived P T ts ps (s, stack) (derive ts ps (s, stack)) := by
  induction ps generalizing s stack with
  | nil =>
    rw [derive]
    exact ⟨hs, fun i o => by simp, fun _ h => h, fun i hi => .inl hi, fun i _ o h => h,
      Nat.le_refl _⟩
  | cons p ps ih =>
    obtain ⟨hp, hps⟩ := List.forall_mem_cons.1 hps
    rw [derive]
    split
    · next hcovers => exact (derived_of_covers hs stack hcovers).trans (ih hps hs stack)
    · next hcovers =>
      have hone := derived_add hts hp hs stack hcovers
      exact hone.trans (ih hps hone.ordered _)

/-- Deriving from different productions pushes different items, and about each of them it adds
    something that the set did not have. -/
theorem derive_pushed {P T : Nat} (hts : ∀ t ∈ ts, t < T) (ps : List ProductionId)
    (hps : ∀ p ∈ ps, p < P) (hnodup : ps.Nodup) (hs : s.Ordered) (stack : List Item) :
    ∃ pushed, (derive ts ps (s, stack)).2 = pushed ++ stack ∧ pushed.Nodup ∧
      ∀ i ∈ pushed, ∃ p ∈ ps, i = ⟨p, 0⟩ ∧ ∃ o : Option TerminalId, (∀ t ∈ o, t ∈ ts) ∧
        (derive ts ps (s, stack)).1.Has i o ∧ ¬s.Has i o := by
  induction ps generalizing s stack with
  | nil => exact ⟨[], rfl, .nil, fun i hi => absurd hi List.not_mem_nil⟩
  | cons p ps ih =>
    obtain ⟨hp, hbelow⟩ := List.forall_mem_cons.1 hps
    obtain ⟨hnot, hnodup⟩ := List.nodup_cons.1 hnodup
    rw [derive]
    split
    · obtain ⟨pushed, hstack, hdistinct, hnew⟩ := ih hbelow hnodup hs stack
      refine ⟨pushed, hstack, hdistinct, fun i hi => ?_⟩
      obtain ⟨q, hq, hnew⟩ := hnew i hi
      exact ⟨q, List.mem_cons_of_mem p hq, hnew⟩
    · next hcovers =>
      have hadd : (s.add ⟨p, 0⟩ ts).Ordered := hs.add ⟨p, 0⟩ ts
      obtain ⟨pushed, hstack, hdistinct, hnew⟩ := ih hbelow hnodup hadd (⟨p, 0⟩ :: stack)
      refine ⟨pushed ++ [⟨p, 0⟩], ?_, ?_, fun i hi => ?_⟩
      · rw [hstack, List.append_assoc]
        rfl
      · rw [List.nodup_append]
        refine ⟨hdistinct, List.nodup_singleton _, fun i hi j hj => ?_⟩
        obtain ⟨q, hq, rfl, -⟩ := hnew i hi
        rintro rfl
        obtain rfl : q = p := congrArg Item.production (List.mem_singleton.1 hj)
        exact hnot hq
      · rcases List.mem_append.1 hi with hi | hi
        · obtain ⟨q, hq, hitem, o, ho, hhas, hnone⟩ := hnew i hi
          exact ⟨q, List.mem_cons_of_mem p hq, hitem, o, ho, hhas,
            fun h => hnone (hs.has_add.2 (.inl h))⟩
        · obtain ⟨o, ho, hnone⟩ := exists_of_not_covers hcovers
          obtain rfl := List.mem_singleton.1 hi
          have hd := derive_derived hts ps hbelow hadd (⟨p, 0⟩ :: stack)
          exact ⟨p, List.mem_cons_self, rfl, o, ho,
            (hd.has_iff _ _).2 (.inl (hs.has_add.2 (.inr ⟨rfl, ho⟩))), hnone⟩

/-! ## The loop -/

/-- The productions of nonterminals exist, and what may be passed on is a terminal. -/
structure InBounds (a : Analysis) : Prop where
  production : ∀ n, ∀ p ∈ a.byLhs.getD n [], p < a.grammar.productions.length
  head : ∀ i n after, a.remaining i = .nonterminal n :: after →
    ∀ t ∈ (a.first.ofSymbols after).1, t < a.grammar.terminals.length

/-- On the way to the closure of `s₀`, all items are closed that are not on the stack. -/
structure Closing (a : Analysis) (s₀ s : ItemSet) (stack : List Item) : Prop where
  ordered : s.Ordered
  below : ∀ i t, s.Has i (some t) → t < a.grammar.terminals.length
  base : ∀ i o, s₀.Has i o → s.Has i o
  least : ∀ i o, s.Has i o → a.Closes s₀ i o
  pending : ∀ i ∈ stack, s.Has i none
  closed : ∀ i, s.Has i none → i ∉ stack → a.ClosedAt s i

variable {s₀ : ItemSet}

/-- Popping an item without a nonterminal next to it. -/
theorem Closing.pop (h : a.Closing s₀ s (i :: stack))
    (hi : ∀ n after, a.remaining i ≠ .nonterminal n :: after) : a.Closing s₀ s stack where
  ordered := h.ordered
  below := h.below
  base := h.base
  least := h.least
  pending j hj := h.pending j (List.mem_cons_of_mem _ hj)
  closed j hj hmem := by
    by_cases hji : j = i
    · subst hji
      exact fun n after hr => absurd hr (hi n after)
    · exact h.closed j hj fun hj => (List.mem_cons.1 hj).elim hji hmem

/-- Popping an item and deriving the productions of the nonterminal next to it. -/
theorem Closing.derive (hb : a.InBounds) (h : a.Closing s₀ s (i :: stack))
    (hr : a.remaining i = .nonterminal n :: after) {y : ItemSet × List Item} {P T : Nat}
    (hd : Derived P T (a.ahead s i after) (a.byLhs.getD n []) (s, stack) y) :
    a.Closing s₀ y.1 y.2 where
  ordered := hd.ordered
  below j t hj := by
    rcases (hd.has_iff j (some t)).1 hj with hj | ⟨p, -, -, ht⟩
    · exact h.below j t hj
    · rcases mem_ahead.1 (ht t rfl) with ht | ⟨-, ht⟩
      · exact hb.head i n after hr t ht
      · exact h.below i t ht
  base j o hj := (hd.has_iff j o).2 (.inl (h.base j o hj))
  least j o hj := by
    rcases (hd.has_iff j o).1 hj with hj | ⟨p, hp, rfl, ho⟩
    · exact h.least j o hj
    · have hi := h.least i none (h.pending i List.mem_cons_self)
      cases o with
      | none => exact .enter hi hr hp
      | some t =>
        rcases mem_ahead.1 (ho t rfl) with ht | ⟨hempty, ht⟩
        · exact .head hi hr hp ht
        · exact .pass (h.least i _ ht) hr hp hempty
  pending j hj := by
    rcases hd.pushed j hj with hj | hj
    · exact (hd.has_iff j none).2 (.inl (h.pending j (List.mem_cons_of_mem _ hj)))
    · exact hj
  closed j hj hmem := by
    have hle : ∀ j o, s.Has j o → y.1.Has j o := fun j o hj => (hd.has_iff j o).2 (.inl hj)
    by_cases hji : j = i
    · -- The item popped has derived everything, and nothing was added about it.
      subst hji
      intro n' after' hr' p hp o ho
      rw [hr] at hr'
      obtain ⟨hn, rfl⟩ := List.cons.inj hr'
      obtain rfl := Symbol.nonterminal.inj hn
      refine (hd.has_iff _ _).2 (.inr ⟨p, hp, rfl, fun t ht => ?_⟩)
      rcases mem_ahead.1 (ho t ht) with hm | ⟨hm, ht⟩
      · exact mem_ahead.2 (.inl hm)
      · exact mem_ahead.2 (.inr ⟨hm, hd.kept j hmem _ ht⟩)
    · have hs := hd.kept j hmem none hj
      refine (h.closed j hs fun hj' => ?_).mono hle (hd.kept j hmem)
      exact (List.mem_cons.1 hj').elim hji fun hj' => hmem (hd.stack hj')

/-- Only terminals are passed on. -/
theorem Closing.ahead_lt (hb : a.InBounds) (h : a.Closing s₀ s (i :: stack))
    (hr : a.remaining i = .nonterminal n :: after) :
    ∀ t ∈ a.ahead s i after, t < a.grammar.terminals.length := by
  intro t ht
  rcases mem_ahead.1 ht with ht | ⟨-, ht⟩
  · exact hb.head i n after hr t ht
  · exact h.below i t ht

/-- Deriving pushes no more items than it finds facts. -/
theorem Closing.expand (hb : a.InBounds) (h : a.Closing s₀ s (i :: stack))
    (hr : a.remaining i = .nonterminal n :: after) {y : ItemSet × List Item}
    (hy : Analysis.derive (a.ahead s i after) (a.byLhs.getD n []) (s, stack) = y) :
    a.Closing s₀ y.1 y.2 ∧
      y.2.length + facts a.grammar.productions.length a.grammar.terminals.length s ≤
        stack.length + facts a.grammar.productions.length a.grammar.terminals.length y.1 := by
  have hd := derive_derived (h.ahead_lt hb hr) (a.byLhs.getD n []) (hb.production n) h.ordered
    stack
  rw [hy] at hd
  exact ⟨h.derive hb hr hd, hd.count⟩

/-- The loop ends with an empty stack when it has more steps than there may be items pushed. -/
theorem closeItems_closing (hb : a.InBounds) (fuel : Nat) (s : ItemSet) (stack : List Item)
    (h : a.Closing s₀ s stack)
    (hfuel : stack.length + a.grammar.productions.length * (a.grammar.terminals.length + 1) <
      fuel + facts a.grammar.productions.length a.grammar.terminals.length s) :
    a.Closing s₀ (a.closeItems fuel (s, stack)) [] := by
  induction fuel generalizing s stack with
  | zero =>
    have := facts_le a.grammar.productions.length a.grammar.terminals.length s
    omega
  | succ fuel ih =>
    cases stack with
    | nil => exact h
    | cons i stack =>
      rw [List.length_cons] at hfuel
      rw [closeItems]
      split
      · next n after hr =>
        obtain ⟨hclosing, hcount⟩ := h.expand hb hr rfl
        show a.Closing s₀ (a.closeItems fuel
          (derive (a.ahead s i after) (a.byLhs.getD n []) (s, stack))) []
        exact ih _ _ hclosing (by omega)
      · next hr => exact ih s stack (h.pop hr) (by omega)

/-- The loop starts with all items of the set on the stack, in any order. -/
theorem closing_start {stack : List Item} (hs : s.Ordered)
    (hbelow : ∀ i t, s.Has i (some t) → t < a.grammar.terminals.length)
    (hstack : stack.Perm s.items) : a.Closing s s stack where
  ordered := hs
  below := hbelow
  base _ _ h := h
  least _ _ h := .base h
  pending _ h := hstack.mem_iff.1 h
  closed _ hi hmem := absurd (hstack.mem_iff.2 hi) hmem

/-- When nothing is left on the stack, the set has what it has to have, and nothing else. -/
theorem Closing.has_iff (h : a.Closing s₀ s []) : s.Has i o ↔ a.Closes s₀ i o :=
  ⟨h.least i o, has_of_closes h.base fun j hj => h.closed j hj List.not_mem_nil⟩

theorem closure_closing (hb : a.InBounds) (hs : s.Ordered)
    (hbelow : ∀ i t, s.Has i (some t) → t < a.grammar.terminals.length) :
    a.Closing s (a.closure s) [] := by
  refine closeItems_closing hb _ s s.items (closing_start hs hbelow (.refl _)) ?_
  rw [ItemSet.items, List.length_map]
  omega

theorem ordered_closure (hb : a.InBounds) (hs : s.Ordered)
    (hbelow : ∀ i t, s.Has i (some t) → t < a.grammar.terminals.length) :
    (a.closure s).Ordered :=
  (closure_closing hb hs hbelow).ordered

/-- The closure has what it has to have, and nothing else. -/
theorem has_closure_iff (hb : a.InBounds) (hs : s.Ordered)
    (hbelow : ∀ i t, s.Has i (some t) → t < a.grammar.terminals.length) :
    (a.closure s).Has i o ↔ a.Closes s i o :=
  (closure_closing hb hs hbelow).has_iff

end FluentGrammar.Analysis
