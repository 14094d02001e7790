import FluentGrammar.Automaton.Item
import FluentGrammar.Proofs.Growth

/-
  Item sets as sets of facts: that an item is in the set, and that a terminal may follow it
  (`ItemSet.Has`). On ordered sets, adding an item adds the facts about it and nothing else
  (`has_add`).
-/

namespace FluentGrammar

/-! ## The order of items -/

namespace Item

variable {i j k : Item}

theorem before_iff (p d q e : Nat) :
    before ⟨p, d⟩ ⟨q, e⟩ = true ↔ p < q ∨ p = q ∧ d < e := by
  simp [before]

theorem before_trans (h : i.before j = true) (h' : j.before k = true) : i.before k = true := by
  obtain ⟨p, d⟩ := i
  obtain ⟨q, e⟩ := j
  obtain ⟨r, f⟩ := k
  rw [before_iff] at h h' ⊢
  omega

theorem ne_of_before (h : i.before j = true) : i ≠ j := by
  rintro rfl
  obtain ⟨p, d⟩ := i
  rw [before_iff] at h
  omega

theorem before_of_not_before (h : ¬i.before j = true) (hne : i ≠ j) : j.before i = true := by
  obtain ⟨p, d⟩ := i
  obtain ⟨q, e⟩ := j
  have hne' : ¬(@Eq Nat p q ∧ d = e) := fun heq => hne (Item.mk.injEq .. ▸ heq)
  rw [before_iff] at h ⊢
  omega

/-- Items keep their order when all positions move on. -/
theorem before_advance (h : i.before j = true) : i.advance.before j.advance = true := by
  obtain ⟨p, d⟩ := i
  obtain ⟨q, e⟩ := j
  rw [before_iff] at h
  show before ⟨p, d + 1⟩ ⟨q, e + 1⟩ = true
  rw [before_iff]
  omega

theorem advance_injective : Function.Injective advance := by
  intro i j h
  obtain ⟨p, d⟩ := i
  obtain ⟨q, e⟩ := j
  simpa [advance] using h

end Item

namespace ItemSet

variable {s : ItemSet} {i j : Item} {ts us : List TerminalId} {t : TerminalId}
  {o : Option TerminalId}

/-- The items are in ascending order. -/
def Ordered (s : ItemSet) : Prop := s.items.Pairwise fun i j => i.before j = true

/-- The item is in the set, and the terminal, if one is given, may follow it. -/
def Has (s : ItemSet) (i : Item) : Option TerminalId → Prop
  | none => i ∈ s.items
  | some t => t ∈ s.lookaheads i

/-! ## Looking up -/

theorem lookup_isSome_iff : (s.lookup i).isSome = true ↔ i ∈ s.items := by
  induction s with
  | nil => simp [items]
  | cons x s ih =>
    obtain ⟨j, us⟩ := x
    rw [List.lookup_cons]
    simp only [items, List.map_cons, List.mem_cons]
    split
    · next h => simp [beq_iff_eq.1 h]
    · next h =>
      have hne : i ≠ j := by simpa using h
      simp only [hne, false_or]
      exact ih

theorem has_none_of_has_some (h : s.Has i (some t)) : s.Has i none := by
  rw [Has, ← lookup_isSome_iff]
  simp only [Has, lookaheads] at h
  cases hl : s.lookup i with
  | none => rw [hl] at h; exact absurd h List.not_mem_nil
  | some us => rfl

theorem has_none_of_has (h : s.Has i o) : s.Has i none := by
  cases o with
  | none => exact h
  | some t => exact has_none_of_has_some h

/-- An ordered set has one entry for an item. -/
theorem Ordered.lookup_eq_some_iff (h : s.Ordered) : s.lookup i = some ts ↔ (i, ts) ∈ s := by
  induction s with
  | nil => simp
  | cons x s ih =>
    obtain ⟨j, us⟩ := x
    obtain ⟨hj, hs⟩ := List.pairwise_cons.1 h
    rw [List.lookup_cons, List.mem_cons]
    split
    · next hij =>
      obtain rfl := beq_iff_eq.1 hij
      constructor
      · intro he
        obtain rfl := Option.some.inj he
        exact .inl rfl
      · rintro (he | he)
        · rw [(Prod.mk.inj he).2]
        · exact absurd rfl (Item.ne_of_before (hj i (List.mem_map_of_mem he)))
    · next hij =>
      have hne : i ≠ j := by simpa using hij
      rw [ih hs]
      constructor
      · exact .inr
      · rintro (he | he)
        · exact absurd (Prod.mk.inj he).1 hne
        · exact he

theorem Ordered.has_some_iff (h : s.Ordered) :
    s.Has i (some t) ↔ ∃ ts, (i, ts) ∈ s ∧ t ∈ ts := by
  simp only [Has, lookaheads]
  constructor
  · intro ht
    cases hl : s.lookup i with
    | none => rw [hl] at ht; exact absurd ht List.not_mem_nil
    | some us => rw [hl] at ht; exact ⟨us, h.lookup_eq_some_iff.1 hl, ht⟩
  · rintro ⟨ts, hmem, ht⟩
    rw [h.lookup_eq_some_iff.2 hmem]
    exact ht

theorem covers_iff : s.covers i ts = true ↔ s.Has i none ∧ ∀ t ∈ ts, s.Has i (some t) := by
  rw [covers]
  simp only [Has, ← lookup_isSome_iff, lookaheads]
  cases s.lookup i with
  | none => simp
  | some us => simp

/-! ## Adding -/

theorem mem_items_add : j ∈ (s.add i ts).items ↔ j = i ∨ j ∈ s.items := by
  induction s with
  | nil => simp [add, items]
  | cons x s ih =>
    obtain ⟨k, us⟩ := x
    rw [add]
    split
    · next h => simp [items, h]
    · split
      · simp [items]
      · simp only [items, List.map_cons, List.mem_cons] at ih ⊢
        rw [ih]
        exact or_left_comm

theorem Ordered.add (h : s.Ordered) (i : Item) (ts : List TerminalId) : (s.add i ts).Ordered := by
  induction s with
  | nil => exact List.pairwise_singleton _ _
  | cons x s ih =>
    obtain ⟨k, us⟩ := x
    obtain ⟨hk, hs⟩ := List.pairwise_cons.1 h
    rw [ItemSet.add]
    split
    · exact h
    · next hne =>
      split
      · next hbefore =>
        refine List.pairwise_cons.2 ⟨fun j hj => ?_, h⟩
        rcases List.mem_cons.1 hj with rfl | hj
        · exact hbefore
        · exact Item.before_trans hbefore (hk j hj)
      · next hbefore =>
        refine List.pairwise_cons.2 ⟨fun j hj => ?_, ih hs⟩
        rcases mem_items_add.1 hj with rfl | hj
        · exact Item.before_of_not_before hbefore hne
        · exact hk j hj

/-- Adding changes what is known about the item, and about no other. -/
theorem Ordered.lookup_add (h : s.Ordered) :
    (s.add i ts).lookup j =
      if j = i then some ((s.lookup i).elim ts (OrderedSet.union ts)) else s.lookup j := by
  induction s with
  | nil =>
    rw [ItemSet.add, List.lookup_cons, List.lookup_nil, List.lookup_nil]
    by_cases hj : j = i
    · simp [hj]
    · rw [if_neg hj, beq_false_of_ne hj]
  | cons x s ih =>
    obtain ⟨k, us⟩ := x
    obtain ⟨hk, hs⟩ := List.pairwise_cons.1 h
    rw [ItemSet.add]
    split
    · next hik =>
      subst hik
      by_cases hj : j = i
      · simp [hj]
      · rw [if_neg hj, List.lookup_cons, List.lookup_cons, beq_false_of_ne hj]
    · next hne =>
      split
      · next hbefore =>
        have hnone : s.lookup i = none := by
          rw [← Option.not_isSome_iff_eq_none, lookup_isSome_iff]
          intro hi
          exact Item.ne_of_before (Item.before_trans hbefore (hk i hi)) rfl
        by_cases hj : j = i
        · simp [hj, List.lookup_cons, hnone, beq_false_of_ne hne]
        · rw [if_neg hj, List.lookup_cons, beq_false_of_ne hj]
      · by_cases hjk : j = k
        · subst hjk
          rw [if_neg (Ne.symm hne), List.lookup_cons_self, List.lookup_cons_self]
        · rw [List.lookup_cons, List.lookup_cons, List.lookup_cons, beq_false_of_ne hjk,
            beq_false_of_ne hne]
          exact ih hs

/-- Adding adds the facts about the item. -/
theorem Ordered.has_add (h : s.Ordered) :
    (s.add i ts).Has j o ↔ s.Has j o ∨ j = i ∧ ∀ t ∈ o, t ∈ ts := by
  cases o with
  | none => simp [Has, mem_items_add, or_comm]
  | some t =>
    simp only [Has, lookaheads, h.lookup_add]
    by_cases hj : j = i
    · subst hj
      cases s.lookup j with
      | none => simp
      | some us => simp [or_comm]
    · simp [hj]

end ItemSet

end FluentGrammar
