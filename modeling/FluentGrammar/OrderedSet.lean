/-
  Sets of indices as ascending lists without repetition.
-/

namespace FluentGrammar.OrderedSet

/-- Puts an index into its place. -/
def insert (n : Nat) : List Nat → List Nat
  | [] => [n]
  | m :: rest =>
    if n < m then n :: m :: rest
    else if n = m then m :: rest
    else m :: insert n rest

/-- Puts all indices of the first set into the second. -/
def union (xs ys : List Nat) : List Nat := xs.foldr insert ys

@[simp] theorem mem_insert {a n : Nat} {xs : List Nat} : a ∈ insert n xs ↔ a = n ∨ a ∈ xs := by
  induction xs with
  | nil => simp [insert]
  | cons m rest ih =>
    simp only [insert]
    split
    · simp
    · split
      · next h => subst h; simp
      · simp only [List.mem_cons, ih]; grind

@[simp] theorem mem_union {a : Nat} {xs ys : List Nat} : a ∈ union xs ys ↔ a ∈ xs ∨ a ∈ ys := by
  induction xs with
  | nil => simp [union]
  | cons x rest ih =>
    have : union (x :: rest) ys = insert x (union rest ys) := rfl
    rw [this, mem_insert, ih, List.mem_cons, or_assoc]

theorem pairwise_insert {n : Nat} {xs : List Nat} (h : xs.Pairwise (· < ·)) :
    (insert n xs).Pairwise (· < ·) := by
  induction xs with
  | nil => simp [insert]
  | cons m rest ih =>
    obtain ⟨hm, hr⟩ := List.pairwise_cons.1 h
    simp only [insert]
    split
    · next hlt =>
      refine List.pairwise_cons.2 ⟨fun a ha => ?_, h⟩
      rcases List.mem_cons.1 ha with rfl | ha
      · exact hlt
      · exact Nat.lt_trans hlt (hm a ha)
    · split
      · exact h
      · refine List.pairwise_cons.2 ⟨fun a ha => ?_, ih hr⟩
        rcases mem_insert.1 ha with rfl | ha
        · omega
        · exact hm a ha

theorem pairwise_union {xs ys : List Nat} (h : ys.Pairwise (· < ·)) :
    (union xs ys).Pairwise (· < ·) := by
  induction xs with
  | nil => exact h
  | cons x rest ih => exact pairwise_insert ih

end FluentGrammar.OrderedSet
