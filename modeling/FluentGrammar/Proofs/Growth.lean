import FluentGrammar.OrderedSet
import FluentGrammar.Proofs.Support
import Mathlib.Algebra.Order.BigOperators.Group.List
import Mathlib.Algebra.Order.Ring.Nat
import Mathlib.Logic.Function.Iterate

/-
  Passes that only add. A step that enlarges a state makes its size greater or leaves the state as
  it is, so a pass that changes nothing has no step that would change anything
  (`Enlarges.foldl_fixed`), and passes that are repeated as often as the size may grow end in a
  state that the next pass leaves alone (`settled`).
-/

namespace FluentGrammar

/-- The state is left as it is or made greater. -/
def Enlarges {α : Type} (size : α → Nat) (step : α → α) : Prop :=
  ∀ a, step a = a ∨ size a < size (step a)

variable {α β : Type} {size : α → Nat}

namespace Enlarges

theorem le {step : α → α} (h : Enlarges size step) (a : α) : size a ≤ size (step a) := by
  rcases h a with heq | hlt
  · exact Nat.le_of_eq (congrArg size heq.symm)
  · exact Nat.le_of_lt hlt

theorem id : Enlarges size fun a => a := fun _ => .inl rfl

theorem foldl {step : α → β → α} (h : ∀ b, Enlarges size (step · b)) (bs : List β) :
    Enlarges size fun a => bs.foldl step a := by
  intro a
  induction bs generalizing a with
  | nil => exact .inl rfl
  | cons b bs ih =>
    have hb : step a b = a ∨ size a < size (step a b) := h b a
    have hbs : bs.foldl step (step a b) = step a b ∨
        size (step a b) < size (bs.foldl step (step a b)) := ih (step a b)
    show bs.foldl step (step a b) = a ∨ size a < size (bs.foldl step (step a b))
    rcases hb with heq | hlt
    · rwa [heq] at hbs ⊢
    · right
      rcases hbs with heq | hlt'
      · rwa [heq]
      · exact Nat.lt_trans hlt hlt'

/-- No step of a pass that changes nothing changes anything. -/
theorem foldl_fixed {step : α → β → α} (h : ∀ b, Enlarges size (step · b)) {bs : List β} {a : α}
    (hfixed : bs.foldl step a = a) : ∀ b ∈ bs, step a b = a := by
  induction bs with
  | nil => exact fun b hb => absurd hb List.not_mem_nil
  | cons b bs ih =>
    rw [List.foldl_cons] at hfixed
    have hle : size (step a b) ≤ size (bs.foldl step (step a b)) := (foldl h bs).le (step a b)
    rw [hfixed] at hle
    have hb : step a b = a := (h b a).resolve_right (Nat.not_lt.2 hle)
    rw [hb] at hfixed
    intro c hc
    rcases List.mem_cons.1 hc with rfl | hc
    · exact hb
    · exact ih hfixed c hc

/-- Changing one member of a list in a way that enlarges it enlarges the list. -/
theorem modify {step : α → α} (h : Enlarges size step) (i : Nat) :
    Enlarges (fun xs : List α => (xs.map size).sum) fun xs => xs.modify i step := by
  intro xs
  show xs.modify i step = xs ∨ (xs.map size).sum < ((xs.modify i step).map size).sum
  induction xs generalizing i with
  | nil => exact .inl (List.modify_nil step i)
  | cons a xs ih =>
    cases i with
    | zero =>
      rw [List.modify_zero_cons]
      rcases h a with heq | hlt
      · left
        rw [heq]
      · right
        rw [List.map_cons, List.map_cons, List.sum_cons, List.sum_cons]
        omega
    | succ i =>
      rw [List.modify_succ_cons]
      rcases ih i with heq | hlt
      · left
        rw [heq]
      · right
        rw [List.map_cons, List.map_cons, List.sum_cons, List.sum_cons]
        omega

end Enlarges

/-- A member of a list that is left as it is by a change of the member is left alone. -/
theorem getElem?_of_modify_eq {step : α → α} {xs : List α} {i : Nat} {a : α}
    (h : xs.modify i step = xs) (hi : xs[i]? = some a) : step a = a := by
  have hget := congrArg (·[i]?) h
  simp only [List.getElem?_modify_eq, hi] at hget
  exact Option.some.inj hget

theorem sum_map_le {bound : Nat} {xs : List α} (h : ∀ a ∈ xs, size a ≤ bound) :
    (xs.map size).sum ≤ xs.length * bound := by
  have hle := List.sum_le_card_nsmul (xs.map size) bound (List.forall_mem_map.2 h)
  rwa [List.length_map, nsmul_eq_mul, Nat.cast_id] at hle

theorem sum_map_set {f : α → Nat} {xs : List α} {n : Nat} {a : α} (h : xs[n]? = some a)
    (b : α) : ((xs.set n b).map f).sum + f a = (xs.map f).sum + f b := by
  induction xs generalizing n with
  | nil => cases h
  | cons c xs ih =>
    cases n with
    | zero =>
      obtain rfl := Option.some.inj h
      simp only [List.set_cons_zero, List.map_cons, List.sum_cons]
      omega
    | succ n =>
      have := ih h
      simp only [List.set_cons_succ, List.map_cons, List.sum_cons]
      omega

/-- Repeated steps end in a state that the next step leaves alone, when there are more of them than
    the size may grow. `settle` is the loop that stops there, and `P` what the steps keep. -/
theorem settled [DecidableEq α] {step : α → α} (settle : Nat → α → α) {P : α → Prop}
    {bound : Nat} (hstep : ∀ n a, settle (n + 1) a = if step a = a then a else settle n (step a))
    (hgrow : ∀ a, P a → step a = a ∨ size a < size (step a)) (hkeep : ∀ a, P a → P (step a))
    (hbound : ∀ a, P a → size a ≤ bound) (n : Nat) (a : α) (hP : P a) (hn : bound < size a + n) :
    P (settle n a) ∧ step (settle n a) = settle n a := by
  induction n generalizing a with
  | zero =>
    have := hbound a hP
    omega
  | succ n ih =>
    rw [hstep]
    split
    · next heq => exact ⟨hP, heq⟩
    · next hne =>
      have hlt : size a < size (step a) := (hgrow a hP).resolve_left hne
      exact ih (step a) (hkeep a hP) (by omega)

/-- As many steps as the size may grow by end in a state that the next step leaves alone. -/
theorem iterate_settled {step : α → α} {P : α → Prop} {bound : Nat}
    (hgrow : ∀ a, P a → step a = a ∨ size a < size (step a)) (hkeep : ∀ a, P a → P (step a))
    (hbound : ∀ a, P a → size a ≤ bound) (n : Nat) (a : α) (hP : P a) (hn : bound ≤ size a + n) :
    step (step^[n] a) = step^[n] a := by
  induction n generalizing a with
  | zero =>
    refine (hgrow a hP).resolve_right fun hlt => ?_
    have := hbound _ (hkeep a hP)
    omega
  | succ n ih =>
    rw [Function.iterate_succ_apply]
    rcases hgrow a hP with heq | hlt
    · rw [heq, Function.iterate_fixed heq, heq]
    · exact ih _ (hkeep a hP) (by omega)

/-! ## Ordered sets -/

namespace OrderedSet

theorem enlarges_insert (n : Nat) : Enlarges List.length (insert n) := by
  intro xs
  induction xs with
  | nil => exact .inr (by simp [insert])
  | cons m rest ih =>
    simp only [insert]
    split
    · exact .inr (by simp)
    · split
      · exact .inl rfl
      · rcases ih with heq | hlt
        · left
          rw [heq]
        · right
          rw [List.length_cons, List.length_cons]
          omega

theorem enlarges_union (xs : List Nat) : Enlarges List.length (union xs) := by
  intro ys
  induction xs with
  | nil => exact .inl rfl
  | cons x xs ih =>
    have hcons : union (x :: xs) ys = insert x (union xs ys) := rfl
    have hins := enlarges_insert x (union xs ys)
    rw [hcons]
    rcases ih with heq | hlt
    · rwa [heq] at hins ⊢
    · exact .inr (Nat.lt_of_lt_of_le hlt ((enlarges_insert x).le _))

/-- An ascending list of numbers between two bounds has no more members than there are numbers. -/
theorem length_le_sub {low bound : Nat} {xs : List Nat} (h : xs.Pairwise (· < ·))
    (hb : ∀ n ∈ xs, low ≤ n ∧ n < bound) : xs.length ≤ bound - low := by
  induction xs generalizing low with
  | nil => exact Nat.zero_le _
  | cons m rest ih =>
    obtain ⟨hm, hr⟩ := List.pairwise_cons.1 h
    obtain ⟨hlow, hrest⟩ := List.forall_mem_cons.1 hb
    have := ih hr fun n hn => ⟨hm n hn, (hrest n hn).2⟩
    rw [List.length_cons]
    omega

theorem length_le {bound : Nat} {xs : List Nat} (h : xs.Pairwise (· < ·))
    (hb : ∀ n ∈ xs, n < bound) : xs.length ≤ bound :=
  length_le_sub h fun n hn => ⟨Nat.zero_le n, hb n hn⟩

end OrderedSet

end FluentGrammar
