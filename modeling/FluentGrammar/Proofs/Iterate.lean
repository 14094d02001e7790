import FluentGrammar.Proofs.Growth
import Mathlib.Data.PFun
import Mathlib.Logic.Relation

/-
  Loops without a bound. A loop repeats its step until that gives a result, and has none of its own
  when the steps have no end. It is used through two laws only: the step that stops and the step
  that goes on. A loop whose steps that go on make a number smaller ends after no more turns than
  that number (`exists_endsAfter`). Passes over a list that note whether they have changed anything,
  and go on until one of them has not, come to the end that they come to when they are counted
  (`iterate?_noted`).
-/

namespace FluentGrammar

/-- Repeats a step until it gives a result. There is none when a step fails, and none when the
    steps have no end. -/
noncomputable def iterate? {α β : Type} (step : α → Option (β ⊕ α)) (a : α) : Option β :=
  @Part.toOption β (PFun.fix (fun a => ↑(step a)) a) (Classical.dec _)

section

variable {α β : Type} {step : α → Option (β ⊕ α)} {a a' : α} {b : β}

theorem iterate?_of_inl (h : step a = some (.inl b)) : iterate? step a = some b := by
  let _ := Classical.dec (PFun.fix (fun a => (step a : Part (β ⊕ α))) a).Dom
  exact Part.toOption_eq_some_iff.2 (PFun.fix_stop (Part.mem_coe.2 h))

theorem iterate?_of_inr (h : step a = some (.inr a')) : iterate? step a = iterate? step a' := by
  rw [iterate?, iterate?]
  congr 1
  exact PFun.fix_fwd_eq (Part.mem_coe.2 h)

/-- The step goes on from one state to the other. -/
def GoesOn (step : α → Option (β ⊕ α)) (a a' : α) : Prop := step a = some (.inr a')

/-- What every turn keeps holds on the whole way. -/
theorem of_turns {P : α → Prop} (hkeep : ∀ a a', P a → GoesOn step a a' → P a') (ha : P a)
    (h : Relation.ReflTransGen (GoesOn step) a a') : P a' := by
  induction h with
  | refl => exact ha
  | tail _ hturn ih => exact hkeep _ _ ih hturn

/-- The loop goes on for `k` turns and gives `b` in the next one. -/
inductive EndsAfter (step : α → Option (β ⊕ α)) (b : β) : Nat → α → Prop
  | stop {a : α} : step a = some (.inl b) → EndsAfter step b 0 a
  | turn {k : Nat} {a a' : α} : step a = some (.inr a') → EndsAfter step b k a' →
      EndsAfter step b (k + 1) a

theorem EndsAfter.iterate?_eq {k : Nat} (h : EndsAfter step b k a) :
    iterate? step a = some b := by
  induction h with
  | stop h => exact iterate?_of_inl h
  | turn h _ ih => exact (iterate?_of_inr h).trans ih

/-- Turns that keep `P` and make a number smaller come to an end. The loop stops with `Q` where its
    step does, and goes on for no more turns than the number at the beginning. -/
theorem exists_endsAfter {P : α → Prop} {Q : β → Prop} (size : α → Nat)
    (hstep : ∀ a, P a → (∃ b, step a = some (.inl b) ∧ Q b) ∨
      ∃ a', step a = some (.inr a') ∧ P a' ∧ size a' < size a) (ha : P a) :
    ∃ k ≤ size a, ∃ b, EndsAfter step b k a ∧ Q b := by
  induction hsize : size a using Nat.strong_induction_on generalizing a with
  | _ n ih =>
    obtain ⟨b, hb, hQ⟩ | ⟨a', ha', hP, hlt⟩ := hstep a ha
    · exact ⟨0, Nat.zero_le n, b, .stop hb, hQ⟩
    · obtain ⟨k, hk, b, hends, hQ⟩ := ih (size a') (hsize ▸ hlt) hP rfl
      exact ⟨k + 1, by omega, b, .turn ha' hends, hQ⟩

end

/-! ## Passes that note changes -/

section

variable {α β : Type} [DecidableEq α] {P : α → Prop}

/-- When every step that changes something is noted, so is every pass. -/
theorem foldlM_noted {size : α → Nat} {step? : α × Bool → β → Option (α × Bool)}
    {step : α → β → α} {bs : List β} (hgrow : ∀ b, Enlarges size (step · b))
    (hkeep : ∀ a, ∀ b ∈ bs, P a → P (step a b))
    (hstep : ∀ a changed, ∀ b ∈ bs, P a →
      step? (a, changed) b = some (step a b, changed || decide (step a b ≠ a)))
    {a : α} (ha : P a) (changed : Bool) :
    bs.foldlM step? (a, changed) =
      some (bs.foldl step a, changed || decide (bs.foldl step a ≠ a)) := by
  induction bs generalizing a changed with
  | nil => simp
  | cons b bs ih =>
    obtain ⟨hb, hkeep⟩ : P (step a b) ∧ ∀ a, ∀ b ∈ bs, P a → P (step a b) :=
      ⟨hkeep a b List.mem_cons_self ha, fun a b hb => hkeep a b (List.mem_cons_of_mem _ hb)⟩
    rw [List.foldlM_cons, hstep a changed b List.mem_cons_self ha, List.foldl_cons]
    refine (ih hkeep (fun a changed b hb => hstep a changed b (List.mem_cons_of_mem _ hb)) hb
      _).trans ?_
    by_cases hsame : step a b = a
    · simp [hsame]
    · -- What has grown once is not what it was, whatever comes after.
      have hfold : bs.foldl step (step a b) ≠ a := by
        intro heq
        have hpass : (b :: bs).foldl step a = a := heq
        exact hsame (Enlarges.foldl_fixed hgrow hpass b List.mem_cons_self)
      simp [hsame, hfold]

/-- Passes without a bound come to the end that they come to when they are counted. -/
theorem iterate?_noted {pass? : α → Option (α × Bool)} {pass : α → α}
    (hpass : ∀ a, P a → pass? a = some (pass a, decide (pass a ≠ a)))
    (hkeep : ∀ a, P a → P (pass a)) {a : α} (ha : P a) (n : Nat)
    (hfixed : pass (pass^[n] a) = pass^[n] a) :
    iterate? (fun a => do
      let (a, changed) ← pass? a
      return if changed then .inr a else .inl a) a = some (pass^[n] a) := by
  induction n generalizing a with
  | zero =>
    have hsame : pass a = a := hfixed
    refine iterate?_of_inl ?_
    rw [hpass a ha, hsame]
    simp
  | succ n ih =>
    by_cases hsame : pass a = a
    · rw [Function.iterate_fixed hsame]
      refine iterate?_of_inl ?_
      rw [hpass a ha, hsame]
      simp
    · rw [Function.iterate_succ_apply] at hfixed ⊢
      rw [← ih (hkeep a ha) hfixed]
      refine iterate?_of_inr ?_
      rw [hpass a ha]
      simp [hsame]

end

end FluentGrammar
