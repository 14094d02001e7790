import FluentGrammar.Reach
import Mathlib.Logic.Relation

/-
  Reachability is what the search finds (`mem_reachableFrom_iff`). Every turn of the search takes a
  point from the stack, and a point that is new puts as many on it as there are steps out of it. So
  the points on the stack and the steps out of points not yet seen together bound the turns to
  come, and the search ends with an empty stack, where nothing leads out of the points seen.
-/

namespace FluentGrammar

variable {next : Nat → List Nat} {ps stack seen : List Nat} {a b n fuel : Nat}

/-- The steps out of those of the points that have not been seen. -/
def stepsLeft (next : Nat → List Nat) (seen : List Nat) : List Nat → Nat
  | [] => 0
  | p :: ps => (if p ∈ seen then 0 else (next p).length) + stepsLeft next seen ps

theorem stepsLeft_nil (next : Nat → List Nat) (ps : List Nat) :
    stepsLeft next [] ps = (ps.flatMap next).length := by
  induction ps with
  | nil => rfl
  | cons p ps ih => simp [stepsLeft, ih]

theorem stepsLeft_cons_le (next : Nat → List Nat) (n : Nat) (seen ps : List Nat) :
    stepsLeft next (n :: seen) ps ≤ stepsLeft next seen ps := by
  induction ps with
  | nil => exact Nat.le_refl 0
  | cons p ps ih =>
    unfold stepsLeft
    by_cases hp : p ∈ seen
    · have hp' : p ∈ n :: seen := List.mem_cons_of_mem n hp
      rw [if_pos hp, if_pos hp']
      omega
    · rw [if_neg hp]
      split <;> omega

/-- Seeing a point takes its steps away. -/
theorem stepsLeft_cons_add_le (next : Nat → List Nat) (hn : n ∉ seen) (hmem : n ∈ ps) :
    stepsLeft next (n :: seen) ps + (next n).length ≤ stepsLeft next seen ps := by
  induction ps with
  | nil => cases hmem
  | cons p ps ih =>
    have hle := stepsLeft_cons_le next n seen ps
    unfold stepsLeft
    by_cases hp : p = n
    · subst hp
      rw [if_pos List.mem_cons_self, if_neg hn]
      omega
    · have hps : n ∈ ps := (List.mem_cons.1 hmem).resolve_left (Ne.symm hp)
      have := ih hps
      have hiff : p ∈ n :: seen ↔ p ∈ seen := by simp [hp]
      simp only [hiff]
      omega

/-- A point that is new takes the steps out of it and puts what they lead to on the stack, so what
    is on the stack and the steps left do not become more together. -/
theorem length_add_stepsLeft_le (hps : ∀ n, next n ≠ [] → n ∈ ps) (hn : n ∉ seen)
    (stack : List Nat) : (next n ++ stack).length + stepsLeft next (n :: seen) ps ≤
      stack.length + stepsLeft next seen ps := by
  rw [List.length_append]
  by_cases hnext : next n = []
  · have hle := stepsLeft_cons_le next n seen ps
    rw [hnext, List.length_nil]
    omega
  · have hle := stepsLeft_cons_add_le next hn (hps n hnext)
    omega

/-- A point that has been seen may be taken from the stack. -/
theorem known_of_seen (hn : n ∈ seen) (ha : a ∈ seen ∨ a ∈ n :: stack) :
    a ∈ seen ∨ a ∈ stack := by
  rcases ha with ha | ha
  · exact .inl ha
  · rcases List.mem_cons.1 ha with rfl | ha
    · exact .inl hn
    · exact .inr ha

/-- So may one that is seen from now on. -/
theorem known_of_new (more : List Nat) (ha : a ∈ seen ∨ a ∈ n :: stack) :
    a ∈ n :: seen ∨ a ∈ more ++ stack := by
  have hknown : a ∈ n :: seen ∨ a ∈ n :: stack := ha.imp_left (List.mem_cons_of_mem n)
  exact (known_of_seen List.mem_cons_self hknown).imp_right (List.mem_append_right more)

/-- What the search finds has what it began with and is closed under steps. The invariant is that
    the steps out of the points seen lead to points that are seen or on the stack. -/
theorem visit_closed (hps : ∀ n, next n ≠ [] → n ∈ ps)
    (hfuel : stack.length + stepsLeft next seen ps < fuel)
    (hclosed : ∀ a ∈ seen, ∀ b ∈ next a, b ∈ seen ∨ b ∈ stack) :
    (∀ a, a ∈ seen ∨ a ∈ stack → a ∈ visit next fuel stack seen) ∧
      ∀ a ∈ visit next fuel stack seen, ∀ b ∈ next a, b ∈ visit next fuel stack seen := by
  induction fuel generalizing stack seen with
  | zero => omega
  | succ fuel ih =>
    cases stack with
    | nil =>
      unfold visit
      refine ⟨fun a ha => ha.resolve_right List.not_mem_nil, fun a ha b hb => ?_⟩
      exact (hclosed a ha b hb).resolve_right List.not_mem_nil
    | cons n stack =>
      rw [List.length_cons] at hfuel
      unfold visit
      by_cases hn : n ∈ seen
      · rw [if_pos (List.contains_iff_mem.2 hn)]
        have hrest : ∀ a ∈ seen, ∀ b ∈ next a, b ∈ seen ∨ b ∈ stack :=
          fun a ha b hb => known_of_seen hn (hclosed a ha b hb)
        obtain ⟨hfound, hsteps⟩ := ih (by omega) hrest
        exact ⟨fun a ha => hfound a (known_of_seen hn ha), hsteps⟩
      · rw [if_neg (mt List.contains_iff_mem.1 hn)]
        have hleft := length_add_stepsLeft_le hps hn stack
        have hrest : ∀ a ∈ n :: seen, ∀ b ∈ next a, b ∈ n :: seen ∨ b ∈ next n ++ stack := by
          intro a ha b hb
          rcases List.mem_cons.1 ha with rfl | ha
          · exact .inr (List.mem_append_left _ hb)
          · exact known_of_new (next n) (hclosed a ha b hb)
        obtain ⟨hfound, hsteps⟩ := ih (by omega) hrest
        exact ⟨fun a ha => hfound a (known_of_new (next n) ha), hsteps⟩

/-- Steps lead to everything that the search finds. -/
theorem exists_of_mem_visit (ha : a ∈ visit next fuel stack seen) :
    a ∈ seen ∨ ∃ n ∈ stack, Relation.ReflTransGen (fun a b => b ∈ next a) n a := by
  induction fuel generalizing stack seen with
  | zero => exact .inl ha
  | succ fuel ih =>
    cases stack with
    | nil => exact .inl ha
    | cons n stack =>
      unfold visit at ha
      split at ha
      · rcases ih ha with ha | ⟨m, hm, hsteps⟩
        · exact .inl ha
        · exact .inr ⟨m, List.mem_cons_of_mem _ hm, hsteps⟩
      · rcases ih ha with ha | ⟨m, hm, hsteps⟩
        · rcases List.mem_cons.1 ha with rfl | ha
          · exact .inr ⟨a, List.mem_cons_self, .refl⟩
          · exact .inl ha
        · rcases List.mem_append.1 hm with hm | hm
          · exact .inr ⟨n, List.mem_cons_self, .head hm hsteps⟩
          · exact .inr ⟨m, List.mem_cons_of_mem _ hm, hsteps⟩

/-- The search finds the points that steps lead to. `ps` are the points that steps lead out of. -/
theorem mem_reachableFrom_iff {steps start : Nat} (ps : List Nat) (hps : ∀ n, next n ≠ [] → n ∈ ps)
    (hsteps : (ps.flatMap next).length ≤ steps) :
    a ∈ reachableFrom next steps start ↔
      Relation.ReflTransGen (fun a b => b ∈ next a) start a := by
  unfold reachableFrom
  rw [List.mem_mergeSort]
  constructor
  · intro ha
    rcases exists_of_mem_visit ha with ha | ⟨n, hn, hlead⟩
    · cases ha
    · rwa [List.mem_singleton.1 hn] at hlead
  · have hfuel : [start].length + stepsLeft next [] ps < steps + 2 := by
      rw [stepsLeft_nil, List.length_singleton]
      omega
    obtain ⟨hfound, hclosed⟩ := visit_closed hps hfuel fun a ha => absurd ha List.not_mem_nil
    intro hlead
    induction hlead with
    | refl => exact hfound start (.inr (List.mem_singleton_self start))
    | tail _ hstep ih => exact hclosed _ ih _ hstep

end FluentGrammar
