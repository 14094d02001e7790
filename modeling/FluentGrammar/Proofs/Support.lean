import Mathlib.Data.List.Forall2

/-
  Facts about results and lists that the theory needs in several places: runs that succeed, lookups,
  lists that grow at their end, related lists, and rows that lie one after the other.
-/

namespace FluentGrammar

/-! ## Results -/

/-- A run of two steps that succeeds has two steps that succeed. -/
theorem of_bind_eq_ok {ε α β : Type} {m : Except ε α} {f : α → Except ε β} {b : β}
    (h : (m >>= f) = .ok b) : ∃ a, m = .ok a ∧ f a = .ok b := by
  cases m with
  | error e => cases h
  | ok a => exact ⟨a, rfl, h⟩

/-- A run of two steps that fails does so in one of them. -/
theorem of_bind_eq_error {ε α β : Type} {m : Except ε α} {f : α → Except ε β} {e : ε}
    (h : (m >>= f) = .error e) : m = .error e ∨ ∃ a, m = .ok a ∧ f a = .error e := by
  cases m with
  | error e' => exact .inl (congrArg Except.error (Except.error.inj h))
  | ok a => exact .inr ⟨a, rfl, h⟩

theorem ok_ne_error {ε α : Type} (a : α) (e : ε) : (.ok a : Except ε α) ≠ .error e := by
  intro h
  cases h

/-- A run of two steps does not fail in a way that neither of them does. -/
theorem bind_ne_error {ε α β : Type} {m : Except ε α} {f : α → Except ε β} {e : ε}
    (hm : m ≠ .error e) (hf : ∀ a, m = .ok a → f a ≠ .error e) : (m >>= f) ≠ .error e := by
  intro h
  obtain h | ⟨a, ha, h⟩ := of_bind_eq_error h
  · exact hm h
  · exact hf a ha h

/-- Two runs of two steps are equal when the first steps are and the second ones are after them. -/
theorem bind_eq_bind {ε α β : Type} {m m' : Except ε α} {f g : α → Except ε β} (hm : m = m')
    (hf : ∀ a, m' = .ok a → f a = g a) : (m >>= f) = (m' >>= g) := by
  subst hm
  cases m with
  | error e => rfl
  | ok a => exact hf a rfl

theorem of_mapError_eq_error {ε δ α : Type} {f : ε → δ} {m : Except ε α} {e : δ}
    (h : m.mapError f = .error e) : ∃ e', m = .error e' ∧ f e' = e := by
  cases m with
  | error e' => exact ⟨e', rfl, Except.error.inj h⟩
  | ok a => cases h

/-- A list that a step succeeds on entry by entry has the results in its place. -/
theorem forall₂_of_mapM_eq_ok {ε α β : Type} {f : α → Except ε β} {xs : List α} {ys : List β}
    (h : xs.mapM f = .ok ys) : List.Forall₂ (fun a b => f a = .ok b) xs ys := by
  induction xs generalizing ys with
  | nil =>
    cases h
    exact .nil
  | cons a xs ih =>
    rw [List.mapM_cons] at h
    obtain ⟨b, hb, h⟩ := of_bind_eq_ok h
    obtain ⟨bs, hbs, h⟩ := of_bind_eq_ok h
    cases h
    exact .cons hb (ih hbs)

/-- A step that succeeds on every entry succeeds on the list. -/
theorem exists_mapM_eq_ok {ε α β : Type} {f : α → Except ε β} {xs : List α}
    (h : ∀ a ∈ xs, ∃ b, f a = .ok b) : ∃ ys, xs.mapM f = .ok ys := by
  induction xs with
  | nil => exact ⟨[], rfl⟩
  | cons a xs ih =>
    obtain ⟨⟨b, hb⟩, hxs⟩ := List.forall_mem_cons.1 h
    obtain ⟨ys, hys⟩ := ih hxs
    refine ⟨b :: ys, ?_⟩
    rw [List.mapM_cons, hb, hys]
    rfl

/-- What does not fail succeeds. -/
theorem exists_eq_ok {ε α : Type} {m : Except ε α} (h : m.toOption.isSome = true) :
    ∃ a, m = .ok a := by
  cases m with
  | error e => cases h
  | ok a => exact ⟨a, rfl⟩

theorem exists_eq_ok_of_map {ε α β : Type} {m : Except ε α} {f : α → β} {b : β}
    (h : m.toOption.map f = some b) : ∃ a, m = .ok a ∧ f a = b := by
  cases m with
  | error e => cases h
  | ok a => exact ⟨a, rfl, Option.some.inj h⟩

theorem exists_eq_error_of_map {ε α δ : Type} {m : Except ε α} {f : ε → δ} {d : δ}
    (h : (m.mapError f).map (fun _ => ()) = .error d) : ∃ e, m = .error e ∧ f e = d := by
  cases m with
  | error e => exact ⟨e, rfl, Except.error.inj h⟩
  | ok a => cases h

/-- Steps that succeed one after the other, as long as they keep what they need. -/
theorem foldlM_eq_some {α β : Type} {k : β → α → Option β} {f : β → α → β} {P : β → Prop}
    {as : List α} {b : β} (hstep : ∀ b, ∀ a ∈ as, P b → k b a = some (f b a) ∧ P (f b a))
    (hb : P b) : as.foldlM k b = some (as.foldl f b) := by
  induction as generalizing b with
  | nil => rfl
  | cons a as ih =>
    obtain ⟨heq, hkept⟩ := hstep b a List.mem_cons_self hb
    rw [List.foldlM_cons, heq, List.foldl_cons]
    exact ih (fun b a ha => hstep b a (List.mem_cons_of_mem _ ha)) hkept

/-- A step that succeeds on every entry succeeds on the list. -/
theorem mapM_eq_some {α β : Type} {f? : α → Option β} {f : α → β} {as : List α}
    (h : ∀ a ∈ as, f? a = some (f a)) : as.mapM f? = some (as.map f) := by
  induction as with
  | nil => rfl
  | cons a as ih =>
    obtain ⟨ha, has⟩ := List.forall_mem_cons.1 h
    rw [List.mapM_cons, ha, ih has]
    rfl

/-! ## Entries -/

/-- An entry stays where it is when a list grows at its end. -/
theorem getElem?_grown {α : Type} {xs ys : List α} {i : Nat} {a : α} (h : xs <+: ys)
    (hi : xs[i]? = some a) : ys[i]? = some a := by
  obtain ⟨more, rfl⟩ := h
  rw [List.getElem?_append_left (List.getElem?_eq_some_iff.1 hi).1]
  exact hi

theorem mem_of_lookup_eq_some {α β : Type} [BEq α] [LawfulBEq α] {l : List (α × β)} {a : α}
    {b : β} (h : l.lookup a = some b) : (a, b) ∈ l := by
  obtain ⟨front, back, rfl, -⟩ := List.lookup_eq_some_iff.1 h
  exact List.mem_append_right _ List.mem_cons_self

theorem getD_of_toList {α : Type} {xs : Array α} {n : Nat} {a : α} (h : xs.toList[n]? = some a)
    (d : α) : xs.getD n d = a := by
  rw [Array.getD_eq_getD_getElem?, ← Array.getElem?_toList, h, Option.getD_some]

theorem getD_false_iff {flags : List Bool} {n : Nat} :
    flags.getD n false = true ↔ flags[n]? = some true := by
  rw [List.getD_eq_getElem?_getD]
  cases flags[n]? <;> simp

theorem getElem?_set_of_getElem? {α : Type} {xs : List α} {m : Nat} {x : α}
    (h : xs[m]? = some x) (y : α) (k : Nat) :
    (xs.set m y)[k]? = if m = k then some y else xs[k]? := by
  rw [List.getElem?_set]
  split
  · next hmk => rw [if_pos (hmk ▸ (List.getElem?_eq_some_iff.1 h).1)]
  · rfl

theorem set_eq_self {α : Type} {xs : List α} {n : Nat} {x : α} (h : xs[n]? = some x) :
    xs.set n x = xs := by
  obtain ⟨hlt, rfl⟩ := List.getElem?_eq_some_iff.1 h
  exact List.set_getElem_self hlt

theorem set_ne_self {α : Type} {xs : List α} {n : Nat} {x y : α} (h : xs[n]? = some x)
    (hne : y ≠ x) : xs.set n y ≠ xs := by
  intro heq
  have hentry := getElem?_set_of_getElem? h y n
  rw [heq, h, if_pos rfl] at hentry
  exact hne (Option.some.inj hentry).symm

theorem zip_set {α β : Type} {xs : List α} {ys : List β} {n : Nat} {x : α} (h : xs[n]? = some x)
    (y : β) : xs.zip (ys.set n y) = (xs.zip ys).set n (x, y) := by
  induction xs generalizing ys n with
  | nil => cases h
  | cons x' xs ih =>
    cases ys with
    | nil => rfl
    | cons y' ys =>
      cases n with
      | zero =>
        obtain rfl := Option.some.inj h
        rfl
      | succ n => exact congrArg ((x', y') :: ·) (ih h)

theorem modify_append_left {α : Type} {xs ys : List α} {n : Nat} {f : α → α}
    (h : n < xs.length) : (xs ++ ys).modify n f = xs.modify n f ++ ys := by
  induction xs generalizing n with
  | nil => exact absurd h (Nat.not_lt_zero n)
  | cons x xs ih =>
    cases n with
    | zero => rfl
    | succ n =>
      rw [List.cons_append, List.modify_succ_cons, List.modify_succ_cons, List.cons_append,
        ih (Nat.lt_of_succ_lt_succ h)]

theorem modify_length_append {α : Type} (xs : List α) (y : α) (ys : List α) (f : α → α) :
    (xs ++ y :: ys).modify xs.length f = xs ++ f y :: ys := by
  induction xs with
  | nil => rfl
  | cons x xs ih => exact congrArg (x :: ·) ih

theorem modify_eq_self {α : Type} {xs : List α} {n : Nat} {x : α} {f : α → α}
    (h : xs[n]? = some x) (hf : f x = x) : xs.modify n f = xs := by
  rw [List.modify_eq_set_getElem?, h]
  show xs.set n (f x) = xs
  rw [hf, set_eq_self h]

/-- A list mapped along with its numbers. -/
theorem map_zipIdx_eq {α β : Type} {xs : List α} {f : α × Nat → β} {h : Nat → β}
    (heq : ∀ (n : Nat) x, xs[n]? = some x → f (x, n) = h n) :
    xs.zipIdx.map f = (List.range xs.length).map h := by
  refine List.ext_getElem? fun n => ?_
  rw [List.getElem?_map, List.getElem?_map, List.getElem?_zipIdx]
  cases hn : xs[n]? with
  | none =>
    rw [List.getElem?_eq_none (l := List.range xs.length)]
    · rfl
    · rw [List.length_range]
      exact List.getElem?_eq_none_iff.1 hn
  | some x =>
    rw [List.getElem?_range (List.getElem?_eq_some_iff.1 hn).1]
    exact congrArg some ((Nat.zero_add n).symm ▸ heq n x hn)

theorem zipIdx_map_range {α : Type} (f : Nat → α) (n : Nat) :
    ((List.range n).map f).zipIdx = (List.range n).map fun k => (f k, k) := by
  have hentry : ∀ (k m : Nat), (List.range n)[k]? = some m → Prod.map f id (m, k) = (f k, k) := by
    intro k m hm
    obtain ⟨hlt, heq⟩ := List.getElem?_eq_some_iff.1 hm
    rw [List.getElem_range] at heq
    rw [← heq]
    rfl
  rw [List.zipIdx_map, map_zipIdx_eq hentry, List.length_range]

theorem filterMap_ite_some {α β : Type} (p : α → Prop) [DecidablePred p] (f : α → β)
    (as : List α) :
    (as.filterMap fun a => if p a then some (f a) else none) = (as.filter (p ·)).map f := by
  induction as with
  | nil => rfl
  | cons a as ih =>
    by_cases h : p a
    · simp [h, ih]
    · simp [h, ih]

theorem filterMap_concat {α β : Type} (f : α → Option β) (as : List α) (a : α) :
    (as ++ [a]).filterMap f = as.filterMap f ++ (f a).toList := by
  rw [List.filterMap_append, List.filterMap_cons]
  cases f a <;> rfl

theorem getLast?_filterMap_concat {α β : Type} (f : α → Option β) (as : List α) (a : α) :
    ((as ++ [a]).filterMap f).getLast? = (f a).or (as.filterMap f).getLast? := by
  rw [filterMap_concat, List.getLast?_append]
  cases f a <;> rfl

/-- Rows of one length one after the other. -/
theorem getElem?_flatMap_rows {α β : Type} {xs : List α} {row : α → List β} {width n t : Nat}
    (hw : ∀ x ∈ xs, (row x).length = width) (ht : t < width) :
    (xs.flatMap row)[n * width + t]? = xs[n]?.bind fun x => (row x)[t]? := by
  induction xs generalizing n with
  | nil => simp
  | cons x xs ih =>
    obtain ⟨hx, hw⟩ := List.forall_mem_cons.1 hw
    rw [List.flatMap_cons]
    cases n with
    | zero =>
      rw [Nat.zero_mul, Nat.zero_add, List.getElem?_append_left (by omega)]
      rfl
    | succ n =>
      rw [List.getElem?_append_right (by rw [hx, Nat.succ_mul]; omega),
        List.getElem?_cons_succ, ← ih hw]
      congr 1
      rw [hx, Nat.succ_mul]
      omega

/-! ## Related lists -/

/-- The entry on the right of an entry on the left. -/
theorem exists_of_forall₂ {α β : Type} {R : α → β → Prop} {xs : List α} {ys : List β}
    (h : List.Forall₂ R xs ys) {n : Nat} {b : β} (hn : ys[n]? = some b) :
    ∃ a, xs[n]? = some a ∧ R a b := by
  induction h generalizing n with
  | nil => cases hn
  | cons hab _ ih =>
    cases n with
    | zero => exact ⟨_, rfl, Option.some.inj hn ▸ hab⟩
    | succ n => exact ih hn

/-- The entry on the left of an entry on the right. -/
theorem exists_right_of_forall₂ {α β : Type} {R : α → β → Prop} {xs : List α} {ys : List β}
    (h : List.Forall₂ R xs ys) {n : Nat} {a : α} (hn : xs[n]? = some a) :
    ∃ b, ys[n]? = some b ∧ R a b := by
  have hflip : List.Forall₂ (flip R) ys xs := h.flip
  exact exists_of_forall₂ hflip hn

theorem exists_of_mem_right {α β : Type} {R : α → β → Prop} {xs : List α} {ys : List β}
    (h : List.Forall₂ R xs ys) {b : β} (hb : b ∈ ys) : ∃ a ∈ xs, R a b := by
  obtain ⟨n, hn⟩ := List.mem_iff_getElem?.1 hb
  obtain ⟨a, ha, hab⟩ := exists_of_forall₂ h hn
  exact ⟨a, List.mem_of_getElem? ha, hab⟩

theorem exists_of_mem_left {α β : Type} {R : α → β → Prop} {xs : List α} {ys : List β}
    (h : List.Forall₂ R xs ys) {a : α} (ha : a ∈ xs) : ∃ b ∈ ys, R a b := by
  obtain ⟨n, hn⟩ := List.mem_iff_getElem?.1 ha
  obtain ⟨b, hb, hab⟩ := exists_right_of_forall₂ h hn
  exact ⟨b, List.mem_of_getElem? hb, hab⟩

theorem forall₂_modify {α β : Type} {R : α → β → Prop} {xs : List α} {ys : List β}
    {step : β → β} {n : Nat} (h : List.Forall₂ R xs ys)
    (hstep : ∀ a b, xs[n]? = some a → R a b → R a (step b)) :
    List.Forall₂ R xs (ys.modify n step) := by
  induction h generalizing n with
  | nil =>
    rw [List.modify_nil]
    exact .nil
  | cons hab hs ih =>
    cases n with
    | zero => exact .cons (hstep _ _ rfl hab) hs
    | succ n => exact .cons hab (ih hstep)

end FluentGrammar
