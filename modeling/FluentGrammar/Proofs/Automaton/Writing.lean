import FluentGrammar.Automaton.Table
import FluentGrammar.Proofs.Support

/-
  Tables that are written cell by cell. What a table holds is a function of the cell, for each of
  its two matrices, and a list of reductions (`Holds`). A write inside the table succeeds and
  changes the function at its cell and nothing else, and a table is determined by what it holds
  (`Holds.unique`).
-/

namespace FluentGrammar

/-! ## Matrices -/

/-- The entries of a matrix lie in an array, one row after the other. -/
structure RowByRow {α : Type} (xs : Array α) (height width : Nat) (entry : Nat → Nat → α) :
    Prop where
  size : xs.size = height * width
  entry : ∀ n < height, ∀ k < width, xs[n * width + k]? = some (entry n k)

namespace RowByRow

variable {α : Type} {xs ys : Array α} {height width n m k l : Nat} {entry entry' : Nat → Nat → α}

theorem index_lt (hn : n < height) (hk : k < width) : n * width + k < height * width := by
  calc n * width + k < n * width + width := Nat.add_lt_add_left hk _
    _ = (n + 1) * width := (Nat.succ_mul n width).symm
    _ ≤ height * width := Nat.mul_le_mul_right width hn

/-- No two entries lie in the same place. -/
theorem index_inj (hk : k < width) (hl : l < width) (h : n * width + k = m * width + l) :
    n = m ∧ k = l := by
  have hwidth : 0 < width := Nat.lt_of_le_of_lt (Nat.zero_le k) hk
  have hdiv : (n * width + k) / width = (m * width + l) / width := by rw [h]
  rw [Nat.mul_comm n, Nat.mul_comm m, Nat.mul_add_div hwidth, Nat.mul_add_div hwidth,
    Nat.div_eq_of_lt hk, Nat.div_eq_of_lt hl, Nat.add_zero, Nat.add_zero] at hdiv
  subst hdiv
  exact ⟨rfl, Nat.add_left_cancel h⟩

theorem replicate (height width : Nat) (a : α) :
    RowByRow (Array.replicate (height * width) a) height width fun _ _ => a where
  size := Array.size_replicate
  entry n hn k hk := by rw [Array.getElem?_replicate, if_pos (index_lt hn hk)]

theorem set (h : RowByRow xs height width entry) (hn : n < height) (hk : k < width) (a : α) :
    n * width + k < xs.size ∧
      RowByRow (xs.setIfInBounds (n * width + k) a) height width fun m l =>
        if m = n ∧ l = k then a else entry m l := by
  have hlt : n * width + k < xs.size := h.size.symm ▸ index_lt hn hk
  refine ⟨hlt, ?_, ?_⟩
  · rw [Array.size_setIfInBounds]
    exact h.size
  · intro m hm l hl
    rw [Array.getElem?_setIfInBounds]
    by_cases heq : m = n ∧ l = k
    · obtain ⟨rfl, rfl⟩ := heq
      rw [if_pos rfl, if_pos hlt, if_pos ⟨rfl, rfl⟩]
    · have hne : n * width + k ≠ m * width + l := by
        intro hindex
        obtain ⟨hnm, hkl⟩ := index_inj hk hl hindex
        exact heq ⟨hnm.symm, hkl.symm⟩
      rw [if_neg hne, if_neg heq]
      exact h.entry m hm l hl

/-- An array is determined by the matrix that lies in it. -/
theorem unique (h : RowByRow xs height width entry) (h' : RowByRow ys height width entry')
    (heq : ∀ n < height, ∀ k < width, entry n k = entry' n k) : xs = ys := by
  refine Array.ext_getElem? fun i => ?_
  by_cases hi : i < height * width
  · have hwidth : 0 < width := by
      refine Nat.pos_of_ne_zero fun hzero => ?_
      rw [hzero, Nat.mul_zero] at hi
      exact absurd hi (Nat.not_lt_zero i)
    have hn : i / width < height := Nat.div_lt_of_lt_mul (Nat.mul_comm height width ▸ hi)
    have hk : i % width < width := Nat.mod_lt i hwidth
    have hindex : i / width * width + i % width = i := by
      rw [Nat.mul_comm]
      exact Nat.div_add_mod i width
    have hxs := h.entry _ hn _ hk
    have hys := h'.entry _ hn _ hk
    rw [hindex] at hxs hys
    rw [hxs, hys, heq _ hn _ hk]
  · have hxs : xs.size ≤ i := h.size.symm ▸ Nat.le_of_not_lt hi
    have hys : ys.size ≤ i := h'.size.symm ▸ Nat.le_of_not_lt hi
    rw [Array.getElem?_eq_none hxs, Array.getElem?_eq_none hys]

theorem congr (h : RowByRow xs height width entry)
    (heq : ∀ n < height, ∀ k < width, entry n k = entry' n k) :
    RowByRow xs height width entry' where
  size := h.size
  entry n hn k hk := by rw [h.entry n hn k hk, heq n hn k hk]

/-- Rows of one length one after the other. -/
theorem flatMap {β : Type} {zs : List β} {row : β → List α} {d : α}
    (hw : ∀ z ∈ zs, (row z).length = width) :
    RowByRow (zs.flatMap row).toArray zs.length width fun n k =>
      ((zs[n]?.bind fun z => (row z)[k]?).getD d) where
  size := by
    rw [List.size_toArray, List.length_flatMap]
    have hlengths : zs.map (fun z => (row z).length) = List.replicate zs.length width :=
      List.eq_replicate_iff.2 ⟨List.length_map _, fun k hk => by
        obtain ⟨z, hz, rfl⟩ := List.mem_map.1 hk
        exact hw z hz⟩
    rw [hlengths, List.sum_replicate_nat]
  entry n hn k hk := by
    have hz := List.getElem?_eq_getElem hn
    have hlt : k < (row zs[n]).length := (hw _ (List.getElem_mem hn)).symm ▸ hk
    rw [List.getElem?_toArray, getElem?_flatMap_rows hw hk, hz, Option.bind_some,
      List.getElem?_eq_getElem hlt, Option.getD_some]

end RowByRow

/-! ## Tables -/

namespace ParseTable

/-- What a table consists of, with its matrices as functions of the cell. -/
structure Contents where
  terminals : List String
  nonterminals : List String
  stateCount : Nat
  action : StateId → TerminalId → TableAction
  goto : StateId → NonterminalId → Option StateId
  reductions : List Reduction

/-- The table has these contents, and its arrays have no other place. -/
structure Holds (t : ParseTable) (c : Contents) : Prop where
  terminals : t.terminals = c.terminals
  nonterminals : t.nonterminals = c.nonterminals
  stateCount : t.stateCount = c.stateCount
  actions : RowByRow t.actions c.stateCount c.terminals.length c.action
  gotos : RowByRow t.gotos c.stateCount c.nonterminals.length c.goto
  reductions : t.reductions.toList = c.reductions

variable {t t' : ParseTable} {c c' : Contents} {n m : StateId} {a : TerminalId} {l : NonterminalId}

theorem Holds.action_eq (h : t.Holds c) (n : StateId) (a : TerminalId) : t.action n a =
    if n < c.stateCount ∧ a < c.terminals.length then c.action n a else .error := by
  rw [ParseTable.action, actionIndex, h.stateCount, h.terminals]
  split
  · next hin =>
    rw [Array.getD_eq_getD_getElem?, h.actions.entry n hin.1 a hin.2, Option.getD_some]
  · rfl

theorem Holds.goto_eq (h : t.Holds c) (n : StateId) (l : NonterminalId) : t.goto n l =
    if n < c.stateCount ∧ l < c.nonterminals.length then c.goto n l else none := by
  rw [ParseTable.goto, gotoIndex, h.stateCount, h.nonterminals]
  split
  · next hin =>
    rw [Array.getD_eq_getD_getElem?, h.gotos.entry n hin.1 l hin.2, Option.getD_some]
  · rfl

/-- A table is determined by what it holds inside. -/
theorem Holds.unique (h : t.Holds c) (h' : t'.Holds c') (hterminals : c.terminals = c'.terminals)
    (hnonterminals : c.nonterminals = c'.nonterminals) (hcount : c.stateCount = c'.stateCount)
    (haction : ∀ n < c.stateCount, ∀ a < c.terminals.length, c.action n a = c'.action n a)
    (hgoto : ∀ n < c.stateCount, ∀ l < c.nonterminals.length, c.goto n l = c'.goto n l)
    (hreductions : c.reductions = c'.reductions) : t = t' := by
  have hactions := h'.actions
  have hgotos := h'.gotos
  rw [← hcount, ← hterminals] at hactions
  rw [← hcount, ← hnonterminals] at hgotos
  have h₁ := h.terminals.trans (hterminals.trans h'.terminals.symm)
  have h₂ := h.nonterminals.trans (hnonterminals.trans h'.nonterminals.symm)
  have h₃ := h.stateCount.trans (hcount.trans h'.stateCount.symm)
  have h₄ := h.actions.unique hactions haction
  have h₅ := h.gotos.unique hgotos hgoto
  have h₆ := Array.toList_inj.1 (h.reductions.trans (hreductions.trans h'.reductions.symm))
  obtain ⟨⟩ := t
  obtain ⟨⟩ := t'
  dsimp only at h₁ h₂ h₃ h₄ h₅ h₆
  rw [h₁, h₂, h₃, h₄, h₅, h₆]

theorem holds_blank (terminals nonterminals : List String) (count : Nat) :
    (blank terminals nonterminals count).Holds
      ⟨terminals, nonterminals, count, fun _ _ => .error, fun _ _ => none, []⟩ where
  terminals := rfl
  nonterminals := rfl
  stateCount := rfl
  actions := .replicate _ _ _
  gotos := .replicate _ _ _
  reductions := rfl

theorem Holds.setAction? (h : t.Holds c) (hn : n < c.stateCount) (ha : a < c.terminals.length)
    (act : TableAction) : ∃ t', t.setAction? n a act = some t' ∧ t'.Holds { c with
      action := fun m b => if m = n ∧ b = a then act else c.action m b } := by
  obtain ⟨hlt, hactions⟩ := h.actions.set hn ha act
  have hindex : t.actionIndex n a = n * c.terminals.length + a := by rw [actionIndex, h.terminals]
  rw [ParseTable.setAction?, hindex]
  exact ⟨_, if_pos hlt,
    ⟨h.terminals, h.nonterminals, h.stateCount, hactions, h.gotos, h.reductions⟩⟩

theorem Holds.setGoto? (h : t.Holds c) (hn : n < c.stateCount)
    (hl : l < c.nonterminals.length) (target : StateId) :
    ∃ t', t.setGoto? n l target = some t' ∧ t'.Holds { c with
      goto := fun m k => if m = n ∧ k = l then some target else c.goto m k } := by
  obtain ⟨hlt, hgotos⟩ := h.gotos.set hn hl (some target)
  have hindex : t.gotoIndex n l = n * c.nonterminals.length + l := by
    rw [gotoIndex, h.nonterminals]
  rw [ParseTable.setGoto?, hindex]
  exact ⟨_, if_pos hlt,
    ⟨h.terminals, h.nonterminals, h.stateCount, h.actions, hgotos, h.reductions⟩⟩

theorem Holds.pushReduction (h : t.Holds c) (r : Reduction) :
    (t.pushReduction r).2.Holds { c with reductions := c.reductions ++ [r] } where
  terminals := h.terminals
  nonterminals := h.nonterminals
  stateCount := h.stateCount
  actions := h.actions
  gotos := h.gotos
  reductions := by
    show (t.reductions.push r).toList = _
    rw [Array.toList_push, h.reductions]

theorem Holds.pushReductions (h : t.Holds c) (rs : List Reduction) :
    (rs.foldl (fun t r => (t.pushReduction r).2) t).Holds
      { c with reductions := c.reductions ++ rs } := by
  induction rs generalizing t c with
  | nil =>
    rw [List.append_nil]
    exact h
  | cons r rs ih =>
    have hrest := ih (h.pushReduction r)
    rw [List.append_assoc] at hrest
    exact hrest

end ParseTable

end FluentGrammar
