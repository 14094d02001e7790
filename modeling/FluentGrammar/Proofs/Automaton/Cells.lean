import FluentGrammar.Proofs.Automaton.Writing
import Mathlib.Data.List.Induction

/-
  Tables after any calls. One call inside the table changes what the table holds at its own cell, or
  adds its reduction at the end, and nothing else (`Holds.call`). After a run of calls a cell
  therefore holds what was written to it last (`run_reads_last`), for tables of every size. For
  matrices without a column there is nothing to write, and every read is outside.
-/

namespace FluentGrammar

/-- A call that changes a table. -/
inductive TableCall where
  | setAction (state : StateId) (terminal : TerminalId) (action : TableAction)
  | setGoto (state : StateId) (nonterminal : NonterminalId) (target : StateId)
  | pushReduction (reduction : Reduction)
  deriving Repr, DecidableEq

namespace TableCall

/-- The table after the call. -/
def perform? (t : ParseTable) : TableCall → Option ParseTable
  | setAction n a act => t.setAction? n a act
  | setGoto n l target => t.setGoto? n l target
  | pushReduction r => some (t.pushReduction r).2

/-- The call writes inside a table of this size. -/
def Inside (count terminals nonterminals : Nat) : TableCall → Prop
  | setAction n a _ => n < count ∧ a < terminals
  | setGoto n l _ => n < count ∧ l < nonterminals
  | pushReduction _ => True

instance (count terminals nonterminals : Nat) :
    DecidablePred (Inside count terminals nonterminals)
  | setAction n a _ => inferInstanceAs (Decidable (n < count ∧ a < terminals))
  | setGoto n l _ => inferInstanceAs (Decidable (n < count ∧ l < nonterminals))
  | pushReduction _ => inferInstanceAs (Decidable True)

/-- The action that the call writes to the cell. -/
def action? (n : StateId) (a : TerminalId) : TableCall → Option TableAction
  | setAction m b act => if n = m ∧ a = b then some act else none
  | _ => none

/-- The target that the call writes to the cell. -/
def goto? (n : StateId) (l : NonterminalId) : TableCall → Option StateId
  | setGoto m k target => if n = m ∧ l = k then some target else none
  | _ => none

/-- The reduction that the call adds. -/
def reduction? : TableCall → Option Reduction
  | pushReduction r => some r
  | _ => none

end TableCall

namespace ParseTable

variable {t t' : ParseTable} {c : Contents} {terminals nonterminals : List String} {count : Nat}
  {calls : List TableCall}

/-- The table after calls, one after the other. -/
def run? (t : ParseTable) (calls : List TableCall) : Option ParseTable :=
  calls.foldlM TableCall.perform? t

theorem run?_concat (t : ParseTable) (calls : List TableCall) (call : TableCall) :
    t.run? (calls ++ [call]) = (t.run? calls).bind call.perform? := by
  rw [run?, List.foldlM_append]
  exact bind_congr fun t' => (List.foldlM_cons ..).trans (Option.bind_fun_some _)

/-- The contents after a call. -/
def Contents.after (c : Contents) (call : TableCall) : Contents where
  terminals := c.terminals
  nonterminals := c.nonterminals
  stateCount := c.stateCount
  action n a := (call.action? n a).getD (c.action n a)
  goto n l := (call.goto? n l).or (c.goto n l)
  reductions := c.reductions ++ call.reduction?.toList

/-- The contents that calls write into a blank table: in each cell what was written there last. -/
def written (terminals nonterminals : List String) (count : Nat) (calls : List TableCall) :
    Contents where
  terminals := terminals
  nonterminals := nonterminals
  stateCount := count
  action n a := (calls.filterMap (·.action? n a)).getLast?.getD .error
  goto n l := (calls.filterMap (·.goto? n l)).getLast?
  reductions := calls.filterMap (·.reduction?)

theorem written_concat (calls : List TableCall) (call : TableCall) :
    written terminals nonterminals count (calls ++ [call]) =
      (written terminals nonterminals count calls).after call := by
  rw [written, filterMap_concat]
  refine congrArg₂ (fun action goto => Contents.mk _ _ _ action goto _) ?_ ?_
  · funext n a
    rw [getLast?_filterMap_concat, Option.getD_or]
    rfl
  · funext n l
    rw [getLast?_filterMap_concat]
    rfl

theorem Contents.after_setAction (c : Contents) (n : StateId) (a : TerminalId)
    (act : TableAction) : c.after (.setAction n a act) =
      { c with action := fun m b => if m = n ∧ b = a then act else c.action m b } := by
  refine congrArg₂ (fun action rs => Contents.mk _ _ _ action c.goto rs) ?_ (List.append_nil _)
  funext m b
  exact apply_ite (Option.getD · (c.action m b)) (m = n ∧ b = a) (some act) none

theorem Contents.after_setGoto (c : Contents) (n : StateId) (l : NonterminalId)
    (target : StateId) : c.after (.setGoto n l target) =
      { c with goto := fun m k => if m = n ∧ k = l then some target else c.goto m k } := by
  refine congrArg₂ (fun goto rs => Contents.mk _ _ _ c.action goto rs) ?_ (List.append_nil _)
  funext m k
  exact apply_ite (Option.or · (c.goto m k)) (m = n ∧ k = l) (some target) none

/-- What one call inside the table does to what the table holds. -/
theorem Holds.call {call : TableCall} (h : t.Holds c)
    (hcall : call.Inside c.stateCount c.terminals.length c.nonterminals.length) :
    ∃ t', call.perform? t = some t' ∧ t'.Holds (c.after call) := by
  cases call with
  | setAction n a act =>
    rw [Contents.after_setAction]
    exact h.setAction? hcall.1 hcall.2 act
  | setGoto n l target =>
    rw [Contents.after_setGoto]
    exact h.setGoto? hcall.1 hcall.2 target
  | pushReduction r => exact ⟨_, rfl, h.pushReduction r⟩

/-- Calls inside a blank table succeed, and the table holds what they write. -/
theorem holds_run
    (h : ∀ call ∈ calls, call.Inside count terminals.length nonterminals.length) :
    ∃ t, (blank terminals nonterminals count).run? calls = some t ∧
      t.Holds (written terminals nonterminals count calls) := by
  induction calls using List.reverseRecOn with
  | nil => exact ⟨_, rfl, holds_blank terminals nonterminals count⟩
  | append_singleton calls call ih =>
    rw [List.forall_mem_append] at h
    obtain ⟨t, ht, hholds⟩ := ih h.1
    obtain ⟨t', ht', hholds'⟩ := hholds.call (h.2 call (List.mem_singleton_self call))
    refine ⟨t', ?_, (written_concat calls call).symm ▸ hholds'⟩
    rw [run?_concat, ht]
    exact ht'

theorem Holds.reduction?_eq (h : t.Holds c) (i : Nat) : t.reduction? i = c.reductions[i]? := by
  rw [reduction?, ← Array.getElem?_toList, h.reductions]

theorem Holds.pushReduction_fst (h : t.Holds c) (r : Reduction) :
    (t.pushReduction r).1 = c.reductions.length := by
  rw [← h.reductions, Array.length_toList]
  rfl

/-- Everything that the call does not write reads as before: the other cells of its matrix, the
    other matrix, and the reductions with other numbers than that of the next one. -/
structure Spares (call : TableCall) (t t' : ParseTable) : Prop where
  action : ∀ n a, call.action? n a = none → t'.action n a = t.action n a
  goto : ∀ n l, call.goto? n l = none → t'.goto n l = t.goto n l
  reduction : ∀ i, call.reduction? = none ∨ i ≠ t.reductions.size →
    t'.reduction? i = t.reduction? i

theorem Holds.spares {call : TableCall} (h : t.Holds c) (h' : t'.Holds (c.after call)) :
    Spares call t t' where
  action n a hnone := by
    rw [h.action_eq, h'.action_eq]
    show (if _ then (call.action? n a).getD _ else _) = _
    rw [hnone]
    rfl
  goto n l hnone := by
    rw [h.goto_eq, h'.goto_eq]
    show (if _ then (call.goto? n l).or _ else _) = _
    rw [hnone, Option.none_or]
    rfl
  reduction i hi := by
    rw [h.reduction?_eq, h'.reduction?_eq]
    show (c.reductions ++ call.reduction?.toList)[i]? = _
    obtain hnone | hne := hi
    · rw [hnone, Option.toList_none, List.append_nil]
    · rw [← Array.length_toList, h.reductions] at hne
      cases call.reduction? with
      | none => rw [Option.toList_none, List.append_nil]
      | some r =>
        rw [Option.toList_some, List.getElem?_append]
        split
        · rfl
        · next hle =>
          rw [List.getElem?_eq_none (Nat.le_of_not_lt hle), List.getElem?_eq_none]
          show 1 ≤ i - c.reductions.length
          omega

/-- After calls inside a table, whatever its size, a cell holds what was written to it last, and the
    reductions are those that were added, numbered in their order. Outside the table there is
    nothing to read, and a further call leaves everything but what it writes as it is. -/
theorem run_reads_last (terminals nonterminals : List String) (count : Nat)
    (calls : List TableCall)
    (h : ∀ call ∈ calls, call.Inside count terminals.length nonterminals.length) :
    ∃ t, (blank terminals nonterminals count).run? calls = some t ∧
      (∀ n < count, ∀ a < terminals.length,
        t.action n a = (calls.filterMap (·.action? n a)).getLast?.getD .error) ∧
      (∀ n < count, ∀ l < nonterminals.length,
        t.goto n l = (calls.filterMap (·.goto? n l)).getLast?) ∧
      (∀ i, t.reduction? i = (calls.filterMap (·.reduction?))[i]?) ∧
      (∀ r, (t.pushReduction r).1 = (calls.filterMap (·.reduction?)).length) ∧
      (∀ n a, count ≤ n ∨ terminals.length ≤ a → t.action n a = .error) ∧
      (∀ n l, count ≤ n ∨ nonterminals.length ≤ l → t.goto n l = none) ∧
      ∀ call : TableCall, call.Inside count terminals.length nonterminals.length →
        ∃ t', call.perform? t = some t' ∧ Spares call t t' := by
  obtain ⟨t, ht, hholds⟩ := holds_run h
  refine ⟨t, ht, ?_, ?_, hholds.reduction?_eq, hholds.pushReduction_fst, ?_, ?_, ?_⟩
  · intro n hn a ha
    rw [hholds.action_eq, if_pos ⟨hn, ha⟩]
    rfl
  · intro n hn l hl
    rw [hholds.goto_eq, if_pos ⟨hn, hl⟩]
    rfl
  · intro n a hout
    have hnot : ¬(n < count ∧ a < terminals.length) := by omega
    exact (hholds.action_eq n a).trans (if_neg hnot)
  · intro n l hout
    have hnot : ¬(n < count ∧ l < nonterminals.length) := by omega
    exact (hholds.goto_eq n l).trans (if_neg hnot)
  · intro call hcall
    obtain ⟨t', ht', hholds'⟩ := hholds.call hcall
    exact ⟨t', ht', hholds.spares hholds'⟩

/-- Two states, two terminals and one nonterminal: a cell that is written twice holds the second
    action. Its neighbours at the end of one row and at the start of the next are not touched, and
    neither is the goto in the row. -/
theorem run_reads_last_overwritten :
    (∀ call ∈ [.setAction 0 1 (.shift 1), .pushReduction ⟨0, 1⟩, .setGoto 1 0 0,
        .setAction 0 1 .accept], TableCall.Inside 2 2 1 call) ∧
      ∃ t, (blank ["A", "$end"] ["s"] 2).run? [.setAction 0 1 (.shift 1), .pushReduction ⟨0, 1⟩,
          .setGoto 1 0 0, .setAction 0 1 .accept] = some t ∧
        t.action 0 1 = .accept ∧ t.action 0 0 = .error ∧ t.action 1 0 = .error ∧
        t.goto 0 0 = none ∧ t.goto 1 0 = some 0 ∧ t.reduction? 0 = some ⟨0, 1⟩ ∧
        t.action 0 2 = .error := by
  have hinside : ∀ call ∈ [.setAction 0 1 (.shift 1), .pushReduction ⟨0, 1⟩, .setGoto 1 0 0,
      .setAction 0 1 .accept], TableCall.Inside 2 2 1 call := by decide
  obtain ⟨t, ht, haction, hgoto, hreduction, -, houtside, -, -⟩ :=
    run_reads_last ["A", "$end"] ["s"] 2 _ hinside
  refine ⟨hinside, t, ht, ?_, ?_, ?_, ?_, ?_, hreduction 0, houtside 0 2 (.inr (Nat.le_refl 2))⟩
  · exact haction 0 (by decide) 1 (by decide)
  · exact haction 0 (by decide) 0 (by decide)
  · exact haction 1 (by decide) 0 (by decide)
  · exact hgoto 0 (by decide) 0 (by decide)
  · exact hgoto 1 (by decide) 0 (by decide)

end ParseTable

end FluentGrammar
