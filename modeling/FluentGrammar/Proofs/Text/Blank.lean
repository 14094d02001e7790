import FluentGrammar.Text.Blank
import Mathlib.Data.List.DropRight

/-
  Texts without blanks at their ends. A text is what is left of it between blanks (`exists_trim`),
  and blanks around a text do not matter to what is left (`trim_blanks`).
-/

namespace FluentGrammar.Text

variable {cs front back : List Char} {c : Char}

/-- All characters are blanks. -/
def Blanks (cs : List Char) : Prop := ∀ c ∈ cs, isBlank c = true

theorem beq_eq_false_of_isBlank {c' : Char} (h : isBlank c = true) (h' : isBlank c' = false) :
    (c == c') = false := by
  refine beq_eq_false_iff_ne.2 fun heq => ?_
  rw [heq, h'] at h
  cases h

/-- There are no blanks at either end. -/
structure Trimmed (cs : List Char) : Prop where
  head : ∀ c ∈ cs.head?, isBlank c = false
  last : ∀ c ∈ cs.getLast?, isBlank c = false

theorem trimEnd_eq (cs : List Char) : trimEnd cs = cs.rdropWhile isBlank := rfl

theorem trimStart_eq_self (h : ∀ c ∈ cs.head?, isBlank c = false) : trimStart cs = cs := by
  cases cs with
  | nil => rfl
  | cons c rest => exact List.dropWhile_cons_of_neg (by simp [h c rfl])

/-- What is left of a text does not start with a blank. -/
theorem head?_trimStart (h : (trimStart cs).head? = some c) : isBlank c = false := by
  have hnot := List.head?_dropWhile_not isBlank cs
  rw [trimStart] at h
  rw [h] at hnot
  simpa using hnot

theorem Trimmed.trim_eq (h : Trimmed cs) : trim cs = cs := by
  rw [trim, trimStart_eq_self h.head, trimEnd_eq, List.rdropWhile_eq_self_iff]
  intro hne hblank
  rw [h.last _ (List.getLast?_eq_some_getLast hne)] at hblank
  cases hblank

/-- What stands between two texts does not matter. -/
theorem Trimmed.append {xs ys : List Char} (hx : Trimmed xs) (hy : Trimmed ys) (hxs : xs ≠ [])
    (hys : ys ≠ []) (mid : List Char) : Trimmed (xs ++ mid ++ ys) := by
  constructor
  · intro c hc
    obtain ⟨d, rest, rfl⟩ := List.exists_cons_of_ne_nil hxs
    exact hx.head c hc
  · intro c hc
    rw [List.getLast?_append_of_ne_nil _ hys] at hc
    exact hy.last c hc

theorem trimmed_trim (cs : List Char) : Trimmed (trim cs) := by
  constructor
  · intro c hc
    obtain ⟨rest, hrest⟩ := List.rdropWhile_prefix isBlank (trimStart cs)
    have hhead : (trimStart cs).head? = some c := by
      rw [← hrest, List.head?_append]
      rw [trim, trimEnd_eq] at hc
      rw [hc]
      rfl
    exact head?_trimStart hhead
  · intro c hc
    obtain ⟨hne, rfl⟩ := List.mem_getLast?_eq_getLast hc
    exact eq_false_of_ne_true (List.rdropWhile_last_not isBlank _ hne)

/-- A text is what is left of it, between blanks. -/
theorem exists_trim (cs : List Char) :
    ∃ front back, Blanks front ∧ Blanks back ∧ cs = front ++ trim cs ++ back := by
  refine ⟨cs.takeWhile isBlank, (trimStart cs).rtakeWhile isBlank,
    fun c hc => List.mem_takeWhile_imp hc, fun c hc => List.mem_rtakeWhile_imp hc, ?_⟩
  rw [trim, trimEnd_eq, List.append_assoc, List.rdropWhile_append_rtakeWhile, trimStart,
    List.takeWhile_append_dropWhile]

theorem length_trimStart_le (cs : List Char) : (trimStart cs).length ≤ cs.length :=
  List.length_dropWhile_le isBlank cs

/-- Where something is found behind blanks, the rest of the text is shorter. -/
theorem length_lt_of_trimStart {rest : List Char} (h : trimStart cs = c :: rest) :
    rest.length < cs.length := by
  have hle := length_trimStart_le cs
  rwa [h, List.length_cons] at hle

theorem trimStart_eq_nil_iff : trimStart cs = [] ↔ Blanks cs := List.dropWhile_eq_nil_iff

theorem trim_eq_nil_iff : trim cs = [] ↔ Blanks cs := by
  rw [trim, trimEnd_eq, List.rdropWhile_eq_nil_iff, ← trimStart_eq_nil_iff]
  constructor
  · intro h
    -- What is left would start with a blank.
    cases hcs : trimStart cs with
    | nil => rfl
    | cons c rest =>
      have hc := head?_trimStart (congrArg List.head? hcs)
      rw [h c (hcs ▸ List.mem_cons_self)] at hc
      cases hc
  · intro h c hc
    rw [h] at hc
    cases hc

theorem trimStart_append (hfront : Blanks front) : trimStart (front ++ cs) = trimStart cs :=
  List.dropWhile_append_of_pos hfront

theorem trimEnd_append (hback : Blanks back) : trimEnd (cs ++ back) = trimEnd cs := by
  have hreverse : ∀ c ∈ back.reverse, isBlank c = true := fun c hc =>
    hback c (List.mem_reverse.1 hc)
  rw [trimEnd, trimEnd, List.reverse_append, List.dropWhile_append_of_pos hreverse]

/-- Blanks around a text do not matter. -/
theorem trim_blanks (hfront : Blanks front) (hback : Blanks back) :
    trim (front ++ cs ++ back) = trim cs := by
  rw [trim, trim, List.append_assoc, trimStart_append hfront]
  have hsplit : trimStart (cs ++ back) = trimStart cs ++ back ∨
      trimStart (cs ++ back) = [] ∧ trimStart cs = [] := by
    rw [trimStart, trimStart, List.dropWhile_append]
    split
    · next h => exact .inr ⟨List.dropWhile_eq_nil_iff.2 hback, List.isEmpty_iff.1 h⟩
    · exact .inl rfl
  obtain h | ⟨h, h'⟩ := hsplit
  · rw [h, trimEnd_append hback]
  · rw [h, h']

end FluentGrammar.Text
