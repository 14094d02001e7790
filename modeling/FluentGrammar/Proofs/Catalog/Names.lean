import FluentGrammar.Catalog.TypeReader
import FluentGrammar.Proofs.Text.Blank

/-
  Where a name in a type ends. A name is read character by character, and what is known in between
  is how many brackets are open and whether the last character was a hyphen. The reader takes the
  characters up to the first that it cannot go on with (`cut_takeName`), and no other part of the
  text is like that (`Cut.unique`). So a name ends at the same place whatever it is followed by, as
  long as the reader cannot go on there (`takeName_append`).
-/

namespace FluentGrammar.Catalog.TypeReader

open Text

/-- What is known inside a name: the parentheses and square brackets that are open, and whether the
    last character was a hyphen. -/
structure NameState where
  depth : Nat
  dash : Bool
  deriving DecidableEq

variable {s t : NameState} {c : Char} {xs ys xs' ys' cs : List Char} {d : Nat} {dash : Bool}

namespace NameState

/-- Goes on with a character, or not: angle brackets and commas end a name outside brackets, but the
    end of an arrow does not, and a bracket that was not opened does anywhere. -/
def next (s : NameState) (c : Char) : Option NameState :=
  if c == '(' || c == '[' then some ⟨s.depth + 1, false⟩
  else if c == ')' || c == ']' then if s.depth == 0 then none else some ⟨s.depth - 1, false⟩
  else if s.depth == 0 && (c == '<' || c == ',' || c == '>' && !s.dash) then none
  else some ⟨s.depth, c == '-'⟩

/-- Goes on with all characters. -/
def run? (s : NameState) (cs : List Char) : Option NameState := cs.foldlM next s

theorem run?_cons (s : NameState) (c : Char) (cs : List Char) :
    s.run? (c :: cs) = (s.next c).bind (·.run? cs) := List.foldlM_cons

theorem run?_append (s : NameState) (xs ys : List Char) :
    s.run? (xs ++ ys) = (s.run? xs).bind (·.run? ys) := List.foldlM_append

/-- The hyphen matters to the end of an arrow alone. -/
theorem next_dash (h : c ≠ '>') (dash' : Bool) : next ⟨d, dash⟩ c = next ⟨d, dash'⟩ c := by
  simp [next, h]

theorem dash_of_next (h : s.next c = some t) : t.dash = (c == '-') := by
  unfold next at h
  grind

/-- There is no going on at what ends a name, and only outside brackets. -/
theorem next_eq_none_iff : s.next c = none ↔
    s.depth = 0 ∧ (c = ')' ∨ c = ']' ∨ c = '<' ∨ c = ',' ∨ c = '>' ∧ s.dash = false) := by
  unfold next
  grind

/-- What stands around arguments ends a name outside brackets. -/
theorem next_of_mem (h : c = '<' ∨ c = ',' ∨ c = '>') : next ⟨0, false⟩ c = none :=
  next_eq_none_iff.2 ⟨rfl, by tauto⟩

end NameState

/-! ## The end of a name -/

/-- The first part can be gone through, and it is not possible to go on with the second. -/
def Cut (s : NameState) (xs ys : List Char) : Prop :=
  ∃ t, s.run? xs = some t ∧ ∀ c ∈ ys.head?, t.next c = none

theorem Cut.cons (hnext : s.next c = some t) (h : Cut t xs ys) : Cut s (c :: xs) ys := by
  obtain ⟨u, hrun, hstop⟩ := h
  exact ⟨u, by rw [NameState.run?_cons, hnext]; exact hrun, hstop⟩

theorem Cut.nil (h : ∀ c ∈ ys.head?, s.next c = none) : Cut s [] ys := ⟨s, rfl, h⟩

/-- A hyphen before the text only matters when this begins with the end of an arrow. -/
theorem Cut.of_head (h : Cut ⟨d, dash⟩ xs ys) (hhead : (xs ++ ys).head? ≠ some '>') (dash' : Bool) :
    Cut ⟨d, dash'⟩ xs ys := by
  obtain ⟨t, hrun, hstop⟩ := h
  cases xs with
  | nil =>
    obtain rfl := Option.some.inj hrun
    refine .nil fun c hc => ?_
    rw [← hstop c hc]
    refine NameState.next_dash (fun heq => hhead ?_) _
    rw [List.nil_append, hc, heq]
  | cons c xs =>
    refine ⟨t, ?_, hstop⟩
    rw [NameState.run?_cons] at hrun ⊢
    rwa [NameState.next_dash (fun heq => hhead (congrArg some heq)) dash]

/-- There is one place to cut a text. -/
theorem Cut.unique (h : Cut s xs ys) (h' : Cut s xs' ys') (heq : xs ++ ys = xs' ++ ys') :
    xs = xs' ∧ ys = ys' := by
  -- One part cannot go beyond the end of the other.
  have hends {s : NameState} {c : Char} {xs ys zs : List Char} (h : Cut s [] (c :: ys))
      (h' : Cut s (c :: xs) zs) : False := by
    obtain ⟨t, hrun, hstop⟩ := h
    obtain rfl := Option.some.inj hrun
    obtain ⟨t', hrun', -⟩ := h'
    rw [NameState.run?_cons, hstop c rfl] at hrun'
    cases hrun'
  induction xs generalizing s xs' with
  | nil =>
    cases xs' with
    | nil => exact ⟨rfl, heq⟩
    | cons c xs' =>
      obtain rfl : ys = c :: (xs' ++ ys') := heq
      exact (hends h h').elim
  | cons c xs ih =>
    cases xs' with
    | nil =>
      obtain rfl : c :: (xs ++ ys) = ys' := heq
      exact (hends h' h).elim
    | cons c' xs' =>
      obtain ⟨rfl, htail⟩ := List.cons.inj heq
      obtain ⟨t, hrun, hstop⟩ := h
      obtain ⟨t', hrun', hstop'⟩ := h'
      rw [NameState.run?_cons] at hrun hrun'
      obtain ⟨u, hnext, hrun⟩ := Option.bind_eq_some_iff.1 hrun
      rw [hnext] at hrun'
      obtain ⟨rfl, rfl⟩ := ih ⟨t, hrun, hstop⟩ ⟨t', hrun', hstop'⟩ htail
      exact ⟨rfl, rfl⟩

theorem takeName_append_eq (d : Nat) (cs : List Char) :
    (takeName d cs).1 ++ (takeName d cs).2 = cs := by
  fun_induction takeName d cs <;> simp_all

/-- A name is read up to the first character that the reader cannot go on with. -/
theorem cut_takeName (d : Nat) (cs : List Char) :
    Cut ⟨d, false⟩ (takeName d cs).1 (takeName d cs).2 := by
  fun_induction takeName d cs with
  | case1 => exact .nil nofun
  | case2 d rest name after heq ih =>
    rw [heq] at ih
    refine .cons (t := ⟨d, true⟩) ?_ (.cons (t := ⟨d, false⟩) ?_ ih) <;> simp [NameState.next]
  | case3 d c rest _ hopen name after heq ih =>
    rw [heq] at ih
    exact .cons (if_pos hopen) ih
  | case4 c rest _ _ hclose =>
    refine .nil fun c' hc => ?_
    obtain rfl := Option.some.inj hc
    rw [Bool.or_eq_true, beq_iff_eq, beq_iff_eq] at hclose
    exact NameState.next_eq_none_iff.2 ⟨rfl, by tauto⟩
  | case5 c rest _ hopen hclose d name after heq ih =>
    rw [heq] at ih
    refine .cons ?_ ih
    rw [NameState.next, if_neg hopen, if_pos hclose]
    rfl
  | case6 d c rest _ _ _ hstop =>
    refine .nil fun c' hc => ?_
    obtain rfl := Option.some.inj hc
    simp only [Bool.and_eq_true, Bool.or_eq_true, beq_iff_eq] at hstop
    exact NameState.next_eq_none_iff.2 ⟨hstop.1, by tauto⟩
  | case7 d c rest harrow hopen hclose hgo name after heq ih =>
    rw [heq] at ih
    have hnext : NameState.next ⟨d, false⟩ c = some ⟨d, c == '-'⟩ := by
      rw [NameState.next, if_neg hopen, if_neg hclose, if_neg (by simpa using hgo)]
    refine .cons hnext ?_
    -- After a hyphen the rest does not begin with the end of an arrow.
    by_cases hdash : c = '-'
    · refine ih.of_head (fun hhead => ?_) _
      have hrest := takeName_append_eq d rest
      rw [heq] at hrest
      obtain ⟨more, hmore⟩ := List.head?_eq_some_iff.1 hhead
      exact harrow more hdash (hrest.symm.trans hmore)
    · rwa [beq_eq_false_iff_ne.2 hdash]

/-- Where a text can be cut, a name ends. -/
theorem takeName_append (h : Cut ⟨d, false⟩ xs ys) : takeName d (xs ++ ys) = (xs, ys) := by
  obtain ⟨hname, hafter⟩ := (cut_takeName d (xs ++ ys)).unique h (takeName_append_eq d (xs ++ ys))
  exact Prod.ext hname hafter

/-! ## Names without the blanks around them -/

namespace NameState

theorem next_of_isBlank (s : NameState) (h : isBlank c = true) :
    s.next c = some ⟨s.depth, false⟩ := by
  have hne (c' : Char) (h' : isBlank c' = false) := beq_eq_false_of_isBlank h h'
  simp only [next, hne '(' rfl, hne '[' rfl, hne ')' rfl,
    hne ']' rfl, hne '<' rfl, hne ',' rfl, hne '>' rfl,
    hne '-' rfl]
  simp

/-- Blanks open and close nothing. -/
theorem depth_of_blanks (h : Blanks cs) (hrun : s.run? cs = some t) : t.depth = s.depth := by
  induction cs generalizing s with
  | nil =>
    obtain rfl := Option.some.inj hrun
    rfl
  | cons c cs ih =>
    obtain ⟨hc, hcs⟩ := List.forall_mem_cons.1 h
    rw [run?_cons, next_of_isBlank s hc, Option.bind_some] at hrun
    rw [ih hcs hrun]

/-- The last character is a hyphen or not. -/
theorem dash_of_run? (hrun : s.run? cs = some t) (hc : cs.getLast? = some c) :
    t.dash = (c == '-') := by
  obtain ⟨front, rfl⟩ := List.getLast?_eq_some_iff.1 hc
  rw [run?_append] at hrun
  obtain ⟨u, -, hrun⟩ := Option.bind_eq_some_iff.1 hrun
  rw [run?_cons] at hrun
  obtain ⟨v, hnext, hrun⟩ := Option.bind_eq_some_iff.1 hrun
  obtain rfl := Option.some.inj hrun
  exact dash_of_next hnext

end NameState

/-- A name that ends with `d` open brackets and without a hyphen, and is not the sign for an open
    slot. -/
structure IsName (d : Nat) (name : List Char) : Prop where
  run : NameState.run? ⟨0, false⟩ name = some ⟨d, false⟩
  trimmed : Trimmed name
  ne_nil : name ≠ []
  head : name.head? ≠ some '?'

/-- What is read is a name, with no open brackets if anything follows. -/
theorem exists_isName_of_takeName (hblank : ∀ c ∈ cs.head?, isBlank c = false)
    (hslot : cs.head? ≠ some '?') (hname : takeName 0 cs = (xs, ys)) (hne : trim xs ≠ [])
    (hdash : (trim xs).getLast? ≠ some '-') :
    ∃ d, IsName d (trim xs) ∧ (ys ≠ [] → d = 0) := by
  obtain ⟨t, hrun, hstop⟩ := cut_takeName 0 cs
  have hcs := takeName_append_eq 0 cs
  rw [hname] at hrun hstop hcs
  have hhead {c : Char} (hc : xs.head? = some c) : cs.head? = some c := by
    rw [← hcs, List.head?_append, hc]
    rfl
  obtain ⟨front, back, hfront, hback, hxs⟩ := exists_trim xs
  obtain rfl : front = [] := by
    cases front with
    | nil => rfl
    | cons c front =>
      have hc := hblank c (hhead (by rw [hxs]; rfl))
      rw [hfront c List.mem_cons_self] at hc
      cases hc
  rw [List.nil_append] at hxs
  dsimp only at hrun
  rw [hxs, NameState.run?_append] at hrun
  obtain ⟨u, hrun, hback'⟩ := Option.bind_eq_some_iff.1 hrun
  have hdepth := NameState.depth_of_blanks hback hback'
  have hu : u.dash = false := by
    obtain ⟨c, hc⟩ := Option.ne_none_iff_exists'.1 (mt List.getLast?_eq_none_iff.1 hne)
    rw [NameState.dash_of_run? hrun hc, beq_eq_false_iff_ne]
    exact fun heq => hdash (hc.trans (congrArg some heq))
  refine ⟨u.depth, ⟨?_, trimmed_trim xs, hne, fun heq => hslot (hhead ?_)⟩, fun hys => ?_⟩
  · rw [hrun, ← hu]
  · rw [hxs, List.head?_append, heq]
    rfl
  · obtain ⟨c, ys, rfl⟩ := List.exists_cons_of_ne_nil hys
    rw [← hdepth]
    exact (NameState.next_eq_none_iff.1 (hstop c rfl)).1

namespace IsName

variable {name rest : List Char}

/-- A name is read to its end where the reader cannot go on with what follows. -/
theorem takeName_append (h : IsName d name)
    (hstop : ∀ c ∈ rest.head?, NameState.next ⟨d, false⟩ c = none) :
    takeName 0 (name ++ rest) = (name, rest) :=
  TypeReader.takeName_append ⟨_, h.run, hstop⟩

/-- What can follow a name without open brackets among arguments. -/
theorem takeName_append_of_mem (h : IsName 0 name)
    (hrest : ∀ c ∈ rest.head?, c = '<' ∨ c = ',' ∨ c = '>') :
    takeName 0 (name ++ rest) = (name, rest) :=
  h.takeName_append fun c hc => NameState.next_of_mem (hrest c hc)

theorem head?_append (h : IsName d name) : (name ++ rest).head? = name.head? := by
  obtain ⟨c, name, rfl⟩ := List.exists_cons_of_ne_nil h.ne_nil
  rfl

theorem trimStart_append (h : IsName d name) : trimStart (name ++ rest) = name ++ rest :=
  trimStart_eq_self (by rw [h.head?_append]; exact h.trimmed.head)

/-- A name does not begin with what closes or separates arguments. -/
theorem head_ne (h : IsName d name) {c : Char} (hc : NameState.next ⟨0, false⟩ c = none) :
    name.head? ≠ some c := by
  intro hhead
  obtain ⟨name, rfl⟩ := List.head?_eq_some_iff.1 hhead
  have hrun := h.run
  rw [NameState.run?_cons, hc] at hrun
  cases hrun

end IsName

end FluentGrammar.Catalog.TypeReader
