import FluentGrammar.Text.Identifier
import Mathlib.Data.List.Basic

/-
  Names made of words. Where words of two or more small letters and digits are joined by
  underscores, raising the first letters of the words and leaving out the underscores loses
  nothing: a capital then stands behind a small letter or a digit, so it begins a word, and every
  capital is the first letter of one (`snakeCase_pascalCase`).
-/

namespace FluentGrammar.Text

variable {c p : Char} {w cs : List Char} {ws : List (List Char)} {prev : Option Char}

/-- A small letter or a digit of ASCII. -/
def isWordChar (c : Char) : Bool := c.isLower || c.isDigit

/-- A small letter of ASCII, with other small letters or digits behind it. -/
inductive IsWord : List Char → Prop
  | cons {c : Char} {cs : List Char} (hc : c.isLower = true) (hne : cs ≠ [])
    (hcs : ∀ d ∈ cs, isWordChar d = true) : IsWord (c :: cs)

/-- The name consists of words joined by single underscores. -/
def IsJoined (name : String) : Prop :=
  ∃ ws : List (List Char), (∀ w ∈ ws, IsWord w) ∧ name.toList = ['_'].intercalate ws

/-- The word with its first letter raised. -/
def capital : List Char → List Char
  | [] => []
  | c :: cs => c.toUpper :: cs

/-! ## Letters and digits -/

/-- What holds of the characters from `a` to `z` holds of all small letters. -/
theorem forall_isLower {P : Char → Prop} (h : ∀ i < 26, P (Char.ofNat (97 + i)))
    (hc : c.isLower = true) : P c := by
  have hbounds : 97 ≤ c.toNat ∧ c.toNat ≤ 122 := by
    obtain ⟨hge, hle⟩ := Bool.and_eq_true_iff.1 hc
    exact ⟨UInt32.le_iff_toNat_le.1 (of_decide_eq_true hge),
      UInt32.le_iff_toNat_le.1 (of_decide_eq_true hle)⟩
  have hchar : Char.ofNat (97 + (c.toNat - 97)) = c := by
    rw [Nat.add_sub_cancel' hbounds.1, Char.ofNat_toNat]
  exact hchar ▸ h (c.toNat - 97) (by omega)

/-- What holds of the small letters and of the characters from `0` to `9` holds of all that words
    are made of. -/
theorem forall_isWordChar {P : Char → Prop} (hlower : ∀ i < 26, P (Char.ofNat (97 + i)))
    (hdigit : ∀ i < 10, P (Char.ofNat (48 + i))) (hc : isWordChar c = true) : P c := by
  obtain hc | hc := Bool.or_eq_true_iff.1 hc
  · exact forall_isLower hlower hc
  · have hbounds : 48 ≤ c.toNat ∧ c.toNat ≤ 57 := by
      simpa [Char.isDigit, UInt32.le_iff_toNat_le, ← Char.toNat_val] using hc
    have hchar : Char.ofNat (48 + (c.toNat - 48)) = c := by
      rw [Nat.add_sub_cancel' hbounds.1, Char.ofNat_toNat]
    exact hchar ▸ hdigit (c.toNat - 48) (by omega)

/-- A small letter is raised, and lowered again. -/
theorem raised_of_isLower (hc : c.isLower = true) :
    raised c = [c.toUpper] ∧ isUpper c.toUpper = true ∧ c.toUpper ≠ '-' ∧
      lowered c.toUpper = [c] :=
  forall_isLower (P := fun c => raised c = [c.toUpper] ∧ isUpper c.toUpper = true ∧
    c.toUpper ≠ '-' ∧ lowered c.toUpper = [c]) (by decide +kernel) hc

/-- What words are made of stays as it is, and a capital behind it begins a word. -/
theorem plain_of_isWordChar (hc : isWordChar c = true) :
    isSeparator c = false ∧ c ≠ '-' ∧ isUpper c = false ∧
      (isLower c || c.isDigit) = true :=
  forall_isWordChar (P := fun c => isSeparator c = false ∧ c ≠ '-' ∧ isUpper c = false ∧
    (isLower c || c.isDigit) = true) (by decide +kernel) (by decide +kernel) hc

theorem isWordChar_of_isLower (hc : c.isLower = true) : isWordChar c = true := by
  rw [isWordChar, hc, Bool.true_or]

/-! ## Raising -/

theorem pascalChars_append (h : ∀ d ∈ cs, isWordChar d = true) (rest : List Char) :
    pascalChars false (cs ++ rest) = cs ++ pascalChars false rest := by
  induction cs with
  | nil => rfl
  | cons d cs ih =>
    obtain ⟨hd, hcs⟩ := List.forall_mem_cons.1 h
    rw [List.cons_append, pascalChars, (plain_of_isWordChar hd).1, ih hcs]
    rfl

theorem pascalChars_word (h : IsWord w) (rest : List Char) :
    pascalChars true (w ++ rest) = capital w ++ pascalChars false rest := by
  obtain ⟨hc, -, hcs⟩ := h
  rw [List.cons_append, pascalChars, (plain_of_isWordChar (isWordChar_of_isLower hc)).1,
    (raised_of_isLower hc).1, pascalChars_append hcs]
  rfl

theorem pascalChars_joined (h : ∀ w ∈ ws, IsWord w) :
    pascalChars true (['_'].intercalate ws) = ws.flatMap capital := by
  induction ws with
  | nil => rfl
  | cons w ws ih =>
    obtain ⟨hw, hws⟩ := List.forall_mem_cons.1 h
    cases ws with
    | nil =>
      have hlast := pascalChars_word hw []
      simpa [pascalChars] using hlast
    | cons v ws =>
      have hjoin : ['_'].intercalate (w :: v :: ws) = w ++ '_' :: ['_'].intercalate (v :: ws) := rfl
      rw [hjoin, pascalChars_word hw, List.flatMap_cons, ← ih hws]
      rfl

/-! ## Lowering -/

/-- The characters of a word stay as they are, and what follows them stands behind one of them. -/
theorem snakeChars_append (h : ∀ d ∈ cs, isWordChar d = true) (hne : cs ≠ [])
    (prev : Option Char) (rest : List Char) :
    ∃ q, isWordChar q = true ∧ snakeChars prev (cs ++ rest) = cs ++ snakeChars (some q) rest := by
  induction cs generalizing prev with
  | nil => exact absurd rfl hne
  | cons d cs ih =>
    obtain ⟨hd, hcs⟩ := List.forall_mem_cons.1 h
    obtain ⟨-, hhyphen, hupper, -⟩ := plain_of_isWordChar hd
    have hstep : snakeChars prev (d :: cs ++ rest) = d :: snakeChars (some d) (cs ++ rest) := by
      rw [List.cons_append, snakeChars, if_neg (by simpa using hhyphen), hupper]
      rfl
    rw [hstep]
    by_cases hlast : cs = []
    · subst hlast
      exact ⟨d, hd, rfl⟩
    · obtain ⟨q, hq, hrest⟩ := ih hcs hlast (some d)
      exact ⟨q, hq, congrArg (d :: ·) hrest⟩

/-- What is written in front of a capital: an underscore, unless it is the first character. -/
def gap (prev : Option Char) : List Char := if prev.isSome then ['_'] else []

theorem startsWord_gap (hprev : ∀ p ∈ prev, isWordChar p = true) (next : Option Char) :
    (if startsWord prev next then ['_'] else []) = gap prev := by
  cases prev with
  | none => rfl
  | some p =>
    have hp := (plain_of_isWordChar (hprev p rfl)).2.2.2
    rw [startsWord, hp, Bool.true_or]
    rfl

/-- A capital is lowered where it stands, and the rest of its word ends behind a character of it. -/
theorem snakeChars_capital (h : IsWord w) (prev : Option Char)
    (hprev : ∀ p ∈ prev, isWordChar p = true) (rest : List Char) :
    ∃ q, isWordChar q = true ∧
      snakeChars prev (capital w ++ rest) = gap prev ++ w ++ snakeChars (some q) rest := by
  obtain @⟨c, cs, hc, hne, hcs⟩ := h
  obtain ⟨-, hupper, hhyphen, hlowered⟩ := raised_of_isLower hc
  obtain ⟨q, hq, hrest⟩ := snakeChars_append hcs hne (some c.toUpper) rest
  refine ⟨q, hq, ?_⟩
  rw [capital, List.cons_append, snakeChars, hrest, startsWord_gap hprev, hlowered,
    if_neg (by simpa using hhyphen), if_pos hupper]
  simp

theorem snakeChars_capitals (h : ∀ w ∈ ws, IsWord w) (hp : isWordChar p = true) :
    snakeChars (some p) (ws.flatMap capital) = ws.flatMap ('_' :: ·) := by
  induction ws generalizing p with
  | nil => rfl
  | cons w ws ih =>
    obtain ⟨hw, hws⟩ := List.forall_mem_cons.1 h
    obtain ⟨q, hq, hchars⟩ := snakeChars_capital hw (some p) (by simpa using hp)
      (ws.flatMap capital)
    rw [List.flatMap_cons, hchars, ih hws hq, List.flatMap_cons]
    rfl

theorem intercalate_cons (sep w : List Char) (ws : List (List Char)) :
    sep.intercalate (w :: ws) = w ++ ws.flatMap (sep ++ ·) := by
  induction ws generalizing w with
  | nil => simp
  | cons v ws ih =>
    rw [List.intercalate_cons_cons, ih, List.flatMap_cons]
    simp only [List.append_assoc]

/-- Raising the words of a name and taking them apart again gives the name. -/
theorem snakeCase_pascalCase {name : String} (h : IsJoined name) :
    snakeCase (pascalCase name) = name := by
  obtain ⟨ws, hws, hname⟩ := h
  have hchars : snakeChars none (ws.flatMap capital) = ['_'].intercalate ws := by
    cases ws with
    | nil => rfl
    | cons w ws =>
      obtain ⟨hw, hws⟩ := List.forall_mem_cons.1 hws
      obtain ⟨q, hq, hchars⟩ := snakeChars_capital hw none (by simp)
        (ws.flatMap capital)
      rw [List.flatMap_cons, hchars, snakeChars_capitals hws hq, intercalate_cons]
      rfl
  rw [snakeCase, pascalCase, String.toList_ofList, hname, pascalChars_joined hws, hchars, ← hname,
    String.ofList_toList]

end FluentGrammar.Text
