import FluentGrammar.Proofs.Catalog.Types

/-
  Declarations of generic parameters as they are written and read. A text is split at a plus sign
  when as many brackets are closed as are open in front of it, and what is known there is the depth
  of brackets and whether the last character was a hyphen. A split goes through a text without such
  a place and finds the first one behind it (`splitPlus?_append`). Bounds are texts without blanks
  at their ends and without a place to split, and all but the last are balanced, in the sense that
  the depth behind them is zero (`Bounds`). That is what is read (`bounds_splitBounds`), and it is
  found again between plus signs (`splitBounds_joined`), so a declaration is read back
  (`parseGeneric_declaration`).
-/

namespace FluentGrammar.Catalog

open Text

namespace TypeReader

/-- What is known inside a list of bounds: the depth of brackets, and whether the last character was
    a hyphen. -/
structure BoundState where
  depth : Int
  dash : Bool
  deriving DecidableEq

variable {s : BoundState} {c : Char} {xs ys cs head tail b : List Char} {bs : List String}

namespace BoundState

/-- Goes on with a character. -/
def next (s : BoundState) (c : Char) : BoundState := ⟨s.depth + bracketChange s.dash c, c == '-'⟩

/-- Goes on with all characters. -/
def run (s : BoundState) (cs : List Char) : BoundState := cs.foldl next s

@[simp] theorem run_nil (s : BoundState) : s.run [] = s := rfl

@[simp] theorem run_cons (s : BoundState) (c : Char) (cs : List Char) :
    s.run (c :: cs) = (s.next c).run cs := rfl

theorem run_append (s : BoundState) (xs ys : List Char) : s.run (xs ++ ys) = (s.run xs).run ys :=
  List.foldl_append

/-- A blank opens and closes nothing. -/
theorem next_of_isBlank (s : BoundState) (h : isBlank c = true) : s.next c = ⟨s.depth, false⟩ := by
  have hne (c' : Char) (h' : isBlank c' = false) := beq_eq_false_of_isBlank h h'
  simp only [next, bracketChange, hne '<' rfl, hne '(' rfl, hne '[' rfl, hne '>' rfl, hne ')' rfl,
    hne ']' rfl, hne '-' rfl]
  simp

theorem depth_run_blanks (s : BoundState) (h : Blanks cs) : (s.run cs).depth = s.depth := by
  induction cs generalizing s with
  | nil => rfl
  | cons c cs ih =>
    obtain ⟨hc, hcs⟩ := List.forall_mem_cons.1 h
    rw [run_cons, next_of_isBlank s hc, ih _ hcs]

/-- Blanks at the start make no difference. -/
theorem run_blanks {depth : Int} (h : Blanks cs) : run ⟨depth, false⟩ cs = ⟨depth, false⟩ := by
  induction cs with
  | nil => rfl
  | cons c cs ih =>
    obtain ⟨hc, hcs⟩ := List.forall_mem_cons.1 h
    rw [run_cons, next_of_isBlank _ hc, ih hcs]

end BoundState

/-! ## Splits at plus signs -/

/-- Splits at the first plus sign outside all brackets. -/
def splitPlus? (s : BoundState) (cs : List Char) : Option (List Char × List Char) :=
  splitTop? '+' s.depth s.dash cs

theorem splitPlus?_nil (s : BoundState) : splitPlus? s [] = none := by
  rw [splitPlus?, splitTop?]

private theorem splitPlus?_cons_of_ne (s : BoundState) (h : ∀ rest, c = ':' → cs ≠ ':' :: rest) :
    splitPlus? s (c :: cs) =
      if s.depth = 0 ∧ c = '+' then some ([], cs)
      else (splitPlus? (s.next c) cs).map fun (head, tail) => (c :: head, tail) := by
  rw [splitPlus?, splitTop?]
  · simp [splitPlus?, BoundState.next]
  · exact h

/-- Pairs of colons are nothing special here: neither of them is a plus sign or a bracket. -/
theorem splitPlus?_cons (s : BoundState) (c : Char) (cs : List Char) :
    splitPlus? s (c :: cs) =
      if s.depth = 0 ∧ c = '+' then some ([], cs)
      else (splitPlus? (s.next c) cs).map fun (head, tail) => (c :: head, tail) := by
  induction cs generalizing s c with
  | nil => exact splitPlus?_cons_of_ne s nofun
  | cons c' cs ih =>
    by_cases hpair : c = ':' ∧ c' = ':'
    · obtain ⟨rfl, rfl⟩ := hpair
      have hnext (s : BoundState) : s.next ':' = ⟨s.depth, false⟩ := by
        cases hdash : s.dash <;> simp [BoundState.next, bracketChange]
      have hcolon : ¬(s.depth = 0 ∧ ':' = '+') := by simp
      rw [if_neg hcolon, ih, hnext, hnext, if_neg hcolon, Option.map_map, splitPlus?, splitTop?]
      rfl
    · exact splitPlus?_cons_of_ne s fun rest hc hcs => hpair ⟨hc, (List.cons.inj hcs).1⟩

/-- A split goes through a text without a place to split. -/
theorem splitPlus?_append (h : splitPlus? s xs = none) :
    splitPlus? s (xs ++ ys) =
      (splitPlus? (s.run xs) ys).map fun (head, tail) => (xs ++ head, tail) := by
  induction xs generalizing s with
  | nil => simp
  | cons c xs ih =>
    rw [splitPlus?_cons] at h
    rw [List.cons_append, splitPlus?_cons]
    split at h
    · cases h
    · next hc =>
      rw [if_neg hc, ih (Option.map_eq_none_iff.1 h), Option.map_map]
      rfl

/-- Where there is a place to split, there is one in a longer text. -/
theorem splitPlus?_append_eq_none_iff :
    splitPlus? s (xs ++ ys) = none ↔ splitPlus? s xs = none ∧ splitPlus? (s.run xs) ys = none := by
  induction xs generalizing s with
  | nil => simp [splitPlus?_nil]
  | cons c xs ih =>
    rw [List.cons_append, splitPlus?_cons, splitPlus?_cons, BoundState.run_cons]
    split
    · simp
    · rw [Option.map_eq_none_iff, Option.map_eq_none_iff, ih]

/-- A split is at a plus sign outside all brackets, and there is none before. -/
theorem splitPlus?_eq_some_iff : splitPlus? s cs = some (head, tail) ↔
    cs = head ++ '+' :: tail ∧ splitPlus? s head = none ∧ (s.run head).depth = 0 := by
  constructor
  · intro h
    induction cs generalizing s head with
    | nil =>
      rw [splitPlus?_nil] at h
      cases h
    | cons c cs ih =>
      rw [splitPlus?_cons] at h
      split at h
      · next hc =>
        cases h
        exact ⟨by rw [hc.2]; rfl, splitPlus?_nil s, hc.1⟩
      · next hc =>
        obtain ⟨⟨front, back⟩, h, heq⟩ := Option.map_eq_some_iff.1 h
        cases heq
        obtain ⟨rfl, hnone, hdepth⟩ := ih h
        refine ⟨rfl, ?_, hdepth⟩
        rw [splitPlus?_cons, if_neg hc, hnone]
        rfl
  · rintro ⟨rfl, hnone, hdepth⟩
    rw [splitPlus?_append hnone, splitPlus?_cons, if_pos ⟨hdepth, rfl⟩]
    simp

theorem splitPlus?_blanks (h : Blanks cs) : splitPlus? s cs = none := by
  induction cs generalizing s with
  | nil => exact splitPlus?_nil s
  | cons c cs ih =>
    obtain ⟨hc, hcs⟩ := List.forall_mem_cons.1 h
    rw [splitPlus?_cons, if_neg, ih hcs]
    · rfl
    · rintro ⟨-, rfl⟩
      cases hc

/-! ## Lists of bounds -/

/-- The state in front of a bound. -/
def BoundState.start : BoundState := ⟨0, false⟩

/-- A text without blanks at its ends and without a place to split. -/
structure IsBound (b : List Char) : Prop where
  trimmed : Trimmed b
  unsplit : splitPlus? .start b = none

/-- Bounds between plus signs. The depth is zero behind all but the last. -/
inductive Bounds : List String → Prop
  | last {b : String} (hb : IsBound b.toList) : Bounds [b]
  | cons {b : String} {bs : List String} (hb : IsBound b.toList)
    (hdepth : (BoundState.start.run b.toList).depth = 0) (hbs : Bounds bs) : Bounds (b :: bs)

theorem splitBounds_of_none (h : splitPlus? .start cs = none) :
    splitBounds cs = [String.ofList (trim cs)] := by
  rw [splitBounds]
  split
  · rfl
  · next heq =>
    have := h.symm.trans heq
    cases this

theorem splitBounds_of_some (h : splitPlus? .start cs = some (head, tail)) :
    splitBounds cs = String.ofList (trim head) :: splitBounds tail := by
  rw [splitBounds]
  split
  · next heq =>
    have := h.symm.trans heq
    cases this
  · next heq =>
    obtain ⟨rfl, rfl⟩ := Prod.mk.inj (Option.some.inj (h.symm.trans heq))
    rfl

/-- Blanks at the ends of a text make no difference to its splits and to the depth behind it. -/
theorem splitPlus?_trim :
    (splitPlus? .start (trim cs) = none ↔ splitPlus? .start cs = none) ∧
      (BoundState.start.run (trim cs)).depth = (BoundState.start.run cs).depth := by
  obtain ⟨front, back, hfront, hback, hcs⟩ := exists_trim cs
  have hrun : BoundState.start.run front = .start := BoundState.run_blanks hfront
  constructor
  · conv_rhs => rw [hcs]
    rw [splitPlus?_append_eq_none_iff, splitPlus?_append_eq_none_iff, hrun]
    simp [splitPlus?_blanks hfront, splitPlus?_blanks hback]
  · conv_rhs => rw [hcs]
    rw [BoundState.run_append, BoundState.run_append, hrun, BoundState.depth_run_blanks _ hback]

theorem isBound_trim (h : splitPlus? .start cs = none) :
    IsBound (String.ofList (trim cs)).toList := by
  rw [String.toList_ofList]
  exact ⟨trimmed_trim cs, splitPlus?_trim.1.2 h⟩

/-- What is read is a list of bounds. -/
theorem bounds_splitBounds (cs : List Char) : Bounds (splitBounds cs) := by
  induction hn : cs.length using Nat.strong_induction_on generalizing cs with
  | _ n ih =>
    subst hn
    cases hsplit : splitPlus? .start cs with
    | none =>
      rw [splitBounds_of_none hsplit]
      exact .last (isBound_trim hsplit)
    | some parts =>
      obtain ⟨head, tail⟩ := parts
      rw [splitBounds_of_some hsplit]
      obtain ⟨-, hhead, hdepth⟩ := splitPlus?_eq_some_iff.1 hsplit
      refine .cons (isBound_trim hhead) ?_ (ih _ (length_lt_of_splitTop? hsplit) tail rfl)
      rw [String.toList_ofList, splitPlus?_trim.2, hdepth]

/-- The characters of bounds between plus signs. -/
def joined (bs : List String) : List Char := [' ', '+', ' '].intercalate (bs.map String.toList)

theorem joined_singleton (b : String) : joined [b] = b.toList := List.append_nil _

theorem joined_cons (b : String) (hbs : bs ≠ []) :
    joined (b :: bs) = b.toList ++ ' ' :: '+' :: ' ' :: joined bs := by
  obtain ⟨c, bs, rfl⟩ := List.exists_cons_of_ne_nil hbs
  rfl

theorem Bounds.ne_nil (h : Bounds bs) : bs ≠ [] := by
  cases h <;> exact List.cons_ne_nil _ _

/-- A bound is what is left of it between blanks. -/
theorem IsBound.trim_eq {front back : List Char} (hb : IsBound b) (hfront : Blanks front)
    (hback : Blanks back) : trim (front ++ b ++ back) = b :=
  (trim_blanks hfront hback).trans hb.trimmed.trim_eq

/-- Bounds between plus signs are read back. -/
theorem splitBounds_joined (h : Bounds bs) : splitBounds (' ' :: joined bs) = bs := by
  have hblank : Blanks [' '] := List.forall_mem_singleton.2 rfl
  induction h with
  | @last b hb =>
    have htrim := hb.trim_eq hblank (List.forall_mem_nil _)
    have hnone : splitPlus? .start ([' '] ++ b.toList ++ []) = none :=
      splitPlus?_trim.1.1 (htrim.symm ▸ hb.unsplit)
    rw [List.append_nil] at htrim hnone
    rw [joined_singleton, ← List.singleton_append, splitBounds_of_none hnone, htrim,
      String.ofList_toList]
  | @cons b bs hb hdepth hbs ih =>
    have htrim := hb.trim_eq hblank hblank
    have hsplit : splitPlus? .start (' ' :: joined (b :: bs)) =
        some ([' '] ++ b.toList ++ [' '], ' ' :: joined bs) := by
      refine splitPlus?_eq_some_iff.2 ⟨?_, splitPlus?_trim.1.1 (htrim.symm ▸ hb.unsplit), ?_⟩
      · simp [joined_cons b hbs.ne_nil]
      · rw [← splitPlus?_trim.2, htrim, hdepth]
    rw [splitBounds_of_some hsplit, htrim, ih, String.ofList_toList]

theorem trimmed_joined (h : Bounds bs) (hne : ∀ b ∈ bs, b ≠ "") :
    Trimmed (joined bs) ∧ joined bs ≠ [] := by
  induction h with
  | @last b hb =>
    rw [joined_singleton]
    exact ⟨hb.trimmed, mt String.toList_eq_nil_iff.1 (hne b List.mem_cons_self)⟩
  | @cons b bs hb hdepth hbs ih =>
    obtain ⟨hb', hne⟩ := List.forall_mem_cons.1 hne
    obtain ⟨htrimmed, hjoined⟩ := ih hne
    rw [joined_cons b hbs.ne_nil]
    refine ⟨?_, by simp⟩
    have := hb.trimmed.append htrimmed (mt String.toList_eq_nil_iff.1 hb') hjoined [' ', '+', ' ']
    rwa [List.append_assoc] at this

/-! ## Declarations -/

/-- A character of an identifier is neither a colon nor a bracket. -/
theorem bracketChange_of_identifier (h : (isAlphanumeric c || c == '_') = true) (dash : Bool) :
    bracketChange dash c = 0 ∧ c ≠ ':' := by
  have hne (c' : Char) (h' : (isAlphanumeric c' || c' == '_') = false) : c ≠ c' := by
    rintro rfl
    rw [h'] at h
    cases h
  have := hne '<' rfl
  have := hne '(' rfl
  have := hne '[' rfl
  have := hne '>' rfl
  have := hne ')' rfl
  have := hne ']' rfl
  exact ⟨by simp_all [bracketChange], hne ':' rfl⟩

/-- A colon behind an identifier is a place to split, when a blank follows. -/
theorem splitTop?_identifier (h : ∀ c ∈ xs, (isAlphanumeric c || c == '_') = true) (dash : Bool) :
    splitTop? ':' 0 dash (xs ++ ':' :: ' ' :: ys) = some (xs, ' ' :: ys) := by
  induction xs generalizing dash with
  | nil =>
    rw [List.nil_append, splitTop?]
    · rfl
    · simp
  | cons c xs ih =>
    obtain ⟨hc, hxs⟩ := List.forall_mem_cons.1 h
    obtain ⟨hchange, hne⟩ := bracketChange_of_identifier hc dash
    rw [List.cons_append, splitTop?, hchange, Int.add_zero, ih hxs]
    · simp [hne]
    · simp [hne]

theorem forall_of_isIdentifier (h : isIdentifier cs = true) :
    ∀ c ∈ cs, (isAlphanumeric c || c == '_') = true := by
  cases cs with
  | nil => cases h
  | cons c cs =>
    obtain ⟨hc, hcs⟩ := Bool.and_eq_true_iff.1 h
    refine List.forall_mem_cons.2 ⟨?_, List.all_eq_true.1 hcs⟩
    -- A letter is a letter or a numeral.
    rw [Bool.or_eq_true] at hc ⊢
    refine hc.imp_left fun hc => ?_
    unfold isAlphabetic at hc
    unfold isAlphanumeric
    split at hc
    · next hascii => rw [if_pos hascii, Char.isAlphanum, hc, Bool.true_or]
    · next hascii => rw [if_neg hascii, hc, Bool.true_or]

end TypeReader

namespace TypeDescriptor

open TypeReader

variable {name : String} {bs : List String}

/-- What the name of a generic parameter is. -/
structure IsParameter (name : List Char) : Prop where
  trimmed : Trimmed name
  identifier : isIdentifier name = true

/-- What is read as a declaration has a name, and no bounds or bounds that are not empty. -/
theorem of_parseGeneric {text : String} (h : parseGeneric text = .ok (.generic name bs)) :
    IsParameter name.toList ∧ (bs = [] ∨ Bounds bs ∧ ∀ b ∈ bs, b ≠ "") := by
  have htype {text : String} (h : parse text [] = .ok (.generic name bs)) : False :=
    List.not_mem_nil (mem_of_parse_generic h).1
  have hname (cs : List Char) (h : isIdentifier (trim cs) = true) :
      IsParameter (String.ofList (trim cs)).toList := by
    rw [String.toList_ofList]
    exact ⟨trimmed_trim cs, h⟩
  rw [parseGeneric] at h
  dsimp only at h
  split at h
  · next hid =>
    cases h
    exact ⟨hname _ hid, .inl rfl⟩
  · split at h
    · exact (htype h).elim
    · next head tail hsplit =>
      split at h
      · next hid =>
        split at h
        · cases h
        · next hempty =>
          cases h
          refine ⟨hname _ hid, .inr ⟨bounds_splitBounds tail, fun b hb hb' => hempty ?_⟩⟩
          exact List.any_eq_true.2 ⟨b, hb, String.isEmpty_iff.2 hb'⟩
      · exact (htype h).elim

/-- A name is a declaration. -/
theorem parseGeneric_name (h : IsParameter name.toList) :
    parseGeneric name = .ok (.generic name []) := by
  rw [parseGeneric, h.trimmed.trim_eq]
  dsimp only
  rw [if_pos h.identifier, String.ofList_toList]

/-- A text with a colon behind an identifier is a declaration. -/
theorem parseGeneric_of_splitTop? {text : String} {head tail : List Char}
    (hid : ¬isIdentifier (trim text.toList) = true)
    (hsplit : splitTop? ':' 0 false (trim text.toList) = some (head, tail))
    (hhead : isIdentifier (trim head) = true) (hne : ∀ b ∈ splitBounds tail, b ≠ "") :
    parseGeneric text = .ok (.generic (String.ofList (trim head)) (splitBounds tail)) := by
  have hany : ¬(splitBounds tail).any (·.isEmpty) = true := by
    intro hany
    obtain ⟨b, hb, hempty⟩ := List.any_eq_true.1 hany
    exact hne b hb (String.isEmpty_iff.1 hempty)
  rw [parseGeneric]
  dsimp only
  rw [if_neg hid, hsplit]
  dsimp only
  rw [if_pos hhead, if_neg hany]

/-- A name with bounds is a declaration. -/
theorem parseGeneric_bounds {text : String} (h : IsParameter name.toList) (hbs : Bounds bs)
    (hne : ∀ b ∈ bs, b ≠ "") (htext : text.toList = name.toList ++ ':' :: ' ' :: joined bs) :
    parseGeneric text = .ok (.generic name bs) := by
  have hname : name.toList ≠ [] := by
    intro hnil
    have hid := h.identifier
    rw [hnil] at hid
    cases hid
  have hcs : Trimmed text.toList := by
    obtain ⟨htrimmed, hjoined⟩ := trimmed_joined hbs hne
    have := h.trimmed.append htrimmed hname hjoined [':', ' ']
    rw [List.append_assoc] at this
    rw [htext]
    exact this
  have hid : ¬isIdentifier (trim text.toList) = true := by
    rw [hcs.trim_eq]
    intro hid
    have hcolon := forall_of_isIdentifier hid ':' (by rw [htext]; simp)
    cases hcolon
  have hsplit : splitTop? ':' 0 false (trim text.toList) =
      some (name.toList, ' ' :: joined bs) := by
    rw [hcs.trim_eq, htext]
    exact splitTop?_identifier (forall_of_isIdentifier h.identifier) false
  have hparse := parseGeneric_of_splitTop? hid hsplit
  rw [h.trimmed.trim_eq, splitBounds_joined hbs, String.ofList_toList] at hparse
  exact hparse h.identifier hne

/-- What is read as a declaration is read from the declaration that is written as well. The depth of
    brackets is an integer without a bound here. Kept in 32 bits, it reads every text of less than
    2 GiB in the same way (`parse_checked`). -/
theorem parseGeneric_declaration {text : String}
    (h : parseGeneric text = .ok (.generic name bs)) :
    ∃ d, (generic name bs).declaration = some d ∧ parseGeneric d = .ok (.generic name bs) := by
  obtain ⟨hname, rfl | ⟨hbs, hne⟩⟩ := of_parseGeneric h
  · exact ⟨name, rfl, parseGeneric_name hname⟩
  · refine ⟨name ++ ": " ++ " + ".intercalate bs, ?_, parseGeneric_bounds hname hbs hne ?_⟩
    · obtain ⟨b, bs, rfl⟩ := List.exists_cons_of_ne_nil hbs.ne_nil
      rfl
    · have htext : ": ".toList = [':', ' '] ∧ " + ".toList = [' ', '+', ' '] := by decide
      rw [String.toList_append, String.toList_append, String.toList_intercalate, htext.1, htext.2,
        List.append_assoc]
      rfl

theorem exists_parseGeneric_declaration :
    ∃ bs d, parseGeneric
        " T :Iterator<Item = Box<Fn(A) -> B + 'a>>+ std::fmt::Debug +'b + Q>> + (R " =
          .ok (.generic "T" bs) ∧
      bs = ["Iterator<Item = Box<Fn(A) -> B + 'a>>", "std::fmt::Debug", "'b", "Q>> + (R"] ∧
      (generic "T" bs).declaration = some d ∧ parseGeneric d = .ok (.generic "T" bs) := by
  have hsplit : splitTop? ':' 0 false (trim
      " T :Iterator<Item = Box<Fn(A) -> B + 'a>>+ std::fmt::Debug +'b + Q>> + (R ".toList) =
        some ("T ".toList,
          "Iterator<Item = Box<Fn(A) -> B + 'a>>+ std::fmt::Debug +'b + Q>> + (R".toList) := by
    decide +kernel
  have hbs : splitBounds
      "Iterator<Item = Box<Fn(A) -> B + 'a>>+ std::fmt::Debug +'b + Q>> + (R".toList =
        ["Iterator<Item = Box<Fn(A) -> B + 'a>>", "std::fmt::Debug", "'b", "Q>> + (R"] := by
    cbv
  have h := parseGeneric_of_splitTop? (by decide +kernel) hsplit (by decide +kernel)
    (by rw [hbs]; decide)
  obtain ⟨d, hd, hparse⟩ := parseGeneric_declaration h
  exact ⟨_, d, h, hbs, hd, hparse⟩

end TypeDescriptor

end FluentGrammar.Catalog
