import FluentGrammar.Source.Lexer
import Mathlib.Computability.Language

/-
  The patterns of the token classes, as languages, and what the lexer makes of them. At every place
  it takes the longest word that any pattern has there (`Lexeme.longest_of_munch`), and a character
  that no pattern has a word at is garbage. Where a comment is opened and never closed, garbage goes
  on to the end (`Lexeme.stray_of_munch`). A text is cut into such words and runs of garbage, where
  no two runs meet (`Lexeme.cut_all`).
-/

namespace FluentGrammar.Source

open Computability

/-! ## Patterns -/

/-- One character with the property. -/
def oneOf (p : Char → Bool) : Language Char := {w | ∃ c, p c = true ∧ w = [c]}

/-- What is read as one inside a block comment: a star with the character behind it, unless that
    is a slash, or any other character. -/
def commentPiece : Language Char := oneOf (· != '*') + {['*']} * oneOf (· != '/')

/-- A block comment behind its opening mark. -/
def commentRest : Language Char := commentPiece∗ * {['*', '/']}

namespace TokenKind

open Lexeme

/-- The words of a class. Garbage has none. -/
def pattern : TokenKind → Language Char
  | parenOpen => {['(']}
  | parenClose => {[')']}
  | colon => {[':']}
  | semicolon => {[';']}
  | pipe => {['|']}
  | star => {['*']}
  | plus => {['+']}
  | question => {['?']}
  | name => oneOf isNameStart * (oneOf isNameContinue)∗
  | blank => oneOf isBlankOrTab * (oneOf isBlankOrTab)∗
  | newline => {['\n']} + {['\r', '\n']}
  | lineComment => {['/', '/']} * (oneOf (· != '\n'))∗
  | blockComment => {['/', '*']} * commentRest
  | garbage => 0

end TokenKind

variable {p : Char → Bool} {u v w g g' cs rest : List Char} {c : Char} {k : TokenKind} {n : Nat}

theorem mem_kstar_oneOf : w ∈ (oneOf p)∗ ↔ ∀ c ∈ w, p c = true := by
  rw [Language.mem_kstar]
  constructor
  · rintro ⟨ws, rfl, hws⟩ c hc
    obtain ⟨u, hu, hc⟩ := List.mem_flatten.1 hc
    obtain ⟨d, hd, rfl⟩ := hws u hu
    rwa [List.mem_singleton.1 hc]
  · intro h
    refine ⟨w.map fun c => [c], ?_, fun u hu => ?_⟩
    · rw [← List.flatMap_def]
      exact (List.flatMap_singleton' w).symm
    · obtain ⟨c, hc, rfl⟩ := List.mem_map.1 hu
      exact ⟨c, h c hc, rfl⟩

theorem mem_oneOf_mul {l : Language Char} :
    w ∈ oneOf p * l ↔ ∃ c v, w = c :: v ∧ p c = true ∧ v ∈ l := by
  rw [Language.mem_mul]
  constructor
  · rintro ⟨-, ⟨c, hc, rfl⟩, v, hv, rfl⟩
    exact ⟨c, v, rfl, hc, hv⟩
  · rintro ⟨c, v, rfl, hc, hv⟩
    exact ⟨[c], ⟨c, hc, rfl⟩, v, hv, rfl⟩

theorem mem_singleton_mul {l : Language Char} : w ∈ {u} * l ↔ ∃ v ∈ l, w = u ++ v := by
  rw [Language.mem_mul]
  constructor
  · rintro ⟨-, rfl, v, hv, rfl⟩
    exact ⟨v, hv, rfl⟩
  · rintro ⟨v, hv, rfl⟩
    exact ⟨u, rfl, v, hv, rfl⟩

theorem commentRest_eq : commentRest = {['*', '/']} + commentPiece * commentRest :=
  calc
    commentRest = (1 + commentPiece * commentPiece∗) * {['*', '/']} := by
      rw [Language.one_add_self_mul_kstar_eq_kstar, commentRest]
    _ = {['*', '/']} + commentPiece * commentRest := by
      rw [add_mul, one_mul, mul_assoc, commentRest]

/-- A comment is closed here, or behind one more piece of it. -/
theorem mem_commentRest : w ∈ commentRest ↔ w = ['*', '/'] ∨
    (∃ c v, w = c :: v ∧ c ≠ '*' ∧ v ∈ commentRest) ∨
    ∃ c v, w = '*' :: c :: v ∧ c ≠ '/' ∧ v ∈ commentRest := by
  have hpiece : w ∈ commentPiece * commentRest ↔
      (∃ c v, w = c :: v ∧ c ≠ '*' ∧ v ∈ commentRest) ∨
      ∃ c v, w = '*' :: c :: v ∧ c ≠ '/' ∧ v ∈ commentRest := by
    rw [commentPiece, add_mul, Language.mem_add, mem_oneOf_mul, mul_assoc, mem_singleton_mul]
    simp only [mem_oneOf_mul, bne_iff_ne]
    refine or_congr Iff.rfl ⟨?_, ?_⟩
    · rintro ⟨-, ⟨c, v, rfl, hc, hv⟩, rfl⟩
      exact ⟨c, v, rfl, hc, hv⟩
    · rintro ⟨c, v, rfl, hc, hv⟩
      exact ⟨c :: v, ⟨c, v, rfl, hc, hv⟩, rfl⟩
  rw [← hpiece]
  conv_lhs => rw [commentRest_eq]
  exact Language.mem_add _ _ _

theorem ne_nil_of_mem_commentRest (hw : w ∈ commentRest) : w ≠ [] := by
  rcases mem_commentRest.1 hw with rfl | ⟨c, v, rfl, -⟩ | ⟨c, v, rfl, -⟩ <;>
    exact List.cons_ne_nil _ _

namespace Lexeme

/-- The end of a comment is found where the pattern has it. -/
theorem commentLength?_eq_some_iff :
    commentLength? cs = some n ↔ ∃ w ∈ commentRest, w <+: cs ∧ w.length = n := by
  fun_induction commentLength? cs generalizing n with
  | case1 rest =>
    constructor
    · intro h
      obtain rfl := Option.some.inj h
      exact ⟨['*', '/'], mem_commentRest.2 (.inl rfl), ⟨rest, rfl⟩, rfl⟩
    · rintro ⟨w, hw, hfront, rfl⟩
      rcases mem_commentRest.1 hw with rfl | ⟨c, v, rfl, hc, -⟩ | ⟨c, v, rfl, hc, -⟩
      · rfl
      · exact absurd (List.cons_prefix_cons.1 hfront).1 hc
      · exact absurd (List.cons_prefix_cons.1 (List.cons_prefix_cons.1 hfront).2).1 hc
  | case2 d rest hd ih =>
    rw [Option.map_eq_some_iff]
    constructor
    · rintro ⟨m, hm, rfl⟩
      obtain ⟨v, hv, hfront, rfl⟩ := ih.1 hm
      exact ⟨'*' :: d :: v, mem_commentRest.2 (.inr (.inr ⟨d, v, rfl, hd, hv⟩)),
        List.cons_prefix_cons.2 ⟨rfl, List.cons_prefix_cons.2 ⟨rfl, hfront⟩⟩, rfl⟩
    · rintro ⟨w, hw, hfront, rfl⟩
      rcases mem_commentRest.1 hw with rfl | ⟨c, v, rfl, hc, -⟩ | ⟨c, v, rfl, -, hv⟩
      · exact absurd (List.cons_prefix_cons.1 (List.cons_prefix_cons.1 hfront).2).1.symm hd
      · exact absurd (List.cons_prefix_cons.1 hfront).1 hc
      · have hrest := (List.cons_prefix_cons.1 (List.cons_prefix_cons.1 hfront).2).2
        exact ⟨v.length, ih.2 ⟨v, hv, hrest, rfl⟩, rfl⟩
  | case3 d rest _ hpair ih =>
    rw [Option.map_eq_some_iff]
    constructor
    · rintro ⟨m, hm, rfl⟩
      obtain ⟨v, hv, hfront, rfl⟩ := ih.1 hm
      refine ⟨d :: v, mem_commentRest.2 (.inr (.inl ⟨d, v, rfl, ?_, hv⟩)),
        List.cons_prefix_cons.2 ⟨rfl, hfront⟩, rfl⟩
      rintro rfl
      obtain ⟨e, u, rfl⟩ := List.exists_cons_of_ne_nil (ne_nil_of_mem_commentRest hv)
      obtain ⟨more, rfl⟩ := hfront
      exact hpair _ _ rfl rfl
    · rintro ⟨w, hw, hfront, rfl⟩
      rcases mem_commentRest.1 hw with rfl | ⟨c, v, rfl, -, hv⟩ | ⟨c, v, rfl, -, -⟩
      · obtain ⟨more, hmore⟩ := hfront
        obtain ⟨rfl, rfl⟩ := List.cons.inj hmore
        exact (hpair _ _ rfl rfl).elim
      · exact ⟨v.length, ih.2 ⟨v, hv, (List.cons_prefix_cons.1 hfront).2, rfl⟩, rfl⟩
      · obtain ⟨more, hmore⟩ := hfront
        obtain ⟨rfl, rfl⟩ := List.cons.inj hmore
        exact (hpair _ _ rfl rfl).elim
  | case4 =>
    refine iff_of_false nofun ?_
    rintro ⟨w, hw, hfront, -⟩
    exact ne_nil_of_mem_commentRest hw (List.prefix_nil.1 hfront)

/-! ## The longest word -/

/-- The word is of the class, and no word of any class that the characters begin with is longer. -/
def Longest (k : TokenKind) (word rest : List Char) : Prop :=
  word ∈ k.pattern ∧ ∀ (k' : TokenKind), ∀ w ∈ k'.pattern, w <+: word ++ rest →
    w.length ≤ word.length

/-- No class has a word that the characters begin with. -/
def NoWord (cs : List Char) : Prop := ∀ (k : TokenKind), ∀ w ∈ k.pattern, ¬ w <+: cs

theorem munch_of_isNameStart (h : isNameStart c = true) (rest : List Char) :
    munch c rest = (.name, (rest.takeWhile isNameContinue).length) := by
  unfold munch
  split
  case h_12 => rw [if_pos h]
  all_goals cases h

theorem munch_of_isBlankOrTab (h : isBlankOrTab c = true) (rest : List Char) :
    munch c rest = (.blank, (rest.takeWhile isBlankOrTab).length) := by
  have hname : isNameStart c = false := by
    rw [isBlankOrTab, Bool.or_eq_true, beq_iff_eq, beq_iff_eq] at h
    rcases h with rfl | rfl <;> decide
  unfold munch
  split
  case h_12 => rw [if_neg (by simp [hname]), if_pos h]
  all_goals cases h

/-- A run of characters with a property is no longer than the longest there. -/
theorem length_le_of_forall (hv : ∀ c ∈ v, p c = true) (hfront : v <+: rest) :
    v.length ≤ (rest.takeWhile p).length := by
  obtain ⟨more, rfl⟩ := hfront
  rw [List.takeWhile_append_of_pos hv, List.length_append]
  exact Nat.le_add_right _ _

/-- A word at the front is of the class that is taken and not longer. -/
theorem munch_of_word (hw : w ∈ k.pattern) (hfront : w <+: c :: rest) :
    (munch c rest).1 = k ∧ w.length ≤ (munch c rest).2 + 1 := by
  cases k with
  | parenOpen | parenClose | colon | semicolon | pipe | star | plus | question =>
    obtain rfl := Set.mem_singleton_iff.1 hw
    obtain ⟨rfl, -⟩ := List.cons_prefix_cons.1 hfront
    exact ⟨rfl, Nat.le_refl _⟩
  | name =>
    obtain ⟨d, v, rfl, hd, hv⟩ := mem_oneOf_mul.1 hw
    obtain ⟨rfl, hmore⟩ := List.cons_prefix_cons.1 hfront
    rw [munch_of_isNameStart hd]
    exact ⟨rfl, Nat.succ_le_succ (length_le_of_forall (mem_kstar_oneOf.1 hv) hmore)⟩
  | blank =>
    obtain ⟨d, v, rfl, hd, hv⟩ := mem_oneOf_mul.1 hw
    obtain ⟨rfl, hmore⟩ := List.cons_prefix_cons.1 hfront
    rw [munch_of_isBlankOrTab hd]
    exact ⟨rfl, Nat.succ_le_succ (length_le_of_forall (mem_kstar_oneOf.1 hv) hmore)⟩
  | newline =>
    rcases hw with hw | hw
    · obtain rfl := Set.mem_singleton_iff.1 hw
      obtain ⟨rfl, -⟩ := List.cons_prefix_cons.1 hfront
      exact ⟨rfl, Nat.le_refl _⟩
    · obtain rfl := Set.mem_singleton_iff.1 hw
      obtain ⟨more, hmore⟩ := hfront
      obtain ⟨rfl, rfl⟩ := List.cons.inj hmore
      exact ⟨rfl, Nat.le_refl _⟩
  | lineComment =>
    obtain ⟨v, hv, rfl⟩ := mem_singleton_mul.1 hw
    obtain ⟨more, hmore⟩ := hfront
    obtain ⟨rfl, rfl⟩ := List.cons.inj hmore
    refine ⟨rfl, Nat.succ_le_succ ?_⟩
    have hline : ∀ d ∈ '/' :: v, (d != '\n') = true :=
      List.forall_mem_cons.2 ⟨rfl, mem_kstar_oneOf.1 hv⟩
    exact length_le_of_forall hline (List.prefix_append _ _)
  | blockComment =>
    obtain ⟨v, hv, rfl⟩ := mem_singleton_mul.1 hw
    obtain ⟨more, hmore⟩ := hfront
    obtain ⟨rfl, rfl⟩ := List.cons.inj hmore
    have hend : commentLength? (v ++ more) = some v.length :=
      commentLength?_eq_some_iff.2 ⟨v, hv, List.prefix_append _ _, rfl⟩
    show (munch '/' ('*' :: (v ++ more))).1 = .blockComment ∧
      v.length + 2 ≤ (munch '/' ('*' :: (v ++ more))).2 + 1
    simp only [munch, hend]
    exact ⟨trivial, Nat.le_refl _⟩
  | garbage => exact absurd hw (Language.notMem_zero w)

/-- A run of characters with a property, and what is left behind it. -/
theorem take_length_takeWhile (p : Char → Bool) (rest : List Char) :
    rest.take (rest.takeWhile p).length = rest.takeWhile p :=
  (List.prefix_iff_eq_take.1 (List.takeWhile_prefix p)).symm

theorem takeWhile_mem_kstar (p : Char → Bool) (rest : List Char) :
    rest.take (rest.takeWhile p).length ∈ (oneOf p)∗ := by
  rw [take_length_takeWhile]
  exact mem_kstar_oneOf.2 (List.all_eq_true.1 List.all_takeWhile)

/-- What is taken is a word of its class. -/
theorem mem_pattern_of_munch (h : munch c rest = (k, n)) (hk : k ≠ .garbage) :
    c :: rest.take n ∈ k.pattern := by
  unfold munch at h
  split at h
  case h_9 =>
    obtain ⟨rfl, rfl⟩ := Prod.mk.inj h
    exact .inl rfl
  case h_10 =>
    split at h
    · next hfeed =>
      obtain ⟨rfl, rfl⟩ := Prod.mk.inj h
      obtain ⟨more, rfl⟩ := List.head?_eq_some_iff.1 (beq_iff_eq.1 hfeed)
      exact .inr rfl
    · exact absurd (Prod.mk.inj h).1.symm hk
  case h_11 =>
    split at h
    · next rest =>
      obtain ⟨rfl, rfl⟩ := Prod.mk.inj h
      refine mem_singleton_mul.2 ⟨_, takeWhile_mem_kstar (· != '\n') rest, ?_⟩
      rfl
    · next rest =>
      split at h
      · next m hm =>
        obtain ⟨rfl, rfl⟩ := Prod.mk.inj h
        obtain ⟨w, hw, hfront, rfl⟩ := commentLength?_eq_some_iff.1 hm
        rw [List.prefix_iff_eq_take] at hfront
        exact mem_singleton_mul.2 ⟨w, hw, congrArg ('/' :: '*' :: ·) hfront.symm⟩
      · exact absurd (Prod.mk.inj h).1.symm hk
    · exact absurd (Prod.mk.inj h).1.symm hk
  case h_12 =>
    split at h
    · next hname =>
      obtain ⟨rfl, rfl⟩ := Prod.mk.inj h
      exact mem_oneOf_mul.2 ⟨c, _, rfl, hname, takeWhile_mem_kstar isNameContinue rest⟩
    · split at h
      · next hblank =>
        obtain ⟨rfl, rfl⟩ := Prod.mk.inj h
        exact mem_oneOf_mul.2 ⟨c, _, rfl, hblank, takeWhile_mem_kstar isBlankOrTab rest⟩
      · exact absurd (Prod.mk.inj h).1.symm hk
  all_goals
    obtain ⟨rfl, rfl⟩ := Prod.mk.inj h
    exact rfl

theorem longest_of_munch (h : munch c rest = (k, n)) (hk : k ≠ .garbage) :
    Longest k (c :: rest.take n) (rest.drop n) := by
  refine ⟨mem_pattern_of_munch h hk, fun k' w hw hfront => ?_⟩
  rw [List.cons_append, List.take_append_drop] at hfront
  obtain ⟨-, hlength⟩ := munch_of_word hw hfront
  have hle := List.IsPrefix.length_le hfront
  rw [h] at hlength
  rw [List.length_cons, List.length_take]
  rw [List.length_cons] at hle
  dsimp only at hlength
  omega

theorem noWord_of_munch (h : (munch c rest).1 = .garbage) : NoWord (c :: rest) := by
  intro k w hw hfront
  obtain ⟨rfl, -⟩ := munch_of_word hw hfront
  rw [h] at hw
  exact Language.notMem_zero w hw

/-! ## Garbage -/

/-- The characters open a block comment and have none. -/
def Unclosed (cs : List Char) : Prop :=
  ['/', '*'] <+: cs ∧ ∀ w ∈ TokenKind.blockComment.pattern, ¬ w <+: cs

/-- At none of the characters a word of any class begins, except behind the opening mark of a
    comment that is never closed. -/
def Stray (g rest : List Char) : Prop :=
  ∀ a b, g = a ++ b → b ≠ [] →
    NoWord (b ++ rest) ∨ ∃ a₁ a₂, a = a₁ ++ a₂ ∧ Unclosed (a₂ ++ b ++ rest)

/-- Garbage is one character, or goes on to the end behind an opened comment. -/
theorem munch_of_garbage (h : munch c rest = (.garbage, n)) :
    n = 0 ∨ n = rest.length ∧ ['/', '*'] <+: c :: rest := by
  unfold munch at h
  split at h
  case h_10 => split at h <;> simp_all
  case h_11 =>
    split at h
    · cases h
    · next inner =>
      split at h
      · cases h
      · exact .inr ⟨(Prod.mk.inj h).2.symm, List.prefix_append ['/', '*'] inner⟩
    · exact .inl (Prod.mk.inj h).2.symm
  case h_12 => split at h <;> [cases h; (split at h <;> simp_all)]
  all_goals cases h

theorem stray_of_munch (h : munch c rest = (.garbage, n)) :
    Stray (c :: rest.take n) (rest.drop n) := by
  have hnone : NoWord (c :: rest) := noWord_of_munch (congrArg Prod.fst h)
  intro a b hab hb
  rcases munch_of_garbage h with rfl | ⟨rfl, hopen⟩
  · obtain ⟨rfl, rfl⟩ | ⟨-, hnil⟩ := List.singleton_eq_append_iff.1 hab
    · exact .inl hnone
    · exact absurd hnil hb
  · refine .inr ⟨[], a, rfl, ?_⟩
    rw [← hab, List.cons_append, List.take_append_drop]
    exact ⟨hopen, hnone .blockComment⟩

theorem Stray.append (hg : Stray g (g' ++ rest)) (hg' : Stray g' rest) :
    Stray (g ++ g') rest := by
  intro a b hab hb
  obtain ⟨a', rfl, rfl⟩ | ⟨b', rfl, rfl⟩ := List.append_eq_append_iff.1 hab
  · obtain hnone | ⟨a₁, a₂, rfl, hopen⟩ := hg' a' b rfl hb
    · exact .inl hnone
    · exact .inr ⟨g ++ a₁, a₂, (List.append_assoc _ _ _).symm, hopen⟩
  · by_cases hnil : b' = []
    · subst hnil
      obtain hnone | ⟨a₁, a₂, hsplit, hopen⟩ := hg' [] g' rfl hb
      · exact .inl hnone
      · obtain ⟨rfl, rfl⟩ := List.nil_eq_append_iff.1 hsplit
        exact .inr ⟨a, [], (List.append_nil a).symm, hopen⟩
    · rw [List.append_assoc]
      obtain hnone | ⟨a₁, a₂, rfl, hopen⟩ := hg a b' rfl hnil
      · exact .inl hnone
      · refine .inr ⟨a₁, a₂, rfl, ?_⟩
        rwa [List.append_assoc, List.append_assoc, ← List.append_assoc a₂]

/-! ## Lexemes -/

/-- The characters of the lexemes. -/
def text (ls : List Lexeme) : List Char := (ls.map (·.chars)).flatten

/-- What is taken off the front is the longest word there, or garbage. -/
structure Taken (k : TokenKind) (cs rest : List Char) : Prop where
  ne_nil : cs ≠ []
  longest : k ≠ .garbage → Longest k cs rest
  stray : k = .garbage → Stray cs rest

/-- Each lexeme is taken off what is left of the text, and garbage goes as far as it can. -/
inductive Cut : List Lexeme → Prop
  | nil : Cut []
  | cons {l others} (htaken : Taken l.kind l.chars (text others))
      (hnext : l.kind = .garbage → ∀ o ∈ others.head?, o.kind ≠ .garbage) (hothers : Cut others) :
      Cut (l :: others)

variable {l : Lexeme} {others : List Lexeme}

theorem taken_of_munch (h : munch c rest = (k, n)) : Taken k (c :: rest.take n) (rest.drop n) where
  ne_nil := List.cons_ne_nil _ _
  longest := longest_of_munch h
  stray hk := stray_of_munch (hk ▸ h)

/-- Garbage in front of garbage is joined to it. -/
theorem Cut.attach (htaken : Taken l.kind l.chars (text others)) (h : Cut others) :
    Cut (attach l others) := by
  unfold Lexeme.attach
  split
  · next g others =>
    cases h with
    | cons hjoined hnext hothers =>
      split
      · next hl =>
        refine .cons ⟨List.append_ne_nil_of_left_ne_nil htaken.ne_nil g, fun hk => absurd rfl hk,
          fun _ => ?_⟩ hnext hothers
        exact (htaken.stray hl).append (hjoined.stray rfl)
      · next hl => exact .cons htaken (fun hk => absurd hk hl) (.cons hjoined hnext hothers)
  · next hother =>
    refine .cons htaken (fun _ o ho hk => ?_) h
    obtain ⟨more, rfl⟩ := List.head?_eq_some_iff.1 ho
    obtain ⟨kind, g⟩ := o
    subst hk
    exact hother g more rfl

/-- A text is cut into words and garbage. -/
theorem cut_all (cs : List Char) : Cut (all cs) := by
  fun_induction all cs with
  | case1 => exact .nil
  | case2 c rest kind n hmunch ih =>
    have hrest : text (all (rest.drop n)) = rest.drop n := flatten_all _
    refine ih.attach ?_
    rw [hrest]
    exact taken_of_munch hmunch

end Lexeme

end FluentGrammar.Source
