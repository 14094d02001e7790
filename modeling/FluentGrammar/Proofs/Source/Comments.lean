import FluentGrammar.Proofs.Source.Tokens
import Mathlib

/-
  Where block comments end. Inside a comment a star is read together with the character behind it,
  so of a run of stars in front of a slash only an odd one has its last star left for the slash. A
  closing mark is one of these stars itself, and therefore it closes the comment exactly if an even
  number of stars stands in front of it (`lex_blockComment`). Behind an odd number the comment goes
  on as if the mark were not there, up to the next one that closes it, and without one all of the
  source is garbage.
-/

namespace FluentGrammar.Source

open Text

/-- The number of stars that the characters end with. -/
def starsAtEnd (cs : List Char) : Nat := (cs.rtakeWhile (· == '*')).length

/-- A token further on by a number of bytes. -/
def Token.shift (n : Nat) (t : Token) : Token :=
  { t with span := ⟨n + t.span.start, n + t.span.stop⟩ }

/-- The block comment that a source begins with. -/
def Token.comment (text : String) : Token := ⟨.blockComment, text, ⟨0, text.utf8ByteSize⟩⟩

theorem Token.place_add (n m : Nat) (ls : List Lexeme) :
    place (n + m) ls = (place m ls).map (shift n) := by
  induction ls generalizing m with
  | nil => rfl
  | cons l others ih =>
    rw [place, place, List.map_cons, Nat.add_assoc, ih]
    rfl

namespace Lexeme

variable {c : Char} {front inner : List Char}

/-! ## The length of a comment -/

theorem commentLength?_star (hc : c ≠ '/') (rest : List Char) :
    commentLength? ('*' :: c :: rest) = (commentLength? rest).map (· + 2) :=
  commentLength?.eq_2 c rest fun h => hc h

theorem commentLength?_other (hc : c ≠ '*') (rest : List Char) :
    commentLength? (c :: rest) = (commentLength? rest).map (· + 1) :=
  commentLength?.eq_3 c rest (fun _ h _ => hc h) fun _ _ h _ => hc h

/-- Characters without a closing mark that end in no star are read as a whole. -/
theorem commentLength?_append (hopen : ¬ ['*', '/'] <:+: front)
    (hlast : ∀ c ∈ front.getLast?, c ≠ '*') (rest : List Char) :
    commentLength? (front ++ rest) = (commentLength? rest).map (· + front.length) := by
  induction front using commentLength?.induct with
  | case1 more => exact absurd (List.prefix_append ['*', '/'] more).isInfix hopen
  | case2 c more hc ih =>
    have hopen' : ¬ ['*', '/'] <:+: more := fun h =>
      hopen (h.trans (List.suffix_append ['*', c] more).isInfix)
    have hlast' : ∀ d ∈ more.getLast?, d ≠ '*' := by
      intro d hd
      obtain ⟨before, rfl⟩ := List.getLast?_eq_some_iff.1 hd
      exact hlast d (List.getLast?_eq_some_iff.2 ⟨'*' :: c :: before, rfl⟩)
    rw [List.cons_append, List.cons_append, commentLength?_star hc, ih hopen' hlast',
      Option.map_map]
    rfl
  | case3 c more _ hpair ih =>
    have hc : c ≠ '*' := by
      rintro rfl
      cases more with
      | nil => exact hlast '*' rfl rfl
      | cons d more => exact hpair d more rfl rfl
    have hopen' : ¬ ['*', '/'] <:+: more := fun h =>
      hopen (h.trans (List.suffix_cons c more).isInfix)
    have hlast' : ∀ d ∈ more.getLast?, d ≠ '*' := by
      intro d hd
      obtain ⟨before, rfl⟩ := List.getLast?_eq_some_iff.1 hd
      exact hlast d (List.getLast?_eq_some_iff.2 ⟨c :: before, rfl⟩)
    rw [List.cons_append, commentLength?_other hc, ih hopen' hlast', Option.map_map]
    rfl
  | case4 => exact Option.map_id'.symm

/-- Stars in front of a closing mark are read in pairs, and an odd one takes the star of the
    mark. -/
theorem commentLength?_stars (k : Nat) (r : List Char) :
    commentLength? (List.replicate k '*' ++ '*' :: '/' :: r) =
      if k % 2 = 0 then some (k + 2) else (commentLength? r).map (· + (k + 2)) := by
  induction k using Nat.twoStepInduction with
  | zero => rfl
  | one =>
    show commentLength? ('*' :: '*' :: '/' :: r) = (commentLength? r).map (· + 3)
    rw [commentLength?_star (by decide), commentLength?_other (by decide), Option.map_map]
    rfl
  | more k ih _ =>
    show commentLength? ('*' :: '*' :: (List.replicate k '*' ++ '*' :: '/' :: r)) = _
    rw [commentLength?_star (by decide), ih, Nat.add_mod_right]
    split
    · rfl
    · rw [Option.map_map]
      rfl

/-- A closing mark closes a comment behind an even number of stars, and is read over behind an odd
    one. -/
theorem commentLength?_mark {b : List Char} (hb : ¬ ['*', '/'] <:+: b) (r : List Char) :
    commentLength? (b ++ '*' :: '/' :: r) =
      if starsAtEnd b % 2 = 0 then some (b.length + 2)
      else (commentLength? r).map (· + (b.length + 2)) := by
  obtain ⟨front, hfront⟩ : ∃ front, b.rdropWhile (· == '*') = front := ⟨_, rfl⟩
  have hstars : b.rtakeWhile (· == '*') = List.replicate (starsAtEnd b) '*' := by
    refine List.eq_replicate_iff.2 ⟨rfl, fun c hc => ?_⟩
    exact beq_iff_eq.1 (List.mem_rtakeWhile_imp (p := (· == '*')) hc)
  have hsplit : b = front ++ List.replicate (starsAtEnd b) '*' := by
    rw [← hstars, ← hfront, List.rdropWhile_append_rtakeWhile]
  have hopen : ¬ ['*', '/'] <:+: front := by
    rw [← hfront]
    exact fun h => hb (h.trans (List.rdropWhile_prefix _ b).isInfix)
  have hlast : ∀ c ∈ front.getLast?, c ≠ '*' := by
    subst hfront
    rintro c hc rfl
    obtain ⟨hne, hc⟩ := List.mem_getLast?_eq_getLast hc
    refine List.rdropWhile_last_not (· == '*') b hne ?_
    rw [← hc]
    rfl
  have hlength : b.length = front.length + starsAtEnd b := by
    conv_lhs => rw [hsplit]
    rw [List.length_append, List.length_replicate]
  conv_lhs => rw [hsplit]
  rw [List.append_assoc, commentLength?_append hopen hlast, commentLength?_stars, hlength]
  split
  · refine congrArg some ?_
    show starsAtEnd b + 2 + front.length = _
    omega
  · rw [Option.map_map]
    congr 1
    funext n
    show n + (starsAtEnd b + 2) + front.length = _
    omega

theorem mem_commentRest_iff : inner ∈ commentRest ↔ commentLength? inner = some inner.length := by
  rw [commentLength?_eq_some_iff]
  refine ⟨fun h => ⟨inner, h, List.prefix_rfl, rfl⟩, fun ⟨w, hw, hfront, hlength⟩ => ?_⟩
  rwa [← hfront.eq_of_length hlength]

theorem commentLength?_eq_none_iff :
    commentLength? inner = none ↔ ∀ w ∈ commentRest, ¬ w <+: inner := by
  constructor
  · intro hnone w hw hfront
    have hend := commentLength?_eq_some_iff.2 ⟨w, hw, hfront, rfl⟩
    rw [hnone] at hend
    cases hend
  · intro h
    refine Option.eq_none_iff_forall_ne_some.2 fun n hn => ?_
    obtain ⟨w, hw, hfront, -⟩ := commentLength?_eq_some_iff.1 hn
    exact h w hw hfront

/-! ## The lexemes of a text that opens a comment -/

theorem attach_of_ne {l : Lexeme} (h : l.kind ≠ .garbage) (others : List Lexeme) :
    attach l others = l :: others := by
  unfold attach
  split
  · rw [if_neg h]
  · rfl

theorem munch_opened (inner : List Char) :
    munch '/' ('*' :: inner) =
      ((commentLength? inner).map fun n => (.blockComment, n + 1)).getD
        (.garbage, inner.length + 1) := by
  rw [munch]
  cases commentLength? inner <;> rfl

theorem all_of_munch {rest : List Char} {k : TokenKind} {n : Nat} (h : munch c rest = (k, n)) :
    all (c :: rest) = attach ⟨k, c :: rest.take n⟩ (all (rest.drop n)) := by
  rw [all, h]

theorem all_comment (hrest : inner ∈ commentRest) (r : List Char) :
    all ('/' :: '*' :: (inner ++ r)) = ⟨.blockComment, '/' :: '*' :: inner⟩ :: all r := by
  have hend : commentLength? (inner ++ r) = some inner.length :=
    commentLength?_eq_some_iff.2 ⟨inner, hrest, List.prefix_append _ _, rfl⟩
  have hmunch : munch '/' ('*' :: (inner ++ r)) = (.blockComment, inner.length + 1) := by
    rw [munch_opened, hend]
    rfl
  rw [all_of_munch hmunch]
  simp only [List.take_succ_cons, List.drop_succ_cons, List.take_left, List.drop_left]
  exact attach_of_ne (show TokenKind.blockComment ≠ .garbage by decide) _

theorem all_unclosed (hnone : commentLength? inner = none) :
    all ('/' :: '*' :: inner) = [⟨.garbage, '/' :: '*' :: inner⟩] := by
  have hmunch : munch '/' ('*' :: inner) = (.garbage, inner.length + 1) := by
    rw [munch_opened, hnone]
    rfl
  rw [all_of_munch hmunch]
  simp only [List.take_succ_cons, List.drop_succ_cons, List.take_length, List.drop_length]
  rw [all]
  rfl

end Lexeme

/-! ## Sources that begin with a comment -/

theorem toList_opened (inner : String) : ("/*" ++ inner).toList = '/' :: '*' :: inner.toList :=
  String.toList_append ..

theorem lex_of_mem_commentRest {inner : String} (hinner : inner.toList ∈ commentRest)
    (rest : String) :
    lex ("/*" ++ inner ++ rest) =
      Token.comment ("/*" ++ inner) ::
        (lex rest).map (Token.shift ("/*" ++ inner).utf8ByteSize) := by
  have hsource : ("/*" ++ inner ++ rest).toList = '/' :: '*' :: (inner.toList ++ rest.toList) := by
    rw [String.toList_append, toList_opened]
    rfl
  have hsize : 0 + byteLength ('/' :: '*' :: inner.toList) = ("/*" ++ inner).utf8ByteSize + 0 := by
    rw [Nat.zero_add, Nat.add_zero, ← toList_opened, byteLength_toList]
  rw [lex, hsource, Lexeme.all_comment hinner, Token.place]
  dsimp only
  rw [hsize, Token.place_add, Token.comment, ← toList_opened, String.ofList_toList, Nat.add_zero]
  rfl

theorem lex_of_unclosed {inner : String} (hnone : Lexeme.commentLength? inner.toList = none) :
    lex ("/*" ++ inner) = [⟨.garbage, "/*" ++ inner, ⟨0, ("/*" ++ inner).utf8ByteSize⟩⟩] := by
  rw [lex, toList_opened, Lexeme.all_unclosed hnone, Token.place, Token.place]
  dsimp only
  rw [← toList_opened, String.ofList_toList, byteLength_toList, Nat.zero_add]

theorem toList_closed (b r : String) :
    (b ++ "*/" ++ r).toList = b.toList ++ '*' :: '/' :: r.toList := by
  rw [String.append_assoc, String.toList_append, String.toList_append]
  rfl

/-- With an even number of stars in front of it a closing mark closes the comment. -/
theorem lex_of_even {b : String} (hb : ¬ "*/".toList <:+: b.toList)
    (heven : starsAtEnd b.toList % 2 = 0) (r : String) :
    lex ("/*" ++ b ++ "*/" ++ r) =
      Token.comment ("/*" ++ b ++ "*/") ::
        (lex r).map (Token.shift ("/*" ++ b ++ "*/").utf8ByteSize) := by
  have hclosed : (b ++ "*/").toList ∈ commentRest := by
    have h := toList_closed b ""
    rw [String.append_empty] at h
    rw [Lexeme.mem_commentRest_iff, h, Lexeme.commentLength?_mark hb, if_pos heven,
      List.length_append]
    rfl
  have hinner : "/*" ++ b ++ "*/" = "/*" ++ (b ++ "*/") := String.append_assoc
  rw [hinner, lex_of_mem_commentRest hclosed]

/-- With an odd number of stars in front of it a closing mark closes nothing, and the comment goes
    on as one that is opened behind the mark. -/
theorem lex_of_odd {b : String} (hb : ¬ "*/".toList <:+: b.toList)
    (hodd : starsAtEnd b.toList % 2 ≠ 0) {inner : String} (hinner : inner.toList ∈ commentRest)
    (rest : String) :
    lex ("/*" ++ b ++ "*/" ++ (inner ++ rest)) =
      Token.comment ("/*" ++ b ++ "*/" ++ inner) ::
        (lex rest).map (Token.shift ("/*" ++ b ++ "*/" ++ inner).utf8ByteSize) := by
  have hmore : (b ++ "*/" ++ inner).toList ∈ commentRest := by
    rw [Lexeme.mem_commentRest_iff, toList_closed, Lexeme.commentLength?_mark hb, if_neg hodd,
      Lexeme.mem_commentRest_iff.1 hinner, Option.map_some, List.length_append,
      List.length_cons, List.length_cons]
    exact congrArg some (by omega)
  have hsource : "/*" ++ b ++ "*/" ++ (inner ++ rest) =
      "/*" ++ (b ++ "*/" ++ inner) ++ rest := by
    simp only [String.append_assoc]
  have htext : "/*" ++ b ++ "*/" ++ inner = "/*" ++ (b ++ "*/" ++ inner) := by
    simp only [String.append_assoc]
  rw [hsource, htext, lex_of_mem_commentRest hmore]

/-- Without an end behind the mark the source is garbage then. -/
theorem lex_of_odd_unclosed {b r : String} (hb : ¬ "*/".toList <:+: b.toList)
    (hodd : starsAtEnd b.toList % 2 ≠ 0) (hnone : ∀ w ∈ commentRest, ¬ w <+: r.toList) :
    lex ("/*" ++ b ++ "*/" ++ r) =
      [⟨.garbage, "/*" ++ b ++ "*/" ++ r, ⟨0, ("/*" ++ b ++ "*/" ++ r).utf8ByteSize⟩⟩] := by
  have hsource : "/*" ++ b ++ "*/" ++ r = "/*" ++ (b ++ "*/" ++ r) := by
    simp only [String.append_assoc]
  rw [hsource]
  refine lex_of_unclosed ?_
  rw [toList_closed, Lexeme.commentLength?_mark hb, if_neg hodd,
    Lexeme.commentLength?_eq_none_iff.2 hnone]
  rfl

/-- A comment without a closing mark inside is one token, with the tokens of the rest of the source
    behind it, exactly if an even number of stars stands in front of its closing mark. Otherwise
    the comment goes on as far as a comment that is opened at the rest does, and without an end
    there all of the source is garbage. The spans have offsets without a bound, which fit in 32 bits
    for a source below 4 GiB. -/
theorem lex_blockComment {b : String} (hb : ¬ "*/".toList <:+: b.toList) (r : String) :
    (lex ("/*" ++ b ++ "*/" ++ r) =
        Token.comment ("/*" ++ b ++ "*/") ::
          (lex r).map (Token.shift ("/*" ++ b ++ "*/").utf8ByteSize) ↔
      starsAtEnd b.toList % 2 = 0) ∧
    (starsAtEnd b.toList % 2 ≠ 0 →
      (∀ inner rest, r = inner ++ rest → inner.toList ∈ commentRest →
        lex ("/*" ++ b ++ "*/" ++ r) =
          Token.comment ("/*" ++ b ++ "*/" ++ inner) ::
            (lex rest).map (Token.shift ("/*" ++ b ++ "*/" ++ inner).utf8ByteSize)) ∧
      ((∀ w ∈ commentRest, ¬ w <+: r.toList) →
        lex ("/*" ++ b ++ "*/" ++ r) =
          [⟨.garbage, "/*" ++ b ++ "*/" ++ r, ⟨0, ("/*" ++ b ++ "*/" ++ r).utf8ByteSize⟩⟩])) := by
  refine ⟨⟨fun hlex => ?_, fun heven => lex_of_even hb heven r⟩, fun hodd =>
    ⟨fun inner rest hr hinner => hr ▸ lex_of_odd hb hodd hinner rest,
      lex_of_odd_unclosed hb hodd⟩⟩
  by_contra hodd
  by_cases hnone : ∀ w ∈ commentRest, ¬ w <+: r.toList
  · rw [lex_of_odd_unclosed hb hodd hnone] at hlex
    cases hlex
  · simp only [not_forall, not_not] at hnone
    obtain ⟨w, hw, rest, hrest⟩ := hnone
    have hr : r = String.ofList w ++ String.ofList rest := by
      rw [← String.ofList_append, hrest, String.ofList_toList]
    have hinner : (String.ofList w).toList ∈ commentRest := by rwa [String.toList_ofList]
    rw [hr, lex_of_odd hb hodd hinner] at hlex
    have htext : "/*" ++ b ++ "*/" ++ String.ofList w = "/*" ++ b ++ "*/" :=
      congrArg Token.text (List.cons.inj hlex).1
    have hlength := congrArg String.length htext
    rw [String.length_append _ (String.ofList w), String.length_ofList] at hlength
    exact ne_nil_of_mem_commentRest hw (List.length_eq_zero_iff.1 (by omega))

/-- An even number of stars in front of the closing mark, and another comment behind. -/
theorem exists_lex_blockComment :
    ¬ "*/".toList <:+: " a **".toList ∧
      lex ("/*" ++ " a **" ++ "*/" ++ "x /* b */") =
        Token.comment ("/*" ++ " a **" ++ "*/") ::
          (lex "x /* b */").map (Token.shift ("/*" ++ " a **" ++ "*/").utf8ByteSize) := by
  have hopen : ¬ "*/".toList <:+: " a **".toList := by decide
  exact ⟨hopen, (lex_blockComment hopen "x /* b */").1.2 (by decide)⟩

/-- An odd number of stars, with the slash of another closing mark behind. -/
theorem lex_odd_star :
    ¬ "*/".toList <:+: "*".toList ∧
      lex ("/*" ++ "*" ++ "*/" ++ " x */ y") =
        [Token.comment "/***/ x */", ⟨.blank, " ", ⟨10, 11⟩⟩, ⟨.name, "y", ⟨11, 12⟩⟩] ∧
      lex ("/*" ++ "*" ++ "*/" ++ " x */ y") ≠
        Token.comment ("/*" ++ "*" ++ "*/") ::
          (lex " x */ y").map (Token.shift ("/*" ++ "*" ++ "*/").utf8ByteSize) := by
  have hlex : lex ("/*" ++ "*" ++ "*/" ++ " x */ y") =
      [Token.comment "/***/ x */", ⟨.blank, " ", ⟨10, 11⟩⟩, ⟨.name, "y", ⟨11, 12⟩⟩] := by cbv
  refine ⟨by decide, hlex, fun h => ?_⟩
  rw [hlex] at h
  have htext : "/***/ x */" = "/***/" := congrArg Token.text (List.cons.inj h).1
  exact absurd htext (by decide)

end FluentGrammar.Source
