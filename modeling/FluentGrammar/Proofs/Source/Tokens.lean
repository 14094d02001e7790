import FluentGrammar.Proofs.Report.Spans
import FluentGrammar.Proofs.Source.Leaves
import FluentGrammar.Proofs.Source.Patterns
import Mathlib.Data.List.Chain

/-
  Tokens cut a source up. Their spans lie one behind the other from the beginning of the source to
  its end, without gaps and without an empty one, and each of them can be read off the source. A
  token that is not garbage is the longest word that any class has there, garbage is where none
  has, and no garbage lies behind garbage (`lex_partitions`).
-/

namespace FluentGrammar

open Text

/-- The characters in a span of a text, if its ends are in order and lie between characters. -/
def Span.charsIn? (s : Span) (cs : List Char) : Option (List Char) :=
  if s.start ≤ s.stop then do
    let (_, back) ← splitAtByte? s.start cs
    let (inside, _) ← splitAtByte? (s.stop - s.start) back
    return inside
  else none

theorem Span.charsIn?_append (before inside after : List Char) :
    Span.charsIn? ⟨byteLength before, byteLength (before ++ inside)⟩ (before ++ inside ++ after) =
      some inside := by
  have hlength : byteLength (before ++ inside) - byteLength before = byteLength inside := by
    rw [byteLength_append, Nat.add_sub_cancel_left]
  have hle : byteLength before ≤ byteLength (before ++ inside) := by
    rw [byteLength_append]
    exact Nat.le_add_right _ _
  rw [charsIn?, if_pos hle, hlength, List.append_assoc]
  simp only [splitAtByte?_byteLength, Option.bind_eq_bind, Option.bind_some]
  rfl

namespace Source

/-! ## Lexemes in their places -/

variable {ls : List Lexeme} {n : Nat} {t : Token}

/-- A token is taken off the characters at its place. -/
theorem exists_of_mem_place (h : Lexeme.Cut ls) (ht : t ∈ Token.place n ls) :
    ∃ before after, Lexeme.text ls = before ++ t.text.toList ++ after ∧
      t.span = ⟨n + byteLength before, n + byteLength (before ++ t.text.toList)⟩ ∧
      Lexeme.Taken t.kind t.text.toList after := by
  induction h generalizing n with
  | nil => cases ht
  | @cons l others htaken _ _ ih =>
    rcases List.mem_cons.1 ht with rfl | ht
    · refine ⟨[], Lexeme.text others, ?_, ?_, ?_⟩
      · rw [String.toList_ofList]
        rfl
      · rw [String.toList_ofList]
        rfl
      · rw [String.toList_ofList]
        exact htaken
    · obtain ⟨before, after, htext, hspan, htaken'⟩ := ih ht
      refine ⟨l.chars ++ before, after, ?_, ?_, htaken'⟩
      · show l.chars ++ Lexeme.text others = _
        rw [htext]
        simp only [List.append_assoc]
      · rw [hspan]
        simp only [byteLength_append, Nat.add_assoc]

/-- Tokens lie one behind the other, and no garbage lies behind garbage. -/
theorem isChain_place (h : Lexeme.Cut ls) (n : Nat) :
    (Token.place n ls).IsChain fun t u =>
      t.span.stop = u.span.start ∧ ¬ (t.kind = .garbage ∧ u.kind = .garbage) := by
  induction h generalizing n with
  | nil => exact .nil
  | @cons l others _ hnext _ ih =>
    rw [Token.place, List.isChain_cons]
    refine ⟨fun u hu => ?_, ih _⟩
    cases others with
    | nil => cases hu
    | cons o others =>
      obtain rfl := Option.some.inj hu
      exact ⟨rfl, fun h => hnext h.1 o rfl h.2⟩

theorem le_start_of_mem_place (ht : t ∈ Token.place n ls) : n ≤ t.span.start := by
  induction ls generalizing n with
  | nil => cases ht
  | cons l others ih =>
    rcases List.mem_cons.1 ht with rfl | ht
    · exact Nat.le_refl n
    · exact Nat.le_trans (Nat.le_add_right _ _) (ih ht)

theorem pairwise_place (n : Nat) (ls : List Lexeme) :
    (Token.place n ls).Pairwise fun t u => t.span.stop ≤ u.span.start := by
  induction ls generalizing n with
  | nil => exact .nil
  | cons l others ih => exact .cons (fun u hu => le_start_of_mem_place hu) (ih _)

theorem stop_of_getLast?_place (ht : t ∈ (Token.place n ls).getLast?) :
    t.span.stop = n + byteLength (Lexeme.text ls) := by
  induction ls generalizing n with
  | nil => cases ht
  | cons l others ih =>
    have htext : Lexeme.text (l :: others) = l.chars ++ Lexeme.text others := rfl
    rw [htext, byteLength_append, ← Nat.add_assoc]
    cases others with
    | nil =>
      obtain rfl := Option.some.inj ht
      rfl
    | cons o others =>
      refine ih ?_
      rwa [Token.place, Token.place, List.getLast?_cons_cons] at ht

/-! ## Tokens of a source -/

theorem text_all (source : String) : Lexeme.text (Lexeme.all source.toList) = source.toList :=
  Lexeme.flatten_all _

/-- A token ends where the next begins or before. -/
theorem pairwise_lex (source : String) :
    (lex source).Pairwise fun t u => t.span.stop ≤ u.span.start := pairwise_place 0 _

/-- What a token is of its source. -/
theorem exists_of_mem_lex {source : String} (ht : t ∈ lex source) :
    ∃ before after, source.toList = before ++ t.text.toList ++ after ∧
      t.span = ⟨byteLength before, byteLength (before ++ t.text.toList)⟩ ∧
      Lexeme.Taken t.kind t.text.toList after := by
  have h := exists_of_mem_place (Lexeme.cut_all source.toList) ht
  simp only [Nat.zero_add, text_all] at h
  exact h

theorem stop_le_of_mem_lex {source : String} (ht : t ∈ lex source) :
    t.span.stop ≤ source.utf8ByteSize := by
  obtain ⟨before, after, hsource, hspan, -⟩ := exists_of_mem_lex ht
  rw [hspan, ← byteLength_toList, hsource, byteLength_append _ after]
  exact Nat.le_add_right _ _

/-- No token is empty. -/
theorem start_lt_stop {source : String} (ht : t ∈ lex source) : t.span.start < t.span.stop := by
  obtain ⟨before, after, -, hspan, htaken⟩ := exists_of_mem_lex ht
  have hpos : byteLength t.text.toList ≠ 0 := mt byteLength_eq_zero.1 htaken.ne_nil
  rw [hspan]
  simp only [byteLength_append]
  omega

/-- Offsets in a source of less than 4 GiB are not changed by keeping them in 32 bits. -/
theorem toNat_offset {source : String} (hsize : source.utf8ByteSize < UInt32.size)
    (ht : t ∈ lex source) :
    (UInt32.ofNat t.span.start).toNat = t.span.start ∧
      (UInt32.ofNat t.span.stop).toNat = t.span.stop := by
  have hstart := start_lt_stop ht
  have hstop := stop_le_of_mem_lex ht
  exact ⟨UInt32.toNat_ofNat_of_lt' (by omega), UInt32.toNat_ofNat_of_lt' (by omega)⟩

/-- The spans of the tokens lie one behind the other from the beginning of the source to its end,
    and the texts of the tokens are the source. No two neighbours are garbage. A token has a text,
    which is read off the source at its span. If it is not garbage, it is a word of its class and
    no class has a longer word there. Garbage has no character at which a word of any class begins,
    unless a comment that is never closed was opened in it. Offsets are not bounded here, and below
    4 GiB they are those of 32 bits (`toNat_offset`). -/
theorem lex_partitions (source : String) :
    (∀ t ∈ (lex source).head?, t.span.start = 0) ∧
    (∀ t ∈ (lex source).getLast?, t.span.stop = source.utf8ByteSize) ∧
    ((lex source).IsChain fun t u =>
      t.span.stop = u.span.start ∧ ¬ (t.kind = .garbage ∧ u.kind = .garbage)) ∧
    String.join ((lex source).map (·.text)) = source ∧
    ∀ t ∈ lex source,
      t.span.start < t.span.stop ∧ t.span.stop ≤ source.utf8ByteSize ∧
      t.span.charsIn? source.toList = some t.text.toList ∧
      ∃ before after, source.toList = before ++ t.text.toList ++ after ∧
        byteLength before = t.span.start ∧
        (t.kind ≠ .garbage → Lexeme.Longest t.kind t.text.toList after) ∧
        (t.kind = .garbage → Lexeme.Stray t.text.toList after) := by
  have hcut := Lexeme.cut_all source.toList
  refine ⟨fun t ht => ?_, fun t ht => ?_, isChain_place hcut 0, join_lex source, fun t ht => ?_⟩
  · rw [lex] at ht
    cases hall : Lexeme.all source.toList with
    | nil =>
      rw [hall] at ht
      cases ht
    | cons l others =>
      rw [hall] at ht
      obtain rfl := Option.some.inj ht
      rfl
  · rw [stop_of_getLast?_place ht, text_all, Nat.zero_add, byteLength_toList]
  · obtain ⟨before, after, hsource, hspan, htaken⟩ := exists_of_mem_lex ht
    refine ⟨start_lt_stop ht, stop_le_of_mem_lex ht, ?_, before, after, hsource, ?_,
      htaken.longest, htaken.stray⟩
    · rw [hspan, hsource]
      exact Span.charsIn?_append before t.text.toList after
    · rw [hspan]

end Source

end FluentGrammar
