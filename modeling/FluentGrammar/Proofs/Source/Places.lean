import FluentGrammar.Proofs.Report.Spans
import FluentGrammar.Proofs.Source.Leaves

/-
  Where tokens and syntax errors are. The tokens of a source lie one behind the other, and only
  garbage begins with a character of several bytes (`spell_lex`). The parser reports errors at
  tokens, at the end of the source, over a group from its parenthesis on, and behind the last token
  where a semicolon is missing. Only the last of these spans may be empty before other tokens, and
  what comes next there is never garbage. So every span that the parser reports can be shown
  (`fits_of_parse`).
-/

namespace FluentGrammar.Source

open Text Report

/-! ## Tokens -/

namespace Lexeme

theorem utf8Size_of_isNameStart {c : Char} (h : isNameStart c = true) : c.utf8Size = 1 := by
  have hle {top : Char} (htop : top.val.toNat ≤ 127) (hc : c.val ≤ top.val) : c.utf8Size = 1 :=
    Char.utf8Size_eq_one_iff.2
      (UInt32.le_iff_toNat_le.2 (Nat.le_trans (UInt32.le_iff_toNat_le.1 hc) htop))
  rw [isNameStart, Bool.or_eq_true, beq_iff_eq] at h
  rcases h with hletter | rfl
  · rcases Bool.or_eq_true_iff.1 hletter with hupper | hlower
    · have hrange : 'A'.val ≤ c.val ∧ c.val ≤ 'Z'.val := of_decide_eq_true hupper
      exact hle (by decide) hrange.2
    · have hrange := Bool.and_eq_true_iff.1 hlower
      exact hle (by decide) (of_decide_eq_true hrange.2)
  · decide

theorem utf8Size_of_isBlankOrTab {c : Char} (h : isBlankOrTab c = true) : c.utf8Size = 1 := by
  rw [isBlankOrTab, Bool.or_eq_true, beq_iff_eq, beq_iff_eq] at h
  rcases h with rfl | rfl <;> rfl

/-- A lexeme that begins with a character of several bytes is garbage. -/
theorem utf8Size_of_munch {c : Char} {rest : List Char} (h : (munch c rest).1 ≠ .garbage) :
    c.utf8Size = 1 := by
  unfold munch at h
  split at h
  case h_12 =>
    split at h
    · next hname => exact utf8Size_of_isNameStart hname
    · split at h
      · next hblank => exact utf8Size_of_isBlankOrTab hblank
      · exact absurd rfl h
  all_goals rfl

/-- A lexeme has characters, and begins with a character of one byte unless it is garbage. -/
def Sound (l : Lexeme) : Prop :=
  l.chars ≠ [] ∧ (l.kind ≠ .garbage → ∀ c ∈ l.chars.head?, c.utf8Size = 1)

theorem sound_of_mem_attach {l : Lexeme} {others : List Lexeme} (hl : l.Sound)
    (hothers : ∀ o ∈ others, o.Sound) : ∀ o ∈ attach l others, o.Sound := by
  unfold attach
  split
  · next cs rest =>
    obtain ⟨-, hrest⟩ := List.forall_mem_cons.1 hothers
    split
    · exact List.forall_mem_cons.2
        ⟨⟨List.append_ne_nil_of_left_ne_nil hl.1 cs, fun h => absurd rfl h⟩, hrest⟩
    · exact List.forall_mem_cons.2 ⟨hl, hothers⟩
  · exact List.forall_mem_cons.2 ⟨hl, hothers⟩

theorem sound_of_mem_all (cs : List Char) : ∀ l ∈ all cs, l.Sound := by
  fun_induction all cs with
  | case1 => exact fun l hl => absurd hl List.not_mem_nil
  | case2 c rest kind n hmunch ih =>
    refine sound_of_mem_attach ⟨List.cons_ne_nil _ _, fun hkind c' hc => ?_⟩ ih
    obtain rfl := Option.some.inj hc
    have hplain : (munch c rest).1 ≠ .garbage := hmunch ▸ hkind
    exact utf8Size_of_munch hplain

end Lexeme

/-- The tokens spell the characters from an offset on, and only garbage begins with a character of
    several bytes. -/
inductive Spell : Nat → List Token → List Char → Prop
  | nil (n : Nat) : Spell n [] []
  | cons {n : Nat} {t : Token} {ts : List Token} {cs rest : List Char} (hne : cs ≠ [])
      (hspan : t.span = ⟨n, n + byteLength cs⟩)
      (hplain : t.kind ≠ .garbage → ∀ c ∈ cs.head?, c.utf8Size = 1)
      (hrest : Spell (n + byteLength cs) ts rest) : Spell n (t :: ts) (cs ++ rest)

theorem spell_place {ls : List Lexeme} (h : ∀ l ∈ ls, l.Sound) (n : Nat) :
    Spell n (Token.place n ls) (ls.map (·.chars)).flatten := by
  induction ls generalizing n with
  | nil => exact .nil n
  | cons l ls ih =>
    obtain ⟨⟨hne, hplain⟩, hls⟩ := List.forall_mem_cons.1 h
    rw [Token.place, List.map_cons, List.flatten_cons]
    exact .cons hne rfl hplain (ih hls _)

theorem spell_lex (source : String) : Spell 0 (lex source) source.toList := by
  have h := spell_place (Lexeme.sound_of_mem_all source.toList) 0
  rw [Lexeme.flatten_all] at h
  exact h

namespace Spell

variable {n : Nat} {t : Token} {ts front back : List Token} {cs : List Char}

theorem append (h : Spell n (front ++ back) cs) : ∃ before after, cs = before ++ after ∧
    Spell n front before ∧ Spell (n + byteLength before) back after := by
  induction front generalizing n cs with
  | nil => exact ⟨[], cs, rfl, .nil n, h⟩
  | cons t front ih =>
    cases h with
    | @cons _ _ _ own rest hne hspan hplain hrest =>
      obtain ⟨before, after, rfl, hfront, hback⟩ := ih hrest
      refine ⟨own ++ before, after, (List.append_assoc _ _ _).symm,
        .cons hne hspan hplain hfront, ?_⟩
      rw [byteLength_append, ← Nat.add_assoc]
      exact hback

/-- Characters of several bytes come first only in garbage. -/
theorem plain (h : Spell n ts cs) (hts : ∀ t ∈ ts.head?, t.kind ≠ .garbage) :
    ∀ c ∈ cs.head?, c.utf8Size = 1 := by
  cases h with
  | nil => nofun
  | @cons _ _ _ own rest hne _ hplain _ =>
    obtain ⟨c, own, rfl⟩ := List.exists_cons_of_ne_nil hne
    exact hplain (hts _ rfl)

/-- The last token ends where the characters do. -/
theorem stop_eq (h : Spell n (front ++ [t]) cs) : t.span.stop = n + byteLength cs := by
  obtain ⟨before, after, rfl, -, ht⟩ := h.append
  cases ht with
  | @cons _ _ _ own rest _ hspan _ hrest =>
    cases hrest
    rw [hspan, List.append_nil, byteLength_append]
    exact Nat.add_assoc _ _ _

theorem start_eq (h : Spell n (t :: ts) cs) : t.span.start = n := by
  cases h with
  | cons _ hspan => rw [hspan]

end Spell

variable {source : String} {t : Token} {front back : List Token}

/-- The place between two tokens, unless garbage comes next. -/
theorem plainBoundary_of_lex (h : lex source = front ++ back)
    (hback : ∀ t ∈ back.head?, t.kind ≠ .garbage) : ∃ n, PlainBoundary source.toList n ∧
      (∀ a t, front = a ++ [t] → t.span.stop = n) ∧ ∀ t ∈ back.head?, t.span.start = n := by
  have hspell := spell_lex source
  rw [h] at hspell
  obtain ⟨before, after, hcs, hfront, hafter⟩ := hspell.append
  rw [Nat.zero_add] at hafter
  refine ⟨byteLength before, ⟨before, after, hcs, rfl, hafter.plain hback⟩, ?_, ?_⟩
  · rintro a t rfl
    rw [hfront.stop_eq, Nat.zero_add]
  · intro t ht
    obtain ⟨rest, rfl⟩ := List.head?_eq_some_iff.1 ht
    exact hafter.start_eq

/-- The span of a token fits. -/
theorem fits_of_mem_lex (h : t ∈ lex source) : t.span.Fits source.toList := by
  obtain ⟨front, back, hlex⟩ := List.append_of_mem h
  have hspell := spell_lex source
  rw [hlex] at hspell
  obtain ⟨before, after, hcs, -, hafter⟩ := hspell.append
  cases hafter with
  | @cons _ _ _ own rest hne hspan _ _ =>
    have hpos : byteLength own ≠ 0 := mt byteLength_eq_zero.1 hne
    rw [hspan, Nat.zero_add]
    refine ⟨Nat.le_add_right _ _, ⟨before, own ++ rest, hcs, rfl⟩,
      ⟨before ++ own, rest, ?_, byteLength_append _ _⟩, fun hempty => ?_⟩
    · rw [hcs, List.append_assoc]
    · dsimp only at hempty
      omega

theorem plainBoundary_end (cs : List Char) : PlainBoundary cs (byteLength cs) :=
  ⟨cs, [], (List.append_nil cs).symm, rfl, nofun⟩

/-! ## Syntax errors -/

namespace Parsing

variable {s s' s₀ : State} {d : Diagnostic} {n : Nat}

/-- The tokens to come are the last ones of the source, only trivia lies behind the last token
    attached, and what was reported can be shown. -/
structure Placed (source : String) (s : State) : Prop where
  tokens : ∃ front, lex source = front ++ s.rest ∧ ∀ n ∈ s.lastStop, ∃ a t ws,
    front = a ++ [t] ++ ws ∧ t.span.stop = n ∧ ∀ w ∈ ws, w.kind.isTrivia = true
  sourceLength : s.sourceLength = byteLength source.toList
  diagnostics : ∀ d ∈ s.diagnostics, ∀ x ∈ d.spans, x.Fits source.toList

namespace Placed

theorem lookAhead (h : Placed source s) : Placed source s.lookAhead := by
  obtain ⟨⟨front, hlex, hlast⟩, hlength, hdiagnostics⟩ := h
  refine ⟨⟨front ++ s.rest.takeWhile (·.kind.isTrivia), ?_, fun n hn => ?_⟩, hlength,
    hdiagnostics⟩
  · rw [hlex, List.append_assoc]
    exact congrArg (front ++ ·) List.takeWhile_append_dropWhile.symm
  · obtain ⟨a, t, ws, rfl, hstop, hws⟩ := hlast n hn
    refine ⟨a, t, ws ++ s.rest.takeWhile (·.kind.isTrivia), List.append_assoc _ _ _, hstop, ?_⟩
    intro w hw
    rcases List.mem_append.1 hw with hw | hw
    · exact hws w hw
    · exact List.all_eq_true.1 List.all_takeWhile w hw

theorem flush (h : Placed source s) : Placed source s.flush.2 :=
  ⟨h.tokens, h.sourceLength, h.diagnostics⟩

theorem bump (h : Placed source s) : Placed source s.bump.2 := by
  cases hrest : s.rest with
  | nil =>
    rw [State.bump_of_nil hrest]
    exact h.flush
  | cons t after =>
    obtain ⟨⟨front, hlex, -⟩, hlength, hdiagnostics⟩ := h
    rw [State.bump]
    simp only [hrest]
    refine ⟨⟨front ++ [t], ?_, fun n hn => ?_⟩, hlength, hdiagnostics⟩
    · rw [hlex, hrest, List.append_assoc]
      rfl
    · exact ⟨front, t, [], (List.append_nil _).symm, Option.some.inj hn, List.forall_mem_nil _⟩

/-- The span of the next token, or of the end, can be shown. -/
theorem span (h : Placed source s) : s.span.Fits source.toList := by
  obtain ⟨front, hlex, -⟩ := h.tokens
  rw [State.span]
  split
  · next t after hrest =>
    refine fits_of_mem_lex ?_
    rw [hlex, hrest]
    exact List.mem_append_right _ List.mem_cons_self
  · rw [h.sourceLength]
    exact Span.fits_empty (plainBoundary_end _)

/-- Behind the last token comes no character of several bytes when the next token is not
    garbage. -/
theorem lastStop (h : Placed source s) (hsettled : s.Settled) :
    PlainBoundary source.toList (s.lastStop.getD s.span.start) := by
  obtain ⟨front, hlex, hlast⟩ := h.tokens
  have hnext : ∀ t ∈ s.rest.head?, t.kind ≠ .garbage := by
    intro t ht hkind
    rcases hsettled t ht with hends | hname
    · rw [hkind] at hends
      cases hends
    · rw [hkind] at hname
      cases hname
  cases hstop : s.lastStop with
  | some n =>
    obtain ⟨a, t, ws, rfl, rfl, hws⟩ := hlast n hstop
    rw [List.append_assoc] at hlex
    obtain ⟨m, hplain, hfront, -⟩ := plainBoundary_of_lex hlex fun w hw => by
      cases ws with
      | nil => exact hnext w hw
      | cons v ws =>
        obtain rfl := Option.some.inj hw
        have htrivia := hws v List.mem_cons_self
        intro hkind
        rw [hkind] at htrivia
        cases htrivia
    rw [Option.getD_some, hfront a t rfl]
    exact hplain
  | none =>
    rw [Option.getD_none, State.span]
    split
    · next t after hrest =>
      obtain ⟨m, hplain, -, hback⟩ := plainBoundary_of_lex hlex hnext
      rw [hback t (by rw [hrest]; rfl)]
      exact hplain
    · rw [h.sourceLength]
      exact plainBoundary_end _

/-- What is reported can be shown. -/
theorem spans (h₀ : Placed source s₀) (h : Placed source s) (hd : Reports s₀ s d) :
    ∀ x ∈ d.spans, x.Fits source.toList := by
  have htwo {x y : Span} (hx : x.Fits source.toList) (hy : y.Fits source.toList) :
      ∀ z ∈ [x, y], z.Fits source.toList :=
    List.forall_mem_cons.2 ⟨hx, List.forall_mem_singleton.2 hy⟩
  cases hd with
  | here _ hspan hrelated =>
    rw [Diagnostic.spans, hspan, hrelated]
    exact List.forall_mem_singleton.2 h.span
  | missing hsettled => exact htwo (Span.fits_empty (h.lastStop hsettled)) h₀.span
  | unclosed => exact htwo (h₀.span.cover h.span) h₀.span

end Placed

theorem respects_placed (source : String) :
    Respects fun s _ s' => Placed source s → Placed source s' where
  refl _ h := h
  trans h h' hs := h' (h hs)
  node _ h := h
  lookAhead _ h := h.lookAhead
  flush _ h := h.flush
  bump _ h := h.bump
  report := by
    intro s₀ s _ d offset hs hd h₀
    have h := hs h₀
    refine ⟨h.tokens, h.sourceLength, fun e he => ?_⟩
    change e ∈ (if s.lastError == some offset then s.diagnostics else s.diagnostics ++ [d]) at he
    split at he
    · exact h.diagnostics e he
    · rcases List.mem_append.1 he with he | he
      · exact h.diagnostics e he
      · exact List.mem_singleton.1 he ▸ h₀.spans h hd

end Parsing

open Parsing in
/-- The spans of syntax errors can be shown. -/
theorem fits_of_parse {limit : Nat} {tree : Tree} {ds : List Diagnostic}
    (h : parse source limit = .ok (tree, ds)) :
    ∀ d ∈ ds, ∀ x ∈ d.spans, x.Fits source.toList := by
  obtain ⟨body, s, hbody, -, rfl⟩ := of_parse_eq_ok h
  have hstart : Placed source (.start (lex source) (byteLength source.toList)) :=
    ⟨⟨[], rfl, nofun⟩, rfl, nofun⟩
  exact ((respects_placed source).contents hbody hstart).diagnostics

end FluentGrammar.Source
