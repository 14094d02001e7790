import FluentGrammar.Report.Rendering

/-
  Spans that a source has. An offset is a boundary when it lies between two characters, and a span
  lies within a source when both of its ends are boundaries in the right order. A span that is to
  be shown must stay within the source when it is widened by one byte for being empty, so no
  character of several bytes may follow an empty one (`Span.Fits`). Diagnostics whose spans do so
  have a rendering (`isSome_allRendered?`).
-/

namespace FluentGrammar

namespace Text

variable {cs before after front mid back : List Char} {n : Nat}

/-! ## Boundaries -/

/-- The offset lies before, behind or between characters of the text. -/
def Boundary (cs : List Char) (n : Nat) : Prop :=
  ∃ before after, cs = before ++ after ∧ byteLength before = n

theorem splitAtByte?_byteLength (before after : List Char) :
    splitAtByte? (byteLength before) (before ++ after) = some (before, after) := by
  induction before with
  | nil => cases after <;> rfl
  | cons c before ih =>
    have hpos := c.utf8Size_pos
    obtain ⟨n, hn⟩ : ∃ n, byteLength (c :: before) = n + 1 :=
      ⟨byteLength (c :: before) - 1, by rw [byteLength_cons]; omega⟩
    rw [byteLength_cons] at hn
    have hrest : n + 1 - c.utf8Size = byteLength before := by omega
    rw [byteLength_cons, hn, List.cons_append, splitAtByte?.eq_3 _ _ _ (Nat.succ_ne_zero n),
      if_neg (by omega), hrest, ih]
    rfl

/-- A text can be split at its boundaries and nowhere else. -/
theorem isSome_splitAtByte? : (splitAtByte? n cs).isSome = true ↔ Boundary cs n := by
  constructor
  · intro h
    obtain ⟨⟨before, after⟩, hsplit⟩ := Option.isSome_iff_exists.1 h
    obtain ⟨hcs, hn⟩ := splitAtByte?_eq_some hsplit
    exact ⟨before, after, hcs.symm, hn⟩
  · rintro ⟨before, after, rfl, rfl⟩
    rw [splitAtByte?_byteLength]
    rfl

theorem Boundary.le (h : Boundary cs n) : n ≤ byteLength cs := by
  obtain ⟨before, after, rfl, rfl⟩ := h
  rw [byteLength_append]
  omega

theorem boundary_zero (cs : List Char) : Boundary cs 0 := ⟨[], cs, rfl, rfl⟩

theorem boundary_byteLength (cs : List Char) : Boundary cs (byteLength cs) :=
  ⟨cs, [], (List.append_nil cs).symm, rfl⟩

theorem byteLength_eq_zero : byteLength cs = 0 ↔ cs = [] := by
  cases cs with
  | nil => simp
  | cons c cs =>
    have hpos := c.utf8Size_pos
    rw [byteLength_cons]
    simp only [reduceCtorEq, iff_false]
    omega

/-- Of two beginnings of a text the one with fewer bytes begins the other. -/
theorem prefix_of_byteLength_le (h : before ++ after = front ++ back)
    (hle : byteLength before ≤ byteLength front) : before <+: front := by
  obtain ⟨more, rfl, rfl⟩ | ⟨more, rfl, rfl⟩ := List.append_eq_append_iff.1 h
  · exact List.prefix_append _ _
  · rw [byteLength_append] at hle
    obtain rfl := byteLength_eq_zero.1 (show byteLength more = 0 by omega)
    exact ⟨[], by simp⟩

/-- A boundary in a stretch of a text is a boundary of the stretch. -/
theorem Boundary.sub (h : Boundary (front ++ mid ++ back) n) (hle : byteLength front ≤ n)
    (hge : n ≤ byteLength front + byteLength mid) : Boundary mid (n - byteLength front) := by
  obtain ⟨before, after, hcs, rfl⟩ := h
  obtain ⟨inner, rfl⟩ : front <+: before := by
    rw [List.append_assoc] at hcs
    exact prefix_of_byteLength_le hcs hle
  rw [byteLength_append] at hge ⊢
  obtain ⟨rest, rfl⟩ : inner <+: mid := by
    rw [List.append_assoc, List.append_assoc, List.append_cancel_left_eq] at hcs
    exact prefix_of_byteLength_le hcs.symm (by omega)
  exact ⟨inner, rest, rfl, by omega⟩

/-- A boundary that no character of several bytes follows. -/
def PlainBoundary (cs : List Char) (n : Nat) : Prop :=
  ∃ before after, cs = before ++ after ∧ byteLength before = n ∧
    ∀ c ∈ after.head?, c.utf8Size = 1

theorem PlainBoundary.boundary (h : PlainBoundary cs n) : Boundary cs n := by
  obtain ⟨before, after, hcs, hn, -⟩ := h
  exact ⟨before, after, hcs, hn⟩

/-- The next byte is a character, unless the text ends. -/
theorem PlainBoundary.next (h : PlainBoundary cs n) :
    Boundary cs (min (n + 1) (byteLength cs)) := by
  obtain ⟨before, after, rfl, rfl, hplain⟩ := h
  cases after with
  | nil =>
    rw [List.append_nil, Nat.min_eq_right (Nat.le_succ _)]
    exact boundary_byteLength before
  | cons c after =>
    have hc := hplain c rfl
    refine ⟨before ++ [c], after, by simp, ?_⟩
    rw [byteLength_append, byteLength_append, byteLength_cons, byteLength_cons, hc, byteLength_nil]
    omega

end Text

/-! ## Spans -/

namespace Span

open Text

variable {cs : List Char} {s t : Span} {n : Nat}

/-- The span begins and ends at boundaries of the text. -/
structure Within (cs : List Char) (s : Span) : Prop where
  le : s.start ≤ s.stop
  stop_le : s.stop ≤ byteLength cs
  start : Boundary cs s.start
  stop : Boundary cs s.stop

/-- The span lies within the text, and if it is empty no character of several bytes follows. -/
structure Fits (cs : List Char) (s : Span) : Prop where
  le : s.start ≤ s.stop
  start : Boundary cs s.start
  stop : Boundary cs s.stop
  plain : s.start = s.stop → PlainBoundary cs s.start

theorem Fits.within (h : s.Fits cs) : s.Within cs := ⟨h.le, h.stop.le, h.start, h.stop⟩

/-- An empty span is shown with the byte behind it, if the text goes on there. -/
theorem visible_of_eq (h : s.start = s.stop) (length : Nat) :
    s.visible length = ⟨s.start, min (s.start + 1) length⟩ := if_pos h

theorem visible_of_ne (h : s.start ≠ s.stop) (length : Nat) : s.visible length = s := if_neg h

/-- Something is shown for every span but the empty one at the end of the text. -/
theorem isEmpty_visible_iff {length : Nat} (h : s.stop ≤ length) :
    (s.visible length).start = (s.visible length).stop ↔ s = .empty length := by
  obtain ⟨start, stop⟩ := s
  by_cases hempty : start = stop
  · obtain rfl := hempty
    rw [visible_of_eq rfl, Span.empty, Span.mk.injEq, and_self]
    show start = min (start + 1) length ↔ start = length
    change start ≤ length at h
    omega
  · rw [visible_of_ne hempty, Span.empty, Span.mk.injEq]
    show start = stop ↔ start = length ∧ stop = length
    omega

/-- A span that fits is shown by a span within the text. -/
theorem Fits.visible (h : s.Fits cs) : (s.visible (byteLength cs)).Within cs := by
  by_cases hempty : s.start = s.stop
  · rw [visible_of_eq hempty]
    have hle := h.start.le
    have hnext := (h.plain hempty).next
    exact ⟨Nat.le_min.2 ⟨Nat.le_succ _, hle⟩, Nat.min_le_right _ _, h.start, hnext⟩
  · rw [visible_of_ne hempty]
    exact h.within

theorem fits_empty (h : PlainBoundary cs n) : (Span.empty n).Fits cs :=
  ⟨Nat.le_refl _, h.boundary, h.boundary, fun _ => h⟩

/-- The least span that holds two spans that fit fits too. -/
theorem Fits.cover (hs : s.Fits cs) (ht : t.Fits cs) : (s.cover t).Fits cs := by
  have hle := hs.le
  have hle' := ht.le
  refine ⟨?_, ?_, ?_, fun hempty => ?_⟩
  · show min s.start t.start ≤ max s.stop t.stop
    omega
  · show Boundary cs (min s.start t.start)
    rcases Nat.le_total s.start t.start with h | h
    · rw [Nat.min_eq_left h]
      exact hs.start
    · rw [Nat.min_eq_right h]
      exact ht.start
  · show Boundary cs (max s.stop t.stop)
    rcases Nat.le_total s.stop t.stop with h | h
    · rw [Nat.max_eq_right h]
      exact ht.stop
    · rw [Nat.max_eq_left h]
      exact hs.stop
  · change min s.start t.start = max s.stop t.stop at hempty
    show PlainBoundary cs (min s.start t.start)
    rw [show min s.start t.start = s.start by omega]
    exact hs.plain (by omega)

end Span

/-- The span of a diagnostic and those it is related to. -/
def Diagnostic.spans (d : Diagnostic) : List Span := d.span :: d.related.map (·.span)

/-! ## Rendering -/

namespace Text

theorem exists_dropEnding (piece : List Char) : ∃ ending, piece = dropEnding piece ++ ending := by
  have hback := List.reverse_reverse piece
  unfold dropEnding
  split
  · next before h =>
    rw [h] at hback
    exact ⟨['\r', '\n'], by rw [← hback]; simp⟩
  · next before h =>
    rw [h] at hback
    exact ⟨['\n'], by rw [← hback]; simp⟩
  · exact ⟨[], (List.append_nil piece).symm⟩

end Text

namespace Report

open Text

variable {cs : List Char} {s : Span} {n number start : Nat} {l : SourceLine}

namespace SourceLine

/-- A line is a piece of the source without its ending, at the offset of the piece. -/
theorem of_mem_ofPieces {pieces : List (List Char)} (h : l ∈ ofPieces number start pieces) :
    ∃ front piece back, pieces = front ++ piece :: back ∧
      l.start = start + byteLength front.flatten ∧ l.content = dropEnding piece := by
  induction pieces generalizing number start with
  | nil => cases h
  | cons piece rest ih =>
    rcases List.mem_cons.1 h with rfl | h
    · exact ⟨[], piece, rest, rfl, rfl, rfl⟩
    · obtain ⟨front, piece', back, rfl, hstart, hcontent⟩ := ih h
      refine ⟨piece :: front, piece', back, rfl, ?_, hcontent⟩
      rw [hstart, List.flatten_cons, byteLength_append, Nat.add_assoc]

/-- Every line has a text before every boundary of the source. -/
theorem isSome_before? (h : Boundary cs n) (hl : l ∈ ofSource cs) :
    (l.before? n).isSome = true := by
  rw [before?, Option.isSome_map, isSome_splitAtByte?]
  unfold ofSource at hl
  split at hl
  · obtain rfl := List.mem_singleton.1 hl
    rw [show SourceLine.size ⟨1, [], 0, 1⟩ = 0 from rfl, Nat.min_zero]
    exact boundary_zero []
  · obtain ⟨front, piece, back, hpieces, hstart, hcontent⟩ := of_mem_ofPieces hl
    have hcs := flatten_cutAfterFeeds cs
    rw [hpieces, List.flatten_append, List.flatten_cons, ← List.append_assoc] at hcs
    obtain ⟨ending, hending⟩ := exists_dropEnding piece
    rw [← hcontent] at hending
    rw [Nat.zero_add] at hstart
    -- An offset before or behind the text of the line counts as its first or last place.
    rcases Nat.lt_or_ge n l.start with hlt | hge
    · rw [Nat.sub_eq_zero_of_le (Nat.le_of_lt hlt), Nat.zero_min]
      exact boundary_zero _
    · rcases Nat.lt_or_ge l.size (n - l.start) with hlt' | hge'
      · rw [Nat.min_eq_right (Nat.le_of_lt hlt')]
        exact boundary_byteLength _
      · rw [Nat.min_eq_left hge', hstart]
        rw [hstart] at hge hge'
        rw [← hcs, hending, List.append_assoc, List.append_assoc, ← List.append_assoc] at h
        exact h.sub hge (by unfold size at hge'; omega)

theorem holding_mem {lines : List SourceLine} (h : lines ≠ []) (n : Nat) :
    holding lines n ∈ lines := by
  rw [holding]
  cases hfind : lines.find? fun l => l.start ≤ n && n < l.stop with
  | some l => exact List.mem_of_find?_eq_some hfind
  | none =>
    rw [Option.getD_none, List.getLastD_eq_getLast?, List.getLast?_eq_some_getLast h]
    exact List.getLast_mem h

theorem ofSource_ne_nil (cs : List Char) : ofSource cs ≠ [] := by
  unfold ofSource
  split
  · exact List.cons_ne_nil _ _
  · next h => exact h

end SourceLine

open SourceLine in
/-- A span within the source has a place. -/
theorem Place.isSome_ofSpan? (h : s.Within cs) : (ofSpan? (ofSource cs) s).isSome = true := by
  have hmem := holding_mem (ofSource_ne_nil cs)
  obtain ⟨start, hstart⟩ : ∃ p, ofStart? (ofSource cs) s.start = some p := by
    rw [← Option.isSome_iff_exists, ofStart?, Option.isSome_map]
    exact isSome_before? h.start (hmem s.start)
  obtain ⟨stop, hstop⟩ : ∃ p, ofStop? (ofSource cs) start.line s.stop = some p := by
    rw [← Option.isSome_iff_exists, ofStop?, Option.isSome_map]
    exact isSome_before? h.stop (hmem s.stop)
  rw [ofSpan?, hstart]
  dsimp only [bind, Option.bind]
  rw [hstop]
  dsimp only
  split
  · split <;> rfl
  · split <;> rfl

theorem isSome_mapM {α β : Type} {f : α → Option β} {xs : List α}
    (h : ∀ a ∈ xs, (f a).isSome = true) : (xs.mapM f).isSome = true := by
  induction xs with
  | nil => rfl
  | cons a xs ih =>
    obtain ⟨ha, hxs⟩ := List.forall_mem_cons.1 h
    obtain ⟨b, hb⟩ := Option.isSome_iff_exists.1 ha
    obtain ⟨bs, hbs⟩ := Option.isSome_iff_exists.1 (ih hxs)
    rw [List.mapM_cons, hb, hbs]
    rfl

end Report

namespace Diagnostic

open Report Text

variable {source : String} {d : Diagnostic} {ds : List Diagnostic}

/-- A diagnostic whose spans fit has a rendering. -/
theorem isSome_rendered? (h : ∀ s ∈ d.spans, s.Fits source.toList) (path : Option String)
    (colored : Bool) : (d.rendered? source path colored).isSome = true := by
  have hlabels : ∀ l ∈ d.labels (byteLength source.toList), l.span.Within source.toList := by
    intro l hl
    rcases List.mem_cons.1 hl with rfl | hl
    · exact (h _ List.mem_cons_self).visible
    · obtain ⟨r, hr, rfl⟩ := List.mem_map.1 hl
      exact (h _ (List.mem_cons_of_mem _ (List.mem_map.2 ⟨r, hr, rfl⟩))).visible
  have hplaced : ((d.labels (byteLength source.toList)).mapM
      (MarkedLine.place? (SourceLine.ofSource source.toList))).isSome = true := by
    refine isSome_mapM fun l hl => ?_
    obtain ⟨⟨start, stop⟩, hplace⟩ :=
      Option.isSome_iff_exists.1 (Place.isSome_ofSpan? (hlabels l hl))
    rw [MarkedLine.place?, hplace]
    dsimp only [bind, Option.bind]
    split <;> rfl
  obtain ⟨placed, hplaced⟩ := Option.isSome_iff_exists.1 hplaced
  have hshort : ((d.labels (byteLength source.toList)).any fun l =>
      decide (byteLength source.toList + 1 < l.span.stop)) = false := by
    rw [List.any_eq_false]
    intro l hl
    have hle := (hlabels l hl).stop_le
    simp only [decide_eq_true_eq]
    omega
  rw [rendered?, snippet?]
  dsimp only
  rw [hshort, if_neg Bool.false_ne_true, MarkedLine.ofLabels?, hplaced]
  rfl

theorem isSome_allRendered? (h : ∀ d ∈ ds, ∀ s ∈ d.spans, s.Fits source.toList)
    (path : Option String) (colored : Bool) :
    (allRendered? source path colored ds).isSome = true := by
  obtain ⟨all, hall⟩ := Option.isSome_iff_exists.1
    (isSome_mapM fun d hd => isSome_rendered? (h d hd) path colored)
  rw [allRendered?, hall]
  rfl

end Diagnostic

end FluentGrammar
