import FluentGrammar.Text.Identifier
import FluentGrammar.Text.Lines
import Mathlib.Data.List.Basic

/-
  Texts of one line, and texts that are written line by line. The lines of a text have no line feed
  (`oneLine_of_mem_lines`), and lines without one are found again where they are written one below
  the other (`splitOn_unlines`).
-/

namespace FluentGrammar.Text

variable {s t sep text line : String} {ss : List String} {cs : List Char}

/-- The text stays on its line. -/
def OneLine (s : String) : Prop := '\n' ∉ s.toList

instance (s : String) : Decidable (OneLine s) := inferInstanceAs (Decidable (¬ _))

theorem oneLine_append : OneLine (s ++ t) ↔ OneLine s ∧ OneLine t := by
  rw [OneLine, String.toList_append, List.mem_append, not_or]
  rfl

theorem oneLine_join (h : ∀ s ∈ ss, OneLine s) : OneLine (String.join ss) := by
  rw [OneLine, String.toList_join, List.mem_flatMap]
  rintro ⟨s, hs, hmem⟩
  exact h s hs hmem

theorem oneLine_intercalate (hsep : OneLine sep) (h : ∀ s ∈ ss, OneLine s) :
    OneLine (sep.intercalate ss) := by
  induction ss with
  | nil => exact List.not_mem_nil
  | cons s ss ih =>
    obtain ⟨hs, hrest⟩ := List.forall_mem_cons.1 h
    cases ss with
    | nil =>
      rw [String.intercalate_singleton]
      exact hs
    | cons t ss =>
      rw [String.intercalate_cons_cons]
      exact oneLine_append.2 ⟨oneLine_append.2 ⟨hs, hsep⟩, ih hrest⟩

theorem OneLine.escape (h : OneLine s) : OneLine (escapeKeyword s) := by
  have hmark : OneLine "_" := by decide
  have hraw : OneLine "r#" := by decide
  unfold escapeKeyword
  split
  · exact oneLine_append.2 ⟨h, hmark⟩
  · split
    · exact oneLine_append.2 ⟨hraw, h⟩
    · exact h

/-- A cut piece has a line feed at most at its end. -/
theorem exists_of_mem_cutAfterFeeds {piece : List Char} (h : piece ∈ cutAfterFeeds cs) :
    ∃ line, '\n' ∉ line ∧ (piece = line ∨ piece = line ++ ['\n']) := by
  induction cs generalizing piece with
  | nil => cases h
  | cons x cs ih =>
    rw [cutAfterFeeds] at h
    split at h
    · next hx =>
      rw [beq_iff_eq] at hx
      rcases List.mem_cons.1 h with rfl | h
      · exact ⟨[], List.not_mem_nil, .inr (by rw [hx]; rfl)⟩
      · exact ih h
    · next hx =>
      rw [beq_iff_eq] at hx
      cases hcut : cutAfterFeeds cs with
      | nil =>
        rw [hcut] at h
        rw [List.mem_singleton.1 h]
        exact ⟨[x], fun hmem => hx (List.mem_singleton.1 hmem).symm, .inl rfl⟩
      | cons first others =>
        rw [hcut] at h ih
        rcases List.mem_cons.1 h with rfl | h
        · obtain ⟨line, hline, hpiece⟩ := ih List.mem_cons_self
          refine ⟨x :: line, fun hmem => ?_, hpiece.imp (congrArg (x :: ·)) (congrArg (x :: ·))⟩
          exact (List.mem_cons.1 hmem).elim (fun heq => hx heq.symm) hline
        · exact ih (List.mem_cons_of_mem _ h)

theorem oneLine_of_mem_lines (h : line ∈ lines text) : OneLine line := by
  obtain ⟨piece, hpiece, rfl⟩ := List.mem_map.1 h
  obtain ⟨line, hline, hpiece⟩ := exists_of_mem_cutAfterFeeds hpiece
  rw [OneLine, String.toList_ofList, dropEnding]
  have hreverse : '\n' ∉ line.reverse := fun hmem => hline (List.mem_reverse.1 hmem)
  rcases hpiece with rfl | rfl
  · split
    · next heq => exact absurd (heq ▸ List.mem_cons_self) hreverse
    · next heq => exact absurd (heq ▸ List.mem_cons_self) hreverse
    · exact hline
  · rw [List.reverse_append, List.reverse_singleton, List.singleton_append]
    split
    · next before heq =>
      obtain ⟨-, heq⟩ := List.cons.inj heq
      rw [List.mem_reverse]
      exact fun hmem => hreverse (heq ▸ List.mem_cons_of_mem _ hmem)
    · next heq =>
      obtain ⟨-, rfl⟩ := List.cons.inj heq
      rwa [List.reverse_reverse]
    · next hne => exact absurd rfl (hne _)

/-! ## Writing lines -/

theorem unlines_cons (l : String) (ls : List String) :
    unlines (l :: ls) = l ++ "\n" ++ unlines ls := by
  rw [unlines, List.map_cons, String.join_cons]
  rfl

theorem unlines_append (ls rs : List String) : unlines (ls ++ rs) = unlines ls ++ unlines rs := by
  rw [unlines, List.map_append, String.join_append]
  rfl

/-- Blocks of lines with an empty line between them. -/
theorem intercalate_unlines (blocks : List (List String)) :
    "\n".intercalate (blocks.map unlines) = unlines ([""].intercalate blocks) := by
  induction blocks with
  | nil => rfl
  | cons block blocks ih =>
    cases blocks with
    | nil => simp
    | cons next blocks =>
      have hblank : unlines [""] = "\n" := by decide
      rw [List.map_cons, List.map_cons, String.intercalate_cons_cons, ← List.map_cons, ih,
        List.intercalate_cons_cons, unlines_append, unlines_append, hblank]

/-- What stands in blocks and between them. -/
theorem forall_mem_intercalate {α : Type} {P : α → Prop} {a : α} {blocks : List (List α)} (ha : P a)
    (h : ∀ block ∈ blocks, ∀ x ∈ block, P x) : ∀ x ∈ [a].intercalate blocks, P x := by
  induction blocks with
  | nil => exact List.forall_mem_nil _
  | cons block blocks ih =>
    obtain ⟨hblock, hrest⟩ := List.forall_mem_cons.1 h
    cases blocks with
    | nil =>
      rw [List.intercalate_singleton]
      exact hblock
    | cons next blocks =>
      rw [List.intercalate_cons_cons]
      exact List.forall_mem_append.2 ⟨List.forall_mem_append.2
        ⟨hblock, List.forall_mem_singleton.2 ha⟩, ih hrest⟩

/-- Lines are found again in the text that has them one below the other. -/
theorem splitOn_unlines (h : ∀ s ∈ ss, OneLine s) :
    (unlines ss).toList.splitOn '\n' = ss.map String.toList ++ [[]] := by
  induction ss with
  | nil => rfl
  | cons s ss ih =>
    obtain ⟨hs, hrest⟩ := List.forall_mem_cons.1 h
    have hline : ∀ x ∈ s.toList, (x == '\n') = false := by
      intro x hx
      rw [beq_eq_false_iff_ne]
      rintro rfl
      exact hs hx
    have hfeed : "\n".toList = ['\n'] := by decide
    rw [unlines_cons, String.append_assoc, String.toList_append, String.toList_append, hfeed,
      List.singleton_append, List.splitOn,
      List.splitOnP_append_cons_of_forall_mem hline '\n' (by rfl), ← List.splitOn, ih hrest]
    rfl

end FluentGrammar.Text
