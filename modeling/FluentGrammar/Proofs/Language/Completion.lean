import FluentGrammar.Proofs.Language.Rules
import FluentGrammar.Proofs.Lowering.Scope

/-
  Beginnings that can be completed. What is read of an expression is the beginning of something
  that it derives as soon as all that is left of it derives something. An expression does when the
  rules that it refers to do and every alternation in it has a branch, so the condition for the
  start rule is on the rules that references lead to (`Rules.exists_sentence_of_begins`).
-/

namespace FluentGrammar

/-! ## Alternations with branches -/

namespace Expr

mutual

/-- Every alternation in the expression has a branch. -/
def HasBranches : Expr → Prop
  | empty | terminal _ | rule _ => True
  | seq items => AllHaveBranches items
  | alt bs => bs ≠ [] ∧ AllHaveBranches bs
  | repeated inner _ => HasBranches inner

/-- Every alternation in the expressions has a branch. -/
def AllHaveBranches : List Expr → Prop
  | [] => True
  | e :: es => HasBranches e ∧ AllHaveBranches es

end

theorem AllHaveBranches.of_mem {e : Expr} {es : List Expr} (h : AllHaveBranches es) (he : e ∈ es) :
    e.HasBranches := by
  induction es with
  | nil => cases he
  | cons d es ih =>
    rcases List.mem_cons.1 he with rfl | he
    · exact h.1
    · exact ih h.2 he

/-! ## Derivations that exist -/

variable {g : Rules} {x : Extent} {e : Expr} {es : List Expr} {w : List TerminalId}

mutual

/-- An expression derives something when the rules in it do. -/
theorem exists_derives (e : Expr) (hb : e.HasBranches)
    (hr : ∀ r ∈ e.refs, ∃ w, g.Sentence r w) : ∃ w, e.Derives g w := by
  match e with
  | empty => exact ⟨[], .empty⟩
  | terminal t => exact ⟨[t], .terminal t⟩
  | rule r => exact hr r (List.mem_singleton_self r)
  | seq items => exact exists_derives_seq items hb hr
  | alt [] => exact absurd rfl hb.1
  | alt (b :: bs) =>
    obtain ⟨w, hw⟩ := exists_derives b hb.2.1 fun r h => hr r (List.mem_append_left _ h)
    exact ⟨w, .alt List.mem_cons_self hw⟩
  | repeated inner .zeroOrMore => exact ⟨[], .starNone⟩
  | repeated inner .optional => exact ⟨[], .skip⟩
  | repeated inner .oneOrMore =>
    obtain ⟨w, hw⟩ := exists_derives inner hb hr
    exact ⟨w, .plusOnce hw⟩

theorem exists_derives_seq (es : List Expr) (hb : AllHaveBranches es)
    (hr : ∀ r ∈ refsOfAll es, ∃ w, g.Sentence r w) : ∃ w, (seq es).Derives g w := by
  match es with
  | [] => exact ⟨[], .seqNil⟩
  | e :: es =>
    obtain ⟨u, hu⟩ := exists_derives e hb.1 fun r h => hr r (List.mem_append_left _ h)
    obtain ⟨v, hv⟩ := exists_derives_seq es hb.2 fun r h => hr r (List.mem_append_right _ h)
    exact ⟨u ++ v, .seqCons hu hv⟩

end

end Expr

/-! ## Beginnings -/

/-- References lead from the start rule to the rule. -/
def Rules.Reached (g : Rules) (r : RuleId) : Prop :=
  Relation.ReflTransGen (fun r s => s ∈ g.refsOf r) Rules.start r

namespace Expr

variable {g : Rules} {x : Extent} {e : Expr} {w : List TerminalId}

/-- What is read of an expression is the beginning of something that it derives. The induction is
    on the reading: past each item, and in place of each repetition not gone into, stands
    something that derives on its own. -/
theorem Reads.exists_derives_append (hbodies : ∀ r, (g.rule r).body.HasBranches)
    (hsentences : ∀ r, g.Reached r → ∃ w, g.Sentence r w) (h : Reads g x e w)
    (hb : e.HasBranches) (hr : ∀ r ∈ e.refs, g.Reached r) : ∃ v, e.Derives g (w ++ v) := by
  induction h with
  | cut e => exact exists_derives e hb fun r h => hsentences r (hr r h)
  | empty => exact ⟨[], .empty⟩
  | terminal _ t => exact ⟨[], .terminal t⟩
  | rule _ ih =>
    next x r w _ =>
    obtain ⟨v, hv⟩ := ih (hbodies r) fun s hs => (hr r (List.mem_singleton_self r)).tail hs
    exact ⟨v, .rule hv⟩
  | seqNil => exact ⟨[], .seqNil⟩
  | seqHere _ ih =>
    next e es w _ =>
    obtain ⟨u, hu⟩ := ih hb.1 fun r h => hr r (List.mem_append_left _ h)
    obtain ⟨v, hv⟩ := exists_derives_seq es hb.2 fun r h =>
      hsentences r (hr r (List.mem_append_right _ h))
    exact ⟨u ++ v, by rw [← List.append_assoc]; exact .seqCons hu hv⟩
  | seqPast hu _ _ ih =>
    obtain ⟨v, hv⟩ := ih hb.2 fun r h => hr r (List.mem_append_right _ h)
    exact ⟨v, by rw [List.append_assoc]; exact .seqCons (derives_iff_reads.2 hu) hv⟩
  | alt hmem _ ih =>
    obtain ⟨v, hv⟩ := ih (hb.2.of_mem hmem) fun r h => hr r (mem_refsOfAll.2 ⟨_, hmem, h⟩)
    exact ⟨v, .alt hmem hv⟩
  | starNone => exact ⟨[], .starNone⟩
  | starHere _ ih =>
    obtain ⟨v, hv⟩ := ih hb hr
    have hmore := Expr.Derives.starMore hv .starNone
    rw [List.append_nil] at hmore
    exact ⟨v, hmore⟩
  | starPast hu _ _ ih =>
    obtain ⟨v, hv⟩ := ih hb hr
    exact ⟨v, by rw [List.append_assoc]; exact .starMore (derives_iff_reads.2 hu) hv⟩
  | plusOnce _ ih =>
    obtain ⟨v, hv⟩ := ih hb hr
    exact ⟨v, .plusOnce hv⟩
  | plusMore hu _ _ ih =>
    obtain ⟨v, hv⟩ := ih hb hr
    exact ⟨v, by rw [List.append_assoc]; exact .plusMore (derives_iff_reads.2 hu) hv⟩
  | skip => exact ⟨[], .skip⟩
  | take _ ih =>
    obtain ⟨v, hv⟩ := ih hb hr
    exact ⟨v, .take hv⟩

end Expr

namespace Rules

variable {g : Rules} {r : RuleId} {u v w : List TerminalId}

/-- A beginning of the start rule can be completed when every rule that it leads to derives
    something. -/
theorem exists_sentence_of_begins (hbodies : ∀ r, (g.rule r).body.HasBranches)
    (hsentences : ∀ r, g.Reached r → ∃ w, g.Sentence r w) (h : g.Begins start w) :
    ∃ v, g.Sentence start (w ++ v) :=
  (begins_iff_reads.1 h).exists_derives_append hbodies hsentences trivial fun _ hr =>
    List.mem_singleton.1 hr ▸ .refl

theorem Begins.of_append (h : g.Begins r (u ++ v)) : g.Begins r u := by
  obtain ⟨rest, hd⟩ := h
  refine ⟨form v ++ rest, ?_⟩
  rw [← List.append_assoc, ← form_append]
  exact hd

theorem Sentence.begins (h : g.Sentence r w) : g.Begins r w :=
  begins_iff_reads.2 (sentence_iff_reads.1 h).toStart

end Rules

end FluentGrammar
