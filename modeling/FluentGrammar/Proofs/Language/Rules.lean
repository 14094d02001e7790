import FluentGrammar.Rules.Basic
import Mathlib.Logic.Relation

/-
  What rules derive. `Expr.Derives` is the language of an expression: the least relation that is
  closed under the constructs of rule bodies, with all rules read together. `Rules.Begins` says
  that leftmost expansion of a rule reaches a form that begins with the given actions, whatever
  comes after them.

  Both are instances of one relation, `Expr.Reads`, whose extent says whether the expression is
  read to its end or left at any point on the way (`derives_iff_reads`, `begins_iff_reads`). A
  statement on `Reads` for both extents is a statement on sentences and on their beginnings.
-/

namespace FluentGrammar

/-! ## Sentences and leftmost forms -/

/-- The expression derives the actions. -/
inductive Expr.Derives (g : Rules) : Expr → List TerminalId → Prop
  | empty : Derives g .empty []
  | terminal (t : TerminalId) : Derives g (.terminal t) [t]
  | rule {r : RuleId} {w} : Derives g (g.rule r).body w → Derives g (.rule r) w
  | seqNil : Derives g (.seq []) []
  | seqCons {e es u v} :
      Derives g e u → Derives g (.seq es) v → Derives g (.seq (e :: es)) (u ++ v)
  | alt {b bs w} : b ∈ bs → Derives g b w → Derives g (.alt bs) w
  | starNone {e} : Derives g (.repeated e .zeroOrMore) []
  | starMore {e u v} : Derives g e u → Derives g (.repeated e .zeroOrMore) v →
      Derives g (.repeated e .zeroOrMore) (u ++ v)
  | plusOnce {e w} : Derives g e w → Derives g (.repeated e .oneOrMore) w
  | plusMore {e u v} : Derives g e u → Derives g (.repeated e .oneOrMore) v →
      Derives g (.repeated e .oneOrMore) (u ++ v)
  | skip {e} : Derives g (.repeated e .optional) []
  | take {e w} : Derives g e w → Derives g (.repeated e .optional) w

/-- What an expression may be replaced by in a sentential form. -/
inductive Expr.Expands (g : Rules) : Expr → List Expr → Prop
  | empty : Expands g .empty []
  | rule (r : RuleId) : Expands g (.rule r) [(g.rule r).body]
  | seq (items : List Expr) : Expands g (.seq items) items
  | alt {b bs} : b ∈ bs → Expands g (.alt bs) [b]
  | starNone (e : Expr) : Expands g (.repeated e .zeroOrMore) []
  | starMore (e : Expr) : Expands g (.repeated e .zeroOrMore) [e, .repeated e .zeroOrMore]
  | plusOnce (e : Expr) : Expands g (.repeated e .oneOrMore) [e]
  | plusMore (e : Expr) : Expands g (.repeated e .oneOrMore) [e, .repeated e .oneOrMore]
  | skip (e : Expr) : Expands g (.repeated e .optional) []
  | take (e : Expr) : Expands g (.repeated e .optional) [e]

namespace Rules

/-- Actions as a sentential form. -/
def form (w : List TerminalId) : List Expr := w.map .terminal

/-- Expansion of some part of a sentential form. -/
inductive Step (g : Rules) : List Expr → List Expr → Prop
  | expand (front : List Expr) {e : Expr} {u : List Expr} (rest : List Expr) :
      e.Expands g u → Step g (front ++ e :: rest) (front ++ (u ++ rest))

/-- Expansion of the first part of a sentential form that is no action. -/
inductive LeftmostStep (g : Rules) : List Expr → List Expr → Prop
  | expand (w : List TerminalId) {e : Expr} {u : List Expr} (rest : List Expr) :
      e.Expands g u → LeftmostStep g (form w ++ e :: rest) (form w ++ (u ++ rest))

/-- Leftmost expansion leads from one sentential form to another. -/
def LeftmostDerives (g : Rules) : List Expr → List Expr → Prop :=
  Relation.ReflTransGen (LeftmostStep g)

/-- Some form that leftmost expansion of the rule reaches begins with the actions. What follows
    them there is arbitrary. -/
def Begins (g : Rules) (r : RuleId) (w : List TerminalId) : Prop :=
  ∃ rest, g.LeftmostDerives [.rule r] (form w ++ rest)

/-- The actions are a sentence of the rule. -/
def Sentence (g : Rules) (r : RuleId) (w : List TerminalId) : Prop := (Expr.rule r).Derives g w

@[simp] theorem form_append (u v : List TerminalId) : form (u ++ v) = form u ++ form v := by
  simp [form]

end Rules

/-! ## Readings -/

/-- How far a reading goes. -/
inductive Extent where
  /-- To the end. -/
  | whole
  /-- To any point. -/
  | start
  deriving DecidableEq

/-- The actions read when an expression is gone through from the left as far as the extent says. -/
inductive Expr.Reads (g : Rules) : Extent → Expr → List TerminalId → Prop
  | cut (e : Expr) : Reads g .start e []
  | empty : Reads g .whole .empty []
  | terminal (x : Extent) (t : TerminalId) : Reads g x (.terminal t) [t]
  | rule {x r w} : Reads g x (g.rule r).body w → Reads g x (.rule r) w
  | seqNil : Reads g .whole (.seq []) []
  | seqHere {e es w} : Reads g .start e w → Reads g .start (.seq (e :: es)) w
  | seqPast {x e es u v} :
      Reads g .whole e u → Reads g x (.seq es) v → Reads g x (.seq (e :: es)) (u ++ v)
  | alt {x b bs w} : b ∈ bs → Reads g x b w → Reads g x (.alt bs) w
  | starNone {e} : Reads g .whole (.repeated e .zeroOrMore) []
  | starHere {e w} : Reads g .start e w → Reads g .start (.repeated e .zeroOrMore) w
  | starPast {x e u v} : Reads g .whole e u → Reads g x (.repeated e .zeroOrMore) v →
      Reads g x (.repeated e .zeroOrMore) (u ++ v)
  | plusOnce {x e w} : Reads g x e w → Reads g x (.repeated e .oneOrMore) w
  | plusMore {x e u v} : Reads g .whole e u → Reads g x (.repeated e .oneOrMore) v →
      Reads g x (.repeated e .oneOrMore) (u ++ v)
  | skip {e} : Reads g .whole (.repeated e .optional) []
  | take {x e w} : Reads g x e w → Reads g x (.repeated e .optional) w

namespace Expr

variable {g : Rules} {x : Extent} {e a : Expr} {es as bs : List Expr} {u v w : List TerminalId}

/-- What is read to the end is also read to some point. -/
theorem Reads.toStart (h : Reads g .whole e w) : Reads g .start e w := by
  generalize hx : Extent.whole = x at h
  induction h with
  | cut => cases hx
  | empty => exact .cut _
  | terminal _ t => exact .terminal _ t
  | rule _ ih => exact .rule (ih hx)
  | seqNil => exact .cut _
  | seqHere => cases hx
  | seqPast hu _ _ ihv => exact .seqPast hu (ihv hx)
  | alt hb _ ih => exact .alt hb (ih hx)
  | starNone => exact .cut _
  | starHere => cases hx
  | starPast hu _ _ ihv => exact .starPast hu (ihv hx)
  | plusOnce _ ih => exact .plusOnce (ih hx)
  | plusMore hu _ _ ihv => exact .plusMore hu (ihv hx)
  | skip => exact .cut _
  | take _ ih => exact .take (ih hx)

theorem Reads.ofWhole (h : Reads g .whole e w) : Reads g x e w := by
  cases x with
  | whole => exact h
  | start => exact h.toStart

/-- Other rules read at least as much when their rules read what the old bodies do under them. -/
theorem Reads.of_bodies {g' : Rules}
    (hb : ∀ r x w, Reads g' x (g.rule r).body w → Reads g' x (.rule r) w) (h : Reads g x e w) :
    Reads g' x e w := by
  induction h with
  | cut => exact .cut _
  | empty => exact .empty
  | terminal x t => exact .terminal x t
  | rule _ ih => exact hb _ _ _ ih
  | seqNil => exact .seqNil
  | seqHere _ ih => exact .seqHere ih
  | seqPast _ _ ihu ihv => exact .seqPast ihu ihv
  | alt hb _ ih => exact .alt hb ih
  | starNone => exact .starNone
  | starHere _ ih => exact .starHere ih
  | starPast _ _ ihu ihv => exact .starPast ihu ihv
  | plusOnce _ ih => exact .plusOnce ih
  | plusMore _ _ ihu ihv => exact .plusMore ihu ihv
  | skip => exact .skip
  | take _ ih => exact .take ih

/-- Readings to the end are derivations. -/
theorem derives_iff_reads : e.Derives g w ↔ Reads g .whole e w := by
  constructor
  · intro h
    induction h with
    | empty => exact .empty
    | terminal t => exact .terminal _ t
    | rule _ ih => exact .rule ih
    | seqNil => exact .seqNil
    | seqCons _ _ ihu ihv => exact .seqPast ihu ihv
    | alt hb _ ih => exact .alt hb ih
    | starNone => exact .starNone
    | starMore _ _ ihu ihv => exact .starPast ihu ihv
    | plusOnce _ ih => exact .plusOnce ih
    | plusMore _ _ ihu ihv => exact .plusMore ihu ihv
    | skip => exact .skip
    | take _ ih => exact .take ih
  · intro h
    generalize hx : Extent.whole = x at h
    induction h with
    | cut => cases hx
    | empty => exact .empty
    | terminal _ t => exact .terminal t
    | rule _ ih => exact .rule (ih hx)
    | seqNil => exact .seqNil
    | seqHere => cases hx
    | seqPast _ _ ihu ihv => exact .seqCons (ihu rfl) (ihv hx)
    | alt hb _ ih => exact .alt hb (ih hx)
    | starNone => exact .starNone
    | starHere => cases hx
    | starPast _ _ ihu ihv => exact .starMore (ihu rfl) (ihv hx)
    | plusOnce _ ih => exact .plusOnce (ih hx)
    | plusMore _ _ ihu ihv => exact .plusMore (ihu rfl) (ihv hx)
    | skip => exact .skip
    | take _ ih => exact .take (ih hx)

/-! ## Sequences -/

theorem Reads.append_here (h : Reads g .start (.seq as) w) :
    Reads g .start (.seq (as ++ bs)) w := by
  induction as generalizing w with
  | nil =>
    cases h
    exact .cut _
  | cons a as ih =>
    cases h with
    | cut => exact .cut _
    | seqHere h => exact .seqHere h
    | seqPast hu hv => exact .seqPast hu (ih hv)

theorem Reads.append_past (hu : Reads g .whole (.seq as) u) (hv : Reads g x (.seq bs) v) :
    Reads g x (.seq (as ++ bs)) (u ++ v) := by
  induction as generalizing u with
  | nil =>
    cases hu
    exact hv
  | cons a as ih =>
    cases hu with
    | seqPast ha hr =>
      rw [List.append_assoc]
      exact .seqPast ha (ih hr)

/-- A reading of two sequences one after the other ends in the first or goes past it. -/
theorem Reads.append_cases (h : Reads g x (.seq (as ++ bs)) w) :
    (x = .start ∧ Reads g .start (.seq as) w) ∨
      ∃ u v, w = u ++ v ∧ Reads g .whole (.seq as) u ∧ Reads g x (.seq bs) v := by
  induction as generalizing w with
  | nil => exact .inr ⟨[], w, rfl, .seqNil, h⟩
  | cons a as ih =>
    cases h with
    | cut => exact .inl ⟨rfl, .cut _⟩
    | seqHere h => exact .inl ⟨rfl, .seqHere h⟩
    | seqPast ha hr =>
      obtain ⟨rfl, hs⟩ | ⟨u, v, rfl, hu, hv⟩ := ih hr
      · exact .inl ⟨rfl, .seqPast ha hs⟩
      · exact .inr ⟨_, v, (List.append_assoc ..).symm, .seqPast ha hu, hv⟩

/-- Sequences are read alike when their first parts are. -/
theorem Reads.append_mono (as bs : List Expr)
    (h : ∀ x w, Reads g x (.seq as) w → Reads g x (.seq bs) w)
    (hw : Reads g x (.seq (as ++ es)) w) : Reads g x (.seq (bs ++ es)) w := by
  obtain ⟨rfl, hs⟩ | ⟨u, v, rfl, hu, hv⟩ := hw.append_cases
  · exact (h _ _ hs).append_here
  · exact (h _ _ hu).append_past hv

/-- A sequence of one expression is read as the expression. -/
theorem reads_seq_singleton : Reads g x (.seq [e]) w ↔ Reads g x e w := by
  constructor
  · intro h
    cases h with
    | cut => exact .cut _
    | seqHere h => exact h
    | seqPast hu hv =>
      cases hv with
      | cut => simpa using hu.toStart
      | seqNil => simpa using hu
  · intro h
    cases x with
    | whole => simpa using Reads.seqPast h .seqNil
    | start => exact .seqHere h

/-- Actions in front of a sequence are read one by one. -/
theorem Reads.form_append (h : Reads g x (.seq es) v) :
    Reads g x (.seq (Rules.form w ++ es)) (w ++ v) := by
  induction w with
  | nil => exact h
  | cons t w ih => exact Reads.seqPast (u := [t]) (.terminal _ t) ih

/-- An expression reads what its expansions read. -/
theorem Reads.of_expands (he : e.Expands g as) (h : Reads g x (.seq as) w) : Reads g x e w := by
  cases he with
  | empty =>
    cases h with
    | cut => exact .cut _
    | seqNil => exact .empty
  | rule r => exact .rule (reads_seq_singleton.1 h)
  | seq => exact h
  | alt hb => exact .alt hb (reads_seq_singleton.1 h)
  | starNone =>
    cases h with
    | cut => exact .cut _
    | seqNil => exact .starNone
  | starMore =>
    cases h with
    | cut => exact .cut _
    | seqHere h => exact .starHere h
    | seqPast hu hv => exact .starPast hu (reads_seq_singleton.1 hv)
  | plusOnce => exact .plusOnce (reads_seq_singleton.1 h)
  | plusMore =>
    cases h with
    | cut => exact .cut _
    | seqHere h => exact .plusOnce h
    | seqPast hu hv => exact .plusMore hu (reads_seq_singleton.1 hv)
  | skip =>
    cases h with
    | cut => exact .cut _
    | seqNil => exact .skip
  | take => exact .take (reads_seq_singleton.1 h)

theorem Reads.of_expands_append (he : e.Expands g as) (h : Reads g x (.seq (as ++ es)) w) :
    Reads g x (.seq (e :: es)) w :=
  Reads.append_mono as [e] (fun _ _ h => reads_seq_singleton.2 (h.of_expands he)) h

/-! ## Branches -/

theorem Reads.branches (hb : e ∈ a.branches) (h : Reads g x e w) : Reads g x a w := by
  cases a with
  | alt bs => exact .alt hb h
  | empty | terminal | rule | seq | repeated => exact List.mem_singleton.1 hb ▸ h

/-- What is read from an expression is read from one of its branches, unless nothing is read. -/
theorem Reads.branches_cases (h : Reads g x a w) :
    (x = .start ∧ w = []) ∨ ∃ b ∈ a.branches, Reads g x b w := by
  cases a with
  | alt bs =>
    cases h with
    | cut => exact .inl ⟨rfl, rfl⟩
    | alt hb h => exact .inr ⟨_, hb, h⟩
  | empty | terminal | rule | seq | repeated => exact .inr ⟨_, List.mem_singleton_self _, h⟩

end Expr

/-! ## Readings are leftmost expansions -/

namespace Rules

open FluentGrammar.Expr

variable {g : Rules} {x : Extent} {e : Expr} {as bs : List Expr} {r : RuleId}
  {u v w : List TerminalId}

theorem leftmost_expand (u : List TerminalId) (rest : List Expr) (he : e.Expands g as) :
    g.LeftmostDerives (form u ++ e :: rest) (form u ++ (as ++ rest)) :=
  .single (.expand u rest he)

/-- Behind any actions and before any rest, the expressions lead to the actions `w`. -/
def Leads (g : Rules) : Extent → List Expr → List TerminalId → Prop
  | .whole, as, w =>
    ∀ u rest, g.LeftmostDerives (form u ++ (as ++ rest)) (form (u ++ w) ++ rest)
  | .start, as, w =>
    ∀ u rest, ∃ rest', g.LeftmostDerives (form u ++ (as ++ rest)) (form (u ++ w) ++ rest')

theorem Leads.nil : g.Leads .whole [] [] := by
  intro u rest
  rw [List.append_nil]
  exact .refl

theorem Leads.append (ha : g.Leads .whole as u) (hb : g.Leads x bs v) :
    g.Leads x (as ++ bs) (u ++ v) := by
  have first (w rest) : g.LeftmostDerives (form w ++ (as ++ bs ++ rest))
      (form (w ++ u) ++ (bs ++ rest)) := by
    rw [List.append_assoc as]
    exact ha w (bs ++ rest)
  cases x with
  | whole =>
    intro w rest
    rw [← List.append_assoc w]
    exact (first w rest).trans (hb (w ++ u) rest)
  | start =>
    intro w rest
    obtain ⟨rest', hd⟩ := hb (w ++ u) rest
    rw [← List.append_assoc w]
    exact ⟨rest', (first w rest).trans hd⟩

theorem Leads.append_here (bs : List Expr) (ha : g.Leads .start as u) :
    g.Leads .start (as ++ bs) u := by
  intro w rest
  rw [List.append_assoc]
  exact ha w (bs ++ rest)

theorem Leads.of_expands (he : e.Expands g as) (h : g.Leads x as w) : g.Leads x [e] w := by
  cases x with
  | whole => exact fun u rest => (leftmost_expand u rest he).trans (h u rest)
  | start =>
    intro u rest
    obtain ⟨rest', hd⟩ := h u rest
    exact ⟨rest', (leftmost_expand u rest he).trans hd⟩

/-- The items of a sequence; any other expression stands for itself. -/
def spread : Expr → List Expr
  | .seq items => items
  | e => [e]

theorem Leads.of_spread (h : g.Leads x (spread e) w) : g.Leads x [e] w := by
  cases e with
  | seq items => exact .of_expands (.seq items) h
  | empty | terminal | rule | alt | repeated => exact h

/-- Every reading is a leftmost expansion. The induction is on the reading of a sequence without
    its brackets, since reading past its first item leaves no expression for the others. -/
theorem leads_of_reads (h : Reads g x e w) : g.Leads x (spread e) w := by
  induction h with
  | cut e => exact fun u rest => ⟨spread e ++ rest, by rw [List.append_nil]; exact .refl⟩
  | empty => exact .of_expands .empty .nil
  | terminal x t =>
    have reach (u rest) : g.LeftmostDerives (form u ++ ([.terminal t] ++ rest))
        (form (u ++ [t]) ++ rest) := by
      rw [form_append, List.append_assoc]
      exact .refl
    cases x with
    | whole => exact reach
    | start => exact fun u rest => ⟨rest, reach u rest⟩
  | rule _ ih => exact .of_expands (.rule _) (.of_spread ih)
  | seqNil => exact .nil
  | seqHere _ ih => exact .append_here _ (.of_spread ih)
  | seqPast _ _ ihu ihv => exact .append (.of_spread ihu) ihv
  | alt hb _ ih => exact .of_expands (.alt hb) (.of_spread ih)
  | starNone => exact .of_expands (.starNone _) .nil
  | starHere _ ih => exact .of_expands (.starMore _) (.append_here [_] (.of_spread ih))
  | starPast _ _ ihu ihv =>
    exact .of_expands (.starMore _) (.append (.of_spread ihu) (.of_spread ihv))
  | plusOnce _ ih => exact .of_expands (.plusOnce _) (.of_spread ih)
  | plusMore _ _ ihu ihv =>
    exact .of_expands (.plusMore _) (.append (.of_spread ihu) (.of_spread ihv))
  | skip => exact .of_expands (.skip _) .nil
  | take _ ih => exact .of_expands (.take _) (.of_spread ih)

theorem LeftmostDerives.steps (h : g.LeftmostDerives as bs) :
    Relation.ReflTransGen g.Step as bs := by
  refine Relation.ReflTransGen.mono (fun _ _ hs => ?_) _ _ h
  obtain ⟨u, rest, he⟩ := hs
  exact .expand _ rest he

/-- A form reads the actions at the front of every form that it leads to, in whatever order its
    parts are expanded. -/
theorem reads_of_steps {rest : List Expr}
    (h : Relation.ReflTransGen g.Step as (form w ++ rest)) : Reads g .start (.seq as) w := by
  induction h using Relation.ReflTransGen.head_induction_on with
  | refl => simpa using Reads.form_append (w := w) (Reads.cut (g := g) (.seq rest))
  | head hs _ ih =>
    obtain ⟨front, rest, he⟩ := hs
    obtain ⟨-, h⟩ | ⟨u', v, rfl, hu, hv⟩ := ih.append_cases
    · exact h.append_here
    · exact hu.append_past (hv.of_expands_append he)

/-- The beginnings of a rule are what is read from it. -/
theorem begins_iff_reads : g.Begins r w ↔ Reads g .start (.rule r) w := by
  constructor
  · rintro ⟨rest, h⟩
    exact reads_seq_singleton.1 (reads_of_steps h.steps)
  · intro h
    obtain ⟨rest, hd⟩ := Leads.of_spread (leads_of_reads h) [] []
    exact ⟨rest, hd⟩

/-- Leftmost expansion leaves out no beginning: any expansion of the rule to a form that begins
    with the actions will do. -/
theorem begins_iff_steps : g.Begins r w ↔
    ∃ rest, Relation.ReflTransGen g.Step [.rule r] (form w ++ rest) := by
  constructor
  · rintro ⟨rest, h⟩
    exact ⟨rest, h.steps⟩
  · rintro ⟨rest, h⟩
    exact begins_iff_reads.2 (reads_seq_singleton.1 (reads_of_steps h))

theorem sentence_iff_reads : g.Sentence r w ↔ Reads g .whole (.rule r) w := derives_iff_reads

end Rules

end FluentGrammar
