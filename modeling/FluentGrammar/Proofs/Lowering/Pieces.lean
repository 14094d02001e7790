import FluentGrammar.Proofs.Language.Grammar
import FluentGrammar.Proofs.Lowering.Scope
import FluentGrammar.Proofs.Support

/-
  What lowering keeps of an expression. Neither lowering has a symbol for the empty expression or
  for the brackets of a sequence: an expression becomes the string of its pieces. When every
  symbol of a grammar stands for expressions, and every production only rewrites what its
  left-hand side stands for into something that reads no more, the grammar reads no more than the
  rules (`reads_of_sound`).
-/

namespace FluentGrammar

namespace Expr

mutual

/-- The expression as a list without empty expressions and nested sequences. -/
def pieces : Expr → List Expr
  | empty => []
  | seq items => piecesOfAll items
  | terminal t => [terminal t]
  | rule r => [rule r]
  | alt bs => [alt bs]
  | repeated inner repetition => [repeated inner repetition]

/-- The pieces of expressions one after the other. -/
def piecesOfAll : List Expr → List Expr
  | [] => []
  | e :: es => pieces e ++ piecesOfAll es

end

variable {g : Rules}

mutual

theorem reads_pieces (e : Expr) (x : Extent) (w : List TerminalId) :
    Reads g x (.seq e.pieces) w ↔ Reads g x e w := by
  match e with
  | empty =>
    rw [pieces]
    constructor
    · intro h
      cases h with
      | cut => exact .cut _
      | seqNil => exact .empty
    · intro h
      cases h with
      | cut => exact .cut _
      | empty => exact .seqNil
  | seq items =>
    rw [pieces]
    exact reads_piecesOfAll items x w
  | terminal t => exact reads_seq_singleton
  | rule r => exact reads_seq_singleton
  | alt bs => exact reads_seq_singleton
  | repeated inner repetition => exact reads_seq_singleton

theorem reads_piecesOfAll (es : List Expr) (x : Extent) (w : List TerminalId) :
    Reads g x (.seq (piecesOfAll es)) w ↔ Reads g x (.seq es) w := by
  match es with
  | [] => rw [piecesOfAll]
  | e :: es =>
    rw [piecesOfAll]
    constructor
    · intro h
      obtain ⟨rfl, hs⟩ | ⟨u, v, rfl, hu, hv⟩ := h.append_cases
      · exact .seqHere ((reads_pieces e _ _).1 hs)
      · exact .seqPast ((reads_pieces e _ _).1 hu) ((reads_piecesOfAll es _ _).1 hv)
    · intro h
      cases h with
      | cut => exact .cut _
      | seqHere h => exact ((reads_pieces e _ _).2 h).append_here
      | seqPast hu hv =>
        exact ((reads_pieces e _ _).2 hu).append_past ((reads_piecesOfAll es _ _).2 hv)

end

mutual

theorem within_pieces (e : Expr) (h : e.Within g) : ∀ a ∈ e.pieces, a.Within g := by
  match e with
  | empty =>
    rw [pieces]
    exact fun a ha => absurd ha List.not_mem_nil
  | seq items =>
    rw [pieces]
    exact within_piecesOfAll items (within_seq_iff.1 h)
  | terminal _ | rule _ | alt _ | repeated _ _ =>
    rw [pieces]
    exact fun a ha => List.mem_singleton.1 ha ▸ h

theorem within_piecesOfAll (es : List Expr) (h : ∀ e ∈ es, e.Within g) :
    ∀ a ∈ piecesOfAll es, a.Within g := by
  match es with
  | [] =>
    rw [piecesOfAll]
    exact fun a ha => absurd ha List.not_mem_nil
  | e :: es =>
    rw [piecesOfAll]
    intro a ha
    rcases List.mem_append.1 ha with ha | ha
    · exact within_pieces e (h e List.mem_cons_self) a ha
    · exact within_piecesOfAll es (fun b hb => h b (List.mem_cons_of_mem _ hb)) a ha

end

/-- The pieces of an expression in front of others are read as the expression. -/
theorem Reads.of_pieces_append {x : Extent} {e : Expr} {es : List Expr} {w : List TerminalId}
    (h : Reads g x (.seq (e.pieces ++ es)) w) : Reads g x (.seq (e :: es)) w :=
  Reads.append_mono e.pieces [e]
    (fun x w h => reads_seq_singleton.2 ((reads_pieces e x w).1 h)) h

end Expr

/-! ## Grammars whose symbols stand for expressions -/

/-- A grammar with the terminals of a catalog has the end of input behind the actions. -/
theorem Grammar.endTerminal_eq_size {g : Grammar} {catalog : Catalog}
    (h : g.terminals = (ofCatalog catalog).terminals) : g.endTerminal = catalog.size := by
  simp [endTerminal, h, ofCatalog, Catalog.size]

/-- What a symbol stands for, given the nonterminals. -/
def Symbol.meaning (den : NonterminalId → List Expr) : Symbol → List Expr
  | terminal t => [.terminal t]
  | nonterminal n => den n

/-- What a string of symbols stands for. -/
def meaningOf (den : NonterminalId → List Expr) (α : List Symbol) : List Expr :=
  α.flatMap (Symbol.meaning den)

theorem Grammar.reads_of_sound {rules : Rules} {g : Grammar} {den : NonterminalId → List Expr}
    (sound : ∀ p ∈ g.productions, ∀ x w, Expr.Reads rules x (.seq (meaningOf den p.rhs)) w →
      Expr.Reads rules x (.seq (den p.lhs)) w)
    {x : Extent} {α : List Symbol} {w : List TerminalId} (h : g.Reads x α w) :
    Expr.Reads rules x (.seq (meaningOf den α)) w := by
  induction h with
  | cut => exact .cut _
  | nil => exact .seqNil
  | terminal _ ih => exact .seqPast (u := [_]) (.terminal _ _) ih
  | @expand x n p rest w hp hn _ ih =>
    subst hn
    have hm : meaningOf den (p.rhs ++ rest) = meaningOf den p.rhs ++ meaningOf den rest :=
      List.flatMap_append
    rw [hm] at ih
    exact Expr.Reads.append_mono _ _ (sound p hp) ih

end FluentGrammar
