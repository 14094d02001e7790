import FluentGrammar.Proofs.Language.Grammar
import FluentGrammar.Proofs.Support

/-
  Derivation trees. A node has the number of its production, so that two productions that say the
  same make two trees. Trees are determined by the turns of a parser that reads and reduces them
  from the left and from below (`eq_of_turns_eq`): laying the trees back on a stack turn by turn
  gives them again (`replay_turns`).
-/

namespace FluentGrammar

/-- A derivation tree: an action, or a production with a tree for every symbol. -/
inductive Tree where
  | leaf (t : TerminalId)
  | node (p : ProductionId) (children : List Tree)

/-- What a parser does at a time: it reads an action, or reduces by a production. -/
inductive Turn where
  | read (t : TerminalId)
  | reduce (p : ProductionId)
  deriving Repr, DecidableEq

namespace Tree

mutual

/-- The turns that make a tree. -/
def turns : Tree → List Turn
  | .leaf t => [.read t]
  | .node p children => turnsOfAll children ++ [.reduce p]

/-- The turns that make trees one after the other. -/
def turnsOfAll : List Tree → List Turn
  | [] => []
  | tree :: rest => turns tree ++ turnsOfAll rest

end

mutual

/-- The number of nodes and leaves. -/
def weight : Tree → Nat
  | .leaf _ => 1
  | .node _ children => weightOfAll children + 1

/-- The number of nodes and leaves of all trees. -/
def weightOfAll : List Tree → Nat
  | [] => 0
  | tree :: rest => weight tree + weightOfAll rest

end

theorem turnsOfAll_append (xs ys : List Tree) :
    turnsOfAll (xs ++ ys) = turnsOfAll xs ++ turnsOfAll ys := by
  induction xs with
  | nil => rfl
  | cons x xs ih => rw [List.cons_append, turnsOfAll, turnsOfAll, ih, List.append_assoc]

theorem weightOfAll_append (xs ys : List Tree) :
    weightOfAll (xs ++ ys) = weightOfAll xs + weightOfAll ys := by
  induction xs with
  | nil => simp [weightOfAll]
  | cons x xs ih => simp [weightOfAll, ih, Nat.add_assoc]

end Tree

namespace Grammar

/-- The trees are derivations of the terminals, one for every symbol. -/
inductive Parses (g : Grammar) : List Symbol → List Tree → List TerminalId → Prop
  | nil : Parses g [] [] []
  | terminal {t rest ts w} : Parses g rest ts w →
      Parses g (.terminal t :: rest) (.leaf t :: ts) (t :: w)
  | nonterminal {n p q rest cs ts u v} : g.productions[p]? = some q → q.lhs = n →
      Parses g q.rhs cs u → Parses g rest ts v →
      Parses g (.nonterminal n :: rest) (.node p cs :: ts) (u ++ v)

variable {g : Grammar} {α β : List Symbol} {ts us : List Tree} {u v w : List TerminalId}

theorem Parses.length_eq (h : g.Parses α ts w) : ts.length = α.length := by
  induction h with
  | nil => rfl
  | terminal _ ih => rw [List.length_cons, List.length_cons, ih]
  | nonterminal _ _ _ _ _ ih => rw [List.length_cons, List.length_cons, ih]

theorem Parses.append (ha : g.Parses α ts u) (hb : g.Parses β us v) :
    g.Parses (α ++ β) (ts ++ us) (u ++ v) := by
  induction ha with
  | nil => exact hb
  | terminal _ ih => exact .terminal ih
  | nonterminal hp hn hr _ _ ih =>
    rw [List.append_assoc]
    exact .nonterminal hp hn hr ih

theorem Parses.derives (h : g.Parses α ts w) : g.Derives α w := by
  induction h with
  | nil => exact .nil
  | terminal _ ih => exact .terminal ih
  | nonterminal hp hn _ _ ihu ihv => exact .nonterminal (List.mem_of_getElem? hp) hn ihu ihv

/-- What is derived has trees. -/
theorem derives_iff_parses : g.Derives α w ↔ ∃ ts, g.Parses α ts w := by
  constructor
  · intro h
    induction h with
    | nil => exact ⟨[], .nil⟩
    | terminal _ ih =>
      obtain ⟨ts, h⟩ := ih
      exact ⟨_, .terminal h⟩
    | nonterminal hq hn _ _ ihu ihv =>
      obtain ⟨cs, hcs⟩ := ihu
      obtain ⟨ts, hts⟩ := ihv
      obtain ⟨p, hp⟩ := List.mem_iff_getElem?.1 hq
      exact ⟨_, .nonterminal hp hn hcs hts⟩
  · rintro ⟨ts, h⟩
    exact h.derives

theorem exists_tree {l : NonterminalId} (h : g.Derives [.nonterminal l] w) :
    ∃ T, g.Parses [.nonterminal l] [T] w := by
  obtain ⟨ts, hts⟩ := derives_iff_parses.1 h
  obtain ⟨T, rfl⟩ := List.length_eq_one_iff.1 hts.length_eq
  exact ⟨T, hts⟩

/-! ## Trees from turns -/

/-- The trees on a stack after a turn. A reduction takes as many as its production has symbols. -/
def replay (g : Grammar) (stack : List Tree) : Turn → List Tree
  | .read t => .leaf t :: stack
  | .reduce p =>
    let size := (g.productions[p]?.map (·.rhs.length)).getD 0
    .node p (stack.take size).reverse :: stack.drop size

theorem replay_turns (h : g.Parses α ts w) (stack : List Tree) :
    (Tree.turnsOfAll ts).foldl g.replay stack = ts.reverse ++ stack := by
  induction h generalizing stack with
  | nil => rfl
  | terminal _ ih =>
    rw [Tree.turnsOfAll, Tree.turns, List.foldl_append, ih, List.reverse_cons, List.append_assoc]
    rfl
  | @nonterminal n p q rest cs ts u v hp _ hcs _ ihcs ihts =>
    have hsize : q.rhs.length = cs.reverse.length := by
      rw [List.length_reverse, hcs.length_eq]
    have hreduce : g.replay (cs.reverse ++ stack) (.reduce p) = .node p cs :: stack := by
      rw [replay, hp, Option.map_some, Option.getD_some, hsize, List.take_left, List.drop_left,
        List.reverse_reverse]
    rw [Tree.turnsOfAll, Tree.turns, List.foldl_append, List.foldl_append, ihcs, List.foldl_cons,
      List.foldl_nil, hreduce, ihts, List.reverse_cons, List.append_assoc]
    rfl

/-- Trees are determined by the turns that make them. -/
theorem eq_of_turns_eq (hts : g.Parses α ts u) (hus : g.Parses β us v)
    (h : Tree.turnsOfAll ts = Tree.turnsOfAll us) : ts = us := by
  have heq := replay_turns hts []
  rw [h, replay_turns hus, List.append_nil, List.append_nil] at heq
  exact (List.reverse_inj.1 heq).symm

end Grammar

end FluentGrammar
