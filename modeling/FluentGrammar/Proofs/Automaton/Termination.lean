import FluentGrammar.Proofs.Automaton.Lookups

/-
  Why the two loops of the automaton end. Both put on a stack or a queue again what they have worked
  on before. An item is only pushed with a fact that the closure did not have, the item itself or a
  lookahead of it (`Expands`), and a state only starts to wait when it is new or has gained a
  lookahead (`Revisits`). There are no more items than the productions have positions, no more
  kernels than sets of items, and no more lookaheads of an item than terminals. So the grammar alone
  bounds the turns, in whatever order the items of a set are taken (`CloseEnds`, `VisitsEnd`).
-/

namespace FluentGrammar

open Relation

namespace Analysis

variable {g : Grammar} {s s' s₀ : ItemSet} {stack : List Item}

/-! ## Closures -/

/-- A turn on the way to a closure. -/
theorem Closing.goesOn (hg : g.Ranged) (hs₀ : (ofGrammar g).Owned s₀)
    {c c' : ItemSet × List Item} (h : (ofGrammar g).Closing s₀ c.1 c.2)
    (hturn : GoesOn (ofGrammar g).closeTurn? c c') : (ofGrammar g).Closing s₀ c'.1 c'.2 := by
  obtain ⟨s, - | ⟨i, stack⟩⟩ := c
  · cases hturn
  · obtain ⟨s', pushed, heq, -, hclosing, -⟩ := h.turn hg hs₀
    obtain rfl := Sum.inr.inj (Option.some.inj (heq.symm.trans hturn))
    exact hclosing

/-- The items on the stack and the facts that there are still to be found bound the turns. -/
theorem Closing.ends (hg : g.Ranged) (hs₀ : (ofGrammar g).Owned s₀)
    (h : (ofGrammar g).Closing s₀ s stack) :
    ∃ k ≤ stack.length + ((ofGrammar g).grammar.productions.length *
        ((ofGrammar g).grammar.terminals.length + 1) -
          facts (ofGrammar g).grammar.productions.length
            (ofGrammar g).grammar.terminals.length s),
      ∃ s', EndsAfter (ofGrammar g).closeTurn? s' k (s, stack) ∧
        (ofGrammar g).Closing s₀ s' [] := by
  refine exists_endsAfter (P := fun c : ItemSet × List Item => (ofGrammar g).Closing s₀ c.1 c.2)
    (Q := fun s' => (ofGrammar g).Closing s₀ s' []) (a := (s, stack))
    (fun c => c.2.length + ((ofGrammar g).grammar.productions.length *
      ((ofGrammar g).grammar.terminals.length + 1) -
        facts (ofGrammar g).grammar.productions.length
          (ofGrammar g).grammar.terminals.length c.1))
    (fun c hc => ?_) h
  obtain ⟨s, - | ⟨i, stack⟩⟩ := c
  · exact .inl ⟨s, rfl, hc⟩
  · have hc : (ofGrammar g).Closing s₀ s (i :: stack) := hc
    obtain ⟨s', pushed, heq, -, hclosing, -, hcount⟩ := hc.turn hg hs₀
    have hle := facts_le (ofGrammar g).grammar.productions.length
      (ofGrammar g).grammar.terminals.length s'
    refine .inr ⟨_, heq, hclosing, ?_⟩
    simp only [List.length_append, List.length_cons]
    omega

/-- Completing a closure with the given items on the stack comes to an end. -/
structure CloseEnds (a : Analysis) (s : ItemSet) (stack : List Item) : Prop where
  /-- There are no more turns than items to begin with and facts about productions at their front,
      and the last one gives the closure. -/
  ends : ∃ k ≤ s.length + a.grammar.productions.length * (a.grammar.terminals.length + 1),
    ∃ s', EndsAfter a.closeTurn? s' k (s, stack) ∧ ∀ i o, s'.Has i o ↔ (a.closure s).Has i o
  /-- No turn on the way pushes an item without a fact about it that there was not. -/
  expands : ∀ s₁ i rest, ReflTransGen (GoesOn a.closeTurn?) (s, stack) (s₁, i :: rest) →
    ∃ s₂ pushed, a.closeTurn? (s₁, i :: rest) = some (.inr (s₂, pushed ++ rest)) ∧
      a.Expands s₁ s₂ pushed

theorem closeEnds (hg : g.Ranged) (hs : s.Ordered) (howned : (ofGrammar g).Owned s)
    (hbelow : ∀ i t, s.Has i (some t) → t < (ofGrammar g).grammar.terminals.length)
    (hstack : stack.Perm s.items) : (ofGrammar g).CloseEnds s stack := by
  have hstart := closing_start hs hbelow hstack
  constructor
  · obtain ⟨k, hk, s', hends, hclosing⟩ := hstart.ends hg howned
    rw [hstack.length_eq, ItemSet.items, List.length_map] at hk
    refine ⟨k, hk.trans (Nat.add_le_add_left (Nat.sub_le _ _) _), s', hends, fun i o => ?_⟩
    rw [hclosing.has_iff, has_closure_iff (inBounds hg) hs hbelow]
  · intro s₁ i rest hway
    have hclosing := of_turns (P := fun c => (ofGrammar g).Closing s c.1 c.2)
      (fun _ _ hc hturn => hc.goesOn hg howned hturn) hstart hway
    obtain ⟨s₂, pushed, heq, -, -, hexpands, -⟩ := hclosing.turn hg howned
    exact ⟨s₂, pushed, heq, hexpands⟩

/-! ## States -/

theorem room_le (hg : g.Ranged) : Worklist.room (ofGrammar g) ≤ 2 ^ (ofGrammar g).itemCount *
    ((ofGrammar g).itemCount * ((ofGrammar g).grammar.terminals.length + 1)) := by
  have hexplored := (skeleton_explored hg).1
  refine (sum_map_le fun k hk => ?_).trans
    (Nat.mul_le_mul_right _ (length_le_of_isKernel hexplored.nodup hexplored.kernel))
  exact Nat.mul_le_mul_right _ (hexplored.kernel k hk).length_le

end Analysis

namespace Worklist

open Analysis

variable {g : Grammar} {w w' : Worklist} {rows : List (List Transition)}

/-- Kernels are different lists of items, and their lookaheads are terminals. There are only so
    many of them. -/
structure Bounded (a : Analysis) (w : Worklist) : Prop where
  nodup : w.keys.Nodup
  draft : ∀ d ∈ w.drafts, d.kernel.items = d.items ∧ a.IsKernel d.items ∧
    ∀ i t, d.kernel.Has i (some t) → t < a.grammar.terminals.length
  length_le : w.drafts.length ≤ 2 ^ a.itemCount

theorem Working.bounded (h : w.Working g rows) : w.Bounded (ofGrammar g) where
  nodup := h.tracks.explored.nodup
  draft d hd := by
    obtain ⟨hitems, hfits⟩ := h.sound.fits d hd
    exact ⟨hitems, hitems ▸ hfits.kernel, fun i t => hfits.carries.has_bound hfits.kernel i t⟩
  length_le := by
    rw [← length_keys]
    exact length_le_of_isKernel h.tracks.explored.nodup h.tracks.explored.kernel

/-- A turn on the way to the states. -/
theorem Working.goesOn (hg : g.Ranged) (h : w.Working g rows)
    (hturn : GoesOn (visitTurn? (ofGrammar g)) w w') : ∃ rows', w'.Working g rows' := by
  rw [GoesOn] at hturn
  cases hqueue : w.queue with
  | nil =>
    rw [visitTurn?, hqueue] at hturn
    cases hturn
  | cons n queue =>
    obtain ⟨rows', w'', -, heq, -, hworking, -⟩ := h.turn hg hqueue
    obtain rfl := Sum.inr.inj (Option.some.inj (heq.symm.trans hturn))
    exact ⟨rows', hworking⟩

/-- Visiting states from the first on comes to an end. -/
structure VisitsEnd (a : Analysis) : Prop where
  /-- There are no more turns than sets of items can have items and lookaheads, and the last one
      gives the states. -/
  ends : ∃ k ≤ 2 ^ a.itemCount * (a.itemCount * (a.grammar.terminals.length + 1)),
    ∃ w, EndsAfter (visitTurn? a) w k (start a) ∧ w.states = a.states
  bounded : ∀ w, ReflTransGen (GoesOn (visitTurn? a)) (start a) w → w.Bounded a
  /-- No turn on the way makes a state wait that has neither a new kernel nor a new lookahead. -/
  revisits : ∀ w n queue, ReflTransGen (GoesOn (visitTurn? a)) (start a) w →
    w.queue = n :: queue → ∃ w' woken, visitTurn? a w = some (.inr w') ∧
      w'.queue = queue ++ woken ∧ w.Revisits w' woken

theorem visitsEnd (hg : g.Ranged) : VisitsEnd (ofGrammar g) := by
  have hstart := working_start hg
  have hworking (w) (hway : ReflTransGen (GoesOn (visitTurn? (ofGrammar g)))
      (start (ofGrammar g)) w) : ∃ rows, w.Working g rows :=
    of_turns (P := fun w : Worklist => ∃ rows, w.Working g rows)
      (fun _ _ hw hturn => hw.elim fun _ hw => hw.goesOn hg hturn) ⟨[], hstart⟩ hway
  refine ⟨?_, fun w hway => ?_, fun w n queue hway hqueue => ?_⟩
  · obtain ⟨k, hk, w, hends, hstates⟩ := hstart.ends hg
    have hweight : (start (ofGrammar g)).weight = 2 := rfl
    have hqueue : (start (ofGrammar g)).queue.length = 1 := rfl
    have hle := hstart.weight_le
    have hroom := room_le hg
    exact ⟨k, by omega, w, hends, hstates⟩
  · obtain ⟨rows, hw⟩ := hworking w hway
    exact hw.bounded
  · obtain ⟨rows, hw⟩ := hworking w hway
    obtain ⟨-, w', woken, heq, hqueue', -, hrevisits, -⟩ := hw.turn hg hqueue
    exact ⟨w', woken, heq, hqueue', hrevisits⟩

end Worklist

namespace Grammar

open Analysis

variable {g : Grammar}

/-- For a grammar in range, both loops end after a number of turns that the grammar bounds: a
    closure is completed from any order of its items, and states are visited until none waits. What
    either of them puts back has been paid for. -/
theorem automaton_ends (hne : g.terminals ≠ []) (hrange : g.inRange = true) :
    (∀ (s : ItemSet) stack, s.Ordered → (ofGrammar g).Owned s →
      (∀ i t, s.Has i (some t) → t < (ofGrammar g).grammar.terminals.length) →
      stack.Perm s.items → (ofGrammar g).CloseEnds s stack) ∧
    Worklist.VisitsEnd (ofGrammar g) := by
  have hg := ranged_of_inRange hne hrange
  exact ⟨fun s stack hs howned hbelow hstack => closeEnds hg hs howned hbelow hstack,
    Worklist.visitsEnd hg⟩

/-- A grammar whose second state leads to itself, with `s → X s T | X $end`. -/
def enclosing : Grammar where
  terminals := ["X", "T", endName]
  nonterminals := [⟨"s", default⟩]
  productions := [
    ⟨0, [.terminal 0, .nonterminal 0, .terminal 1], default⟩,
    ⟨0, [.terminal 0, .terminal 2], default⟩]
  start := 0

/-- The items of the second state of `enclosing`, as they are first delivered. -/
def entered : ItemSet := [(⟨0, 1⟩, [2]), (⟨1, 1⟩, [2])]

/-- Its second state waits again after its first visit, in which `T` comes to stand behind its
    items. The closure of that state is completed from the last item on. -/
theorem automaton_ends_enclosing : enclosing.terminals ≠ [] ∧ enclosing.inRange = true ∧
    ((Worklist.visits enclosing 2).queue = [2, 1, 3, 4] ∧
      (Worklist.visits enclosing 2).drafts.map (·.kernel) = [[(⟨2, 0⟩, [2])],
        [(⟨0, 1⟩, [1, 2]), (⟨1, 1⟩, [1, 2])], [(⟨2, 1⟩, [2])], [(⟨1, 2⟩, [2])],
        [(⟨0, 2⟩, [2])]]) ∧
    (∃ k ≤ 14, ∃ s', EndsAfter (ofGrammar enclosing).closeTurn? s' k
        (entered, [⟨1, 1⟩, ⟨0, 1⟩]) ∧
      ∀ i o, s'.Has i o ↔ ((ofGrammar enclosing).closure entered).Has i o) ∧
    (∃ k ≤ 18432, ∃ w, EndsAfter (Worklist.visitTurn? (ofGrammar enclosing)) w k
      (Worklist.start (ofGrammar enclosing)) ∧ w.states = (ofGrammar enclosing).states) ∧
    ∃ w' woken, Worklist.visitTurn? (ofGrammar enclosing)
        (Worklist.start (ofGrammar enclosing)) = some (.inr w') ∧
      w'.queue = [] ++ woken ∧ (Worklist.start (ofGrammar enclosing)).Revisits w' woken := by
  have hne : enclosing.terminals ≠ [] := by decide
  have hrange : enclosing.inRange = true := by decide
  obtain ⟨hcloses, hvisits⟩ := automaton_ends hne hrange
  have hs : entered.Ordered :=
    show entered.items.Pairwise fun i j => i.before j = true by decide
  have howned : (ofGrammar enclosing).Owned entered :=
    show ∀ i ∈ entered.items, i.production < 3 by decide
  have hbelow : ∀ i t, entered.Has i (some t) →
      t < (ofGrammar enclosing).grammar.terminals.length := by
    intro i t h
    obtain ⟨y, hy, -, ht⟩ := hs.has_iff.1 h
    have hall : ∀ y ∈ entered, ∀ t ∈ y.2, t < 3 := by decide
    exact hall y hy t (ht t rfl)
  have hcloses := hcloses entered [⟨1, 1⟩, ⟨0, 1⟩] hs howned hbelow (List.Perm.swap _ _ _)
  exact ⟨hne, hrange, by decide +kernel, hcloses.ends, hvisits.ends,
    hvisits.revisits _ 0 [] .refl rfl⟩

end Grammar

end FluentGrammar
