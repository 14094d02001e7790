import FluentGrammar.Proofs.Automaton.Visited
import FluentGrammar.Proofs.Iterate

/-
  The automaton with every number looked up. A number that has no entry gives `none`, and so does
  a loop without an end, since no loop has a bound here (`iterate?`). For a grammar in range neither
  happens: the analysis is made, closures are completed and states are visited until none waits, and
  the results are those of the definitions that pass over numbers without an entry
  (`ofGrammar?_eq`, `closure?_eq`, `states?_eq`). What one turn of a loop looks up and puts back is
  said once for each of the two loops (`Closing.turn`, `Working.turn`).
-/

namespace FluentGrammar

/-! ## The analysis -/

namespace Grammar

/-- The augmented grammar; `none` when there is no start symbol. -/
def augmented? (g : Grammar) : Option Grammar := do
  let start ← g.nonterminals[g.start]?
  let (accept, g') := g.addNonterminal acceptName start.span
  return { g'.addProduction accept [.nonterminal g.start] start.span with start := accept }

/-- Puts a production to those of its nonterminal. -/
def file? (byLhs : List (List ProductionId)) (p : Production × ProductionId) :
    Option (List (List ProductionId)) := do
  let ps ← byLhs[p.1.lhs]?
  return byLhs.set p.1.lhs (ps ++ [p.2])

/-- The productions of every nonterminal. -/
def productionsByLhs? (g : Grammar) : Option (List (List ProductionId)) :=
  g.productions.zipIdx.foldlM file? (List.replicate g.nonterminals.length [])

variable {g : Grammar} {count : Nat} {ps : Nat → List ProductionId}

theorem augmented?_eq (h : g.start < g.nonterminals.length) : g.augmented? = some g.augmented := by
  rw [augmented?, augmented, nonterminal, List.getD_eq_getElem?_getD,
    List.getElem?_eq_getElem h]
  rfl

theorem file?_eq {p : Production × ProductionId} (hp : p.1.lhs < count) :
    file? ((List.range count).map ps) p =
      some ((List.range count).map fun n => if p.1.lhs == n then ps n ++ [p.2] else ps n) := by
  have hentry : ((List.range count).map ps)[p.1.lhs]? = some (ps p.1.lhs) := by
    rw [List.getElem?_map, List.getElem?_range hp, Option.map_some]
  rw [file?, hentry]
  refine congrArg some (List.ext_getElem? fun n => ?_)
  rw [getElem?_set_of_getElem? hentry, List.getElem?_map, List.getElem?_map]
  by_cases hn : p.1.lhs = n
  · subst hn
    rw [if_pos rfl, List.getElem?_range hp, Option.map_some, if_pos (beq_self_eq_true _)]
  · have hfile : (fun n => if p.1.lhs == n then ps n ++ [p.2] else ps n) n = ps n :=
      if_neg (by simpa using hn)
    rw [if_neg hn]
    refine Option.map_congr fun m hm => ?_
    obtain ⟨hlt, heq⟩ := List.getElem?_eq_some_iff.1 hm
    rw [List.getElem_range] at heq
    exact heq ▸ hfile.symm

theorem foldlM_file? {xs : List (Production × ProductionId)} (h : ∀ x ∈ xs, x.1.lhs < count) :
    xs.foldlM file? ((List.range count).map ps) = some ((List.range count).map fun n =>
      ps n ++ (xs.filter fun x => x.1.lhs == n).map (·.2)) := by
  induction xs generalizing ps with
  | nil => simp
  | cons x xs ih =>
    obtain ⟨hx, hxs⟩ := List.forall_mem_cons.1 h
    rw [List.foldlM_cons, file?_eq hx]
    refine (ih hxs).trans (congrArg some (List.map_congr_left fun n _ => ?_))
    rw [List.filter_cons]
    split
    · rw [List.append_assoc]
      rfl
    · rfl

theorem productionsByLhs?_eq (h : ∀ p ∈ g.productions, p.lhs < g.nonterminals.length) :
    g.productionsByLhs? = some g.productionsByLhs := by
  have hreplicate : List.replicate g.nonterminals.length [] =
      (List.range g.nonterminals.length).map fun _ => ([] : List ProductionId) := by
    rw [List.map_const', List.length_range]
  have hzip : ∀ x ∈ g.productions.zipIdx, x.1.lhs < g.nonterminals.length := by
    intro x hx
    obtain ⟨p, i⟩ := x
    exact h p (List.mem_of_getElem? (List.mk_mem_zipIdx_iff_getElem?.1 hx))
  rw [productionsByLhs?, hreplicate, foldlM_file? hzip]
  rfl

end Grammar

namespace FirstSets

/-- The first terminals of a symbol string, and whether it derives nothing. -/
def ofSymbols? (f : FirstSets) : List Symbol → Option (List TerminalId × Bool)
  | [] => some ([], true)
  | .terminal t :: _ => some ([t], false)
  | .nonterminal n :: rest => do
    let heads ← f.first[n]?
    let empty ← f.nullable[n]?
    if empty then
      let (more, empty) ← f.ofSymbols? rest
      return (OrderedSet.union heads more, empty)
    else return (heads, false)

/-- Takes in what a production says about its left-hand side. -/
def absorb? (f : FirstSets) (p : Production) : Option FirstSets := do
  let (heads, empty) ← f.ofSymbols? p.rhs
  let known ← f.first[p.lhs]?
  let nullable ← f.nullable[p.lhs]?
  return { first := f.first.set p.lhs (OrderedSet.union heads known)
           nullable := f.nullable.set p.lhs (nullable || empty) }

/-- Passes until nothing changes. -/
noncomputable def settle? (g : Grammar) : FirstSets → Option FirstSets :=
  iterate? fun f => do
    let next ← g.productions.foldlM absorb? f
    return if next = f then .inl f else .inr next

/-- The first sets of a grammar. -/
noncomputable def ofGrammar? (g : Grammar) : Option FirstSets :=
  settle? g ⟨List.replicate g.nonterminals.length [], List.replicate g.nonterminals.length false⟩

variable {g : Grammar} {f : FirstSets} {p : Production} {γ : List Symbol}

theorem ofSymbols?_eq (h : Fits g f) (hγ : ∀ n, .nonterminal n ∈ γ → n < g.nonterminals.length) :
    f.ofSymbols? γ = some (f.ofSymbols γ) := by
  induction γ with
  | nil => rfl
  | cons x γ ih =>
    have hrest := ih fun n hn => hγ n (List.mem_cons_of_mem _ hn)
    cases x with
    | terminal t => rfl
    | nonterminal n =>
      have hn := hγ n List.mem_cons_self
      have hfirst := List.getElem?_eq_getElem (h.first_length ▸ hn)
      have hnullable := List.getElem?_eq_getElem (h.nullable_length ▸ hn)
      rw [ofSymbols?, ofSymbols, List.getD_eq_getElem?_getD, List.getD_eq_getElem?_getD, hfirst,
        hnullable, hrest]
      simp only [Option.bind_eq_bind, Option.bind_some, Option.getD_some]
      split <;> rfl

theorem absorb?_eq (h : Fits g f) (hlhs : p.lhs < g.nonterminals.length)
    (hrhs : ∀ n, .nonterminal n ∈ p.rhs → n < g.nonterminals.length) :
    f.absorb? p = some (f.absorb p) := by
  have hfirst := List.getElem?_eq_getElem (h.first_length ▸ hlhs)
  have hnullable := List.getElem?_eq_getElem (h.nullable_length ▸ hlhs)
  rw [absorb?, absorb, ofSymbols?_eq h hrhs]
  obtain ⟨heads, empty⟩ := f.ofSymbols p.rhs
  simp only [Option.bind_eq_bind, Option.bind_some]
  rw [List.modify_eq_set_getElem?, List.modify_eq_set_getElem?, hfirst, hnullable]
  rfl

/-- Passes come to the end that they come to when they are counted. -/
theorem settle?_eq (hlhs : ∀ p ∈ g.productions, p.lhs < g.nonterminals.length)
    (hrhs : ∀ p ∈ g.productions, ∀ n, .nonterminal n ∈ p.rhs → n < g.nonterminals.length)
    (hw : TerminalsInRange g) (h : Fits g f) (fuel : Nat)
    (hfixed : pass g (settle g fuel f) = settle g fuel f) :
    settle? g f = some (settle g fuel f) := by
  have hpass {f : FirstSets} (h : Fits g f) : g.productions.foldlM absorb? f = some (pass g f) := by
    refine foldlM_eq_some (P := Fits g) (fun f p hp hf => ?_) h
    exact ⟨absorb?_eq hf (hlhs p hp) (hrhs p hp), hf.absorb (hw p hp)⟩
  induction fuel generalizing f with
  | zero =>
    rw [settle] at hfixed ⊢
    refine iterate?_of_inl ?_
    rw [hpass h, hfixed]
    exact congrArg some (if_pos rfl)
  | succ fuel ih =>
    rw [settle] at hfixed ⊢
    split at hfixed
    · next heq =>
      rw [if_pos heq]
      refine iterate?_of_inl ?_
      rw [hpass h]
      exact congrArg some (if_pos heq)
    · next hne =>
      rw [if_neg hne, ← ih (h.pass hw) hfixed]
      refine iterate?_of_inr ?_
      rw [hpass h]
      exact congrArg some (if_neg hne)

theorem ofGrammar?_eq (hlhs : ∀ p ∈ g.productions, p.lhs < g.nonterminals.length)
    (hrhs : ∀ p ∈ g.productions, ∀ n, .nonterminal n ∈ p.rhs → n < g.nonterminals.length)
    (hw : TerminalsInRange g) : ofGrammar? g = some (ofGrammar g) :=
  settle?_eq hlhs hrhs hw (fits_replicate g) _ (ofGrammar_settled hw).2

end FirstSets

namespace Analysis

/-- The analysis of a grammar that has not been augmented yet. -/
noncomputable def ofGrammar? (g : Grammar) : Option Analysis := do
  let augmented ← g.augmented?
  let byLhs ← augmented.productionsByLhs?
  let first ← FirstSets.ofGrammar? augmented
  return ⟨augmented, byLhs, first, (augmented.productions.map (·.rhs)).toArray⟩

variable {g : Grammar} {s s₀ : ItemSet} {i : Item} {stack : List Item} {n : NonterminalId}
  {after : List Symbol}

theorem ofGrammar?_eq (hg : g.Ranged) : ofGrammar? g = some (ofGrammar g) := by
  rw [ofGrammar?, Grammar.augmented?_eq hg.start]
  simp only [Option.bind_eq_bind, Option.bind_some]
  rw [Grammar.productionsByLhs?_eq hg.lhs_augmented,
    FirstSets.ofGrammar?_eq hg.lhs_augmented hg.rhs_augmented hg.terminalsInRange]
  rfl

/-! ## Closures -/

/-- Expands an item that has been taken from the stack. -/
def expand? (a : Analysis) (s : ItemSet) (i : Item) (stack : List Item) :
    Option (ItemSet × List Item) := do
  let side ← a.sides[i.production]?
  match side.drop i.dot with
  | .nonterminal n :: after => do
    let (heads, empty) ← a.first.ofSymbols? after
    let ts ← if empty then (s.lookup i).map (OrderedSet.union heads) else some heads
    let ps ← a.byLhs[n]?
    return derive ts ps (s, stack)
  | _ => return (s, stack)

/-- Expands the items on the stack until none is left. -/
noncomputable def closeItems? (a : Analysis) : ItemSet × List Item → Option ItemSet :=
  iterate? fun (s, stack) =>
    match stack with
    | [] => some (.inl s)
    | i :: stack => (a.expand? s i stack).map .inr

/-- The closure of a set of items. -/
noncomputable def closure? (a : Analysis) (s : ItemSet) : Option ItemSet :=
  a.closeItems? (s, s.items)

/-- All items are of productions of the grammar. -/
def Owned (a : Analysis) (s : ItemSet) : Prop :=
  ∀ i ∈ s.items, i.production < a.grammar.productions.length

theorem Owned.closes (hb : (ofGrammar g).InBounds) (hs : (ofGrammar g).Owned s)
    {o : Option TerminalId} (h : (ofGrammar g).Closes s i o) :
    i.production < (ofGrammar g).grammar.productions.length := by
  induction h with
  | base h => exact hs _ (ItemSet.has_none_of_has h)
  | enter _ _ hp _ => exact hb.production _ _ hp
  | head _ _ hp _ _ => exact hb.production _ _ hp
  | pass _ _ hp _ _ => exact hb.production _ _ hp

theorem getElem?_sides {p : ProductionId}
    (hp : p < (ofGrammar g).grammar.productions.length) :
    (ofGrammar g).sides[p]? = some ((ofGrammar g).sides.getD p []) := by
  have hsize : p < (ofGrammar g).sides.size := by
    show p < (g.augmented.productions.map (·.rhs)).toArray.size
    rwa [List.size_toArray, List.length_map]
  rw [Array.getD_eq_getD_getElem?, Array.getElem?_eq_getElem hsize, Option.getD_some]

theorem lt_of_remaining (hg : g.Ranged) {γ : List Symbol}
    (hr : (ofGrammar g).remaining i = γ) (hn : .nonterminal n ∈ γ) :
    n < (ofGrammar g).grammar.nonterminals.length := by
  have hne : (ofGrammar g).remaining i ≠ [] := by
    rw [hr]
    exact List.ne_nil_of_mem hn
  obtain ⟨q, hq⟩ := exists_of_remaining_ne_nil hne
  rw [remaining_eq hq] at hr
  refine hg.rhs_augmented q (List.mem_of_getElem? hq) n (List.mem_of_mem_drop (i := i.dot) ?_)
  rwa [hr]

theorem expand?_eq_of_nonterminal (hg : g.Ranged)
    (hp : i.production < (ofGrammar g).grammar.productions.length) (hi : s.Has i none)
    (hr : (ofGrammar g).remaining i = .nonterminal n :: after) :
    (ofGrammar g).expand? s i stack = some (derive ((ofGrammar g).ahead s i after)
      ((ofGrammar g).byLhs.getD n []) (s, stack)) := by
  have hfirst : (ofGrammar g).first.ofSymbols? after = some ((ofGrammar g).first.ofSymbols after) :=
    FirstSets.ofSymbols?_eq (FirstSets.fits_ofGrammar hg.terminalsInRange) fun m hm =>
      lt_of_remaining hg hr (List.mem_cons_of_mem _ hm)
  have hlookahead : s.lookup i = some (s.lookaheads i) := by
    obtain ⟨ts, hts⟩ := Option.isSome_iff_exists.1 (ItemSet.lookup_isSome_iff.2 hi)
    rw [ItemSet.lookaheads, hts, Option.getD_some]
  have hbyLhs : (ofGrammar g).byLhs[n]? = some ((ofGrammar g).byLhs.getD n []) := by
    have hn : n < (ofGrammar g).byLhs.length := by
      show n < (List.map _ _).length
      rw [List.length_map, List.length_range]
      exact lt_of_remaining hg hr List.mem_cons_self
    rw [List.getD_eq_getElem?_getD, List.getElem?_eq_getElem hn, Option.getD_some]
  rw [remaining] at hr
  rw [expand?, getElem?_sides hp]
  simp only [Option.bind_eq_bind, Option.bind_some]
  rw [hr]
  simp only [hfirst, hlookahead, hbyLhs, Option.bind_some, Option.map_some, ahead]
  split <;> rfl

theorem expand?_eq_of_ne (hp : i.production < (ofGrammar g).grammar.productions.length)
    (hr : ∀ n after, (ofGrammar g).remaining i ≠ .nonterminal n :: after) :
    (ofGrammar g).expand? s i stack = some (s, stack) := by
  rw [expand?, getElem?_sides hp]
  simp only [Option.bind_eq_bind, Option.bind_some]
  split
  · next n after heq => exact absurd heq (hr n after)
  · rfl

/-- One turn of expanding the items on the stack. -/
def closeTurn? (a : Analysis) : ItemSet × List Item → Option (ItemSet ⊕ (ItemSet × List Item))
  | (s, []) => some (.inl s)
  | (s, i :: stack) => (a.expand? s i stack).map .inr

theorem closeItems?_eq_iterate? (a : Analysis) : a.closeItems? = iterate? a.closeTurn? := by
  have hturn : (fun ((s, stack) : ItemSet × List Item) => match stack with
      | [] => some (.inl s)
      | i :: stack => (a.expand? s i stack).map .inr) = a.closeTurn? := by
    funext ⟨s, stack⟩
    cases stack <;> rfl
  rw [closeItems?, hturn]

/-- Nothing is lost, and for each item that is pushed the set gains something that it did not have:
    the item or a lookahead of it. Such an item is at the front of a production. -/
structure Expands (a : Analysis) (s s' : ItemSet) (pushed : List Item) : Prop where
  kept : ∀ i o, s.Has i o → s'.Has i o
  nodup : pushed.Nodup
  paid : ∀ i ∈ pushed, i.dot = 0 ∧ i.production < a.grammar.productions.length ∧
    ∃ o : Option TerminalId, (∀ t ∈ o, t < a.grammar.terminals.length) ∧ s'.Has i o ∧ ¬s.Has i o

/-- A turn finds what it looks up, as one that is counted does without. It pushes no more items than
    it finds facts. -/
theorem Closing.turn (hg : g.Ranged) (hs₀ : (ofGrammar g).Owned s₀)
    (h : (ofGrammar g).Closing s₀ s (i :: stack)) : ∃ s' pushed,
      (ofGrammar g).closeTurn? (s, i :: stack) = some (.inr (s', pushed ++ stack)) ∧
      (∀ fuel, (ofGrammar g).closeItems (fuel + 1) (s, i :: stack) =
        (ofGrammar g).closeItems fuel (s', pushed ++ stack)) ∧
      (ofGrammar g).Closing s₀ s' (pushed ++ stack) ∧ (ofGrammar g).Expands s s' pushed ∧
      pushed.length + facts (ofGrammar g).grammar.productions.length
          (ofGrammar g).grammar.terminals.length s ≤
        facts (ofGrammar g).grammar.productions.length
          (ofGrammar g).grammar.terminals.length s' := by
  have hb := inBounds hg
  have hi := h.pending i List.mem_cons_self
  have hp := hs₀.closes hb (h.least i none hi)
  by_cases hr : ∃ n after, (ofGrammar g).remaining i = .nonterminal n :: after
  · obtain ⟨n, after, hr⟩ := hr
    obtain ⟨hclosing, hcount⟩ := h.expand hb hr rfl
    obtain ⟨pushed, hstack, hdistinct, hnew⟩ := derive_pushed (h.ahead_lt hb hr)
      ((ofGrammar g).byLhs.getD n []) (hb.production n) (nodup_byLhs g n) h.ordered stack
    have hd := derive_derived (h.ahead_lt hb hr) ((ofGrammar g).byLhs.getD n [])
      (hb.production n) h.ordered stack
    rw [hstack, List.length_append] at hcount
    refine ⟨_, pushed, ?_, fun fuel => ?_, hstack ▸ hclosing,
      ⟨fun j o hj => ?_, hdistinct, fun j hj => ?_⟩, by omega⟩
    · rw [closeTurn?, expand?_eq_of_nonterminal hg hp hi hr, Option.map_some, ← hstack]
    · rw [closeItems, hr, ← hstack]
      rfl
    · exact (hd.has_iff j o).2 (.inl hj)
    · obtain ⟨p, hp, rfl, o, ho, hhas, hnone⟩ := hnew j hj
      exact ⟨rfl, hb.production n p hp, o, fun t ht => h.ahead_lt hb hr t (ho t ht), hhas, hnone⟩
  · push Not at hr
    refine ⟨s, [], ?_, fun fuel => ?_, h.pop hr,
      ⟨fun _ _ h => h, .nil, fun j hj => absurd hj List.not_mem_nil⟩, Nat.le_of_eq (Nat.zero_add _)⟩
    · rw [closeTurn?, expand?_eq_of_ne hp hr]
      rfl
    · rw [closeItems]
      split
      · next n after heq => exact absurd heq (hr n after)
      · rfl

/-- The loop comes to the end that it comes to when its steps are counted. -/
theorem closeItems?_eq (hg : g.Ranged) (hs₀ : (ofGrammar g).Owned s₀) (fuel : Nat)
    (h : (ofGrammar g).Closing s₀ s stack)
    (hfuel : stack.length + (ofGrammar g).grammar.productions.length *
        ((ofGrammar g).grammar.terminals.length + 1) <
      fuel + facts (ofGrammar g).grammar.productions.length
        (ofGrammar g).grammar.terminals.length s) :
    (ofGrammar g).closeItems? (s, stack) = some ((ofGrammar g).closeItems fuel (s, stack)) := by
  induction fuel generalizing s stack with
  | zero =>
    have hle := facts_le (ofGrammar g).grammar.productions.length
      (ofGrammar g).grammar.terminals.length s
    omega
  | succ fuel ih =>
    rw [closeItems?_eq_iterate?]
    cases stack with
    | nil => exact iterate?_of_inl rfl
    | cons i stack =>
      obtain ⟨s', pushed, hturn, hcounted, hclosing, -, hcount⟩ := h.turn hg hs₀
      rw [List.length_cons] at hfuel
      rw [hcounted, iterate?_of_inr hturn, ← closeItems?_eq_iterate?]
      exact ih hclosing (by rw [List.length_append]; omega)

theorem closure?_eq (hg : g.Ranged) (hs : s.Ordered) (howned : (ofGrammar g).Owned s)
    (hbelow : ∀ i t, s.Has i (some t) → t < (ofGrammar g).grammar.terminals.length) :
    (ofGrammar g).closure? s = some ((ofGrammar g).closure s) := by
  refine closeItems?_eq hg howned _ (closing_start hs hbelow (.refl _)) ?_
  rw [ItemSet.items, List.length_map]
  omega

theorem Fits.owned (h : Fits g s) : (ofGrammar g).Owned s := by
  intro i hi
  obtain ⟨q, hq, -⟩ := h.kernel.occurs i hi
  exact (List.getElem?_eq_some_iff.1 hq).1

theorem Fits.closure?_eq (hg : g.Ranged) (h : Fits g s) :
    (ofGrammar g).closure? s = some ((ofGrammar g).closure s) :=
  Analysis.closure?_eq hg h.ordered h.owned (h.carries.has_bound h.kernel)

theorem Fits.owned_closure (hg : g.Ranged) (h : Fits g s) :
    (ofGrammar g).Owned ((ofGrammar g).closure s) := by
  intro i hi
  exact h.owned.closes (inBounds hg) ((h.has_closure_iff hg (o := none)).1 hi)

/-- The right-hand sides of items, as the next symbols are read from them. -/
def sides? (a : Analysis) (s : ItemSet) : Option (List (List Symbol)) :=
  s.items.mapM fun i => a.sides[i.production]?

theorem sides?_eq (h : (ofGrammar g).Owned s) : (ofGrammar g).sides? s =
    some (s.items.map fun i => (ofGrammar g).sides.getD i.production []) :=
  mapM_eq_some fun i hi => getElem?_sides (h i hi)

/-- What a closure passes on. -/
def deliveries? (a : Analysis) (closure : ItemSet) : Option (List (Symbol × ItemSet)) := do
  let _ ← a.sides? closure
  return a.deliveries closure

end Analysis

/-! ## States -/

namespace Worklist

open Analysis

/-- Adds to the lookaheads of a state. -/
def extend? (w : Worklist) (m : Nat) (more : ItemSet) : Option Worklist := do
  let _ ← w.drafts[m]?
  return w.extend m more

/-- A transition of state `n`. -/
def link? (w : Worklist) (n : Nat) (t : Transition) : Option Worklist := do
  let row ← w.rows[n]?
  return { w with rows := w.rows.set n (setTransition t row) }

/-- Passes items past a symbol on from state `n` to the state that is known by them. -/
def deliver? (n : Nat) (w : Worklist) (move : Symbol × ItemSet) : Option Worklist :=
  match w.drafts.findIdx? (·.items == move.2.items) with
  | some m => do
    let w ← w.extend? m move.2
    w.link? n (move.1, m)
  | none => (w.push move.2).link? n (move.1, w.drafts.length)

/-- Visits the state in front of the queue. -/
noncomputable def visit? (a : Analysis) (w : Worklist) : Option Worklist :=
  match w.queue with
  | [] => some w
  | n :: queue => do
    let d ← w.drafts[n]?
    let closure ← a.closure? d.kernel
    let moves ← a.deliveries? closure
    moves.foldlM (deliver? n) (w.leave n queue)

/-- Visits states until none waits. -/
noncomputable def run? (a : Analysis) : Worklist → Option Worklist :=
  iterate? fun w =>
    match w.queue with
    | [] => some (.inl w)
    | _ :: _ => (w.visit? a).map .inr

variable {g : Grammar} {w w' : Worklist} {n m : Nat} {queue : List Nat}
  {rows : List (List Transition)}

theorem link?_eq {t : Transition} (hn : n < w.rows.length) : w.link? n t = some (w.link n t) := by
  rw [link?, link, List.modify_eq_set_getElem?, List.getElem?_eq_getElem hn]
  rfl

theorem deliver?_eq (hn : n < w.rows.length) (move : Symbol × ItemSet) :
    w.deliver? n move = some (w.deliver n move) ∧ n < (w.deliver n move).rows.length := by
  constructor
  · unfold deliver? deliver
    cases hfind : w.drafts.findIdx? (·.items == move.2.items) with
    | some m =>
      have hm := (List.findIdx?_eq_some_iff_getElem.1 hfind).1
      dsimp only
      rw [extend?, List.getElem?_eq_getElem hm]
      exact link?_eq (by rwa [rows_extend])
    | none =>
      refine link?_eq ?_
      show n < (w.rows ++ [[]]).length
      rw [List.length_append]
      exact Nat.lt_add_right _ hn
  · obtain ⟨m, k, hrows, -⟩ := deliver_enter hn move
    rw [hrows, List.length_append, List.length_modify]
    exact Nat.lt_add_right _ hn

theorem Working.visit?_eq (hg : g.Ranged) (h : w.Working g rows) :
    w.visit? (ofGrammar g) = some (w.visit (ofGrammar g)) := by
  unfold visit? Worklist.visit
  cases hqueue : w.queue with
  | nil => rfl
  | cons n queue =>
    have hn : n < w.drafts.length := h.sound.lt n (by rw [hqueue]; exact List.mem_cons_self)
    have hfits := h.sound.fits_of_getElem? (List.getElem?_eq_getElem hn)
    dsimp only
    rw [List.getElem?_eq_getElem hn]
    simp only [Option.bind_eq_bind, Option.bind_some, Option.elim_some]
    rw [hfits.closure?_eq hg, Option.bind_some, deliveries?, sides?_eq (hfits.owned_closure hg)]
    refine foldlM_eq_some (P := fun w : Worklist => n < w.rows.length)
      (fun w move _ hw => deliver?_eq hw move) ?_
    show n < w.rows.length
    rwa [h.tracks.length_rows]

/-- One turn of visiting states. -/
noncomputable def visitTurn? (a : Analysis) (w : Worklist) : Option (Worklist ⊕ Worklist) :=
  match w.queue with
  | [] => some (.inl w)
  | _ :: _ => (w.visit? a).map .inr

theorem run?_eq_iterate? (a : Analysis) : run? a = iterate? (visitTurn? a) := rfl

/-- Nothing is lost, and each state that starts to wait has a kernel that there was not before, or
    more lookaheads than before. -/
structure Revisits (w w' : Worklist) (woken : List Nat) : Prop where
  kept : w.Keeps w'
  nodup : woken.Nodup
  paid : ∀ m ∈ woken, ∃ d', w'.drafts[m]? = some d' ∧
    (d'.items ∉ w.keys ∨ ∃ d, w.drafts[m]? = some d ∧
      ∃ i t, d'.kernel.Has i (some t) ∧ ¬d.kernel.Has i (some t))

/-- A state with a number that there was not has a kernel that there was not. -/
theorem Keeps.not_mem_keys (h : w.Keeps w') (hnodup : w'.keys.Nodup) {d' : Draft}
    (hm : w.drafts.length ≤ m) (hd' : w'.drafts[m]? = some d') : d'.items ∉ w.keys := by
  intro hmem
  obtain ⟨d, hd, heq⟩ := List.mem_map.1 hmem
  obtain ⟨k, hk⟩ := List.mem_iff_getElem?.1 hd
  obtain ⟨e, he, hitems, -⟩ := h k d hk
  have hlt := (List.getElem?_eq_some_iff.1 hk).1
  have hsame : w'.keys[k]? = w'.keys[m]? := by
    rw [getElem?_keys he, getElem?_keys hd', hitems, heq]
  have hk' : k < w'.keys.length := by
    rw [length_keys]
    exact (List.getElem?_eq_some_iff.1 he).1
  obtain rfl := (List.getElem?_inj hk' hnodup).1 hsame
  omega

/-- A turn finds what it looks up. The states that it makes wait have been paid for, and all of them
    have been counted. -/
theorem Working.turn (hg : g.Ranged) (h : w.Working g rows) (hqueue : w.queue = n :: queue) :
    ∃ rows' w' woken, visitTurn? (ofGrammar g) w = some (.inr w') ∧
      w'.queue = queue ++ woken ∧ w'.Working g rows' ∧ w.Revisits w' woken ∧
      woken.length + w.weight ≤ w'.weight := by
  obtain ⟨rows', hworking, hgrows⟩ := h.visit hg hqueue
  obtain ⟨woken, heq, hgains⟩ := hgrows.queue
  have hnodup := hworking.sound.nodup
  have hcount := hgrows.count
  rw [heq] at hnodup
  rw [heq, weight_leave, List.length_append] at hcount
  refine ⟨rows', w.visit (ofGrammar g), woken, ?_, heq, hworking,
    ⟨hgrows.keeps, (List.nodup_append.1 hnodup).2.1, fun m hm => ?_⟩, by omega⟩
  · rw [visitTurn?, hqueue]
    exact congrArg (Option.map Sum.inr) (h.visit?_eq hg)
  · have hlt := hworking.sound.lt m (heq ▸ List.mem_append_right _ hm)
    refine ⟨_, List.getElem?_eq_getElem hlt, ?_⟩
    rcases hgains m hm with hnew | ⟨d, d', hd, hd', i, t, hhas, hnone⟩
    · rw [length_drafts_leave] at hnew
      exact .inl (hgrows.keeps.not_mem_keys hworking.tracks.explored.nodup hnew
        (List.getElem?_eq_getElem hlt))
    · obtain ⟨d₀, hd₀, -, hkernel, -⟩ := of_getElem?_leave hd
      obtain rfl := Option.some.inj ((List.getElem?_eq_getElem hlt).symm.trans hd')
      exact .inr ⟨d₀, hd₀, i, t, hhas, hkernel ▸ hnone⟩

/-- The states that wait and the items and lookaheads that there are still to be found bound the
    turns. -/
theorem Working.ends (hg : g.Ranged) (h : w.Working g rows) :
    ∃ k ≤ w.queue.length + (room (ofGrammar g) - w.weight),
      ∃ w', EndsAfter (visitTurn? (ofGrammar g)) w' k w ∧ w'.states = (ofGrammar g).states := by
  refine exists_endsAfter (P := fun w : Worklist => ∃ rows, w.Working g rows)
    (fun w => w.queue.length + (room (ofGrammar g) - w.weight)) (fun w hw => ?_) ⟨rows, h⟩
  obtain ⟨rows, hw⟩ := hw
  cases hqueue : w.queue with
  | nil =>
    refine .inl ⟨w, ?_, hw.states_eq hg hqueue⟩
    rw [visitTurn?, hqueue]
  | cons n queue =>
    obtain ⟨rows', w', woken, heq, hqueue', hworking, -, hcount⟩ := hw.turn hg hqueue
    have hle := hworking.weight_le
    refine .inr ⟨w', heq, ⟨rows', hworking⟩, ?_⟩
    rw [hqueue', List.length_append, List.length_cons]
    omega

end Worklist

namespace Analysis

/-- The states of the automaton. -/
noncomputable def states? (a : Analysis) : Option (List ItemState) := do
  let w ← Worklist.run? a (Worklist.start a)
  return w.states

theorem states?_eq {g : Grammar} (hg : g.Ranged) :
    (ofGrammar g).states? = some (ofGrammar g).states := by
  obtain ⟨k, -, w, hends, hstates⟩ := (Worklist.working_start hg).ends hg
  rw [states?, Worklist.run?_eq_iterate?, hends.iterate?_eq, ← hstates]
  rfl

end Analysis

end FluentGrammar
