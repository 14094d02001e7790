import FluentGrammar.Proofs.Automaton.Skeleton

/-
  Passing lookaheads along the transitions until nothing grows. Every pass keeps the items of the
  kernels and only adds terminals that may follow (`Settling`), of which there are so many as the
  capacity says, so the loop ends with kernels that the next pass leaves alone: whatever follows
  an item in a closure follows it in the state that it is moved to (`receive_eq_of_passAll_eq`).
-/

namespace FluentGrammar

namespace ItemSet

variable {s : ItemSet} {i j : Item} {ts : List TerminalId}

/-- The items and the terminals that may follow them, counted. -/
def weight (s : ItemSet) : Nat := (s.map fun x => x.2.length + 1).sum

theorem enlarges_add (i : Item) (ts : List TerminalId) : Enlarges weight (add i ts) := by
  intro s
  induction s with
  | nil => exact .inr (by simp [weight, add])
  | cons x s ih =>
    obtain ⟨j, us⟩ := x
    rw [add]
    split
    · rcases OrderedSet.enlarges_union ts us with heq | hlt
      · left
        rw [heq]
      · right
        simp only [weight, List.map_cons, List.sum_cons]
        omega
    · split
      · right
        simp only [weight, List.map_cons, List.sum_cons]
        omega
      · rcases ih with heq | hlt
        · left
          rw [heq]
        · right
          simp only [weight, List.map_cons, List.sum_cons] at hlt ⊢
          omega

/-- Adding to an item that is in the set adds no item. -/
theorem items_add_of_mem (hs : s.Ordered) (hi : i ∈ s.items) (ts : List TerminalId) :
    (s.add i ts).items = s.items := by
  refine List.Pairwise.eq_of_mem_iff (hs.add i ts) hs fun j => ?_
  rw [mem_items_add]
  constructor
  · rintro (rfl | h)
    · exact hi
    · exact h
  · exact .inr

end ItemSet

namespace Analysis

variable {a : Analysis} {g : Grammar} {Q : TerminalId → Prop}

/-! ## Passes enlarge -/

/-- Passes what a closure says about the items before a symbol on to a kernel. -/
def receive (a : Analysis) (closure : ItemSet) (x : Symbol) (target : ItemSet) : ItemSet :=
  closure.foldl (fun target (i, ts) =>
    if a.next? i == some x then target.add i.advance ts else target) target

theorem enlarges_receive_step (a : Analysis) (x : Symbol) (y : Item × List TerminalId) :
    Enlarges ItemSet.weight fun target =>
      if a.next? y.1 == some x then target.add y.1.advance y.2 else target := by
  split
  · exact ItemSet.enlarges_add _ _
  · exact .id

theorem enlarges_receive (a : Analysis) (closure : ItemSet) (x : Symbol) :
    Enlarges ItemSet.weight (a.receive closure x) :=
  Enlarges.foldl (enlarges_receive_step a x) closure

/-- The items and terminals of all kernels, counted. -/
def weights (kernels : Array ItemSet) : Nat := (kernels.toList.map ItemSet.weight).sum

theorem toList_pass (closure : ItemSet) (kernels : Array ItemSet) (t : Transition) :
    (a.pass closure kernels t).toList =
      kernels.toList.modify t.2 (a.receive closure t.1) :=
  Array.toList_modify ..

theorem enlarges_pass (a : Analysis) (closure : ItemSet) (t : Transition) :
    Enlarges weights (a.pass closure · t) := by
  intro kernels
  have h := (enlarges_receive a closure t.1).modify t.2 kernels.toList
  dsimp only at h
  rw [← toList_pass] at h
  rcases h with heq | hlt
  · exact .inl (Array.toList_inj.1 heq)
  · exact .inr hlt

theorem enlarges_passRow (a : Analysis) (y : List Transition × Nat) :
    Enlarges weights fun kernels =>
      y.1.foldl (a.pass (a.closure (kernels.getD y.2 []))) kernels :=
  fun kernels => Enlarges.foldl (enlarges_pass a (a.closure (kernels.getD y.2 []))) y.1 kernels

theorem enlarges_passAll (a : Analysis) (rows : List (List Transition)) :
    Enlarges weights (a.passAll rows) :=
  Enlarges.foldl (enlarges_passRow a) rows.zipIdx

/-- What a pass that changes nothing says about one transition. -/
theorem receive_eq_of_passAll_eq {rows : List (List Transition)} {kernels : Array ItemSet}
    (h : a.passAll rows kernels = kernels) {state : Nat} {row : List Transition}
    (hrow : rows[state]? = some row) {x : Symbol} {target : Nat} (ht : (x, target) ∈ row)
    {s s' : ItemSet} (hs : kernels.toList[state]? = some s)
    (hs' : kernels.toList[target]? = some s') :
    ∀ y ∈ a.closure s, a.next? y.1 = some x → s'.add y.1.advance y.2 = s' := by
  have hmem : (row, state) ∈ rows.zipIdx := List.mk_mem_zipIdx_iff_getElem?.2 hrow
  have hrows := Enlarges.foldl_fixed (enlarges_passRow a) h (row, state) hmem
  dsimp only at hrows
  rw [getD_of_toList hs] at hrows
  have hpass := Enlarges.foldl_fixed (enlarges_pass a (a.closure s)) hrows (x, target) ht
  have hmodify := congrArg Array.toList hpass
  rw [toList_pass] at hmodify
  have hreceive := getElem?_of_modify_eq hmodify hs'
  intro y hy hnext
  have hstep := Enlarges.foldl_fixed (enlarges_receive_step a x) hreceive y hy
  rwa [if_pos (beq_iff_eq.2 hnext)] at hstep

/-! ## Passes keep the kernels -/

/-- The terminals that may follow items satisfy `Q` when those behind nonterminals and the end of
    input do. -/
structure Bound (a : Analysis) (Q : TerminalId → Prop) : Prop where
  lt : ∀ t, Q t → t < a.grammar.terminals.length
  finish : Q a.grammar.endTerminal
  head : ∀ i n after, a.remaining i = .nonterminal n :: after →
    ∀ t ∈ (a.first.ofSymbols after).1, Q t

theorem Closes.bound {s : ItemSet} {i : Item} {o : Option TerminalId} (hQ : a.Bound Q)
    (hs : ∀ i t, s.Has i (some t) → Q t) (h : a.Closes s i o) : ∀ t ∈ o, Q t := by
  induction h with
  | @base i o h =>
    intro t ht
    rw [Option.mem_def] at ht
    subst ht
    exact hs i t h
  | enter => exact nofun
  | head _ hr _ ht _ =>
    intro t' ht'
    obtain rfl := Option.some.inj ht'
    exact hQ.head _ _ _ hr _ ht
  | pass _ _ _ _ ih => exact ih

/-- The set has the items of the kernel, each with ascending terminals that satisfy `Q`. -/
structure Carries (Q : TerminalId → Prop) (kernel : List Item) (s : ItemSet) : Prop where
  items : s.items = kernel
  entry : ∀ y ∈ s, y.2.Pairwise (· < ·) ∧ ∀ t ∈ y.2, Q t

variable {kernel : List Item} {s : ItemSet} {i : Item}

theorem Carries.ordered (h : Carries Q kernel s) (hk : a.IsKernel kernel) : s.Ordered := by
  rw [ItemSet.Ordered, h.items]
  exact hk.ascending

theorem Carries.has_bound (h : Carries Q kernel s) (hk : a.IsKernel kernel) (i : Item)
    (t : TerminalId) (ht : s.Has i (some t)) : Q t := by
  obtain ⟨ts, hmem, ht⟩ := (h.ordered hk).has_some_iff.1 ht
  exact (h.entry _ hmem).2 t ht

theorem Carries.add {ts : List TerminalId} (h : Carries Q kernel s) (hk : a.IsKernel kernel)
    (hi : i ∈ kernel) (hts : ∀ t ∈ ts, Q t) : Carries Q kernel (s.add i ts) := by
  have hordered := h.ordered hk
  have hmem : i ∈ s.items := h.items ▸ hi
  refine ⟨(ItemSet.items_add_of_mem hordered hmem ts).trans h.items, fun y hy => ?_⟩
  obtain ⟨j, vs⟩ := y
  have hlookup := (hordered.add i ts).lookup_eq_some_iff.2 hy
  rw [hordered.lookup_add] at hlookup
  split at hlookup
  · have hsome := ItemSet.lookup_isSome_iff.2 hmem
    cases hus : s.lookup i with
    | none => rw [hus] at hsome; cases hsome
    | some us =>
      rw [hus] at hlookup
      obtain rfl : OrderedSet.union ts us = vs := Option.some.inj hlookup
      obtain ⟨hascending, hbound⟩ := h.entry _ (hordered.lookup_eq_some_iff.1 hus)
      refine ⟨OrderedSet.pairwise_union hascending, fun t ht => ?_⟩
      rcases OrderedSet.mem_union.1 ht with ht | ht
      · exact hts t ht
      · exact hbound t ht
  · exact h.entry _ (hordered.lookup_eq_some_iff.1 hlookup)

/-- A kernel that receives what moves to its items carries it, with all that it carried before. -/
theorem Carries.receive {closure : ItemSet} {x : Symbol} (h : Carries Q kernel s)
    (hk : a.IsKernel kernel) (hitems : ∀ y ∈ closure, a.next? y.1 = some x → y.1.advance ∈ kernel)
    (hbound : ∀ y ∈ closure, ∀ t ∈ y.2, Q t) :
    Carries Q kernel (a.receive closure x s) ∧
      ∀ i o, s.Has i o → (a.receive closure x s).Has i o := by
  rw [Analysis.receive]
  refine List.foldlRecOn (motive := fun s' => Carries Q kernel s' ∧ ∀ i o, s.Has i o → s'.Has i o)
    closure _ ⟨h, fun _ _ h => h⟩ fun s' hs' y hy => ?_
  obtain ⟨hcarries, hgrows⟩ := hs'
  obtain ⟨j, ts⟩ := y
  dsimp only
  split
  · next hnext =>
    have hitem := hitems _ hy (beq_iff_eq.1 hnext)
    refine ⟨hcarries.add hk hitem (hbound _ hy), fun i o ho => ?_⟩
    exact (hcarries.ordered hk).has_add.2 (.inl (hgrows i o ho))
  · exact ⟨hcarries, hgrows⟩

theorem Carries.weight_le {T : Nat} (h : Carries Q kernel s) (hQ : ∀ t, Q t → t < T) :
    s.weight ≤ kernel.length * (T + 1) := by
  rw [← h.items, ItemSet.items, List.length_map]
  refine sum_map_le fun y hy => ?_
  obtain ⟨hascending, hbound⟩ := h.entry y hy
  exact Nat.succ_le_succ (OrderedSet.length_le hascending fun t ht => hQ t (hbound t ht))

theorem Carries.length_le_weight (h : Carries Q kernel s) : kernel.length ≤ s.weight := by
  rw [← h.items, ItemSet.items, List.length_map, ItemSet.weight]
  clear h
  induction s with
  | nil => exact Nat.zero_le _
  | cons y s ih =>
    rw [List.length_cons, List.map_cons, List.sum_cons]
    omega

/-! ## The loop -/

/-- The kernels keep their items on the way, and the end of input follows the start item. -/
structure Settling (a : Analysis) (Q : TerminalId → Prop) (kernels : List (List Item))
    (settling : Array ItemSet) : Prop where
  carries : List.Forall₂ (Carries Q) kernels settling.toList
  finish : ∀ s, settling.toList[0]? = some s → s.Has a.startItem (some a.grammar.endTerminal)

variable {kernels : List (List Item)} {settling : Array ItemSet} {rows : List (List Transition)}

/-- The items of a closure do not depend on the lookaheads of the kernel. -/
theorem Carries.mem_closure (hg : g.Ranged) (hQ : (ofGrammar g).Bound Q)
    (hk : (ofGrammar g).IsKernel kernel) (h : Carries Q kernel s) :
    i ∈ ((ofGrammar g).closure s).items ↔ i ∈ (ofGrammar g).closureItems kernel := by
  have hhas : ((ofGrammar g).closure s).Has i none ↔ (ofGrammar g).Closes s i none :=
    has_closure_iff (inBounds hg) (h.ordered hk)
      fun i t ht => hQ.lt t (h.has_bound hk i t ht)
  have hbase : ∀ j, s.Has j none ↔ (bare kernel).Has j none := by
    intro j
    rw [ItemSet.Has, ItemSet.Has, h.items, items_bare]
  rw [hk.mem_closureItems hg]
  refine hhas.trans ⟨fun hc => hc.none_congr fun j => (hbase j).1,
    fun hc => hc.none_congr fun j => (hbase j).2⟩

theorem Carries.closure_bound (hg : g.Ranged) (hQ : (ofGrammar g).Bound Q)
    (hk : (ofGrammar g).IsKernel kernel) (h : Carries Q kernel s) :
    ∀ y ∈ (ofGrammar g).closure s, ∀ t ∈ y.2, Q t := by
  intro y hy t ht
  have hordered := h.ordered hk
  have hbelow : ∀ i t, s.Has i (some t) → t < (ofGrammar g).grammar.terminals.length :=
    fun i t ht => hQ.lt t (h.has_bound hk i t ht)
  have hhas := (ordered_closure (inBounds hg) hordered hbelow).has_some_iff.2 ⟨y.2, hy, ht⟩
  exact ((has_closure_iff (inBounds hg) hordered hbelow).1 hhas).bound hQ (h.has_bound hk) t rfl

/-- One transition of an explored row. -/
theorem Settling.pass (hex : (ofGrammar g).Explored kernels rows)
    (h : (ofGrammar g).Settling Q kernels settling) {closure : ItemSet} {t : Transition}
    (hitems : ∀ k, kernels[t.2]? = some k →
      ∀ y ∈ closure, (ofGrammar g).next? y.1 = some t.1 → y.1.advance ∈ k)
    (hbound : ∀ y ∈ closure, ∀ t ∈ y.2, Q t) :
    (ofGrammar g).Settling Q kernels ((ofGrammar g).pass closure settling t) := by
  have hk := fun (n : Nat) k (hn : kernels[n]? = some k) => hex.kernel k (List.mem_of_getElem? hn)
  constructor
  · rw [toList_pass]
    refine forall₂_modify h.carries fun k s hn hs => ?_
    exact (hs.receive (hk _ k hn) (hitems k hn) hbound).1
  · intro s hs
    rw [toList_pass, List.getElem?_modify] at hs
    obtain ⟨s', hs', rfl⟩ := Option.map_eq_some_iff.1 hs
    have hfinish := h.finish s' hs'
    split
    · next htarget =>
      obtain ⟨k, hn, hcarries⟩ := exists_of_forall₂ h.carries hs'
      exact (hcarries.receive (hk _ k hn) (hitems k (htarget ▸ hn)) hbound).2 _ _ hfinish
    · exact hfinish

/-- All transitions of an explored row. -/
theorem Settling.passRow (hg : g.Ranged) (hQ : (ofGrammar g).Bound Q)
    (hex : (ofGrammar g).Explored kernels rows) (h : (ofGrammar g).Settling Q kernels settling)
    {state : Nat} {row : List Transition} (hrow : rows[state]? = some row) :
    (ofGrammar g).Settling Q kernels
      (row.foldl ((ofGrammar g).pass ((ofGrammar g).closure (settling.getD state [])))
        settling) := by
  obtain ⟨k, hk, hisRow⟩ := hex.row state row hrow
  obtain ⟨s, hs, hcarries⟩ := exists_right_of_forall₂ h.carries hk
  rw [getD_of_toList hs]
  have hkernel := hex.kernel k (List.mem_of_getElem? hk)
  have hbound := hcarries.closure_bound hg hQ hkernel
  have hitems : ∀ t ∈ row, ∀ k', kernels[t.2]? = some k' → ∀ y ∈ (ofGrammar g).closure s,
      (ofGrammar g).next? y.1 = some t.1 → y.1.advance ∈ k' := by
    intro t ht k' hk' y hy hnext
    obtain ⟨m, hm, hmt, hget⟩ := exists_of_mem_right hisRow ht
    obtain rfl := Option.some.inj (hk'.symm.trans hget)
    obtain ⟨x, k''⟩ := m
    rw [hmt] at hnext
    rw [(mem_moves.1 hm).2]
    refine mem_movedPast.2 ⟨y.1, ?_, hnext, rfl⟩
    exact (hcarries.mem_closure hg hQ hkernel).1 (List.mem_map_of_mem hy)
  refine List.foldlRecOn row _ h fun settling' h' t ht => ?_
  exact h'.pass hex (hitems t ht) hbound

theorem Settling.passAll (hg : g.Ranged) (hQ : (ofGrammar g).Bound Q)
    (hex : (ofGrammar g).Explored kernels rows) (h : (ofGrammar g).Settling Q kernels settling) :
    (ofGrammar g).Settling Q kernels ((ofGrammar g).passAll rows settling) := by
  refine List.foldlRecOn rows.zipIdx _ h fun settling' h' y hy => ?_
  exact h'.passRow hg hQ hex (List.mk_mem_zipIdx_iff_getElem?.1 hy)

/-- The kernels without lookaheads, but for the end of input behind a whole sentence. -/
def blank (a : Analysis) (kernels : Array (List Item)) : Array ItemSet :=
  (kernels.map bare).setIfInBounds 0 [(a.startItem, [a.grammar.endTerminal])]

/-- The number of lookaheads that all items of all kernels may have. -/
def capacity (a : Analysis) (kernels : Array (List Item)) : Nat :=
  kernels.toList.flatten.length * a.grammar.terminals.length

theorem carries_bare (kernel : List Item) : Carries Q kernel (bare kernel) := by
  refine ⟨items_bare kernel, fun y hy => ?_⟩
  obtain ⟨i, -, rfl⟩ := List.mem_map.1 hy
  exact ⟨.nil, fun t ht => absurd ht List.not_mem_nil⟩

/-- The first kernel has the end of input behind its item, and the others have nothing. -/
theorem toList_blank {kernels : Array (List Item)} {others : List (List Item)}
    (h : kernels.toList = [a.startItem] :: others) :
    (a.blank kernels).toList =
      [(a.startItem, [a.grammar.endTerminal])] :: others.map bare := by
  rw [blank, Array.toList_setIfInBounds, Array.toList_map, h]
  rfl

theorem exists_others {kernels : List (List Item)} (h : kernels[0]? = some [a.startItem]) :
    ∃ others, kernels = [a.startItem] :: others := by
  cases kernels with
  | nil => cases h
  | cons k others => exact ⟨others, by rw [Option.some.inj h]⟩

theorem settling_blank (hQ : a.Bound Q) {kernels : Array (List Item)}
    (hfirst : kernels.toList[0]? = some [a.startItem]) :
    a.Settling Q kernels.toList (a.blank kernels) := by
  obtain ⟨others, hothers⟩ := exists_others hfirst
  constructor
  · rw [toList_blank hothers, hothers]
    refine .cons ⟨rfl, fun y hy => ?_⟩ ?_
    · rw [List.mem_singleton.1 hy]
      exact ⟨List.pairwise_singleton _ _, fun t ht => List.mem_singleton.1 ht ▸ hQ.finish⟩
    · rw [List.forall₂_map_right_iff, List.forall₂_same]
      exact fun k _ => carries_bare k
  · intro s hs
    rw [toList_blank hothers] at hs
    obtain rfl := Option.some.inj hs
    simp [ItemSet.Has, ItemSet.lookaheads]

/-- All kernels together have no more than their items and the lookaheads of each. -/
theorem Settling.weights_le (hQ : a.Bound Q) (h : a.Settling Q kernels settling) :
    weights settling ≤
      (kernels.map List.length).sum * (a.grammar.terminals.length + 1) := by
  have sum {ks : List (List Item)} {ss : List ItemSet} (hs : List.Forall₂ (Carries Q) ks ss) :
      (ss.map ItemSet.weight).sum ≤
        (ks.map List.length).sum * (a.grammar.terminals.length + 1) := by
    induction hs with
    | nil => exact Nat.zero_le _
    | cons hc _ ih =>
      have hle := hc.weight_le hQ.lt
      rw [List.map_cons, List.map_cons, List.sum_cons, List.sum_cons, Nat.add_mul]
      omega
  exact sum h.carries

theorem Settling.length_le_weights (h : a.Settling Q kernels settling) :
    (kernels.map List.length).sum ≤ weights settling := by
  have sum {ks : List (List Item)} {ss : List ItemSet} (hs : List.Forall₂ (Carries Q) ks ss) :
      (ks.map List.length).sum ≤ (ss.map ItemSet.weight).sum := by
    induction hs with
    | nil => exact Nat.le_refl _
    | cons hc _ ih =>
      have hle := hc.length_le_weight
      rw [List.map_cons, List.map_cons, List.sum_cons, List.sum_cons]
      omega
  exact sum h.carries

/-- The loop ends with kernels that another pass leaves alone. -/
theorem settle_settling (hg : g.Ranged) (hQ : (ofGrammar g).Bound Q)
    {kernels : Array (List Item)} (hex : (ofGrammar g).Explored kernels.toList rows) :
    let settled := (ofGrammar g).settle rows ((ofGrammar g).capacity kernels + 1)
      ((ofGrammar g).blank kernels)
    (ofGrammar g).Settling Q kernels.toList settled ∧
      (ofGrammar g).passAll rows settled = settled := by
  have hblank := settling_blank hQ hex.first
  refine settled ((ofGrammar g).settle rows)
    (P := (ofGrammar g).Settling Q kernels.toList) (fun n a => rfl)
    (fun k _ => enlarges_passAll (ofGrammar g) rows k) (fun k hk => hk.passAll hg hQ hex)
    (fun k hk => hk.weights_le hQ) _ _ hblank ?_
  have hle := hblank.length_le_weights
  have hcapacity : (ofGrammar g).capacity kernels =
      (kernels.toList.map List.length).sum * (ofGrammar g).grammar.terminals.length := by
    rw [capacity, List.length_flatten]
  rw [hcapacity, Nat.mul_succ]
  omega

end Analysis

end FluentGrammar
