import FluentGrammar.Proofs.Language.Trees
import Mathlib.Combinatorics.Pigeonhole
import Mathlib.Order.Monotone.Basic

/-
  Spines of derivation trees: the way from the root of a tree down to one of its subtrees, with the
  trees that stand before and behind it at every level. Trees from a nonterminal that comes back to
  itself can be put into their own spines over and over. Where the production at the root derives
  nothing in two ways, that limits what stands on the two sides: a spine with nothing before it
  branches off no further to the left than one with nothing behind it (`length_before_le`), and no
  spine has nothing on either side (`not_spine_of_empty`).
-/

namespace FluentGrammar

/-- A level of a spine: a production, and the trees before and behind the way down. -/
structure Level where
  production : ProductionId
  before : List Tree
  after : List Tree

namespace Tree

/-- The tree with a spine, around the tree that the spine leads to. -/
def plug : List Level → Tree → Tree
  | [], T => T
  | f :: fs, T => .node f.production (f.before ++ plug fs T :: f.after)

theorem weight_le_weight_plug (fs : List Level) (T : Tree) : T.weight ≤ (plug fs T).weight := by
  induction fs with
  | nil => exact Nat.le_refl _
  | cons f fs ih =>
    rw [plug, weight, weightOfAll_append, weightOfAll]
    omega

/-- What stands on a level is lighter than the tree. -/
theorem weightOfAll_before_lt (f : Level) (fs : List Level) (T : Tree) :
    weightOfAll f.before < (plug (f :: fs) T).weight := by
  rw [plug, weight, weightOfAll_append]
  omega

theorem weight_lt_weight_plug (f : Level) (fs : List Level) (T : Tree) :
    T.weight < (plug (f :: fs) T).weight := by
  have hle := weight_le_weight_plug fs T
  rw [plug, weight, weightOfAll_append, weightOfAll]
  omega

end Tree

namespace Grammar

/-- Spines from a nonterminal to a nonterminal, with the terminals before and behind them. -/
inductive Spine (g : Grammar) : NonterminalId → List Level → NonterminalId → List TerminalId →
    List TerminalId → Prop
  | here (l : NonterminalId) : Spine g l [] l [] []
  | down {p q α β ds es l m fs u u' v v'} : g.productions[p]? = some q →
      q.rhs = α ++ .nonterminal l :: β → g.Parses α ds u → g.Parses β es v →
      Spine g l fs m u' v' → Spine g q.lhs (⟨p, ds, es⟩ :: fs) m (u ++ u') (v' ++ v)

variable {g : Grammar} {l m k : NonterminalId} {fs gs : List Level} {p : ProductionId}
  {q : Production} {T : Tree} {cs ds ds' es es' : List Tree} {u u' v v' w : List TerminalId}

/-- The trees of a nonterminal are the nodes of its productions. -/
theorem Parses.of_node (hp : g.productions[p]? = some q)
    (h : g.Parses [.nonterminal l] [.node p cs] w) : g.Parses q.rhs cs w := by
  cases h with
  | nonterminal hp' _ hcs hv =>
    obtain rfl := Option.some.inj (hp.symm.trans hp')
    cases hv
    rwa [List.append_nil]

theorem Spine.parses (h : g.Spine l fs m u v) (hT : g.Parses [.nonterminal m] [T] w) :
    g.Parses [.nonterminal l] [Tree.plug fs T] (u ++ w ++ v) := by
  induction h with
  | here =>
    rw [List.nil_append, List.append_nil]
    exact hT
  | @down p q α β ds es l m fs u u' v v' hp hr hds hes _ ih =>
    have hbelow := hds.append ((ih hT).append hes)
    rw [List.singleton_append, List.singleton_append, ← hr] at hbelow
    have hnode : g.Parses [.nonterminal q.lhs] [Tree.plug (⟨p, ds, es⟩ :: fs) T] _ :=
      .nonterminal hp rfl hbelow .nil
    simpa using hnode

theorem Spine.trans (h : g.Spine l fs m u v) (h' : g.Spine m gs k u' v') :
    g.Spine l (fs ++ gs) k (u ++ u') (v' ++ v) := by
  induction h with
  | here =>
    rw [List.append_nil]
    exact h'
  | down hp hr hds hes _ ih =>
    rw [List.append_assoc, ← List.append_assoc v']
    exact .down hp hr hds hes (ih h')

/-- The right-hand side derives no sequence of terminals in two ways. -/
def Unambiguous (g : Grammar) (α : List Symbol) : Prop :=
  ∀ cs cs' u, g.Parses α cs u → g.Parses α cs' u → cs = cs'

section

variable (hp : g.productions[p]? = some q) (hq : g.Unambiguous q.rhs)
  (hl : ∃ w, g.Derives [.nonterminal l] w)

include hp hq hl

/-- Of two spines from a nonterminal to itself by one production, one with nothing before it
    branches off no further to the left than one with nothing behind it. -/
theorem length_before_le (hleft : g.Spine l (⟨p, ds, es⟩ :: fs) l [] v)
    (hright : g.Spine l (⟨p, ds', es'⟩ :: gs) l u []) : ds'.length ≤ ds.length := by
  obtain ⟨w, hw⟩ := hl
  obtain ⟨T, hts⟩ := exists_tree hw
  -- One spine inside the other derives the same, whichever is the outer one.
  have houter := hleft.parses (hright.parses hts)
  have hinner := hright.parses (hleft.parses hts)
  rw [List.append_nil, List.nil_append] at houter hinner
  rw [← List.append_assoc] at hinner
  have heq := hq _ _ _ (houter.of_node hp) (hinner.of_node hp)
  by_contra hlt
  rw [Nat.not_le] at hlt
  -- So what stands before the way down would hold the tree that it stands in.
  obtain ⟨more, hds', hmore⟩ | ⟨more, hds, -⟩ := List.append_eq_append_iff.1 heq
  · cases more with
    | nil =>
      have hlength := congrArg List.length hds'
      simp at hlength
      omega
    | cons X more =>
      obtain rfl := (List.cons.inj hmore).1
      have hweight := congrArg Tree.weightOfAll hds'
      have hbelow := Tree.weight_le_weight_plug fs (Tree.plug (⟨p, ds', es'⟩ :: gs) T)
      have hbefore := Tree.weightOfAll_before_lt ⟨p, ds', es'⟩ gs T
      rw [Tree.weightOfAll_append, Tree.weightOfAll] at hweight
      dsimp only at hweight hbefore
      omega
  · have hlength := congrArg List.length hds
    rw [List.length_append] at hlength
    dsimp only at hlength
    omega

/-- No spine from the nonterminal to itself by the production has nothing on either side. -/
theorem not_spine_of_empty : ¬g.Spine l (⟨p, ds, es⟩ :: fs) l [] [] := by
  intro h
  obtain ⟨w, hw⟩ := hl
  obtain ⟨T, hts⟩ := exists_tree hw
  have honce := h.parses hts
  rw [List.append_nil, List.nil_append] at honce
  have htwice := h.parses honce
  rw [List.append_nil, List.nil_append] at htwice
  -- Once and twice the spine derive the same, and only the latter is heavier.
  have heq := congrArg (Tree.node p) (hq _ _ _ (honce.of_node hp) (htwice.of_node hp))
  have hlt := Tree.weight_lt_weight_plug ⟨p, ds, es⟩ fs (Tree.plug (⟨p, ds, es⟩ :: fs) T)
  exact Nat.ne_of_lt hlt (congrArg Tree.weight heq)

end

/-! ## Nonterminals that unroll -/

/-- Nonterminals in a row without end. Each has a production for nonterminals right behind it in
    the row, the nearest last, and derives something with a tree: nothing, if it can. -/
structure Unrolling (g : Grammar) where
  symbol : Nat → NonterminalId
  rule : Nat → ProductionId
  production : Nat → Production
  size : Nat → Nat
  tree : Nat → Tree
  yield : Nat → List TerminalId
  getElem? : ∀ k, g.productions[rule k]? = some (production k)
  lhs : ∀ k, (production k).lhs = symbol k
  rhs : ∀ k, (production k).rhs =
    (List.range' (k + 1) (size k)).reverse.map fun i => .nonterminal (symbol i)
  unambiguous : ∀ k, g.Unambiguous (production k).rhs
  parses : ∀ k, g.Parses [.nonterminal (symbol k)] [tree k] (yield k)
  empty : ∀ k, g.Derives [.nonterminal (symbol k)] [] → yield k = []

namespace Unrolling

variable (U : g.Unrolling) {i j n : Nat}

theorem parses_map (is : List Nat) :
    g.Parses (is.map fun i => .nonterminal (U.symbol i)) (is.map U.tree) (is.flatMap U.yield) := by
  induction is with
  | nil => exact .nil
  | cons i is ih => exact (U.parses i).append ih

theorem flatMap_yield_eq_nil {d : Nat} (h : ∀ x, n ≤ x → x < n + d → U.yield x = []) :
    (List.range' n d).reverse.flatMap U.yield = [] := by
  rw [List.flatMap_eq_nil_iff]
  intro x hx
  rw [List.mem_reverse, List.mem_range'_1] at hx
  exact h x hx.1 hx.2

/-- The level that leads from a nonterminal to one in its right-hand side. -/
def level (k j : Nat) : Level where
  production := U.rule k
  before := (List.range' (j + 1) (k + U.size k - j)).reverse.map U.tree
  after := (List.range' (k + 1) (j - 1 - k)).reverse.map U.tree

/-- A step down to a nonterminal of the right-hand side. -/
theorem down {k : Nat} (hlt : k < j) (hle : j ≤ k + U.size k) (h : g.Spine (U.symbol j) fs m u v) :
    g.Spine (U.symbol k) (U.level k j :: fs) m
      ((List.range' (j + 1) (k + U.size k - j)).reverse.flatMap U.yield ++ u)
      (v ++ (List.range' (k + 1) (j - 1 - k)).reverse.flatMap U.yield) := by
  have hsize : U.size k = (j - 1 - k) + (1 + (k + U.size k - j)) := by omega
  have hmiddle : k + 1 + 1 * (j - 1 - k) = j := by omega
  have hsplit : List.range' (k + 1) (U.size k) =
      List.range' (k + 1) (j - 1 - k) ++ j :: List.range' (j + 1) (k + U.size k - j) := by
    conv_lhs => rw [hsize]
    rw [← List.range'_append, hmiddle, Nat.add_comm 1, List.range'_succ]
  have hr := U.rhs k
  rw [hsplit, List.reverse_append, List.reverse_cons, List.append_assoc, List.map_append,
    List.singleton_append, List.map_cons] at hr
  rw [← U.lhs k]
  exact .down (U.getElem? k) hr (U.parses_map _) (U.parses_map _) h

/-- A nonterminal that does not derive nothing has such a nonterminal in its right-hand side. -/
theorem exists_yield_ne_nil {k : Nat} (h : U.yield k ≠ []) :
    ∃ j, k < j ∧ j ≤ k + U.size k ∧ U.yield j ≠ [] := by
  by_contra hnone
  push Not at hnone
  have hempty := U.flatMap_yield_eq_nil (n := k + 1) (d := U.size k)
    fun j hlt hle => hnone j (by omega) (by omega)
  have hderives := (U.parses_map (List.range' (k + 1) (U.size k)).reverse).derives
  rw [hempty, ← U.rhs k] at hderives
  have hlhs := derives_nonterminal_iff.2
    ⟨U.production k, List.mem_of_getElem? (U.getElem? k), U.lhs k, hderives⟩
  exact h (U.empty k hlhs)

/-- The first nonterminal of the right-hand side that does not derive nothing. -/
def lead (k : Nat) : Nat := Nat.findGreatest (fun j => U.yield j ≠ []) (k + U.size k)

theorem lead_spec {k : Nat} (h : U.yield k ≠ []) : k < U.lead k ∧ U.lead k ≤ k + U.size k ∧
    U.yield (U.lead k) ≠ [] ∧ ∀ i, U.lead k < i → i ≤ k + U.size k → U.yield i = [] := by
  obtain ⟨j, hlt, hle, hj⟩ := U.exists_yield_ne_nil h
  have hlead : U.yield (U.lead k) ≠ [] :=
    Nat.findGreatest_spec (P := fun j => U.yield j ≠ []) hle hj
  refine ⟨hlt.trans_le (Nat.le_findGreatest hle hj), Nat.findGreatest_le _, hlead,
    fun i hi hile => ?_⟩
  by_contra hne
  exact Nat.findGreatest_is_greatest hi hile hne

/-- Following the first nonterminals that do not derive nothing. -/
def leads (k i : Nat) : Nat := U.lead^[i] k

theorem leads_succ (k i : Nat) : U.leads k (i + 1) = U.lead (U.leads k i) :=
  Function.iterate_succ_apply' U.lead i k

theorem yield_leads {k : Nat} (h : U.yield k ≠ []) (i : Nat) : U.yield (U.leads k i) ≠ [] := by
  induction i with
  | zero => exact h
  | succ i ih =>
    rw [leads_succ]
    exact (U.lead_spec ih).2.2.1

theorem leads_strictMono {k : Nat} (h : U.yield k ≠ []) : StrictMono (U.leads k) := by
  refine strictMono_nat_of_lt_succ fun i => ?_
  rw [leads_succ]
  exact (U.lead_spec (U.yield_leads h i)).1

/-- The spine along them has nothing before it, and nothing behind it where the nonterminals
    between them derive nothing. -/
theorem spine_leads {k : Nat} (h : U.yield k ≠ []) (i d : Nat) :
    ∃ v, g.Spine (U.symbol (U.leads k i))
        ((List.range' i d).map fun c => U.level (U.leads k c) (U.leads k (c + 1)))
        (U.symbol (U.leads k (i + d))) [] v ∧
      ((∀ c, i ≤ c → c < i + d → ∀ x, U.leads k c < x → x < U.leads k (c + 1) → U.yield x = []) →
        v = []) := by
  induction d generalizing i with
  | zero => exact ⟨[], .here _, fun _ => rfl⟩
  | succ d ih =>
    obtain ⟨v, hspine, hv⟩ := ih (i + 1)
    obtain ⟨hlt, hle, -, hlast⟩ := U.lead_spec (U.yield_leads h i)
    rw [← leads_succ] at hlt hle hlast
    have hdown := U.down hlt hle hspine
    have hbefore := U.flatMap_yield_eq_nil (n := U.leads k (i + 1) + 1)
      (d := U.leads k i + U.size (U.leads k i) - U.leads k (i + 1))
      fun x hx hx' => hlast x (by omega) (by omega)
    rw [hbefore, List.nil_append, Nat.add_right_comm, Nat.add_assoc i d 1] at hdown
    refine ⟨_, hdown, fun hbetween => ?_⟩
    rw [hv fun c hc hcd => hbetween c (by omega) (by omega), List.nil_append]
    exact U.flatMap_yield_eq_nil fun x hx hx' =>
      hbetween i (Nat.le_refl i) (by omega) x (by omega) (by omega)

/-- Following the last nonterminals that do not derive nothing visits all of them. The spine along
    them has nothing behind it. -/
theorem exists_spine_of_lt {k : Nat} (h : U.yield k ≠ []) (hj : U.yield j ≠ []) (hlt : k < j) :
    ∃ n fs u, k < n ∧ n ≤ j ∧ (∀ x, k < x → x < n → U.yield x = []) ∧
      g.Spine (U.symbol k) (U.level k n :: fs) (U.symbol j) u [] := by
  generalize hsize : j - k = size
  induction size using Nat.strong_induction_on generalizing k with
  | _ size ih =>
    have hex : ∃ n, k < n ∧ U.yield n ≠ [] := ⟨j, hlt, hj⟩
    obtain ⟨hkn, hn⟩ := Nat.find_spec hex
    have hleast {x : Nat} (hkx : k < x) (hx : U.yield x ≠ []) : Nat.find hex ≤ x :=
      Nat.find_min' hex ⟨hkx, hx⟩
    have hbetween : ∀ x, k < x → x < Nat.find hex → U.yield x = [] := by
      intro x hkx hx
      by_contra hne
      exact absurd (hleast hkx hne) (Nat.not_le.2 hx)
    obtain ⟨i, hki, hik, hi⟩ := U.exists_yield_ne_nil h
    have hbelow := (hleast hki hi).trans hik
    have hafter := U.flatMap_yield_eq_nil (n := k + 1) (d := Nat.find hex - 1 - k)
      fun x hx hx' => hbetween x (by omega) (by omega)
    have hnj := hleast hlt hj
    obtain ⟨fs, u, hrest⟩ :
        ∃ fs u, g.Spine (U.symbol (Nat.find hex)) fs (U.symbol j) u [] := by
      rcases Nat.eq_or_lt_of_le hnj with heq | hnj
      · exact ⟨[], [], heq ▸ .here _⟩
      · obtain ⟨n, fs, u, -, -, -, hspine⟩ := ih (j - Nat.find hex) (by omega) hn hnj rfl
        exact ⟨_, u, hspine⟩
    have hdown := U.down hkn hbelow hrest
    rw [hafter, List.append_nil] at hdown
    exact ⟨Nat.find hex, fs, _, hkn, hnj, hbetween, hdown⟩

theorem exists_spine_of_le {k : Nat} (h : U.yield k ≠ []) (hj : U.yield j ≠ []) (hle : k ≤ j) :
    ∃ fs u, g.Spine (U.symbol k) fs (U.symbol j) u [] := by
  rcases Nat.eq_or_lt_of_le hle with rfl | hlt
  · exact ⟨[], [], .here _⟩
  · obtain ⟨n, fs, u, -, -, -, hspine⟩ := U.exists_spine_of_lt h hj hlt
    exact ⟨_, u, hspine⟩

/-- Where the way along the first nonterminals comes back to a nonterminal, those between two of
    them derive nothing. -/
theorem yield_eq_nil_of_between {k a b c x : Nat} (h : U.yield k ≠ []) (hac : a ≤ c) (hcb : c < b)
    (hab : U.symbol (U.leads k a) = U.symbol (U.leads k b)) (hx : U.leads k c < x)
    (hx' : x < U.leads k (c + 1)) : U.yield x = [] := by
  have hmono := U.leads_strictMono h
  have hyield := U.yield_leads h
  -- Both ways round from the nonterminal to itself, with the same production at first:
  obtain ⟨v, hc, -⟩ := U.spine_leads h c (b - c)
  obtain ⟨v', ha, -⟩ := U.spine_leads h a (c - a)
  rw [Nat.add_sub_cancel' hac, hab] at ha
  rw [Nat.add_sub_cancel' (Nat.le_of_lt hcb)] at hc
  have hleft := hc.trans ha
  obtain ⟨n, fs, u, hn, hnb, hbetween, hc'⟩ :=
    U.exists_spine_of_lt (hyield c) (hyield b) (hmono hcb)
  obtain ⟨gs, u', ha'⟩ := U.exists_spine_of_le (hyield a) (hyield c) (hmono.monotone hac)
  rw [hab] at ha'
  have hright := hc'.trans ha'
  -- the one branches off at the first nonterminal, the other at the last.
  obtain ⟨e, he⟩ := Nat.exists_eq_add_of_lt hcb
  rw [show b - c = e + 1 by omega, List.range'_succ, List.map_cons, List.cons_append,
    List.nil_append] at hleft
  rw [List.cons_append, List.append_nil] at hright
  have hle := length_before_le (U.getElem? (U.leads k c)) (U.unambiguous (U.leads k c))
    ⟨_, (U.parses (U.leads k c)).derives⟩ hleft hright
  obtain ⟨-, hsize, hne, -⟩ := U.lead_spec (hyield c)
  rw [← leads_succ] at hsize hne
  simp only [List.length_map, List.length_reverse, List.length_range'] at hle
  have hnlead : n = U.leads k (c + 1) := by
    by_contra hnot
    rcases Nat.lt_or_gt_of_ne hnot with hlt | hgt
    · omega
    · exact hne (hbetween _ (hmono (Nat.lt_succ_self c)) hgt)
  exact hbetween x hx (hnlead ▸ hx')

/-- When there are finitely many nonterminals, all of them derive nothing. -/
theorem yield_eq_nil {bound : Nat} (hbound : ∀ k, U.symbol k < bound) (k : Nat) :
    U.yield k = [] := by
  by_contra h
  obtain ⟨a, b, hlt, hab⟩ : ∃ a b, a < b ∧ U.symbol (U.leads k a) = U.symbol (U.leads k b) := by
    have hmaps : ∀ i ∈ Finset.range (bound + 1), U.symbol (U.leads k i) ∈ Finset.range bound :=
      fun i _ => Finset.mem_range.2 (hbound _)
    obtain ⟨a, -, b, -, hne, heq⟩ := Finset.exists_ne_map_eq_of_card_lt_of_maps_to (by simp) hmaps
    rcases Nat.lt_or_gt_of_ne hne with hlt | hgt
    · exact ⟨a, b, hlt, heq⟩
    · exact ⟨b, a, hgt, heq.symm⟩
  obtain ⟨v, hspine, hv⟩ := U.spine_leads h a (b - a)
  rw [Nat.add_sub_cancel' (Nat.le_of_lt hlt), ← hab] at hspine
  obtain rfl : v = [] := by
    refine hv fun c hac hcb x hx hx' => ?_
    exact U.yield_eq_nil_of_between h hac (by omega) hab hx hx'
  obtain ⟨e, he⟩ := Nat.exists_eq_add_of_lt hlt
  rw [show b - a = e + 1 by omega, List.range'_succ, List.map_cons] at hspine
  exact not_spine_of_empty (U.getElem? _) (U.unambiguous _) ⟨_, (U.parses _).derives⟩ hspine

end Unrolling

/-- In a row without end of finitely many nonterminals that derive something, with productions for
    stretches right behind each that derive nothing in two ways, all derive nothing. -/
theorem derives_nil_of_row {symbol : Nat → NonterminalId} {bound : Nat}
    (hbound : ∀ k, symbol k < bound) (hsome : ∀ k, ∃ w, g.Derives [.nonterminal (symbol k)] w)
    (hrule : ∀ k, ∃ (p : ProductionId) (q : Production) (d : Nat), g.productions[p]? = some q ∧
      q.lhs = symbol k ∧
      q.rhs = ((List.range' (k + 1) d).reverse.map fun i => .nonterminal (symbol i)) ∧
      g.Unambiguous q.rhs) (k : Nat) : g.Derives [.nonterminal (symbol k)] [] := by
  have htree : ∀ k, ∃ T w, g.Parses [.nonterminal (symbol k)] [T] w ∧
      (g.Derives [.nonterminal (symbol k)] [] → w = []) := by
    intro k
    by_cases hempty : g.Derives [.nonterminal (symbol k)] []
    · obtain ⟨T, hT⟩ := exists_tree hempty
      exact ⟨T, [], hT, fun _ => rfl⟩
    · obtain ⟨w, hw⟩ := hsome k
      obtain ⟨T, hT⟩ := exists_tree hw
      exact ⟨T, w, hT, fun hnil => absurd hnil hempty⟩
  choose rule production size hq hl hr hunambiguous using hrule
  choose tree yield hparses hempty using htree
  let U : g.Unrolling := ⟨symbol, rule, production, size, tree, yield, hq, hl, hr, hunambiguous,
    hparses, hempty⟩
  have hderives := (hparses k).derives
  rwa [show yield k = [] from U.yield_eq_nil hbound k] at hderives

end Grammar

end FluentGrammar
