import FluentGrammar.Proofs.Automaton.Visits
import FluentGrammar.Proofs.Lowering.Lower

/-
  Visiting states until none waits gives the states of the automaton (`Working.exists_visits`).
  When no state waits, the lookaheads found solve the equations, and they are no more than the
  least solution because no delivery is more. There is an end of visits because a state that starts
  to wait has grown. For a lowered grammar all that is said of its states comes together in
  `Rules.lower_states`.
-/

namespace FluentGrammar

open Analysis Report

namespace Worklist

variable {g : Grammar} {w : Worklist} {n : Nat} {rows : List (List Transition)}

/-! ## When no state waits -/

/-- What may follow the items of the drafts. -/
def found (w : Worklist) (n : Nat) (i : Item) : Set TerminalId :=
  {t | ∃ d, w.drafts[n]? = some d ∧ d.kernel.Has i (some t)}

/-- When no state waits, all states have been explored. -/
theorem Working.explored (h : w.Working g rows)
    (hqueue : w.queue = []) : w.keys = (ofGrammar g).skeleton.1.toList ∧
      w.rows = (ofGrammar g).skeleton.2 ∧ w.rows = rows := by
  have hpending := h.pending
  rw [Pending, hqueue, List.filter_nil] at hpending
  have hlength : w.drafts.length - rows.length = 0 := by
    simpa using (congrArg List.length hpending).symm
  have hrows : w.rows = rows := by
    rw [h.tracks.rows, hlength, List.replicate_zero, List.append_nil]
  have hnone : w.keys.toArray[rows.length]? = none := by
    rw [List.getElem?_toArray, List.getElem?_eq_none_iff, length_keys]
    omega
  have hrest : (w.keys.toArray, rows) = (ofGrammar g).skeleton := by
    rw [← h.tracks.rest]
    cases Nat.pow 2 (ofGrammar g).itemCount + 1 - rows.length with
    | zero => rw [explore, List.reverse_reverse]
    | succ fuel =>
      rw [explore, hnone]
      dsimp only
      rw [List.reverse_reverse]
  rw [← hrest]
  exact ⟨rfl, hrows, hrows⟩

/-- The drafts are those of the states, when no state waits. -/
theorem Working.exists_draft {st : ItemState} (hg : g.Ranged)
    (h : w.Working g rows) (hqueue : w.queue = [])
    (hst : (ofGrammar g).states[n]? = some st) :
    ∃ d, w.drafts[n]? = some d ∧ d.kernel.items = st.kernel.items ∧
      rows[n]? = some st.transitions := by
  obtain ⟨hkeys, hrows, heq⟩ := h.explored hqueue
  have hm := madeOf_settle hg (bound_lt hg)
  have hkey := (hm.getElem?_kernels hst).1
  rw [← hkeys, keys, List.getElem?_map] at hkey
  obtain ⟨d, hd, hitems⟩ := Option.map_eq_some_iff.1 hkey
  refine ⟨d, hd, (h.sound.items hd).trans hitems, ?_⟩
  rw [← heq, hrows]
  exact ((hm.states n st).1 hst).2

/-- When no state waits, the lookaheads found solve the equations. -/
theorem Working.propagate_le (hg : g.Ranged)
    (h : w.Working g rows) (hqueue : w.queue = []) :
    g.propagate (ofGrammar g).states w.found ≤ w.found := by
  rintro m j t (⟨rfl, rfl, rfl⟩ | ⟨n, st, x, i, hst, hmem, hspreads, hx, rfl⟩)
  · obtain ⟨st, hst, -⟩ := exists_first_state hg
    obtain ⟨d, hd, -⟩ := h.exists_draft hg hqueue hst
    exact ⟨d, hd, h.finish d hd⟩
  · obtain ⟨d, hd, hitems, hrow⟩ := h.exists_draft hg hqueue hst
    have hfound : w.found n = fun j => {t | d.kernel.Has j (some t)} := by
      funext j
      ext t
      constructor
      · rintro ⟨d', hd', ht⟩
        obtain rfl := Option.some.inj (hd.symm.trans hd')
        exact ht
      · exact fun ht => ⟨d, hd, ht⟩
    have hfits := h.sound.fits_of_getElem? hd
    have hclosure : ((ofGrammar g).closure d.kernel).Has i (some t) := by
      rw [hfits.has_closure_iff hg, closes_some_iff hg, hitems, ← hfound]
      exact hspreads
    obtain ⟨ts, hts, ht⟩ := (hfits.ordered_closure hg).has_some_iff.1 hclosure
    obtain ⟨d₁, hd₁, hpassed⟩ := h.passed n _ hrow (by rw [hqueue]; exact List.not_mem_nil)
    obtain rfl := Option.some.inj (hd.symm.trans hd₁)
    obtain ⟨d', hd', hhas⟩ := hpassed _ hmem _ hts hx
    exact ⟨d', hd', hhas t ht⟩

/-- Visits that have come to an end have found the states. -/
theorem Working.states_eq (hg : g.Ranged)
    (h : w.Working g rows) (hqueue : w.queue = []) : w.states = (ofGrammar g).states := by
  obtain ⟨hkeys, -, heq⟩ := h.explored hqueue
  refine List.ext_getElem? fun n => ?_
  rw [Worklist.states, List.getElem?_zipWith, heq]
  cases hst : (ofGrammar g).states[n]? with
  | none =>
    rw [List.getElem?_eq_none_iff, length_states hg, ← hkeys, length_keys] at hst
    rw [List.getElem?_eq_none hst]
  | some st =>
    obtain ⟨d, hd, hitems, hrow⟩ := h.exists_draft hg hqueue hst
    have hfits := h.sound.fits_of_getElem? hd
    obtain ⟨kernel, -, hk, hcarries, -⟩ := (madeOf_settle hg (bound_lt hg)).state hst
    obtain rfl := hcarries.items
    have hkernel : d.kernel = st.kernel := by
      have hcarries' := hitems ▸ hfits.carries
      refine Carries.eq_of_has_iff hk hcarries' hcarries fun i t => ⟨?_, fun ht => ?_⟩
      · exact hfits.within n st hst hitems.symm i t
      · have hfound := lookaheads_le hg (h.propagate_le hg hqueue) n i ((mem_lookaheads hst).2 ht)
        obtain ⟨d', hd', ht'⟩ := hfound
        obtain rfl := Option.some.inj (hd.symm.trans hd')
        exact ht'
    rw [hd, hrow]
    dsimp only
    rw [hkernel]

/-- A bound on the items and lookaheads of all states. -/
def room (a : Analysis) : Nat :=
  (a.skeleton.1.toList.map fun k => k.length * (a.grammar.terminals.length + 1)).sum

theorem Working.weight_le (h : w.Working g rows) :
    w.weight ≤ room (ofGrammar g) := by
  have hdrafts : w.weight ≤ (w.keys.map fun k =>
      k.length * ((ofGrammar g).grammar.terminals.length + 1)).sum := by
    rw [keys, List.map_map]
    refine List.sum_le_sum fun d hd => ?_
    obtain ⟨hitems, hfits⟩ := h.sound.fits d hd
    rw [Function.comp, ← hitems]
    exact hfits.carries.weight_le fun _ ht => ht
  obtain ⟨more, hmore⟩ := h.tracks.keys_prefix
  rw [room, ← hmore, List.map_append, List.sum_append]
  omega

/-- There is an end of visits, because a state that starts to wait has grown. -/
theorem Working.exists_visits (hg : g.Ranged)
    (h : w.Working g rows) : ∃ k, ((Worklist.visit (ofGrammar g))^[k] w).queue = [] ∧
      ((Worklist.visit (ofGrammar g))^[k] w).states = (ofGrammar g).states := by
  generalize hsize : w.queue.length + (room (ofGrammar g) - w.weight) = size
  induction size using Nat.strong_induction_on generalizing w rows with
  | _ size ih =>
    cases hqueue : w.queue with
    | nil => exact ⟨0, hqueue, h.states_eq hg hqueue⟩
    | cons n queue =>
      obtain ⟨rows', h', hgrows⟩ := h.visit hg hqueue
      have hcount := hgrows.count
      have hle := h'.weight_le
      have hlength : (w.leave n queue).queue.length = queue.length := rfl
      rw [weight_leave, hlength] at hcount
      rw [hqueue, List.length_cons] at hsize
      obtain ⟨k, hk⟩ := ih _ (by omega) h' rfl
      exact ⟨k + 1, hk⟩

theorem fits_start (hg : g.Ranged) :
    Fits g [((ofGrammar g).startItem, [(ofGrammar g).grammar.endTerminal])] where
  kernel := (explored_start g).kernel _ (List.mem_singleton_self _)
  entry := by
    rintro y hy
    obtain rfl := List.mem_singleton.1 hy
    exact ⟨List.pairwise_singleton _ _, fun t ht => List.mem_singleton.1 ht ▸ hg.endTerminal_lt⟩
  within m st hst hitems i t hi := by
    obtain ⟨st', hst', hcore⟩ := exists_first_state hg
    have hcore' : st.core = {(ofGrammar g).startItem} := by
      rw [ItemState.core, hitems]
      exact Set.ext fun j => List.mem_singleton
    obtain rfl := eq_of_core_eq hg hst hst' (hcore'.trans hcore.symm)
    simp only [ItemSet.Has, ItemSet.lookaheads, List.lookup_cons] at hi
    split at hi
    · next hi' =>
      obtain rfl := beq_iff_eq.1 hi'
      obtain rfl := List.mem_singleton.1 hi
      exact (mem_lookaheads hst).1
        (mem_lookaheads_of_knows hg hst (hcore' ▸ rfl) (knows_start hg))
    · exact absurd hi List.not_mem_nil

theorem working_start (hg : g.Ranged) : (start (ofGrammar g)).Working g [] where
  tracks := ⟨explored_start g, rfl, Nat.zero_le _, rfl⟩
  sound := by
    refine ⟨fun d hd => ?_, fun k d hd => ?_, fun k hk => ?_, List.nodup_singleton 0⟩
    · obtain rfl := List.mem_singleton.1 hd
      exact ⟨rfl, fits_start hg⟩
    · cases k with
      | zero =>
        obtain rfl := Option.some.inj hd
        exact iff_of_true rfl (List.mem_singleton_self 0)
      | succ k => cases hd
    · obtain rfl := List.mem_singleton.1 hk
      exact Nat.one_pos
  pending := rfl
  passed k row hrow := by cases hrow
  finish d hd := by
    obtain rfl := Option.some.inj hd
    simp [ItemSet.Has, ItemSet.lookaheads]

/-- The list after so many visits. -/
def visits (g : Grammar) (k : Nat) : Worklist := (visit (ofGrammar g))^[k] (start (ofGrammar g))

theorem exists_working_visits (hg : g.Ranged) (k : Nat) :
    ∃ rows, (visits g k).Working g rows := by
  induction k with
  | zero => exact ⟨[], working_start hg⟩
  | succ k ih =>
    obtain ⟨rows, h⟩ := ih
    rw [visits, Function.iterate_succ_apply']
    cases hqueue : (visits g k).queue with
    | nil =>
      have hsame : visit (ofGrammar g) (visits g k) = visits g k := by rw [visit, hqueue]
      exact ⟨rows, hsame.symm ▸ h⟩
    | cons n queue =>
      obtain ⟨rows', h', -⟩ := h.visit hg hqueue
      exact ⟨rows', h'⟩

/-- States keep their numbers and their items, and no lookahead is lost. -/
def Keeps (w w' : Worklist) : Prop :=
  ∀ (n : Nat) d, w.drafts[n]? = some d → ∃ d', w'.drafts[n]? = some d' ∧ d'.items = d.items ∧
    ∀ i t, d.kernel.Has i (some t) → d'.kernel.Has i (some t)

theorem Grows.keeps {w' : Worklist} {n : Nat} {queue : List Nat}
    (h : (w.leave n queue).Grows w') :
    w.Keeps w' := by
  intro k d hd
  obtain ⟨d₀, hd₀, hitems₀, hkernel₀⟩ := exists_leave hd n queue
  obtain ⟨d', hd', hitems, hle, -⟩ := h.kept k d₀ hd₀
  exact ⟨d', hd', hitems.trans hitems₀, fun i t hi => hle i _ (hkernel₀ ▸ hi)⟩

theorem keeps_visits (hg : g.Ranged) (k : Nat) : (visits g k).Keeps (visits g (k + 1)) := by
  obtain ⟨rows, h⟩ := exists_working_visits hg k
  have hsucc : visits g (k + 1) = visit (ofGrammar g) (visits g k) := by
    rw [visits, Function.iterate_succ_apply']
    rfl
  rw [hsucc]
  cases hqueue : (visits g k).queue with
  | nil =>
    have hsame : visit (ofGrammar g) (visits g k) = visits g k := by rw [visit, hqueue]
    exact fun n d hd => ⟨d, hsame.symm ▸ hd, rfl, fun _ _ hi => hi⟩
  | cons m queue =>
    obtain ⟨-, -, hgrows⟩ := h.visit hg hqueue
    exact hgrows.keeps

end Worklist

/-! ## The states of a lowered grammar -/

namespace Rules

variable {rules : Rules} {catalog : Catalog} {lowering : Lowering} {g : Grammar}
  {ds : List Diagnostic}

/-- The states of a lowered grammar are the collection of the augmented grammar, numbered breadth
    first. The lookaheads of their kernels are the least solution of the equations, and their
    closures have the items and the lookaheads that spread from there. Visiting states from a queue,
    discovering them and passing lookaheads along at once, ends with these states, and on the way no
    visit changes a number or loses a lookahead. -/
theorem lower_states (hrefs : rules.RefsInRange)
    (hactions : ∀ t ∈ rules.actions, t < catalog.size)
    (h : rules.lower catalog lowering = .ok (g, ds)) :
    IsCollection g (ofGrammar g).states ∧
      IsLeast {L | g.propagate (ofGrammar g).states L = L} (lookaheads (ofGrammar g).states) ∧
      (∀ (n : Nat) s, (ofGrammar g).states[n]? = some s → ∀ i,
        (((ofGrammar g).closure s.kernel).Has i none ↔ g.Closure s.core i) ∧
        ∀ t, ((ofGrammar g).closure s.kernel).Has i (some t) ↔
          g.Spreads s.core (lookaheads (ofGrammar g).states n) i t) ∧
      (∃ k, (Worklist.visits g k).queue = [] ∧
        (Worklist.visits g k).states = (ofGrammar g).states) ∧
      ∀ k, (Worklist.visits g k).Keeps (Worklist.visits g (k + 1)) := by
  have hg := (lower_wellFormed hrefs hactions h).ranged
  refine ⟨states_isCollection hg, isLeast_lookaheads hg, fun n s hs i => ?_,
    (Worklist.working_start hg).exists_visits hg, Worklist.keeps_visits hg⟩
  exact ⟨(knows_iff_of_state hs).symm.trans (knows_none_iff hg hs),
    fun t => (knows_iff_of_state hs).symm.trans (knows_some_iff hg hs)⟩

/-- A rule that refers to itself between two actions, `s : X s? T ;`. -/
def enclosed : Rules :=
  ⟨[⟨"s", default, .seq [.terminal 0, .repeated (.rule 0) .optional, .terminal 1]⟩]⟩

/-- The second state of `enclosed` leads to itself. It is found with the end of input behind its
    item, and `T` comes to stand there when it has been visited. -/
theorem exists_lower_enclosed_states : ∃ g ds, enclosed.lower twoActions .direct = .ok (g, ds) ∧
    (∃ s, (ofGrammar g).states[1]? = some s ∧ (.terminal 0, 1) ∈ s.transitions ∧
      s.kernel = [(⟨2, 1⟩, [1, 2])]) ∧
    (∃ k, (Worklist.visits g k).queue = [] ∧
      (Worklist.visits g k).states = (ofGrammar g).states) ∧
    ((Worklist.visits g 1).drafts.map (·.kernel))[1]? = some [(⟨2, 1⟩, [2])] := by
  obtain ⟨⟨g, ds⟩, h⟩ := exists_eq_ok
    (show (enclosed.lower twoActions .direct).toOption.isSome = true by decide +kernel)
  have hstate : ((enclosed.lower twoActions .direct).toOption.bind fun x =>
      (ofGrammar x.1).states[1]?).map (fun s => (s.transitions.head?, s.kernel)) =
        some (some (.terminal 0, 1), [(⟨2, 1⟩, [1, 2])]) := by decide +kernel
  have hvisit : ((enclosed.lower twoActions .direct).toOption.bind fun x =>
      ((Worklist.visits x.1 1).drafts.map (·.kernel))[1]?) = some [(⟨2, 1⟩, [2])] := by
    decide +kernel
  rw [h] at hstate hvisit
  obtain ⟨-, -, -, hvisits, -⟩ := lower_states (by decide) (by decide) h
  obtain ⟨s, hs, heq⟩ := Option.map_eq_some_iff.1 hstate
  obtain ⟨htransition, hkernel⟩ := Prod.mk.inj heq
  exact ⟨g, ds, h, ⟨s, hs, List.mem_of_mem_head? htransition, hkernel⟩, hvisits, hvisit⟩

end Rules

end FluentGrammar
