import FluentGrammar.Proofs.Automaton.Deliveries

/-
  What a visit keeps. A delivery changes the lookaheads of one draft or adds a draft (`Delivers`).
  It keeps all numbers and lookaheads, and a state that grows waits again (`Grows`), so each state
  that has been visited waits or has passed on all that it has (`Working.visit`).
-/

namespace FluentGrammar

open Analysis

namespace Worklist

variable {g : Grammar} {w w' w'' : Worklist} {n m k v : Nat} {d d' : Draft} {more : ItemSet}
  {moves : List (Symbol × ItemSet)}

/-! ## One delivery -/

/-- What a delivery does to the states and to the queue. -/
inductive Delivers (w : Worklist) (more : ItemSet) : Worklist → Prop
  /-- The lookaheads of a state stay as they are, or it waits already. -/
  | added (m : Nat) (d : Draft) (rows : List (List Transition)) :
      w.drafts[m]? = some d → d.items = more.items →
      d.kernel.addAll more = d.kernel ∨ d.waiting = true →
      Delivers w more
        ⟨w.drafts.set m { d with kernel := d.kernel.addAll more }, rows, w.queue⟩
  /-- They grow, and the state starts to wait. -/
  | woken (m : Nat) (d : Draft) (rows : List (List Transition)) :
      w.drafts[m]? = some d → d.items = more.items →
      d.kernel.addAll more ≠ d.kernel → d.waiting = false →
      Delivers w more
        ⟨w.drafts.set m { d with kernel := d.kernel.addAll more, waiting := true }, rows,
          w.queue ++ [m]⟩
  /-- A new state waits. -/
  | pushed (rows : List (List Transition)) : Delivers w more
      ⟨w.drafts ++ [⟨more.items, more, true⟩], rows, w.queue ++ [w.drafts.length]⟩

theorem delivers_deliver (w : Worklist) (n : Nat) (move : Symbol × ItemSet) :
    w.Delivers move.2 (w.deliver n move) := by
  rw [deliver]
  split
  · next m hfind =>
    obtain ⟨hlt, hitems, -⟩ := List.findIdx?_eq_some_iff_getElem.1 hfind
    have hd := List.getElem?_eq_getElem hlt
    have hitems' : w.drafts[m].items = move.2.items := by simpa using hitems
    rw [extend, hd]
    dsimp only
    split
    · next h => exact .added m _ _ hd hitems' h
    · next h =>
      obtain ⟨hne, hwaiting⟩ := not_or.1 h
      exact .woken m _ _ hd hitems' hne (by simpa using hwaiting)
  · exact .pushed _

/-- The drafts are on the way to the states, and the queue has those that wait. -/
structure Sound (g : Grammar) (w : Worklist) : Prop where
  fits : ∀ d ∈ w.drafts, d.kernel.items = d.items ∧ Fits g d.kernel
  waiting : ∀ (k : Nat) d, w.drafts[k]? = some d → (d.waiting = true ↔ k ∈ w.queue)
  lt : ∀ k ∈ w.queue, k < w.drafts.length
  nodup : w.queue.Nodup

/-- The states from number `v` on wait in the order of their numbers. -/
def Pending (v : Nat) (w : Worklist) : Prop :=
  w.queue.filter (v ≤ ·) = List.range' v (w.drafts.length - v)

/-- The items and lookaheads of all drafts, counted. -/
def weight (w : Worklist) : Nat := (w.drafts.map fun d => d.kernel.weight).sum

/-- The state is new, or it has gained a lookahead. -/
def Gains (w w' : Worklist) (m : Nat) : Prop :=
  w.drafts.length ≤ m ∨ ∃ d d', w.drafts[m]? = some d ∧ w'.drafts[m]? = some d' ∧
    ∃ i t, d'.kernel.Has i (some t) ∧ ¬d.kernel.Has i (some t)

/-- Nothing is lost: states keep their numbers and lookaheads and go on waiting, and they change
    only when they wait afterwards. States that start to wait have grown. -/
structure Grows (w w' : Worklist) : Prop where
  kept : ∀ (k : Nat) d, w.drafts[k]? = some d → ∃ d', w'.drafts[k]? = some d' ∧
    d'.items = d.items ∧ (∀ i o, d.kernel.Has i o → d'.kernel.Has i o) ∧
      (k ∉ w'.queue → d'.kernel = d.kernel)
  queue : ∃ woken, w'.queue = w.queue ++ woken ∧ ∀ m ∈ woken, w.Gains w' m
  pending : ∀ v ≤ w.drafts.length, w.Pending v → w'.Pending v
  count : w'.queue.length + w.weight ≤ w.queue.length + w'.weight

theorem Grows.refl (w : Worklist) : w.Grows w where
  kept _ d hd := ⟨d, hd, rfl, fun _ _ h => h, fun _ => rfl⟩
  queue := ⟨[], (List.append_nil _).symm, fun _ hm => absurd hm List.not_mem_nil⟩
  pending _ _ h := h
  count := Nat.le_refl _

theorem Grows.length_le (h : w.Grows w') : w.drafts.length ≤ w'.drafts.length := by
  refine Nat.le_of_not_lt fun hlt => ?_
  obtain ⟨d', hd', -⟩ := h.kept _ _ (List.getElem?_eq_getElem hlt)
  exact Nat.lt_irrefl _ (List.getElem?_eq_some_iff.1 hd').1

/-- What waits goes on waiting. -/
theorem Grows.subset (h : w.Grows w') : w.queue ⊆ w'.queue := by
  obtain ⟨woken, hqueue, -⟩ := h.queue
  rw [hqueue]
  exact List.subset_append_left _ _

/-- A state that gains something has gained it whatever comes before or after. -/
theorem Gains.before (h : w.Grows w') (hm : w'.Gains w'' m) : w.Gains w'' m := by
  obtain hnew | ⟨d', d'', hd', hd'', i, t, hhas, hnone⟩ := hm
  · exact .inl (h.length_le.trans hnew)
  · refine (Nat.lt_or_ge m w.drafts.length).symm.imp id fun hlt => ?_
    have hd := List.getElem?_eq_getElem hlt
    obtain ⟨e, he, -, hle, -⟩ := h.kept m _ hd
    obtain rfl := Option.some.inj (hd'.symm.trans he)
    exact ⟨_, d'', hd, hd'', i, t, hhas, fun hi => hnone (hle i _ hi)⟩

theorem Gains.after (hm : w.Gains w' m) (h : w'.Grows w'') : w.Gains w'' m := by
  refine hm.imp id fun hm => ?_
  obtain ⟨d, d', hd, hd', i, t, hhas, hnone⟩ := hm
  obtain ⟨d'', hd'', -, hle, -⟩ := h.kept m d' hd'
  exact ⟨d, d'', hd, hd'', i, t, hle i _ hhas, hnone⟩

theorem Grows.trans (h : w.Grows w') (h' : w'.Grows w'') : w.Grows w'' where
  kept k d hd := by
    obtain ⟨d', hd', hitems, hle, heq⟩ := h.kept k d hd
    obtain ⟨d'', hd'', hitems', hle', heq'⟩ := h'.kept k d' hd'
    refine ⟨d'', hd'', hitems'.trans hitems, fun i o hi => hle' i o (hle i o hi), fun hk => ?_⟩
    exact (heq' hk).trans (heq fun hk' => hk (h'.subset hk'))
  queue := by
    obtain ⟨woken, hqueue, hgains⟩ := h.queue
    obtain ⟨woken', hqueue', hgains'⟩ := h'.queue
    refine ⟨woken ++ woken', by rw [hqueue', hqueue, List.append_assoc], fun m hm => ?_⟩
    rcases List.mem_append.1 hm with hm | hm
    · exact (hgains m hm).after h'
    · exact (hgains' m hm).before h
  pending v hv hp := h'.pending v (hv.trans h.length_le) (h.pending v hv hp)
  count := by
    have := h.count
    have := h'.count
    omega

theorem Sound.items (h : w.Sound g) (hd : w.drafts[m]? = some d) : d.kernel.items = d.items :=
  (h.fits d (List.mem_of_getElem? hd)).1

theorem Sound.fits_of_getElem? (h : w.Sound g) (hd : w.drafts[m]? = some d) : Fits g d.kernel :=
  (h.fits d (List.mem_of_getElem? hd)).2

/-- A draft to which a delivery is added. -/
theorem Sound.fits_addAll (h : w.Sound g) (hmore : Fits g more) (hd : w.drafts[m]? = some d)
    (hitems : d.items = more.items) :
    (d.kernel.addAll more).items = d.items ∧ Fits g (d.kernel.addAll more) := by
  obtain ⟨heq, hfits⟩ := (h.fits_of_getElem? hd).addAll hmore ((h.items hd).trans hitems)
  exact ⟨heq.trans (h.items hd), hfits⟩

theorem Sound.fits_of_mem_set (h : w.Sound g) (hmore : Fits g more) (hd : w.drafts[m]? = some d)
    (hitems : d.items = more.items) {waiting : Bool} :
    ∀ e ∈ w.drafts.set m ⟨d.items, d.kernel.addAll more, waiting⟩,
      e.kernel.items = e.items ∧ Fits g e.kernel := by
  intro e he
  rcases List.mem_or_eq_of_mem_set he with he | rfl
  · exact h.fits e he
  · exact h.fits_addAll hmore hd hitems

theorem Sound.not_mem_queue (h : w.Sound g) (hd : w.drafts[m]? = some d)
    (hwaiting : d.waiting = false) : m ∉ w.queue := by
  intro hm
  rw [(h.waiting m d hd).2 hm] at hwaiting
  cases hwaiting

theorem Sound.length_not_mem_queue (h : w.Sound g) : w.drafts.length ∉ w.queue :=
  fun hm => Nat.lt_irrefl _ (h.lt _ hm)

theorem nodup_append_singleton {queue : List Nat} (h : queue.Nodup) (hm : m ∉ queue) :
    (queue ++ [m]).Nodup := by
  rw [← List.concat_eq_append]
  exact h.concat hm

theorem Delivers.sound (h : w.Sound g) (hmore : Fits g more) (hdelivers : w.Delivers more w') :
    w'.Sound g := by
  cases hdelivers with
  | added m d rows hd hitems _ =>
    refine ⟨h.fits_of_mem_set hmore hd hitems, fun k d' hd' => ?_, fun k hk => ?_, h.nodup⟩
    · rw [getElem?_set_of_getElem? hd] at hd'
      split at hd'
      · next hmk =>
        obtain rfl := Option.some.inj hd'
        exact hmk ▸ h.waiting m d hd
      · exact h.waiting k d' hd'
    · rw [List.length_set]
      exact h.lt k hk
  | woken m d rows hd hitems _ hwaiting =>
    refine ⟨h.fits_of_mem_set hmore hd hitems, fun k d' hd' => ?_, fun k hk => ?_,
      nodup_append_singleton h.nodup (h.not_mem_queue hd hwaiting)⟩
    · rw [getElem?_set_of_getElem? hd] at hd'
      rw [List.mem_append, List.mem_singleton]
      split at hd'
      · next hmk =>
        obtain rfl := Option.some.inj hd'
        exact ⟨fun _ => .inr hmk.symm, fun _ => rfl⟩
      · next hmk =>
        rw [h.waiting k d' hd']
        exact ⟨.inl, fun hk => hk.resolve_right (Ne.symm hmk)⟩
    · rw [List.length_set]
      rcases List.mem_append.1 hk with hk | hk
      · exact h.lt k hk
      · exact List.mem_singleton.1 hk ▸ (List.getElem?_eq_some_iff.1 hd).1
  | pushed rows =>
    refine ⟨fun d' hd' => ?_, fun k d' hd' => ?_, fun k hk => ?_,
      nodup_append_singleton h.nodup h.length_not_mem_queue⟩
    · rcases List.mem_append.1 hd' with hd' | hd'
      · exact h.fits d' hd'
      · obtain rfl := List.mem_singleton.1 hd'
        exact ⟨rfl, hmore⟩
    · rw [List.mem_append, List.mem_singleton]
      rcases Nat.lt_trichotomy k w.drafts.length with hk | rfl | hk
      · rw [List.getElem?_append_left hk] at hd'
        rw [h.waiting k d' hd']
        exact ⟨.inl, fun hk' => hk'.resolve_right (Nat.ne_of_lt hk)⟩
      · rw [List.getElem?_concat_length] at hd'
        obtain rfl := Option.some.inj hd'
        exact ⟨fun _ => .inr rfl, fun _ => rfl⟩
      · have hlt := (List.getElem?_eq_some_iff.1 hd').1
        rw [List.length_append, List.length_singleton] at hlt
        omega
    · rw [List.length_append, List.length_singleton]
      rcases List.mem_append.1 hk with hk | hk
      · exact Nat.lt_succ_of_lt (h.lt k hk)
      · exact List.mem_singleton.1 hk ▸ Nat.lt_succ_self _

/-- A draft with more lookaheads in the place of another one. -/
theorem Sound.kept_set (h : w.Sound g) (hmore : Fits g more) (hd : w.drafts[m]? = some d)
    {waiting : Bool} {queue : List Nat} (hqueue : m ∉ queue → d.kernel.addAll more = d.kernel) :
    ∀ (k : Nat) e, w.drafts[k]? = some e →
      ∃ e', (w.drafts.set m ⟨d.items, d.kernel.addAll more, waiting⟩)[k]? = some e' ∧
        e'.items = e.items ∧ (∀ i o, e.kernel.Has i o → e'.kernel.Has i o) ∧
          (k ∉ queue → e'.kernel = e.kernel) := by
  intro k e he
  rw [getElem?_set_of_getElem? hd]
  split
  · next hmk =>
    subst hmk
    obtain rfl := Option.some.inj (hd.symm.trans he)
    exact ⟨_, rfl, rfl, fun i o hi => ((h.fits_of_getElem? hd).has_addAll hmore).2 (.inl hi),
      hqueue⟩
  · exact ⟨e, he, rfl, fun _ _ hi => hi, fun _ => rfl⟩

theorem Delivers.grows (h : w.Sound g) (hmore : Fits g more) (hne : more.items ≠ [])
    (hdelivers : w.Delivers more w') : w.Grows w' := by
  cases hdelivers with
  | added m d rows hd hitems hsame =>
    refine ⟨h.kept_set hmore hd fun hm => ?_, ⟨[], (List.append_nil _).symm, fun m hm => ?_⟩,
      fun v _ hp => ?_, ?_⟩
    · exact hsame.resolve_right fun hwaiting => hm ((h.waiting m d hd).1 hwaiting)
    · exact absurd hm List.not_mem_nil
    · rw [Pending, List.length_set]
      exact hp
    · have hweight := sum_map_set (f := fun d => d.kernel.weight) hd
        { d with kernel := d.kernel.addAll more }
      have hle : d.kernel.weight ≤ (d.kernel.addAll more).weight :=
        (ItemSet.enlarges_addAll more).le d.kernel
      dsimp only at hweight
      simp only [weight]
      omega
  | woken m d rows hd hitems hgrew hwaiting =>
    have hlt := (List.getElem?_eq_some_iff.1 hd).1
    refine ⟨h.kept_set hmore hd fun hm => ?_, ⟨[m], rfl, fun k hk => ?_⟩, fun v _ hp => ?_, ?_⟩
    · exact absurd (List.mem_append_right _ (List.mem_singleton_self m)) hm
    · obtain rfl := List.mem_singleton.1 hk
      obtain ⟨i, t, hhas, hnone⟩ := (h.fits_of_getElem? hd).exists_gain hmore
        ((h.items hd).trans hitems) hgrew
      refine .inr ⟨d, { d with kernel := d.kernel.addAll more, waiting := true }, hd, ?_, i, t,
        hhas, hnone⟩
      rw [getElem?_set_of_getElem? hd, if_pos rfl]
    · -- A state that does not wait has been visited.
      have hvisited : ¬v ≤ m := fun hv => by
        have hmem : m ∈ List.range' v (w.drafts.length - v) :=
          List.mem_range'_1.2 ⟨hv, by omega⟩
        rw [← hp] at hmem
        exact h.not_mem_queue hd hwaiting (List.mem_filter.1 hmem).1
      rw [Pending, List.length_set, List.filter_append, hp]
      simp [hvisited]
    · have hweight := sum_map_set (f := fun d => d.kernel.weight) hd
        { d with kernel := d.kernel.addAll more, waiting := true }
      have hlt : d.kernel.weight < (d.kernel.addAll more).weight :=
        (ItemSet.enlarges_addAll more d.kernel).resolve_left hgrew
      dsimp only at hweight
      simp only [weight, List.length_append, List.length_singleton]
      omega
  | pushed rows =>
    refine ⟨fun k d hd => ?_, ⟨[w.drafts.length], rfl, fun k hk => ?_⟩, fun v hv hp => ?_, ?_⟩
    · exact ⟨d, getElem?_grown (List.prefix_append _ _) hd, rfl, fun _ _ hi => hi, fun _ => rfl⟩
    · exact .inl (List.mem_singleton.1 hk).ge
    · have hlength : w.drafts.length + 1 - v = w.drafts.length - v + 1 := by omega
      have hlast : v + (w.drafts.length - v) = w.drafts.length := by omega
      rw [Pending, List.filter_append, hp, List.length_append, List.length_singleton, hlength,
        List.range'_1_concat, hlast]
      simp [hv]
    · have hpos := hmore.carries.length_le_weight
      have hlength := List.length_pos_iff.2 hne
      simp only [weight, List.length_append, List.length_singleton, List.map_append, List.sum_append,
        List.map_cons, List.map_nil, List.sum_cons, List.sum_nil]
      omega

/-- The state that is known by the items has what is delivered. -/
def Has (w : Worklist) (more : ItemSet) : Prop :=
  ∃ (m : Nat) (d : Draft), w.drafts[m]? = some d ∧ d.items = more.items ∧
    ∀ i o, more.Has i o → d.kernel.Has i o

theorem Delivers.has (h : w.Sound g) (hmore : Fits g more) (hdelivers : w.Delivers more w') :
    w'.Has more := by
  have hadd {m : Nat} {d : Draft} (hd : w.drafts[m]? = some d) (i : Item)
      (o : Option TerminalId) (hi : more.Has i o) : (d.kernel.addAll more).Has i o :=
    ((h.fits_of_getElem? hd).has_addAll hmore).2 (.inr hi)
  cases hdelivers with
  | added m d rows hd hitems _ =>
    refine ⟨m, { d with kernel := d.kernel.addAll more }, ?_, hitems, hadd hd⟩
    rw [getElem?_set_of_getElem? hd, if_pos rfl]
  | woken m d rows hd hitems _ _ =>
    refine ⟨m, { d with kernel := d.kernel.addAll more, waiting := true }, ?_, hitems, hadd hd⟩
    rw [getElem?_set_of_getElem? hd, if_pos rfl]
  | pushed rows =>
    exact ⟨_, _, List.getElem?_concat_length, rfl, fun _ _ hi => hi⟩

theorem Grows.has (h : w.Grows w') (hhas : w.Has more) : w'.Has more := by
  obtain ⟨m, d, hd, hitems, hall⟩ := hhas
  obtain ⟨d', hd', hitems', hle, -⟩ := h.kept m d hd
  exact ⟨m, d', hd', hitems'.trans hitems, fun i o hi => hle i o (hall i o hi)⟩

/-- All deliveries of a visit. -/
theorem Sound.deliverAll (h : w.Sound g) (n : Nat)
    (hmoves : ∀ move ∈ moves, Fits g move.2 ∧ move.2.items ≠ []) :
    (w.deliverAll n moves).Sound g ∧ w.Grows (w.deliverAll n moves) ∧
      ∀ move ∈ moves, (w.deliverAll n moves).Has move.2 := by
  induction moves generalizing w with
  | nil => exact ⟨h, .refl w, fun _ h => absurd h List.not_mem_nil⟩
  | cons move moves ih =>
    obtain ⟨⟨hfits, hne⟩, hmoves⟩ := List.forall_mem_cons.1 hmoves
    have hdelivers := w.delivers_deliver n move
    obtain ⟨hsound, hgrows, hhas⟩ := ih (hdelivers.sound h hfits) hmoves
    refine ⟨hsound, (hdelivers.grows h hfits hne).trans hgrows, fun m hm => ?_⟩
    rcases List.mem_cons.1 hm with rfl | hm
    · exact hgrows.has (hdelivers.has h hfits)
    · exact hhas m hm

/-! ## One visit -/

/-- The state has passed on all that it has along the transitions of its row. -/
def Passed (a : Analysis) (w : Worklist) (k : Nat) (row : List Transition) : Prop :=
  ∃ d, w.drafts[k]? = some d ∧ ∀ t ∈ row, ∀ y ∈ a.closure d.kernel, a.next? y.1 = some t.1 →
    ∃ d', w.drafts[t.2]? = some d' ∧ ∀ u ∈ y.2, d'.kernel.Has y.1.advance (some u)

theorem Grows.passed {a : Analysis} {row : List Transition} (h : w.Grows w')
    (hpassed : w.Passed a k row) (hk : k ∉ w'.queue) : w'.Passed a k row := by
  obtain ⟨d, hd, hall⟩ := hpassed
  obtain ⟨d', hd', -, -, heq⟩ := h.kept k d hd
  refine ⟨d', hd', fun t ht y hy hnext => ?_⟩
  rw [heq hk] at hy
  obtain ⟨e, he, hhas⟩ := hall t ht y hy hnext
  obtain ⟨e', he', -, hle, -⟩ := h.kept t.2 e he
  exact ⟨e', he', fun u hu => hle _ _ (hhas u hu)⟩

theorem getElem?_leave (w : Worklist) (n : Nat) (queue : List Nat) (k : Nat) :
    (w.leave n queue).drafts[k]? =
      w.drafts[k]?.map fun d => if n = k then { d with waiting := false } else d := by
  rw [leave, List.getElem?_modify]
  rfl

/-- Leaving the queue changes neither items nor lookaheads. -/
theorem exists_leave (hd : w.drafts[k]? = some d) (n : Nat) (queue : List Nat) :
    ∃ d', (w.leave n queue).drafts[k]? = some d' ∧ d'.items = d.items ∧
      d'.kernel = d.kernel := by
  rw [getElem?_leave, hd]
  refine ⟨_, rfl, ?_⟩
  split
  · exact ⟨rfl, rfl⟩
  · exact ⟨rfl, rfl⟩

theorem of_getElem?_leave {queue : List Nat} (hd : (w.leave n queue).drafts[k]? = some d') :
    ∃ d, w.drafts[k]? = some d ∧ d'.items = d.items ∧ d'.kernel = d.kernel ∧
      d'.waiting = (if n = k then false else d.waiting) := by
  rw [getElem?_leave] at hd
  obtain ⟨d, hold, rfl⟩ := Option.map_eq_some_iff.1 hd
  refine ⟨d, hold, ?_⟩
  split
  · exact ⟨rfl, rfl, rfl⟩
  · exact ⟨rfl, rfl, rfl⟩

@[simp] theorem length_drafts_leave (w : Worklist) (n : Nat) (queue : List Nat) :
    (w.leave n queue).drafts.length = w.drafts.length :=
  List.length_modify ..

@[simp] theorem keys_leave (w : Worklist) (n : Nat) (queue : List Nat) :
    (w.leave n queue).keys = w.keys := by
  refine List.ext_getElem? fun k => ?_
  rw [keys, keys, List.getElem?_map, List.getElem?_map, getElem?_leave, Option.map_map]
  refine Option.map_congr fun d _ => ?_
  show (if n = k then _ else d).items = d.items
  split <;> rfl

@[simp] theorem weight_leave (w : Worklist) (n : Nat) (queue : List Nat) :
    (w.leave n queue).weight = w.weight := by
  rw [weight, weight]
  congr 1
  refine List.ext_getElem? fun k => ?_
  rw [List.getElem?_map, List.getElem?_map, getElem?_leave, Option.map_map]
  refine Option.map_congr fun d _ => ?_
  show (if n = k then _ else d).kernel.weight = d.kernel.weight
  split <;> rfl

theorem Sound.leave {queue : List Nat} (h : w.Sound g) (hqueue : w.queue = n :: queue) :
    (w.leave n queue).Sound g := by
  have hnodup := h.nodup
  rw [hqueue] at hnodup
  obtain ⟨hnot, hnodup⟩ := List.nodup_cons.1 hnodup
  refine ⟨fun d' hd' => ?_, fun k d' hd' => ?_, fun k hk => ?_, hnodup⟩
  · obtain ⟨k, hd'⟩ := List.mem_iff_getElem?.1 hd'
    obtain ⟨d, hd, hitems, hkernel, -⟩ := of_getElem?_leave hd'
    rw [hitems, hkernel]
    exact h.fits d (List.mem_of_getElem? hd)
  · obtain ⟨d, hd, -, -, hwaiting⟩ := of_getElem?_leave hd'
    show _ ↔ k ∈ queue
    rw [hwaiting]
    split
    · next hnk =>
      subst hnk
      exact iff_of_false Bool.false_ne_true hnot
    · next hnk =>
      rw [h.waiting k d hd, hqueue, List.mem_cons]
      exact ⟨fun hk => hk.resolve_left (Ne.symm hnk), .inr⟩
  · rw [length_drafts_leave]
    refine h.lt k ?_
    rw [hqueue]
    exact List.mem_cons_of_mem n hk

theorem Passed.leave {a : Analysis} {row : List Transition} (h : w.Passed a k row) (n : Nat)
    (queue : List Nat) : (w.leave n queue).Passed a k row := by
  obtain ⟨d, hd, hall⟩ := h
  obtain ⟨d', hd', -, hkernel⟩ := exists_leave hd n queue
  refine ⟨d', hd', fun t ht y hy hnext => ?_⟩
  rw [hkernel] at hy
  obtain ⟨e, he, hhas⟩ := hall t ht y hy hnext
  obtain ⟨e', he', -, hkernel'⟩ := exists_leave he n queue
  exact ⟨e', he', hkernel' ▸ hhas⟩

/-- The state in front of the queue has been visited, or it is the first that has not. -/
theorem Pending.leave {queue : List Nat} (h : w.Pending v) (hqueue : w.queue = n :: queue) :
    (n < v ∧ (w.leave n queue).Pending v) ∨ (n = v ∧ (w.leave n queue).Pending (v + 1)) := by
  rw [Pending, hqueue, List.filter_cons] at h
  split at h
  · cases hlength : w.drafts.length - v with
    | zero =>
      rw [hlength] at h
      cases h
    | succ j =>
      rw [hlength, List.range'_succ] at h
      obtain ⟨rfl, hrest⟩ := List.cons.inj h
      refine .inr ⟨rfl, ?_⟩
      have hfilter : queue.filter (n + 1 ≤ ·) =
          (queue.filter (n ≤ ·)).filter (n + 1 ≤ ·) := by
        rw [List.filter_filter]
        refine List.filter_congr fun k _ => ?_
        rw [← Bool.decide_and, decide_eq_decide]
        omega
      have hlast : w.drafts.length - (n + 1) = j := by omega
      rw [Pending, length_drafts_leave, hlast]
      show queue.filter (n + 1 ≤ ·) = _
      rw [hfilter, hrest]
      exact List.filter_eq_self.2 fun k hk => decide_eq_true (List.mem_range'_1.1 hk).1
  · next hn =>
    refine .inl ⟨by simpa using hn, ?_⟩
    rw [Pending, length_drafts_leave]
    exact h

/-- The kernels found are the first of all kernels. -/
theorem Tracks.keys_prefix {a : Analysis} {rows : List (List Transition)} (h : w.Tracks a rows) :
    w.keys <+: a.skeleton.1.toList := by
  rw [← h.rest]
  exact explore_induction (motive := fun kernels _ => w.keys <+: kernels)
    (fun kernels rows kernel hprefix _ => hprefix.trans (enter_isRow _ kernels).1)
    (Nat.pow 2 a.itemCount + 1 - rows.length) rows.length w.keys.toArray rows.reverse
    List.prefix_rfl List.length_reverse

/-- A state that is on the list has its number for good. -/
theorem Tracks.exists_state {rows : List (List Transition)} (hg : g.Ranged)
    (h : w.Tracks (ofGrammar g) rows) (hsound : w.Sound g) (hd : w.drafts[n]? = some d) :
    ∃ st, (ofGrammar g).states[n]? = some st ∧ st.kernel.items = d.kernel.items := by
  have hkey := getElem?_grown h.keys_prefix (getElem?_keys hd)
  obtain ⟨st, hst, hcarries⟩ := (madeOf_settle hg (bound_lt hg)).exists_state hkey
  exact ⟨st, hst, hcarries.items.trans (hsound.items hd).symm⟩

theorem Tracks.leave {a : Analysis} {rows : List (List Transition)} (h : w.Tracks a rows)
    (n : Nat) (queue : List Nat) : (w.leave n queue).Tracks a rows where
  explored := by rw [keys_leave]; exact h.explored
  rest := by rw [keys_leave]; exact h.rest
  visited := by rw [length_drafts_leave]; exact h.visited
  rows := by rw [length_drafts_leave]; exact h.rows

/-- Between two visits: the first states have been visited and have their rows, and each of them
    waits or has passed on all that it has. -/
structure Working (g : Grammar) (rows : List (List Transition)) (w : Worklist) : Prop where
  tracks : w.Tracks (ofGrammar g) rows
  sound : w.Sound g
  pending : w.Pending rows.length
  passed : ∀ k row, rows[k]? = some row → k ∉ w.queue → w.Passed (ofGrammar g) k row
  finish : ∀ d, w.drafts[0]? = some d →
    d.kernel.Has (ofGrammar g).startItem (some (ofGrammar g).grammar.endTerminal)

/-- A visit makes the row of the state, or it has been made before. -/
theorem Tracks.visit {rows : List (List Transition)} (hg : g.Ranged)
    (h : w.Tracks (ofGrammar g) rows) {kernel : List Item} (hkernel : w.keys[n]? = some kernel)
    (hmoves : kernels moves = (ofGrammar g).moves ((ofGrammar g).closureItems kernel))
    (hgrows : w.Grows (w.deliverAll n moves))
    (hpending : n < rows.length ∧ w.Pending rows.length ∨
      n = rows.length ∧ w.Pending (rows.length + 1)) :
    ∃ rows', (w.deliverAll n moves).Tracks (ofGrammar g) rows' ∧
      (w.deliverAll n moves).Pending rows'.length ∧
        ∀ k row, rows'[k]? = some row → k ≠ n → rows[k]? = some row := by
  rcases hpending with ⟨hn, hpending⟩ | ⟨rfl, hpending⟩
  · exact ⟨rows, h.again hn hkernel hmoves, hgrows.pending _ h.visited hpending,
      fun _ _ hrow _ => hrow⟩
  · obtain ⟨row, htracks⟩ := h.first hg hkernel hmoves
    have hlt := (List.getElem?_eq_some_iff.1 hkernel).1
    rw [length_keys] at hlt
    refine ⟨rows ++ [row], htracks, ?_, fun k row' hrow hne => ?_⟩
    · rw [List.length_append, List.length_singleton]
      exact hgrows.pending _ hlt hpending
    · have hk := (List.getElem?_eq_some_iff.1 hrow).1
      rw [List.length_append, List.length_singleton] at hk
      rwa [List.getElem?_append_left (by omega)] at hrow

/-- A state that does not wait after its visit has passed on all that it has. -/
theorem passed_of_visit {rows : List (List Transition)} {row : List Transition}
    (hg : g.Ranged) (hd : w.drafts[n]? = some d) (hitems : d.kernel.items = d.items)
    (hfits : Fits g d.kernel) (hgrows : w.Grows w')
    (hhas : ∀ move ∈ (ofGrammar g).deliveries ((ofGrammar g).closure d.kernel),
      Delivery g d.kernel move ∧ w'.Has move.2)
    (htracks : w'.Tracks (ofGrammar g) rows) (hrow : rows[n]? = some row) (hn : n ∉ w'.queue) :
    w'.Passed (ofGrammar g) n row := by
  obtain ⟨d', hd', hitems', -, heq⟩ := hgrows.kept n d hd
  refine ⟨d', hd', fun t ht y hy hnext => ?_⟩
  rw [heq hn] at hy
  obtain ⟨kernel, hkernel, hisRow⟩ := htracks.explored.row n row hrow
  obtain rfl : d.kernel.items = kernel :=
    (hitems.trans hitems'.symm).trans (Option.some.inj ((getElem?_keys hd').symm.trans hkernel))
  rw [← hfits.kernels_deliveries hg] at hisRow
  obtain ⟨m, hm, htm, hkey⟩ := exists_of_mem_right hisRow ht
  obtain ⟨move, hmove, rfl⟩ := List.mem_map.1 hm
  obtain ⟨hdelivery, k, e, he, hitemsₑ, hall⟩ := hhas move hmove
  -- The state that has the delivery is the one that the transition leads to.
  obtain rfl : k = t.2 := by
    have hkey' : w'.keys[k]? = some move.2.items := hitemsₑ ▸ getElem?_keys he
    obtain ⟨hlt, hget⟩ := List.getElem?_eq_some_iff.1 hkey'
    obtain ⟨hlt', hget'⟩ := List.getElem?_eq_some_iff.1 hkey
    exact (List.Nodup.getElem_inj_iff htracks.explored.nodup).1 (hget.trans hget'.symm)
  rw [htm] at hnext
  exact ⟨e, he, fun u hu => hall _ _ ((hdelivery.has_iff _ u).2 ⟨y, hy, hnext, rfl, hu⟩)⟩

/-- A visit ends as it began, with a state more that has been visited or not, and nothing is
    lost. -/
theorem Working.visit {rows : List (List Transition)} {queue : List Nat} (hg : g.Ranged)
    (h : w.Working g rows) (hqueue : w.queue = n :: queue) :
    ∃ rows', (w.visit (ofGrammar g)).Working g rows' ∧
      (w.leave n queue).Grows (w.visit (ofGrammar g)) := by
  have hn : n < w.drafts.length := h.sound.lt n (by rw [hqueue]; exact List.mem_cons_self)
  have hd := List.getElem?_eq_getElem hn
  generalize w.drafts[n] = d at hd
  have hfits := h.sound.fits_of_getElem? hd
  obtain ⟨st, hst, hitems⟩ := h.tracks.exists_state hg h.sound hd
  have hvisit : w.visit (ofGrammar g) = (w.leave n queue).deliverAll n
      ((ofGrammar g).deliveries ((ofGrammar g).closure d.kernel)) := by
    rw [Worklist.visit, hqueue]
    dsimp only
    rw [hd]
    rfl
  have hdelivery (move) (hmove : move ∈ (ofGrammar g).deliveries
      ((ofGrammar g).closure d.kernel)) : Delivery g d.kernel move :=
    hfits.delivery hg hst hitems hmove
  obtain ⟨hsound, hgrows, hhas⟩ := (h.sound.leave hqueue).deliverAll n
    fun move hmove => ⟨(hdelivery move hmove).fits, (hdelivery move hmove).nonempty⟩
  obtain ⟨d₀, hd₀, hitems₀, hkernel₀⟩ := exists_leave hd n queue
  have hkey : (w.leave n queue).keys[n]? = some d.kernel.items := by
    rw [h.sound.items hd, ← hitems₀]
    exact getElem?_keys hd₀
  obtain ⟨rows', htracks, hpending, hrows⟩ := (h.tracks.leave n queue).visit hg hkey
    (hfits.kernels_deliveries hg) hgrows (h.pending.leave hqueue)
  rw [← hvisit] at htracks hpending hsound hgrows hhas
  refine ⟨rows', ⟨htracks, hsound, hpending, fun k row hrow hk => ?_, fun d' hd' => ?_⟩, hgrows⟩
  · by_cases hkn : k = n
    · subst hkn
      refine passed_of_visit hg hd₀ ?_ ?_ hgrows (fun move hmove => ?_) htracks hrow hk
      · rw [hkernel₀, hitems₀]
        exact h.sound.items hd
      · rwa [hkernel₀]
      · rw [hkernel₀] at hmove ⊢
        exact ⟨hdelivery move hmove, hhas move hmove⟩
    · have hwaits : k ∉ w.queue := fun hmem => by
        rw [hqueue] at hmem
        exact hk (hgrows.subset ((List.mem_cons.1 hmem).resolve_left hkn))
      exact hgrows.passed ((h.passed k row (hrows k row hrow hkn) hwaits).leave n queue) hk
  · have hzero : 0 < w.drafts.length := Nat.lt_of_le_of_lt (Nat.zero_le n) hn
    obtain ⟨e, he, -, hkernel⟩ := exists_leave (List.getElem?_eq_getElem hzero) n queue
    obtain ⟨e', he', -, hle, -⟩ := hgrows.kept 0 e he
    obtain rfl := Option.some.inj (he'.symm.trans hd')
    refine hle _ _ ?_
    rw [hkernel]
    exact h.finish _ (List.getElem?_eq_getElem hzero)

end Worklist

end FluentGrammar
