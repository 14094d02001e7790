import FluentGrammar.Grammar.Lower
import FluentGrammar.Proofs.Iterate
import FluentGrammar.Proofs.Lowering.Elimination

/-
  Which rules can finish: exactly those that have a sentence (`productive_exact`). What becomes
  known in a round has a sentence made of sentences of the rules known before
  (`Sound.exists_sentence`). When nothing more becomes known, no derivation leads to a rule that is
  not known (`Exact.of_closed`), and rounds come to that point because what is known only grows
  (`finishing_productive`).

  `productive?` finds the same rules by passes in place: a rule that is marked counts as known at
  once, and the passes go on until one of them marks nothing. There is no bound on them, and every
  number is looked up (`productive?_eq`).
-/

namespace FluentGrammar

open Report

/-! ## Expressions that can finish -/

namespace Expr

variable {g : Rules} {known known' : List Bool} {e : Expr} {es : List Expr} {w : List TerminalId}

theorem allFinish_iff : allFinish known es = true ↔ ∀ e ∈ es, e.finishes known = true := by
  induction es with
  | nil => simp [allFinish]
  | cons e es ih => simp [allFinish, ih]

theorem anyFinishes_iff : anyFinishes known es = true ↔ ∃ e ∈ es, e.finishes known = true := by
  induction es with
  | nil => simp [anyFinishes]
  | cons e es ih => simp [anyFinishes, ih]

mutual

/-- What can finish has a derivation when the known rules have sentences. -/
theorem exists_derives_of_finishes
    (hknown : ∀ r : RuleId, known[r]? = some true → ∃ w, g.Sentence r w) (e : Expr)
    (h : e.finishes known = true) : ∃ w, e.Derives g w := by
  match e with
  | .empty => exact ⟨[], .empty⟩
  | .terminal t => exact ⟨[t], .terminal t⟩
  | .rule r => exact hknown r (getD_false_iff.1 h)
  | .seq items => exact (exists_derives_of_all hknown items).1 h
  | .alt bs =>
    obtain ⟨b, hb, w, hw⟩ := (exists_derives_of_all hknown bs).2 h
    exact ⟨w, .alt hb hw⟩
  | .repeated inner .oneOrMore =>
    obtain ⟨w, hw⟩ := exists_derives_of_finishes hknown inner h
    exact ⟨w, .plusOnce hw⟩
  | .repeated inner .zeroOrMore => exact ⟨[], .starNone⟩
  | .repeated inner .optional => exact ⟨[], .skip⟩

theorem exists_derives_of_all
    (hknown : ∀ r : RuleId, known[r]? = some true → ∃ w, g.Sentence r w) (es : List Expr) :
    (allFinish known es = true → ∃ w, (seq es).Derives g w) ∧
      (anyFinishes known es = true → ∃ e ∈ es, ∃ w, e.Derives g w) := by
  match es with
  | [] => exact ⟨fun _ => ⟨[], .seqNil⟩, nofun⟩
  | e :: es =>
    obtain ⟨hall, hany⟩ := exists_derives_of_all hknown es
    constructor
    · intro h
      obtain ⟨he, hes⟩ := Bool.and_eq_true_iff.1 h
      obtain ⟨u, hu⟩ := exists_derives_of_finishes hknown e he
      obtain ⟨v, hv⟩ := hall hes
      exact ⟨u ++ v, .seqCons hu hv⟩
    · intro h
      rcases Bool.or_eq_true_iff.1 h with he | hes
      · exact ⟨e, List.mem_cons_self, exists_derives_of_finishes hknown e he⟩
      · obtain ⟨d, hd, hw⟩ := hany hes
        exact ⟨d, List.mem_cons_of_mem _ hd, hw⟩

end

/-- What has a derivation can finish when every rule that can finish is known. -/
theorem finishes_of_derives (hrefs : g.RefsInRange)
    (hclosed : ∀ r < g.size, (g.rule r).body.finishes known = true → known[r]? = some true)
    (h : e.Derives g w) (he : ∀ r ∈ e.refs, r < g.size) : e.finishes known = true := by
  induction h with
  | empty | terminal | seqNil | starNone | starMore | skip | take => rfl
  | @rule r _ _ ih =>
    have hr := he r (List.mem_singleton_self r)
    exact getD_false_iff.2 (hclosed r hr (ih (hrefs.within_rule hr).refs))
  | seqCons _ _ ihu ihv =>
    have hu := ihu fun r hr => he r (List.mem_append_left _ hr)
    have hv := ihv fun r hr => he r (List.mem_append_right _ hr)
    exact Bool.and_eq_true_iff.2 ⟨hu, hv⟩
  | alt hb _ ih =>
    exact anyFinishes_iff.2 ⟨_, hb, ih fun r hr => he r (mem_refsOfAll.2 ⟨_, hb, hr⟩)⟩
  | plusOnce _ ih => exact ih he
  | plusMore _ _ ih _ => exact ih he

mutual

theorem finishes_mono (h : ∀ r : RuleId, known[r]? = some true → known'[r]? = some true) (e : Expr)
    (he : e.finishes known = true) : e.finishes known' = true := by
  match e with
  | .empty | .terminal _ => rfl
  | .rule r => exact getD_false_iff.2 (h r (getD_false_iff.1 he))
  | .seq items =>
    exact allFinish_iff.2 fun d hd => finishes_mono_all h items d hd (allFinish_iff.1 he d hd)
  | .alt bs =>
    obtain ⟨b, hb, hfin⟩ := anyFinishes_iff.1 he
    exact anyFinishes_iff.2 ⟨b, hb, finishes_mono_all h bs b hb hfin⟩
  | .repeated inner .oneOrMore => exact finishes_mono h inner he
  | .repeated inner .zeroOrMore | .repeated inner .optional => rfl

theorem finishes_mono_all (h : ∀ r : RuleId, known[r]? = some true → known'[r]? = some true)
    (es : List Expr) : ∀ e ∈ es, e.finishes known = true → e.finishes known' = true := by
  match es with
  | [] => exact nofun
  | d :: es =>
    exact List.forall_mem_cons.2 ⟨finishes_mono h d, finishes_mono_all h es⟩

end

end Expr

/-! ## Grows rules -/

namespace Rules

/-- Every known rule has a sentence. -/
def Sound (g : Rules) (known : List Bool) : Prop :=
  ∀ r, known[r]? = some true → ∃ w, g.Sentence r w

/-- The known rules are those that have a sentence. -/
structure Exact (g : Rules) (known : List Bool) : Prop where
  length_eq : known.length = g.size
  known_iff : ∀ r < g.size, known[r]? = some true ↔ ∃ w, g.Sentence r w

variable {g : Rules} {known known' : List Bool} {r : RuleId} {rule : Rule}

/-- Nothing is missing when every rule that can finish is known. -/
theorem Exact.of_closed (hrefs : g.RefsInRange) (hlength : known.length = g.size)
    (hsound : g.Sound known)
    (hclosed : ∀ r < g.size, (g.rule r).body.finishes known = true → known[r]? = some true) :
    g.Exact known := by
  refine ⟨hlength, fun r hr => ⟨hsound r, fun ⟨w, hw⟩ => ?_⟩⟩
  exact getD_false_iff.1
    (Expr.finishes_of_derives hrefs hclosed hw fun q hq => List.mem_singleton.1 hq ▸ hr)

theorem Exact.unique (h : g.Exact known) (h' : g.Exact known') : known = known' := by
  refine List.ext_getElem (h.length_eq.trans h'.length_eq.symm) fun r hr hr' => ?_
  have hsize : r < g.size := h.length_eq ▸ hr
  have hiff := (h.known_iff r hsize).trans (h'.known_iff r hsize).symm
  rw [List.getElem?_eq_getElem hr, List.getElem?_eq_getElem hr', Option.some.injEq,
    Option.some.injEq] at hiff
  exact Bool.eq_iff_iff.2 hiff

theorem sound_none (g : Rules) : g.Sound (g.rules.map fun _ => false) := by
  intro r hr
  obtain ⟨_, -, h⟩ := Option.map_eq_some_iff.1 (List.getElem?_map .. ▸ hr)
  cases h

theorem Sound.exists_sentence (h : g.Sound known) (hr : g.rules[r]? = some rule)
    (hfin : rule.body.finishes known = true) : ∃ w, g.Sentence r w := by
  obtain ⟨w, hw⟩ := Expr.exists_derives_of_finishes h rule.body hfin
  exact ⟨w, .rule ((rule_eq_of_getElem? hr).symm ▸ hw)⟩

/-! ## Rounds -/

theorem getElem?_finishing : (g.finishing known)[r]? = some true ↔
    ∃ rule, g.rules[r]? = some rule ∧ rule.body.finishes known = true := by
  rw [finishing, List.getElem?_map, Option.map_eq_some_iff]

theorem Sound.finishing (h : g.Sound known) : g.Sound (g.finishing known) := by
  intro r hr
  obtain ⟨rule, hget, hfin⟩ := getElem?_finishing.1 hr
  exact h.exists_sentence hget hfin

/-- What is known stays known. -/
def Grows (known known' : List Bool) : Prop :=
  List.Forall₂ (fun a b => a = true → b = true) known known'

theorem Grows.getElem? (h : Grows known known') (r : RuleId) (hr : known[r]? = some true) :
    known'[r]? = some true := by
  obtain ⟨b, hb, himp⟩ := exists_right_of_forall₂ h hr
  rw [hb, himp rfl]

theorem Grows.eq_or_count_lt (h : Grows known known') :
    known' = known ∨ known.count true < known'.count true := by
  induction h with
  | nil => exact .inl rfl
  | @cons a b known known' hab _ ih =>
    rw [List.count_cons, List.count_cons]
    cases a with
    | true =>
      rw [hab rfl]
      rcases ih with rfl | hlt
      · exact .inl rfl
      · exact .inr (Nat.add_lt_add_right hlt _)
    | false =>
      cases b with
      | false =>
        rcases ih with rfl | hlt
        · exact .inl rfl
        · exact .inr (Nat.add_lt_add_right hlt _)
      | true =>
        right
        rcases ih with rfl | hlt
        · simp
        · simp only [Bool.false_eq_true, beq_iff_eq, if_false, if_true]
          omega

/-- The more is known, the more a round finds. -/
theorem Grows.finishing (h : Grows known known') :
    Grows (g.finishing known) (g.finishing known') := by
  refine List.forall₂_map_left_iff.2 (List.forall₂_map_right_iff.2 ?_)
  exact List.forall₂_same.2 fun rule _ => Expr.finishes_mono h.getElem? rule.body

/-- As many rounds as there are rules suffice. -/
theorem finishing_productive (g : Rules) : g.finishing g.productive = g.productive := by
  have hiterate : ∀ n, g.knownAfter n = g.finishing^[n] (g.rules.map fun _ => false) := by
    intro n
    induction n with
    | zero => rfl
    | succ n ih => rw [knownAfter, ih, Function.iterate_succ_apply']
  have hfirst : Grows (g.rules.map fun _ => false) (g.finishing (g.rules.map fun _ => false)) := by
    refine List.forall₂_map_left_iff.2 (List.forall₂_map_right_iff.2 ?_)
    exact List.forall₂_same.2 fun _ _ => nofun
  have hgrow : ∀ known, Grows known (g.finishing known) →
      g.finishing known = known ∨ known.count true < (g.finishing known).count true :=
    fun _ h => h.eq_or_count_lt
  have hbound : ∀ known, Grows known (g.finishing known) → known.count true ≤ g.size := by
    intro known h
    have hlength : known.length = g.size := h.length_eq.trans (List.length_map _)
    exact hlength ▸ List.count_le_length
  rw [productive, hiterate]
  exact iterate_settled hgrow (fun _ h => h.finishing) hbound _ _ hfirst (Nat.le_add_left ..)

theorem exact_productive (hrefs : g.RefsInRange) : g.Exact g.productive := by
  have hsound : ∀ n, g.Sound (g.knownAfter n) := by
    intro n
    induction n with
    | zero => exact sound_none g
    | succ n ih => exact ih.finishing
  have hfixed := finishing_productive g
  refine .of_closed hrefs ?_ (hsound _) fun r hr hfin => ?_
  · rw [← hfixed]
    exact List.length_map _
  · rw [← hfixed]
    have hget : g.rules[r]? = some g.rules[r] := List.getElem?_eq_getElem hr
    exact getElem?_finishing.2 ⟨_, hget, rule_eq_of_getElem? hget ▸ hfin⟩

end Rules

/-! ## Passes in place -/

namespace Expr

mutual

/-- Whether the expression can finish; `none` when a rule is looked up that does not exist. -/
def finishes? (known : List Bool) : Expr → Option Bool
  | empty | terminal _ => some true
  | rule r => known[r]?
  | seq items => allFinish? known items
  | alt bs => anyFinishes? known bs
  | repeated inner .oneOrMore => finishes? known inner
  | repeated _ .zeroOrMore | repeated _ .optional => some true

/-- Whether all expressions can finish, up to the first that cannot. -/
def allFinish? (known : List Bool) : List Expr → Option Bool
  | [] => some true
  | e :: es => do if ← finishes? known e then allFinish? known es else return false

/-- Whether some expression can finish, up to the first that can. -/
def anyFinishes? (known : List Bool) : List Expr → Option Bool
  | [] => some false
  | e :: es => do if ← finishes? known e then return true else anyFinishes? known es

end

variable {known : List Bool}

mutual

theorem finishes?_eq (e : Expr) (he : ∀ r ∈ e.refs, r < known.length) :
    e.finishes? known = some (e.finishes known) := by
  match e with
  | .empty | .terminal _ => rfl
  | .rule r =>
    have hr := he r (List.mem_singleton_self r)
    rw [finishes?, finishes, List.getD_eq_getElem?_getD, List.getElem?_eq_getElem hr,
      Option.getD_some]
  | .seq items => exact (allFinish?_eq items he).1
  | .alt bs => exact (allFinish?_eq bs he).2
  | .repeated inner .oneOrMore => exact finishes?_eq inner he
  | .repeated inner .zeroOrMore | .repeated inner .optional => rfl

theorem allFinish?_eq (es : List Expr) (hes : ∀ r ∈ refsOfAll es, r < known.length) :
    allFinish? known es = some (allFinish known es) ∧
      anyFinishes? known es = some (anyFinishes known es) := by
  match es with
  | [] => exact ⟨rfl, rfl⟩
  | e :: es =>
    have he := finishes?_eq e fun r hr => hes r (List.mem_append_left _ hr)
    obtain ⟨hall, hany⟩ := allFinish?_eq es fun r hr => hes r (List.mem_append_right _ hr)
    rw [allFinish?, anyFinishes?, allFinish, anyFinishes, he]
    cases e.finishes known with
    | true => exact ⟨hall, rfl⟩
    | false => exact ⟨rfl, hany⟩

end

end Expr

namespace Rules

/-- Marks a rule that is not known yet and can finish, and notes it as a change. -/
def mark? (s : List Bool × Bool) (x : Rule × RuleId) : Option (List Bool × Bool) := do
  if ← s.1[x.2]? then return s
  else if ← x.1.body.finishes? s.1 then return (s.1.set x.2 true, true)
  else return s

/-- One pass over the rules, and whether it has changed anything. -/
def pass? (g : Rules) (known : List Bool) : Option (List Bool × Bool) :=
  g.rules.zipIdx.foldlM mark? (known, false)

/-- Passes over the rules until one of them changes nothing. -/
noncomputable def settle? (g : Rules) : List Bool → Option (List Bool) :=
  iterate? fun known => do
    let (known, changed) ← g.pass? known
    return if changed then .inr known else .inl known

/-- For every rule, whether it is productive, found by passes in place. -/
noncomputable def productive? (g : Rules) : Option (List Bool) :=
  g.settle? (g.rules.map fun _ => false)

/-- Marks a rule that can finish, whether it is known or not. -/
def mark (known : List Bool) (x : Rule × RuleId) : List Bool :=
  if x.1.body.finishes known then known.set x.2 true else known

/-- One pass over the rules. -/
def pass (g : Rules) (known : List Bool) : List Bool := g.rules.zipIdx.foldl mark known

variable {g : Rules} {known : List Bool} {x : Rule × RuleId}

theorem length_mark : (mark known x).length = known.length := by
  unfold mark
  split
  · exact List.length_set
  · rfl

theorem length_pass : (g.pass known).length = known.length :=
  List.foldlRecOn (motive := fun known' : List Bool => known'.length = known.length) _ _ rfl
    fun _ h _ _ => length_mark.trans h

theorem enlarges_mark (x : Rule × RuleId) : Enlarges (List.count true) (mark · x) := by
  intro known
  show mark known x = known ∨ known.count true < (mark known x).count true
  unfold mark
  split
  · cases hget : known[x.2]? with
    | none => exact .inl (List.set_eq_of_length_le (List.getElem?_eq_none_iff.1 hget))
    | some k =>
      cases k with
      | true => exact .inl (set_eq_self hget)
      | false =>
        obtain ⟨hlt, heq⟩ := List.getElem?_eq_some_iff.1 hget
        right
        rw [List.count_set hlt, heq]
        simp
  · exact .inl rfl

theorem enlarges_pass (g : Rules) : Enlarges (List.count true) g.pass :=
  Enlarges.foldl enlarges_mark _

theorem mark?_eq (changed : Bool) (hx : x.2 < known.length)
    (hrefs : ∀ r ∈ x.1.body.refs, r < known.length) :
    mark? (known, changed) x = some (mark known x, changed || decide (mark known x ≠ known)) := by
  obtain ⟨k, hget⟩ : ∃ k, known[x.2]? = some k := ⟨_, List.getElem?_eq_getElem hx⟩
  rw [mark?, hget, Expr.finishes?_eq _ hrefs]
  cases k with
  | true =>
    have hsame : mark known x = known := by
      unfold mark
      split
      · exact set_eq_self hget
      · rfl
    simp [hsame]
  | false =>
    have hset : known.set x.2 true ≠ known := set_ne_self hget nofun
    cases hfin : x.1.body.finishes known with
    | true => simp [mark, hfin, hset]
    | false => simp [mark, hfin]

/-- A pass notes a change exactly when it has changed something. -/
theorem pass?_eq (hrefs : g.RefsInRange) (hlength : known.length = g.size) :
    g.pass? known = some (g.pass known, decide (g.pass known ≠ known)) := by
  have hmem : ∀ x ∈ g.rules.zipIdx, g.rules[x.2]? = some x.1 :=
    fun _ hx => List.mk_mem_zipIdx_iff_getElem?.1 hx
  refine (foldlM_noted (P := fun known => known.length = g.size) enlarges_mark ?_ ?_ hlength
    false).trans ?_
  · exact fun known x _ hlength => length_mark.trans hlength
  · intro known changed x hx hlength
    refine mark?_eq changed ?_ fun r hr => ?_
    · rw [hlength]
      exact (List.getElem?_eq_some_iff.1 (hmem x hx)).1
    · rw [hlength]
      exact hrefs x.1 (List.mem_of_getElem? (hmem x hx)) r hr
  · rw [Bool.false_or]
    rfl

/-- Passes without a bound come to the end that they come to when they are counted. -/
theorem settle?_eq (hrefs : g.RefsInRange) (hlength : known.length = g.size) (n : Nat)
    (hfixed : g.pass (g.pass^[n] known) = g.pass^[n] known) :
    g.settle? known = some (g.pass^[n] known) :=
  iterate?_noted (fun _ h => pass?_eq hrefs h) (fun _ h => length_pass.trans h) hlength n hfixed

theorem Sound.pass (h : g.Sound known) : g.Sound (g.pass known) := by
  refine List.foldlRecOn (motive := g.Sound) _ _ h fun known h x hx => ?_
  have hrule : g.rules[x.2]? = some x.1 := List.mk_mem_zipIdx_iff_getElem?.1 hx
  unfold mark
  split
  · next hfin =>
    intro r hr
    rw [List.getElem?_set] at hr
    split at hr
    · next heq => exact heq ▸ h.exists_sentence hrule hfin
    · exact h r hr
  · exact h

/-- Passes that have come to an end have marked the rules that have sentences. -/
theorem Sound.exact_iterate (h : g.Sound known) (hrefs : g.RefsInRange)
    (hlength : known.length = g.size) (n : Nat)
    (hfixed : g.pass (g.pass^[n] known) = g.pass^[n] known) : g.Exact (g.pass^[n] known) := by
  have hkeep : ∀ n, (g.pass^[n] known).length = g.size ∧ g.Sound (g.pass^[n] known) := by
    intro n
    induction n with
    | zero => exact ⟨hlength, h⟩
    | succ n ih =>
      rw [Function.iterate_succ_apply']
      exact ⟨length_pass.trans ih.1, ih.2.pass⟩
  obtain ⟨hlength', hsound⟩ := hkeep n
  refine .of_closed hrefs hlength' hsound fun r hr hfin => ?_
  have hget : g.rules[r]? = some g.rules[r] := List.getElem?_eq_getElem hr
  -- Nothing is marked any more, so a rule that can finish has been marked before.
  have hmark := Enlarges.foldl_fixed enlarges_mark hfixed (g.rules[r], r)
    (List.mk_mem_zipIdx_iff_getElem?.2 hget)
  rw [rule_eq_of_getElem? hget] at hfin
  rw [mark, if_pos hfin] at hmark
  rw [← hmark, List.getElem?_set_self (hlength' ▸ hr)]

/-- Passes in place come to an end, and then the marked rules are the productive ones. -/
theorem productive?_eq (hrefs : g.RefsInRange) : g.productive? = some g.productive := by
  have hlength : (g.rules.map fun _ => false).length = g.size := List.length_map _
  have hgrow : ∀ known, known.length = g.size →
      g.pass known = known ∨ known.count true < (g.pass known).count true :=
    fun known _ => enlarges_pass g known
  have hkeep : ∀ known, known.length = g.size → (g.pass known).length = g.size :=
    fun _ h => length_pass.trans h
  have hbound : ∀ known : List Bool, known.length = g.size → known.count true ≤ g.size :=
    fun _ h => h ▸ List.count_le_length
  have hfixed := iterate_settled hgrow hkeep hbound g.size _ hlength (Nat.le_add_left ..)
  have hexact := (sound_none g).exact_iterate hrefs hlength g.size hfixed
  rw [productive?, settle?_eq hrefs hlength g.size hfixed, hexact.unique (exact_productive hrefs)]

/-! ## The start rule -/

theorem reports_eq_nil_of_not_anyError
    (h : Diagnostic.anyError g.withoutLeftRecursion.2 = false) :
    g.withoutLeftRecursion.2 = [] := by
  rw [reports_withoutLeftRecursion] at h ⊢
  refine List.map_eq_nil_iff.2 (List.eq_nil_iff_forall_not_mem.2 fun r hr => ?_)
  exact List.any_eq_false.1 h _ (List.mem_map_of_mem hr) rfl

section

variable (catalog : Catalog) (lowering : Lowering)

theorem exists_lower_eq_ok (h : Diagnostic.anyError g.withoutLeftRecursion.2 = false)
    (hp : g.withoutLeftRecursion.1.productive[start]? = some true) :
    ∃ grammar ds, g.lower catalog lowering = .ok (grammar, ds) := by
  unfold lower
  dsimp only
  rw [h, getD_false_iff.2 hp]
  cases lowering with
  | direct => exact ⟨_, _, rfl⟩
  | flatten =>
    cases g.withoutLeftRecursion.1.flatten catalog with
    | ok grammar => exact ⟨_, _, rfl⟩
    | error e => exact ⟨_, _, rfl⟩

theorem lower_eq_error (h : Diagnostic.anyError g.withoutLeftRecursion.2 = false)
    (hp : g.withoutLeftRecursion.1.productive[start]? ≠ some true) :
    g.lower catalog lowering = .error (.invalidGrammar
      [Diagnostic.about .unproductiveStart (g.rule start).span (g.rule start).name]) := by
  have hreports := reports_eq_nil_of_not_anyError h
  rw [Ne, ← getD_false_iff, Bool.not_eq_true] at hp
  unfold lower
  dsimp only
  rw [h, rule_withoutLeftRecursion, hreports, hp]
  rfl

end

/-- For rules that refer to rules only, passes in place come to an end and mark exactly the rules
    that have sentences. So when the removal of left recursion reports no error, lowering refuses
    the rules for their start rule exactly when that has no sentence, and succeeds otherwise. -/
theorem productive_exact (hrefs : g.RefsInRange) :
    g.productive? = some g.productive ∧ g.productive.length = g.size ∧
      (∀ r < g.size, g.productive[r]? = some true ↔ ∃ w, g.Sentence r w) ∧
      ∀ catalog lowering, 0 < g.size → Diagnostic.anyError g.withoutLeftRecursion.2 = false →
        (g.lower catalog lowering = .error (.invalidGrammar
          [Diagnostic.about .unproductiveStart (g.rule start).span (g.rule start).name]) ↔
            ¬∃ w, g.Sentence start w) ∧
        ((∃ grammar ds, g.lower catalog lowering = .ok (grammar, ds)) ↔
          ∃ w, g.Sentence start w) := by
  have hexact := exact_productive hrefs
  refine ⟨productive?_eq hrefs, hexact.length_eq, hexact.known_iff, ?_⟩
  intro catalog lowering hsize hclean
  have hstart := (exact_productive hrefs.withoutLeftRecursion).known_iff start
    (size_withoutLeftRecursion g ▸ hsize)
  simp only [sentence_withoutLeftRecursion] at hstart
  by_cases hw : ∃ w, g.Sentence start w
  · obtain ⟨grammar, ds, hok⟩ := exists_lower_eq_ok catalog lowering hclean (hstart.2 hw)
    refine ⟨⟨fun herror => ?_, fun hnone => absurd hw hnone⟩, fun _ => hw, fun _ => ⟨_, _, hok⟩⟩
    exact absurd (hok.symm.trans herror) (ok_ne_error _ _)
  · have herror := lower_eq_error catalog lowering hclean fun hp => hw (hstart.1 hp)
    refine ⟨⟨fun _ => hw, fun _ => herror⟩, fun ⟨grammar, ds, hok⟩ => ?_, fun h => absurd h hw⟩
    exact absurd (hok.symm.trans herror) (ok_ne_error _ _)

/-- Rules of which the last cannot finish, `s : T s | t ; t : (u v)+ ; u : X* ; v : w | u ;
    w : w T | v w ;`. -/
def deadEnd : Rules :=
  ⟨[⟨"s", default, .alt [.seq [.terminal 1, .rule 0], .rule 1]⟩,
    ⟨"t", default, .repeated (.seq [.rule 2, .rule 3]) .oneOrMore⟩,
    ⟨"u", default, .repeated (.terminal 0) .zeroOrMore⟩,
    ⟨"v", default, .alt [.rule 4, .rule 2]⟩,
    ⟨"w", default, .alt [.seq [.rule 4, .terminal 1], .seq [.rule 3, .rule 4]]⟩]⟩

theorem deadEnd_productive : deadEnd.RefsInRange ∧
    deadEnd.productive? = some [true, true, true, true, false] ∧
    (¬∃ w, deadEnd.Sentence 4 w) ∧ (∃ w, deadEnd.Sentence start w) ∧
    ∃ grammar ds, deadEnd.lower ⟨[], by decide⟩ .flatten = .ok (grammar, ds) := by
  have hrefs : deadEnd.RefsInRange := by decide
  obtain ⟨hpasses, -, hknown, hlower⟩ := productive_exact hrefs
  have hproductive : deadEnd.productive = [true, true, true, true, false] := by decide
  rw [hproductive] at hpasses hknown
  have hs := (hknown 0 (by decide)).1 rfl
  exact ⟨hrefs, hpasses, fun hw => absurd ((hknown 4 (by decide)).2 hw) (by decide), hs,
    (hlower _ .flatten (by decide) (by decide)).2.2 hs⟩

end Rules

end FluentGrammar
