import FluentGrammar.Proofs.Lowering.Additions
import FluentGrammar.Proofs.Lowering.References
import Mathlib.Data.List.Perm.Subperm

/-
  Continuations and references. A nonterminal is made after the continuation that it goes on to, so
  along a reference the number of the continuation stays where the reference is in tail position
  and grows where it is not. Two things follow. A reference to an open rule with another
  continuation than that rule's own closes a chain of references that are not all in tail position,
  so the expansion of rules fails only where a rule nests in itself (`expandRule_handles`). And once
  all rules are closed, every expansion has the expansions of its references (`Open.closed`), so a
  rule that nests in itself would have expansions with ever greater continuations, of which there
  are only finitely many (`Open.not_nests`).
-/

namespace FluentGrammar

namespace Flatten

open FluentGrammar.Expr

variable {rules : Rules} {s s' : State} {n next : NonterminalId} {r : RuleId}
  {frames : List (RuleId × NonterminalId)}

/-! ## Continuations -/

/-- Rules with the continuations that they have been expanded for. -/
def State.keys (s : State) : List (RuleId × NonterminalId) := s.expansions.map (·.1)

/-- Nonterminals and expansions are only added. -/
def Later (s s' : State) : Prop := s.count ≤ s'.count ∧ s.keys ⊆ s'.keys

theorem Later.refl (s : State) : Later s s := ⟨Nat.le_refl _, List.Subset.refl _⟩

theorem Later.trans {s'' : State} (h : Later s s') (h' : Later s' s'') : Later s s'' :=
  ⟨Nat.le_trans h.1 h'.1, List.Subset.trans h.2 h'.2⟩

/-- Rule `r` has been expanded behind a reference that is reached with continuation `k`. -/
def Follows (s : State) (k : NonterminalId) (r : RuleId) (tail : Bool) : Prop :=
  ∃ next, (r, next) ∈ s.keys ∧ k ≤ next ∧ (tail = false → k < next)

theorem Follows.mono {k : NonterminalId} {tail : Bool} (hs : Later s s')
    (h : Follows s k r tail) : Follows s' k r tail := by
  obtain ⟨next, hmem, hle, hlt⟩ := h
  exact ⟨next, hs.2 hmem, hle, hlt⟩

/-- Behind a greater continuation the reference may be in any position. -/
theorem Follows.of_lt {k k' : NonterminalId} {tail tail' : Bool} (hk : k < k')
    (h : Follows s k' r tail') : Follows s k r tail := by
  obtain ⟨next, hmem, hle, -⟩ := h
  have hlt := Nat.lt_of_lt_of_le hk hle
  exact ⟨next, hmem, Nat.le_of_lt hlt, fun _ => hlt⟩

/-- The innermost of the open rules refers to `r`, and if that is in tail position then `next` is
    its own continuation. Nothing but the start rule is expanded when no rule is open. -/
def Called (rules : Rules) : List (RuleId × NonterminalId) → RuleId → NonterminalId → Prop
  | [], r, _ => r = Rules.start
  | (q, k) :: _, r, next =>
    ∃ tail, (rules.rule q).body.RefersTo r tail ∧ (tail = true → next = k)

/-- Every open rule has been called from the one that was open before. -/
inductive Nested (rules : Rules) : List (RuleId × NonterminalId) → Prop
  | nil : Nested rules []
  | cons {frame : RuleId × NonterminalId} {others : List (RuleId × NonterminalId)} :
      Called rules others frame.1 frame.2 → Nested rules others → Nested rules (frame :: others)

/-- Every rule that is called or open is used. -/
theorem Nested.used (h : Nested rules frames) (hcall : Called rules frames r next) :
    rules.Used r := by
  induction h generalizing r next with
  | nil =>
    subst hcall
    exact .refl
  | cons hopen _ ih =>
    obtain ⟨tail, href, -⟩ := hcall
    exact (ih hopen).step href

theorem Nested.used_of_mem (h : Nested rules frames) (hr : r ∈ frames.map (·.1)) :
    rules.Used r := by
  induction h with
  | nil => cases hr
  | cons hopen h ih =>
    rcases List.mem_cons.1 hr with rfl | hr
    · exact h.used hopen
    · exact ih hr

/-- References lead from an open rule to the one that is called. If all of them are in tail
    position, the continuation has stayed the same. -/
theorem Nested.chain {q : RuleId} {k : NonterminalId} (h : Nested rules frames)
    (hcall : Called rules frames r next) (hmem : (q, k) ∈ frames) :
    ∃ tail, rules.Chain q r tail ∧ (tail = true → next = k) := by
  induction h generalizing r next with
  | nil => cases hmem
  | cons hopen _ ih =>
    obtain ⟨tail, href, hnext⟩ := hcall
    rcases List.mem_cons.1 hmem with heq | hmem
    · cases heq
      exact ⟨tail, .single href, hnext⟩
    · obtain ⟨tails, hchain, hk⟩ := ih hopen hmem
      refine ⟨tails && tail, .snoc hchain href, fun hall => ?_⟩
      obtain ⟨htails, htail⟩ := Bool.and_eq_true_iff.1 hall
      rw [hnext htail, hk htails]

/-! ## What a call leaves behind -/

/-- A state of the translation in which these rules are open, the innermost first. -/
structure Open (rules : Rules) (frames : List (RuleId × NonterminalId)) (s : State) : Prop where
  active : s.active = frames.map (·.1)
  nodup : s.active.Nodup
  nested : Nested rules frames
  known : ∀ f ∈ frames, f ∈ s.keys
  /-- An expansion is made after its continuation. -/
  above : ∀ f n, (f, n) ∈ s.expansions → f.2 < n ∧ n < s.count
  /-- A rule that is closed has the expansions of its references. -/
  closed : ∀ q k, (q, k) ∈ s.keys → (q, k) ∉ frames → ∀ r tail,
    (rules.rule q).body.RefersTo r tail → Follows s k r tail

/-- The translation fails because some rule nests in itself, or its result is as `good` says. -/
def Answers {α : Type} (rules : Rules) (good : α → Prop) : Except NotRegular α → Prop
  | .ok a => good a
  | .error e => rules.Nests e.rule

theorem Answers.bind {α β : Type} {good : α → Prop} {good' : β → Prop} {m : Except NotRegular α}
    {f : α → Except NotRegular β} (h : Answers rules good m)
    (hf : ∀ a, good a → Answers rules good' (f a)) : Answers rules good' (m >>= f) := by
  cases m with
  | error e => exact h
  | ok a => exact hf a h

/-- Changes that leave expansions and open rules alone. -/
theorem Open.congr (h : Open rules frames s) (hactive : s'.active = s.active)
    (hexpansions : s'.expansions = s.expansions) (hcount : s.count ≤ s'.count) :
    Open rules frames s' := by
  have hkeys : s'.keys = s.keys := congrArg (List.map Prod.fst) hexpansions
  refine ⟨hactive.trans h.active, hactive ▸ h.nodup, h.nested, hkeys ▸ h.known, ?_, ?_⟩
  · intro f n hmem
    obtain ⟨hlt, hn⟩ := h.above f n (hexpansions ▸ hmem)
    exact ⟨hlt, Nat.lt_of_lt_of_le hn hcount⟩
  · intro q k hmem hnot r tail href
    exact (h.closed q k (hkeys ▸ hmem) hnot r tail href).mono ⟨hcount, hkeys ▸ List.Subset.refl _⟩

theorem keys_enter (rules : Rules) (r : RuleId) (next : NonterminalId) (s : State) :
    (s.enter rules r next).keys = (r, next) :: s.keys := rfl

theorem later_enter (rules : Rules) (r : RuleId) (next : NonterminalId) (s : State) :
    Later s (s.enter rules r next) := by
  refine ⟨?_, List.subset_cons_self _ _⟩
  rw [count_enter]
  exact Nat.le_succ _

theorem later_fresh (rules : Rules) (owner : RuleId) (s : State) :
    Later s (s.fresh rules owner).2 := by
  refine ⟨?_, List.Subset.refl _⟩
  rw [count_fresh]
  exact Nat.le_succ _

theorem Open.fresh (h : Open rules frames s) (owner : RuleId) :
    Open rules frames (s.fresh rules owner).2 :=
  h.congr rfl rfl (later_fresh rules owner s).1

theorem Open.produce (h : Open rules frames s) (owner : RuleId) (n : NonterminalId)
    (rhs : List Symbol) : Open rules frames (s.produce rules owner n rhs) :=
  h.congr rfl rfl (Nat.le_refl _)

/-- Distinct rules are fewer than all rules when one of those is not among them. -/
theorem length_lt_size {rs : List RuleId} (hnodup : rs.Nodup) (hrs : ∀ q ∈ rs, q < rules.size)
    (hr : r < rules.size) (hnot : r ∉ rs) : rs.length < rules.size := by
  have hrange : r :: rs ⊆ List.range rules.size := by
    intro q hq
    rw [List.mem_range]
    rcases List.mem_cons.1 hq with rfl | hq
    · exact hr
    · exact hrs q hq
  have hlength := (List.subperm_of_subset (List.nodup_cons.2 ⟨hnot, hnodup⟩) hrange).length_le
  rwa [List.length_cons, List.length_range] at hlength

/-- There is room for the rules that are not open yet. -/
theorem Open.length_lt (h : Open rules frames s) (hrefs : rules.RefsInRange)
    (hsize : 0 < rules.size) (hcall : Called rules frames r next) (hr : r ∉ s.active) :
    frames.length < rules.size := by
  have hlt : ∀ q ∈ s.active, q < rules.size :=
    fun q hq => (h.nested.used_of_mem (h.active ▸ hq)).lt_size hrefs hsize
  have hlength := length_lt_size h.nodup hlt ((h.nested.used hcall).lt_size hrefs hsize) hr
  rwa [h.active, List.length_map] at hlength

/-- A reference to an open rule with a continuation that is not its own closes a chain of
    references that are not all in tail position. -/
theorem Open.nests (h : Open rules frames s) (hcall : Called rules frames r next)
    (hr : r ∈ s.active) (hnew : (r, next) ∉ s.keys) : rules.Nests r := by
  rw [h.active] at hr
  obtain ⟨⟨q, k⟩, hmem, rfl⟩ := List.mem_map.1 hr
  obtain ⟨tail, hchain, hk⟩ := h.nested.chain hcall hmem
  refine ⟨h.nested.used hcall, ?_⟩
  cases tail with
  | false => exact hchain
  | true =>
    rw [hk rfl] at hnew
    exact absurd (h.known _ hmem) hnew

/-- What the expansion of a rule has to give: a nonterminal that is greater than the continuation,
    in a state with the same rules open. -/
def Found (rules : Rules) (frames : List (RuleId × NonterminalId)) (r : RuleId)
    (next : NonterminalId) (s : State) : NonterminalId × State → Prop := fun (n, s') =>
  Open rules frames s' ∧ Later s s' ∧ next < n ∧ n < s'.count ∧ (r, next) ∈ s'.keys

/-- The expansions of rules are as they have to be, when that many more rules may be open. -/
def Handles (rules : Rules) (room : Nat) (f : RuleId → NonterminalId → State → Result) : Prop :=
  ∀ r next s frames, Open rules frames s → Called rules frames r next → next < s.count →
    rules.size ≤ frames.length + room → Answers rules (Found rules frames r next s) (f r next s)

/-- What the expansion of an expression has to give: a nonterminal that is the continuation itself
    if the expression is empty and a greater one if not, and the expansions of all references. -/
def Expanded (rules : Rules) (frames : List (RuleId × NonterminalId)) (e : Expr)
    (next : NonterminalId) (s : State) : NonterminalId × State → Prop := fun (n, s') =>
  Open rules frames s' ∧ Later s s' ∧ n < s'.count ∧
    (if e.isNothing then n = next else next < n) ∧
    ∀ r tail, e.RefersTo r tail → Follows s' next r tail

/-- The expression stands in the body of the innermost open rule `q`, which is expanded for `k`. It
    is reached with the continuation `k` if it is in tail position there. -/
structure Placed (rules : Rules) (q : RuleId) (k : NonterminalId) (e : Expr)
    (next : NonterminalId) (last : Bool) : Prop where
  refs : ∀ r tail, e.RefersTo r tail → (rules.rule q).body.RefersTo r (last && tail)
  next : last = true → next = k

theorem Answers.imp {α : Type} {good good' : α → Prop} {m : Except NotRegular α}
    (h : Answers rules good m) (himp : ∀ a, good a → good' a) : Answers rules good' m := by
  cases m with
  | error e => exact h
  | ok a => exact himp a h

theorem Expanded.le {e : Expr} (h : Expanded rules frames e next s (n, s')) : next ≤ n := by
  obtain ⟨-, -, -, hn, -⟩ := h
  split at hn
  · exact Nat.le_of_eq hn.symm
  · exact Nat.le_of_lt hn

/-- An expression in front of a sequence is expanded for the nonterminal of the sequence. -/
theorem Expanded.cons {item : Expr} {rest : List Expr} {after : NonterminalId} {s₁ : State}
    (hrest : Expanded rules frames (.seq rest) next s (after, s₁))
    (hitem : Expanded rules frames item after s₁ (n, s')) :
    Expanded rules frames (.seq (item :: rest)) next s (n, s') := by
  have hle := hitem.le
  obtain ⟨-, hs₁, -, hafter, hrefs₁⟩ := hrest
  obtain ⟨h', hs', hcount, hn, hrefs⟩ := hitem
  rw [isNothing] at hafter
  refine ⟨h', hs₁.trans hs', hcount, ?_, fun r tail href => ?_⟩
  · rw [isNothing, allNothing]
    cases hnothing : allNothing rest with
    | false =>
      rw [hnothing] at hafter
      rw [Bool.and_false]
      exact Nat.lt_of_lt_of_le hafter hle
    | true =>
      rw [hnothing] at hafter
      rw [Bool.and_true, ← show after = next from hafter]
      exact hn
  · cases href with
    | there href => exact (hrefs₁ r tail href).mono hs'
    | @here _ _ tail href =>
      cases hnothing : allNothing rest with
      | false =>
        rw [hnothing] at hafter
        exact (hrefs r tail href).of_lt hafter
      | true =>
        rw [hnothing] at hafter
        rw [Bool.and_true, ← show after = next from hafter]
        exact hrefs r tail href

section

variable {f : RuleId → NonterminalId → State → Result} {room : Nat} {owner q : RuleId}
  {k : NonterminalId} {last : Bool}

mutual

theorem expand_answers (hf : Handles rules room f)
    (hroom : rules.size ≤ ((q, k) :: frames).length + room) (e : Expr) (next : NonterminalId)
    (s : State) (last : Bool) (h : Open rules ((q, k) :: frames) s)
    (hplaced : Placed rules q k e next last) (hnext : next < s.count) :
    Answers rules (Expanded rules ((q, k) :: frames) e next s)
      (expand rules f owner e next s) := by
  -- The state in which there is one more nonterminal, numbered by those before.
  have hfresh := h.fresh owner
  have hlater := later_fresh rules owner s
  have hcount := count_fresh rules owner s
  match e with
  | .empty =>
    rw [expand]
    exact ⟨h, Later.refl s, hnext, rfl, nofun⟩
  | .terminal t =>
    rw [expand]
    exact ⟨hfresh.produce owner _ _, hlater, hcount ▸ Nat.lt_succ_self _, hnext, nofun⟩
  | .rule r =>
    rw [expand]
    have hcall : Called rules ((q, k) :: frames) r next := by
      refine ⟨last && true, hplaced.refs r true .rule, fun hlast => hplaced.next ?_⟩
      rwa [Bool.and_true] at hlast
    refine (hf r next s _ h hcall hnext hroom).imp fun (n, s') ⟨h', hs, hlt, hn, hmem⟩ => ?_
    refine ⟨h', hs, hn, hlt, fun r' tail href => ?_⟩
    cases href
    exact ⟨next, hmem, Nat.le_refl _, nofun⟩
  | .seq items =>
    rw [expand]
    exact expandSeq_answers hf hroom items next s last h hplaced hnext
  | .alt bs =>
    rw [expand]
    have hnext' : next < (s.fresh rules owner).2.count := Nat.lt_of_lt_of_le hnext hlater.1
    refine (expandAlt_answers hf hroom bs _ next _ last hfresh hplaced hnext').bind ?_
    rintro s' ⟨h', hs, hrefs⟩
    refine ⟨h', hlater.trans hs, Nat.lt_of_lt_of_le ?_ hs.1, hnext, hrefs⟩
    exact hcount ▸ Nat.lt_succ_self _
  | .repeated inner .zeroOrMore =>
    rw [expand]
    have hinner : Placed rules q k inner s.count false :=
      ⟨fun r tail href => by simpa using hplaced.refs r false (.loop nofun href), nofun⟩
    have hn : s.count < (s.fresh rules owner).2.count := hcount ▸ Nat.lt_succ_self _
    refine (expand_answers hf hroom inner s.count _ false hfresh hinner hn).bind ?_
    rintro ⟨body, s'⟩ ⟨h', hs, hbody, -, hrefs⟩
    refine ⟨(h'.produce owner _ _).produce owner _ _, hlater.trans hs,
      Nat.lt_of_lt_of_le hn hs.1, hnext, fun r tail href => ?_⟩
    cases href with
    | loop _ href => exact (hrefs r _ href).of_lt hnext
  | .repeated inner .oneOrMore =>
    rw [expand]
    have hagain := hfresh.fresh owner
    have hlater' := later_fresh rules owner (s.fresh rules owner).2
    have hcount' := count_fresh rules owner (s.fresh rules owner).2
    have hinner : Placed rules q k inner (s.fresh rules owner).2.count false :=
      ⟨fun r tail href => by simpa using hplaced.refs r false (.loop nofun href), nofun⟩
    refine (expand_answers hf hroom inner _ _ false hagain hinner
      (hcount' ▸ Nat.lt_succ_self _)).bind ?_
    rintro ⟨body, s'⟩ ⟨h', hs, hbody, -, hrefs⟩
    have hall := (hlater.trans hlater').trans hs
    refine ⟨((h'.produce owner _ _).produce owner _ _).produce owner _ _, hall,
      Nat.lt_of_lt_of_le (hcount ▸ Nat.lt_succ_self _) (hlater'.trans hs).1, hnext,
      fun r tail href => ?_⟩
    cases href with
    | loop _ href => exact (hrefs r _ href).of_lt (Nat.lt_of_lt_of_le hnext hlater.1)
  | .repeated inner .optional =>
    rw [expand]
    have hinner : Placed rules q k inner next last :=
      ⟨fun r tail href => hplaced.refs r tail (.optional href), hplaced.next⟩
    have hnext' : next < (s.fresh rules owner).2.count := Nat.lt_of_lt_of_le hnext hlater.1
    refine (expand_answers hf hroom inner next _ last hfresh hinner hnext').bind ?_
    rintro ⟨body, s'⟩ ⟨h', hs, hbody, -, hrefs⟩
    refine ⟨(h'.produce owner _ _).produce owner _ _, hlater.trans hs,
      Nat.lt_of_lt_of_le (hcount ▸ Nat.lt_succ_self _) hs.1, hnext, fun r tail href => ?_⟩
    cases href with
    | loop hloop _ => exact absurd rfl hloop
    | optional href => exact hrefs r tail href

/-- A sequence is in the place of its last expressions. What stands in front of them is reached with
    their nonterminal, which is the continuation itself only if they are empty. -/
theorem expandSeq_answers (hf : Handles rules room f)
    (hroom : rules.size ≤ ((q, k) :: frames).length + room) (items : List Expr)
    (next : NonterminalId) (s : State) (last : Bool) (h : Open rules ((q, k) :: frames) s)
    (hplaced : Placed rules q k (.seq items) next last) (hnext : next < s.count) :
    Answers rules (Expanded rules ((q, k) :: frames) (.seq items) next s)
      (expandSeq rules f owner items next s) := by
  match items with
  | [] =>
    rw [expandSeq]
    exact ⟨h, Later.refl s, hnext, rfl, nofun⟩
  | item :: rest =>
    rw [expandSeq]
    have hrest : Placed rules q k (.seq rest) next last :=
      ⟨fun r tail href => hplaced.refs r tail (.there href), hplaced.next⟩
    refine (expandSeq_answers hf hroom rest next s last h hrest hnext).bind ?_
    rintro ⟨after, s₁⟩ ⟨h₁, hs₁, hafter, heq, hrefs₁⟩
    have hitem : Placed rules q k item after (last && allNothing rest) := by
      refine ⟨fun r tail href => ?_, fun hlast => ?_⟩
      · rw [Bool.and_assoc, Bool.and_comm (allNothing rest)]
        exact hplaced.refs r _ (.here href)
      · obtain ⟨hlast, hnothing⟩ := Bool.and_eq_true_iff.1 hlast
        rw [isNothing, if_pos hnothing] at heq
        rw [heq, hplaced.next hlast]
    refine (expand_answers hf hroom item after s₁ _ h₁ hitem hafter).imp ?_
    exact fun (n, s₂) h₂ => .cons ⟨h₁, hs₁, hafter, heq, hrefs₁⟩ h₂

theorem expandAlt_answers (hf : Handles rules room f)
    (hroom : rules.size ≤ ((q, k) :: frames).length + room) (bs : List Expr)
    (n next : NonterminalId) (s : State) (last : Bool) (h : Open rules ((q, k) :: frames) s)
    (hplaced : Placed rules q k (.alt bs) next last) (hnext : next < s.count) :
    Answers rules (fun s' => Open rules ((q, k) :: frames) s' ∧ Later s s' ∧
        ∀ r tail, (Expr.alt bs).RefersTo r tail → Follows s' next r tail)
      (expandAlt rules f owner n bs next s) := by
  match bs with
  | [] =>
    rw [expandAlt]
    refine ⟨h, Later.refl s, fun r tail href => ?_⟩
    cases href with
    | alt hb => cases hb
  | b :: rest =>
    rw [expandAlt]
    have hb : Placed rules q k b next last :=
      ⟨fun r tail href => hplaced.refs r tail (.alt List.mem_cons_self href), hplaced.next⟩
    have hrest : Placed rules q k (.alt rest) next last := by
      refine ⟨fun r tail href => ?_, hplaced.next⟩
      cases href with
      | alt hb href => exact hplaced.refs r tail (.alt (List.mem_cons_of_mem _ hb) href)
    refine (expand_answers hf hroom b next s last h hb hnext).bind ?_
    rintro ⟨target, s₁⟩ ⟨h₁, hs₁, -, -, hrefs₁⟩
    have hlater : Later s (s₁.produce rules owner n [.nonterminal target]) := hs₁
    refine (expandAlt_answers hf hroom rest n next _ last (h₁.produce owner _ _) hrest
      (Nat.lt_of_lt_of_le hnext hlater.1)).imp ?_
    rintro s₂ ⟨h₂, hs₂, hrefs₂⟩
    refine ⟨h₂, hlater.trans hs₂, fun r tail href => ?_⟩
    cases href with
    | alt hmem href =>
      rcases List.mem_cons.1 hmem with rfl | hmem
      · exact (hrefs₁ r tail href).mono hs₂
      · exact hrefs₂ r tail (.alt hmem href)

end

/-- A rule becomes open for its continuation and has a nonterminal. -/
theorem Open.enter (h : Open rules frames s) (hcall : Called rules frames r next)
    (hnext : next < s.count) (hr : r ∉ s.active) :
    Open rules ((r, next) :: frames) (s.enter rules r next) := by
  refine ⟨congrArg (r :: ·) h.active, List.nodup_cons.2 ⟨hr, h.nodup⟩, .cons hcall h.nested, ?_,
    ?_, ?_⟩
  · intro f hf
    rw [keys_enter]
    rcases List.mem_cons.1 hf with rfl | hf
    · exact List.mem_cons_self
    · exact List.mem_cons_of_mem _ (h.known f hf)
  · intro f n hmem
    rw [count_enter]
    rcases List.mem_cons.1 hmem with heq | hmem
    · cases heq
      exact ⟨hnext, Nat.lt_succ_self _⟩
    · obtain ⟨hlt, hn⟩ := h.above f n hmem
      exact ⟨hlt, Nat.lt_succ_of_lt hn⟩
  · intro q k hmem hnot p tail href
    rw [keys_enter] at hmem
    rcases List.mem_cons.1 hmem with heq | hmem
    · exact absurd (heq ▸ List.mem_cons_self) hnot
    · exact (h.closed q k hmem (mt (List.mem_cons_of_mem _) hnot) p tail href).mono
        (later_enter rules r next s)

/-- A rule is closed when its references have been expanded. -/
theorem Open.leave (h : Open rules ((r, next) :: frames) s)
    (hrefs : ∀ q tail, (rules.rule r).body.RefersTo q tail → Follows s next q tail) :
    Open rules frames { s with active := s.active.drop 1 } := by
  have hnodup := h.nodup
  have hactive := h.active
  rw [hactive] at hnodup
  refine ⟨by rw [hactive]; rfl, by rw [hactive]; exact (List.nodup_cons.1 hnodup).2, ?_,
    fun f hf => h.known f (List.mem_cons_of_mem _ hf), h.above, ?_⟩
  · cases h.nested with
    | cons _ hnested => exact hnested
  · intro q k hmem hnot p tail href
    by_cases heq : (q, k) = (r, next)
    · cases heq
      exact hrefs p tail href
    · refine h.closed q k hmem (fun hframe => ?_) p tail href
      rcases List.mem_cons.1 hframe with heq' | hframe
      · exact heq heq'
      · exact hnot hframe

/-- Calls of rules fail only where a rule nests in itself. When there is no room, all rules are open
    already. -/
theorem expandRule_handles (hrefs : rules.RefsInRange) (hsize : 0 < rules.size) (room : Nat) :
    Handles rules room (expandRule rules room) := by
  have known {room r next n s frames} (h : Open rules frames s)
      (hlookup : s.expansions.lookup (r, next) = some n) :
      Answers rules (Found rules frames r next s) (expandRule rules room r next s) := by
    have hmem := mem_of_lookup_eq_some hlookup
    obtain ⟨hlt, hn⟩ := h.above _ n hmem
    rw [expandRule_of_lookup hlookup]
    exact ⟨h, Later.refl s, hlt, hn, List.mem_map.2 ⟨_, hmem, rfl⟩⟩
  have nests {room r next s frames} (h : Open rules frames s)
      (hcall : Called rules frames r next) (hlookup : s.expansions.lookup (r, next) = none)
      (hr : r ∈ s.active) :
      Answers rules (Found rules frames r next s) (expandRule rules room r next s) := by
    rw [expandRule_of_mem hlookup hr]
    refine h.nests hcall hr fun hmem => ?_
    obtain ⟨⟨f, n⟩, hmem, rfl⟩ := List.mem_map.1 hmem
    have hne := List.lookup_eq_none_iff.1 hlookup _ hmem
    exact absurd rfl (bne_iff_ne.1 hne)
  induction room with
  | zero =>
    intro r next s frames h hcall hnext hroom
    cases hlookup : s.expansions.lookup (r, next) with
    | some n => exact known h hlookup
    | none =>
      refine nests h hcall hlookup ?_
      by_contra hr
      exact absurd (h.length_lt hrefs hsize hcall hr) (Nat.not_lt.2 hroom)
  | succ room ih =>
    intro r next s frames h hcall hnext hroom
    cases hlookup : s.expansions.lookup (r, next) with
    | some n => exact known h hlookup
    | none =>
      by_cases hr : r ∈ s.active
      · exact nests h hcall hlookup hr
      · rw [expandRule_of_new hlookup hr]
        have hlater := later_enter rules r next s
        have hbody : Placed rules r next (rules.rule r).body next true :=
          ⟨fun q tail href => by rwa [Bool.true_and], fun _ => rfl⟩
        refine (expand_answers ih (by rw [List.length_cons]; omega) _ next _ true
          (h.enter hcall hnext hr) hbody (Nat.lt_of_lt_of_le hnext hlater.1)).bind ?_
        rintro ⟨body, s'⟩ ⟨h', hs, -, -, hall⟩
        refine ⟨(h'.leave hall).produce r _ _, hlater.trans hs, hnext, ?_, hs.2 ?_⟩
        · exact Nat.lt_of_lt_of_le (count_enter rules r next s ▸ Nat.lt_succ_self _) hs.1
        · rw [keys_enter]
          exact List.mem_cons_self

end

/-! ## Rules that nest in themselves -/

/-- Once all rules are closed, a chain of references from an expanded rule leads to an expansion
    with a continuation that is greater if the references are not all in tail position. -/
theorem Open.follows (h : Open rules [] s) {q : RuleId} {k : NonterminalId} {tail : Bool}
    (hmem : (q, k) ∈ s.keys) (hchain : rules.Chain q r tail) : Follows s k r tail := by
  induction hchain with
  | single href => exact h.closed q k hmem List.not_mem_nil _ _ href
  | @snoc p r tail tail' _ href ih =>
    obtain ⟨k', hmem', hle, hlt⟩ := ih
    obtain ⟨k'', hmem'', hle', hlt'⟩ := h.closed p k' hmem' List.not_mem_nil _ _ href
    refine ⟨k'', hmem'', Nat.le_trans hle hle', fun hboth => ?_⟩
    rcases Bool.and_eq_false_iff.1 hboth with htail | htail
    · exact Nat.lt_of_lt_of_le (hlt htail) hle'
    · exact Nat.lt_of_le_of_lt hle (hlt' htail)

theorem Open.exists_key (h : Open rules [] s) {k : NonterminalId}
    (hstart : (Rules.start, k) ∈ s.keys) (hr : rules.Used r) : ∃ k, (r, k) ∈ s.keys := by
  induction hr with
  | refl => exact ⟨k, hstart⟩
  | tail _ href ih =>
    obtain ⟨k', hmem⟩ := ih
    obtain ⟨tail, href⟩ := exists_refersTo _ href
    obtain ⟨k'', hmem', -⟩ := h.closed _ k' hmem List.not_mem_nil _ _ href
    exact ⟨k'', hmem'⟩

/-- A translation that has come to its end has met no rule that nests in itself. -/
theorem Open.not_nests (h : Open rules [] s) {k : NonterminalId}
    (hstart : (Rules.start, k) ∈ s.keys) : ¬rules.Nests r := by
  rintro ⟨hused, hchain⟩
  have grows (m : Nat) : ∃ k, (r, k) ∈ s.keys ∧ m ≤ k := by
    induction m with
    | zero =>
      obtain ⟨k, hmem⟩ := h.exists_key hstart hused
      exact ⟨k, hmem, Nat.zero_le k⟩
    | succ m ih =>
      obtain ⟨k, hmem, hle⟩ := ih
      obtain ⟨k', hmem', -, hlt⟩ := h.follows hmem hchain
      exact ⟨k', hmem', Nat.lt_of_le_of_lt hle (hlt rfl)⟩
  obtain ⟨k, hmem, hle⟩ := grows s.count
  obtain ⟨⟨_, n⟩, hmem, rfl⟩ := List.mem_map.1 hmem
  obtain ⟨hlt, hn⟩ := h.above _ n hmem
  exact absurd (Nat.lt_trans hlt hn) (Nat.not_lt.2 hle)

end Flatten

end FluentGrammar
