import FluentGrammar.Proofs.Automaton.Heads
import FluentGrammar.Proofs.Iterate
import FluentGrammar.Proofs.Language.Forms

/-
  First sets as they are gathered in place. A production that is gone through adds to the sets at
  once, so that the productions behind it see what it has added, and the passes go on until one of
  them has added nothing. Every number is looked up and nothing bounds the passes, but for a grammar
  in range they end with the sets of `ofGrammar` (`gather?_eq`).

  These are exact (`gather_exact`): a terminal is in the first set of a symbol string when steps
  lead from the string to a form with the terminal at its front, and the string is called nullable
  when steps lead to the empty form. Steps replace any nonterminal of a form, while the sets follow
  the leftmost symbols. What a step has at its front was there before it, or comes from a symbol
  that was expanded behind others which derive nothing (`Step.heads`).
-/

namespace FluentGrammar

/-! ## Forms with a terminal at their front -/

namespace Grammar

variable {g : Grammar} {α β : List Symbol} {t : TerminalId}

theorem Heads.append_right (h : g.Heads t α) (β : List Symbol) : g.Heads t (α ++ β) := by
  induction h with
  | terminal rest => exact .terminal _
  | expand rest hq hn hr => exact .expand _ hq hn hr
  | skip hempty _ ih => exact .skip hempty ih

theorem Heads.append_left (hα : g.Derives α []) (h : g.Heads t β) : g.Heads t (α ++ β) := by
  induction α with
  | nil => exact h
  | cons s α ih =>
    obtain ⟨u, v, heq, hs, hrest⟩ := Derives.split (α := [s]) hα
    obtain ⟨rfl, rfl⟩ := List.append_eq_nil_iff.1 heq.symm
    cases s with
    | terminal => cases hs
    | nonterminal n => exact .skip hs (ih hrest)

/-- The front of two strings is that of the first, or that of the second behind nothing. -/
theorem Heads.append_cases (h : g.Heads t (α ++ β)) :
    g.Heads t α ∨ g.Derives α [] ∧ g.Heads t β := by
  induction α with
  | nil => exact .inr ⟨.nil, h⟩
  | cons s α ih =>
    cases h with
    | terminal => exact .inl (.terminal α)
    | expand _ hq hn hr => exact .inl (.expand α hq hn hr)
    | skip hempty h =>
      obtain h | ⟨hα, h⟩ := ih h
      · exact .inl (.skip hempty h)
      · exact .inr ⟨hempty.append hα, h⟩

/-- What a form has at its front after a step it had there before. -/
theorem Step.heads (hs : g.Step α β) (h : g.Heads t β) : g.Heads t α := by
  obtain ⟨front, back, hp⟩ := hs
  rw [List.append_assoc] at h
  obtain h | ⟨hfront, h⟩ := h.append_cases
  · exact h.append_right _
  · refine .append_left hfront ?_
    obtain h | ⟨hempty, h⟩ := h.append_cases
    · exact .expand back hp rfl h
    · exact .skip (derives_nonterminal_iff.2 ⟨_, hp, rfl, hempty⟩) h

/-- Leftmost expansion has the terminals at its front that steps in any order bring there. -/
theorem heads_iff_rewrites : g.Heads t α ↔ ∃ β, g.Rewrites α (.terminal t :: β) := by
  constructor
  · intro h
    induction h with
    | terminal rest => exact ⟨rest, .refl⟩
    | @expand n q rest hq hn _ ih =>
      obtain ⟨β, hβ⟩ := ih
      subst hn
      exact ⟨β ++ rest, .expand hq (hβ.append .refl)⟩
    | @skip n rest hempty _ ih =>
      obtain ⟨β, hβ⟩ := ih
      exact ⟨β, hempty.rewrites.append hβ⟩
  · rintro ⟨β, h⟩
    induction h using Relation.ReflTransGen.head_induction_on with
    | refl => exact .terminal β
    | head hs _ ih => exact hs.heads ih

end Grammar

/-! ## Symbol strings -/

namespace FirstSets

/-- Puts the first terminals of a symbol string to those found before, and tells whether it derives
    nothing. -/
def collect? (f : FirstSets) (found : List TerminalId) :
    List Symbol → Option (List TerminalId × Bool)
  | [] => some (found, true)
  | .terminal t :: _ => some (OrderedSet.insert t found, false)
  | .nonterminal n :: rest => do
    let heads ← f.first[n]?
    if ← f.nullable[n]? then f.collect? (OrderedSet.union heads found) rest
    else return (OrderedSet.union heads found, false)

/-- The first terminals of a symbol string, and whether it derives nothing. -/
def ofSequence? (f : FirstSets) (α : List Symbol) : Option (List TerminalId × Bool) :=
  f.collect? [] α

/-- Takes in what a production says about its left-hand side, and notes whether that is new. -/
def take? (s : FirstSets × Bool) (p : Production) : Option (FirstSets × Bool) := do
  let (heads, empty) ← s.1.ofSequence? p.rhs
  let known ← s.1.first[p.lhs]?
  let grown := OrderedSet.union heads known
  let f := { s.1 with first := s.1.first.set p.lhs grown }
  let changed := s.2 || grown.length != known.length
  if empty then
    if ← f.nullable[p.lhs]? then return (f, changed)
    else return ({ f with nullable := f.nullable.set p.lhs true }, true)
  else return (f, changed)

/-- One pass over the productions, and whether it has added anything. -/
def gatherPass? (g : Grammar) (f : FirstSets) : Option (FirstSets × Bool) :=
  g.productions.foldlM take? (f, false)

/-- The first sets of a grammar, gathered by passes until one of them adds nothing. -/
noncomputable def gather? (g : Grammar) : Option FirstSets :=
  iterate? (fun f => do
    let (f, changed) ← gatherPass? g f
    return if changed then .inr f else .inl f)
    ⟨List.replicate g.nonterminals.length [], List.replicate g.nonterminals.length false⟩

variable {g : Grammar} {f : FirstSets} {p : Production} {α : List Symbol} {t : TerminalId}
  {found : List TerminalId}

theorem Fits.pairwise_ofSymbols (h : Fits g f) : (f.ofSymbols α).1.Pairwise (· < ·) := by
  have hfirst (n : NonterminalId) : (f.first.getD n []).Pairwise (· < ·) := by
    rw [List.getD_eq_getElem?_getD]
    cases hn : f.first[n]? with
    | none => exact .nil
    | some ts => exact h.ascending ts (List.mem_of_getElem? hn)
  induction α with
  | nil => exact .nil
  | cons s α ih =>
    cases s with
    | terminal t => exact List.pairwise_singleton _ t
    | nonterminal n =>
      rw [ofSymbols]
      dsimp only
      split
      · exact OrderedSet.pairwise_union ih
      · exact hfirst n

/-- Terminals that are put to others one symbol after the other are put there together. -/
theorem collect?_eq (h : Fits g f) (hfound : found.Pairwise (· < ·))
    (hα : ∀ n, .nonterminal n ∈ α → n < g.nonterminals.length) :
    f.collect? found α =
      some (OrderedSet.union (f.ofSymbols α).1 found, (f.ofSymbols α).2) := by
  induction α generalizing found with
  | nil => rfl
  | cons s α ih =>
    cases s with
    | terminal t => rfl
    | nonterminal n =>
      have hn := hα n List.mem_cons_self
      have hfirst := List.getElem?_eq_getElem (h.first_length ▸ hn)
      have hnullable := List.getElem?_eq_getElem (h.nullable_length ▸ hn)
      rw [collect?, ofSymbols, List.getD_eq_getElem?_getD, List.getD_eq_getElem?_getD, hfirst,
        hnullable]
      simp only [Option.bind_eq_bind, Option.bind_some, Option.getD_some]
      split
      · rw [ih (OrderedSet.pairwise_union hfound) fun n hn => hα n (List.mem_cons_of_mem _ hn)]
        refine congrArg (fun ts => some (ts, _)) ?_
        refine (OrderedSet.pairwise_union (OrderedSet.pairwise_union hfound)).eq_of_mem_iff
          (OrderedSet.pairwise_union hfound) fun t => ?_
        simp only [OrderedSet.mem_union]
        tauto
      · rfl

theorem ofSequence?_eq (h : Fits g f) (hα : ∀ n, .nonterminal n ∈ α → n < g.nonterminals.length) :
    f.ofSequence? α = some (f.ofSymbols α) := by
  have hunion : OrderedSet.union (f.ofSymbols α).1 [] = (f.ofSymbols α).1 := by
    refine (OrderedSet.pairwise_union .nil).eq_of_mem_iff h.pairwise_ofSymbols fun t => ?_
    simp
  rw [ofSequence?, collect?_eq h .nil hα, hunion]

/-! ## Passes -/

/-- The entries of the left-hand side are what changes. -/
theorem absorb_eq {known : List TerminalId} {k : Bool} (hfirst : f.first[p.lhs]? = some known)
    (hnullable : f.nullable[p.lhs]? = some k) :
    absorb f p = ⟨f.first.set p.lhs (OrderedSet.union (f.ofSymbols p.rhs).1 known),
      f.nullable.set p.lhs (k || (f.ofSymbols p.rhs).2)⟩ := by
  rw [absorb]
  dsimp only
  rw [List.modify_eq_set_getElem?, List.modify_eq_set_getElem?, hfirst, hnullable]
  rfl

/-- A set is longer exactly if terminals were put to it that it did not have. -/
theorem length_union_bne {n : NonterminalId} {known : List TerminalId}
    (hfirst : f.first[n]? = some known) (heads : List TerminalId) :
    ((OrderedSet.union heads known).length != known.length) =
      decide ({ f with first := f.first.set n (OrderedSet.union heads known) } ≠ f) := by
  obtain hsame | hlonger := OrderedSet.enlarges_union heads known
  · rw [hsame, set_eq_self hfirst]
    simp
  · have hother : OrderedSet.union heads known ≠ known :=
      fun heq => Nat.ne_of_gt hlonger (congrArg List.length heq)
    have hne : { f with first := f.first.set n (OrderedSet.union heads known) } ≠ f :=
      fun heq => set_ne_self hfirst hother (congrArg first heq)
    rw [decide_eq_true hne, bne_iff_ne]
    exact Nat.ne_of_gt hlonger

/-- A production is noted exactly when it adds to the sets. -/
theorem take?_eq (h : Fits g f) (changed : Bool) (hlhs : p.lhs < g.nonterminals.length)
    (hrhs : ∀ n, .nonterminal n ∈ p.rhs → n < g.nonterminals.length) :
    take? (f, changed) p = some (absorb f p, changed || decide (absorb f p ≠ f)) := by
  obtain ⟨known, hfirst⟩ : ∃ known, f.first[p.lhs]? = some known :=
    ⟨_, List.getElem?_eq_getElem (h.first_length ▸ hlhs)⟩
  obtain ⟨k, hnullable⟩ : ∃ k, f.nullable[p.lhs]? = some k :=
    ⟨_, List.getElem?_eq_getElem (h.nullable_length ▸ hlhs)⟩
  rw [take?, ofSequence?_eq h hrhs, absorb_eq hfirst hnullable]
  generalize f.ofSymbols p.rhs = s
  obtain ⟨heads, empty⟩ := s
  simp only [Option.bind_eq_bind, Option.bind_some, hfirst, hnullable, length_union_bne hfirst]
  -- The nullable nonterminals change when this one was not known to be one.
  by_cases hnew : empty = true ∧ k = false
  · obtain ⟨rfl, rfl⟩ := hnew
    have hset : f.nullable.set p.lhs true ≠ f.nullable := set_ne_self hnullable nofun
    have hne : (⟨f.first.set p.lhs (OrderedSet.union heads known),
        f.nullable.set p.lhs true⟩ : FirstSets) ≠ f := fun heq => hset (congrArg nullable heq)
    simp [hne]
  · have hor : (k || empty) = k := by
      cases k <;> cases empty <;> simp_all
    rw [hor, set_eq_self hnullable]
    cases k <;> cases empty <;> simp_all

/-- A pass notes a change exactly when it has changed something. -/
theorem gatherPass?_eq (hlhs : ∀ p ∈ g.productions, p.lhs < g.nonterminals.length)
    (hrhs : ∀ p ∈ g.productions, ∀ n, .nonterminal n ∈ p.rhs → n < g.nonterminals.length)
    (hw : TerminalsInRange g) (h : Fits g f) :
    gatherPass? g f = some (pass g f, decide (pass g f ≠ f)) := by
  refine (foldlM_noted (P := Fits g) enlarges_absorb (fun f p hp hf => hf.absorb (hw p hp))
    (fun f changed p hp hf => take?_eq hf changed (hlhs p hp) (hrhs p hp)) h false).trans ?_
  rw [Bool.false_or]
  rfl

/-- Stopping at sets that a pass leaves alone makes no difference. -/
theorem settle_eq (fuel : Nat) (f : FirstSets) : settle g fuel f = (pass g)^[fuel] f := by
  induction fuel generalizing f with
  | zero => rfl
  | succ fuel ih =>
    rw [settle]
    split
    · next hfixed => rw [Function.iterate_fixed hfixed]
    · rw [ih, Function.iterate_succ_apply]

theorem gather?_eq (hlhs : ∀ p ∈ g.productions, p.lhs < g.nonterminals.length)
    (hrhs : ∀ p ∈ g.productions, ∀ n, .nonterminal n ∈ p.rhs → n < g.nonterminals.length)
    (hw : TerminalsInRange g) : gather? g = some (ofGrammar g) := by
  have hfixed := (ofGrammar_settled hw).2
  rw [ofGrammar, settle_eq] at hfixed ⊢
  exact iterate?_noted (P := Fits g) (fun _ h => gatherPass?_eq hlhs hrhs hw h)
    (fun _ h => h.pass hw) (fits_replicate g) _ hfixed

/-! ## Exactness -/

theorem mem_ofSymbols_singleton {n : NonterminalId} :
    t ∈ (f.ofSymbols [.nonterminal n]).1 ↔ t ∈ f.first.getD n [] := by
  rw [ofSymbols]
  dsimp only
  split
  · simp [ofSymbols]
  · rfl

theorem ofSymbols_singleton_snd (f : FirstSets) (n : NonterminalId) :
    (f.ofSymbols [.nonterminal n]).2 = f.nullable.getD n false := by
  rw [ofSymbols]
  dsimp only
  split
  · next hn => rw [hn]; rfl
  · next hn => rw [eq_false_of_ne_true hn]

/-- For a grammar in range, passes in place come to an end, and they find for every nonterminal
    whether it can be rewritten to nothing, and which terminals the forms begin with that it can be
    rewritten to. From that, the same is found for every string of symbols. -/
theorem gather_exact (hg : g.inRange = true) :
    gather? g = some (ofGrammar g) ∧
    (∀ n < g.nonterminals.length, ∃ ts empty,
      (ofGrammar g).first[n]? = some ts ∧ (ofGrammar g).nullable[n]? = some empty ∧
      (empty = true ↔ g.Rewrites [.nonterminal n] []) ∧
      ∀ t, t ∈ ts ↔ ∃ β, g.Rewrites [.nonterminal n] (.terminal t :: β)) ∧
    ∀ α, (∀ n, .nonterminal n ∈ α → n < g.nonterminals.length) → ∃ ts empty,
      (ofGrammar g).ofSequence? α = some (ts, empty) ∧
      (empty = true ↔ g.Rewrites α []) ∧
      ∀ t, t ∈ ts ↔ ∃ β, g.Rewrites α (.terminal t :: β) := by
  have hlhs := Grammar.lhs_lt_of_inRange hg
  have hsymbols := Grammar.hasSymbol_of_inRange hg
  have hrhs : ∀ p ∈ g.productions, ∀ n, .nonterminal n ∈ p.rhs → n < g.nonterminals.length :=
    fun p hp n hn => of_decide_eq_true (hsymbols p hp _ hn)
  have hw : TerminalsInRange g := fun p hp t ht => of_decide_eq_true (hsymbols p hp _ ht)
  have hfits := fits_ofGrammar hw
  have hempty (α : List Symbol) : ((ofGrammar g).ofSymbols α).2 = true ↔ g.Rewrites α [] :=
    (nullable_ofSymbols_iff hw hlhs).trans Grammar.derives_iff_rewrites
  have hfirst (α : List Symbol) (t : TerminalId) :
      t ∈ ((ofGrammar g).ofSymbols α).1 ↔ ∃ β, g.Rewrites α (.terminal t :: β) :=
    (mem_ofSymbols_iff hw hlhs).trans Grammar.heads_iff_rewrites
  refine ⟨gather?_eq hlhs hrhs hw, fun n hn => ?_, fun α hα => ?_⟩
  · have hts := List.getElem?_eq_getElem (hfits.first_length ▸ hn)
    have hk := List.getElem?_eq_getElem (hfits.nullable_length ▸ hn)
    refine ⟨_, _, hts, hk, ?_, fun t => ?_⟩
    · rw [← hempty, ofSymbols_singleton_snd, List.getD_eq_getElem?_getD, hk, Option.getD_some]
    · rw [← hfirst, mem_ofSymbols_singleton, List.getD_eq_getElem?_getD, hts, Option.getD_some]
  · exact ⟨_, _, ofSequence?_eq hfits hα, hempty α, hfirst α⟩

/-- A grammar in which it turns out late what derives nothing, with `s → a b X | s T`, `a → b` and
    `b → a T | ε`. -/
def tangled : Grammar where
  terminals := ["X", "T", "$end"]
  nonterminals := [⟨"s", default⟩, ⟨"a", default⟩, ⟨"b", default⟩]
  productions := [
    ⟨0, [.nonterminal 1, .nonterminal 2, .terminal 0], default⟩,
    ⟨0, [.nonterminal 0, .terminal 1], default⟩,
    ⟨1, [.nonterminal 2], default⟩,
    ⟨2, [.nonterminal 1, .terminal 1], default⟩,
    ⟨2, [], default⟩]
  start := 0

theorem tangled_gather_exact : tangled.inRange = true ∧
    gather? tangled = some ⟨[[0, 1], [1], [1]], [false, true, true]⟩ ∧
    ¬tangled.Rewrites [.nonterminal 0] [] ∧ tangled.Rewrites [.nonterminal 1] [] ∧
    (∃ β, tangled.Rewrites [.nonterminal 0] (.terminal 0 :: β)) ∧
    ∃ β, tangled.Rewrites [.nonterminal 2, .nonterminal 1, .terminal 2] (.terminal 2 :: β) := by
  have hg : tangled.inRange = true := by decide
  have hsets : ofGrammar tangled = ⟨[[0, 1], [1], [1]], [false, true, true]⟩ := by decide
  obtain ⟨hgather, hnonterminals, hsequences⟩ := gather_exact hg
  rw [hsets] at hgather hnonterminals hsequences
  obtain ⟨ts, empty, hts, hempty, hnothing, hfirst⟩ := hnonterminals 0 (by decide)
  obtain ⟨-, empty', -, hempty', hnothing', -⟩ := hnonterminals 1 (by decide)
  obtain ⟨us, k, hus, -, hfront⟩ :=
    hsequences [.nonterminal 2, .nonterminal 1, .terminal 2] (by simp [tangled])
  cases hts
  cases hempty
  cases hempty'
  cases hus
  exact ⟨hg, hgather, mt hnothing.2 (by decide), hnothing'.1 rfl, (hfirst 0).1 (by decide),
    (hfront 2).1 (by decide)⟩

end FirstSets

end FluentGrammar
