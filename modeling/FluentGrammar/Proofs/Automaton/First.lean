import FluentGrammar.Grammar.First
import FluentGrammar.Proofs.Growth
import FluentGrammar.Proofs.Language.Grammar

/-
  The first sets of a grammar are closed under its productions (`closed_ofGrammar`), so they know
  what a derivation begins with and when it may derive nothing (`ofSymbols_of_derives`). They hold
  no terminal that no production mentions.
-/

namespace FluentGrammar

namespace FirstSets

variable {g : Grammar} {f : FirstSets} {p : Production} {α β : List Symbol} {t : TerminalId}

/-- The sets take in nothing new from the production. -/
structure ClosedAt (f : FirstSets) (p : Production) : Prop where
  heads : ∀ t ∈ (f.ofSymbols p.rhs).1, t ∈ f.first.getD p.lhs []
  empty : (f.ofSymbols p.rhs).2 = true → f.nullable.getD p.lhs false = true

/-- The terminals that productions mention are the grammar's. -/
def TerminalsInRange (g : Grammar) : Prop :=
  ∀ p ∈ g.productions, ∀ t, .terminal t ∈ p.rhs → t < g.terminals.length

/-- The sets have a place for every nonterminal, ascending and with terminals of the grammar. -/
structure Fits (g : Grammar) (f : FirstSets) : Prop where
  first_length : f.first.length = g.nonterminals.length
  nullable_length : f.nullable.length = g.nonterminals.length
  ascending : ∀ ts ∈ f.first, ts.Pairwise (· < ·)
  below : ∀ ts ∈ f.first, ∀ t ∈ ts, t < g.terminals.length

/-- The terminals in the sets and the nullable nonterminals, counted. -/
def size (f : FirstSets) : Nat :=
  (f.first.map List.length).sum + (f.nullable.map Bool.toNat).sum

/-! ## Growth -/

theorem enlarges_or (b : Bool) : Enlarges Bool.toNat (· || b) := by
  intro a
  cases a <;> cases b <;> simp

theorem enlarges_absorb (p : Production) : Enlarges size (absorb · p) := by
  intro f
  have h1 := (OrderedSet.enlarges_union (f.ofSymbols p.rhs).1).modify p.lhs f.first
  have h2 := (enlarges_or (f.ofSymbols p.rhs).2).modify p.lhs f.nullable
  simp only [absorb, size]
  dsimp only at h1 h2
  rcases h1 with h1 | h1 <;> rcases h2 with h2 | h2
  · left
    rw [h1, h2]
  · right
    rw [h1]
    omega
  · right
    rw [h2]
    omega
  · right
    omega

/-- The sets that a production leaves alone are closed at it. -/
theorem closedAt_of_absorb_eq (hp : p.lhs < f.first.length) (hp' : p.lhs < f.nullable.length)
    (h : absorb f p = f) : f.ClosedAt p := by
  have hfirst := congrArg first h
  have hnullable := congrArg nullable h
  simp only [absorb] at hfirst hnullable
  have h1 := getElem?_of_modify_eq hfirst (List.getElem?_eq_getElem hp)
  have h2 := getElem?_of_modify_eq hnullable (List.getElem?_eq_getElem hp')
  constructor
  · intro t ht
    rw [List.getD_eq_getElem?_getD, List.getElem?_eq_getElem hp, Option.getD_some, ← h1]
    exact OrderedSet.mem_union.2 (.inl ht)
  · intro he
    rw [List.getD_eq_getElem?_getD, List.getElem?_eq_getElem hp', Option.getD_some, ← h2, he,
      Bool.or_true]

/-! ## What the sets hold -/

/-- First terminals of symbols are among the terminals there and in the sets. -/
theorem mem_of_mem_ofSymbols (ht : t ∈ (f.ofSymbols α).1) :
    .terminal t ∈ α ∨ ∃ ts ∈ f.first, t ∈ ts := by
  induction α with
  | nil => exact absurd ht List.not_mem_nil
  | cons s α ih =>
    have head {n : NonterminalId} (h : t ∈ f.first.getD n []) : ∃ ts ∈ f.first, t ∈ ts := by
      rw [List.getD_eq_getElem?_getD] at h
      cases hn : f.first[n]? with
      | none => rw [hn] at h; exact absurd h List.not_mem_nil
      | some ts => rw [hn] at h; exact ⟨ts, List.mem_of_getElem? hn, h⟩
    cases s with
    | terminal u => exact .inl (List.mem_cons.2 (.inl (congrArg _ (List.mem_singleton.1 ht))))
    | nonterminal n =>
      rw [ofSymbols] at ht
      dsimp only at ht
      split at ht
      · rcases OrderedSet.mem_union.1 ht with ht | ht
        · exact .inr (head ht)
        · rcases ih ht with h | h
          · exact .inl (List.mem_cons_of_mem _ h)
          · exact .inr h
      · exact .inr (head ht)

theorem Fits.mem_ofSymbols_lt (h : Fits g f) (hα : ∀ t, .terminal t ∈ α → t < g.terminals.length)
    (ht : t ∈ (f.ofSymbols α).1) : t < g.terminals.length := by
  obtain h' | ⟨ts, hts, ht⟩ := mem_of_mem_ofSymbols ht
  · exact hα t h'
  · exact h.below ts hts t ht

theorem Fits.absorb (h : Fits g f) (hp : ∀ t, .terminal t ∈ p.rhs → t < g.terminals.length) :
    Fits g (absorb f p) := by
  have member {ts : List TerminalId}
      (hts : ts ∈ f.first.modify p.lhs (OrderedSet.union (f.ofSymbols p.rhs).1)) :
      ts ∈ f.first ∨ ∃ us ∈ f.first, ts = OrderedSet.union (f.ofSymbols p.rhs).1 us := by
    obtain ⟨i, hi, rfl⟩ := List.mem_iff_getElem.1 hts
    rw [List.length_modify] at hi
    rw [List.getElem_modify]
    split
    · exact .inr ⟨_, List.getElem_mem hi, rfl⟩
    · exact .inl (List.getElem_mem hi)
  refine ⟨?_, ?_, fun ts hts => ?_, fun ts hts t ht => ?_⟩
  · rw [FirstSets.absorb, List.length_modify]
    exact h.first_length
  · rw [FirstSets.absorb, List.length_modify]
    exact h.nullable_length
  · obtain hts | ⟨us, hus, rfl⟩ := member hts
    · exact h.ascending ts hts
    · exact OrderedSet.pairwise_union (h.ascending us hus)
  · obtain hts | ⟨us, hus, rfl⟩ := member hts
    · exact h.below ts hts t ht
    · rcases OrderedSet.mem_union.1 ht with ht | ht
      · exact h.mem_ofSymbols_lt hp ht
      · exact h.below us hus t ht

theorem Fits.pass (hw : TerminalsInRange g) (h : Fits g f) : Fits g (pass g f) := by
  refine List.foldlRecOn g.productions FirstSets.absorb h fun f hf p hp => ?_
  exact hf.absorb (hw p hp)

/-- There is room for every terminal and for being nullable, once for each nonterminal. -/
theorem Fits.size_le (h : Fits g f) :
    f.size ≤ g.nonterminals.length * (g.terminals.length + 1) := by
  have h1 : (f.first.map List.length).sum ≤ f.first.length * g.terminals.length :=
    sum_map_le fun ts hts => OrderedSet.length_le (h.ascending ts hts) (h.below ts hts)
  have h2 : (f.nullable.map Bool.toNat).sum ≤ f.nullable.length * 1 :=
    sum_map_le fun b _ => Bool.toNat_le b
  rw [h.first_length] at h1
  rw [h.nullable_length] at h2
  rw [size, Nat.mul_succ]
  omega

/-! ## The sets of a grammar -/

/-- Before the first pass the sets are empty. -/
theorem fits_replicate (g : Grammar) : Fits g ⟨List.replicate g.nonterminals.length [],
    List.replicate g.nonterminals.length false⟩ := by
  refine ⟨List.length_replicate, List.length_replicate, fun ts hts => ?_, fun ts hts t ht => ?_⟩
  · rw [List.eq_of_mem_replicate hts]
    exact .nil
  · rw [List.eq_of_mem_replicate hts] at ht
    exact absurd ht List.not_mem_nil

theorem ofGrammar_settled (hw : TerminalsInRange g) :
    Fits g (ofGrammar g) ∧ pass g (ofGrammar g) = ofGrammar g := by
  refine settled (settle g) (P := Fits g) (fun n f => rfl)
    (fun f _ => Enlarges.foldl enlarges_absorb g.productions f) (fun f hf => hf.pass hw)
    (fun f hf => hf.size_le) _ _ ?_ ?_
  · exact fits_replicate g
  · omega

theorem fits_ofGrammar (hw : TerminalsInRange g) : Fits g (ofGrammar g) := (ofGrammar_settled hw).1

/-- The sets of a grammar are closed under its productions. -/
theorem closed_ofGrammar (hw : TerminalsInRange g)
    (hlhs : ∀ p ∈ g.productions, p.lhs < g.nonterminals.length) :
    ∀ p ∈ g.productions, (ofGrammar g).ClosedAt p := by
  obtain ⟨hfits, hfixed⟩ := ofGrammar_settled hw
  intro p hp
  refine closedAt_of_absorb_eq ?_ ?_ (Enlarges.foldl_fixed enlarges_absorb hfixed p hp)
  · rw [hfits.first_length]
    exact hlhs p hp
  · rw [hfits.nullable_length]
    exact hlhs p hp

/-! ## Derivations -/

/-- The first of the terminals that closed sets give for symbols is there for every derivation,
    and the symbols are nullable when nothing is derived. -/
theorem ofSymbols_of_derives (hclosed : ∀ p ∈ g.productions, f.ClosedAt p)
    {w : List TerminalId} (h : g.Derives α w) :
    (∀ t ∈ w.head?, t ∈ (f.ofSymbols α).1) ∧ (w = [] → (f.ofSymbols α).2 = true) := by
  induction h with
  | nil => exact ⟨nofun, fun _ => rfl⟩
  | terminal => exact ⟨fun t ht => by simpa [ofSymbols, eq_comm] using ht, nofun⟩
  | @nonterminal n p rest u v hp hn hu hv ihu ihv =>
    subst hn
    have hc := hclosed p hp
    cases u with
    | nil =>
      have hempty := hc.empty (ihu.2 rfl)
      simp only [ofSymbols, hempty, if_true]
      exact ⟨fun t ht => OrderedSet.mem_union.2 (.inr (ihv.1 t ht)), ihv.2⟩
    | cons a u =>
      have ha : a ∈ f.first.getD p.lhs [] := hc.heads a (ihu.1 a rfl)
      refine ⟨fun t ht => ?_, nofun⟩
      obtain rfl : a = t := by simpa using ht
      simp only [ofSymbols]
      split
      · exact OrderedSet.mem_union.2 (.inl ha)
      · exact ha

end FirstSets

end FluentGrammar
