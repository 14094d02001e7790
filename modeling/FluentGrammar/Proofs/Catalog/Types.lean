import FluentGrammar.Proofs.Catalog.Names
import FluentGrammar.Proofs.Support

/-
  Types as they are written and read. What reading a type or arguments finds is said without fuel
  that is spent (`ReadsType`, `ReadsArgs`), and more fuel than twice the characters makes no
  difference (`read_eq_of_lt`). The types that can be read back are open slots, names without open
  brackets, and such names applied to types that can be read back (`Readable`). Whatever is read is
  one of these, unless it is all of the text and a name with brackets that are never closed
  (`readable_of_read`). Written with `?` for open slots, all of them are read back (`parse_render`),
  when no name ends with a hyphen: before `>` that would be an arrow.
-/

namespace FluentGrammar.Catalog

open Text TypeReader

namespace TypeDescriptor

mutual

/-- The names in a type, at every depth. -/
def names : TypeDescriptor → List String
  | concrete name args => name :: namesOfAll args
  | dynamic => []
  | generic name _ => [name]

/-- The names in several types. -/
def namesOfAll : List TypeDescriptor → List String
  | [] => []
  | t :: rest => names t ++ namesOfAll rest

end

/-- No name ends with a hyphen. -/
def HyphenFree (t : TypeDescriptor) : Prop := ∀ n ∈ t.names, n.toList.getLast? ≠ some '-'

/-- What a name without arguments is. -/
def ofName (generics : List String) (name : String) : TypeDescriptor :=
  if generics.contains name then .generic name [] else .concrete name []

/-- A type that can be read where others follow. -/
inductive Readable (generics : List String) : TypeDescriptor → Prop
  | dynamic : Readable generics .dynamic
  | name {name : String} (hname : IsName 0 name.toList) : Readable generics (ofName generics name)
  | applied {name : String} {args : List TypeDescriptor} (hname : IsName 0 name.toList)
    (hne : args ≠ []) (hargs : ∀ a ∈ args, Readable generics a) :
    Readable generics (.concrete name args)

variable {generics : List String} {fuel : Nat} {cs rest name : List Char} {t : TypeDescriptor}
  {args : List TypeDescriptor} {d : Nat}

/-! ## Names and written forms -/

theorem namesOfAll_eq (ts : List TypeDescriptor) : namesOfAll ts = ts.flatMap names := by
  induction ts with
  | nil => rfl
  | cons t rest ih => rw [namesOfAll, ih, List.flatMap_cons]

theorem HyphenFree.of_applied {name : String} (h : (concrete name args).HyphenFree) :
    ∀ a ∈ args, a.HyphenFree := by
  intro a ha n hn
  refine h n (List.mem_cons_of_mem _ ?_)
  rw [namesOfAll_eq]
  exact List.mem_flatMap.2 ⟨a, ha, hn⟩

theorem HyphenFree.of_ofName {name : String} (h : (ofName generics name).HyphenFree) :
    name.toList.getLast? ≠ some '-' := by
  unfold ofName at h
  split at h <;> exact h name List.mem_cons_self

theorem renderAll_eq (marker : String) (ts : List TypeDescriptor) :
    renderAll marker ts = ts.map (render marker) := by
  induction ts with
  | nil => rfl
  | cons t rest ih => rw [renderAll, ih, List.map_cons]

theorem render_ofName (marker name : String) : (ofName generics name).render marker = name := by
  unfold ofName
  split <;> rfl

/-- The characters of types between commas. -/
def separated (marker : String) (ts : List TypeDescriptor) : List Char :=
  [',', ' '].intercalate (ts.map fun t => (t.render marker).toList)

theorem separated_singleton (marker : String) (a : TypeDescriptor) :
    separated marker [a] = (a.render marker).toList := List.append_nil _

theorem separated_cons_cons (marker : String) (a b : TypeDescriptor) (ts : List TypeDescriptor) :
    separated marker (a :: b :: ts) =
      (a.render marker).toList ++ ',' :: ' ' :: separated marker (b :: ts) := rfl

/-- The first of the types comes first. -/
theorem exists_separated_cons (marker : String) (a : TypeDescriptor) (ts : List TypeDescriptor) :
    ∃ more, separated marker (a :: ts) = (a.render marker).toList ++ more := by
  cases ts with
  | nil => exact ⟨[], rfl⟩
  | cons b ts => exact ⟨_, separated_cons_cons marker a b ts⟩

theorem toList_render_applied (marker name : String) (hne : args ≠ []) :
    ((concrete name args).render marker).toList =
      name.toList ++ '<' :: (separated marker args ++ ['>']) := by
  obtain ⟨a, rest, rfl⟩ := List.exists_cons_of_ne_nil hne
  rw [render, renderAll_eq, List.map_cons]
  dsimp only
  rw [String.toList_append, String.toList_append, String.toList_append, String.toList_intercalate,
    ← List.map_cons, List.map_map]
  have htext : "<".toList = ['<'] ∧ ", ".toList = [',', ' '] ∧ ">".toList = ['>'] := by decide
  rw [htext.1, htext.2.1, htext.2.2, List.append_assoc, List.append_assoc]
  rfl

/-! ## What is read -/

theorem isEmpty_iff {s : String} : s.isEmpty = true ↔ s.toList = [] := by
  rw [String.isEmpty_iff, String.toList_eq_nil_iff]

theorem ite_ofName {name : String} :
    (if generics.contains name then .ok (.generic name [], rest)
      else .ok (.concrete name [], rest) : Except Failure (TypeDescriptor × List Char)) =
        .ok (ofName generics name, rest) := by
  unfold ofName
  split <;> rfl

/-- What reading a type finds: an open slot, a name, or a name with arguments. -/
inductive ReadsType (generics : List String) (fuel : Nat) (cs : List Char) :
    TypeDescriptor → List Char → Prop
  | slot {rest : List Char} (hslot : trimStart cs = '?' :: rest) :
    ReadsType generics fuel cs .dynamic rest
  | name {text rest : List Char} {name : String} (hslot : (trimStart cs).head? ≠ some '?')
    (htake : takeName 0 (trimStart cs) = (text, rest)) (hname : trim text = name.toList)
    (hne : name.toList ≠ []) (hangle : rest.head? ≠ some '<') :
    ReadsType generics fuel cs (ofName generics name) rest
  | applied {text inner rest : List Char} {name : String} {args : List TypeDescriptor}
    (hslot : (trimStart cs).head? ≠ some '?')
    (htake : takeName 0 (trimStart cs) = (text, '<' :: inner)) (hname : trim text = name.toList)
    (hne : name.toList ≠ []) (hargs : readArgs generics fuel inner = .ok (args, rest)) :
    ReadsType generics fuel cs (.concrete name args) rest

theorem readType_succ_eq_ok_iff :
    readType generics (fuel + 1) cs = .ok (t, rest) ↔ ReadsType generics fuel cs t rest := by
  rw [readType]
  split
  · next rest' hslot =>
    constructor
    · intro h
      obtain ⟨rfl, rfl⟩ := Prod.mk.inj (Except.ok.inj h)
      exact .slot hslot
    · intro h
      cases h with
      | slot hslot' => rw [(List.cons.inj (hslot.symm.trans hslot')).2]
      | name h | applied h => exact absurd (congrArg List.head? hslot) h
  · next hslot =>
    have hhead : (trimStart cs).head? ≠ some '?' := fun hhead =>
      (List.head?_eq_some_iff.1 hhead).elim hslot
    constructor
    · intro h
      dsimp only at h
      split at h
      · cases h
      · next hne =>
        have hlist := (String.toList_ofList (l := trim (takeName 0 (trimStart cs)).1)).symm
        rw [isEmpty_iff] at hne
        split at h
        · next inner hafter =>
          obtain ⟨⟨args, rest'⟩, hargs, h⟩ := of_bind_eq_ok h
          obtain ⟨rfl, rfl⟩ := Prod.mk.inj (Except.ok.inj h)
          exact .applied hhead (Prod.ext rfl hafter) hlist hne hargs
        · next hangle =>
          rw [ite_ofName] at h
          obtain ⟨rfl, rfl⟩ := Prod.mk.inj (Except.ok.inj h)
          exact .name hhead rfl hlist hne fun hhead =>
            (List.head?_eq_some_iff.1 hhead).elim hangle
    · intro h
      cases h with
      | slot hslot' => exact absurd hslot' (hslot _)
      | name _ htake hname hne hangle =>
        rw [htake]
        dsimp only
        rw [hname, String.ofList_toList, if_neg (mt isEmpty_iff.1 hne)]
        split
        · exact absurd rfl hangle
        · exact ite_ofName
      | applied _ htake hname hne hargs =>
        rw [htake]
        dsimp only
        rw [hname, String.ofList_toList, if_neg (mt isEmpty_iff.1 hne)]
        simp only [hargs]
        rfl

/-- What reading arguments finds: the last one, which a comma may follow, or one with others behind
    it. -/
inductive ReadsArgs (generics : List String) (fuel : Nat) (cs : List Char) :
    List TypeDescriptor → List Char → Prop
  | last {arg : TypeDescriptor} {after rest : List Char}
    (harg : readType generics fuel cs = .ok (arg, after)) (hclose : trimStart after = '>' :: rest) :
    ReadsArgs generics fuel cs [arg] rest
  | comma {arg : TypeDescriptor} {after more rest : List Char}
    (harg : readType generics fuel cs = .ok (arg, after)) (hcomma : trimStart after = ',' :: more)
    (hclose : trimStart more = '>' :: rest) : ReadsArgs generics fuel cs [arg] rest
  | more {arg : TypeDescriptor} {args : List TypeDescriptor} {after more rest : List Char}
    (harg : readType generics fuel cs = .ok (arg, after)) (hcomma : trimStart after = ',' :: more)
    (hopen : (trimStart more).head? ≠ some '>')
    (hargs : readArgs generics fuel more = .ok (args, rest)) :
    ReadsArgs generics fuel cs (arg :: args) rest

theorem readArgs_succ_eq_ok_iff :
    readArgs generics (fuel + 1) cs = .ok (args, rest) ↔ ReadsArgs generics fuel cs args rest := by
  rw [readArgs]
  constructor
  · intro h
    obtain ⟨⟨arg, after⟩, harg, h⟩ := of_bind_eq_ok h
    dsimp only at h
    split at h
    · next rest' hclose =>
      obtain ⟨rfl, rfl⟩ := Prod.mk.inj (Except.ok.inj h)
      exact .last harg hclose
    · next more hcomma =>
      split at h
      · next rest' hclose =>
        obtain ⟨rfl, rfl⟩ := Prod.mk.inj (Except.ok.inj h)
        exact .comma harg hcomma hclose
      · next hopen =>
        obtain ⟨⟨args', rest'⟩, hargs, h⟩ := of_bind_eq_ok h
        obtain ⟨rfl, rfl⟩ := Prod.mk.inj (Except.ok.inj h)
        refine .more harg hcomma (fun hhead => ?_) hargs
        obtain ⟨rest, heq⟩ := List.head?_eq_some_iff.1 hhead
        exact hopen rest heq
    · cases h
  · intro h
    cases h with
    | last harg hclose => simp [harg, bind, Except.bind, hclose, pure, Except.pure]
    | comma harg hcomma hclose => simp [harg, bind, Except.bind, hcomma, hclose, pure, Except.pure]
    | more harg hcomma hopen hargs =>
      simp only [harg, bind, Except.bind, hcomma, pure, Except.pure]
      split
      · next heq => exact absurd (congrArg List.head? heq) hopen
      · rw [hargs]

/-! ## What is read can be written -/

/-- The name that is read, with no open brackets if anything follows. -/
private theorem isName_of_read {text : List Char} {name : String}
    (hslot : (trimStart cs).head? ≠ some '?') (htake : takeName 0 (trimStart cs) = (text, rest))
    (hname : trim text = name.toList) (hne : name.toList ≠ [])
    (hdash : name.toList.getLast? ≠ some '-') :
    ∃ d, IsName d name.toList ∧ (rest ≠ [] → d = 0) := by
  rw [← hname] at hne hdash ⊢
  exact exists_isName_of_takeName (fun c hc => head?_trimStart hc) hslot htake hne hdash

/-- What is read can be read among other types, or it is all of the text and a name. -/
theorem readable_of_read (generics : List String) (fuel : Nat) :
    (∀ {cs t rest}, readType generics fuel cs = .ok (t, rest) → t.HyphenFree →
      Readable generics t ∨
        rest = [] ∧ ∃ d name, IsName d name.toList ∧ t = ofName generics name) ∧
    (∀ {cs args rest}, readArgs generics fuel cs = .ok (args, rest) →
      (∀ a ∈ args, a.HyphenFree) → args ≠ [] ∧ ∀ a ∈ args, Readable generics a) := by
  induction fuel with
  | zero =>
    constructor
    · intro _ _ _ h
      cases h
    · intro _ _ _ h
      cases h
  | succ fuel ih =>
    obtain ⟨ihType, ihArgs⟩ := ih
    -- An argument has something behind it.
    have harg {cs : List Char} {a : TypeDescriptor} {after : List Char} {c : Char}
        {more : List Char} (h : readType generics fuel cs = .ok (a, after))
        (hafter : trimStart after = c :: more) (ha : a.HyphenFree) : Readable generics a := by
      refine (ihType h ha).resolve_right fun hend => ?_
      rw [hend.1] at hafter
      cases hafter
    constructor
    · intro cs t rest h ht
      cases readType_succ_eq_ok_iff.1 h with
      | slot => exact .inl .dynamic
      | name hslot htake hname hne =>
        obtain ⟨d, hisName, hd⟩ := isName_of_read hslot htake hname hne ht.of_ofName
        by_cases hrest : rest = []
        · exact .inr ⟨hrest, d, _, hisName, rfl⟩
        · obtain rfl := hd hrest
          exact .inl (.name hisName)
      | applied hslot htake hname hne hargs =>
        obtain ⟨d, hisName, hd⟩ :=
          isName_of_read hslot htake hname hne (ht _ List.mem_cons_self)
        obtain rfl := hd (List.cons_ne_nil _ _)
        obtain ⟨hargs, hall⟩ := ihArgs hargs ht.of_applied
        exact .inl (.applied hisName hargs hall)
    · intro cs args rest h hfree
      cases readArgs_succ_eq_ok_iff.1 h with
      | last hread hclose | comma hread hclose =>
        exact ⟨List.cons_ne_nil _ _,
          List.forall_mem_singleton.2 (harg hread hclose (hfree _ List.mem_cons_self))⟩
      | more hread hcomma _ hargs =>
        obtain ⟨ha, hfree⟩ := List.forall_mem_cons.1 hfree
        exact ⟨List.cons_ne_nil _ _,
          List.forall_mem_cons.2 ⟨harg hread hcomma ha, (ihArgs hargs hfree).2⟩⟩

/-! ## What can be written is read -/

/-- A name is read to where the reader cannot go on, unless arguments follow. -/
theorem readType_name {name : String} (hname : IsName d name.toList) (hfuel : 0 < fuel)
    (hcs : trimStart cs = name.toList ++ rest)
    (hstop : ∀ c ∈ rest.head?, NameState.next ⟨d, false⟩ c = none)
    (hangle : rest.head? ≠ some '<') :
    readType generics fuel cs = .ok (ofName generics name, rest) := by
  obtain ⟨fuel, rfl⟩ := Nat.exists_eq_succ_of_ne_zero hfuel.ne'
  have hhead : (trimStart cs).head? ≠ some '?' := by
    rw [hcs, hname.head?_append]
    exact hname.head
  exact readType_succ_eq_ok_iff.2
    (.name hhead (hcs ▸ hname.takeName_append hstop) hname.trimmed.trim_eq hname.ne_nil hangle)

namespace Readable

/-- A written type does not begin with a blank or with what closes arguments. -/
theorem exists_head (h : Readable generics t) :
    ∃ c cs, (t.render "?").toList = c :: cs ∧ isBlank c = false ∧ c ≠ '>' := by
  have hname {name : String} (h : IsName 0 name.toList) (rest : List Char) :
      ∃ c cs, name.toList ++ rest = c :: cs ∧ isBlank c = false ∧ c ≠ '>' := by
    obtain ⟨c, cs, hcs⟩ := List.exists_cons_of_ne_nil h.ne_nil
    refine ⟨c, cs ++ rest, by rw [hcs]; rfl, h.trimmed.head c (by rw [hcs]; rfl), fun hc => ?_⟩
    exact h.head_ne (c := '>') rfl (by rw [hcs, hc]; rfl)
  cases h with
  | dynamic => exact ⟨'?', [], rfl, rfl, by decide⟩
  | name h =>
    rw [render_ofName]
    simpa only [List.append_nil] using hname h []
  | applied h hne =>
    rw [toList_render_applied _ _ hne]
    exact hname h _

theorem trimStart_append (h : Readable generics t) :
    trimStart ((t.render "?").toList ++ rest) = (t.render "?").toList ++ rest := by
  obtain ⟨c, cs, hcs, hc, -⟩ := h.exists_head
  rw [hcs]
  exact trimStart_eq_self fun c' hc' => Option.some.inj hc' ▸ hc

end Readable

/-- Written arguments begin like the first of them. -/
theorem trimStart_separated (hne : args ≠ []) (hargs : ∀ a ∈ args, Readable generics a) :
    trimStart (separated "?" args ++ rest) = separated "?" args ++ rest ∧
      (separated "?" args ++ rest).head? ≠ some '>' := by
  obtain ⟨a, args, rfl⟩ := List.exists_cons_of_ne_nil hne
  have ha := hargs a List.mem_cons_self
  obtain ⟨more, hmore⟩ := exists_separated_cons "?" a args
  rw [hmore, List.append_assoc]
  refine ⟨ha.trimStart_append, ?_⟩
  obtain ⟨c, cs, hcs, -, hc⟩ := ha.exists_head
  rw [hcs]
  exact fun hhead => hc (Option.some.inj hhead)

/-- A written type is read, before what can follow an argument. -/
def ReadsBack (generics : List String) (t : TypeDescriptor) : Prop :=
  ∀ (fuel : Nat) (cs rest : List Char), (t.render "?").toList.length ≤ fuel →
    trimStart cs = (t.render "?").toList ++ rest → (∀ c ∈ rest.head?, c = ',' ∨ c = '>') →
      readType generics fuel cs = .ok (t, rest)

/-- Arguments are read when each of them is. -/
theorem readArgs_separated (hne : args ≠ []) (hargs : ∀ a ∈ args, Readable generics a)
    (hread : ∀ a ∈ args, ReadsBack generics a) (hfuel : (separated "?" args).length < fuel)
    (hcs : trimStart cs = separated "?" args ++ '>' :: rest) :
    readArgs generics fuel cs = .ok (args, rest) := by
  induction args generalizing fuel cs with
  | nil => exact absurd rfl hne
  | cons a args ih =>
    obtain ⟨fuel, rfl⟩ := Nat.exists_eq_succ_of_ne_zero (Nat.ne_zero_of_lt hfuel)
    obtain ⟨hreadA, hread⟩ := List.forall_mem_cons.1 hread
    obtain ⟨-, hargs⟩ := List.forall_mem_cons.1 hargs
    refine readArgs_succ_eq_ok_iff.2 ?_
    cases args with
    | nil =>
      rw [separated_singleton] at hfuel hcs
      exact .last (hreadA _ _ _ (Nat.le_of_lt_succ hfuel) hcs (by simp)) rfl
    | cons b args =>
      rw [separated_cons_cons, List.length_append, List.length_cons, List.length_cons] at hfuel
      rw [separated_cons_cons, List.append_assoc, List.cons_append, List.cons_append] at hcs
      -- The blank behind the comma is left out, and a type begins there.
      obtain ⟨hstart, hopen⟩ := trimStart_separated (List.cons_ne_nil b args) hargs
      have hblank : trimStart (' ' :: (separated "?" (b :: args) ++ '>' :: rest)) =
          separated "?" (b :: args) ++ '>' :: rest := hstart
      rw [← hblank] at hopen
      exact .more (hreadA _ _ _ (by omega) hcs (by simp)) rfl hopen
        (ih (List.cons_ne_nil _ _) hargs hread (by omega) hblank)

/-- Every type that can be read among others is read where it is written. -/
theorem Readable.readsBack (h : Readable generics t) : ReadsBack generics t := by
  induction h with
  | dynamic =>
    intro fuel cs rest hfuel hcs _
    obtain ⟨fuel, rfl⟩ := Nat.exists_eq_succ_of_ne_zero (Nat.ne_zero_of_lt hfuel)
    exact readType_succ_eq_ok_iff.2 (.slot hcs)
  | @name name hname =>
    intro fuel cs rest hfuel hcs hrest
    rw [render_ofName] at hfuel hcs
    refine readType_name hname (lt_of_lt_of_le (List.length_pos_of_ne_nil hname.ne_nil) hfuel) hcs
      (fun c hc => NameState.next_of_mem (.inr (hrest c hc))) fun hc => ?_
    have := hrest _ hc
    simp at this
  | @applied name args hname hne hargs ih =>
    intro fuel cs rest hfuel hcs hrest
    rw [toList_render_applied _ _ hne] at hfuel hcs
    rw [List.length_append, List.length_cons, List.length_append, List.length_singleton] at hfuel
    rw [List.append_assoc, List.cons_append, List.append_assoc, List.singleton_append] at hcs
    obtain ⟨fuel, rfl⟩ := Nat.exists_eq_succ_of_ne_zero (by omega : fuel ≠ 0)
    have hhead : (trimStart cs).head? ≠ some '?' := by
      rw [hcs, hname.head?_append]
      exact hname.head
    have hargs : readArgs generics fuel (separated "?" args ++ '>' :: rest) = .ok (args, rest) :=
      readArgs_separated hne hargs ih (by omega) (trimStart_separated hne hargs).1
    exact readType_succ_eq_ok_iff.2
      (.applied hhead (hcs ▸ hname.takeName_append_of_mem (by simp)) hname.trimmed.trim_eq
        hname.ne_nil hargs)

/-! ## Fuel -/

/-- A name takes at least one character. -/
private theorem length_lt_of_takeName {text : List Char}
    (htake : takeName 0 (trimStart cs) = (text, rest)) (hne : trim text ≠ []) :
    rest.length < cs.length := by
  have happend := takeName_append_eq 0 (trimStart cs)
  rw [htake] at happend
  dsimp only at happend
  have hlength := congrArg List.length happend
  rw [List.length_append] at hlength
  have htext : 0 < text.length := List.length_pos_of_ne_nil fun hnil => hne (by rw [hnil]; rfl)
  have := length_trimStart_le cs
  omega

/-- Reading takes something away from the text. -/
theorem length_lt_of_read (generics : List String) (fuel : Nat) :
    (∀ {cs t rest}, readType generics fuel cs = .ok (t, rest) → rest.length < cs.length) ∧
    (∀ {cs args rest}, readArgs generics fuel cs = .ok (args, rest) →
      rest.length < cs.length) := by
  induction fuel with
  | zero =>
    constructor
    · intro _ _ _ h
      cases h
    · intro _ _ _ h
      cases h
  | succ fuel ih =>
    obtain ⟨ihType, ihArgs⟩ := ih
    constructor
    · intro cs t rest h
      cases readType_succ_eq_ok_iff.1 h with
      | slot hslot => exact length_lt_of_trimStart hslot
      | name _ htake hname hne => exact length_lt_of_takeName htake (hname ▸ hne)
      | applied _ htake hname hne hargs =>
        have hinner := Nat.lt_of_succ_lt (length_lt_of_takeName htake (hname ▸ hne))
        exact (ihArgs hargs).trans hinner
    · intro cs args rest h
      cases readArgs_succ_eq_ok_iff.1 h with
      | last harg hclose => exact (length_lt_of_trimStart hclose).trans (ihType harg)
      | comma harg hcomma hclose =>
        exact (length_lt_of_trimStart hclose).trans
          ((length_lt_of_trimStart hcomma).trans (ihType harg))
      | more harg hcomma _ hargs =>
        exact (ihArgs hargs).trans ((length_lt_of_trimStart hcomma).trans (ihType harg))

/-- A type is read in the same way when its arguments are. -/
theorem readType_congr {fuel fuel' : Nat} (h : ∀ inner : List Char, inner.length + 2 ≤ cs.length →
      readArgs generics fuel inner = readArgs generics fuel' inner) :
    readType generics (fuel + 1) cs = readType generics (fuel' + 1) cs := by
  rw [readType, readType]
  split
  · rfl
  · dsimp only
    split
    · rfl
    · next hne =>
      rw [isEmpty_iff, String.toList_ofList] at hne
      have hlength := length_lt_of_takeName rfl hne
      split
      · next inner hafter =>
        rw [hafter, List.length_cons] at hlength
        rw [h inner hlength]
      · rfl

/-- Arguments are read in the same way when the first of them and the others are. -/
theorem readArgs_congr {fuel fuel' : Nat}
    (harg : readType generics fuel cs = readType generics fuel' cs)
    (h : ∀ more : List Char, more.length + 2 ≤ cs.length →
      readArgs generics fuel more = readArgs generics fuel' more) :
    readArgs generics (fuel + 1) cs = readArgs generics (fuel' + 1) cs := by
  rw [readArgs, readArgs]
  refine bind_eq_bind harg fun ⟨arg, after⟩ hread => ?_
  dsimp only
  split
  · rfl
  · next more hcomma =>
    split
    · rfl
    · rw [h more]
      have := length_lt_of_trimStart hcomma
      have := (length_lt_of_read generics fuel').1 hread
      omega
  · rfl

/-- Twice as much fuel as there are characters is enough. -/
theorem read_eq_of_lt (generics : List String) (fuel : Nat) :
    (∀ (fuel' : Nat) (cs : List Char), 2 * cs.length < fuel → 2 * cs.length < fuel' →
      readType generics fuel cs = readType generics fuel' cs) ∧
    (∀ (fuel' : Nat) (cs : List Char), 2 * cs.length + 1 < fuel → 2 * cs.length + 1 < fuel' →
      readArgs generics fuel cs = readArgs generics fuel' cs) := by
  induction fuel with
  | zero =>
    constructor
    · intro _ _ h
      cases h
    · intro _ _ h
      cases h
  | succ fuel ih =>
    obtain ⟨ihType, ihArgs⟩ := ih
    constructor
    · intro fuel' cs hfuel hfuel'
      obtain ⟨fuel', rfl⟩ := Nat.exists_eq_succ_of_ne_zero (Nat.ne_zero_of_lt hfuel')
      exact readType_congr fun inner hinner => ihArgs _ _ (by omega) (by omega)
    · intro fuel' cs hfuel hfuel'
      obtain ⟨fuel', rfl⟩ := Nat.exists_eq_succ_of_ne_zero (Nat.ne_zero_of_lt hfuel')
      exact readArgs_congr (ihType _ _ (by omega) (by omega)) fun more hmore =>
        ihArgs _ _ (by omega) (by omega)

/-! ## Whole texts -/

theorem not_blanks_of_readType (h : readType generics fuel cs = .ok (t, rest)) : ¬Blanks cs := by
  intro hblanks
  have hnil := trimStart_eq_nil_iff.2 hblanks
  cases fuel with
  | zero => cases h
  | succ fuel =>
    cases readType_succ_eq_ok_iff.1 h with
    | slot hslot =>
      rw [hnil] at hslot
      cases hslot
    | name _ htake hname hne | applied _ htake hname hne =>
      rw [hnil] at htake
      obtain ⟨rfl, -⟩ := Prod.mk.inj htake
      exact hne hname.symm

/-- A text is a type when one is read, with fuel enough, and nothing but blanks follow. -/
theorem parse_eq_ok_iff {text : String} (hfuel : 2 * text.toList.length < fuel) :
    parse text generics = .ok t ↔
      ∃ rest, readType generics fuel text.toList = .ok (t, rest) ∧ Blanks rest := by
  rw [(read_eq_of_lt generics fuel).1 (2 * text.toList.length + 2) _ hfuel (by omega), parse]
  dsimp only
  constructor
  · intro h
    split at h
    · cases h
    · split at h
      · cases h
      · next t' rest hread =>
        split at h
        · next hnil =>
          cases h
          exact ⟨rest, hread, trimStart_eq_nil_iff.1 hnil⟩
        · cases h
  · rintro ⟨rest, hread, hrest⟩
    have hne : trim text.toList ≠ [] := mt trim_eq_nil_iff.1 (not_blanks_of_readType hread)
    rw [if_neg (mt List.isEmpty_iff.1 hne), hread]
    dsimp only
    rw [trimStart_eq_nil_iff.2 hrest]

/-- Only the names that are given are generic. -/
theorem mem_of_parse_generic {text name : String} {bounds : List String}
    (h : parse text generics = .ok (.generic name bounds)) : name ∈ generics ∧ bounds = [] := by
  obtain ⟨rest, hread, -⟩ := (parse_eq_ok_iff (Nat.lt_succ_self _)).1 h
  generalize ht : generic name bounds = t at hread
  cases readType_succ_eq_ok_iff.1 hread with
  | slot | applied => cases ht
  | name =>
    unfold ofName at ht
    split at ht
    · next hmem =>
      cases ht
      exact ⟨List.contains_iff_mem.1 hmem, rfl⟩
    · cases ht

/-- What is read from a text is read from its written form as well. -/
theorem parse_render {text : String} (h : parse text generics = .ok t) (hfree : t.HyphenFree) :
    parse (t.render "?") generics = .ok t := by
  obtain ⟨rest, hread, -⟩ := (parse_eq_ok_iff (Nat.lt_succ_self _)).1 h
  refine (parse_eq_ok_iff (Nat.lt_succ_self _)).2 ⟨[], ?_, List.forall_mem_nil _⟩
  obtain h | ⟨-, d, name, hname, rfl⟩ := (readable_of_read generics _).1 hread hfree
  · refine h.readsBack _ _ _ (by omega) ?_ (by simp)
    have hstart : trimStart ((t.render "?").toList ++ []) = (t.render "?").toList ++ [] :=
      h.trimStart_append
    rwa [List.append_nil] at hstart ⊢
  · rw [render_ofName]
    refine readType_name hname (by omega) ?_ (by simp) (by simp)
    have hstart : trimStart (name.toList ++ []) = name.toList ++ [] := hname.trimStart_append
    rwa [List.append_nil] at hstart ⊢

theorem exists_parse_render :
    ∃ t, parse " Result < Vec<fn(&mut [T; 3], u8) -> Option<?>>, (A, B<C>), T, >" ["T"] = .ok t ∧
      t.render "?" = "Result<Vec<fn(&mut [T; 3], u8) -> Option<?>>, (A, B<C>), T>" ∧
      t.HyphenFree ∧ parse (t.render "?") ["T"] = .ok t := by
  obtain ⟨t, hparse, ht⟩ := exists_eq_ok_of_map
    (show (parse " Result < Vec<fn(&mut [T; 3], u8) -> Option<?>>, (A, B<C>), T, >"
        ["T"]).toOption.map (fun t => (t.render "?", t.names)) =
          some ("Result<Vec<fn(&mut [T; 3], u8) -> Option<?>>, (A, B<C>), T>",
            ["Result", "Vec", "fn(&mut [T; 3], u8) -> Option", "(A, B<C>)", "T"])
      by decide +kernel)
  obtain ⟨hrender, hnames⟩ := Prod.mk.inj ht
  have hfree : t.HyphenFree := by
    rw [HyphenFree, hnames]
    decide
  exact ⟨t, hparse, hrender, hfree, parse_render hparse hfree⟩

/-- A hyphen before the closing bracket makes an arrow of it. -/
example : (parse "Vec<a- >" []).toOption.map
    (fun t => (t.render "?", (parse (t.render "?") []).toOption.isSome)) =
      some ("Vec<a->", false) := by
  decide +kernel

end TypeDescriptor

end FluentGrammar.Catalog
