import FluentGrammar.Proofs.Catalog.Types
import FluentGrammar.Proofs.Source.Tokens
import FluentGrammar.Proofs.Text.Encoding
import Mathlib.Data.Nat.PSub

/-
  Types read with a cursor. The cursor counts bytes. What comes next is a character, and blanks are
  passed over character by character, but a name is passed over byte by byte, with the two bytes of
  an arrow taken together. A cut at an offset inside a character, a byte behind the end, one closing
  bracket more than were opened and reading on where reading has begun give `none`. None of this
  happens: wherever a character is looked at, the cursor stands where some rest of the text begins,
  and what is read is what the text read as characters gives (`parse?_eq`).
-/

namespace FluentGrammar.Catalog

open Text TypeReader TypeDescriptor

namespace TypeReader

/-- The next character. -/
def peek? (text : List Char) (pos : Nat) : Option (Option Char) := do
  let (_, rest) ← splitAtByte? pos text
  return rest.head?

/-- Goes on behind the character if it comes next. -/
def eat? (text : List Char) (c : Char) (pos : Nat) : Option (Bool × Nat) := do
  let next ← peek? text pos
  return if next == some c then (true, pos + c.utf8Size) else (false, pos)

theorem lt_of_peek? {text : List Char} {pos : Nat} {c : Char}
    (h : peek? text pos = some (some c)) : pos < byteLength text := by
  obtain ⟨⟨front, back⟩, hsplit, hhead⟩ := Option.bind_eq_some_iff.1 h
  obtain ⟨rfl, rfl⟩ := splitAtByte?_eq_some hsplit
  obtain ⟨rest, rfl⟩ := List.head?_eq_some_iff.1 (Option.some.inj hhead)
  have hpos := c.utf8Size_pos
  rw [byteLength_append, byteLength_cons]
  omega

/-- Goes on to the next character that is no blank. -/
def skipBlanks? (text : List Char) (pos : Nat) : Option Nat :=
  match _h : peek? text pos with
  | none => none
  | some none => some pos
  | some (some c) => if isBlank c then skipBlanks? text (pos + c.utf8Size) else some pos
termination_by byteLength text - pos
decreasing_by
  have hlt := lt_of_peek? _h
  have hpos := c.utf8Size_pos
  omega

/-- Goes on to the byte that ends a name. `depth` counts the open brackets. -/
def nameEnd? (input : List UInt8) (pos depth : Nat) : Option Nat :=
  if pos < input.length then do
    let b ← input[pos]?
    if b == '('.toUInt8 || b == '['.toUInt8 then nameEnd? input (pos + 1) (depth + 1)
    else if b == ')'.toUInt8 || b == ']'.toUInt8 then
      if depth == 0 then return pos
      else
        let inner ← depth.ppred
        nameEnd? input (pos + 1) inner
    else if b == '-'.toUInt8 && input[pos + 1]? == some '>'.toUInt8 then
      nameEnd? input (pos + 2) depth
    else if depth == 0 && (b == '<'.toUInt8 || b == ','.toUInt8 || b == '>'.toUInt8) then return pos
    else nameEnd? input (pos + 1) depth
  else some pos
termination_by input.length - pos

/-- A place in the text that lies behind the position. Reading that goes on at the position again
    has no end. -/
def further? (text : List Char) (pos stop : Nat) :
    Option { n : Nat // pos < n ∧ n ≤ byteLength text } :=
  if h : pos < stop ∧ stop ≤ byteLength text then some ⟨stop, h⟩ else none

mutual

/-- Reads a type and goes on behind it. -/
def readType? (text : List Char) (generics : List String) (pos : Nat) :
    ExceptT TypeError Option (TypeDescriptor × Nat) := do
  let start ← skipBlanks? text pos
  let (slot, start) ← eat? text '?' start
  if slot then return (.dynamic, start)
  else
    let stop ← nameEnd? (bytes text) start 0
    let chars ← Span.charsIn? ⟨start, stop⟩ text
    let name := String.ofList (trim chars)
    if name.isEmpty then throw (.fault .expectedName start)
    else
      let stop ← skipBlanks? text stop
      let (opened, stop) ← eat? text '<' stop
      let (args, stop) ←
        if opened then do
          let ⟨inside, _⟩ ← further? text pos stop
          readArgs? text generics [] inside
        else pure ([], stop)
      if args.isEmpty && generics.contains name then return (.generic name [], stop)
      else return (.concrete name args, stop)
termination_by (byteLength text - pos, 0)

/-- Reads arguments, with those that have been read before, and goes on behind the bracket that
    closes them. -/
def readArgs? (text : List Char) (generics : List String) (args : List TypeDescriptor) (pos : Nat) :
    ExceptT TypeError Option (List TypeDescriptor × Nat) := do
  let (arg, stop) ← readType? text generics pos
  let stop ← skipBlanks? text stop
  let (comma, stop) ← eat? text ',' stop
  if comma then
    let stop ← skipBlanks? text stop
    let (closed, stop) ← eat? text '>' stop
    if closed then return (args ++ [arg], stop)
    else
      let ⟨next, _⟩ ← further? text pos stop
      readArgs? text generics (args ++ [arg]) next
  else
    let (closed, stop) ← eat? text '>' stop
    if closed then return (args ++ [arg], stop)
    else throw (.fault .unclosedArguments stop)
termination_by (byteLength text - pos, 1)

end

variable {text cs rest : List Char} {generics : List String} {c : Char} {d fuel : Nat}

/-! ## Steps of the cursor -/

theorem head?_ne_some (h : ∀ rest, cs = c :: rest → False) : cs.head? ≠ some c := fun hhead =>
  (List.head?_eq_some_iff.1 hhead).elim h

theorem peek?_offset (h : cs <:+ text) : peek? text (offset text cs) = some cs.head? := by
  obtain ⟨front, -, hsplit⟩ := splitAtByte?_offset h
  rw [peek?, hsplit]
  rfl

theorem eat?_of_head (h : c :: rest <:+ text) :
    eat? text c (offset text (c :: rest)) = some (true, offset text rest) := by
  rw [eat?, peek?_offset h, ← offset_cons h]
  simp

theorem eat?_of_head_ne (h : cs <:+ text) (hne : cs.head? ≠ some c) :
    eat? text c (offset text cs) = some (false, offset text cs) := by
  rw [eat?, peek?_offset h]
  simp [hne]

theorem suffix_trimStart (cs : List Char) : trimStart cs <:+ cs := List.dropWhile_suffix isBlank

theorem skipBlanks?_offset (h : cs <:+ text) :
    skipBlanks? text (offset text cs) = some (offset text (trimStart cs)) := by
  have hpeek := peek?_offset h
  induction cs with
  | nil =>
    rw [skipBlanks?]
    split
    · next hnone => cases hnone.symm.trans hpeek
    · rfl
    · next hsome => cases hsome.symm.trans hpeek
  | cons c rest ih =>
    rw [skipBlanks?]
    split
    · next hnone => cases hnone.symm.trans hpeek
    · next hnone => cases hnone.symm.trans hpeek
    · next hsome =>
      cases hsome.symm.trans hpeek
      rw [offset_cons h]
      by_cases hc : isBlank c = true
      · have hrest := suffix_of_cons h
        rw [if_pos hc, ih hrest (peek?_offset hrest), trimStart, trimStart,
          List.dropWhile_cons_of_pos hc]
      · rw [if_neg hc, trimStart, List.dropWhile_cons_of_neg hc]

/-- The beginning of a shorter rest is behind that of a longer one. -/
theorem exists_further?_offset (h : cs <:+ text) (hrest : rest <:+ cs)
    (hlt : rest.length < cs.length) :
    ∃ hfar, further? text (offset text cs) (offset text rest) = some ⟨offset text rest, hfar⟩ := by
  obtain ⟨front, rfl⟩ := hrest
  obtain ⟨before, rfl⟩ := h
  have hpos : 0 < byteLength front := by
    refine Nat.pos_of_ne_zero (mt byteLength_eq_zero.1 ?_)
    rintro rfl
    exact Nat.lt_irrefl _ hlt
  have hfar : offset (before ++ (front ++ rest)) (front ++ rest) <
      offset (before ++ (front ++ rest)) rest ∧
        offset (before ++ (front ++ rest)) rest ≤ byteLength (before ++ (front ++ rest)) := by
    rw [offset_append, ← List.append_assoc, offset_append, byteLength_append, byteLength_append,
      byteLength_append]
    omega
  exact ⟨hfar, dif_pos hfar⟩

/-! ## Names -/

/-- No byte above 127 matters. -/
theorem nameEnd?_next (h : c :: rest <:+ text) (depth : Nat) :
    nameEnd? (bytes text) (offset text (c :: rest) + 1) depth =
      nameEnd? (bytes text) (offset text rest) depth := by
  refine apply_next_offset (f := fun i => nameEnd? (bytes text) i depth) (fun i b hb hle => ?_) h
  have hlt : i < (bytes text).length := (List.getElem?_eq_some_iff.1 hb).1
  rw [nameEnd?, if_pos hlt, hb]
  simp (disch := decide) only [Option.bind_eq_bind, Option.bind_some, beq_toUInt8_of_le hle]
  simp

/-- A turn of the loop at a character. -/
theorem nameEnd?_cons (h : c :: rest <:+ text) (depth : Nat) :
    nameEnd? (bytes text) (offset text (c :: rest)) depth =
      if c == '(' || c == '[' then nameEnd? (bytes text) (offset text rest) (depth + 1)
      else if c == ')' || c == ']' then
        if depth == 0 then some (offset text (c :: rest))
        else nameEnd? (bytes text) (offset text rest) (depth - 1)
      else if c == '-' && rest.head? == some '>' then
        nameEnd? (bytes text) (offset text rest + 1) depth
      else if depth == 0 && (c == '<' || c == ',' || c == '>') then some (offset text (c :: rest))
      else nameEnd? (bytes text) (offset text rest) depth := by
  obtain ⟨b, hb⟩ := exists_getElem?_bytes h
  have hlt : offset text (c :: rest) < (bytes text).length := (List.getElem?_eq_some_iff.1 hb).1
  rw [nameEnd?, if_pos hlt, hb]
  simp (disch := decide) only [Option.bind_eq_bind, Option.bind_some, Option.pure_def,
    beq_toUInt8 h hb, beq_pair_toUInt8 h, nameEnd?_next h]
  split
  · rfl
  · split
    · split
      · rfl
      · next hdepth =>
        have hpos : 0 < depth := Nat.pos_of_ne_zero (by simpa using hdepth)
        rw [Nat.ppred_eq_pred hpos]
        rfl
    · split
      · next hc =>
        obtain rfl : c = '-' := by simpa using (Bool.and_eq_true_iff.1 hc).1
        rw [← offset_cons_of_lt h (by decide)]
      · rfl

/-- A name ends where it does for the reader of characters. -/
theorem nameEnd?_offset (h : cs <:+ text) (depth : Nat) :
    nameEnd? (bytes text) (offset text cs) depth = some (offset text (takeName depth cs).2) := by
  fun_induction takeName depth cs with
  | case1 =>
    rw [nameEnd?, if_neg (mt (offset_lt_iff h).1 (not_not.2 rfl))]
  | case2 d rest name after heq ih =>
    have hrest := suffix_of_cons h
    rw [heq] at ih
    rw [nameEnd?_cons h, ← ih (suffix_of_cons hrest)]
    simp [nameEnd?_next hrest]
  | case3 d c rest _ hopen name after heq ih =>
    rw [heq] at ih
    rw [nameEnd?_cons h, if_pos hopen, ih (suffix_of_cons h)]
  | case4 c rest _ hopen hclose =>
    rw [nameEnd?_cons h, if_neg hopen, if_pos hclose]
    rfl
  | case5 c rest _ hopen hclose d name after heq ih =>
    rw [heq] at ih
    rw [nameEnd?_cons h, if_neg hopen, if_pos hclose, ← ih (suffix_of_cons h)]
    rfl
  | case6 d c rest harrow hopen hclose hstop =>
    have hdash : c ≠ '-' := by
      rintro rfl
      simp at hstop
    rw [nameEnd?_cons h, if_neg hopen, if_neg hclose, if_neg (by simp [hdash]), if_pos hstop]
  | case7 d c rest harrow hopen hclose hgo name after heq ih =>
    rw [heq] at ih
    have hnone : ¬(c == '-' && rest.head? == some '>') = true := by
      intro hhead
      simp only [Bool.and_eq_true, beq_iff_eq] at hhead
      obtain ⟨more, hmore⟩ := List.head?_eq_some_iff.1 hhead.2
      exact harrow more hhead.1 hmore
    rw [nameEnd?_cons h, if_neg hopen, if_neg hclose, if_neg hnone, if_neg hgo,
      ih (suffix_of_cons h)]

/-- No blank stands where a name ends. -/
theorem trimStart_takeName (cs : List Char) : trimStart (takeName 0 cs).2 = (takeName 0 cs).2 := by
  refine trimStart_eq_self fun c hc => ?_
  obtain ⟨s, -, hstop⟩ := cut_takeName 0 cs
  obtain ⟨-, hend⟩ := NameState.next_eq_none_iff.1 (hstop c hc)
  rcases hend with rfl | rfl | rfl | rfl | ⟨rfl, -⟩ <;> rfl

theorem charsIn?_offset {xs : List Char} (h : xs ++ rest <:+ text) :
    Span.charsIn? ⟨offset text (xs ++ rest), offset text rest⟩ text = some xs := by
  obtain ⟨front, rfl⟩ := h
  rw [offset_append, ← List.append_assoc, offset_append, Span.charsIn?_append]

/-! ## Types -/

section

variable {α β : Type}

/-- What is left of the text behind what was read, or where reading failed. -/
def left : Except Failure (α × List Char) → List Char
  | .ok (_, rest) => rest
  | .error (_, rest) => rest

/-- What was read, with the place where the rest of the text begins. -/
def located (text : List Char) : Except Failure (α × List Char) → Except TypeError (α × Nat)
  | .ok (a, rest) => .ok (a, offset text rest)
  | .error (what, rest) => .error (.fault what (offset text rest))

theorem ok_bind {ε : Type} (a : α) (f : α → Except ε β) : (Except.ok a >>= f) = f a := rfl

theorem left_bind (x : Except Failure (α × List Char)) (f : α → β) :
    left (do let (a, rest) ← x; return (f a, rest)) = left x := by
  cases x <;> rfl

theorem liftM_some_bind (a : α) (f : α → ExceptT TypeError Option β) :
    (liftM (some a) : ExceptT TypeError Option α) >>= f = f a := rfl

theorem mk_some_ok_bind (a : α) (f : α → ExceptT TypeError Option β) :
    (ExceptT.mk (some (.ok a)) : ExceptT TypeError Option α) >>= f = f a := rfl

end

theorem suffix_left_type_succ (hargs : ∀ cs, left (readArgs generics fuel cs) <:+ cs)
    (cs : List Char) : left (readType generics (fuel + 1) cs) <:+ cs := by
  have htrim := suffix_trimStart cs
  have htake : (takeName 0 (trimStart cs)).2 <:+ trimStart cs := ⟨_, takeName_append_eq 0 _⟩
  rw [readType]
  split
  · next rest hslot =>
    rw [hslot] at htrim
    exact suffix_of_cons htrim
  · dsimp only
    split
    · exact htrim
    · split
      · next inner hafter =>
        rw [hafter] at htake
        rw [left_bind]
        exact (hargs inner).trans (suffix_of_cons (htake.trans htrim))
      · rw [ite_ofName]
        exact htake.trans htrim

theorem suffix_left_args_succ (htype : ∀ cs, left (readType generics fuel cs) <:+ cs)
    (hargs : ∀ cs, left (readArgs generics fuel cs) <:+ cs) (cs : List Char) :
    left (readArgs generics (fuel + 1) cs) <:+ cs := by
  have hread := htype cs
  rw [readArgs]
  cases harg : readType generics fuel cs with
  | error e =>
    rw [harg] at hread
    exact hread
  | ok x =>
    obtain ⟨arg, after⟩ := x
    rw [harg] at hread
    have htrim : trimStart after <:+ cs := (suffix_trimStart after).trans hread
    rw [ok_bind]
    dsimp only
    split
    · next rest hclose =>
      rw [hclose] at htrim
      exact suffix_of_cons htrim
    · next more hcomma =>
      rw [hcomma] at htrim
      have hmore := suffix_of_cons htrim
      split
      · next rest hclose =>
        have hrest := (suffix_trimStart more).trans hmore
        rw [hclose] at hrest
        exact suffix_of_cons hrest
      · rw [left_bind]
        exact (hargs more).trans hmore
    · exact htrim

/-- What is left is the end of the text that was to be read. -/
theorem suffix_left (generics : List String) (fuel : Nat) :
    (∀ cs, left (readType generics fuel cs) <:+ cs) ∧
      ∀ cs, left (readArgs generics fuel cs) <:+ cs := by
  induction fuel with
  | zero => exact ⟨fun cs => List.suffix_rfl, fun cs => List.suffix_rfl⟩
  | succ fuel ih =>
    obtain ⟨htype, hargs⟩ := ih
    exact ⟨suffix_left_type_succ hargs, suffix_left_args_succ htype hargs⟩

/-- At the rest of the text the cursor reads the type that is read from it, and stops where that
    leaves off. -/
def TypeAgrees (text : List Char) (generics : List String) (fuel : Nat) (cs : List Char) : Prop :=
  readType? text generics (offset text cs) =
    .mk (some (located text (readType generics fuel cs)))

/-- So it is with arguments. -/
def ArgsAgree (text : List Char) (generics : List String) (fuel : Nat) (cs : List Char) : Prop :=
  ∀ args, readArgs? text generics args (offset text cs) =
    .mk (some (located text do
      let (more, rest) ← readArgs generics fuel cs
      return (args ++ more, rest)))

theorem ne_nil_of_readArgs {args : List TypeDescriptor}
    (h : readArgs generics fuel cs = .ok (args, rest)) : args ≠ [] := by
  cases fuel with
  | zero => cases h
  | succ fuel => cases readArgs_succ_eq_ok_iff.1 h <;> exact List.cons_ne_nil _ _

theorem typeAgrees_succ (h : cs <:+ text)
    (hargs : ∀ inner, inner <:+ text → inner.length + 2 ≤ cs.length →
      ArgsAgree text generics fuel inner) :
    TypeAgrees text generics (fuel + 1) cs := by
  have htrim : trimStart cs <:+ text := (suffix_trimStart cs).trans h
  rw [TypeAgrees, readType?, skipBlanks?_offset h, liftM_some_bind, readType]
  split
  · next rest hslot =>
    rw [hslot] at htrim ⊢
    rw [eat?_of_head htrim, liftM_some_bind]
    rfl
  · next hslot =>
    have hhead : (trimStart cs).head? ≠ some '?' := head?_ne_some hslot
    have happend := takeName_append_eq 0 (trimStart cs)
    have hblank := trimStart_takeName (trimStart cs)
    have hlength := length_trimStart_le cs
    rw [eat?_of_head_ne htrim hhead, liftM_some_bind]
    dsimp only
    rw [if_neg Bool.false_ne_true, nameEnd?_offset htrim, liftM_some_bind]
    generalize takeName 0 (trimStart cs) = x at happend hblank ⊢
    obtain ⟨name, after⟩ := x
    dsimp only at happend hblank ⊢
    rw [← happend] at htrim hlength ⊢
    have hafter : after <:+ text := (List.suffix_append name after).trans htrim
    rw [charsIn?_offset htrim, liftM_some_bind]
    split
    · rfl
    · next hne =>
      rw [skipBlanks?_offset hafter, hblank, liftM_some_bind]
      split
      · next inner =>
        have hname : 0 < name.length :=
          List.length_pos_of_ne_nil fun hnil => hne (by rw [hnil]; rfl)
        rw [List.length_append, List.length_cons] at hlength
        have hinner : inner <:+ cs := suffix_of_cons
          ((List.suffix_append name _).trans (happend ▸ suffix_trimStart cs))
        obtain ⟨hfar, hfurther⟩ := exists_further?_offset h hinner (by omega)
        rw [eat?_of_head hafter, liftM_some_bind]
        dsimp only
        rw [if_pos rfl, hfurther, liftM_some_bind, hargs inner (suffix_of_cons hafter) (by omega)]
        cases hread : readArgs generics fuel inner with
        | error e => rfl
        | ok x =>
          obtain ⟨args, rest⟩ := x
          obtain ⟨arg, args, rfl⟩ := List.exists_cons_of_ne_nil (ne_nil_of_readArgs hread)
          rfl
      · next hangle =>
        have hhead : after.head? ≠ some '<' := head?_ne_some hangle
        rw [eat?_of_head_ne hafter hhead, liftM_some_bind, ite_ofName]
        dsimp only
        rw [if_neg Bool.false_ne_true, pure_bind]
        dsimp only
        rw [ofName, List.isEmpty_nil, Bool.true_and]
        split <;> rfl

theorem trimStart_trimStart (cs : List Char) : trimStart (trimStart cs) = trimStart cs :=
  trimStart_eq_self fun _ hc => head?_trimStart hc

/-- Blanks in front make no difference. -/
theorem readArgs_trimStart (generics : List String) (hfuel : 2 ≤ fuel) (cs : List Char) :
    readArgs generics fuel (trimStart cs) = readArgs generics fuel cs := by
  obtain ⟨fuel, rfl⟩ := Nat.exists_eq_add_of_le' hfuel
  have htype : readType generics (fuel + 1) (trimStart cs) = readType generics (fuel + 1) cs := by
    rw [readType, readType, trimStart_trimStart]
  rw [readArgs, readArgs, htype]

theorem argsAgree_succ (h : cs <:+ text) (htype : TypeAgrees text generics fuel cs)
    (hargs : ∀ more, more <:+ text → more.length + 2 ≤ cs.length →
      ArgsAgree text generics fuel more) (hfuel : cs.length < fuel) :
    ArgsAgree text generics (fuel + 1) cs := by
  intro args
  have hleft := (suffix_left generics fuel).1 cs
  rw [readArgs?, htype, readArgs]
  cases hread : readType generics fuel cs with
  | error e => rfl
  | ok x =>
    obtain ⟨arg, after⟩ := x
    rw [hread] at hleft
    have hlength := (length_lt_of_read generics fuel).1 hread
    have hafter : after <:+ text := hleft.trans h
    have hrest : trimStart after <:+ cs := (suffix_trimStart after).trans hleft
    have htrim : trimStart after <:+ text := hrest.trans h
    rw [located, mk_some_ok_bind, ok_bind]
    dsimp only
    rw [skipBlanks?_offset hafter, liftM_some_bind]
    split
    · next rest hclose =>
      rw [hclose] at htrim ⊢
      rw [eat?_of_head_ne htrim (by simp), liftM_some_bind]
      dsimp only
      rw [if_neg Bool.false_ne_true, eat?_of_head htrim, liftM_some_bind]
      rfl
    · next more hcomma =>
      rw [hcomma] at htrim ⊢
      have hmore := suffix_of_cons htrim
      have htrim' : trimStart more <:+ text := (suffix_trimStart more).trans hmore
      rw [eat?_of_head htrim, liftM_some_bind]
      dsimp only
      rw [if_pos rfl, skipBlanks?_offset hmore, liftM_some_bind]
      split
      · next rest hclose =>
        rw [hclose] at htrim' ⊢
        rw [eat?_of_head htrim', liftM_some_bind]
        rfl
      · next hopen =>
        have hhead : (trimStart more).head? ≠ some '>' := head?_ne_some hopen
        have hlt := length_lt_of_trimStart hcomma
        have hle := length_trimStart_le more
        have hnext : trimStart more <:+ cs :=
          (suffix_trimStart more).trans (suffix_of_cons (hcomma ▸ hrest))
        obtain ⟨hfar, hfurther⟩ := exists_further?_offset h hnext (by omega)
        rw [eat?_of_head_ne htrim' hhead, liftM_some_bind]
        dsimp only
        rw [if_neg Bool.false_ne_true, hfurther, liftM_some_bind, hargs _ htrim' (by omega),
          readArgs_trimStart generics (by omega)]
        cases readArgs generics fuel more with
        | error e => rfl
        | ok x => simp [located]
    · next hclose hcomma =>
      have hhead : (trimStart after).head? ≠ some '>' := head?_ne_some hclose
      have hhead' : (trimStart after).head? ≠ some ',' := head?_ne_some hcomma
      rw [eat?_of_head_ne htrim hhead', liftM_some_bind]
      dsimp only
      rw [if_neg Bool.false_ne_true, eat?_of_head_ne htrim hhead, liftM_some_bind]
      rfl

/-- A cursor reads what is read from the rest of the text where it stands, and it stops where that
    leaves off, when there is fuel for all characters. -/
theorem read?_offset (text : List Char) (generics : List String) (fuel : Nat) :
    (∀ cs, cs <:+ text → 2 * cs.length < fuel → TypeAgrees text generics fuel cs) ∧
    ∀ cs, cs <:+ text → 2 * cs.length + 1 < fuel → ArgsAgree text generics fuel cs := by
  induction fuel with
  | zero => exact ⟨nofun, nofun⟩
  | succ fuel ih =>
    obtain ⟨ihType, ihArgs⟩ := ih
    constructor
    · intro cs h hfuel
      exact typeAgrees_succ h fun inner hinner hlength => ihArgs inner hinner (by omega)
    · intro cs h hfuel
      exact argsAgree_succ h (ihType cs h (by omega))
        (fun more hmore hlength => ihArgs more hmore (by omega)) (by omega)

end TypeReader

namespace TypeDescriptor

/-- Reads a parameter type. -/
def parse? (text : String) (generics : List String) : Option (Except TypeError TypeDescriptor) :=
  ExceptT.run do
    if (trim text.toList).isEmpty then throw .empty
    else
      let (type, stop) ← readType? text.toList generics 0
      let stop ← skipBlanks? text.toList stop
      if stop < text.utf8ByteSize then throw (.fault .trailingInput stop)
      else return type

/-- Every text is read, and gives what it gives as characters. -/
theorem parse?_eq (text : String) (generics : List String) :
    parse? text generics = some (parse text generics) := by
  rw [parse?, parse]
  dsimp only
  split
  · rfl
  · have hread := (read?_offset text.toList generics (2 * text.toList.length + 2)).1 text.toList
      List.suffix_rfl (by omega)
    have hleft := (suffix_left generics (2 * text.toList.length + 2)).1 text.toList
    rw [TypeAgrees, offset_self] at hread
    rw [hread]
    cases hresult : readType generics (2 * text.toList.length + 2) text.toList with
    | error failure => rfl
    | ok x =>
      obtain ⟨type, rest⟩ := x
      rw [hresult] at hleft
      have hrest : rest <:+ text.toList := hleft
      have htrim : trimStart rest <:+ text.toList := (suffix_trimStart rest).trans hrest
      have hsize : text.utf8ByteSize = (bytes text.toList).length := by
        rw [length_bytes, byteLength_toList]
      rw [located, mk_some_ok_bind]
      dsimp only
      rw [skipBlanks?_offset hrest, liftM_some_bind, hsize]
      split
      · next hlt =>
        obtain ⟨c, more, hmore⟩ := List.exists_cons_of_ne_nil ((offset_lt_iff htrim).1 hlt)
        rw [hmore]
        rfl
      · next hend =>
        have hnil : trimStart rest = [] := not_not.1 (mt (offset_lt_iff htrim).2 hend)
        rw [hnil]
        rfl

end TypeDescriptor

end FluentGrammar.Catalog
