import FluentGrammar.Proofs.Catalog.Bounds
import FluentGrammar.Proofs.Catalog.Cursor

/-
  Declarations of generic parameters split with a cursor over bytes. The depth of brackets is a
  number of 32 bits here, which wraps around or fails when it has no room. In texts of less than
  2 GiB it has room (`splitFrom?_offset`), and in any case a text is cut at a separator, so at a
  boundary. What is read from a text is found without a failure (`exists_parseGeneric?`), and what
  is wrong with one is said to be at a boundary of it (`placed_parseGeneric?`).
-/

namespace FluentGrammar.Catalog

open Text TypeReader

namespace TypeReader

/-- What becomes of a sum that has no room in 32 bits. -/
inductive Overflow where
  | wraps
  | fails
  deriving DecidableEq

/-- The number as it is kept in 32 bits. -/
def Overflow.keep? (o : Overflow) (n : Int) : Option Int :=
  let kept := (Int32.ofInt n).toInt
  match o with
  | wraps => some kept
  | fails => if kept = n then some kept else none

/-- The byte ends an arrow. The one in front of it is looked at if there is one. -/
def endsArrow? (input : List UInt8) (i : Nat) (b : UInt8) : Option Bool :=
  if b == '>'.toUInt8 && 0 < i then (input[i - 1]?).map (· == '-'.toUInt8) else some false

/-- The parts of the text before and after the first separator outside all brackets, from a byte
    on. -/
def splitFrom? (o : Overflow) (text : List Char) (sep : Char) (i : Nat) (depth : Int) :
    Option (Option (List Char × List Char)) :=
  if i < (bytes text).length then do
    let b ← (bytes text)[i]?
    let arrow ← endsArrow? (bytes text) i b
    if b == '<'.toUInt8 || b == '('.toUInt8 || b == '['.toUInt8 then
      let inner ← o.keep? (depth + 1)
      splitFrom? o text sep (i + 1) inner
    else if arrow then splitFrom? o text sep (i + 1) depth
    else if b == '>'.toUInt8 || b == ')'.toUInt8 || b == ']'.toUInt8 then
      let outer ← o.keep? (depth - 1)
      splitFrom? o text sep (i + 1) outer
    else if sep == ':' && (b == ':'.toUInt8 && (bytes text)[i + 1]? == some ':'.toUInt8) then
      splitFrom? o text sep (i + 2) depth
    else if depth == 0 && b == sep.toUInt8 then
      let (head, _) ← splitAtByte? i text
      let (_, tail) ← splitAtByte? (i + 1) text
      return some (head, tail)
    else splitFrom? o text sep (i + 1) depth
  else some none
termination_by (bytes text).length - i

/-- The trimmed parts of the rest between plus signs, behind those that have been found before. -/
def splitBounds? (o : Overflow) (rest : List Char) (bounds : List String) :
    Option (List String) := do
  match ← splitFrom? o rest '+' 0 0 with
  | some (head, tail) =>
    if tail.length < rest.length then splitBounds? o tail (bounds ++ [String.ofList (trim head)])
    else none
  | none => return bounds ++ [String.ofList (trim rest)]
termination_by rest.length

variable {o : Overflow} {text front cs rest head tail : List Char} {sep c : Char} {depth : Int}
  {dash : Bool}

/-! ## A turn of the loop -/

/-- The depth behind a character. -/
def Overflow.shift? (o : Overflow) (depth change : Int) : Option Int :=
  if change = 0 then some depth else o.keep? (depth + change)

theorem splitFrom?_next (hsep : sep.toNat < 128) (h : c :: rest <:+ text) (depth : Int) :
    splitFrom? o text sep (offset text (c :: rest) + 1) depth =
      splitFrom? o text sep (offset text rest) depth := by
  refine apply_next_offset (f := fun i => splitFrom? o text sep i depth) (fun i b hb hle => ?_) h
  have hlt : i < (bytes text).length := (List.getElem?_eq_some_iff.1 hb).1
  have hne : (b == sep.toUInt8) = false := beq_toUInt8_of_le hle hsep
  have harrow : endsArrow? (bytes text) i b = some false := by
    rw [endsArrow?, beq_toUInt8_of_le hle (by decide)]
    rfl
  rw [splitFrom?, if_pos hlt, hb]
  simp (disch := decide) only [Option.bind_eq_bind, Option.bind_some, harrow,
    beq_toUInt8_of_le hle, hne]
  simp

theorem endsArrow?_offset {b : UInt8} (h : front ++ c :: rest = text)
    (hb : (bytes text)[offset text (c :: rest)]? = some b) :
    endsArrow? (bytes text) (offset text (c :: rest)) b =
      some (c == '>' && front.getLast? == some '-') := by
  subst h
  rw [endsArrow?, beq_toUInt8 (List.suffix_append _ _) hb (by decide), offset_append]
  by_cases hfront : front = []
  · subst hfront
    simp
  · have hpos : 0 < byteLength front := Nat.pos_of_ne_zero (mt byteLength_eq_zero.1 hfront)
    have hlast : (bytes (front ++ c :: rest))[byteLength front - 1]? = some '-'.toUInt8 ↔
        front.getLast? = some '-' := getElem?_bytes_pred_eq_some_iff (by decide) hfront
    have hlt : byteLength front - 1 < (bytes (front ++ c :: rest)).length := by
      rw [length_bytes, byteLength_append]
      omega
    rw [List.getElem?_eq_getElem hlt, Option.some_inj] at hlast
    by_cases hc : c = '>'
    · subst hc
      rw [if_pos (by simp [hpos]), List.getElem?_eq_getElem hlt, Option.map_some, Option.some_inj,
        Bool.eq_iff_iff]
      simp [hlast]
    · simp [hc]

/-- A turn of the loop at a character. -/
theorem splitFrom?_cons (hsep : sep = ':' ∨ sep = '+') (h : front ++ c :: rest = text)
    (depth : Int) :
    splitFrom? o text sep (offset text (c :: rest)) depth =
      if sep == ':' && (c == ':' && rest.head? == some ':') then
        splitFrom? o text sep (offset text rest + 1) depth
      else if depth == 0 && c == sep then some (some (front, rest))
      else (o.shift? depth (bracketChange (front.getLast? == some '-') c)).bind
        (splitFrom? o text sep (offset text rest)) := by
  have hcs : c :: rest <:+ text := ⟨front, h⟩
  obtain ⟨b, hb⟩ := exists_getElem?_bytes hcs
  have hlt : offset text (c :: rest) < (bytes text).length := (List.getElem?_eq_some_iff.1 hb).1
  have hascii : sep.toNat < 128 := by rcases hsep with rfl | rfl <;> decide
  rw [splitFrom?, if_pos hlt, hb]
  simp (disch := decide) only [Option.bind_eq_bind, Option.bind_some, Option.pure_def,
    beq_toUInt8 hcs hb, beq_toUInt8 hcs hb hascii, beq_pair_toUInt8 hcs, endsArrow?_offset h hb,
    splitFrom?_next hascii hcs]
  by_cases hmark : c = ':' ∨ c = '+'
  · -- Colons and plus signs are one byte, and no brackets.
    have hlow : c.toNat < 128 := by rcases hmark with rfl | rfl <;> decide
    have hfront : splitAtByte? (offset text (c :: rest)) text = some (front, c :: rest) := by
      rw [← h, offset_append, splitAtByte?_byteLength]
    have hback : splitAtByte? (offset text (c :: rest) + 1) text = some (front ++ [c], rest) := by
      rw [offset_cons_of_lt hcs hlow, ← h, List.append_cons, offset_append,
        splitAtByte?_byteLength]
    have hpair : offset text (c :: rest) + 2 = offset text rest + 1 := by
      rw [← offset_cons_of_lt hcs hlow]
    rw [hfront, hback, hpair]
    rcases hmark with rfl | rfl <;> simp [bracketChange, Overflow.shift?]
  · obtain ⟨hcolon, hplus⟩ := not_or.1 hmark
    have hne : c ≠ sep := by rcases hsep with rfl | rfl <;> assumption
    have hpair : ¬(sep == ':' && (c == ':' && rest.head? == some ':')) = true := by simp [hcolon]
    have hfound : ¬(depth == 0 && c == sep) = true := by simp [hne]
    rw [if_neg hpair, if_neg hfound, if_neg hpair, if_neg hfound, bracketChange]
    split
    · rfl
    · split
      · rfl
      · split
        · rfl
        · rfl

theorem splitTop?_cons (hsep : sep = ':' ∨ sep = '+') (depth : Int) (dash : Bool) (c : Char)
    (rest : List Char) :
    splitTop? sep depth dash (c :: rest) =
      if sep == ':' && (c == ':' && rest.head? == some ':') then
        (splitTop? sep depth false rest.tail).map fun (head, tail) => (':' :: ':' :: head, tail)
      else if depth == 0 && c == sep then some ([], rest)
      else (splitTop? sep (depth + bracketChange dash c) (c == '-') rest).map fun (head, tail) =>
        (c :: head, tail) := by
  obtain rfl | rfl := hsep
  · by_cases hpair : c = ':' ∧ rest.head? = some ':'
    · obtain ⟨rfl, hhead⟩ := hpair
      obtain ⟨rest, rfl⟩ := List.head?_eq_some_iff.1 hhead
      rw [splitTop?]
      rfl
    · have hnone : ¬((':' : Char) == ':' && (c == ':' && rest.head? == some ':')) = true := by
        simpa using hpair
      rw [if_neg hnone, splitTop?]
      rintro more rfl rfl
      exact hpair ⟨rfl, rfl⟩
  · have hplus := splitPlus?_cons ⟨depth, dash⟩ c rest
    have hnone : ¬(('+' : Char) == ':' && (c == ':' && rest.head? == some ':')) = true := by simp
    rw [splitPlus?, splitPlus?] at hplus
    rw [if_neg hnone, hplus]
    simp [BoundState.next]

/-! ## Room for the depth -/

/-- The depth cannot leave the range of 32 bits before the text ends. -/
def Roomy (depth : Int) (cs : List Char) : Prop := depth.natAbs + byteLength cs < 2 ^ 31

theorem Roomy.keep? (h : Roomy depth cs) (o : Overflow) : o.keep? depth = some depth := by
  unfold Roomy at h
  have hkept : (Int32.ofInt depth).toInt = depth :=
    Int32.toInt_ofInt_of_le (by omega) (by omega)
  cases o <;> simp [Overflow.keep?, hkept]

theorem bracketChange_natAbs_le (dash : Bool) (c : Char) : (bracketChange dash c).natAbs ≤ 1 := by
  unfold bracketChange
  split_ifs <;> decide

/-- A character changes the depth by no more than its bytes. -/
theorem Roomy.shift (h : Roomy depth (c :: rest)) (dash : Bool) :
    Roomy (depth + bracketChange dash c) rest := by
  have hchange := bracketChange_natAbs_le dash c
  have hpos := c.utf8Size_pos
  unfold Roomy at *
  rw [byteLength_cons] at h
  omega

theorem Roomy.shift? (h : Roomy depth (c :: rest)) (dash : Bool) (o : Overflow) :
    o.shift? depth (bracketChange dash c) = some (depth + bracketChange dash c) := by
  unfold Overflow.shift?
  split
  · next hzero => rw [hzero, Int.add_zero]
  · exact (h.shift dash).keep? o

theorem Roomy.of_cons (h : Roomy depth (c :: rest)) : Roomy depth rest := by
  unfold Roomy at *
  rw [byteLength_cons] at h
  omega

/-- The depth behind a character, if it has room or wraps around. -/
theorem exists_shift? (hroom : o = .wraps ∨ Roomy depth (c :: rest)) (dash : Bool) :
    ∃ d, o.shift? depth (bracketChange dash c) = some d ∧ (o = .wraps ∨ Roomy d rest) ∧
      (Roomy depth (c :: rest) → d = depth + bracketChange dash c) := by
  by_cases h : Roomy depth (c :: rest)
  · exact ⟨_, h.shift? dash o, .inr (h.shift dash), fun _ => rfl⟩
  · obtain rfl := hroom.resolve_right h
    obtain ⟨d, hd⟩ : ∃ d, Overflow.wraps.shift? depth (bracketChange dash c) = some d := by
      unfold Overflow.shift?
      split <;> exact ⟨_, rfl⟩
    exact ⟨d, hd, .inl rfl, fun hroomy => absurd hroomy h⟩

/-! ## Splits -/

/-- The text is split at a separator, and where the characters say when the depth has room. -/
structure SplitAs (text : List Char) (sep : Char) (front : List Char) (depth : Int) (cs : List Char)
    (r : Option (List Char × List Char)) : Prop where
  parts : ∀ head tail, r = some (head, tail) → head ++ sep :: tail = text
  exact : Roomy depth cs → r = (splitTop? sep depth (front.getLast? == some '-') cs).map
    fun (head, tail) => (front ++ head, tail)

/-- The loop ends when the depth has room or wraps around. -/
theorem splitFrom?_offset (hsep : sep = ':' ∨ sep = '+') (h : front ++ cs = text)
    (hroom : o = .wraps ∨ Roomy depth cs) :
    ∃ r, splitFrom? o text sep (offset text cs) depth = some r ∧
      SplitAs text sep front depth cs r := by
  induction hlength : cs.length using Nat.strong_induction_on generalizing front cs depth with
  | _ n ih =>
    subst hlength
    cases cs with
    | nil =>
      have hend : ¬offset text ([] : List Char) < (bytes text).length :=
        mt (offset_lt_iff ⟨front, h⟩).1 (not_not.2 rfl)
      refine ⟨none, ?_, nofun, fun _ => ?_⟩
      · rw [splitFrom?]
        exact if_neg hend
      · rw [splitTop?]
        rfl
    | cons c rest =>
      rw [splitFrom?_cons hsep h]
      have hcons := splitTop?_cons hsep depth (front.getLast? == some '-') c rest
      split
      · next hpair =>
        rw [if_pos hpair] at hcons
        simp only [Bool.and_eq_true, beq_iff_eq] at hpair
        obtain ⟨rfl, rfl, hhead⟩ := hpair
        obtain ⟨more, rfl⟩ := List.head?_eq_some_iff.1 hhead
        have hmore : (front ++ [':', ':']) ++ more = text := by rw [← h]; simp
        have hrest : ':' :: more <:+ text := ⟨front ++ [':'], by rw [← h]; simp⟩
        rw [offset_cons_of_lt hrest (by decide)]
        obtain ⟨r, hr, hsplit⟩ := ih more.length (by simp only [List.length_cons]; omega) hmore
          (hroom.imp_right fun hroom => hroom.of_cons.of_cons) rfl
        refine ⟨r, hr, hsplit.parts, fun hroom => ?_⟩
        rw [hsplit.exact hroom.of_cons.of_cons, hcons, Option.map_map]
        simp [Function.comp_def]
      · next hpair =>
        rw [if_neg hpair] at hcons
        split
        · next hfound =>
          rw [if_pos hfound] at hcons
          obtain rfl : c = sep := by simpa using (Bool.and_eq_true_iff.1 hfound).2
          refine ⟨_, rfl, ?_, fun _ => by simp [hcons]⟩
          rintro head tail heq
          cases heq
          exact h
        · next hfound =>
          rw [if_neg hfound] at hcons
          obtain ⟨d, hd, hroom', hexact⟩ := exists_shift? hroom (front.getLast? == some '-')
          have hrest : (front ++ [c]) ++ rest = text := by rw [← h]; simp
          obtain ⟨r, hr, hsplit⟩ := ih rest.length (by simp) hrest hroom' rfl
          refine ⟨r, by rw [hd]; exact hr, hsplit.parts, fun hroom => ?_⟩
          obtain rfl := hexact hroom
          rw [hsplit.exact (hroom.shift _), hcons, Option.map_map]
          simp [Function.comp_def]

theorem splitFrom?_zero (hsep : sep = ':' ∨ sep = '+') (hroom : o = .wraps ∨ Roomy 0 text) :
    ∃ r, splitFrom? o text sep 0 0 = some r ∧
      (∀ head tail, r = some (head, tail) → head ++ sep :: tail = text) ∧
      (Roomy 0 text → r = splitTop? sep 0 false text) := by
  obtain ⟨r, hr, hsplit⟩ := splitFrom?_offset hsep (List.nil_append text) hroom
  rw [offset_self] at hr
  exact ⟨r, hr, hsplit.parts, fun h => (hsplit.exact h).trans (by simp)⟩

theorem Roomy.of_append (h : Roomy depth (front ++ rest)) : Roomy depth rest := by
  unfold Roomy at *
  rw [byteLength_append] at h
  omega

/-- Bounds are split until there is nothing to split. -/
theorem exists_splitBounds? (hroom : o = .wraps ∨ Roomy 0 text) :
    ∃ bs, (∀ bounds, splitBounds? o text bounds = some (bounds ++ bs)) ∧
      (Roomy 0 text → bs = splitBounds text) := by
  induction hlength : text.length using Nat.strong_induction_on generalizing text with
  | _ n ih =>
    subst hlength
    obtain ⟨r, hr, hparts, hexact⟩ := splitFrom?_zero (.inr rfl) hroom
    cases r with
    | none =>
      refine ⟨[String.ofList (trim text)], fun bounds => ?_, fun hroom => ?_⟩
      · rw [splitBounds?, hr]
        rfl
      · exact (splitBounds_of_none (hexact hroom).symm).symm
    | some x =>
      obtain ⟨head, tail⟩ := x
      have htext := hparts head tail rfl
      have htail (h : Roomy 0 text) : Roomy 0 tail := (htext ▸ h).of_append.of_cons
      have hlt : tail.length < text.length := by
        rw [← htext, List.length_append, List.length_cons]
        omega
      obtain ⟨bs, hbs, hexact'⟩ := ih tail.length hlt (hroom.imp_right htail) rfl
      refine ⟨String.ofList (trim head) :: bs, fun bounds => ?_, fun hroom => ?_⟩
      · rw [splitBounds?, hr]
        show (if tail.length < text.length then _ else _) = _
        rw [if_pos hlt, hbs, List.append_assoc]
        rfl
      · rw [splitBounds_of_some (hexact hroom).symm, hexact' (htail hroom)]

end TypeReader

namespace TypeDescriptor

variable {text : String} {generics : List String} {what : TypeFault} {n : Nat} {o : Overflow}

/-- The identifier in front of a colon with what is behind this, or all of the text. -/
def headAndBounds (cs : List Char) :
    Option (List Char × List Char) → List Char × Option (List Char)
  | some (head, rest) => if isIdentifier (trim head) then (trim head, some rest) else (cs, none)
  | none => (cs, none)

/-- Reads a declaration with this head, or a type. -/
def declare? (o : Overflow) (cs head : List Char) (rest : Option (List Char)) :
    Option (Except TypeError TypeDescriptor) :=
  if !isIdentifier head then parse? (String.ofList cs) []
  else match rest with
    | some rest => do
      let bounds ← splitBounds? o rest []
      if bounds.any (·.isEmpty) then return .error (.fault .expectedName (byteLength cs))
      else return .ok (.generic (String.ofList head) bounds)
    | none => return .ok (.generic (String.ofList head) [])

/-- Reads an entry of a generic list. -/
def parseGeneric? (o : Overflow) (text : String) : Option (Except TypeError TypeDescriptor) := do
  let cs := trim text.toList
  let split ← splitFrom? o cs ':' 0 0
  let (head, rest) := headAndBounds cs split
  declare? o cs head rest

/-- What is wrong with a text is at a boundary of it. -/
def Placed (cs : List Char) (r : Except TypeError TypeDescriptor) : Prop :=
  ∀ what n, r = .error (.fault what n) → n ≤ byteLength cs ∧ Boundary cs n

theorem placed_ok (cs : List Char) (t : TypeDescriptor) : Placed cs (.ok t) := nofun

theorem placed_offset {cs rest : List Char} (h : rest <:+ cs) (what : TypeFault) :
    Placed cs (.error (.fault what (offset cs rest))) := by
  rintro what n heq
  cases heq
  exact ⟨(boundary_offset h).le, boundary_offset h⟩

theorem placed_empty (cs : List Char) : Placed cs (.error .empty) := nofun

theorem placed_parse (text : String) (generics : List String) :
    Placed text.toList (parse text generics) := by
  have hleft := (suffix_left generics (2 * text.toList.length + 2)).1 text.toList
  rw [parse]
  dsimp only
  split
  · exact placed_empty _
  · split
    · next failure hread =>
      rw [hread] at hleft
      exact placed_offset hleft failure.1
    · next type rest hread =>
      rw [hread] at hleft
      have htrim : trimStart rest <:+ text.toList := (suffix_trimStart rest).trans hleft
      split
      · exact placed_ok _ type
      · exact placed_offset htrim .trailingInput

theorem placed_parse_ofList (cs : List Char) : Placed cs (parse (String.ofList cs) []) := by
  have h := placed_parse (String.ofList cs) []
  rwa [String.toList_ofList] at h

theorem placed_end (cs : List Char) (what : TypeFault) :
    Placed cs (.error (.fault what (byteLength cs))) :=
  placed_offset (List.nil_suffix) what

theorem placed_declare? {cs head : List Char} {rest : Option (List Char)}
    {r : Except TypeError TypeDescriptor} (h : declare? o cs head rest = some r) :
    Placed cs r := by
  unfold declare? at h
  split at h
  · rw [parse?_eq] at h
    cases h
    exact placed_parse_ofList cs
  · split at h
    · obtain ⟨bounds, -, h⟩ := Option.bind_eq_some_iff.1 h
      split at h
      · cases h
        exact placed_end cs .expectedName
      · cases h
        exact placed_ok cs _
    · cases h
      exact placed_ok cs _

theorem placed_parseGeneric? {r : Except TypeError TypeDescriptor}
    (h : parseGeneric? o text = some r) : Placed (trim text.toList) r := by
  obtain ⟨split, -, h⟩ := Option.bind_eq_some_iff.1 h
  exact placed_declare? h

/-- An entry is read when the depth of brackets has room or wraps around. -/
theorem exists_parseGeneric? (hroom : o = .wraps ∨ Roomy 0 (trim text.toList)) :
    ∃ r, parseGeneric? o text = some r ∧
      (Roomy 0 (trim text.toList) → r = parseGeneric text) := by
  obtain ⟨split, hsplit, hparts, hexact⟩ := splitFrom?_zero (.inl rfl) hroom
  rw [parseGeneric?]
  dsimp only
  rw [hsplit, parseGeneric]
  simp only [Option.bind_eq_bind, Option.bind_some]
  cases split with
  | none =>
    rw [headAndBounds]
    dsimp only
    rw [declare?]
    by_cases hid : isIdentifier (trim text.toList) = true
    · exact ⟨_, if_neg (by simp [hid]), fun _ => (if_pos hid).symm⟩
    · refine ⟨_, (if_pos (by simp [hid])).trans (parse?_eq _ _), fun hroom => ?_⟩
      rw [if_neg hid, ← hexact hroom]
  | some x =>
    obtain ⟨head, tail⟩ := x
    have hcs := hparts head tail rfl
    -- An identifier has no colon.
    have hid : ¬isIdentifier (trim text.toList) = true := by
      intro hid
      have hcolon := forall_of_isIdentifier hid ':' (by rw [← hcs]; simp)
      cases hcolon
    have htail (h : Roomy 0 (trim text.toList)) : Roomy 0 tail := (hcs ▸ h).of_append.of_cons
    rw [headAndBounds, if_neg hid]
    by_cases hhead : isIdentifier (trim head) = true
    · obtain ⟨bs, hbs, hbounds⟩ := exists_splitBounds? (hroom.imp_right htail)
      rw [if_pos hhead]
      dsimp only
      rw [declare?, if_neg (by simp [hhead]), hbs]
      refine ⟨_, apply_ite some _ _ _ |>.symm, fun hroom => ?_⟩
      rw [← hexact hroom]
      dsimp only
      rw [if_pos hhead, ← hbounds (htail hroom)]
      rfl
    · rw [if_neg hhead]
      dsimp only
      rw [declare?]
      refine ⟨_, (if_pos (by simp [hid])).trans (parse?_eq _ _), fun hroom => ?_⟩
      rw [← hexact hroom]
      exact (if_neg hhead).symm

theorem byteLength_trim_le (cs : List Char) : byteLength (trim cs) ≤ byteLength cs := by
  obtain ⟨front, back, -, -, hcs⟩ := exists_trim cs
  rw [hcs, byteLength_append, byteLength_append, ← hcs]
  omega

/-- Types and entries of generic lists are read to an end in every text. No text is cut within a
    character, nothing is read behind its end and no bracket is closed that was not opened, and what
    is wrong is said to be at a boundary of the text. The type is the one that the characters give,
    and so is the entry when the depth of brackets has room in 32 bits, as it has in every text of
    less than 2 GiB. -/
theorem parse_checked :
    (∀ text generics, parse? text generics = some (parse text generics) ∧
      Placed text.toList (parse text generics)) ∧
    (∀ text, ∃ r, parseGeneric? .wraps text = some r) ∧
    (∀ o text r, parseGeneric? o text = some r → Placed (trim text.toList) r) ∧
    ∀ o text, text.utf8ByteSize < 2 ^ 31 → parseGeneric? o text = some (parseGeneric text) := by
  refine ⟨fun text generics => ⟨parse?_eq text generics, placed_parse text generics⟩,
    fun text => ?_, fun o text r => placed_parseGeneric?, fun o text hsize => ?_⟩
  · obtain ⟨r, hr, -⟩ : ∃ r, parseGeneric? .wraps text = some r ∧ _ :=
      exists_parseGeneric? (.inl rfl)
    exact ⟨r, hr⟩
  · have hroom : Roomy 0 (trim text.toList) := by
      have hle := byteLength_trim_le text.toList
      rw [byteLength_toList] at hle
      rw [Roomy, Int.natAbs_zero]
      omega
    obtain ⟨r, hr, hexact⟩ := exists_parseGeneric? (.inr hroom)
    rw [hr, hexact hroom]

/-- A missing bracket behind a character of two bytes, and a missing bound behind another. -/
theorem parse_checked_accents :
    parse? "Vec<é" [] = some (.error (.fault .unclosedArguments 6)) ∧
    Boundary "Vec<é".toList 6 ∧
    parseGeneric? .fails " T: é + " = some (.error (.fault .expectedName 7)) ∧
    Boundary "T: é +".toList 7 := by
  obtain ⟨hparse, -, hplaced, hexact⟩ := parse_checked
  have htype : parse "Vec<é" [] = .error (.fault .unclosedArguments 6) := by rfl
  have hentry : parseGeneric " T: é + " = .error (.fault .expectedName 7) := by
    with_unfolding_all rfl
  have hread := hexact .fails " T: é + " (by decide)
  rw [hentry] at hread
  have htrim : trim " T: é + ".toList = "T: é +".toList := by rfl
  refine ⟨htype ▸ (hparse "Vec<é" []).1, ((hparse "Vec<é" []).2 _ _ htype).2, hread, ?_⟩
  rw [← htrim]
  exact (hplaced .fails " T: é + " _ hread _ _ rfl).2

end TypeDescriptor

end FluentGrammar.Catalog
