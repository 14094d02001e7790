import FluentGrammar.Proofs.Report.Spans
import Mathlib.Data.List.Basic
import Mathlib.Tactic.SplitIfs

/-
  Texts as bytes. A character below 128 is one byte, and all bytes of the others are 128 or more. So
  a byte below 128 is a character wherever it is found (`getElem?_bytes_eq_some_iff`), and a loop
  over the bytes that passes over all others stands at a character whenever it looks at one
  (`apply_next_offset`).
-/

namespace FluentGrammar.Text

variable {c a : Char} {b : UInt8} {cs front rest text : List Char}

/-- The bytes of the characters in UTF-8. -/
def bytes (cs : List Char) : List UInt8 := cs.flatMap String.utf8EncodeChar

theorem bytes_cons (c : Char) (cs : List Char) :
    bytes (c :: cs) = String.utf8EncodeChar c ++ bytes cs := List.flatMap_cons

theorem bytes_singleton (c : Char) : bytes [c] = String.utf8EncodeChar c := List.append_nil _

theorem bytes_append (xs ys : List Char) : bytes (xs ++ ys) = bytes xs ++ bytes ys :=
  List.flatMap_append

/-- They are the bytes that a string consists of. -/
theorem bytes_toList (text : String) : bytes text.toList = text.toByteArray.data.toList := by
  have h : (String.ofList text.toList).toByteArray = text.toList.utf8Encode := rfl
  rw [String.ofList_toList] at h
  rw [h, List.utf8Encode]
  simp [bytes]

theorem length_bytes (cs : List Char) : (bytes cs).length = byteLength cs := by
  induction cs with
  | nil => rfl
  | cons c cs ih =>
    rw [bytes_cons, List.length_append, String.length_utf8EncodeChar, ih, byteLength_cons]

/-! ## The bytes of a character -/

theorem utf8EncodeChar_of_lt (hc : c.toNat < 128) : String.utf8EncodeChar c = [c.toUInt8] := by
  have hle : c.val.toNat ≤ 127 := Nat.le_of_lt_succ hc
  rw [String.utf8EncodeChar.eq_1, if_pos hle]
  rfl

theorem le_of_mem_utf8EncodeChar (hc : 128 ≤ c.toNat) (hb : b ∈ String.utf8EncodeChar c) :
    128 ≤ b.toNat := by
  have hgt : ¬c.val.toNat ≤ 127 := Nat.not_le.2 hc
  rw [String.utf8EncodeChar.eq_1, if_neg hgt] at hb
  split_ifs at hb <;> simp only [List.mem_cons, List.not_mem_nil, or_false] at hb <;>
    rcases hb with rfl | rfl | rfl | rfl <;> simp <;> omega

theorem toUInt8_toNat (ha : a.toNat < 128) : a.toUInt8.toNat = a.toNat := by
  have hval : a.toUInt8.toNat = a.toNat % 256 := rfl
  rw [hval, Nat.mod_eq_of_lt (by omega)]

theorem toUInt8_inj (ha : a.toNat < 128) (hc : c.toNat < 128) : a.toUInt8 = c.toUInt8 ↔ a = c := by
  rw [← UInt8.toNat_inj, toUInt8_toNat ha, toUInt8_toNat hc, Char.toNat_inj]

/-- A byte below 128 is in a character only if it is this character. -/
theorem mem_utf8EncodeChar_iff (ha : a.toNat < 128) :
    a.toUInt8 ∈ String.utf8EncodeChar c ↔ c = a := by
  by_cases hc : c.toNat < 128
  · rw [utf8EncodeChar_of_lt hc, List.mem_singleton, toUInt8_inj ha hc, eq_comm]
  · constructor
    · intro h
      have hle := le_of_mem_utf8EncodeChar (Nat.not_lt.1 hc) h
      rw [toUInt8_toNat ha] at hle
      omega
    · rintro rfl
      exact absurd ha hc

theorem head?_utf8EncodeChar (ha : a.toNat < 128) :
    (String.utf8EncodeChar c).head? = some a.toUInt8 ↔ c = a := by
  constructor
  · exact fun h => (mem_utf8EncodeChar_iff ha).1 (List.mem_of_head? h)
  · rintro rfl
    rw [utf8EncodeChar_of_lt ha]
    rfl

theorem getLast?_utf8EncodeChar (ha : a.toNat < 128) :
    (String.utf8EncodeChar c).getLast? = some a.toUInt8 ↔ c = a := by
  constructor
  · exact fun h => (mem_utf8EncodeChar_iff ha).1 (List.mem_of_getLast? h)
  · rintro rfl
    rw [utf8EncodeChar_of_lt ha]
    rfl

/-! ## Offsets -/

theorem suffix_of_cons (h : c :: rest <:+ text) : rest <:+ text :=
  (List.suffix_cons c rest).trans h

/-- Where the rest of a text begins. -/
def offset (text rest : List Char) : Nat := byteLength text - byteLength rest

theorem offset_append (front rest : List Char) :
    offset (front ++ rest) rest = byteLength front := by
  rw [offset, byteLength_append, Nat.add_sub_cancel]

theorem offset_self (text : List Char) : offset text text = 0 := Nat.sub_self _

theorem boundary_offset (h : rest <:+ text) : Boundary text (offset text rest) := by
  obtain ⟨front, rfl⟩ := h
  exact ⟨front, rest, rfl, (offset_append front rest).symm⟩

theorem offset_cons (h : c :: rest <:+ text) :
    offset text (c :: rest) + c.utf8Size = offset text rest := by
  obtain ⟨front, rfl⟩ := h
  have hrest : front ++ c :: rest = (front ++ [c]) ++ rest := by simp
  rw [offset_append, hrest, offset_append, byteLength_append, byteLength_cons, byteLength_nil,
    Nat.add_zero]

theorem utf8Size_of_lt (hc : c.toNat < 128) : c.utf8Size = 1 := by
  rw [← String.length_utf8EncodeChar, utf8EncodeChar_of_lt hc, List.length_singleton]

theorem offset_cons_of_lt (h : c :: rest <:+ text) (hc : c.toNat < 128) :
    offset text (c :: rest) + 1 = offset text rest := by
  rw [← offset_cons h, utf8Size_of_lt hc]

theorem splitAtByte?_offset (h : rest <:+ text) :
    ∃ front, front ++ rest = text ∧ splitAtByte? (offset text rest) text = some (front, rest) := by
  obtain ⟨front, rfl⟩ := h
  exact ⟨front, rfl, by rw [offset_append, splitAtByte?_byteLength]⟩

/-- The bytes from the beginning of the rest are its bytes. -/
theorem getElem?_bytes_offset (h : rest <:+ text) (i : Nat) :
    (bytes text)[offset text rest + i]? = (bytes rest)[i]? := by
  obtain ⟨front, rfl⟩ := h
  rw [offset_append, bytes_append, ← length_bytes,
    List.getElem?_append_right (Nat.le_add_right _ _), Nat.add_sub_cancel_left]

/-- There is a byte unless the text ends. -/
theorem offset_lt_iff (h : rest <:+ text) : offset text rest < (bytes text).length ↔ rest ≠ [] := by
  obtain ⟨front, rfl⟩ := h
  rw [offset_append, length_bytes, byteLength_append, Nat.lt_add_right_iff_pos, Nat.pos_iff_ne_zero,
    Ne, byteLength_eq_zero]

theorem head?_bytes (ha : a.toNat < 128) :
    (bytes cs).head? = some a.toUInt8 ↔ cs.head? = some a := by
  cases cs with
  | nil => simp [bytes]
  | cons c cs =>
    obtain ⟨b, tail, hc⟩ := List.exists_cons_of_ne_nil (String.utf8EncodeChar_ne_nil (c := c))
    rw [List.head?_cons, Option.some_inj, ← head?_utf8EncodeChar ha, bytes_cons, hc]
    rfl

theorem getLast?_bytes (ha : a.toNat < 128) :
    (bytes cs).getLast? = some a.toUInt8 ↔ cs.getLast? = some a := by
  obtain rfl | ⟨before, c, rfl⟩ := List.eq_nil_or_concat' cs
  · simp [bytes]
  · rw [List.getLast?_concat, Option.some_inj, ← getLast?_utf8EncodeChar ha, bytes_append,
      bytes_singleton, List.getLast?_append_of_ne_nil _ String.utf8EncodeChar_ne_nil]

/-- A byte below 128 at the beginning of the rest is a character. -/
theorem getElem?_bytes_eq_some_iff (h : rest <:+ text) (ha : a.toNat < 128) :
    (bytes text)[offset text rest]? = some a.toUInt8 ↔ rest.head? = some a := by
  have hget := getElem?_bytes_offset h 0
  rw [Nat.add_zero] at hget
  rw [hget, ← List.head?_eq_getElem?, head?_bytes ha]

/-- And so is one in front of the rest. -/
theorem getElem?_bytes_pred_eq_some_iff (ha : a.toNat < 128) (hfront : front ≠ []) :
    (bytes (front ++ rest))[byteLength front - 1]? = some a.toUInt8 ↔ front.getLast? = some a := by
  have hpos : 0 < byteLength front := Nat.pos_of_ne_zero (mt byteLength_eq_zero.1 hfront)
  rw [← getLast?_bytes ha, List.getLast?_eq_getElem?, length_bytes, bytes_append,
    List.getElem?_append_left (by rw [length_bytes]; omega)]

theorem exists_getElem?_bytes (h : c :: rest <:+ text) :
    ∃ b, (bytes text)[offset text (c :: rest)]? = some b :=
  ⟨_, List.getElem?_eq_getElem ((offset_lt_iff h).2 (List.cons_ne_nil c rest))⟩

theorem beq_toUInt8 (h : c :: rest <:+ text) (hb : (bytes text)[offset text (c :: rest)]? = some b)
    (ha : a.toNat < 128) : (b == a.toUInt8) = (c == a) := by
  have hiff := getElem?_bytes_eq_some_iff h ha
  rw [hb, Option.some_inj, List.head?_cons, Option.some_inj] at hiff
  rw [Bool.eq_iff_iff, beq_iff_eq, beq_iff_eq, hiff]

/-- Two bytes below 128 are two characters. -/
theorem beq_pair_toUInt8 {d : Char} (h : c :: rest <:+ text) (ha : a.toNat < 128)
    (hd : d.toNat < 128) :
    (c == a && (bytes text)[offset text (c :: rest) + 1]? == some d.toUInt8) =
      (c == a && rest.head? == some d) := by
  by_cases hc : c = a
  · subst hc
    have hiff := getElem?_bytes_eq_some_iff (suffix_of_cons h) hd
    rw [offset_cons_of_lt h ha, Bool.eq_iff_iff]
    simp [hiff]
  · rw [beq_eq_false_iff_ne.2 hc, Bool.false_and, Bool.false_and]

theorem beq_toUInt8_of_le (hb : 128 ≤ b.toNat) (ha : a.toNat < 128) : (b == a.toUInt8) = false := by
  refine beq_eq_false_iff_ne.2 fun heq => ?_
  rw [heq, toUInt8_toNat ha] at hb
  omega

/-- A loop that passes over all bytes from 128 goes on to the next character. -/
theorem apply_next_offset {β : Type} {f : Nat → β}
    (hf : ∀ i b, (bytes text)[i]? = some b → 128 ≤ b.toNat → f i = f (i + 1))
    (h : c :: rest <:+ text) : f (offset text (c :: rest) + 1) = f (offset text rest) := by
  by_cases hc : c.toNat < 128
  · rw [offset_cons_of_lt h hc]
  · have hpos := c.utf8Size_pos
    -- All bytes of the character are passed over.
    have hskip (k : Nat) (hk : k < c.utf8Size) :
        f (offset text (c :: rest) + 1) = f (offset text (c :: rest) + k + 1) := by
      induction k with
      | zero => rfl
      | succ k ih =>
        rw [ih (Nat.lt_of_succ_lt hk)]
        have hlt : k + 1 < (String.utf8EncodeChar c).length := by
          rwa [String.length_utf8EncodeChar]
        refine hf _ (String.utf8EncodeChar c)[k + 1] ?_
          (le_of_mem_utf8EncodeChar (Nat.not_lt.1 hc) (List.getElem_mem hlt))
        rw [Nat.add_assoc, getElem?_bytes_offset h, bytes_cons, List.getElem?_append_left hlt,
          List.getElem?_eq_getElem hlt]
    rw [hskip (c.utf8Size - 1) (by omega), ← offset_cons h]
    congr 1
    omega

end FluentGrammar.Text
