/-
  Offsets into a text count bytes of its UTF-8 form. An offset falls on a boundary when some
  prefix of the characters has exactly that many bytes.
-/

namespace FluentGrammar.Text

/-- Bytes of the text in UTF-8. -/
def byteLength : List Char → Nat
  | [] => 0
  | c :: cs => c.utf8Size + byteLength cs

/-- The characters before and from a byte offset; `none` when the offset lies inside a character
    or past the end. -/
def splitAtByte? : Nat → List Char → Option (List Char × List Char)
  | 0, cs => some ([], cs)
  | _ + 1, [] => none
  | n, c :: cs =>
    if n < c.utf8Size then none
    else (splitAtByte? (n - c.utf8Size) cs).map fun (before, after) => (c :: before, after)

@[simp] theorem byteLength_nil : byteLength [] = 0 := rfl

@[simp] theorem byteLength_cons (c : Char) (cs : List Char) :
    byteLength (c :: cs) = c.utf8Size + byteLength cs := rfl

@[simp] theorem byteLength_append (xs ys : List Char) :
    byteLength (xs ++ ys) = byteLength xs + byteLength ys := by
  induction xs with
  | nil => simp
  | cons c cs ih => simp [ih, Nat.add_assoc]

theorem byteLength_ofList (cs : List Char) : byteLength cs = (String.ofList cs).utf8ByteSize := by
  induction cs with
  | nil => simp
  | cons c cs ih =>
    have h : String.ofList (c :: cs) = String.singleton c ++ String.ofList cs := by
      rw [String.singleton_eq_ofList, ← String.ofList_append, List.singleton_append]
    rw [h, String.utf8ByteSize_append, String.utf8ByteSize_singleton, ← ih, byteLength_cons]

/-- The bytes of the characters are the bytes of the text. -/
theorem byteLength_toList (text : String) : byteLength text.toList = text.utf8ByteSize := by
  rw [byteLength_ofList, String.ofList_toList]

/-- A split gives back the text, and the first part has the wanted length. -/
theorem splitAtByte?_eq_some {n : Nat} {cs before after : List Char}
    (h : splitAtByte? n cs = some (before, after)) :
    before ++ after = cs ∧ byteLength before = n := by
  induction cs generalizing n before after with
  | nil => cases n <;> simp_all [splitAtByte?]
  | cons c cs ih =>
    cases n with
    | zero => simp_all [splitAtByte?]
    | succ n =>
      simp only [splitAtByte?] at h
      split at h
      · simp at h
      · obtain ⟨⟨b, a⟩, hs, heq⟩ := Option.map_eq_some_iff.1 h
        obtain ⟨rfl, rfl⟩ := Prod.mk.inj heq
        have := ih hs
        refine ⟨by simp [this.1], ?_⟩
        simp only [byteLength_cons, this.2]
        omega

end FluentGrammar.Text
