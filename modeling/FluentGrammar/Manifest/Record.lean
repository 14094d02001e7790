import FluentGrammar.Manifest.Scalar

/-
  Compound values of JSON: lists, optional texts, and records with fixed fields. A record is an
  object or the list of its fields in order. Its fields fill a draft of type `α`, which knows
  what has been set.
-/

namespace FluentGrammar.Manifest.Reading

/-- A field of a record: how it is read into a draft, whether a draft has it, and whether a
    record may lack it. -/
structure Field (α : Type) where
  name : String
  required : Bool
  isSet : α → Bool
  read : α → Reading α

/-- A record: what a reader expects to see, and the fields. -/
structure Format (α : Type) where
  title : String
  fields : List (Field α)
  blank : α

/-- The next character of a value, which must not end here. -/
def valueStart : Reading Char := do
  match ← peekPastSpace with
  | some c => return c
  | none => malformedAhead .endInValue

/-- A text. -/
def textValue (expected : String) : Reading String := placed do
  match ← valueStart with
  | '"' => text
  | _ => wrongType expected

/-- A text, or `null` for none. -/
def optionalText : Reading (Option String) := do
  match ← peekPastSpace with
  | some 'n' => do skip; word ['u', 'l', 'l']; return none
  | _ => some <$> textValue "a string"

/-- The word `null`. -/
def nullValue : Reading Unit := placed do
  match ← valueStart with
  | 'n' => do skip; word ['u', 'l', 'l']
  | _ => wrongType "unit"

/-- Whether the list has another element. -/
def hasElement (first : Bool) : Reading Bool := do
  match ← peekPastSpace with
  | none => malformedAhead .endInList
  | some ']' => return false
  | some ',' =>
    if first then return true
    else
      skip
      match ← peekPastSpace with
      | some ']' => malformedAhead .trailingComma
      | some _ => return true
      | none => malformedAhead .endInValue
  | some _ => if first then return true else malformedAhead .expectedListEnd

/-- Closes a list. -/
def closeList : Reading Unit := do
  match ← peekPastSpace with
  | some ']' => skip
  | some ',' =>
    skip
    match ← peekPastSpace with
    | some ']' => malformedAhead .trailingComma
    | _ => malformedAhead .trailingCharacters
  | some _ => malformedAhead .trailingCharacters
  | none => malformedAhead .endInList

/-- Whether the object has another field. -/
def hasField (first : Bool) : Reading Bool := do
  let key (found : Option Char) : Reading Bool := do
    match found with
    | some '"' => return true
    | some '\x7d' => if first then return false else malformedAhead .trailingComma
    | some _ => malformedAhead .keyNotText
    | none => malformedAhead (if first then .endInObject else .endInValue)
  let found ← peekPastSpace
  if first then key found
  else match found with
    | none => malformedAhead .endInObject
    | some '\x7d' => return false
    | some ',' => do skip; key (← peekPastSpace)
    | some _ => malformedAhead .expectedObjectEnd

/-- Closes an object. -/
def closeObject : Reading Unit := do
  match ← peekPastSpace with
  | some '\x7d' => skip
  | some ',' => malformedAhead .trailingComma
  | some _ => malformedAhead .trailingCharacters
  | none => malformedAhead .endInObject

/-- The colon behind a key. -/
def colon : Reading Unit := do
  match ← peekPastSpace with
  | some ':' => skip
  | some _ => malformedAhead .expectedColon
  | none => malformedAhead .endInObject

/-- The remaining elements of a list. -/
def elements {β : Type} (element : Reading β) (first : Bool) : Nat → Reading (List β)
  | 0 => return []
  | fuel + 1 => do
    if ← hasElement first then
      let head ← element
      return head :: (← elements element false fuel)
    else return []

/-- A list. -/
def listValue {β : Type} (element : Reading β) : Reading (List β) := placed do
  match ← valueStart with
  | '[' =>
    skip
    let bound := (← get).rest.length + 1
    closing (elements element true bound) closeList
  | _ => wrongType "a sequence"

/-- The remaining fields of an object, which fill the draft. -/
def objectFields {α : Type} (format : Format α) (draft : α) (first : Bool) : Nat → Reading α
  | 0 => return draft
  | fuel + 1 => do
    if ← hasField first then
      let key ← text
      match format.fields.find? (·.name == key) with
      | none => refuse (.unknownField key (format.fields.map (·.name)))
      | some field =>
        if field.isSet draft then refuse (.duplicateField key)
        else
          colon
          objectFields format (← field.read draft) false fuel
    else match format.fields.find? fun f => f.required && !f.isSet draft with
      | some field => refuse (.missingField field.name)
      | none => return draft

/-- The fields of a record written as a list. `index` counts those before. -/
def listFields {α : Type} (format : Format α) : List (Field α) → Nat → α → Reading α
  | [], _, draft => return draft
  | field :: rest, index, draft => do
    if ← hasElement (index == 0) then
      listFields format rest (index + 1) (← field.read draft)
    else if field.required then
      refuse (.wrongLength index
        (format.title ++ " with " ++ toString format.fields.length ++ " elements"))
    else listFields format rest (index + 1) draft

/-- A record. -/
def recordValue {α : Type} (format : Format α) : Reading α := placed do
  match ← valueStart with
  | '[' =>
    skip
    closing (listFields format format.fields 0 format.blank) closeList
  | '\x7b' =>
    skip
    let bound := (← get).rest.length + 1
    closing (objectFields format format.blank true bound) closeObject
  | _ => wrongType format.title

end FluentGrammar.Manifest.Reading
