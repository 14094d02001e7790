import FluentGrammar.Catalog.Basic
import FluentGrammar.Manifest.Record

/-
  Manifests: JSON documents that hold a grammar, the builder type it is for and the actions it
  may use. The types of an action stay text until a catalog is made of the manifest.
-/

namespace FluentGrammar

namespace Manifest

/-- A parameter as written. -/
structure ParameterEntry where
  name : String
  type : String
  deriving Repr, DecidableEq

/-- An action as written. -/
structure ActionEntry where
  method : String
  name : Option String
  id : Option String
  style : Catalog.CallStyle
  doc : String
  parameters : List ParameterEntry
  generics : List String
  deriving Repr, DecidableEq

end Manifest

/-- A manifest. -/
structure Manifest where
  /-- The name of the entry state, from which the other states take theirs. -/
  baseName : String
  /-- The builder type that the states wrap. -/
  builder : String
  /-- The grammar text. -/
  grammar : String
  actions : List Manifest.ActionEntry
  deriving Repr, DecidableEq

namespace Manifest

open Reading

/-- A draft of a parameter. -/
structure ParameterDraft where
  name : Option String := none
  type : Option String := none

/-- A draft of an action. -/
structure ActionDraft where
  method : Option String := none
  name : Option (Option String) := none
  id : Option (Option String) := none
  style : Option Catalog.CallStyle := none
  doc : Option String := none
  parameters : Option (List ParameterEntry) := none
  generics : Option (List String) := none

/-- A draft of a manifest. -/
structure Draft where
  baseName : Option (Option String) := none
  builder : Option String := none
  grammar : Option String := none
  actions : Option (List ActionEntry) := none

/-- The style of a name. -/
def styleOf (name : String) : Reading Catalog.CallStyle :=
  if name == "property" then return .property
  else if name == "method" then return .method
  else refuse (.unknownVariant name ["property", "method"])

/-- A style: its name, or an object with that name and `null`. -/
def styleValue : Reading Catalog.CallStyle := do
  let variant : Reading Catalog.CallStyle := placed do styleOf (← text)
  match ← valueStart with
  | '"' => variant
  | '\x7b' =>
    skip
    unless (← valueStart) == '"' do malformedAhead .keyNotText
    let style ← variant
    colon
    nullValue
    match ← peekPastSpace with
    | some '\x7d' => do skip; return style
    | some _ => malformed .expectedValue
    | none => malformed .endInObject
  | _ => malformedAhead .expectedValue

/-- Parameters: a name and a type. -/
def parameterFormat : Format ParameterDraft where
  title := "struct RawParam"
  blank := {}
  fields := [
    ⟨"name", true, (·.name.isSome), fun d => do
      return { d with name := some (← textValue "a string") }⟩,
    ⟨"type", true, (·.type.isSome), fun d => do
      return { d with type := some (← textValue "a string") }⟩]

/-- The parameter of a draft. -/
def ParameterDraft.entry (d : ParameterDraft) : ParameterEntry :=
  ⟨d.name.getD "", d.type.getD ""⟩

/-- Actions: a method, and whatever differs from the defaults. -/
def actionFormat : Format ActionDraft where
  title := "struct RawAction"
  blank := {}
  fields := [
    ⟨"method", true, (·.method.isSome), fun d => do
      return { d with method := some (← textValue "a string") }⟩,
    ⟨"name", false, (·.name.isSome), fun d => do return { d with name := some (← optionalText) }⟩,
    ⟨"id", false, (·.id.isSome), fun d => do return { d with id := some (← optionalText) }⟩,
    ⟨"style", false, (·.style.isSome), fun d => do
      return { d with style := some (← styleValue) }⟩,
    ⟨"doc", false, (·.doc.isSome), fun d => do
      return { d with doc := some (← textValue "a string") }⟩,
    ⟨"params", false, (·.parameters.isSome), fun d => do
      let entries ← listValue (ParameterDraft.entry <$> recordValue parameterFormat)
      return { d with parameters := some entries }⟩,
    ⟨"generics", false, (·.generics.isSome), fun d => do
      return { d with generics := some (← listValue (textValue "a string")) }⟩]

/-- The action of a draft. -/
def ActionDraft.entry (d : ActionDraft) : ActionEntry where
  method := d.method.getD ""
  name := d.name.join
  id := d.id.join
  style := d.style.getD .property
  doc := d.doc.getD ""
  parameters := d.parameters.getD []
  generics := d.generics.getD []

/-- Manifests: a builder and a grammar, a base name and actions. -/
def manifestFormat : Format Draft where
  title := "struct RawManifest"
  blank := {}
  fields := [
    ⟨"syntax", false, (·.baseName.isSome), fun d => do
      return { d with baseName := some (← optionalText) }⟩,
    ⟨"builder", true, (·.builder.isSome), fun d => do
      return { d with builder := some (← textValue "a string") }⟩,
    ⟨"grammar", true, (·.grammar.isSome), fun d => do
      return { d with grammar := some (← textValue "a string") }⟩,
    ⟨"actions", false, (·.actions.isSome), fun d => do
      let entries ← listValue (ActionDraft.entry <$> recordValue actionFormat)
      return { d with actions := some entries }⟩]

/-- The base name of a manifest that gives none. -/
def defaultBaseName : String := "Syntax"

/-- The manifest of a draft. -/
def Draft.manifest (d : Draft) : Manifest where
  baseName := d.baseName.join.getD defaultBaseName
  builder := d.builder.getD ""
  grammar := d.grammar.getD ""
  actions := d.actions.getD []

/-- A reader of one value that must fill the whole text. -/
def wholeText {α : Type} (value : Reading α) : Reading α := do
  let result ← value
  match ← peekPastSpace with
  | none => return result
  | some _ => malformedAhead .trailingCharacters

/-- Reads a manifest. -/
def parse (json : String) : Except Fault Manifest :=
  let reader : Reading Manifest := wholeText (Draft.manifest <$> recordValue manifestFormat)
  (reader.run ⟨json.toList, ⟨1, 0⟩⟩).1

/-- The action of an entry, with its types read. -/
def ActionEntry.action (e : ActionEntry) : Except Catalog.Error Catalog.Action := do
  let refuse (text : String) (cause : Catalog.TypeError) : Catalog.Error :=
    .invalidType e.method text cause
  let named := (Catalog.Action.ofMethod e.method).withStyle e.style |>.withDoc e.doc
  let named := e.name.elim named named.withName
  let named := e.id.elim named named.withId
  let generic ← e.generics.foldlM (fun (a : Catalog.Action) text => do
    let type ← (Catalog.TypeDescriptor.parseGeneric text).mapError (refuse text)
    return a.withGeneric type) named
  e.parameters.foldlM (fun (a : Catalog.Action) p => do
    let type ← (Catalog.TypeDescriptor.parse p.type generic.genericNames).mapError (refuse p.type)
    return a.withParameter p.name type) generic

/-- The catalog of a manifest's actions. -/
def catalog (m : Manifest) : Except Catalog.Error Catalog := do
  Catalog.ofActions (← m.actions.mapM (·.action))

/-- Why a text gives no catalog. -/
inductive Error where
  | json (fault : Fault)
  | catalog (error : Catalog.Error)

/-- The words of an error. -/
def Error.message : Error → String
  | json fault => "manifest parse error: " ++ fault.message
  | catalog error => error.message

end Manifest

end FluentGrammar
