/-
  Reading the words of a command. A command has options and at most one value per position. An
  option is a flag, is counted, or takes a value, which is attached to it or the next word. A
  value that is not attached does not begin with a hyphen. After the word of two hyphens all
  words are values.

  A value is examined only when the next option or position begins, so that an unknown option
  behind a wrong value is what is reported.
-/

namespace FluentGrammar.CommandLine

/-- What is wrong with the words. -/
inductive UsageError where
  /-- There are no words at all. -/
  | nothingGiven
  | missingCommand
  | unknownCommand
  /-- An unknown option, or one value too many. -/
  | unknownArgument
  | missingArgument
  /-- A flag or a value is given twice. -/
  | repeatedArgument
  /-- A value is missing or not one of those allowed. -/
  | badValue
  /-- A value for an option that takes none. -/
  | unexpectedValue
  /-- The words ask for help. -/
  | helpWanted
  deriving Repr, DecidableEq

/-- Something that takes a value. -/
structure Slot where
  name : String
  accepts : String → Bool

/-- What an option does. -/
inductive OptionKind where
  | flag
  | counted
  | help
  | valued (accepts : String → Bool)

/-- An option. -/
structure OptionForm where
  name : String
  short : Option Char
  kind : OptionKind

/-- The options and positions of a command. -/
structure CommandForm where
  options : List OptionForm
  positions : List Slot

namespace CommandForm

/-- The option of a long name. -/
def long? (f : CommandForm) (name : String) : Option OptionForm :=
  f.options.find? (·.name == name)

/-- The option of a letter. -/
def short? (f : CommandForm) (letter : Char) : Option OptionForm :=
  f.options.find? (·.short == some letter)

end CommandForm

/-- What has been read. -/
structure Given where
  /-- Names with their values, in order; those of flags and counted options are empty. -/
  values : List (String × String)
  /-- A slot whose value has not been examined, or has not been read either. -/
  pending : Option (Slot × Option String)
  /-- Positions not filled yet. -/
  positions : List Slot

namespace Given

/-- The value of a name. -/
def value? (g : Given) (name : String) : Option String := List.lookup name g.values

/-- The name is there. -/
def has (g : Given) (name : String) : Bool := (g.value? name).isSome

/-- How often the name is there. -/
def count (g : Given) (name : String) : Nat := (g.values.filter (·.1 == name)).length

/-- Adds a value. -/
def add (g : Given) (name value : String) : Given :=
  { g with values := g.values ++ [(name, value)] }

/-- Adds a value that may be there once. -/
def addOnce (g : Given) (name value : String) : Except UsageError Given :=
  if g.has name then .error .repeatedArgument else .ok (g.add name value)

/-- Fills a slot. -/
def fill (g : Given) (slot : Slot) (value : String) : Except UsageError Given := do
  let filled ← g.addOnce slot.name value
  if slot.accepts value then return filled else throw .badValue

/-- Examines the pending value. -/
def settle (g : Given) : Except UsageError Given :=
  match g.pending with
  | none => .ok g
  | some (_, none) => .error .badValue
  | some (slot, some value) => { g with pending := none }.fill slot value

/-- Takes an option with the value attached to it, if any. -/
def takeOption (g : Given) (o : OptionForm) (attached : Option String) :
    Except UsageError Given :=
  match o.kind, attached with
  | .valued accepts, some value => do (← g.settle).fill ⟨o.name, accepts⟩ value
  | .valued accepts, none => do
    return { (← g.settle) with pending := some (⟨o.name, accepts⟩, none) }
  | _, some _ => .error .unexpectedValue
  | .flag, none => do (← g.settle).addOnce o.name ""
  | .counted, none => do return (← g.settle).add o.name ""
  | .help, none => do
    let _ ← g.settle
    throw .helpWanted

/-- Takes an option of a long name, where an equals sign comes before an attached value. -/
def takeLong (g : Given) (f : CommandForm) (text : List Char) : Except UsageError Given :=
  let name := String.ofList (text.takeWhile (· != '='))
  let attached := match text.dropWhile (· != '=') with
    | [] => none
    | _ :: value => some (String.ofList value)
  match f.long? name with
  | some o => g.takeOption o attached
  | none => .error .unknownArgument

/-- Takes options of one letter each. What follows the letter of one with a value is its value,
    less an equals sign. -/
def takeLetters (g : Given) (f : CommandForm) : List Char → Except UsageError Given
  | [] => .ok g
  | letter :: rest =>
    match f.short? letter with
    | none => .error .unknownArgument
    | some o =>
      match o.kind, rest with
      | .valued _, [] => g.takeOption o none
      | .valued _, '=' :: value => g.takeOption o (some (String.ofList value))
      | .valued _, value => g.takeOption o (some (String.ofList value))
      | _, rest => do (← g.takeOption o none).takeLetters f rest

/-- Takes a value for the next position. -/
def takePosition (g : Given) (word : String) : Except UsageError Given :=
  match g.positions with
  | [] => .error .unknownArgument
  | slot :: rest => do
    return { (← g.settle) with pending := some (slot, some word), positions := rest }

/-- Takes a word that is not behind two hyphens. -/
def takeWord (g : Given) (f : CommandForm) (word : String) : Except UsageError Given :=
  match word.toList, g.pending with
  | '-' :: '-' :: text, _ => g.takeLong f text
  | '-' :: letter :: rest, _ => g.takeLetters f (letter :: rest)
  | _, some (slot, none) => .ok { g with pending := some (slot, some word) }
  | _, _ => g.takePosition word

/-- Takes words, of which those behind two hyphens are values. -/
def takeWords (g : Given) (f : CommandForm) : List String → Except UsageError Given
  | [] => g.settle
  | word :: rest =>
    if word == "--" then do (← rest.foldlM takePosition g).settle
    else do (← g.takeWord f word).takeWords f rest

end Given

/-- Reads the words of a command, all of whose positions must be filled. -/
def CommandForm.read (f : CommandForm) (words : List String) : Except UsageError Given := do
  let g ← (Given.mk [] none f.positions).takeWords f words
  if g.positions.isEmpty then return g else throw .missingArgument

end FluentGrammar.CommandLine
