import FluentGrammar.CommandLine.Options
import FluentGrammar.Grammar.Lower

/-
  Invocations: which command is to be run on which files, and how. The commands check a manifest,
  dump a stage of its compilation, and generate code for it.
-/

namespace FluentGrammar.CommandLine

/-- When to use colors. -/
inductive ColorChoice where
  /-- When the output is a terminal. -/
  | auto
  | always
  | never
  deriving Repr, DecidableEq

/-- A stage that can be dumped. -/
inductive Stage where
  | grammar
  | table
  | graph
  | minimal
  | states
  deriving Repr, DecidableEq

/-- A command with what only it takes. -/
inductive Task where
  | check (strict : Bool)
  | dump (stage : Stage) (prune : Bool)
  | generate (prune : Bool) (visibility : String) (output : Option String)
  deriving Repr, DecidableEq

/-- An invocation. -/
structure Invocation where
  task : Task
  manifest : String
  /-- A file with the grammar to use instead of the manifest's. -/
  grammar : Option String
  lowering : Lowering
  color : ColorChoice
  verbosity : Nat
  deriving Repr, DecidableEq

/-- The member of a list that the value of a name names. -/
def Given.choice? {α : Type} (g : Given) (choices : List (String × α)) (name : String) :
    Option α :=
  (g.value? name).bind fun value => List.lookup value choices

namespace Invocation

/-- A file is named by any text but the empty one. -/
def isPath (value : String) : Bool := !value.isEmpty

/-- The colors by name. -/
def colors : List (String × ColorChoice) :=
  [("auto", .auto), ("always", .always), ("never", .never)]

/-- The stages by name. -/
def stages : List (String × Stage) :=
  [("grammar", .grammar), ("table", .table), ("graph", .graph), ("minimal", .minimal),
    ("states", .states)]

/-- The text names a member of the list. -/
def names {α : Type} (choices : List (String × α)) (value : String) : Bool :=
  (List.lookup value choices).isSome

/-- Options of the program and of every command. -/
def globalOptions : List OptionForm :=
  [⟨"verbose", some 'v', .counted⟩, ⟨"help", some 'h', .help⟩]

/-- Options that all commands have. -/
def commonOptions : List OptionForm :=
  [⟨"grammar", some 'g', .valued isPath⟩, ⟨"direct", none, .flag⟩,
    ⟨"color", none, .valued (names colors)⟩] ++ globalOptions

/-- Leave out states that cannot be reached. -/
def pruneOption : OptionForm := ⟨"prune", none, .flag⟩

/-- A command with its own options. -/
def formWith (options : List OptionForm) : CommandForm :=
  ⟨options ++ commonOptions, [⟨"manifest", isPath⟩]⟩

/-- The commands by name, each with its form and its reading of what was given. -/
def commands : List (String × CommandForm × (Given → Task)) := [
  ("check", formWith [⟨"strict", none, .flag⟩], fun g => .check (g.has "strict")),
  ("dump", formWith [⟨"stage", none, .valued (names stages)⟩, pruneOption], fun g =>
    .dump (g.choice? stages "stage" |>.getD .states) (g.has "prune")),
  ("generate",
    formWith [pruneOption, ⟨"vis", none, .valued fun _ => true⟩,
      ⟨"output", some 'o', .valued isPath⟩],
    fun g => .generate (g.has "prune") ((g.value? "vis").getD "pub") (g.value? "output"))]

/-- The word that asks for help. -/
def helpWord : String := "help"

/-- The greatest verbosity. -/
def maxVerbosity : Nat := 255

/-- What a command's words say, after `before` times the option for verbosity. Counts behind the
    command's name take the place of those before it. -/
def ofGiven (task : Given → Task) (before : Nat) (g : Given) : Invocation where
  task := task g
  manifest := (g.value? "manifest").getD ""
  grammar := g.value? "grammar"
  lowering := if g.has "direct" then .direct else .flatten
  color := (g.choice? colors "color").getD .auto
  verbosity := min (if g.has "verbose" then g.count "verbose" else before) maxVerbosity

/-- What the words after the word for help ask for: at most one command. -/
def helpFor : List String → UsageError
  | [] => .helpWanted
  | [word] => if word == helpWord || names commands word then .helpWanted else .unknownCommand
  | _ => .unknownCommand

/-- The words end before a command. -/
def endless (g : Given) : UsageError :=
  if g.values.isEmpty then .nothingGiven else .missingCommand

/-- Reads words up to the name of a command, and then those of the command. -/
def readFrom (g : Given) : List String → Except UsageError Invocation
  | [] => .error (endless g)
  | word :: rest =>
    if word == helpWord then .error (helpFor rest)
    else match List.lookup word commands with
    | some (form, task) => do
      return ofGiven task (g.count "verbose") (← form.read rest)
    | none =>
      if word == "--" then
        match rest with
        | [] => .error (endless g)
        | next :: _ =>
          .error (if next == helpWord || names commands next then .unknownArgument
            else .unknownCommand)
      else if word.startsWith "-" && word != "-" then do
        readFrom (← g.takeWord ⟨globalOptions, []⟩ word) rest
      else .error .unknownCommand

/-- Reads the words of an invocation. -/
def parse (words : List String) : Except UsageError Invocation := readFrom ⟨[], none, []⟩ words

end Invocation

end FluentGrammar.CommandLine
