import FluentGrammar.CommandLine.Invocation
import FluentGrammar.Compile
import FluentGrammar.Graph.Print
import FluentGrammar.Manifest.Basic
import FluentGrammar.Report.Rendering
import FluentGrammar.States.Print

/-
  Running an invocation. A session reads the manifest and perhaps a grammar, compiles, and ends
  with two texts and an exit code; generated code may go to a file. What lies outside, files and
  the standard input, is reached through a host.
-/

namespace FluentGrammar.CommandLine

/-- Why a file cannot be read or written. -/
inductive FileError where
  | missing
  | notDirectory
  | isDirectory
  | nameTooLong
  /-- The bytes are not UTF-8. -/
  | notText
  | other (text : String)
  deriving Repr, DecidableEq

/-- The words of a file error. -/
def FileError.message : FileError → String
  | missing => "No such file or directory (os error 2)"
  | notDirectory => "Not a directory (os error 20)"
  | isDirectory => "Is a directory (os error 21)"
  | nameTooLong => "File name too long (os error 36)"
  | notText => "stream did not contain valid UTF-8"
  | other text => text

/-- Files and the standard input. -/
structure Host (m : Type → Type) where
  readFile : String → m (Except FileError String)
  /-- Reads the standard input to its end. -/
  readInput : m (Except FileError String)
  writeFile : String → String → m (Except FileError Unit)

/-- How a session ends. -/
structure Outcome where
  exitCode : Nat
  stdout : String
  stderr : String
  deriving Repr, DecidableEq

namespace Outcome

/-- The exit code for failures. -/
def failureCode : Nat := 1

/-- The exit code for words that are no invocation. -/
def usageCode : Nat := 2

/-- A failure with its words. -/
def failure (message : String) : Outcome := ⟨failureCode, "", "error: " ++ message ++ "\n"⟩

/-- The end of a session whose diagnostics do not fit the grammar. -/
def broken : Outcome := ⟨101, "", ""⟩

end Outcome

/-- States that cannot be reached are left out. -/
def Task.prunes : Task → Bool
  | .check _ => false
  | .dump _ prune | .generate prune _ _ => prune

/-- A grammar of blanks is refused before it is compiled. -/
def Task.needsGrammar : Task → Bool
  | .check _ => true
  | .dump .. | .generate .. => false

/-- Why no manifest can be loaded. -/
inductive LoadError where
  | unreadable (path : String) (cause : FileError)
  | invalidManifest (path : String) (cause : Manifest.Error)

/-- The words of a load error. -/
def LoadError.message : LoadError → String
  | unreadable path cause => "failed to read '" ++ path ++ "': " ++ cause.message
  | invalidManifest path cause => "invalid manifest '" ++ path ++ "': " ++ cause.message

/-- A manifest with its catalog. -/
structure Loaded where
  manifest : Manifest
  catalog : Catalog
  /-- Where the grammar comes from. -/
  origin : String

/-- The file name that stands for the standard input. -/
def standardInput : String := "-"

section

variable {m : Type → Type} [Monad m]

/-- Reads a file or the standard input. -/
def readText (h : Host m) (path : String) : ExceptT LoadError m String :=
  let read := if path == standardInput then h.readInput else h.readFile path
  ExceptT.mk do return (← read).mapError (LoadError.unreadable path)

/-- Loads a manifest. The grammar file is read after the manifest and before its actions are
    looked at. -/
def load (h : Host m) (i : Invocation) : ExceptT LoadError m Loaded := do
  let invalid (e : Manifest.Error) : LoadError := .invalidManifest i.manifest e
  let json ← readText h i.manifest
  let manifest ← liftM ((Manifest.parse json).mapError fun f => invalid (.json f))
  let manifest ← match i.grammar with
    | none => pure manifest
    | some path => do
      let grammar ← readText h path
      pure { manifest with grammar }
  let catalog ← liftM (manifest.catalog.mapError fun e => invalid (.catalog e))
  return ⟨manifest, catalog, i.grammar.getD i.manifest⟩

end

namespace Loaded

/-- Diagnostics as they are shown, with a line feed behind them. -/
def shown? (l : Loaded) (colored : Bool) (ds : List Diagnostic) : Option String :=
  if ds.isEmpty then some ""
  else (Diagnostic.allRendered? l.manifest.grammar (some l.origin) colored ds).map (· ++ "\n")

/-- Ends with a failed compilation. -/
def failed (l : Loaded) (colored : Bool) (e : CompileError) : Outcome :=
  match e.diagnostics?.getD [] with
  | [] => .failure e.message
  | ds =>
    match l.shown? colored ds with
    | some stderr => ⟨Outcome.failureCode, "", stderr⟩
    | none => .broken

/-- Compiles the grammar. -/
def compiled (l : Loaded) (lowering : Lowering) (prune : Bool) : Except CompileError Compiled :=
  compile l.manifest.grammar l.catalog
    { states := { baseName := l.manifest.baseName, prune }, lowering }

end Loaded

/-- The text of a stage. -/
def Stage.text (c : Compiled) (p : Palette) : Stage → String
  | .grammar => c.grammar.dump
  | .table => c.table.dump?.getD ""
  | .graph => c.graph.dump p c.grammar.terminals
  | .minimal => c.merged.dump p c.grammar.terminals true
  | .states => StateType.dump p c.states

/-- The words of a failed write. -/
def writeFailure (path : String) (e : FileError) : String :=
  "failed to write '" ++ path ++ "': " ++ e.message

section

variable {m : Type → Type} [Monad m]

/-- Generated code, printed or written to a file. -/
def deliver (h : Host m) (code : String) : Option String → m Outcome
  | none => return ⟨0, code, ""⟩
  | some path => do
    match ← h.writeFile path code with
    | .ok _ => return ⟨0, "", ""⟩
    | .error e => return .failure (writeFailure path e)

/-- Does a task with what was compiled. -/
def runTask (h : Host m) (l : Loaded) (colored : Bool) (c : Compiled) : Task → m Outcome
  | .check strict =>
    let fails := strict && Diagnostic.anyWarning c.diagnostics
    return ⟨if fails then Outcome.failureCode else 0, "", ""⟩
  | .dump stage _ => return ⟨0, stage.text c (.ofBool colored), ""⟩
  | .generate _ visibility output =>
    match generateCode c.states { builder := l.manifest.builder, visibility } with
    | .error e => return .failure e.message
    | .ok code => deliver h code output

/-- Compiles what was loaded, shows the warnings and does a task. -/
def runLoaded (h : Host m) (l : Loaded) (lowering : Lowering) (colored : Bool) (task : Task) :
    m Outcome := do
  if task.needsGrammar && (Text.trim l.manifest.grammar.toList).isEmpty then
    return .failure "grammar cannot be empty"
  match l.compiled lowering task.prunes with
  | .error e => return l.failed colored e
  | .ok c =>
    match l.shown? colored c.diagnostics with
    | none => return .broken
    | some warnings =>
      let outcome ← runTask h l colored c task
      return { outcome with stderr := warnings ++ outcome.stderr }

/-- Runs an invocation. `terminal` tells whether both outputs are terminals. -/
def run (h : Host m) (terminal : Bool) (i : Invocation) : m Outcome := do
  let colored := match i.color with
    | .auto => terminal
    | .always => true
    | .never => false
  match ← (load h i).run with
  | .error e => return .failure e.message
  | .ok loaded => runLoaded h loaded i.lowering colored i.task

end

end FluentGrammar.CommandLine
