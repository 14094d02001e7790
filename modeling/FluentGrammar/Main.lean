import FluentGrammar.CommandLine.Session

/-
  The program: runs an invocation on the files of the system.
-/

namespace FluentGrammar.CommandLine

/-- A system error in words. -/
def fileError : IO.Error → FileError
  | .noFileOrDirectory .. => .missing
  | e => .other (toString e)

/-- An action with its system error as a result. -/
def guarded {α : Type} (action : IO α) : IO (Except FileError α) := do
  try
    return .ok (← action)
  catch e => return .error (fileError e)

/-- The text of bytes. -/
def textOf (bytes : ByteArray) : Except FileError String :=
  match String.fromUTF8? bytes with
  | some text => .ok text
  | none => .error .notText

/-- Files and standard input of the system. -/
def systemHost : Host IO where
  readFile path := do return (← guarded (IO.FS.readBinFile path)).bind textOf
  readInput := do return (← guarded do (← IO.getStdin).readToEnd).bind fun text => .ok text
  writeFile path text := guarded (IO.FS.writeFile path text)

/-- What is printed for words that are no invocation. -/
def usageText : String :=
  "Usage: snout <check|dump|generate> [OPTIONS] <MANIFEST>\n"

/-- The words of a usage error, and the exit code. -/
def usage : UsageError → IO UInt32
  | .helpWanted => do
    (← IO.getStdout).putStr usageText
    return 0
  | _ => do
    (← IO.getStderr).putStr usageText
    return Outcome.usageCode.toUInt32

end FluentGrammar.CommandLine

open FluentGrammar.CommandLine in
/-- Runs the words of the command line. -/
def main (words : List String) : IO UInt32 := do
  match Invocation.parse words with
  | .error e => usage e
  | .ok i =>
    let stdout ← IO.getStdout
    let stderr ← IO.getStderr
    let outcome ← run systemHost ((← stdout.isTty) && (← stderr.isTty)) i
    stdout.putStr outcome.stdout
    stderr.putStr outcome.stderr
    return outcome.exitCode.toUInt32
