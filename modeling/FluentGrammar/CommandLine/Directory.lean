import FluentGrammar.CommandLine.Session

/-
  A host in memory: a working directory with files, and a text on the standard input, which can
  be read once. Directories exist as far as file names lead through them. Of what lies above the
  working directory nothing is known but that it consists of directories, that the root has some
  directories of well-known names, and that there is an empty device and one for the standard
  input.
-/

namespace FluentGrammar.CommandLine

/-- A working directory and the standard input. -/
structure Directory where
  /-- Files by the parts of their names. -/
  files : List (List String × ByteArray)
  input : String

namespace Directory

/-- A working directory with files, which are named by paths without `.` and `..`. -/
def ofFiles (files : List (String × ByteArray)) (input : String) : Directory :=
  let part (name : String) := ((name.toList.splitOn '/').map String.ofList).filter (· != "")
  ⟨files.map fun (name, bytes) => (part name, bytes), input⟩

/-- The bytes of a file. -/
def bytes? (d : Directory) (parts : List String) : Option ByteArray := List.lookup parts d.files

/-- The parts lead to a directory. -/
def isDirectory (d : Directory) (parts : List String) : Bool :=
  parts.isEmpty || d.files.any fun (name, _) => parts.isPrefixOf name && name != parts

/-- Where a path leads. -/
inductive Location where
  /-- To a file or directory, or to where there could be one. -/
  | inside (parts : List String)
  /-- To a directory above the working directory. -/
  | above
  /-- To an unknown name in a directory above. -/
  | beside
  deriving Repr, DecidableEq

/-- The most bytes of a name. -/
def longestName : Nat := 255

/-- The most bytes of a path. -/
def longestPath : Nat := 4095

/-- Follows one part of a path, which must start from a directory. -/
def step (d : Directory) : Location → String → Except FileError Location
  | .inside parts, part =>
    if !d.isDirectory parts then
      .error (if (d.bytes? parts).isSome then .notDirectory else .missing)
    else if longestName < part.utf8ByteSize then .error .nameTooLong
    else if part == "" || part == "." then .ok (.inside parts)
    else if part != ".." then .ok (.inside (parts ++ [part]))
    else if parts.isEmpty then .ok .above
    else .ok (.inside parts.dropLast)
  | .above, part =>
    if longestName < part.utf8ByteSize then .error .nameTooLong
    else .ok (if ["", ".", ".."].contains part then .above else .beside)
  | .beside, _ => .error .missing

/-- Directories that every root has. -/
def rootDirectories : List String :=
  ["/bin", "/dev", "/etc", "/home", "/lib", "/proc", "/root", "/sys", "/tmp", "/usr", "/var"]

/-- The file that is empty and takes any text. -/
def emptyDevice : String := "/dev/null"

/-- The file that is the standard input. -/
def inputDevice : String := "/dev/stdin"

/-- Follows a path from the working directory. -/
def locate (d : Directory) (path : String) : Except FileError Location :=
  if path.isEmpty then .error .missing
  else if longestPath < path.utf8ByteSize then .error .nameTooLong
  else if rootDirectories.contains path then .ok .above
  else ((path.toList.splitOn '/').map String.ofList).foldlM d.step
    (if path.startsWith "/" then .above else .inside [])

/-- Reads a file. -/
def readFile (d : Directory) (path : String) : Except FileError String := do
  if path == emptyDevice then return ""
  match ← d.locate path with
  | .above => .error .isDirectory
  | .beside => .error .missing
  | .inside parts =>
    match d.bytes? parts with
    | none => .error (if d.isDirectory parts then .isDirectory else .missing)
    | some bytes =>
      match String.fromUTF8? bytes with
      | some text => .ok text
      | none => .error .notText

/-- Writes a file. A path with a slash at its end names a directory. -/
def writeFile (d : Directory) (path text : String) : Except FileError Directory := do
  if path == emptyDevice then return d
  let asDirectory := path.endsWith "/"
  let named := String.ofList (path.toList.reverse.dropWhile (· == '/')).reverse
  match ← d.locate (if asDirectory && !named.isEmpty then named else path) with
  | .above => .error .isDirectory
  | .beside => if asDirectory then .error .isDirectory else .ok d
  | .inside parts =>
    if asDirectory && (d.bytes? parts).isSome then .error .notDirectory
    else if asDirectory || d.isDirectory parts then .error .isDirectory
    else .ok { d with files := (d.files.filter (·.1 != parts)) ++ [(parts, text.toUTF8)] }

/-- Reads the standard input, which is empty from then on. -/
def takeInput : StateM Directory (Except FileError String) :=
  modifyGet fun d => (.ok d.input, { d with input := "" })

/-- The directory as a host. -/
def host : Host (StateM Directory) where
  readFile path := do
    if path == inputDevice then takeInput else return (← get).readFile path
  readInput := takeInput
  writeFile path text := modifyGet fun d =>
    match d.writeFile path text with
    | .ok d' => (.ok (), d')
    | .error e => (.error e, d)

end Directory

end FluentGrammar.CommandLine
