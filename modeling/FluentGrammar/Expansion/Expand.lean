import FluentGrammar.Compile
import FluentGrammar.Expansion.Block
import FluentGrammar.Expansion.Canonical
import FluentGrammar.Expansion.Lexer
import FluentGrammar.Report.Rendering

/-
  Expanding a block of builder code by its grammar: the methods that are actions give a catalog,
  the grammar is compiled over it, and the code of the states is put behind the block, from which
  the attributes of the actions are taken off.
-/

namespace FluentGrammar.Expansion

/-- Why a block is not expanded. -/
inductive ExpansionError where
  | argument (cause : ArgumentError)
  | block (cause : BlockError)
  | missingGrammar
  | genericBuilder
  | traitBlock
  | unnamedBuilder
  | action (cause : ActionError)
  | catalog (cause : Catalog.Error)
  /-- The grammar does not compile. The report shows the diagnostics, if there are any. -/
  | compilation (cause : CompileError) (report : Option String)
  /-- The diagnostics do not fit the grammar. -/
  | brokenReport
  | duplicateOperation (cause : DuplicateOperation)
  /-- Names that were given make code that cannot be read. -/
  | unreadableCode

/-- The words of an expansion error. -/
def ExpansionError.message : ExpansionError → String
  | argument cause => cause.message
  | block cause => cause.message
  | missingGrammar => "missing `grammar = \"...\"` argument"
  | genericBuilder => "generic builder types are not supported"
  | traitBlock => "expected an inherent impl block"
  | unnamedBuilder => "cannot derive a state name, pass `name = \"...\"`"
  | action cause => cause.message
  | catalog cause => cause.message
  | compilation cause report =>
    cause.message ++ (match report with
      | some text => "\n" ++ text
      | none => "")
  | brokenReport => "diagnostics lie outside the grammar"
  | duplicateOperation cause => cause.message
  | unreadableCode => "generated code does not parse: cannot parse string into token stream"

/-- The arguments of an expansion. -/
def expansionArguments : ArgumentNames := ⟨"syntax", ["name", "grammar", "vis"], []⟩

/-- What is put behind the name of a builder type to name its entry state. -/
def stateSuffix : String := "Syntax"

/-- Takes the attributes of actions off methods, and gives the actions. -/
def takeActions : List Item → Except ActionError (List Item × List Catalog.Action)
  | [] => .ok ([], [])
  | .other trees :: rest => do
    let (items, actions) ← takeActions rest
    return (.other trees :: items, actions)
  | .method m :: rest => do
    let (m, action) ← m.takeAction
    let (items, actions) ← takeActions rest
    return (.method m :: items, action.toList ++ actions)

/-- The failure of a compilation with its report. -/
def failedCompilation (grammar : String) (e : CompileError) : ExpansionError :=
  match e.diagnostics? with
  | none => .compilation e none
  | some ds =>
    match Diagnostic.allRendered? grammar none false ds with
    | some report => .compilation e (some report)
    | none => .brokenReport

/-- The code of the states of a grammar over some actions. -/
def statesCode (actions : List Catalog.Action) (grammar name builder : String)
    (visibility : Option String) : Except ExpansionError (List TokenTree) := do
  let catalog ← (Catalog.ofActions actions).mapError .catalog
  let compiled ←
    (compile grammar catalog { states := { baseName := name, prune := true } }).mapError
      (failedCompilation grammar)
  let options : CodeOptions :=
    { builder, visibility := visibility.getD "pub", header := false }
  let code ← (generateCode compiled.states options).mapError .duplicateOperation
  match lex? code with
  | some trees => return trees
  | none => throw .unreadableCode

/-- Expands the block of some trees by the arguments of others. -/
def expand (arguments trees : List TokenTree) : Except ExpansionError (List TokenTree) := do
  let given ← (expansionArguments.read arguments).mapError .argument
  let block ← (Block.ofTrees trees).mapError .block
  let grammar ← match lastValue? given "grammar" with
    | some grammar => pure grammar
    | none => throw .missingGrammar
  if !block.generics.isEmpty then throw .genericBuilder
  if block.isForTrait then throw .traitBlock
  let name ← match lastValue? given "name", pathName? block.builder with
    | some name, _ => pure name
    | none, some name => pure (name ++ stateSuffix)
    | none, none => throw .unnamedBuilder
  let (items, actions) ← (takeActions block.items).mapError .action
  let states ← statesCode actions grammar name
    (TokenTree.code (TokenTree.canonical block.builder))
    (lastValue? given "vis")
  return TokenTree.canonical { block with items }.toTrees ++ states

end FluentGrammar.Expansion
