import FluentGrammar.Report.Diagnostic
import FluentGrammar.Source.Lexer
import FluentGrammar.Source.Tree

/-
  Parsing the grammar language:

    root   := rule* | alt
    rule   := name ':' alt ';'
    alt    := branch ('|' branch)*
    branch := atom*
    atom   := (name | '(' alt ')') ('*' | '+' | '?')*

  A source that does not begin with a name and a colon is a single alternation. Malformed input
  never stops the parser: it reports at most one error per place and keeps every token in the
  tree. Only groups that nest deeper than the limit do. The functions recurse on a number of steps,
  and running out of them is a failure of its own, which no source leads to.

  Trivia that has been looked past waits until the next node or token is attached and goes before
  it. Trivia that nobody has looked past goes inside the node that is opened next.
-/

namespace FluentGrammar.Source

open Report

/-- The nesting of groups that is accepted unless told otherwise. -/
def defaultNestingLimit : Nat := 256

/-- Why a source is not parsed. -/
inductive Halt where
  /-- Groups nest deeper than the limit. -/
  | tooDeep
  /-- The steps do not suffice. `parse` takes as many as any source can need. -/
  | outOfSteps
  deriving Repr, DecidableEq

namespace Parsing

/-- Where a parser stands. -/
structure State where
  /-- Trivia looked past and not yet attached. -/
  pending : List Token
  isTrivia_pending : ∀ t ∈ pending, t.kind.isTrivia = true
  /-- Tokens not yet looked at. -/
  rest : List Token
  /-- The end of the last token attached that is not trivia. -/
  lastStop : Option Nat
  /-- The length of the source. -/
  sourceLength : Nat
  /-- The place of the last error, reported or not. -/
  lastError : Option Nat
  diagnostics : List Diagnostic

namespace State

/-- Before the first of the tokens of a source of the given length. -/
def start (tokens : List Token) (sourceLength : Nat) : State where
  pending := []
  isTrivia_pending := by simp
  rest := tokens
  lastStop := none
  sourceLength := sourceLength
  lastError := none
  diagnostics := []

/-- Looks past trivia. -/
def lookAhead (s : State) : State :=
  { s with
    pending := s.pending ++ s.rest.takeWhile (·.kind.isTrivia)
    isTrivia_pending := by
      intro t ht
      rcases List.mem_append.1 ht with ht | ht
      · exact s.isTrivia_pending t ht
      · exact List.all_eq_true.1 List.all_takeWhile t ht
    rest := s.rest.dropWhile (·.kind.isTrivia) }

/-- The class of the next token once trivia is out of the way. -/
def kind? (s : State) : Option TokenKind := s.rest.head?.map (·.kind)

/-- The next token has this class. -/
def isAt (s : State) (kind : TokenKind) : Bool := s.kind? == some kind

/-- The span of the next token, empty at the end of the source. -/
def span (s : State) : Span :=
  match s.rest with
  | t :: _ => t.span
  | [] => .empty s.sourceLength

/-- A name and a colon come next, with nothing but trivia between. -/
def atRuleStart (s : State) : Bool :=
  match s.rest with
  | t :: after =>
    t.kind == .name && (after.find? fun u => !u.kind.isTrivia).any (·.kind == .colon)
  | [] => false

/-- Attaches waiting trivia. -/
def flush (s : State) : List Tree × State :=
  (Tree.ofTokens s.pending, { s with pending := [], isTrivia_pending := by simp })

/-- Attaches waiting trivia and the next token. -/
def bump (s : State) : List Tree × State :=
  match s.rest with
  | t :: after =>
    (Tree.ofTokens (s.pending ++ [t]),
      { s with
        pending := []
        isTrivia_pending := by simp
        rest := after
        lastStop := some t.span.stop })
  | [] => s.flush

/-- Attaches the next token if it has this class. -/
def eat (s : State) (kind : TokenKind) : Option (List Tree × State) :=
  let s := s.lookAhead
  if s.isAt kind then some s.bump else none

/-- Reports an error at `offset`, unless the last error was there too. -/
def report (s : State) (offset : Nat) (d : Diagnostic) : State :=
  { s with
    lastError := some offset
    diagnostics := if s.lastError == some offset then s.diagnostics else s.diagnostics ++ [d] }

/-- Reports an error at the next token. -/
def errorHere (s : State) (d : Span → Diagnostic) : State := s.report s.span.start (d s.span)

/-- Reports a token missing right after the last one. -/
def missing (s : State) (kind : Kind) (started : Span) : State :=
  let offset := s.lastStop.getD s.span.start
  s.report offset ((Diagnostic.of kind (.empty offset)).relatedTo "started here" started)

/-- Reports a delimiter opened at `opened` and not closed before the next token. -/
def unclosed (s : State) (kind : Kind) (opened : Span) : State :=
  s.report s.span.start
    ((Diagnostic.of kind (opened.cover s.span)).relatedTo "opened here" opened)

/-- Puts the next token into an error node. -/
def bumpError (s : State) : List Tree × State :=
  let (before, s) := s.flush
  let (inside, s) := s.bump
  (before ++ [.node .error inside], s)

/-- Puts the next token into a reference. -/
def bumpRef (s : State) : List Tree × State :=
  let (name, s) := s.bump
  ([.node .ref name], s)

end State

/-- Trees for the node that is open, and where the parser stands after them. -/
abbrev Result := Except Halt (List Tree × State)

/-- Marks of repetition after an atom, each of which takes the atom so far into a node. -/
def quantifiers (atom : List Tree) : Nat → State → Result
  | 0, _ => .error .outOfSteps
  | steps + 1, s =>
    let s := s.lookAhead
    if s.kind?.any (·.isQuantifier) then
      let (mark, s) := s.bump
      quantifiers [.node .quantifier (atom ++ mark)] steps s
    else .ok (atom, s)

mutual

/-- An alternation. `room` is how much deeper groups may nest. -/
def alt (room : Nat) : Nat → State → Result
  | 0, _ => .error .outOfSteps
  | steps + 1, s => do
    let (before, s) := s.flush
    let (first, s) ← branch room steps s
    let (others, s) ← branches room steps s
    return (before ++ [.node .alt (first ++ others)], s)

/-- The further branches of an alternation, each after a bar. -/
def branches (room : Nat) : Nat → State → Result
  | 0, _ => .error .outOfSteps
  | steps + 1, s =>
    match s.eat .pipe with
    | none => .ok ([], s.lookAhead)
    | some (bar, s) => do
      let (next, s) ← branch room steps s
      let (others, s) ← branches room steps s
      return (bar ++ next ++ others, s)

/-- A branch. -/
def branch (room : Nat) : Nat → State → Result
  | 0, _ => .error .outOfSteps
  | steps + 1, s => do
    let (before, s) := s.flush
    let (inside, s) ← items room steps s
    return (before ++ [.node .branch inside], s)

/-- What is left of a branch: atoms, and tokens that fit nowhere. -/
def items (room : Nat) : Nat → State → Result
  | 0, _ => .error .outOfSteps
  | steps + 1, s =>
    let s := s.lookAhead
    match s.kind? with
    | none => .ok ([], s)
    | some kind =>
      if kind.endsBranch || s.atRuleStart then .ok ([], s)
      else if kind.startsAtom then do
        let (first, s) ← atom room steps s
        let (others, s) ← items room steps s
        return (first ++ others, s)
      else do
        let s := s.errorHere fun span =>
          if kind.isQuantifier then
            .about .expectedExpression span "quantifier has nothing to repeat"
          else .of .unexpectedToken span
        let (first, s) := s.bumpError
        let (others, s) ← items room steps s
        return (first ++ others, s)

/-- An atom with its marks of repetition. -/
def atom (room : Nat) : Nat → State → Result
  | 0, _ => .error .outOfSteps
  | steps + 1, s => do
    let (before, s) := s.flush
    let (inner, s) ← (if s.isAt .parenOpen then group room steps s else .ok s.bumpRef)
    let (whole, s) ← quantifiers inner steps s
    return (before ++ whole, s)

/-- A group. -/
def group (room : Nat) : Nat → State → Result
  | 0, _ => .error .outOfSteps
  | steps + 1, s =>
    match room with
    | 0 => .error .tooDeep
    | room + 1 => do
      let opened := s.span
      let (paren, s) := s.bump
      let (body, s) ← alt room steps s
      match s.eat .parenClose with
      | some (close, s) => return ([.node .group (paren ++ body ++ close)], s)
      | none =>
        let s := s.lookAhead.unclosed .unclosedGroup opened
        return ([.node .group (paren ++ body)], s)

end

/-- A rule, at whose name the parser stands. -/
def rule (room steps : Nat) (s : State) : Result := do
  let (before, s) := s.flush
  let started := s.span
  let (name, s) := s.bump
  let (colon, s) := (s.eat .colon).getD ([], s.lookAhead)
  let (body, s) ← alt room steps s
  match s.eat .semicolon with
  | some (semicolon, s) => return (before ++ [.node .rule (name ++ colon ++ body ++ semicolon)], s)
  | none =>
    let s := s.lookAhead.missing .expectedSemicolon started
    return (before ++ [.node .rule (name ++ colon ++ body)], s)

/-- Tokens up to the next rule. -/
def untilRule : Nat → State → Result
  | 0, _ => .error .outOfSteps
  | steps + 1, s =>
    let s := s.lookAhead
    if s.rest.isEmpty || s.atRuleStart then .ok ([], s)
    else do
      let (first, s) := s.bump
      let (others, s) ← untilRule steps s
      return (first ++ others, s)

/-- Rules up to the end of the source. What stands between them goes into error nodes. `bound` is
    how many steps each of them may take. -/
def rules (limit bound : Nat) : Nat → State → Result
  | 0, _ => .error .outOfSteps
  | steps + 1, s =>
    let s := s.lookAhead
    if s.rest.isEmpty then .ok ([], s)
    else if s.atRuleStart then do
      let (first, s) ← rule limit bound s
      let (others, s) ← rules limit bound steps s
      return (first ++ others, s)
    else do
      let kind := if s.isAt .name then Kind.expectedColon else Kind.expectedRuleName
      let s := s.errorHere (.of kind)
      let (before, s) := s.flush
      let (inside, s) ← untilRule bound s
      let (others, s) ← rules limit bound steps s
      return (before ++ [.node .error inside] ++ others, s)

/-- Tokens after a single alternation, each an error. -/
def leftover : Nat → State → Result
  | 0, _ => .error .outOfSteps
  | steps + 1, s =>
    let s := s.lookAhead
    if s.rest.isEmpty then .ok ([], s)
    else do
      let (first, s) := (s.errorHere (.of .unexpectedToken)).bumpError
      let (others, s) ← leftover steps s
      return (first ++ others, s)

/-- Everything that a source holds. -/
def contents (limit bound : Nat) (s : State) : Result :=
  let s := s.lookAhead
  if s.atRuleStart then rules limit bound bound s
  else if s.rest.isEmpty then .ok ([], s)
  else do
    let (body, s) ← alt limit bound s
    let (others, s) ← leftover bound s
    return (body ++ others, s)

/-- The steps that suffice for a number of tokens. A token is looked at in at most six functions
    before it is attached. -/
def stepsFor (count : Nat) : Nat := 6 * count + 6

end Parsing

open Parsing in
/-- Parses a source. The tree holds all of its tokens, whatever the diagnostics say. -/
def parse (source : String) (limit : Nat) : Except Halt (Tree × List Diagnostic) := do
  let tokens := lex source
  let start := State.start tokens (Text.byteLength source.toList)
  let (body, s) ← contents limit (stepsFor tokens.length) start
  let (trailing, s) := s.lookAhead.flush
  return (.node .root (body ++ trailing), s.diagnostics)

end FluentGrammar.Source
