import FluentGrammar.Text.Glyph
import FluentGrammar.Text.Lines
import FluentGrammar.Text.Blank
import FluentGrammar.Text.Bytes
import FluentGrammar.Catalog.TypeDescriptor
import FluentGrammar.Catalog.TypeReader
import FluentGrammar.Text.Identifier
import FluentGrammar.Catalog.Action
import FluentGrammar.Catalog.Basic
import FluentGrammar.Manifest.Reading
import FluentGrammar.Manifest.Scalar
import FluentGrammar.Manifest.Basic
import FluentGrammar.Colors
import FluentGrammar.Report.Diagnostic
import FluentGrammar.Source.Lexer
import FluentGrammar.Source.Parser
import FluentGrammar.Repetition
import FluentGrammar.Source.Term
import FluentGrammar.CompileError
import FluentGrammar.Grammar.Basic
import FluentGrammar.Grammar.Direct
import FluentGrammar.Grammar.Flatten
import FluentGrammar.Grammar.Lower
import FluentGrammar.Reach
import FluentGrammar.Rules.Resolve
import FluentGrammar.Automaton.Build
import FluentGrammar.Compile
import FluentGrammar.Graph.Print
import FluentGrammar.States.Print
import FluentGrammar.Report.Canvas
import FluentGrammar.Report.Place
import FluentGrammar.Report.Mark
import FluentGrammar.Report.Snippet
import FluentGrammar.Report.Rendering
import FluentGrammar.CommandLine.Directory
import FluentGrammar.Main
import FluentGrammar.Expansion.Lexer
import FluentGrammar.Expansion.Arguments
import FluentGrammar.Expansion.Attribute
import FluentGrammar.Expansion.Method
import FluentGrammar.Expansion.Block
import FluentGrammar.Expansion.Expand
import FluentGrammar.Proofs.Lowering.Pieces
import FluentGrammar.Proofs.Lowering.LeftRecursion
import FluentGrammar.Proofs.Lowering.Direct
import FluentGrammar.Proofs.Lowering.Flatten
import FluentGrammar.Proofs.Lowering.Lower
import FluentGrammar.Proofs.Automaton.First
import FluentGrammar.Proofs.Automaton.ItemSet
import FluentGrammar.Proofs.Automaton.Closure
import FluentGrammar.Proofs.Automaton.Augmented
import FluentGrammar.Proofs.Automaton.Skeleton
import FluentGrammar.Proofs.Automaton.Lookaheads
import FluentGrammar.Proofs.Automaton.States
import FluentGrammar.Proofs.Automaton.Table
import FluentGrammar.Proofs.Automaton.Paths
import FluentGrammar.Proofs.Automaton.Driver
import FluentGrammar.Proofs.Graph.Walk
import FluentGrammar.Proofs.Graph.Resolve
import FluentGrammar.Proofs.Graph.Settling
import FluentGrammar.Proofs.Automaton.Spelling
import FluentGrammar.Proofs.Compile.Stages
import FluentGrammar.Proofs.Compile.Orderings
import FluentGrammar.Proofs.Automaton.RightLinear
import FluentGrammar.Proofs.Lowering.Additions
import FluentGrammar.Proofs.Compile.Conflicts
import FluentGrammar.Proofs.Source.Frame
import FluentGrammar.Proofs.Source.State
import FluentGrammar.Proofs.Source.Steps
import FluentGrammar.Proofs.Source.Leaves
import FluentGrammar.Proofs.Source.Phrase
import FluentGrammar.Proofs.Source.Soundness
import FluentGrammar.Proofs.Source.Completeness
import FluentGrammar.Proofs.Source.Scripts
import FluentGrammar.Proofs.Source.Placeless
import FluentGrammar.Proofs.Source.Spacing
import FluentGrammar.Proofs.Language.Completion
import FluentGrammar.Proofs.Source.Resolved
import FluentGrammar.Proofs.Compile.Endings
import FluentGrammar.Proofs.Graph.Behaviours
import FluentGrammar.Proofs.Graph.Minimize
import FluentGrammar.Proofs.Graph.Pruning
import FluentGrammar.Proofs.Automaton.Unambiguous
import FluentGrammar.Proofs.Compile.Chains
import FluentGrammar.Proofs.Lowering.TailCalls
import FluentGrammar.Proofs.Compile.Diagnostics
import FluentGrammar.Proofs.Automaton.Visited
import FluentGrammar.Proofs.Automaton.Resolution
import FluentGrammar.Proofs.Lowering.Elimination
import FluentGrammar.Proofs.Lowering.Productive
import FluentGrammar.Proofs.Compile.Reached
import FluentGrammar.Proofs.Source.Comments
import FluentGrammar.Proofs.Source.Equations
import FluentGrammar.Proofs.Source.Mistakes
import FluentGrammar.Proofs.Compile.Failures
import FluentGrammar.Proofs.Compile.MethodNames
import FluentGrammar.Proofs.Compile.GeneratedCode
import FluentGrammar.Proofs.Text.Blank
import FluentGrammar.Proofs.Catalog.Bounds
import FluentGrammar.Proofs.Automaton.Gathering
import FluentGrammar.Proofs.Compile.DefaultNames
import FluentGrammar.Proofs.Catalog.Declarations
import FluentGrammar.Proofs.Automaton.Termination
import FluentGrammar.Proofs.Automaton.Cells
import FluentGrammar.Proofs.Lowering.Unused
