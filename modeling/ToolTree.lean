import ToolTree.Cli.Program
import ToolTree.Cli.Request
import ToolTree.CommandLine.Grammar
import ToolTree.CommandLine.Help
import ToolTree.CommandLine.Matching
import ToolTree.CommandLine.Setting
import ToolTree.CommandLine.Usage
import ToolTree.Decl.Arity
import ToolTree.Decl.Basic
import ToolTree.Decl.Codec
import ToolTree.Decl.FlagKind
import ToolTree.Decl.Problem
import ToolTree.Decl.Reading
import ToolTree.Decl.Schema
import ToolTree.Decl.Site
import ToolTree.Decl.UseLine
import ToolTree.Docs.Markdown
import ToolTree.Docs.Reference
import ToolTree.Docs.Template
import ToolTree.Event
import ToolTree.Exit
import ToolTree.Files.FileTree
import ToolTree.Files.Path
import ToolTree.Files.Storage
import ToolTree.Keyed
import ToolTree.Main
import ToolTree.Proofs.Access
import ToolTree.Proofs.Alike
import ToolTree.Proofs.Arguments
import ToolTree.Proofs.BlankRuns
import ToolTree.Proofs.BlockLines
import ToolTree.Proofs.Building
import ToolTree.Proofs.CodeLines
import ToolTree.Proofs.Collecting
import ToolTree.Proofs.Confining
import ToolTree.Proofs.Defaults
import ToolTree.Proofs.Delivering
import ToolTree.Proofs.Descent
import ToolTree.Proofs.Documenting
import ToolTree.Proofs.Embedding
import ToolTree.Proofs.EmptyTexts
import ToolTree.Proofs.Entries
import ToolTree.Proofs.EntryTexts
import ToolTree.Proofs.Failing
import ToolTree.Proofs.Faults
import ToolTree.Proofs.Following
import ToolTree.Proofs.FunctionNames
import ToolTree.Proofs.Generating
import ToolTree.Proofs.Grounding
import ToolTree.Proofs.Guarding
import ToolTree.Proofs.KeyOrder
import ToolTree.Proofs.Layouts
import ToolTree.Proofs.Lexemes
import ToolTree.Proofs.Lineage
import ToolTree.Proofs.Literals
import ToolTree.Proofs.LocalNames
import ToolTree.Proofs.Making
import ToolTree.Proofs.OctetOrder
import ToolTree.Proofs.Outputs
import ToolTree.Proofs.PathNames
import ToolTree.Proofs.Placement
import ToolTree.Proofs.PlainWords
import ToolTree.Proofs.Presentation
import ToolTree.Proofs.Pruning
import ToolTree.Proofs.Reading
import ToolTree.Proofs.Registering
import ToolTree.Proofs.Rekeying
import ToolTree.Proofs.Repetitions
import ToolTree.Proofs.Requests
import ToolTree.Proofs.RoundTrip
import ToolTree.Proofs.Scalars
import ToolTree.Proofs.Scoping
import ToolTree.Proofs.Sequencing
import ToolTree.Proofs.Shape
import ToolTree.Proofs.SolidLines
import ToolTree.Proofs.Sparing
import ToolTree.Proofs.Standing
import ToolTree.Proofs.Starting
import ToolTree.Proofs.StrayWords
import ToolTree.Proofs.StubSafety
import ToolTree.Proofs.StubTexts
import ToolTree.Proofs.TableRows
import ToolTree.Proofs.UseLines
import ToolTree.Proofs.VisibleFlags
import ToolTree.Proofs.Walking
import ToolTree.Proofs.WellFormed
import ToolTree.Proofs.WordCounts
import ToolTree.Proofs.Writing
import ToolTree.Source.Entry
import ToolTree.Source.Function
import ToolTree.Source.Identifier
import ToolTree.Source.Stub
import ToolTree.Text.Blank
import ToolTree.Text.Case
import ToolTree.Text.Decimal
import ToolTree.Text.Extending
import ToolTree.Text.Lines
import ToolTree.Text.Octets
import ToolTree.Text.Printable
import ToolTree.Text.Quoted
import ToolTree.Text.Styled
import ToolTree.Text.Visible
import ToolTree.Tree.Build
import ToolTree.Tree.Dispatch
import ToolTree.Tree.Invocation
import ToolTree.Tree.Node
import ToolTree.Tree.Registry
import ToolTree.Tree.Scope
import ToolTree.Value
import ToolTree.Yaml.Lexer
import ToolTree.Yaml.Node
import ToolTree.Yaml.Place
import ToolTree.Yaml.Scalar
import ToolTree.Yaml.Tag
import ToolTree.Yaml.Token
