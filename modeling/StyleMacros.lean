import StyleMacros.Catalog
import StyleMacros.Code.Layout
import StyleMacros.Command.Action
import StyleMacros.Command.Host
import StyleMacros.Command.Line
import StyleMacros.Command.Run
import StyleMacros.Command.Sources
import StyleMacros.Declaration
import StyleMacros.Diagnostic
import StyleMacros.Expansion.Component
import StyleMacros.Expansion.Environment
import StyleMacros.Expansion.File
import StyleMacros.Expansion.Fragment
import StyleMacros.Expansion.Invocation
import StyleMacros.Expansion.Names
import StyleMacros.Expansion.Slot
import StyleMacros.Expansion.Style
import StyleMacros.Files.Tree
import StyleMacros.Files.Workspace
import StyleMacros.Invocation
import StyleMacros.Main
import StyleMacros.Number.Double
import StyleMacros.Path
import StyleMacros.Plan
import StyleMacros.Rendering.Edit
import StyleMacros.Rendering.File
import StyleMacros.Rendering.Line
import StyleMacros.Report.Encoding
import StyleMacros.Report.Ink
import StyleMacros.Report.Json
import StyleMacros.Report.LineDiff
import StyleMacros.Report.Listing
import StyleMacros.Report.Notice
import StyleMacros.Settings
import StyleMacros.Settings.Document
import StyleMacros.Source.Annotated
import StyleMacros.Source.Attribute
import StyleMacros.Source.Escape
import StyleMacros.Source.Expression
import StyleMacros.Source.Header
import StyleMacros.Source.Region
import StyleMacros.Source.Sequence
import StyleMacros.Source.Site
import StyleMacros.Source.Tree
import StyleMacros.Source.Trivia
import StyleMacros.Span
import StyleMacros.Targets
import StyleMacros.Text.Basic
import StyleMacros.Text.Blank
import StyleMacros.Text.CaseRuns
import StyleMacros.Text.HiddenRanges
import StyleMacros.Text.Identifier
import StyleMacros.Text.IdentifierRanges
import StyleMacros.Text.LetterCase
import StyleMacros.Text.Quoted
import StyleMacros.Usage
import StyleMacros.Yaml.BlockScalar
import StyleMacros.Yaml.Cursor
import StyleMacros.Yaml.Node
import StyleMacros.Yaml.PlainScalar
import StyleMacros.Yaml.QuotedScalar
import StyleMacros.Yaml.Scalar
import StyleMacros.Yaml.Tag
import StyleMacros.Yaml.Token
import StyleMacros.Yaml.Value
import StyleMacros.Proofs.Text.Offsets
import StyleMacros.Proofs.Expansion.Placement
import StyleMacros.Proofs.Rendering.Anchor
import StyleMacros.Proofs.Rendering.Deletion
import StyleMacros.Proofs.Rendering.Losses
import StyleMacros.Proofs.Rendering.Slices
import StyleMacros.Proofs.Source.Progress
import StyleMacros.Proofs.Source.Lexemes
import StyleMacros.Proofs.Source.Balance
import StyleMacros.Proofs.Source.Movement
import StyleMacros.Proofs.Source.Inert
import StyleMacros.Proofs.Text.Pieces
import StyleMacros.Proofs.Text.Words
import StyleMacros.Proofs.Source.Printing
import StyleMacros.Proofs.Source.Clauses
import StyleMacros.Proofs.Source.RoundTrip
import StyleMacros.Proofs.Rendering.SinglePass
import StyleMacros.Proofs.Expansion.Generated
import StyleMacros.Proofs.Rendering.Completion
import StyleMacros.Proofs.Source.Attributes
import StyleMacros.Proofs.Text.Outline
import StyleMacros.Proofs.Expansion.Interface
import StyleMacros.Proofs.Expansion.Configuration
import StyleMacros.Proofs.Expansion.ComponentMembers
import StyleMacros.Proofs.Expansion.Agreement
import StyleMacros.Proofs.Files.Growth
import StyleMacros.Proofs.Files.Names
import StyleMacros.Proofs.Files.Components
import StyleMacros.Proofs.Files.Places
import StyleMacros.Proofs.Files.Plans
import StyleMacros.Proofs.Files.Rewriting
import StyleMacros.Proofs.Command.Steps
import StyleMacros.Proofs.Command.Calls
import StyleMacros.Proofs.Command.Freshness
import StyleMacros.Proofs.Command.Idleness
import StyleMacros.Proofs.Source.Layout
import StyleMacros.Proofs.Source.LaidHeaders
import StyleMacros.Proofs.Source.HeaderComments
import StyleMacros.Proofs.Source.Faults
import StyleMacros.Proofs.Expansion.Sessions
import StyleMacros.Proofs.Text.LetterCase
import StyleMacros.Proofs.Expansion.Acceptance
import StyleMacros.Proofs.Expansion.DeclaredNames
import StyleMacros.Proofs.Expansion.DistinctNames
import StyleMacros.Proofs.Expansion.Spelling
import StyleMacros.Proofs.Text.Nesting
import StyleMacros.Proofs.Text.Levels
import StyleMacros.Proofs.Rendering.Reindentation
import StyleMacros.Proofs.Expansion.Outcomes
import StyleMacros.Proofs.Expansion.Nesting
import StyleMacros.Proofs.Source.ArgumentSpans
import StyleMacros.Proofs.Expansion.Diagnostics
import StyleMacros.Proofs.Files.Collisions
import StyleMacros.Proofs.Source.Escapes
import StyleMacros.Proofs.Expansion.Suggestions
import StyleMacros.Proofs.Files.Sorting
import StyleMacros.Proofs.Files.Spellings
import StyleMacros.Proofs.Files.Recognition
import StyleMacros.Proofs.Command.Respelling
import StyleMacros.Proofs.Command.Discovery
