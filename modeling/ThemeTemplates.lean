import ThemeTemplates.Argument.Iteration
import ThemeTemplates.Argument.PartialCall
import ThemeTemplates.Argument.Sigil
import ThemeTemplates.Command
import ThemeTemplates.Data.Basic
import ThemeTemplates.Data.Fields
import ThemeTemplates.Data.Printer
import ThemeTemplates.Data.Reader
import ThemeTemplates.Decimal.Notation
import ThemeTemplates.Decimal.Reader
import ThemeTemplates.Decimal.Shortest
import ThemeTemplates.Directive.Basic
import ThemeTemplates.Directive.Builtin
import ThemeTemplates.Directive.Emitted
import ThemeTemplates.Directive.Error
import ThemeTemplates.Directive.Function
import ThemeTemplates.Engine
import ThemeTemplates.Failure.Basic
import ThemeTemplates.Failure.Complaint
import ThemeTemplates.Failure.Fault
import ThemeTemplates.Files.Loader
import ThemeTemplates.Files.Path
import ThemeTemplates.Files.Tree
import ThemeTemplates.Fixture.Basic
import ThemeTemplates.Fixture.Host
import ThemeTemplates.Host.Action
import ThemeTemplates.Host.Basic
import ThemeTemplates.Library.Basic
import ThemeTemplates.Library.Loader
import ThemeTemplates.Loop.Kind
import ThemeTemplates.Loop.Metadata
import ThemeTemplates.Loop.Stack
import ThemeTemplates.Main
import ThemeTemplates.Name
import ThemeTemplates.Page.Comparison
import ThemeTemplates.Page.Evaluation
import ThemeTemplates.Page.Literal
import ThemeTemplates.Page.Number
import ThemeTemplates.Page.Parser
import ThemeTemplates.Page.Piece
import ThemeTemplates.Page.Printer
import ThemeTemplates.Page.Scope
import ThemeTemplates.Page.Token
import ThemeTemplates.Page.Tree
import ThemeTemplates.Page.Value
import ThemeTemplates.Proofs.Data.Fields
import ThemeTemplates.Proofs.Data.RoundTrip
import ThemeTemplates.Proofs.Failure.Calm
import ThemeTemplates.Proofs.Page.Avoidance
import ThemeTemplates.Proofs.Page.Contract
import ThemeTemplates.Proofs.Page.Isolation
import ThemeTemplates.Proofs.Page.Lexing
import ThemeTemplates.Proofs.Page.Numerals
import ThemeTemplates.Proofs.Page.Tidy
import ThemeTemplates.Proofs.Render.Calls
import ThemeTemplates.Proofs.Render.Child
import ThemeTemplates.Proofs.Render.CurrentItem
import ThemeTemplates.Proofs.Render.Discipline
import ThemeTemplates.Proofs.Render.Steady
import ThemeTemplates.Proofs.Text.Balance
import ThemeTemplates.Proofs.Text.Parts
import ThemeTemplates.Render.Basic
import ThemeTemplates.Render.Function
import ThemeTemplates.Render.Session
import ThemeTemplates.Settings.Basic
import ThemeTemplates.Settings.Environment
import ThemeTemplates.Settings.Toml
import ThemeTemplates.Source.Expansion
import ThemeTemplates.Source.Segment
import ThemeTemplates.Text.Blank
import ThemeTemplates.Text.Escape
import ThemeTemplates.Text.Nesting
import ThemeTemplates.Text.Quotation
import ThemeTemplates.Text.Upper
import ThemeTemplates.Text.Visible
import ThemeTemplates.View
import ThemeTemplates.Proofs.Directive.Roles
import ThemeTemplates.Proofs.Render.Pairing
import ThemeTemplates.Proofs.Page.Extent
import ThemeTemplates.Proofs.Directive.Seal
import ThemeTemplates.Proofs.Source.Layout
import ThemeTemplates.Proofs.Page.Placement
import ThemeTemplates.Proofs.Page.Relabelling
import ThemeTemplates.Proofs.Page.Bodies
import ThemeTemplates.Proofs.Page.Shift
import ThemeTemplates.Proofs.Render.Root
import ThemeTemplates.Proofs.Source.Junction
import ThemeTemplates.Proofs.Source.Acceptance
import ThemeTemplates.Proofs.Directive.LineBreaks
import ThemeTemplates.Proofs.Source.Pieces
import ThemeTemplates.Proofs.Source.Lines
import ThemeTemplates.Proofs.Text.Brackets
import ThemeTemplates.Proofs.Source.Arguments
import ThemeTemplates.Proofs.Render.Law
import ThemeTemplates.Proofs.Render.LoopVariable
import ThemeTemplates.Proofs.Render.Reflection
import ThemeTemplates.Proofs.Render.Obedience
import ThemeTemplates.Proofs.Render.Lawfulness
import ThemeTemplates.Proofs.Render.Agreement
import ThemeTemplates.Proofs.Page.Forward
import ThemeTemplates.Proofs.Script.Basic
import ThemeTemplates.Proofs.Script.Correspondence
import ThemeTemplates.Proofs.Script.Depth
import ThemeTemplates.Proofs.Script.Expansion
import ThemeTemplates.Proofs.Script.Reference
import ThemeTemplates.Proofs.Page.Companion
import ThemeTemplates.Proofs.Page.History
import ThemeTemplates.Proofs.Failure.Travel
import ThemeTemplates.Proofs.Files.Listing
import ThemeTemplates.Proofs.Files.Containment
import ThemeTemplates.Proofs.Render.NotFound
import ThemeTemplates.Proofs.Render.Surfacing
import ThemeTemplates.Proofs.Render.Nesting
import ThemeTemplates.Proofs.Engine.Check
import ThemeTemplates.Proofs.Engine.Transparency
import ThemeTemplates.Proofs.Loop.Changes
import ThemeTemplates.Proofs.Loop.Checkpoint
import ThemeTemplates.Proofs.Engine.Pagination
import ThemeTemplates.Proofs.Text.Division
import ThemeTemplates.Proofs.Page.Arity
import ThemeTemplates.Proofs.Directive.Arity
import ThemeTemplates.Proofs.Data.Crossing
import ThemeTemplates.Proofs.Data.Alike
import ThemeTemplates.Proofs.Render.Inheritance
import ThemeTemplates.Proofs.Loop.Frames
import ThemeTemplates.Proofs.Loop.Chain
import ThemeTemplates.Proofs.Loop.Closing
import ThemeTemplates.Proofs.Loop.Turns
import ThemeTemplates.Proofs.Render.Items
import ThemeTemplates.Proofs.Text.Settled
import ThemeTemplates.Proofs.Argument.Keyword
import ThemeTemplates.Proofs.Argument.Iteration
import ThemeTemplates.Proofs.Argument.Octets
import ThemeTemplates.Proofs.Argument.Bare
import ThemeTemplates.Proofs.Argument.Literal
import ThemeTemplates.Proofs.Page.Sites
import ThemeTemplates.Proofs.Render.Precedence
import ThemeTemplates.Proofs.Render.LoopItems
import ThemeTemplates.Proofs.Text.Unwrapping
import ThemeTemplates.Proofs.Text.Sigils
import ThemeTemplates.Proofs.Text.Separation
import ThemeTemplates.Proofs.Files.Slugs
import ThemeTemplates.Proofs.Files.Correspondence
import ThemeTemplates.Proofs.Offset.Cut
import ThemeTemplates.Proofs.Offset.Brackets
import ThemeTemplates.Proofs.Offset.Iteration
import ThemeTemplates.Proofs.Offset.Tags
import ThemeTemplates.Proofs.Offset.Scan
import ThemeTemplates.Proofs.Offset.Expansion
