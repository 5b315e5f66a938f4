import ApiSurface.CommandLine
import ApiSurface.Console
import ApiSurface.Datum.Access
import ApiSurface.Datum.Basic
import ApiSurface.Datum.Flow
import ApiSurface.Datum.Key
import ApiSurface.Datum.Label
import ApiSurface.Datum.Printer
import ApiSurface.Datum.Reader
import ApiSurface.Datum.Writer
import ApiSurface.Decimal.Binary
import ApiSurface.Decimal.Shortest
import ApiSurface.Emit.ImportType
import ApiSurface.Emit.Statement
import ApiSurface.Emit.Stub
import ApiSurface.Emit.Trail
import ApiSurface.Extraction
import ApiSurface.Fault
import ApiSurface.Files
import ApiSurface.Main
import ApiSurface.Message
import ApiSurface.Outcome
import ApiSurface.Overlay.Basic
import ApiSurface.Overlay.Edit
import ApiSurface.Overlay.Foreign
import ApiSurface.Overlay.Render
import ApiSurface.Overlay.Span
import ApiSurface.Package.Graph
import ApiSurface.Package.Import
import ApiSurface.Package.Load
import ApiSurface.Program
import ApiSurface.Release.Tag
import ApiSurface.Report
import ApiSurface.Rollup
import ApiSurface.Settings
import ApiSurface.Surface.Analysis
import ApiSurface.Surface.Basic
import ApiSurface.Surface.Declaration
import ApiSurface.Surface.Entity
import ApiSurface.Surface.Grouping
import ApiSurface.Surface.Metadata
import ApiSurface.Surface.Naming
import ApiSurface.Surface.Reach
import ApiSurface.Surface.Table
import ApiSurface.Surface.Validation
import ApiSurface.Text.Basic
import ApiSurface.Text.Blank
import ApiSurface.Text.Digit
import ApiSurface.Text.Fold
import ApiSurface.Text.Lower
import ApiSurface.Text.Newline
import ApiSurface.Text.Printable
import ApiSurface.Text.Quoted
import ApiSurface.Text.Ranges
import ApiSurface.Text.WordChar
import ApiSurface.Tree.Description
import ApiSurface.Tree.Kind
import ApiSurface.Tree.Node
import ApiSurface.Tree.Sketch
import ApiSurface.Tree.Sources
import ApiSurface.Trim
import ApiSurface.Proofs.Success
import ApiSurface.Proofs.Surface.Forest
import ApiSurface.Proofs.Surface.Items
import ApiSurface.Proofs.Surface.Analysis
import ApiSurface.Proofs.Surface.Metadata
import ApiSurface.Proofs.Trim.Policy
import ApiSurface.Proofs.Trim.Plan
import ApiSurface.Proofs.Trim.Least
import ApiSurface.Proofs.Surface.Validation
import ApiSurface.Proofs.Surface.Discovery
import ApiSurface.Proofs.Surface.Naming
import ApiSurface.Proofs.Surface.Names
import ApiSurface.Proofs.Surface.Roots
import ApiSurface.Proofs.Surface.Reachable
import ApiSurface.Proofs.Trim.Agreement
import ApiSurface.Proofs.Trim.References
import ApiSurface.Proofs.Overlay.Placement
import ApiSurface.Proofs.Overlay.Division
import ApiSurface.Proofs.Overlay.RoundTrip
import ApiSurface.Proofs.Overlay.Drawing
import ApiSurface.Proofs.Overlay.Writable
import ApiSurface.Proofs.Overlay.Arrangement
import ApiSurface.Proofs.Overlay.Sorting
import ApiSurface.Proofs.Overlay.Skipping
import ApiSurface.Proofs.Overlay.Strokes
import ApiSurface.Proofs.Emit.Way
import ApiSurface.Proofs.Emit.Arguments
import ApiSurface.Proofs.Emit.Nested
import ApiSurface.Proofs.Rollup.Walk
import ApiSurface.Proofs.Rollup.Effects
import ApiSurface.Proofs.Rollup.Shown
import ApiSurface.Proofs.Rollup.Document
import ApiSurface.Proofs.Report.Lines
import ApiSurface.Proofs.Report.Members
import ApiSurface.Proofs.Report.Messages
import ApiSurface.Proofs.Emit.Printed
import ApiSurface.Proofs.Rollup.Identifiers
import ApiSurface.Proofs.Rollup.DeclaredNames
import ApiSurface.Proofs.Tree.Building
import ApiSurface.Proofs.Tree.Sources
import ApiSurface.Proofs.Surface.SortKeys
import ApiSurface.Proofs.Surface.ExportOrder
import ApiSurface.Proofs.Extraction.Files
import ApiSurface.Proofs.Extraction.Steps
import ApiSurface.Proofs.Surface.Recording
import ApiSurface.Proofs.Surface.Plain
import ApiSurface.Proofs.Extraction.Completion
import ApiSurface.Proofs.Extraction.Isolation
import ApiSurface.Proofs.Extraction.Review
import ApiSurface.Proofs.Extraction.Convergence
import ApiSurface.Proofs.Overlay.Locality
import ApiSurface.Proofs.Surface.Inheritance
import ApiSurface.Proofs.Rollup.Origins
import ApiSurface.Proofs.Rollup.Modifiers
import ApiSurface.Proofs.Emit.Pages
import ApiSurface.Proofs.Rollup.Unbinding
import ApiSurface.Proofs.Rollup.ImportTypes
import ApiSurface.Proofs.Surface.Attachment
import ApiSurface.Proofs.Surface.Identity
import ApiSurface.Proofs.Surface.Forgotten
import ApiSurface.Proofs.Surface.Routing
import ApiSurface.Proofs.Emit.Lookups
import ApiSurface.Proofs.Rollup.Lookups
import ApiSurface.Proofs.Report.Lookups
import ApiSurface.Proofs.Text.Words
import ApiSurface.Proofs.Text.Notes
import ApiSurface.Proofs.Text.Locations
import ApiSurface.Proofs.Text.Newlines
import ApiSurface.Proofs.Overlay.Annotated
import ApiSurface.Proofs.Rollup.Comments
import ApiSurface.Proofs.Settings.Precedence
import ApiSurface.Proofs.Surface.Filing
import ApiSurface.Proofs.Surface.ValidNames
import ApiSurface.Proofs.Surface.Arena
import ApiSurface.Proofs.Package.Loading
