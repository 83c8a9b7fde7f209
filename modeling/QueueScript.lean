import QueueScript.Text.Basic
import QueueScript.Text.Decimal
import QueueScript.Text.Lines
import QueueScript.Text.Space
import QueueScript.Text.Hidden
import QueueScript.Text.Quoted
import QueueScript.Text.Template
import QueueScript.Letter
import QueueScript.Bound
import QueueScript.Value
import QueueScript.Fault
import QueueScript.Operator
import QueueScript.Token
import QueueScript.Token.Lexer
import QueueScript.Feed
import QueueScript.Span
import QueueScript.Dump
import QueueScript.Report
import QueueScript.Ink
import QueueScript.Double
import QueueScript.Datum
import QueueScript.Document.Fault
import QueueScript.Document.Place
import QueueScript.Document.Quoted
import QueueScript.Document.Plain
import QueueScript.Document.Mark
import QueueScript.Document.Node
import QueueScript.Document.Scalar
import QueueScript.Document.Content
import QueueScript.Settings.Basic
import QueueScript.Settings.Overlay
import QueueScript.Console
import QueueScript.Run
import QueueScript.Batch
import QueueScript.Session
import QueueScript.CommandLine.Options
import QueueScript.CommandLine.Directory
import QueueScript.CommandLine.Basic
import QueueScript.Main
import QueueScript.Proofs.Grammar
import QueueScript.Proofs.Feeds
import QueueScript.Proofs.Printing
import QueueScript.Proofs.Execution
import QueueScript.Proofs.Kinds
import QueueScript.Proofs.ReadingModes
import QueueScript.Proofs.Reading
import QueueScript.Proofs.Schedules
import QueueScript.Proofs.Spans
import QueueScript.Proofs.Concatenation
import QueueScript.Proofs.Sessions
import QueueScript.Proofs.Ensembles
import QueueScript.Proofs.Presentation
import QueueScript.Proofs.Elements
import QueueScript.Proofs.Supply
import QueueScript.Proofs.Locations
import QueueScript.Proofs.Excerpts
import QueueScript.Proofs.Escapes
import QueueScript.Proofs.ExitCodes
import QueueScript.Proofs.Transcripts
import QueueScript.Proofs.Dumps
import QueueScript.Proofs.Failures
import QueueScript.Proofs.FullOutput
import QueueScript.Proofs.Refusals
import QueueScript.Proofs.Splitting
import QueueScript.Proofs.Slices
import QueueScript.Proofs.Rotations
import QueueScript.Proofs.Sweeps
import QueueScript.Proofs.Filters
import QueueScript.Proofs.CaseMaps
import QueueScript.Proofs.UnusableSettings
import QueueScript.Proofs.Overlays
import QueueScript.Proofs.Progress
