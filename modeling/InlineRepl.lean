import InlineRepl.Connector
import InlineRepl.Host.Run
import InlineRepl.Image.Payload
import InlineRepl.Settings.Store
import InlineRepl.Control.Bridge
import InlineRepl.Wire.Framing
import InlineRepl.Invocation.Reading
import InlineRepl.Report.Envelope
import InlineRepl.Report.Basic
import InlineRepl.Terminal
import InlineRepl.Command.Loading
import InlineRepl.Command.Run
import InlineRepl.Rehearsal.Interpreter
import InlineRepl.Main
import InlineRepl.Proofs.Control.Lanes
import InlineRepl.Proofs.Host.Attempt
import InlineRepl.Proofs.Session.Index
import InlineRepl.Proofs.Host.Coherence
import InlineRepl.Proofs.Host.Agreement
import InlineRepl.Proofs.Text.Shown
import InlineRepl.Proofs.Text.Utf8
import InlineRepl.Proofs.Process.Supervision
import InlineRepl.Proofs.Host.Frame
import InlineRepl.Proofs.Host.Hearing
import InlineRepl.Proofs.Control.Exchange
import InlineRepl.Proofs.Control.Delivery
import InlineRepl.Proofs.Json.Numeral
import InlineRepl.Proofs.Json.Quoted
import InlineRepl.Proofs.Json.Reading
import InlineRepl.Proofs.Json.Record
import InlineRepl.Proofs.Document.Woven
import InlineRepl.Proofs.Wire.Reply
import InlineRepl.Proofs.Host.Relocation
import InlineRepl.Proofs.Text.Encoded
import InlineRepl.Proofs.Text.Lines
import InlineRepl.Proofs.Json.Compact
import InlineRepl.Proofs.Wire.Records
import InlineRepl.Proofs.Wire.Framing
import InlineRepl.Proofs.Control.Responses
import InlineRepl.Proofs.Host.Working
import InlineRepl.Proofs.Host.Closed
import InlineRepl.Proofs.Text.Chunking
import InlineRepl.Proofs.Host.Life
import InlineRepl.Proofs.Host.Outcome
import InlineRepl.Proofs.Host.Submission
import InlineRepl.Proofs.Host.Moves
import InlineRepl.Proofs.Process.Custody
import InlineRepl.Proofs.Host.Orphans
import InlineRepl.Proofs.Session.Course
import InlineRepl.Proofs.Text.Decoded
import InlineRepl.Proofs.Wire.Reader
import InlineRepl.Proofs.Json.Literal
import InlineRepl.Proofs.Document.Wrapping
import InlineRepl.Proofs.Text.Joined
import InlineRepl.Proofs.Document.Watches
import InlineRepl.Proofs.Document.Placed
import InlineRepl.Proofs.Image.Base64
import InlineRepl.Proofs.Image.Payload
import InlineRepl.Proofs.Json.Grammar
import InlineRepl.Proofs.Json.Parsed
import InlineRepl.Proofs.Json.Range
import InlineRepl.Proofs.Json.Extension
import InlineRepl.Proofs.Wire.Extension
import InlineRepl.Proofs.Wire.Alone
import InlineRepl.Proofs.Host.Standing
import InlineRepl.Proofs.Host.Apart
import InlineRepl.Proofs.Control.Current
import InlineRepl.Proofs.Document.Issued
import InlineRepl.Proofs.Board.History
import InlineRepl.Proofs.Host.Convergence
import InlineRepl.Proofs.Process.Trace
import InlineRepl.Proofs.Lookup.Parent
import InlineRepl.Proofs.Lookup.ProjectRoot
import InlineRepl.Proofs.Session.Thinning
import InlineRepl.Proofs.Host.Thinning
import InlineRepl.Proofs.Lookup.Probe
import InlineRepl.Proofs.Host.Setup
import InlineRepl.Proofs.Host.Guards
import InlineRepl.Proofs.Host.Reuse
import InlineRepl.Proofs.Host.Configured
import InlineRepl.Proofs.Json.Pretty
import InlineRepl.Proofs.Tree.Writing
import InlineRepl.Proofs.Tree.Names
import InlineRepl.Proofs.Settings.File
import InlineRepl.Proofs.Settings.Writers
import InlineRepl.Proofs.Invocation.Parsed
import InlineRepl.Proofs.Command.Loading
import InlineRepl.Proofs.Command.Report
import InlineRepl.Proofs.Invocation.LineNumber
import InlineRepl.Proofs.Text.Boundary
import InlineRepl.Proofs.Session.Tail
import InlineRepl.Proofs.Host.Opening
import InlineRepl.Proofs.Command.Shown
import InlineRepl.Proofs.Command.Settling
import InlineRepl.Proofs.Command.Ending
import InlineRepl.Proofs.Command.Decision
import InlineRepl.Proofs.Command.Envelope
import InlineRepl.Proofs.Text.LineEnds
import InlineRepl.Proofs.Document.Selected
