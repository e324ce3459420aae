import Refactor.Batch
import Refactor.Bytes
import Refactor.Client.Basic
import Refactor.Client.Child
import Refactor.Client.Connection
import Refactor.Client.Peer
import Refactor.Decimal.Double
import Refactor.Decimal.Shortest
import Refactor.Discovery
import Refactor.Edit.Apply
import Refactor.Edit.Basic
import Refactor.Edit.Span
import Refactor.Edit.Wire
import Refactor.Failure
import Refactor.FileTree.Access
import Refactor.FileTree.Basic
import Refactor.FileTree.Resolve
import Refactor.Frame
import Refactor.Indent
import Refactor.Json.Decode
import Refactor.Json.Place
import Refactor.Json.Reader
import Refactor.Json.Value
import Refactor.Json.Writer
import Refactor.Launch
import Refactor.Lock
import Refactor.Log.Directive
import Refactor.Log.Filter
import Refactor.Log.Level
import Refactor.Log.Setup
import Refactor.OsError
import Refactor.Path
import Refactor.Program
import Refactor.Readiness
import Refactor.Regex
import Refactor.Report
import Refactor.Scan
import Refactor.Service
import Refactor.Session.Basic
import Refactor.Session.Script
import Refactor.Settings.Basic
import Refactor.Settings.Load
import Refactor.Settings.Variables
import Refactor.Shell.Feed
import Refactor.Shell.Glob
import Refactor.Shell.Parse
import Refactor.Shell.Run
import Refactor.Shell.Sed
import Refactor.Shell.State
import Refactor.Shell.Syntax
import Refactor.Shell.Tools
import Refactor.SourceText
import Refactor.Text.Alphanumeric
import Refactor.Text.Basic
import Refactor.Text.Blank
import Refactor.Text.Quoted
import Refactor.Text.Unprintable
import Refactor.Toml.Reader
import Refactor.Toml.Scalar
import Refactor.Toml.Table
import Refactor.Wire.Body
import Refactor.Wire.Inbound
import Refactor.Wire.Request
import Refactor.Proofs.Lines
import Refactor.Proofs.Spans
import Refactor.Proofs.Splice
import Refactor.Proofs.FrameChunks
import Refactor.Proofs.FrameSegments
import Refactor.Proofs.Removals
import Refactor.Proofs.Refusals
import Refactor.Proofs.Files
import Refactor.Proofs.Grouping
import Refactor.Proofs.Batches
import Refactor.Proofs.Conservation
import Refactor.Proofs.Endings
import Refactor.Proofs.Denotation
import Refactor.Proofs.Merging
import Refactor.Proofs.Traffic
import Refactor.Proofs.Tickets
import Refactor.Proofs.Moves
import Refactor.Proofs.Operations
import Refactor.Proofs.Settlement
import Refactor.Proofs.RoundTrips
import Refactor.Proofs.Demultiplexing
import Refactor.Proofs.Recording
import Refactor.Proofs.Gating
import Refactor.Proofs.JsonText
import Refactor.Proofs.RequestLines
import Refactor.Proofs.TextSessions
import Refactor.Proofs.LockLedger
import Refactor.Proofs.WireForms
import Refactor.Proofs.LockSharing
import Refactor.Proofs.LockIdentity
import Refactor.Proofs.EditOrder
import Refactor.Proofs.Bounds
import Refactor.Proofs.LockOrder
import Refactor.Proofs.LockProgress
import Refactor.Proofs.Waiting
import Refactor.Proofs.Exploration
import Refactor.Proofs.SourceScan
import Refactor.Proofs.IndentUnits
import Refactor.Proofs.Reindentation
import Refactor.Proofs.Normalization
import Refactor.Proofs.Offsets
import Refactor.Proofs.FrameBuffer
