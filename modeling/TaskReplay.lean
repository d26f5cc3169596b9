import TaskReplay.Action.Basic
import TaskReplay.Action.Check
import TaskReplay.Action.Codec
import TaskReplay.Action.Summary
import TaskReplay.Assoc
import TaskReplay.Bus
import TaskReplay.Catalog
import TaskReplay.CommandLine.Alone
import TaskReplay.CommandLine.Arguments
import TaskReplay.CommandLine.Location
import TaskReplay.CommandLine.Report
import TaskReplay.CommandLine.Session
import TaskReplay.Config
import TaskReplay.Control
import TaskReplay.Decimal.Layout
import TaskReplay.Decimal.Nearest
import TaskReplay.Decimal.Shortest
import TaskReplay.Engine.Program
import TaskReplay.Engine.State
import TaskReplay.Event
import TaskReplay.Geometry
import TaskReplay.Json.Basic
import TaskReplay.Json.Decode
import TaskReplay.Json.Number
import TaskReplay.Json.Parser
import TaskReplay.Json.Printer
import TaskReplay.Json.Token
import TaskReplay.Key
import TaskReplay.Main
import TaskReplay.Notice
import TaskReplay.Problem
import TaskReplay.Prog
import TaskReplay.Proofs.Action.Fields
import TaskReplay.Proofs.Action.RoundTrip
import TaskReplay.Proofs.Bus.Delivery
import TaskReplay.Proofs.Conversation.Machine
import TaskReplay.Proofs.Conversation.Protocol
import TaskReplay.Proofs.Conversation.Solo
import TaskReplay.Proofs.Conversation.Views
import TaskReplay.Proofs.Engine.Accounts
import TaskReplay.Proofs.Engine.Acts
import TaskReplay.Proofs.Engine.Broadcast
import TaskReplay.Proofs.Engine.Calls
import TaskReplay.Proofs.Engine.Coherence
import TaskReplay.Proofs.Engine.EmergencyStop
import TaskReplay.Proofs.Engine.Isolation
import TaskReplay.Proofs.Engine.LastError
import TaskReplay.Proofs.Engine.Office
import TaskReplay.Proofs.Engine.Order
import TaskReplay.Proofs.Engine.Reel
import TaskReplay.Proofs.Engine.Refusal
import TaskReplay.Proofs.Engine.Reports
import TaskReplay.Proofs.Engine.Returns
import TaskReplay.Proofs.Engine.SingleRun
import TaskReplay.Proofs.Engine.Starting
import TaskReplay.Proofs.Engine.Stopping
import TaskReplay.Proofs.Json.Leaves
import TaskReplay.Proofs.Json.Records
import TaskReplay.Proofs.Json.RoundTrip
import TaskReplay.Proofs.Json.Scanning
import TaskReplay.Proofs.Key.Names
import TaskReplay.Proofs.Run.Beside
import TaskReplay.Proofs.Run.Bounded
import TaskReplay.Proofs.Run.Chord
import TaskReplay.Proofs.Run.Clicking
import TaskReplay.Proofs.Run.Comparisons
import TaskReplay.Proofs.Run.ControlTiming
import TaskReplay.Proofs.Run.Cue
import TaskReplay.Proofs.Run.Delays
import TaskReplay.Proofs.Run.Dispatch
import TaskReplay.Proofs.Run.Film
import TaskReplay.Proofs.Run.FirstFailure
import TaskReplay.Proofs.Run.Heed
import TaskReplay.Proofs.Run.Hotkey
import TaskReplay.Proofs.Run.ImageWait
import TaskReplay.Proofs.Run.Loop
import TaskReplay.Proofs.Run.Onward
import TaskReplay.Proofs.Run.Pacing
import TaskReplay.Proofs.Run.Parts
import TaskReplay.Proofs.Run.Play
import TaskReplay.Proofs.Run.Poise
import TaskReplay.Proofs.Run.Script
import TaskReplay.Proofs.Run.Stop
import TaskReplay.Proofs.Run.StopSafety
import TaskReplay.Proofs.Run.Takes
import TaskReplay.Proofs.Run.Trace
import TaskReplay.Proofs.Run.Transparency
import TaskReplay.Proofs.Run.ValidRun
import TaskReplay.Proofs.Run.Waiting
import TaskReplay.Proofs.Run.Walk
import TaskReplay.Proofs.Run.Writes
import TaskReplay.Proofs.Store.Catalog
import TaskReplay.Proofs.Store.Columns
import TaskReplay.Proofs.Store.FiniteMap
import TaskReplay.Proofs.Store.Ledger
import TaskReplay.Proofs.Store.Overlap
import TaskReplay.Proofs.Store.ReadBack
import TaskReplay.Proofs.Store.Rows
import TaskReplay.Proofs.Store.Runnable
import TaskReplay.Proofs.Task.Complete
import TaskReplay.Proofs.Task.Tree
import TaskReplay.Proofs.Task.Validation
import TaskReplay.Proofs.Text.ByteOrder
import TaskReplay.Proofs.Text.Decimal
import TaskReplay.Proofs.Time.Jitter
import TaskReplay.Proofs.Time.RoundTrip
import TaskReplay.Proofs.Virtual.Screen
import TaskReplay.Rehearsal.Bench
import TaskReplay.Rehearsal.Course
import TaskReplay.Rehearsal.EngineStage
import TaskReplay.Rehearsal.Folder
import TaskReplay.Rehearsal.Stage
import TaskReplay.Run.Request
import TaskReplay.Run.Runner
import TaskReplay.Run.Step
import TaskReplay.Settings
import TaskReplay.Status
import TaskReplay.Store.Basic
import TaskReplay.Store.Cell
import TaskReplay.Store.Codec
import TaskReplay.Store.Patch
import TaskReplay.Store.Row
import TaskReplay.Task.Basic
import TaskReplay.Task.Codec
import TaskReplay.Text.Blank
import TaskReplay.Text.Digits
import TaskReplay.Time.Delay
import TaskReplay.Time.Rfc3339
import TaskReplay.Time.Timestamp
import TaskReplay.Toml.Basic
import TaskReplay.Toml.Decode
import TaskReplay.Toml.Quoted
import TaskReplay.Toml.Reader
import TaskReplay.Toml.Scalar
import TaskReplay.Toml.Table
import TaskReplay.Uuid
import TaskReplay.Variable
import TaskReplay.Virtual.Input
import TaskReplay.Virtual.Screen
import TaskReplay.Width
