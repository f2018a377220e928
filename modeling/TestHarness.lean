import TestHarness.Command
import TestHarness.Decimal.Binary64
import TestHarness.Files.Stream
import TestHarness.Files.Tree
import TestHarness.Host.Builtin
import TestHarness.Host.Launch
import TestHarness.Host.Process
import TestHarness.Host.Run
import TestHarness.Host.Step
import TestHarness.Host.Turn
import TestHarness.Host.Utility
import TestHarness.Job.Basic
import TestHarness.Job.Status
import TestHarness.Job.StatusJson
import TestHarness.Json.Literal
import TestHarness.Json.Value
import TestHarness.Logging.Filter
import TestHarness.Options.Basic
import TestHarness.Options.Decode
import TestHarness.Options.Discovery
import TestHarness.Output
import TestHarness.Path
import TestHarness.Proofs.Command
import TestHarness.Proofs.Core.Amends
import TestHarness.Proofs.Core.Calls
import TestHarness.Proofs.Core.Decoding
import TestHarness.Proofs.Core.Lifecycle
import TestHarness.Proofs.Core.Notices
import TestHarness.Proofs.Core.Refusals
import TestHarness.Proofs.Core.Report
import TestHarness.Proofs.Core.Runs
import TestHarness.Proofs.Files.Stream
import TestHarness.Proofs.Files.Walk
import TestHarness.Proofs.Interleaving.Completion
import TestHarness.Proofs.Interleaving.Delivery
import TestHarness.Proofs.Interleaving.Observers
import TestHarness.Proofs.Interleaving.Run
import TestHarness.Proofs.Interleaving.Signals
import TestHarness.Proofs.Interleaving.Threads
import TestHarness.Proofs.Interleaving.Worker
import TestHarness.Proofs.Job
import TestHarness.Proofs.Job.Caveats
import TestHarness.Proofs.Job.StatusJson
import TestHarness.Proofs.Json.Literal
import TestHarness.Proofs.Json.Token
import TestHarness.Proofs.Json.Value
import TestHarness.Proofs.Local.Calls
import TestHarness.Proofs.Local.Capture
import TestHarness.Proofs.Local.Deadline
import TestHarness.Proofs.Local.Escalation
import TestHarness.Proofs.Local.History
import TestHarness.Proofs.Local.Life
import TestHarness.Proofs.Local.Wait
import TestHarness.Proofs.Options.Acceptance
import TestHarness.Proofs.Options.Ascent
import TestHarness.Proofs.Options.Discovery
import TestHarness.Proofs.Options.Positions
import TestHarness.Proofs.Options.RoundTrip
import TestHarness.Proofs.Options.Search
import TestHarness.Proofs.Options.Settings
import TestHarness.Proofs.Options.Shape
import TestHarness.Proofs.Output
import TestHarness.Proofs.Output.Repair
import TestHarness.Proofs.Path
import TestHarness.Proofs.Path.Steps
import TestHarness.Proofs.Session.Spawn
import TestHarness.Proofs.Tester
import TestHarness.Proofs.Text.Chunks
import TestHarness.Proofs.Text.Order
import TestHarness.Proofs.Text.Scrub
import TestHarness.Proofs.Text.Utf8
import TestHarness.Proofs.Timer
import TestHarness.Proofs.Toml.Distinct
import TestHarness.Proofs.Toml.Plain
import TestHarness.Proofs.Toml.Quoted
import TestHarness.Proofs.Toml.Scalar
import TestHarness.Runner.Core
import TestHarness.Runner.Error
import TestHarness.Runner.Local
import TestHarness.Runner.Replay
import TestHarness.Runner.Signal
import TestHarness.Session
import TestHarness.Shell.Arithmetic
import TestHarness.Shell.Condition
import TestHarness.Shell.Expand
import TestHarness.Shell.Format
import TestHarness.Shell.Lexer
import TestHarness.Shell.Parser
import TestHarness.Shell.Pattern
import TestHarness.Shell.State
import TestHarness.Shell.Syntax
import TestHarness.Tester
import TestHarness.Text.Octets
import TestHarness.Text.Quoted
import TestHarness.Text.Scrub
import TestHarness.Text.Section
import TestHarness.Text.Unprintable
import TestHarness.Text.Utf8
import TestHarness.Timer
import TestHarness.Timer.Watch
import TestHarness.Toml.Blank
import TestHarness.Toml.Document
import TestHarness.Toml.Quoted
import TestHarness.Toml.Scalar
import TestHarness.Toml.Statement
import TestHarness.Toml.Table
import TestHarness.Toml.Value
