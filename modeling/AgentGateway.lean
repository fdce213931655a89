import AgentGateway.Admission.Basic
import AgentGateway.Admission.Desk
import AgentGateway.Backoff
import AgentGateway.Binary64.Basic
import AgentGateway.Binary64.Shortest
import AgentGateway.Bus.Channel
import AgentGateway.Bus.Desk
import AgentGateway.Bus.Endpoints
import AgentGateway.Bus.Gateway
import AgentGateway.Bus.Handler
import AgentGateway.Bus.Worker
import AgentGateway.Client.Basic
import AgentGateway.Client.Callers
import AgentGateway.Client.Desk
import AgentGateway.CommandLine.Arguments
import AgentGateway.CommandLine.Conversation
import AgentGateway.CommandLine.Report
import AgentGateway.Config.Basic
import AgentGateway.Config.Load
import AgentGateway.Correlation.Desk
import AgentGateway.Correlation.Engine
import AgentGateway.Correlation.Metadata
import AgentGateway.Duration
import AgentGateway.Execution
import AgentGateway.Execution.Process
import AgentGateway.Execution.Rehearsal
import AgentGateway.Execution.Script
import AgentGateway.Failure
import AgentGateway.Framing
import AgentGateway.Host
import AgentGateway.Json.Cursor
import AgentGateway.Json.Decode
import AgentGateway.Json.Printer
import AgentGateway.Json.Problem
import AgentGateway.Json.Reader
import AgentGateway.Json.Value
import AgentGateway.Main
import AgentGateway.Power
import AgentGateway.Prompt
import AgentGateway.Proofs.Admission.Closing
import AgentGateway.Proofs.Admission.Conservation
import AgentGateway.Proofs.Admission.Crowd
import AgentGateway.Proofs.Admission.Line
import AgentGateway.Proofs.Admission.Operations
import AgentGateway.Proofs.Admission.Order
import AgentGateway.Proofs.Admission.Pool
import AgentGateway.Proofs.Binary64.Error
import AgentGateway.Proofs.Binary64.Rounding
import AgentGateway.Proofs.Binary64.Shortest
import AgentGateway.Proofs.Bus.Answers
import AgentGateway.Proofs.Bus.Claims
import AgentGateway.Proofs.Bus.Conservation
import AgentGateway.Proofs.Bus.Delivery
import AgentGateway.Proofs.Bus.EndsInOrder
import AgentGateway.Proofs.Bus.Intake
import AgentGateway.Proofs.Bus.Ledger
import AgentGateway.Proofs.Bus.News
import AgentGateway.Proofs.Bus.Parts
import AgentGateway.Proofs.Bus.Rest
import AgentGateway.Proofs.Bus.Service
import AgentGateway.Proofs.Bus.Shift
import AgentGateway.Proofs.Bus.Traffic
import AgentGateway.Proofs.Bus.Workload
import AgentGateway.Proofs.Client.Acts
import AgentGateway.Proofs.Client.Crashes
import AgentGateway.Proofs.Client.Endings
import AgentGateway.Proofs.Client.ErrorTail
import AgentGateway.Proofs.Client.Failures
import AgentGateway.Proofs.Client.Narration
import AgentGateway.Proofs.Client.Outcomes
import AgentGateway.Proofs.Client.Rationing
import AgentGateway.Proofs.Client.Slots
import AgentGateway.Proofs.Client.Stories
import AgentGateway.Proofs.Client.Tasks
import AgentGateway.Proofs.Client.Workload
import AgentGateway.Proofs.Config.Usable
import AgentGateway.Proofs.Correlation.Callers
import AgentGateway.Proofs.Correlation.Deadlines
import AgentGateway.Proofs.Correlation.History
import AgentGateway.Proofs.Correlation.Resolution
import AgentGateway.Proofs.Correlation.Settlement
import AgentGateway.Proofs.Correlation.Sparing
import AgentGateway.Proofs.Json.Digits
import AgentGateway.Proofs.Json.Numerals
import AgentGateway.Proofs.Json.Range
import AgentGateway.Proofs.Json.Skipping
import AgentGateway.Proofs.Json.Strings
import AgentGateway.Proofs.Json.Typed
import AgentGateway.Proofs.Json.Values
import AgentGateway.Proofs.Json.Whole
import AgentGateway.Proofs.Json.Written
import AgentGateway.Proofs.Output.Agreement
import AgentGateway.Proofs.Output.Buffer
import AgentGateway.Proofs.Output.Framing
import AgentGateway.Proofs.Retry.Attempts
import AgentGateway.Proofs.Retry.Cancellation
import AgentGateway.Proofs.Server.Accounts
import AgentGateway.Proofs.Server.Askers
import AgentGateway.Proofs.Server.Blocks
import AgentGateway.Proofs.Server.Eviction
import AgentGateway.Proofs.Server.Health
import AgentGateway.Proofs.Server.Pipelining
import AgentGateway.Proofs.Server.Readings
import AgentGateway.Proofs.Server.Sessions
import AgentGateway.Proofs.Server.Standstill
import AgentGateway.Proofs.Server.Traffic
import AgentGateway.Proofs.Server.Watching
import AgentGateway.Proofs.Server.Wire
import AgentGateway.Proofs.Session.Activity
import AgentGateway.Proofs.Session.Bounds
import AgentGateway.Proofs.Session.Entries
import AgentGateway.Proofs.Session.History
import AgentGateway.Proofs.Session.Moves
import AgentGateway.Proofs.Session.Sweeping
import AgentGateway.Proofs.Stream.Account
import AgentGateway.Proofs.Stream.Classification
import AgentGateway.Proofs.Stream.Consumption
import AgentGateway.Proofs.Stream.Ending
import AgentGateway.Proofs.Stream.Envelope
import AgentGateway.Proofs.Stream.Fragments
import AgentGateway.Proofs.Stream.Reading
import AgentGateway.Proofs.Text.Boundaries
import AgentGateway.Proofs.Text.Lossy
import AgentGateway.Proofs.Text.RoundTrip
import AgentGateway.Proofs.Timeline
import AgentGateway.Proofs.TimeoutPolicy
import AgentGateway.Retry
import AgentGateway.Server.Command
import AgentGateway.Server.Connection
import AgentGateway.Server.Desk
import AgentGateway.Server.Reply
import AgentGateway.Service
import AgentGateway.Session.Desk
import AgentGateway.Session.Registry
import AgentGateway.Shell.Arithmetic
import AgentGateway.Shell.Command
import AgentGateway.Shell.Condition
import AgentGateway.Shell.Evaluation
import AgentGateway.Shell.Filter
import AgentGateway.Shell.Format
import AgentGateway.Shell.Fragment
import AgentGateway.Shell.Pattern
import AgentGateway.Shell.Port
import AgentGateway.Shell.Reader
import AgentGateway.Shell.State
import AgentGateway.Shell.Utility
import AgentGateway.Stream.Event
import AgentGateway.Stream.Record
import AgentGateway.Stream.Transcript
import AgentGateway.Stream.Usage
import AgentGateway.SystemError
import AgentGateway.Text.Blank
import AgentGateway.Text.Lines
import AgentGateway.Text.Quoted
import AgentGateway.Text.Unprintable
import AgentGateway.Text.Utf8
import AgentGateway.Timeline
import AgentGateway.TimeoutPolicy
import AgentGateway.Toml.Basic
import AgentGateway.Toml.Decode
import AgentGateway.Toml.Document
import AgentGateway.Toml.Scalar
import AgentGateway.Toml.Tree
