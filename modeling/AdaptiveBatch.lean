import AdaptiveBatch.Power
import AdaptiveBatch.Number
import AdaptiveBatch.Decimal.Binary
import AdaptiveBatch.Decimal.Digits
import AdaptiveBatch.Decimal.Shortest
import AdaptiveBatch.Decimal.Text
import AdaptiveBatch.Decimal.Read
import AdaptiveBatch.Decimal.Instance
import AdaptiveBatch.Duration
import AdaptiveBatch.Estimate
import AdaptiveBatch.Text.Blank
import AdaptiveBatch.Config.Format
import AdaptiveBatch.Fault
import AdaptiveBatch.Failure
import AdaptiveBatch.Config.Settings
import AdaptiveBatch.Flush.Decision
import AdaptiveBatch.Metrics.RunningStats
import AdaptiveBatch.Metrics.Tally
import AdaptiveBatch.Metrics.Report
import AdaptiveBatch.Metrics.Counters
import AdaptiveBatch.Metrics.Recorder
import AdaptiveBatch.Metrics.Verbosity
import AdaptiveBatch.Flush.Buffer
import AdaptiveBatch.Latency.Model
import AdaptiveBatch.Latency.Waiting
import AdaptiveBatch.Engine.State
import AdaptiveBatch.Engine.Step
import AdaptiveBatch.Engine.Spawn
import AdaptiveBatch.Sink.Behaviour
import AdaptiveBatch.Sink.Scripted
import AdaptiveBatch.Sink.Channel
import AdaptiveBatch.Sink.Logging
import AdaptiveBatch.Sink.Simulated
import AdaptiveBatch.Engine.Clock
import AdaptiveBatch.Engine.Keyed
import AdaptiveBatch.Engine.Trial
import AdaptiveBatch.Simulation.World
import AdaptiveBatch.Simulation.Run
import AdaptiveBatch.Simulation.Report
import AdaptiveBatch.Text.Hex
import AdaptiveBatch.Document.Tree
import AdaptiveBatch.Document.Json.Quoted
import AdaptiveBatch.Document.Json.Number
import AdaptiveBatch.Document.Json.Reader
import AdaptiveBatch.Document.Json.Writer
import AdaptiveBatch.Document.Toml.Quoted
import AdaptiveBatch.Document.Toml.Moment
import AdaptiveBatch.Document.Toml.Scalar
import AdaptiveBatch.Document.Toml.Table
import AdaptiveBatch.Document.Toml.Reader
import AdaptiveBatch.Document.Toml.Writer
import AdaptiveBatch.Files.Tree
import AdaptiveBatch.Config.Schema
import AdaptiveBatch.Config.Load
import AdaptiveBatch.Command.Invocation
import AdaptiveBatch.Command.Option
import AdaptiveBatch.Command.Parse
import AdaptiveBatch.Command.EnvironmentFile
import AdaptiveBatch.Command.Validate
import AdaptiveBatch.Command.Simulate
import AdaptiveBatch.Command.Program
import AdaptiveBatch.Main
import AdaptiveBatch.Proofs.Engine.Move
import AdaptiveBatch.Proofs.Engine.Race
import AdaptiveBatch.Proofs.Engine.History
import AdaptiveBatch.Proofs.Engine.Line
import AdaptiveBatch.Proofs.Engine.Phase
import AdaptiveBatch.Proofs.Engine.Story
import AdaptiveBatch.Proofs.Engine.Call
import AdaptiveBatch.Proofs.Engine.Delivery
import AdaptiveBatch.Proofs.Engine.Weight
import AdaptiveBatch.Proofs.Engine.Work
import AdaptiveBatch.Proofs.Engine.Shutdown
import AdaptiveBatch.Proofs.Engine.Teardown
import AdaptiveBatch.Proofs.Engine.Routing
import AdaptiveBatch.Proofs.Metrics.Recorder
import AdaptiveBatch.Proofs.Metrics.Counters
import AdaptiveBatch.Proofs.Metrics.RunningStats
import AdaptiveBatch.Proofs.Metrics.Tally
import AdaptiveBatch.Proofs.Config.Check
import AdaptiveBatch.Proofs.Config.Members
import AdaptiveBatch.Proofs.Engine.Start
import AdaptiveBatch.Proofs.Engine.Probe
import AdaptiveBatch.Proofs.Flush.Decision
import AdaptiveBatch.Proofs.Flush.Rule
import AdaptiveBatch.Proofs.Flush.Projection
import AdaptiveBatch.Proofs.Engine.Deferral
import AdaptiveBatch.Proofs.Engine.Return
import AdaptiveBatch.Proofs.Engine.Ledger
import AdaptiveBatch.Proofs.Engine.Record
import AdaptiveBatch.Proofs.Engine.Failure
import AdaptiveBatch.Proofs.Engine.Absence
import AdaptiveBatch.Proofs.Engine.Refusal
import AdaptiveBatch.Proofs.Engine.Crash
import AdaptiveBatch.Proofs.Engine.Agreement
import AdaptiveBatch.Proofs.Engine.Gauge
import AdaptiveBatch.Proofs.Engine.Smooth
import AdaptiveBatch.Proofs.Engine.Effort
import AdaptiveBatch.Proofs.Engine.Endurance
import AdaptiveBatch.Proofs.Engine.Launch
import AdaptiveBatch.Proofs.Engine.Regrouping
import AdaptiveBatch.Proofs.Engine.Keyed
import AdaptiveBatch.Proofs.Latency.Waiting
import AdaptiveBatch.Proofs.Simulation.Flight
import AdaptiveBatch.Proofs.Simulation.Crew
import AdaptiveBatch.Proofs.Simulation.Turn
import AdaptiveBatch.Proofs.Simulation.Progress
import AdaptiveBatch.Proofs.Simulation.Schedule
import AdaptiveBatch.Proofs.Simulation.Conservation
import AdaptiveBatch.Proofs.Simulation.Switch
import AdaptiveBatch.Proofs.Simulation.Cost
import AdaptiveBatch.Proofs.Config.Reload
import AdaptiveBatch.Proofs.Command.Prediction
import AdaptiveBatch.Proofs.Decimal.Arithmetic
import AdaptiveBatch.Proofs.Decimal.Order
import AdaptiveBatch.Proofs.Decimal.Span
import AdaptiveBatch.Proofs.Decimal.Drift
import AdaptiveBatch.Proofs.Decimal.Whole
import AdaptiveBatch.Proofs.Decimal.Count
import AdaptiveBatch.Proofs.Document.Json.Number
import AdaptiveBatch.Proofs.Document.Json.Quoted
import AdaptiveBatch.Proofs.Document.Json.Reader
import AdaptiveBatch.Proofs.Engine.LastProbe
import AdaptiveBatch.Proofs.Power
import AdaptiveBatch.Proofs.Decimal.Nearest
import AdaptiveBatch.Proofs.Decimal.Bits
import AdaptiveBatch.Proofs.Decimal.Read
import AdaptiveBatch.Proofs.Decimal.Digits
import AdaptiveBatch.Proofs.Decimal.Shortest
import AdaptiveBatch.Proofs.Decimal.Text
import AdaptiveBatch.Proofs.Text.Hex
import AdaptiveBatch.Proofs.Document.Json.Scale
import AdaptiveBatch.Proofs.Document.Toml.Quoted
import AdaptiveBatch.Proofs.Document.Toml.Scalar
import AdaptiveBatch.Proofs.Document.Toml.Reader
