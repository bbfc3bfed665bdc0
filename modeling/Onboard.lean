import Onboard.Cause
import Onboard.Crash.Report
import Onboard.Crash.Signal
import Onboard.Datagram.Address
import Onboard.Datagram.Endpoint
import Onboard.Datagram.Host
import Onboard.Datagram.Listener
import Onboard.Datagram.Sender
import Onboard.Fault
import Onboard.Handoff
import Onboard.Host.Path
import Onboard.Host.Sensors
import Onboard.Host.Storage
import Onboard.Json.Decode
import Onboard.Json.Literal
import Onboard.Json.Reader
import Onboard.Json.Text
import Onboard.Json.Token
import Onboard.Json.Value
import Onboard.Log
import Onboard.Loop.ControlLoop
import Onboard.Loop.Cycle
import Onboard.Loop.Executor
import Onboard.Loop.Faults
import Onboard.Loop.Networked
import Onboard.Loop.Pacing
import Onboard.Loop.Staleness
import Onboard.Main
import Onboard.Network.Channel
import Onboard.Network.LossWindow
import Onboard.Network.RoundTrips
import Onboard.Network.Service
import Onboard.Network.StatusLimiter
import Onboard.Number.Double
import Onboard.Number.Format
import Onboard.Number.Layout
import Onboard.Number.Reading
import Onboard.Number.Shortest
import Onboard.Number.Single
import Onboard.Number.Unsigned
import Onboard.Power.Checksum
import Onboard.Power.Frame
import Onboard.Power.Pulse
import Onboard.Power.Service
import Onboard.Proofs.Datagram.Delivery
import Onboard.Proofs.Datagram.Listener
import Onboard.Proofs.Datagram.Teardown
import Onboard.Proofs.Datagram.Truncation
import Onboard.Proofs.Json.Content
import Onboard.Proofs.Json.Exact
import Onboard.Proofs.Json.Kept
import Onboard.Proofs.Json.Layout
import Onboard.Proofs.Json.Parse
import Onboard.Proofs.Json.Received
import Onboard.Proofs.Json.Record
import Onboard.Proofs.Json.Settled
import Onboard.Proofs.Json.Spelling
import Onboard.Proofs.Json.Truncation
import Onboard.Proofs.Loop.Acceleration
import Onboard.Proofs.Loop.Alarm
import Onboard.Proofs.Loop.Cycle
import Onboard.Proofs.Loop.Echo
import Onboard.Proofs.Loop.Faults
import Onboard.Proofs.Loop.Finite
import Onboard.Proofs.Loop.Firing
import Onboard.Proofs.Loop.Limits
import Onboard.Proofs.Loop.Numbers
import Onboard.Proofs.Loop.Pacing
import Onboard.Proofs.Loop.Policy
import Onboard.Proofs.Loop.Readable
import Onboard.Proofs.Loop.Rotation
import Onboard.Proofs.Loop.Scan
import Onboard.Proofs.Loop.Trips
import Onboard.Proofs.Network.Hearing
import Onboard.Proofs.Network.Limiter
import Onboard.Proofs.Network.Listing
import Onboard.Proofs.Network.Loss
import Onboard.Proofs.Network.Newest
import Onboard.Proofs.Network.Polls
import Onboard.Proofs.Network.Reordering
import Onboard.Proofs.Network.Retention
import Onboard.Proofs.Network.RoundTrips
import Onboard.Proofs.Network.Sending
import Onboard.Proofs.Network.Window
import Onboard.Proofs.Number.Arithmetic
import Onboard.Proofs.Number.Difference
import Onboard.Proofs.Number.Halfway
import Onboard.Proofs.Number.Nearest
import Onboard.Proofs.Number.Operations
import Onboard.Proofs.Number.Order
import Onboard.Proofs.Number.Quotient
import Onboard.Proofs.Number.Rounding
import Onboard.Proofs.Number.Shortest
import Onboard.Proofs.Number.Signed
import Onboard.Proofs.Number.Single
import Onboard.Proofs.Power.Checksum
import Onboard.Proofs.Power.Codec
import Onboard.Proofs.Power.Corruption
import Onboard.Proofs.Power.Exchange
import Onboard.Proofs.Power.Frame
import Onboard.Proofs.Power.History
import Onboard.Proofs.Power.Safing
import Onboard.Proofs.Power.Step
import Onboard.Proofs.Session.Recording
import Onboard.Proofs.Session.Start
import Onboard.Proofs.Telemetry.Message
import Onboard.Proofs.Text.Search
import Onboard.Proofs.Wire.Control
import Onboard.Proofs.Wire.Exact
import Onboard.Proofs.Wire.PrimitiveSet
import Onboard.Proofs.Wire.Report
import Onboard.Proofs.Wire.Status
import Onboard.Robot.Chicker
import Onboard.Robot.Motion
import Onboard.Robot.Primitive
import Onboard.Robot.Status
import Onboard.Session.Audit
import Onboard.Session.Logger
import Onboard.Session.Start
import Onboard.Settings.Basic
import Onboard.Settings.Load
import Onboard.Startup
import Onboard.Telemetry.Endpoint
import Onboard.Telemetry.Message
import Onboard.Telemetry.Socket
import Onboard.Text.Blank
import Onboard.Text.Dump
import Onboard.Text.Hidden
import Onboard.Text.Lines
import Onboard.Text.Quoted
import Onboard.Text.Utf8
import Onboard.Time
import Onboard.Toml.Document
import Onboard.Toml.Number
import Onboard.Toml.Token
import Onboard.Toml.Value
import Onboard.Tools.Arguments
import Onboard.Tools.Ending
import Onboard.Tools.PrimitivePublisher
import Onboard.Tools.StatusWatch
import Onboard.Wire.Basic
import Onboard.Wire.Control
import Onboard.Wire.Status
