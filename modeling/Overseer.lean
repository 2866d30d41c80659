import Overseer.Arguments
import Overseer.Broadcast
import Overseer.Child
import Overseer.CommandLine.Forwarding
import Overseer.CommandLine.Grammar
import Overseer.CommandLine.Invocation
import Overseer.CommandLine.Log
import Overseer.CommandLine.Session
import Overseer.Decimal.Shortest
import Overseer.Duration
import Overseer.Duration.Reader
import Overseer.Environment
import Overseer.Failure
import Overseer.FileTree
import Overseer.Json.Basic
import Overseer.Json.Decoder
import Overseer.Json.Number
import Overseer.Json.Reader
import Overseer.Json.Writer
import Overseer.Launch
import Overseer.Lifecycle
import Overseer.Lifecycle.Diagram
import Overseer.Lifecycle.Json
import Overseer.Main
import Overseer.Parent
import Overseer.Parent.Monitor
import Overseer.ProcessInfo
import Overseer.Proofs.Arguments.Pieces
import Overseer.Proofs.Arguments.RoundTrip
import Overseer.Proofs.Arguments.Scanner
import Overseer.Proofs.Arguments.Seams
import Overseer.Proofs.Arguments.Symbols
import Overseer.Proofs.CommandLine.Aborts
import Overseer.Proofs.CommandLine.Accounts
import Overseer.Proofs.CommandLine.Echo
import Overseer.Proofs.CommandLine.Interrupts
import Overseer.Proofs.CommandLine.Lanes
import Overseer.Proofs.CommandLine.Launching
import Overseer.Proofs.CommandLine.Options
import Overseer.Proofs.CommandLine.Overlong
import Overseer.Proofs.CommandLine.Pairing
import Overseer.Proofs.CommandLine.ParentVariable
import Overseer.Proofs.CommandLine.Relay
import Overseer.Proofs.Duration.Addition
import Overseer.Proofs.Duration.Brimming
import Overseer.Proofs.Files.Changes
import Overseer.Proofs.Json.Arrays
import Overseer.Proofs.Json.Members
import Overseer.Proofs.Json.Numbers
import Overseer.Proofs.Json.Strings
import Overseer.Proofs.Json.Values
import Overseer.Proofs.Lifecycle.Language
import Overseer.Proofs.Lifecycle.Moves
import Overseer.Proofs.Outcomes
import Overseer.Proofs.Parent.Monitoring
import Overseer.Proofs.Parent.Resolution
import Overseer.Proofs.Queue.Draining
import Overseer.Proofs.Queue.Execution
import Overseer.Proofs.Queue.Histories
import Overseer.Proofs.Queue.Promises
import Overseer.Proofs.Queue.Schedule
import Overseer.Proofs.Settings.Arrays
import Overseer.Proofs.Settings.Objects
import Overseer.Proofs.Settings.Steps
import Overseer.Proofs.Settings.Texts
import Overseer.Proofs.Shutdown.Acknowledging
import Overseer.Proofs.Shutdown.Agreement
import Overseer.Proofs.Shutdown.Asking
import Overseer.Proofs.Shutdown.Blocks
import Overseer.Proofs.Shutdown.Listening
import Overseer.Proofs.Shutdown.Meeting
import Overseer.Proofs.Shutdown.Moves
import Overseer.Proofs.Shutdown.Neighbours
import Overseer.Proofs.Shutdown.Ownership
import Overseer.Proofs.Shutdown.Requests
import Overseer.Proofs.Shutdown.Schedule
import Overseer.Proofs.Shutdown.Serving
import Overseer.Proofs.Shutdown.Signalling
import Overseer.Proofs.Shutdown.SingleShot
import Overseer.Proofs.Shutdown.Streams
import Overseer.Proofs.Shutdown.Tenancy
import Overseer.Proofs.Supervisor.Coherence
import Overseer.Proofs.Supervisor.Deeds
import Overseer.Proofs.Supervisor.Estate
import Overseer.Proofs.Supervisor.Exits
import Overseer.Proofs.Supervisor.Kills
import Overseer.Proofs.Supervisor.Lifetime
import Overseer.Proofs.Supervisor.Operations
import Overseer.Proofs.Supervisor.Parting
import Overseer.Proofs.Supervisor.Patience
import Overseer.Proofs.Supervisor.Pursuit
import Overseer.Proofs.Supervisor.Race
import Overseer.Proofs.Supervisor.Reckoning
import Overseer.Proofs.Supervisor.Refusals
import Overseer.Proofs.Supervisor.Restarts
import Overseer.Proofs.Supervisor.Run
import Overseer.Proofs.Supervisor.Table
import Overseer.Proofs.Supervisor.Timeline
import Overseer.Proofs.Supervisor.Traffic
import Overseer.Proofs.Supervisor.Waiting
import Overseer.Proofs.Text.Decoding
import Overseer.Proofs.Text.Encoding
import Overseer.Proofs.Text.Lines
import Overseer.Proofs.Text.Numerals
import Overseer.Proofs.Text.Segments
import Overseer.Proofs.Watcher.Watch
import Overseer.Queue
import Overseer.Queue.Operation
import Overseer.Queue.Script
import Overseer.Settings
import Overseer.Settings.Json
import Overseer.Shutdown.Channel
import Overseer.Shutdown.Connection
import Overseer.Shutdown.Directory
import Overseer.Shutdown.Encounter
import Overseer.Shutdown.Listener
import Overseer.Shutdown.Reply
import Overseer.Shutdown.Request
import Overseer.Shutdown.Script
import Overseer.Shutdown.Signaler
import Overseer.Shutdown.World
import Overseer.Supervisor
import Overseer.Supervisor.Script
import Overseer.Supervisor.Stopping
import Overseer.Supervisor.World
import Overseer.SystemError
import Overseer.SystemError.Table
import Overseer.Text.Blank
import Overseer.Text.Control
import Overseer.Text.Integer
import Overseer.Text.Lines
import Overseer.Text.Quoted
import Overseer.Text.Unprintable
import Overseer.Text.Utf8
import Overseer.Warning
import Overseer.Watcher
import Overseer.Watcher.Group
