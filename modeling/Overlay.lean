import Overlay.Algorithm
import Overlay.Binary64
import Overlay.Command
import Overlay.Coordinate
import Overlay.Decimal.Digits
import Overlay.Decimal.Places
import Overlay.Decimal.Shortest
import Overlay.Dice
import Overlay.Distance
import Overlay.Document.Toml.Parser
import Overlay.Document.Toml.Quoted
import Overlay.Document.Toml.Scalar
import Overlay.Document.Toml.Tree
import Overlay.Document.Value
import Overlay.Duration
import Overlay.Engine
import Overlay.Event
import Overlay.Failure
import Overlay.Hexadecimal
import Overlay.Main
import Overlay.Metrics
import Overlay.Neighborhood
import Overlay.Network.Pipe
import Overlay.Network.Request
import Overlay.Network.Schedule
import Overlay.Network.State
import Overlay.Node.Gossip
import Overlay.Node.Inbound
import Overlay.Node.Job
import Overlay.Node.Membership
import Overlay.Node.Neighbors
import Overlay.Node.Ping
import Overlay.Node.Record
import Overlay.Node.Runtime
import Overlay.Node.State
import Overlay.Peer
import Overlay.PeerCache.Basic
import Overlay.PeerCache.Sampling
import Overlay.Program.Attempt
import Overlay.Program.Basic
import Overlay.Program.Request
import Overlay.SampleWindow
import Overlay.Scalar
import Overlay.Settings.Basic
import Overlay.Settings.Document
import Overlay.Settings.Slot
import Overlay.SocketAddress.Basic
import Overlay.SocketAddress.Parser
import Overlay.Telemetry.Filter
import Overlay.Telemetry.Line
import Overlay.Telemetry.Settings
import Overlay.Text.Character
import Overlay.Text.Letters
import Overlay.Text.Numerals
import Overlay.Text.Pattern.Basic
import Overlay.Text.Pattern.Check
import Overlay.Text.Pattern.Parser
import Overlay.Text.Utf8
import Overlay.Tracker
import Overlay.Vivaldi
import Overlay.Wire.Bodies
import Overlay.Wire.CoordinateBlock
import Overlay.Wire.Frame
import Overlay.Wire.Layout
import Overlay.Wire.ServiceTag
import Overlay.Proofs.Chance
import Overlay.Proofs.Peer
import Overlay.Proofs.PeerCache.Merge
import Overlay.Proofs.PeerCache.Eviction
import Overlay.Proofs.PeerCache.Invariant
import Overlay.Proofs.PeerCache.Freshness
import Overlay.Proofs.Tracker
import Overlay.Proofs.Neighborhood
import Overlay.Proofs.Program.Run
import Overlay.Proofs.Program.Transport
import Overlay.Proofs.Program.ReadOnly
import Overlay.Proofs.Program.Play
import Overlay.Proofs.Program.Interleaving
import Overlay.Proofs.Node.Inbound
import Overlay.Proofs.Node.Round
import Overlay.Proofs.Node.Maintenance
import Overlay.Proofs.Node.Tracking
import Overlay.Proofs.Node.Probe
import Overlay.Proofs.Node.Pinging
import Overlay.Proofs.Node.Roster
import Overlay.Proofs.Text.Utf8
import Overlay.Proofs.Wire.RoundTrip
import Overlay.Proofs.Wire.Canonical
import Overlay.Proofs.Wire.Stream
import Overlay.Proofs.Swarm.Basic
import Overlay.Proofs.Swarm.Genuine
import Overlay.Proofs.Swarm.World
import Overlay.Proofs.Swarm.Rules
import Overlay.Proofs.Swarm.Engines
import Overlay.Proofs.Swarm.Gossip
import Overlay.Proofs.Swarm.Neighbors
import Overlay.Proofs.Swarm.Jobs
import Overlay.Proofs.Swarm.Stretch
import Overlay.Proofs.Swarm.Invariant
import Overlay.Proofs.Swarm.Provenance
import Overlay.Proofs.Swarm.Silence
import Overlay.Proofs.Vivaldi.Bounded
import Overlay.Proofs.Node.Readmission
import Overlay.Proofs.Circulation
import Overlay.Proofs.Binary64.Rounding
import Overlay.Proofs.Binary64.Packing
import Overlay.Proofs.Binary64.Operations
import Overlay.Proofs.Binary64.Order
import Overlay.Proofs.Binary64.Quotient
import Overlay.Proofs.Binary64.Arithmetic
import Overlay.Proofs.Vivaldi.Norm
import Overlay.Proofs.Vivaldi.Finite
import Overlay.Proofs.Engine.Life
import Overlay.Proofs.Engine.Budget
import Overlay.Proofs.Engine.Exchange
import Overlay.Proofs.PeerCache.Join
import Overlay.Proofs.PeerCache.Life
import Overlay.Proofs.Vivaldi.RoundTrip
import Overlay.Proofs.Node.Dealings
import Overlay.Proofs.Node.Conversation
import Overlay.Proofs.Node.Seat
import Overlay.Proofs.Settings
import Overlay.Proofs.Node.Echoing
import Overlay.Proofs.Node.Exchange
import Overlay.Proofs.PeerCache.Batches
import Overlay.Proofs.PeerCache.Lateness
import Overlay.Proofs.Node.Publication
import Overlay.Proofs.Engine.Tally
import Overlay.Proofs.Node.Ledger
import Overlay.Proofs.PeerCache.Sweep
import Overlay.Proofs.PeerCache.Confirmation
import Overlay.Proofs.PeerCache.Sampling
import Overlay.Proofs.Engine.Payload
import Overlay.Proofs.Engine.Fallback
import Overlay.Proofs.Vivaldi.Contraction
import Overlay.Proofs.Binary64.Keys
import Overlay.Proofs.Binary64.Extended
import Overlay.Proofs.Node.Candidates
import Overlay.Proofs.Node.Trials
import Overlay.Proofs.Node.Contacts
import Overlay.Proofs.Node.Attempts
import Overlay.Proofs.Node.View
import Overlay.Proofs.Distance
import Overlay.Proofs.Node.Nearest
import Overlay.Proofs.Node.Serving
import Overlay.Proofs.Binary64.Steps
import Overlay.Proofs.Duration
import Overlay.Proofs.Source
import Overlay.Proofs.Node.Pace
import Overlay.Proofs.Node.Timers
import Overlay.Proofs.PeerCache.Trimming
import Overlay.Proofs.SocketAddress.Numbers
import Overlay.Proofs.SocketAddress.RoundTrip
import Overlay.Proofs.Settings.Spelling
import Overlay.Proofs.Settings.Plans
