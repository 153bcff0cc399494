import FleetControl.Authentication
import FleetControl.Bridge.Job
import FleetControl.Bridge.Reply
import FleetControl.Cluster.Call
import FleetControl.Cluster.Delivery
import FleetControl.Cluster.Dispatch
import FleetControl.Cluster.Environment
import FleetControl.Cluster.Process
import FleetControl.Cluster.Run
import FleetControl.Cluster.Session
import FleetControl.Cluster.Socket
import FleetControl.Cluster.State
import FleetControl.Cluster.Task
import FleetControl.Completion
import FleetControl.Config
import FleetControl.Connections
import FleetControl.Credential
import FleetControl.Decimal.Double
import FleetControl.Decimal.Shortest
import FleetControl.Device.Directory
import FleetControl.Device.Lookup
import FleetControl.Device.Record
import FleetControl.Digest.Hmac
import FleetControl.Digest.Sha256
import FleetControl.Engine
import FleetControl.Envelope
import FleetControl.Error
import FleetControl.Gzip.Crc32
import FleetControl.Gzip.Deflate
import FleetControl.Gzip.Inflate
import FleetControl.Gzip.Member
import FleetControl.Handshake
import FleetControl.Json.Decode
import FleetControl.Json.Tree
import FleetControl.Json.Value
import FleetControl.Json.Writer
import FleetControl.Listener
import FleetControl.Log
import FleetControl.Main
import FleetControl.Message.Command
import FleetControl.Message.Control
import FleetControl.Message.Device
import FleetControl.Net.Address
import FleetControl.Net.Pem
import FleetControl.Nonce
import FleetControl.Options
import FleetControl.Power
import FleetControl.Presence
import FleetControl.Proofs.Authentication
import FleetControl.Proofs.Bridge.AtMostOnce
import FleetControl.Proofs.Bridge.Bridging
import FleetControl.Proofs.Bridge.Convergence
import FleetControl.Proofs.Bridge.Dispatch
import FleetControl.Proofs.Bridge.Disposal
import FleetControl.Proofs.Bridge.Enqueuing
import FleetControl.Proofs.Bridge.Entries
import FleetControl.Proofs.Bridge.Handling
import FleetControl.Proofs.Bridge.Job
import FleetControl.Proofs.Bridge.Lists
import FleetControl.Proofs.Bridge.Locks
import FleetControl.Proofs.Bridge.Minding
import FleetControl.Proofs.Bridge.Patience
import FleetControl.Proofs.Bridge.Projection
import FleetControl.Proofs.Bridge.Refinement
import FleetControl.Proofs.Bridge.Reply
import FleetControl.Proofs.Bridge.Traffic
import FleetControl.Proofs.Bridge.Transfer
import FleetControl.Proofs.Bridge.Urgency
import FleetControl.Proofs.Bridge.Verdict
import FleetControl.Proofs.Bridge.Waiting
import FleetControl.Proofs.Bridge.Workers
import FleetControl.Proofs.Cluster.Admission
import FleetControl.Proofs.Cluster.Asking
import FleetControl.Proofs.Cluster.Attempts
import FleetControl.Proofs.Cluster.Attribution
import FleetControl.Proofs.Cluster.Belonging
import FleetControl.Proofs.Cluster.CleanUp
import FleetControl.Proofs.Cluster.Closing
import FleetControl.Proofs.Cluster.Course
import FleetControl.Proofs.Cluster.Custody
import FleetControl.Proofs.Cluster.Effects
import FleetControl.Proofs.Cluster.Feeding
import FleetControl.Proofs.Cluster.Filing
import FleetControl.Proofs.Cluster.Frame
import FleetControl.Proofs.Cluster.Framing
import FleetControl.Proofs.Cluster.Front
import FleetControl.Proofs.Cluster.History
import FleetControl.Proofs.Cluster.Kinds
import FleetControl.Proofs.Cluster.Lapsing
import FleetControl.Proofs.Cluster.Lifetime
import FleetControl.Proofs.Cluster.Limits
import FleetControl.Proofs.Cluster.Places
import FleetControl.Proofs.Cluster.Popping
import FleetControl.Proofs.Cluster.Reflection
import FleetControl.Proofs.Cluster.Refusals
import FleetControl.Proofs.Cluster.Roster
import FleetControl.Proofs.Cluster.Scheduling
import FleetControl.Proofs.Cluster.Sections
import FleetControl.Proofs.Cluster.SendLoops
import FleetControl.Proofs.Cluster.Sending
import FleetControl.Proofs.Cluster.Separation
import FleetControl.Proofs.Cluster.Sessions
import FleetControl.Proofs.Cluster.Shares
import FleetControl.Proofs.Cluster.Sockets
import FleetControl.Proofs.Cluster.Standing
import FleetControl.Proofs.Cluster.Waiters
import FleetControl.Proofs.Decimal.Layout
import FleetControl.Proofs.Decimal.Magnitude
import FleetControl.Proofs.Decimal.Numeral
import FleetControl.Proofs.Device.Directory
import FleetControl.Proofs.Device.Integrity
import FleetControl.Proofs.Device.Redaction
import FleetControl.Proofs.Engine.Accounts
import FleetControl.Proofs.Engine.Operation
import FleetControl.Proofs.Engine.Order
import FleetControl.Proofs.Engine.Placement
import FleetControl.Proofs.Engine.Serving
import FleetControl.Proofs.Engine.Sharing
import FleetControl.Proofs.Envelope
import FleetControl.Proofs.Envelope.Text
import FleetControl.Proofs.Gzip.Bits
import FleetControl.Proofs.Gzip.Codes
import FleetControl.Proofs.Gzip.Member
import FleetControl.Proofs.Gzip.Stream
import FleetControl.Proofs.Handshake
import FleetControl.Proofs.Handshake.Secrecy
import FleetControl.Proofs.Json.Canonical
import FleetControl.Proofs.Json.Members
import FleetControl.Proofs.Json.NormalForm
import FleetControl.Proofs.Json.Reading
import FleetControl.Proofs.Json.Records
import FleetControl.Proofs.Json.Strings
import FleetControl.Proofs.Message.Command
import FleetControl.Proofs.Message.Control
import FleetControl.Proofs.Message.Payload
import FleetControl.Proofs.Message.WireForm
import FleetControl.Proofs.Nonce
import FleetControl.Proofs.Presence.Counting
import FleetControl.Proofs.Presence.Heartbeats
import FleetControl.Proofs.Presence.Ledger
import FleetControl.Proofs.Presence.Records
import FleetControl.Proofs.Presence.Requests
import FleetControl.Proofs.Presence.Routes
import FleetControl.Proofs.RateLimiter
import FleetControl.Proofs.RateLimiter.Window
import FleetControl.Proofs.Reassembly.Conversation
import FleetControl.Proofs.Reassembly.InOrder
import FleetControl.Proofs.Remote.Batches
import FleetControl.Proofs.Remote.CommandLines
import FleetControl.Proofs.Remote.Exchange
import FleetControl.Proofs.Remote.Routing
import FleetControl.Proofs.Remote.Upload
import FleetControl.Proofs.Store
import FleetControl.Proofs.Store.Filing
import FleetControl.Proofs.Store.Keys
import FleetControl.Proofs.Store.Lasting
import FleetControl.Proofs.Store.Prompt
import FleetControl.Proofs.Store.Requests
import FleetControl.Proofs.Table
import FleetControl.Proofs.Text.Base64
import FleetControl.Proofs.Text.ByteOrder
import FleetControl.Proofs.Text.Hex
import FleetControl.Proofs.Text.Words
import FleetControl.Proofs.Uuid
import FleetControl.RateLimiter
import FleetControl.Reassembly
import FleetControl.Remote.Channel
import FleetControl.Remote.Facade
import FleetControl.Remote.Program
import FleetControl.Remote.Ssh
import FleetControl.Reply
import FleetControl.Startup
import FleetControl.Store
import FleetControl.Store.Shared
import FleetControl.Table
import FleetControl.Text.Base64
import FleetControl.Text.Blank
import FleetControl.Text.Duration
import FleetControl.Text.Hex
import FleetControl.Text.Lines
import FleetControl.Text.Printable
import FleetControl.Text.Quoted
import FleetControl.Text.Shell
import FleetControl.Text.Utf8
import FleetControl.Toml.Document
import FleetControl.Toml.Scalar
import FleetControl.Toml.Value
import FleetControl.Uuid
