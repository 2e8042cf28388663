import Sylar.Address.Expand
import Sylar.Address.Lookup
import Sylar.Address.Model
import Sylar.Address.Order
import Sylar.Address.Subnet
import Sylar.Async.Answers
import Sylar.Async.Backoff
import Sylar.Async.Lifecycle
import Sylar.Async.Manager
import Sylar.Async.Matching
import Sylar.Async.Model
import Sylar.Async.Once
import Sylar.Async.Outcome
import Sylar.Async.Permits
import Sylar.Async.SendQueue
import Sylar.Async.View
import Sylar.Buffer.Content
import Sylar.Buffer.Digest
import Sylar.Buffer.File
import Sylar.Buffer.Flat
import Sylar.Buffer.Gather
import Sylar.Buffer.Numbers
import Sylar.Buffer.Reachable
import Sylar.Buffer.Reads
import Sylar.Buffer.Strings
import Sylar.Buffer.Transfer
import Sylar.Buffer.Varint
import Sylar.Config.Containers
import Sylar.Config.Dir
import Sylar.Config.Listeners
import Sylar.Config.Load
import Sylar.Config.TcpServerConf
import Sylar.Data.Blocks
import Sylar.Data.Colons
import Sylar.Data.Grouped
import Sylar.Data.Lexicographic
import Sylar.Data.OrderedSet
import Sylar.Data.Transducer
import Sylar.Data.Zigzag
import Sylar.Env.Arguments
import Sylar.Hook.FdManager
import Sylar.Hook.Handles
import Sylar.Hook.Reuse
import Sylar.Hook.Timeouts
import Sylar.IOManager.Cancel
import Sylar.IOManager.DoSocket
import Sylar.IOManager.Duplex
import Sylar.IOManager.Idle
import Sylar.IOManager.Lookup
import Sylar.IOManager.Model
import Sylar.IOManager.Pending
import Sylar.IOManager.Registered
import Sylar.IOManager.Timeout
import Sylar.IOManager.Wake
import Sylar.Log.Attach
import Sylar.Log.Define
import Sylar.Log.Dump
import Sylar.Log.Grammar
import Sylar.Log.Reconfigure
import Sylar.Log.Rotation
import Sylar.Log.Routing
import Sylar.Log.Sections
import Sylar.Logic.Completion
import Sylar.Logic.Ledger
import Sylar.Logic.OneShot
import Sylar.Logic.Ownership
import Sylar.Logic.Registry
import Sylar.Module.Manager
import Sylar.Rock.Accepted
import Sylar.Rock.Answered
import Sylar.Rock.Compressed
import Sylar.Rock.Decoder
import Sylar.Rock.Delivery
import Sylar.Rock.Exchange
import Sylar.Rock.Framing
import Sylar.Rock.HostOrder
import Sylar.Rock.Journey
import Sylar.Rock.Message
import Sylar.Rock.Truncated
import Sylar.Rock.Ungzip
import Sylar.Scheduler.Conservation
import Sylar.Scheduler.Context
import Sylar.Scheduler.Exclusive
import Sylar.Scheduler.Ledger
import Sylar.Scheduler.Nested
import Sylar.Scheduler.Shutdown
import Sylar.Scheduler.Stages
import Sylar.Scheduler.Stopping
import Sylar.Scheduler.Switching
import Sylar.Server.Accepting
import Sylar.Server.Bind
import Sylar.Server.Leaks
import Sylar.Server.LocalAddress
import Sylar.Server.Sockets
import Sylar.Stream.Blocks
import Sylar.Stream.Counts
import Sylar.Stream.FixSize
import Sylar.Stream.Socket
import Sylar.Stream.Ssl
import Sylar.Stream.Zlib
import Sylar.Sync.Semaphore
import Sylar.Timers.Discipline
import Sylar.Timers.Expiry
import Sylar.Timers.Model
import Sylar.Timers.Order
import Sylar.Timers.Report
import Sylar.Timers.Wakeup
