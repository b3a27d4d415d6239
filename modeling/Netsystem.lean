import Netsystem.Program
import Netsystem.Verdict
import Netsystem.Reserving
import Netsystem.Expansion
import Netsystem.Bytes
import Netsystem.Stats.Protocol
import Netsystem.Stats.Client
import Netsystem.Stats.Quiet
import Netsystem.Stats.Snapshot
import Netsystem.Stats.Values
import Netsystem.Stats.Totality
import Netsystem.Stats.Capacity
import Netsystem.Stats.Layout
import Netsystem.Text
import Netsystem.Stats.Reader
import Netsystem.Stats.Node
import Netsystem.Stats.NodeError
import Netsystem.Stats.BufferPools
import Netsystem.Ring
import Netsystem.Shmem.Queue
import Netsystem.Shmem.Fifo
import Netsystem.Shmem.Recovery
import Netsystem.Monitor
import Netsystem.Shmem.Threads
import Netsystem.Shmem.Wakeup
import Netsystem.Api.Codec
import Netsystem.Api.Visitor
import Netsystem.Api.Legacy
import Netsystem.Api.Message
import Netsystem.Api.Table
import Netsystem.Api.RoundTrip
import Netsystem.Connection.Client
import Netsystem.Stream
import Netsystem.Api.TableRoundTrip
import Netsystem.Crc
import Netsystem.Api.BlockCrc
import Netsystem.Api.Grammar
import Netsystem.Api.Canonical
import Netsystem.Api.Schema
import Netsystem.Shmem.Contended
import Netsystem.Shmem.Commit
import Netsystem.Shmem.Attach
import Netsystem.Shmem.Guard
import Netsystem.Stats.Symlinks
import Netsystem.Connection.Lifecycle
import Netsystem.Stats.Stability
import Netsystem.Stats.Reports
import Netsystem.Stats.Memory
import Netsystem.Stats.System
import Netsystem.Stats.Families
import Netsystem.Api.FixedString
import Netsystem.Stats.Handoff
import Netsystem.AddressSpace
import Netsystem.Region.Validate
import Netsystem.Region.Header
import Netsystem.Alloc
import Netsystem.Region.Heap
import Netsystem.Region.MsgBuf
import Netsystem.Api.Measure
import Netsystem.Connection.Send
import Netsystem.Connection.Ownership
import Netsystem.Connection.Opening
import Netsystem.Connection.Contention
import Netsystem.Connection.Correlation
import Netsystem.Connection.Backlog
import Netsystem.Capacity
import Netsystem.Holdings
import Netsystem.Stats.Connect
import Netsystem.Region.Attachment
import Netsystem.Hammerctl
import Netsystem.Shmem.Concurrent
import Netsystem.Rpc
import Netsystem.Connection.Negotiation
import Netsystem.Stats.Aliases
import Netsystem.Notation
import Netsystem.Api.Declarations
