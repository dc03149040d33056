import Skull.Lib.Machine
import Skull.Lib.RWLock
import Skull.Lib.Network
import Skull.Lib.Framing
import Skull.Lib.Lifecycle
import Skull.Service.Exclusion
import Skull.Service.Room
import Skull.Entity.Client
import Skull.Entity.Destruction
import Skull.Entity.Pipelining
import Skull.Entity.Stream
import Skull.Txn.Resume
import Skull.Txn.Sticky
import Skull.Txn.Contain
import Skull.Endpoint.Errors
import Skull.Common.Mbuf
import Skull.Pto.Checksum
import Skull.Common.Mon
import Skull.Common.Malloc
import Skull.Script.AddrRemap
import Skull.Entity.Manager
import Skull.Entity.Status
import Skull.Endpoint.Represent
import Skull.Endpoint.Shutdown
import Skull.Endpoint.PingPong
import Skull.Sched.Routing
import Skull.Sched.Roundrobin
import Skull.Core.Stdin
import Skull.Core.Workflows
import Skull.Script.AddrMaps
import Skull.Core.Admin
import Skull.Script.ConfigEdit
import Skull.User.Unpack
import Skull.User.Buffers
import Skull.Entity.Datagram
import Skull.Endpoint.TimerLife
import Skull.Sched.Io
import Skull.Service.JobLife
import Skull.Txn.Ops
import Skull.Txn.Deployed
import Skull.Txn.Work
import Skull.Txn.Aborts
import Skull.Txn.Calls
import Skull.Txn.Rest
import Skull.Txn.Confined
import Skull.Sched.Loops
import Skull.Sched.Wakeup
import Skull.Sched.Teardown
import Skull.Sched.Settle
import Skull.Entity.Cleanup
import Skull.Entity.Order
import Skull.Txn.Turns
import Skull.Server.Server
import Skull.Server.Books
import Skull.Server.Steps
import Skull.Server.Handlers
import Skull.Server.Faults
import Skull.Server.Responses
