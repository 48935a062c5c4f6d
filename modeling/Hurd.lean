import Hurd.Lib.OrdMap
import Hurd.Lib.Transition
import Hurd.Libpager.Page
import Hurd.Libpager.Frame
import Hurd.Libpager.Handlers
import Hurd.Libpager.Locality
import Hurd.Libpager.Projection
import Hurd.Libpager.Exclusive
import Hurd.Libpager.Waiting
import Hurd.Libpager.Answers
import Hurd.Libpager.Dropped
import Hurd.Libpager.Destructor
import Hurd.Libpager.System
import Hurd.Libpager.Spot
import Hurd.Libpager.Orderly
import Hurd.Libpager.Possession
import Hurd.Libpager.Transfer
import Hurd.Libpager.Grants
import Hurd.Libpager.Versions
import Hurd.Libpager.Asserts
import Hurd.Libpager.Inhibit
import Hurd.Libpager.Errors
import Hurd.Libpager.FailedWrites
import Hurd.Libpager.NextErrors
import Hurd.Libpager.LockObject
import Hurd.Libpager.Unlocks
import Hurd.Libpager.Balance
import Hurd.Libpager.WaitOnce
import Hurd.Libpager.Batch
import Hurd.Libpager.Syncing
import Hurd.Libpager.Shutdown
import Hurd.Libpager.Sharing
import Hurd.Libpager.Accounting
import Hurd.Lib.Lockstep
import Hurd.Lib.Traverse
import Hurd.Lib.Inverse
import Hurd.Netmsg.Delivery
import Hurd.Netmsg.RoundTrip
import Hurd.Netmsg.Overtaking
import Hurd.Netmsg.ProxiedOnce
import Hurd.Netmsg.Framing
import Hurd.Netmsg.ItemSize
import Hurd.Netmsg.Accesses
import Hurd.Netmsg.RunQueues
import Hurd.Netmsg.Discarded
import Hurd.Netmsg.Exceptions
import Hurd.Netmsg.ReplyPorts
import Hurd.Netmsg.OneRight
import Hurd.Netmsg.Walking
import Hurd.Netmsg.ItemLoops
import Hurd.Netmsg.Exchanges
import Hurd.Netmsg.Ends
import Hurd.Libpager.FaultSafe
import Hurd.Libpager.Wakeups
import Hurd.Libpager.LinkedRequests
import Hurd.Netmsg.ByteStreams
import Hurd.Libpager.Service
