import Xia.Dagaddr.Equiv.Append
import Xia.Dagaddr.Equiv.Merge
import Xia.Dagaddr.Equiv.RoundTrip
import Xia.Dagaddr.Equiv.Unparse
import Xia.Equiv.Encap
import Xia.Equiv.TypedHeader
import Xia.Nameserver.Equiv.Migrate
import Xia.Router.Equiv.Fallback
import Xia.Router.Equiv.Forwarding
import Xia.Router.Equiv.Handlers
import Xia.Transport.Equiv.Accept
import Xia.Transport.Equiv.Addresses
import Xia.Transport.Equiv.Armed
import Xia.Transport.Equiv.Connect
import Xia.Transport.Equiv.Connection
import Xia.Transport.Equiv.Digest
import Xia.Transport.Equiv.Lifetime
import Xia.Transport.Equiv.Listeners
import Xia.Transport.Equiv.Payload
import Xia.Transport.Equiv.Push
import Xia.Transport.Equiv.Requests
import Xia.Transport.Equiv.Ring
import Xia.Transport.Equiv.Sequence
import Xia.Transport.Equiv.Source
import Xia.Transport.Equiv.Wakeup
import Xia.Xcache.Equiv.Bookkeeping
import Xia.Xcache.Equiv.Capacity
import Xia.Xcache.Equiv.Failure
import Xia.Xcache.Equiv.Framing
import Xia.Xcmp.Equiv.Errors
import Xia.Xhcp.Equiv.Beacon
import Xia.Xroute.Equiv.Routes
import Xia.Xrouted.Equiv.Advertise
import Xia.Xsocket.Equiv.CheckDag
import Xia.Xsocket.Equiv.Recv
import Xia.Xssl.Equiv.Read
import Xia.Xssl.Equiv.Serialize
