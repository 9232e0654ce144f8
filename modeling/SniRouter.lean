import SniRouter.Lib.Table
import SniRouter.Lib.Related
import SniRouter.Lib.Run
import SniRouter.Lib.Ledger
import SniRouter.Lib.FirstMatch
import SniRouter.Lib.Cursor
import SniRouter.Lib.Machine
import SniRouter.Lib.Text
import SniRouter.Lib.Arc
import SniRouter.Net
import SniRouter.Wire
import SniRouter.H3.Sni
import SniRouter.H3.CidRoutes
import SniRouter.H3.Packet
import SniRouter.H3.Config
import SniRouter.H3.Load
import SniRouter.H3.Reassembly
import SniRouter.H3.Router
import SniRouter.H3.Paths
import SniRouter.H3.Effects
import SniRouter.H3.Establish
import SniRouter.H3.Registration
import SniRouter.H3.Initials
import SniRouter.H3.Dispatch
import SniRouter.H3.Cleanup
import SniRouter.H3.Indexes
import SniRouter.H3.Handshakes
import SniRouter.H3.SharedPaths
import SniRouter.H3.Bounds
import SniRouter.H3.Conservation
import SniRouter.H3.Expiry
import SniRouter.H3.Lifetimes
import SniRouter.H3.Origin
import SniRouter.H3.Isolation
import SniRouter.H3.Completion
import SniRouter.H3.Timeouts
import SniRouter.H3.Admission
import SniRouter.H3.Affinity
import SniRouter.H3.Similar
import SniRouter.H3.Reordering
import SniRouter.Tcp.ClientHello
import SniRouter.Tcp.Handshake
import SniRouter.Tcp.Handover
import SniRouter.Tcp.Connection
import SniRouter.Tcp.Forwarding
import SniRouter.Tcp.AddrText
import SniRouter.Tcp.ProxyHeader
import SniRouter.Resolver
import SniRouter.Tcp.Routing
import SniRouter.Tcp.Load
import SniRouter.SharedConfig
import SniRouter.Tcp.Backoff
import SniRouter.Tcp.Ingress
import SniRouter.Tcp.MainLoop
import SniRouter.HelloLayout
import SniRouter.H3.Frames
import SniRouter.H3.Protection
import SniRouter.H3.FlatRoutes
import SniRouter.H3.QuicLb
import SniRouter.H3.Acls
import SniRouter.H3.Accepts
import SniRouter.H3.Stateless
import SniRouter.H3.SendQueue
import SniRouter.H3.SendDrain
import SniRouter.H3.ReceivePath
import SniRouter.H3.Delivery
import SniRouter.H3.Drain
import SniRouter.H3.Reclaim
import SniRouter.H3.Ordering
import SniRouter.H3.Links
import SniRouter.H3.Checked
import SniRouter.H3.CheckedPacket
import SniRouter.H3.LengthChecks
import SniRouter.H3.NoPanic
import SniRouter.EndToEnd
