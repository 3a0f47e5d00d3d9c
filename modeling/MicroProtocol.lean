import MicroProtocol.Lib.BigEndian
import MicroProtocol.Lib.Machine
import MicroProtocol.Lib.Framing
import MicroProtocol.Lib.Utf8
import MicroProtocol.Lib.Custody
import MicroProtocol.Lib.Typestate
import MicroProtocol.Lib.Storage
import MicroProtocol.Lib.Logged
import MicroProtocol.Lib.Faulty
import MicroProtocol.Lib.Growable
import MicroProtocol.Lib.Relational
import MicroProtocol.Lib.Checked
import MicroProtocol.Lib.BitSet
import MicroProtocol.Protocol.Types
import MicroProtocol.Protocol.Wire
import MicroProtocol.Protocol.Frame
import MicroProtocol.Protocol.FrameEncode
import MicroProtocol.Protocol.FrameExtensions
import MicroProtocol.Protocol.FrameProbe
import MicroProtocol.Protocol.FrameRoundTrip
import MicroProtocol.Protocol.EncodeSanitized
import MicroProtocol.Protocol.DecodeSanitized
import MicroProtocol.Protocol.Allocation
import MicroProtocol.Protocol.StreamDecoder
import MicroProtocol.Protocol.StreamMemory
import MicroProtocol.Protocol.StreamSafety
import MicroProtocol.Protocol.StreamCost
import MicroProtocol.Protocol.StreamAllocation
import MicroProtocol.Protocol.ExceptionSafety
import MicroProtocol.Protocol.StreamDelivery
import MicroProtocol.Protocol.StreamReading
import MicroProtocol.Protocol.Agreement
import MicroProtocol.Protocol.Text
import MicroProtocol.Protocol.Binary
import MicroProtocol.Protocol.BinaryPrograms
import MicroProtocol.Protocol.Negotiation
import MicroProtocol.Transport.Types
import MicroProtocol.Transport.Native
import MicroProtocol.Transport.Sockets
import MicroProtocol.Transport.Tcp
import MicroProtocol.Transport.Udp
import MicroProtocol.Transport.World
import MicroProtocol.Transport.Calls
import MicroProtocol.Transport.AddressFallback
import MicroProtocol.Transport.UdpTraffic
import MicroProtocol.Transport.NoNetwork
import MicroProtocol.Transport.Ownership
import MicroProtocol.Transport.SocketProtocol
import MicroProtocol.Transport.SocketRuns
import MicroProtocol.Transport.Invariants
import MicroProtocol.Transport.Alike
import MicroProtocol.Transport.Twins
import MicroProtocol.Transport.TwinWorlds
import MicroProtocol.Transport.Platforms
import MicroProtocol.Transport.SendAll
import MicroProtocol.Transport.Traffic
import MicroProtocol.Transport.Reconnect
import MicroProtocol.Transport.Backoff
import MicroProtocol.Transport.UdpFamily
import MicroProtocol.Transport.Lifecycle
import MicroProtocol.Transport.UdpFallback
import MicroProtocol.Transport.UdpCache
import MicroProtocol.Security.SecureBuffer
import MicroProtocol.Security.SecretStorage
import MicroProtocol.Security.Permissions
import MicroProtocol.Security.Authentication
import MicroProtocol.System.Connection
import MicroProtocol.System.Progress
import MicroProtocol.System.Proxies
import MicroProtocol.System.ReceiveLoop
import MicroProtocol.System.DatagramNetwork
