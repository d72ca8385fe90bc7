import RustP2p.Lib.Transition
import RustP2p.Lib.CriticalSection
import RustP2p.Lib.BigEndian
import RustP2p.Lib.Memory
import RustP2p.Lib.Framing
import RustP2p.Lib.Demux
import RustP2p.Lib.Rotation
import RustP2p.Core.Std
import RustP2p.Core.Addr
import RustP2p.Core.NatInfo
import RustP2p.Core.Stun
import RustP2p.Core.StunDetection
import RustP2p.Core.PunchBackoff
import RustP2p.Core.PunchScan
import RustP2p.Core.PunchRound
import RustP2p.Core.PunchLaws
import RustP2p.Core.Assistants
import RustP2p.Core.Binding
import RustP2p.Core.SockAddr
import RustP2p.Core.TcpCodec
import RustP2p.Core.TcpWriter
import RustP2p.Core.UdpDispatcher
import RustP2p.Core.TcpLink
import RustP2p.Core.TcpFlow
import RustP2p.Core.UdpDelivery
import RustP2p.Core.UdpDemultiplexing
import RustP2p.Core.UdpWriter
import RustP2p.Core.UdpReader
import RustP2p.Core.RouteTable
import RustP2p.Core.RouteOps
import RustP2p.Core.RouteOrder
import RustP2p.Core.RouteIndex
import RustP2p.Core.RouteAdds
import RustP2p.Core.RouteRecency
import RustP2p.Core.RouteRotation
import RustP2p.Core.RouteListing
import RustP2p.Core.RouteEvolution
import RustP2p.Core.Idle
import RustP2p.Quic.Packet
import RustP2p.Quic.PacketFormat
import RustP2p.Quic.Payload
import RustP2p.Quic.PayloadFormat
import RustP2p.Quic.Transport
import RustP2p.Quic.PeerStore
import RustP2p.Quic.PinnedSends
import RustP2p.Quic.TunnelRegistry
import RustP2p.Quic.Protocol
import RustP2p.Quic.PunchTargets
import RustP2p.Quic.Handler
import RustP2p.Quic.HandlerSpec
import RustP2p.Quic.Link
import RustP2p.Quic.Frame
import RustP2p.Quic.Forwarding
import RustP2p.Quic.Observation
import RustP2p.Quic.Tasks
import RustP2p.Quic.Node
import RustP2p.Quic.NodeRoutes
import RustP2p.Quic.Observers
import RustP2p.Quic.AdvertisedAddrs
import RustP2p.Quic.EchoRtt
import RustP2p.Quic.Punching
import RustP2p.Quic.PunchWhitelist
import RustP2p.Quic.Backoff
import RustP2p.Quic.Provenance
import RustP2p.Quic.Emission
import RustP2p.Quic.Network
import RustP2p.Quic.Traffic
import RustP2p.Quic.Authenticity
import RustP2p.Quic.Overlay
import RustP2p.Quic.Discovery
import RustP2p.Quic.Delivery
import RustP2p.Quic.HelloChannel
import RustP2p.Quic.ReservedIds
import RustP2p.Quic.DirectPeers
import RustP2p.Quic.Socket
import RustP2p.Quic.Registration
import RustP2p.Quic.Connections
import RustP2p.Quic.Incoming
import RustP2p.Quic.Datagrams
import RustP2p.Quic.Bootstrap
