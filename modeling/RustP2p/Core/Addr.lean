import RustP2p.Core.Std

/-!
# Addresses and route keys

Socket addresses as `std::net` has them, and the `RouteKey` of
`route_table/mod.rs`: the protocol, the local socket address and the remote
address of one path.
-/

namespace RustP2p

/-! ## Socket addresses -/

/-- `std::net::Ipv4Addr`, by its four octets. -/
structure Ipv4Addr where
  a : UInt8
  b : UInt8
  c : UInt8
  d : UInt8
deriving DecidableEq, Repr

/-- `Ipv4Addr::UNSPECIFIED`, `0.0.0.0`. -/
def Ipv4Addr.unspecified : Ipv4Addr := ⟨0, 0, 0, 0⟩

/-- `std::net::Ipv6Addr`, by its eight segments. -/
structure Ipv6Addr where
  segments : Vector UInt16 8
deriving DecidableEq, Repr

/-- `Ipv6Addr::UNSPECIFIED`, `::`. -/
def Ipv6Addr.unspecified : Ipv6Addr := ⟨Vector.replicate 8 0⟩

/-- `std::net::IpAddr`. -/
inductive IpAddr where
  | v4 (ip : Ipv4Addr)
  | v6 (ip : Ipv6Addr)
deriving DecidableEq, Repr

/-- `IpAddr::is_unspecified`. -/
def IpAddr.isUnspecified : IpAddr → Bool
  | .v4 ip => ip = Ipv4Addr.unspecified
  | .v6 ip => ip = Ipv6Addr.unspecified

/-- `std::net::SocketAddr`. -/
inductive SocketAddr where
  | v4 (ip : Ipv4Addr) (port : UInt16)
  | v6 (ip : Ipv6Addr) (port : UInt16) (flowinfo scopeId : UInt32)
deriving DecidableEq, Repr

namespace SocketAddr

/-- `SocketAddr::new`. -/
def new : IpAddr → UInt16 → SocketAddr
  | .v4 ip, port => .v4 ip port
  | .v6 ip, port => .v6 ip port 0 0

/-- `SocketAddr::ip`. -/
def ip : SocketAddr → IpAddr
  | .v4 ip _ => .v4 ip
  | .v6 ip _ _ _ => .v6 ip

/-- `SocketAddr::port`. -/
def port : SocketAddr → UInt16
  | .v4 _ port => port
  | .v6 _ port _ _ => port

/-- `SocketAddr::is_ipv4`. -/
def isIpv4 : SocketAddr → Bool
  | .v4 .. => true
  | .v6 .. => false

end SocketAddr

/-! ## Route keys -/

/-- `route_table::Protocol`. -/
inductive Protocol where
  | udp
  | tcp
deriving DecidableEq, Repr

/-- `Protocol::is_tcp`. -/
def Protocol.isTcp (p : Protocol) : Bool := p = .tcp

/-- `route_table::RouteKey`: one path, by protocol, local and remote address. -/
structure RouteKey where
  protocol : Protocol
  localAddr : SocketAddr
  peerAddr : SocketAddr
deriving DecidableEq, Repr

end RustP2p
