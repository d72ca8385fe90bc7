import RustP2p.Core.Addr

/-!
# NAT information

`NatInfo` of `nat/mod.rs`: what a peer says about how it can be reached.  Public
IPs and public ports are separate lists.  The address lists that punching goes
through are put together from them, each in its own way.
-/

namespace RustP2p

/-! ## Addresses that can be reached -/

namespace Ipv4Addr

/-- `Ipv4Addr::is_multicast`. -/
def isMulticast (ip : Ipv4Addr) : Bool := 224 ≤ ip.a ∧ ip.a ≤ 239

/-- `Ipv4Addr::BROADCAST`. -/
def broadcast : Ipv4Addr := ⟨255, 255, 255, 255⟩

/-- The address can be a local address of a peer. -/
def isUsable (ip : Ipv4Addr) : Bool :=
  ¬ (ip = unspecified ∨ ip.isMulticast ∨ ip = broadcast)

end Ipv4Addr

/-- `Ipv6Addr::LOCALHOST`, `::1`. -/
def Ipv6Addr.localhost : Ipv6Addr := ⟨(Vector.replicate 8 0).set 7 1⟩

/-- `is_ipv6_global` of `util/addr.rs`. -/
def isIpv6Global (ip : Ipv6Addr) : Bool :=
  let s := ip.segments
  ¬ (ip = Ipv6Addr.unspecified ∨ ip = Ipv6Addr.localhost
    -- IPv4-mapped addresses
    ∨ (s[0] = 0 ∧ s[1] = 0 ∧ s[2] = 0 ∧ s[3] = 0 ∧ s[4] = 0 ∧ s[5] = 0xffff)
    -- IPv4-IPv6 translation
    ∨ (s[0] = 0x64 ∧ s[1] = 0xff9b ∧ s[2] = 1)
    -- the discard-only block
    ∨ (s[0] = 0x100 ∧ s[1] = 0 ∧ s[2] = 0 ∧ s[3] = 0)
    -- protocol assignments, without those that are globally reachable
    ∨ (s[0] = 0x2001 ∧ s[1] < 0x200 ∧
        ¬ (ip = ⟨#v[0x2001, 1, 0, 0, 0, 0, 0, 1]⟩ ∨ ip = ⟨#v[0x2001, 1, 0, 0, 0, 0, 0, 2]⟩
          ∨ s[1] = 3 ∨ (s[1] = 4 ∧ s[2] = 0x112) ∨ (s[1] ≥ 0x20 ∧ s[1] ≤ 0x2F)))
    -- documentation, unique local and link local
    ∨ (s[0] = 0x2001 ∧ s[1] = 0xdb8)
    ∨ s[0] &&& 0xfe00 = 0xfc00
    ∨ s[0] &&& 0xffc0 = 0xfe80)

/-! ## The description of a peer -/

/-- `nat::NatType`. -/
inductive NatType where
  | cone
  | symmetric
deriving DecidableEq, Repr

/-- `nat::NatInfo`. -/
structure NatInfo where
  natType : NatType
  publicIps : List Ipv4Addr
  publicUdpPorts : List UInt16
  mappingTcpAddr : List SocketAddr
  mappingUdpAddr : List SocketAddr
  publicPortRange : UInt16
  localIpv4 : Ipv4Addr
  localIpv4s : List Ipv4Addr
  ipv6 : Option Ipv6Addr
  localUdpPorts : List UInt16
  localTcpPort : UInt16
  publicTcpPort : UInt16
  stunMappedPorts : List UInt16
deriving DecidableEq, Repr

/-- `NatInfo::default`. -/
def NatInfo.default : NatInfo where
  natType := .cone
  publicIps := []
  publicUdpPorts := []
  mappingTcpAddr := []
  mappingUdpAddr := []
  publicPortRange := 0
  localIpv4 := Ipv4Addr.unspecified
  localIpv4s := []
  ipv6 := none
  localUdpPorts := []
  localTcpPort := 0
  publicTcpPort := 0
  stunMappedPorts := []

namespace NatInfo

/-- `public_ipv4_addr`. -/
def publicIpv4Addr (n : NatInfo) : List SocketAddr :=
  match n.publicIps, n.publicUdpPorts with
  | [], _ => []
  | _, [] => []
  | [ip], ports => ports.map fun port => .v4 ip port
  | ips, port :: _ => ips.map fun ip => .v4 ip port

/-- `public_ipv4_tcp`. -/
def publicIpv4Tcp (n : NatInfo) : List SocketAddr :=
  if n.publicTcpPort = 0 then [] else n.publicIps.map fun ip => .v4 ip n.publicTcpPort

/-- `local_ipv4_addrs`. -/
def localIpv4Addrs (n : NatInfo) : List SocketAddr :=
  if n.localUdpPorts = [] then []
  else if n.localIpv4s ≠ [] then
    (n.localIpv4s.filter Ipv4Addr.isUsable).flatMap fun ip =>
      n.localUdpPorts.map fun port => .v4 ip port
  else if n.localIpv4.isUsable then n.localUdpPorts.map fun port => .v4 n.localIpv4 port
  else []

/-- `local_ipv4_tcp`. -/
def localIpv4Tcp (n : NatInfo) : Option SocketAddr :=
  if n.localIpv4.isUsable ∧ n.localTcpPort ≠ 0 then some (.v4 n.localIpv4 n.localTcpPort)
  else none

/-- `flag`. -/
def flag (n : NatInfo) : Option SocketAddr :=
  n.publicIpv4Addr.head? <|> n.publicIpv4Tcp.head? <|> n.localIpv4Addrs.head? <|> n.localIpv4Tcp

/-- `ipv6_udp_addr`. -/
def ipv6UdpAddr (n : NatInfo) : List SocketAddr :=
  match n.ipv6 with
  | some ipv6 =>
      if isIpv6Global ipv6 then n.localUdpPorts.map fun port => .v6 ipv6 port 0 0 else []
  | none => []

/-- `ipv6_tcp_addr`. -/
def ipv6TcpAddr (n : NatInfo) : Option SocketAddr :=
  n.ipv6.map fun ipv6 => .v6 ipv6 n.localTcpPort 0 0

/-! ## What is in the address lists -/

variable {n : NatInfo} {addr : SocketAddr}

/-- With one IP all its ports are used, with more IPs only the first port. -/
theorem mem_publicIpv4Addr :
    addr ∈ n.publicIpv4Addr ↔
      ∃ ip ∈ n.publicIps, ∃ port ∈ n.publicUdpPorts, addr = .v4 ip port ∧
        (n.publicIps = [ip] ∨ n.publicUdpPorts.head? = some port) := by
  simp only [publicIpv4Addr]
  split
  next _ h => simp [h]
  next h _ => simp [h]
  next ip h _ => simp [h, eq_comm (a := addr)]
  next port ports hports _ hone =>
    simp only [hports, List.mem_map, List.head?_cons, Option.some_inj]
    constructor
    · rintro ⟨ip, hip, rfl⟩
      exact ⟨ip, hip, port, List.mem_cons_self, rfl, .inr rfl⟩
    · rintro ⟨ip, hip, port', -, rfl, hips | rfl⟩
      · exact absurd hips (hone ip)
      · exact ⟨ip, hip, rfl⟩

theorem mem_publicIpv4Tcp :
    addr ∈ n.publicIpv4Tcp ↔
      n.publicTcpPort ≠ 0 ∧ ∃ ip ∈ n.publicIps, addr = .v4 ip n.publicTcpPort := by
  simp only [publicIpv4Tcp]
  split
  next h => simp [h]
  next h => simp [h, eq_comm (a := addr)]

theorem mem_localIpv4Addrs :
    addr ∈ n.localIpv4Addrs ↔
      ∃ ip, ip.isUsable = true ∧ (ip ∈ n.localIpv4s ∨ n.localIpv4s = [] ∧ ip = n.localIpv4) ∧
        ∃ port ∈ n.localUdpPorts, addr = .v4 ip port := by
  simp only [localIpv4Addrs]
  split
  next h => simp [h]
  next =>
    split
    next hips => simp [hips, List.mem_flatMap, and_assoc, and_left_comm, eq_comm (a := addr)]
    next hips =>
      rw [not_not] at hips
      split
      next husable => simp [hips, husable, eq_comm (a := addr)]
      next husable => simp [hips, husable]

theorem localIpv4Tcp_eq_some :
    n.localIpv4Tcp = some addr ↔
      n.localIpv4.isUsable = true ∧ n.localTcpPort ≠ 0 ∧ addr = .v4 n.localIpv4 n.localTcpPort := by
  simp only [localIpv4Tcp]
  split
  next h => simp [h, eq_comm (a := addr)]
  next h => simpa using fun husable hport _ => h ⟨husable, hport⟩

theorem mem_ipv6UdpAddr :
    addr ∈ n.ipv6UdpAddr ↔
      ∃ ip, n.ipv6 = some ip ∧ isIpv6Global ip = true ∧
        ∃ port ∈ n.localUdpPorts, addr = .v6 ip port 0 0 := by
  simp only [ipv6UdpAddr]
  split
  next ip h =>
    split
    next hglobal => simp [h, hglobal, eq_comm (a := addr)]
    next hglobal => simp [h, hglobal]
  next h => simp [h]

/-- `flag` looks at the public addresses, and at the local ones of IPv4. -/
def Flagged (n : NatInfo) : Prop :=
  (n.publicIps ≠ [] ∧ (n.publicUdpPorts ≠ [] ∨ n.publicTcpPort ≠ 0)) ∨
    (n.localUdpPorts ≠ [] ∧ ((∃ ip ∈ n.localIpv4s, ip.isUsable = true) ∨
      n.localIpv4s = [] ∧ n.localIpv4.isUsable = true)) ∨
    (n.localIpv4.isUsable = true ∧ n.localTcpPort ≠ 0)

theorem publicIpv4Addr_eq_nil_iff :
    n.publicIpv4Addr = [] ↔ n.publicIps = [] ∨ n.publicUdpPorts = [] := by
  simp only [publicIpv4Addr]
  split
  next _ h => simp [h]
  next h _ => simp [h]
  next ip h hports => simp [h]
  next ips port ports hports hne hone => simp [hports]

theorem publicIpv4Tcp_eq_nil_iff :
    n.publicIpv4Tcp = [] ↔ n.publicIps = [] ∨ n.publicTcpPort = 0 := by
  simp only [publicIpv4Tcp]
  split
  next h => simp [h]
  next h => simp [h]

theorem localIpv4Addrs_ne_nil_iff :
    n.localIpv4Addrs ≠ [] ↔ n.localUdpPorts ≠ [] ∧
      ((∃ ip ∈ n.localIpv4s, ip.isUsable = true) ∨
        n.localIpv4s = [] ∧ n.localIpv4.isUsable = true) := by
  constructor
  · intro hne
    obtain ⟨addr, haddr⟩ := List.exists_mem_of_ne_nil _ hne
    obtain ⟨ip, husable, hip, port, hport, -⟩ := mem_localIpv4Addrs.mp haddr
    refine ⟨List.ne_nil_of_mem hport, ?_⟩
    rcases hip with hip | ⟨hnil, rfl⟩
    · exact .inl ⟨ip, hip, husable⟩
    · exact .inr ⟨hnil, husable⟩
  · rintro ⟨hports, husable⟩
    obtain ⟨port, hport⟩ := List.exists_mem_of_ne_nil _ hports
    rcases husable with ⟨ip, hip, husable⟩ | ⟨hnil, husable⟩
    · exact List.ne_nil_of_mem (mem_localIpv4Addrs.mpr ⟨ip, husable, .inl hip, port, hport, rfl⟩)
    · exact List.ne_nil_of_mem
        (mem_localIpv4Addrs.mpr ⟨_, husable, .inr ⟨hnil, rfl⟩, port, hport, rfl⟩)

theorem localIpv4Tcp_eq_none_iff :
    n.localIpv4Tcp = none ↔ ¬ (n.localIpv4.isUsable = true ∧ n.localTcpPort ≠ 0) := by
  simp only [localIpv4Tcp]
  split
  next h => simp [h]
  next h => simpa using h

/-- There is no `flag` exactly when all four lists it looks at are empty. -/
theorem flag_eq_none_iff :
    n.flag = none ↔ n.publicIpv4Addr = [] ∧ n.publicIpv4Tcp = [] ∧ n.localIpv4Addrs = [] ∧
      n.localIpv4Tcp = none := by
  simp [flag]

theorem flag_ne_none_iff : n.flag ≠ none ↔ n.Flagged := by
  rw [Ne, flag_eq_none_iff, publicIpv4Addr_eq_nil_iff, publicIpv4Tcp_eq_nil_iff,
    localIpv4Tcp_eq_none_iff, Flagged, ← localIpv4Addrs_ne_nil_iff]
  tauto

end NatInfo

end RustP2p
