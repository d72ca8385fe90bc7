import RustP2p.Core.Addr
import RustP2p.Lib.Memory

/-!
# Socket addresses for the kernel

`recvmmsg` and `sendmmsg` take socket addresses as `libc::sockaddr_storage`
(`endpoint/pool.rs`).  The port and an IPv4 address are written as numbers that are
swapped first, an IPv6 address as bytes, and flow info and scope id as the machine
stores them.  The fields are the ones Linux has, at their offsets.

An address survives the way there and back in either byte order, and its port and
address bytes lie in network order (`sockaddr_round_trip`).
-/

namespace RustP2p

open BigEndian

/-! ## Octets -/

/-- `Ipv4Addr::octets`. -/
def Ipv4Addr.octets (ip : Ipv4Addr) : List UInt8 := [ip.a, ip.b, ip.c, ip.d]

/-- `Ipv4Addr::from` of a `u32`. -/
def Ipv4Addr.fromU32 (n : Nat) : Ipv4Addr :=
  ⟨UInt8.ofNat (n / 256 ^ 3), UInt8.ofNat (n / 256 ^ 2), UInt8.ofNat (n / 256 ^ 1),
    UInt8.ofNat (n / 256 ^ 0)⟩

theorem Ipv4Addr.octets_fromU32 (n : Nat) : (fromU32 n).octets = toBeBytes 4 n := rfl

theorem Ipv4Addr.octets_inj {ip ip' : Ipv4Addr} (h : ip.octets = ip'.octets) : ip = ip' := by
  cases ip
  cases ip'
  simp only [octets, List.cons.injEq, and_true] at h
  obtain ⟨rfl, rfl, rfl, rfl⟩ := h
  rfl

theorem Ipv4Addr.fromU32_fromBeBytes (ip : Ipv4Addr) : fromU32 (fromBeBytes ip.octets) = ip :=
  octets_inj ((octets_fromU32 _).trans (toBeBytes_fromBeBytes ip.octets))

/-- `Ipv6Addr::octets`. -/
def Ipv6Addr.octets (ip : Ipv6Addr) : List UInt8 :=
  ip.segments.toList.flatMap fun segment => toBeBytes 2 segment.toNat

@[simp] theorem Ipv6Addr.length_octets (ip : Ipv6Addr) : ip.octets.length = 16 := by
  simp [octets, List.length_flatMap]

/-- `Ipv6Addr::from` of sixteen octets. -/
def Ipv6Addr.fromOctets (octets : List UInt8) : Ipv6Addr :=
  ⟨Vector.ofFn fun i => UInt16.ofNat (fromBeBytes (slice octets (2 * i) (2 * i + 2)))⟩

theorem Ipv6Addr.fromOctets_octets (ip : Ipv6Addr) : fromOctets ip.octets = ip := by
  cases ip with
  | mk segments =>
      have hsegments : ∀ i (h : i < 8),
          slice (octets ⟨segments⟩) (2 * i) (2 * i + 2) = toBeBytes 2 segments[i].toNat := by
        intro i h
        have hlength : i < segments.toList.length := by simpa using h
        have hslice := slice_flatMap
          (fun segment : UInt16 => length_toBeBytes 2 segment.toNat) hlength
        rwa [Vector.getElem_toList] at hslice
      rw [fromOctets, Ipv6Addr.mk.injEq]
      apply Vector.ext
      intro i h
      have hlt : segments[i].toNat < 256 ^ 2 := segments[i].toNat_lt
      rw [Vector.getElem_ofFn, hsegments i h, fromBeBytes_toBeBytes, Nat.mod_eq_of_lt hlt,
        UInt16.ofNat_toNat]

/-- `IpAddr::octets`. -/
def IpAddr.octets : IpAddr → List UInt8
  | .v4 ip => ip.octets
  | .v6 ip => ip.octets

/-! ## Storage -/

/-- `libc::AF_INET`. -/
def AF_INET : Nat := 2

/-- `libc::AF_INET6`. -/
def AF_INET6 : Nat := 10

/-- `libc::sockaddr_storage`. -/
abbrev SockaddrStorage := Memory 128

/-- The size of `libc::sockaddr_in`. -/
def sockaddrInSize : Nat := 16

/-- The size of `libc::sockaddr_in6`. -/
def sockaddrIn6Size : Nat := 28

namespace SockaddrStorage

variable (endian : Endian) (storage : SockaddrStorage)

/-- `ss_family`. -/
def family : Nat := fromNeBytes endian (storage.read 0 2)

/-- `sin_port` and `sin6_port`. -/
def port : Nat := fromNeBytes endian (storage.read 2 4)

/-- `sin_addr.s_addr`. -/
def sAddr : Nat := fromNeBytes endian (storage.read 4 8)

/-- `sin6_flowinfo`. -/
def flowinfo : Nat := fromNeBytes endian (storage.read 4 8)

/-- `sin6_addr.s6_addr`. -/
def s6Addr : List UInt8 := storage.read 8 24

/-- `sin6_scope_id`. -/
def scopeId : Nat := fromNeBytes endian (storage.read 24 28)

/-- The bytes of `sin_addr` or of `sin6_addr`. -/
def addrBytes (isIpv4 : Bool) : List UInt8 :=
  if isIpv4 then storage.read 4 8 else storage.read 8 24

end SockaddrStorage

/-- `socket_addr_to_sockaddr`. -/
def socketAddrToSockaddr (endian : Endian) : SocketAddr → SockaddrStorage × Nat
  | .v4 ip port =>
      ((((Memory.zeroed 128).write 0 (toNeBytes endian 2 AF_INET) (by simp)).write
          2 (toNeBytes endian 2 (toBe endian 2 port.toNat)) (by simp)).write
          4 (toNeBytes endian 4 (fromNeBytes endian ip.octets)) (by simp),
        sockaddrInSize)
  | .v6 ip port flowinfo scopeId =>
      ((((((Memory.zeroed 128).write 0 (toNeBytes endian 2 AF_INET6) (by simp)).write
          2 (toNeBytes endian 2 (toBe endian 2 port.toNat)) (by simp)).write
          4 (toNeBytes endian 4 flowinfo.toNat) (by simp)).write
          8 ip.octets (by simp)).write
          24 (toNeBytes endian 4 scopeId.toNat) (by simp),
        sockaddrIn6Size)

/-- `sockaddr_to_socket_addr`. -/
def sockaddrToSocketAddr (endian : Endian) (storage : SockaddrStorage) (len : Nat) :
    IoResult SocketAddr :=
  let family := storage.family endian
  if family = AF_INET ∧ sockaddrInSize ≤ len then
    .ok (.v4 (Ipv4Addr.fromU32 (toBe endian 4 (storage.sAddr endian)))
      (UInt16.ofNat (toBe endian 2 (storage.port endian))))
  else if family = AF_INET6 ∧ sockaddrIn6Size ≤ len then
    .ok (.v6 (Ipv6Addr.fromOctets (storage.s6Addr))
      (UInt16.ofNat (toBe endian 2 (storage.port endian)))
      (UInt32.ofNat (storage.flowinfo endian))
      (UInt32.ofNat (storage.scopeId endian)))
  else
    .error ⟨.invalidData, "unsupported sockaddr family or length: family=" ++ toString family ++
      ", len=" ++ toString len⟩

/-! ## The round trip -/

section RoundTrip

variable (endian : Endian)

/-- The fields of a `sockaddr_in` as they are written. -/
theorem sockaddr_in_fields (ip : Ipv4Addr) (port : UInt16) :
    (socketAddrToSockaddr endian (.v4 ip port)).1.read 0 2 = toNeBytes endian 2 AF_INET ∧
      (socketAddrToSockaddr endian (.v4 ip port)).1.read 2 4 = toBeBytes 2 port.toNat ∧
      (socketAddrToSockaddr endian (.v4 ip port)).1.read 4 8 = ip.octets := by
  simp only [socketAddrToSockaddr]
  refine ⟨?_, ?_, ?_⟩
  · rw [Memory.read_write_of_disjoint _ (by decide) (by simp),
      Memory.read_write_of_disjoint _ (by decide) (by simp), Memory.read_write _ (by simp)]
  · rw [Memory.read_write_of_disjoint _ (by decide) (by simp), Memory.read_write _ (by simp),
      toNeBytes_toBe]
  · rw [Memory.read_write _ (by simp)]
    exact toNeBytes_fromNeBytes endian ip.octets

/-- The fields of a `sockaddr_in6` as they are written. -/
theorem sockaddr_in6_fields (ip : Ipv6Addr) (port : UInt16) (flowinfo scopeId : UInt32) :
    (socketAddrToSockaddr endian (.v6 ip port flowinfo scopeId)).1.read 0 2 =
        toNeBytes endian 2 AF_INET6 ∧
      (socketAddrToSockaddr endian (.v6 ip port flowinfo scopeId)).1.read 2 4 =
        toBeBytes 2 port.toNat ∧
      (socketAddrToSockaddr endian (.v6 ip port flowinfo scopeId)).1.read 4 8 =
        toNeBytes endian 4 flowinfo.toNat ∧
      (socketAddrToSockaddr endian (.v6 ip port flowinfo scopeId)).1.read 8 24 = ip.octets ∧
      (socketAddrToSockaddr endian (.v6 ip port flowinfo scopeId)).1.read 24 28 =
        toNeBytes endian 4 scopeId.toNat := by
  simp only [socketAddrToSockaddr]
  refine ⟨?_, ?_, ?_, ?_, ?_⟩
  · iterate 4 rw [Memory.read_write_of_disjoint _ (by decide) (by simp)]
    exact Memory.read_write _ (by simp)
  · iterate 3 rw [Memory.read_write_of_disjoint _ (by decide) (by simp)]
    rw [Memory.read_write _ (by simp), toNeBytes_toBe]
  · iterate 2 rw [Memory.read_write_of_disjoint _ (by decide) (by simp)]
    exact Memory.read_write _ (by simp)
  · rw [Memory.read_write_of_disjoint _ (by decide) (by simp)]
    exact Memory.read_write _ (by simp)
  · exact Memory.read_write _ (by simp)

/-- A number that the machine stored is the number it reads. -/
theorem fromNeBytes_stored {width n : Nat} (h : n < 256 ^ width) :
    fromNeBytes endian (toNeBytes endian width n) = n :=
  (fromNeBytes_toNeBytes endian width n).trans (Nat.mod_eq_of_lt h)

theorem fromNeBytes_u32 (n : UInt32) :
    UInt32.ofNat (fromNeBytes endian (toNeBytes endian 4 n.toNat)) = n := by
  rw [fromNeBytes_stored endian n.toNat_lt, UInt32.ofNat_toNat]

/-- The port is read from its bytes in network order. -/
theorem port_of_network {storage : SockaddrStorage} {port : UInt16}
    (h : storage.read 2 4 = toBeBytes 2 port.toNat) :
    UInt16.ofNat (toBe endian 2 (storage.port endian)) = port := by
  have hlt : port.toNat < 256 ^ 2 := port.toNat_lt
  have hport := toBe_fromNeBytes endian (toBeBytes 2 port.toNat)
  rw [length_toBeBytes, fromBeBytes_toBeBytes, Nat.mod_eq_of_lt hlt] at hport
  rw [SockaddrStorage.port, h, hport, UInt16.ofNat_toNat]

theorem sockaddrToSocketAddr_v4 (ip : Ipv4Addr) (port : UInt16) :
    sockaddrToSocketAddr endian (socketAddrToSockaddr endian (.v4 ip port)).1 sockaddrInSize =
      .ok (.v4 ip port) := by
  obtain ⟨hfamily, hport, haddr⟩ := sockaddr_in_fields endian ip port
  have hinet : (socketAddrToSockaddr endian (.v4 ip port)).1.family endian = AF_INET := by
    rw [SockaddrStorage.family, hfamily, fromNeBytes_stored endian (by decide)]
  have hip : toBe endian 4 ((socketAddrToSockaddr endian (.v4 ip port)).1.sAddr endian) =
      fromBeBytes ip.octets := by
    rw [SockaddrStorage.sAddr, haddr]
    exact toBe_fromNeBytes endian ip.octets
  simp only [sockaddrToSocketAddr]
  rw [if_pos ⟨hinet, Nat.le_refl _⟩, hip, Ipv4Addr.fromU32_fromBeBytes,
    port_of_network endian hport]

theorem sockaddrToSocketAddr_v6 (ip : Ipv6Addr) (port : UInt16) (flowinfo scopeId : UInt32) :
    sockaddrToSocketAddr endian (socketAddrToSockaddr endian (.v6 ip port flowinfo scopeId)).1
      sockaddrIn6Size = .ok (.v6 ip port flowinfo scopeId) := by
  obtain ⟨hfamily, hport, hflowinfo, haddr, hscopeId⟩ :=
    sockaddr_in6_fields endian ip port flowinfo scopeId
  have hinet6 : (socketAddrToSockaddr endian (.v6 ip port flowinfo scopeId)).1.family endian =
      AF_INET6 := by
    rw [SockaddrStorage.family, hfamily, fromNeBytes_stored endian (by decide)]
  have hinet : ¬ (AF_INET6 = AF_INET ∧ sockaddrInSize ≤ sockaddrIn6Size) := by decide
  simp only [sockaddrToSocketAddr]
  rw [hinet6, if_neg hinet, if_pos ⟨rfl, Nat.le_refl _⟩, port_of_network endian hport]
  simp only [SockaddrStorage.s6Addr, SockaddrStorage.flowinfo, SockaddrStorage.scopeId, haddr,
    hflowinfo, hscopeId, Ipv6Addr.fromOctets_octets, fromNeBytes_u32]

/-- What was written for an address is read as that address, in either byte order, and
the port and address bytes lie in network order. -/
theorem sockaddr_round_trip (addr : SocketAddr) :
    sockaddrToSocketAddr endian (socketAddrToSockaddr endian addr).1
        (socketAddrToSockaddr endian addr).2 = .ok addr ∧
      (socketAddrToSockaddr endian addr).1.read 2 4 = toBeBytes 2 addr.port.toNat ∧
      (socketAddrToSockaddr endian addr).1.addrBytes addr.isIpv4 = addr.ip.octets := by
  cases addr with
  | v4 ip port =>
      obtain ⟨-, hport, haddr⟩ := sockaddr_in_fields endian ip port
      exact ⟨sockaddrToSocketAddr_v4 endian ip port, hport, haddr⟩
  | v6 ip port flowinfo scopeId =>
      obtain ⟨-, hport, -, haddr, -⟩ := sockaddr_in6_fields endian ip port flowinfo scopeId
      exact ⟨sockaddrToSocketAddr_v6 endian ip port flowinfo scopeId, hport, haddr⟩

end RoundTrip

end RustP2p
