import RustP2p.Core.NatInfo
import RustP2p.Quic.Packet

/-!
# Control payloads

The payloads of the control packets, and their conversion to and from the
protobuf messages of `proto/rustp2p_quic.proto` (`pb` in `protocol.rs`).

Two things come from outside the sources: the protobuf encoder and decoder of
each message, and the text form of addresses.  Both are fields of `Codec`, which
every function that reads or writes a payload takes as an argument.
`Codec.Faithful` is what the network results assume of it: a message that
decodes from its own encoding is that message.
-/

namespace RustP2p

/-! ## Payload types -/

/-- `transport::PeerInfo`. -/
structure PeerInfo where
  peerId : PeerId
  addrs : List SocketAddr
  relayHint : Option PeerId
  lastSeen : UInt64
  isDirect : Bool
  natInfo : Option NatInfo
deriving DecidableEq, Repr

/-- `protocol::RouteEntry`. -/
structure RouteEntry where
  peer : PeerInfo
  metric : UInt8
deriving DecidableEq, Repr

/-- `protocol::ObservedProtocol`. -/
inductive ObservedProtocol where
  | udp
  | tcp
deriving DecidableEq, Repr

/-- `From<Protocol> for ObservedProtocol`. -/
def ObservedProtocol.ofProtocol : Protocol → ObservedProtocol
  | .udp => .udp
  | .tcp => .tcp

/-- `protocol::NatObservation`. -/
structure NatObservation where
  observedProtocol : ObservedProtocol
  observedAddr : SocketAddr
  observerPeerId : PeerId
  observedAt : UInt64
deriving DecidableEq, Repr

/-- `protocol::HelloPayload`. -/
structure HelloPayload where
  peer : PeerInfo
  peers : List RouteEntry
  observedAddr : Option NatObservation
deriving DecidableEq, Repr

/-- `protocol::RouteReplyPayload`. -/
structure RouteReplyPayload where
  peers : List RouteEntry
deriving DecidableEq, Repr

/-- `protocol::PunchPayload`. -/
structure PunchPayload where
  requestId : UInt64
  src : PeerId
  dest : PeerId
  natInfo : NatInfo
deriving DecidableEq, Repr

/-- `protocol::NatObserveReplyPayload`. -/
structure NatObserveReplyPayload where
  observation : NatObservation
deriving DecidableEq, Repr

/-! ## Protobuf messages -/

namespace Pb

/-- Message `NatInfo`.  An enumeration field is an `i32`. -/
structure NatInfo where
  natType : Int32
  publicIps : List String
  publicUdpPorts : List UInt32
  mappingTcpAddr : List String
  mappingUdpAddr : List String
  publicPortRange : UInt32
  localIpv4 : String
  localIpv4s : List String
  ipv6 : String
  localUdpPorts : List UInt32
  localTcpPort : UInt32
  publicTcpPort : UInt32
  stunMappedPorts : List UInt32
deriving DecidableEq, Repr

/-- Message `PeerInfo`. -/
structure PeerInfo where
  peerId : String
  addrs : List String
  relayHint : String
  lastSeen : UInt64
  isDirect : Bool
  natInfo : Option NatInfo
deriving DecidableEq, Repr

/-- Message `RouteEntry`. -/
structure RouteEntry where
  peer : Option PeerInfo
  metric : UInt32
deriving DecidableEq, Repr

/-- Message `NatObservation`. -/
structure NatObservation where
  observedProtocol : Int32
  observedAddr : String
  observerPeerId : String
  observedAt : UInt64
deriving DecidableEq, Repr

/-- Message `HelloPayload`. -/
structure HelloPayload where
  peer : Option PeerInfo
  peers : List RouteEntry
  observedAddr : Option NatObservation
deriving DecidableEq, Repr

/-- Message `RouteReplyPayload`. -/
structure RouteReplyPayload where
  peers : List RouteEntry
deriving DecidableEq, Repr

/-- Message `PunchPayload`. -/
structure PunchPayload where
  requestId : UInt64
  src : String
  dest : String
  natInfo : Option NatInfo
deriving DecidableEq, Repr

/-- Message `NatObserveReplyPayload`. -/
structure NatObserveReplyPayload where
  observation : Option NatObservation
deriving DecidableEq, Repr

end Pb

/-! ## What comes from outside -/

/-- `prost::Message` for one message type. -/
structure Message (μ : Type) where
  /-- `encode_to_vec`. -/
  encode : μ → List UInt8
  /-- `decode`, with the text of its error. -/
  decode : List UInt8 → Except String μ

/-- `ToString` and `FromStr` for one address type. -/
structure Text (α : Type) where
  /-- `to_string`. -/
  format : α → String
  /-- `parse`, with the text of its error. -/
  parse : String → Except String α

/-- The protobuf codec of each message and the text form of addresses. -/
structure Codec where
  hello : Message Pb.HelloPayload
  routeReply : Message Pb.RouteReplyPayload
  punch : Message Pb.PunchPayload
  natObserveReply : Message Pb.NatObserveReplyPayload
  socketAddr : Text SocketAddr
  ipv4 : Text Ipv4Addr
  ipv6 : Text Ipv6Addr

/-- Decoding what was encoded never gives another message. -/
def Message.Faithful {μ : Type} (c : Message μ) : Prop :=
  ∀ m m', c.decode (c.encode m) = .ok m' → m' = m

/-- The messages that name peers are faithful. -/
structure Codec.Faithful (c : Codec) : Prop where
  hello : c.hello.Faithful
  routeReply : c.routeReply.Faithful
  punch : c.punch.Faithful

/-- A codec for the messages of a table, by their encodings. -/
def Message.ofTable {μ : Type} [DecidableEq μ] (table : List (μ × List UInt8)) : Message μ where
  encode m := ((table.find? fun e => e.1 = m).map Prod.snd).getD [0xff]
  decode bytes := match table.find? fun e => e.2 = bytes with
    | some e => .ok e.1
    | none => .error "invalid wire type"

/-- The text form of the values of a table. -/
def Text.ofTable {α : Type} [DecidableEq α] (table : List (α × String)) : Text α where
  format a := ((table.find? fun e => e.1 = a).map Prod.snd).getD ""
  parse text := match table.find? fun e => e.2 = text with
    | some e => .ok e.1
    | none => .error "invalid address syntax"

/-- The codec with empty tables, to be filled with the messages of a run. -/
def Codec.empty : Codec :=
  ⟨.ofTable [], .ofTable [], .ofTable [], .ofTable [], .ofTable [], .ofTable [], .ofTable []⟩

/-! ## Checked fields -/

/-- `required`. -/
def required {α : Type} (value : Option α) (field : String) : IoResult α :=
  match value with
  | some v => .ok v
  | none => .error ⟨.invalidData, "missing protobuf field: " ++ field⟩

/-- The three `parse_*` helpers: parse a text field, naming it in the error. -/
def parseText {α : Type} (text : Text α) (field value : String) : IoResult α :=
  match text.parse value with
  | .ok v => .ok v
  | .error e => .error ⟨.invalidData, "invalid " ++ field ++ ": " ++ value ++ ": " ++ e⟩

/-- `parse_socket_addr`. -/
def parseSocketAddr (c : Codec) (field value : String) : IoResult SocketAddr :=
  parseText c.socketAddr field value

/-- `parse_ipv4`. -/
def parseIpv4 (c : Codec) (field value : String) : IoResult Ipv4Addr := parseText c.ipv4 field value

/-- `parse_ipv6`. -/
def parseIpv6 (c : Codec) (field value : String) : IoResult Ipv6Addr := parseText c.ipv6 field value

/-- `parse_ipv4_or_unspecified`. -/
def parseIpv4OrUnspecified (c : Codec) (field value : String) : IoResult Ipv4Addr :=
  if value = "" then .ok Ipv4Addr.unspecified else parseIpv4 c field value

/-- `checked_u16`. -/
def checkedU16 (field : String) (value : UInt32) : IoResult UInt16 :=
  if value.toNat < 65536 then .ok value.toUInt16
  else .error ⟨.invalidData, field ++ " exceeds u16: " ++ toString value⟩

/-- `checked_u8`. -/
def checkedU8 (field : String) (value : UInt32) : IoResult UInt8 :=
  if value.toNat < 256 then .ok value.toUInt8
  else .error ⟨.invalidData, field ++ " exceeds u8: " ++ toString value⟩

/-- `checked_u16_vec`. -/
def checkedU16Vec (field : String) (values : List UInt32) : IoResult (List UInt16) :=
  values.mapM (checkedU16 field)

/-! ## NAT information -/

/-- `nat_info_to_pb`. -/
def natInfoToPb (c : Codec) (info : NatInfo) : Pb.NatInfo where
  natType := match info.natType with
    | .cone => 0
    | .symmetric => 1
  publicIps := info.publicIps.map c.ipv4.format
  publicUdpPorts := info.publicUdpPorts.map UInt16.toUInt32
  mappingTcpAddr := info.mappingTcpAddr.map c.socketAddr.format
  mappingUdpAddr := info.mappingUdpAddr.map c.socketAddr.format
  publicPortRange := info.publicPortRange.toUInt32
  localIpv4 := c.ipv4.format info.localIpv4
  localIpv4s := info.localIpv4s.map c.ipv4.format
  ipv6 := (info.ipv6.map c.ipv6.format).getD ""
  localUdpPorts := info.localUdpPorts.map UInt16.toUInt32
  localTcpPort := info.localTcpPort.toUInt32
  publicTcpPort := info.publicTcpPort.toUInt32
  stunMappedPorts := info.stunMappedPorts.map UInt16.toUInt32

/-- `pb::NatType::try_from`, with the error of `nat_info_from_pb`. -/
def natTypeFromPb (natType : Int32) : IoResult NatType :=
  if natType = 0 then .ok .cone
  else if natType = 1 then .ok .symmetric
  else .error ⟨.invalidData, "invalid nat type: " ++ toString natType⟩

/-- `nat_info_from_pb`. -/
def natInfoFromPb (c : Codec) (info : Pb.NatInfo) : IoResult NatInfo := do
  let natType ← natTypeFromPb info.natType
  let publicIps ← info.publicIps.mapM (parseIpv4 c "nat.public_ips")
  let publicUdpPorts ← checkedU16Vec "nat.public_udp_ports" info.publicUdpPorts
  let mappingTcpAddr ← info.mappingTcpAddr.mapM (parseSocketAddr c "nat.mapping_tcp_addr")
  let mappingUdpAddr ← info.mappingUdpAddr.mapM (parseSocketAddr c "nat.mapping_udp_addr")
  let publicPortRange ← checkedU16 "nat.public_port_range" info.publicPortRange
  let localIpv4 ← parseIpv4OrUnspecified c "nat.local_ipv4" info.localIpv4
  let localIpv4s ← info.localIpv4s.mapM (parseIpv4 c "nat.local_ipv4s")
  let ipv6 ← if info.ipv6 = "" then pure none else some <$> parseIpv6 c "nat.ipv6" info.ipv6
  let localUdpPorts ← checkedU16Vec "nat.local_udp_ports" info.localUdpPorts
  let localTcpPort ← checkedU16 "nat.local_tcp_port" info.localTcpPort
  let publicTcpPort ← checkedU16 "nat.public_tcp_port" info.publicTcpPort
  let stunMappedPorts ← checkedU16Vec "nat.stun_mapped_ports" info.stunMappedPorts
  return ⟨natType, publicIps, publicUdpPorts, mappingTcpAddr, mappingUdpAddr, publicPortRange,
    localIpv4, localIpv4s, ipv6, localUdpPorts, localTcpPort, publicTcpPort, stunMappedPorts⟩

/-- `nat_observation_to_pb`. -/
def natObservationToPb (c : Codec) (observation : NatObservation) : Pb.NatObservation where
  observedProtocol := match observation.observedProtocol with
    | .udp => 0
    | .tcp => 1
  observedAddr := c.socketAddr.format observation.observedAddr
  observerPeerId := observation.observerPeerId.value
  observedAt := observation.observedAt

/-- `nat_observation_from_pb`. -/
def natObservationFromPb (c : Codec) (observation : Pb.NatObservation) :
    IoResult NatObservation := do
  let observedProtocol ←
    if observation.observedProtocol = 0 then .ok .udp
    else if observation.observedProtocol = 1 then .ok .tcp
    else .error ⟨.invalidData,
      "invalid observed protocol: " ++ toString observation.observedProtocol⟩
  let observedAddr ←
    parseSocketAddr c "nat_observation.observed_addr" observation.observedAddr
  return ⟨observedProtocol, observedAddr, ⟨observation.observerPeerId⟩, observation.observedAt⟩

/-! ## Peers and routes -/

/-- `peer_info_to_pb`. -/
def peerInfoToPb (c : Codec) (peer : PeerInfo) : Pb.PeerInfo where
  peerId := peer.peerId.value
  addrs := peer.addrs.map c.socketAddr.format
  relayHint := (peer.relayHint.map PeerId.value).getD ""
  lastSeen := peer.lastSeen
  isDirect := peer.isDirect
  natInfo := peer.natInfo.map (natInfoToPb c)

/-- `peer_info_from_pb`. -/
def peerInfoFromPb (c : Codec) (peer : Pb.PeerInfo) : IoResult PeerInfo := do
  let addrs ← peer.addrs.mapM (parseSocketAddr c "peer.addrs")
  let relayHint := if peer.relayHint = "" then none else some ⟨peer.relayHint⟩
  let natInfo ← peer.natInfo.mapM (natInfoFromPb c)
  return ⟨⟨peer.peerId⟩, addrs, relayHint, peer.lastSeen, peer.isDirect, natInfo⟩

/-- `route_entry_to_pb`. -/
def routeEntryToPb (c : Codec) (entry : RouteEntry) : Pb.RouteEntry where
  peer := some (peerInfoToPb c entry.peer)
  metric := entry.metric.toUInt32

/-- `route_entry_from_pb`. -/
def routeEntryFromPb (c : Codec) (entry : Pb.RouteEntry) : IoResult RouteEntry := do
  let peer ← required entry.peer "route_entry.peer"
  let peer ← peerInfoFromPb c peer
  let metric ← checkedU8 "route_entry.metric" entry.metric
  return ⟨peer, metric⟩

/-- `route_reply_payload_to_pb`. -/
def routeReplyPayloadToPb (c : Codec) (payload : RouteReplyPayload) : Pb.RouteReplyPayload where
  peers := payload.peers.map (routeEntryToPb c)

/-- `route_reply_payload_from_pb`. -/
def routeReplyPayloadFromPb (c : Codec) (payload : Pb.RouteReplyPayload) :
    IoResult RouteReplyPayload := do
  let peers ← payload.peers.mapM (routeEntryFromPb c)
  return ⟨peers⟩

/-- `hello_payload_to_pb`. -/
def helloPayloadToPb (c : Codec) (payload : HelloPayload) : Pb.HelloPayload where
  peer := some (peerInfoToPb c payload.peer)
  peers := payload.peers.map (routeEntryToPb c)
  observedAddr := payload.observedAddr.map (natObservationToPb c)

/-- `hello_payload_from_pb`. -/
def helloPayloadFromPb (c : Codec) (payload : Pb.HelloPayload) : IoResult HelloPayload := do
  let peer ← required payload.peer "hello.peer"
  let peer ← peerInfoFromPb c peer
  let peers ← payload.peers.mapM (routeEntryFromPb c)
  let observedAddr ← payload.observedAddr.mapM (natObservationFromPb c)
  return ⟨peer, peers, observedAddr⟩

/-! ## Punching and observation -/

/-- `punch_payload_to_pb`. -/
def punchPayloadToPb (c : Codec) (payload : PunchPayload) : Pb.PunchPayload where
  requestId := payload.requestId
  src := payload.src.value
  dest := payload.dest.value
  natInfo := some (natInfoToPb c payload.natInfo)

/-- `punch_payload_from_pb`. -/
def punchPayloadFromPb (c : Codec) (payload : Pb.PunchPayload) : IoResult PunchPayload := do
  let natInfo ← required payload.natInfo "punch.nat_info"
  let natInfo ← natInfoFromPb c natInfo
  return ⟨payload.requestId, ⟨payload.src⟩, ⟨payload.dest⟩, natInfo⟩

/-- `nat_observe_reply_payload_to_pb`. -/
def natObserveReplyPayloadToPb (c : Codec) (payload : NatObserveReplyPayload) :
    Pb.NatObserveReplyPayload where
  observation := some (natObservationToPb c payload.observation)

/-- `nat_observe_reply_payload_from_pb`. -/
def natObserveReplyPayloadFromPb (c : Codec) (payload : Pb.NatObserveReplyPayload) :
    IoResult NatObserveReplyPayload := do
  let observation ← required payload.observation "nat_observe_reply.observation"
  let observation ← natObservationFromPb c observation
  return ⟨observation⟩

/-! ## Encoding and decoding -/

/-- `decode_msg`. -/
def decodeMsg {μ : Type} (message : Message μ) (payload : List UInt8) : IoResult μ :=
  match message.decode payload with
  | .ok m => .ok m
  | .error e => .error ⟨.invalidData, "protobuf: " ++ e⟩

/-- `encode_hello_payload`. -/
def encodeHelloPayload (c : Codec) (payload : HelloPayload) : List UInt8 :=
  c.hello.encode (helloPayloadToPb c payload)

/-- `decode_hello_payload`. -/
def decodeHelloPayload (c : Codec) (payload : List UInt8) : IoResult HelloPayload := do
  helloPayloadFromPb c (← decodeMsg c.hello payload)

/-- `encode_route_reply_payload`. -/
def encodeRouteReplyPayload (c : Codec) (payload : RouteReplyPayload) : List UInt8 :=
  c.routeReply.encode (routeReplyPayloadToPb c payload)

/-- `decode_route_reply_payload`. -/
def decodeRouteReplyPayload (c : Codec) (payload : List UInt8) : IoResult RouteReplyPayload := do
  routeReplyPayloadFromPb c (← decodeMsg c.routeReply payload)

/-- `encode_punch_payload`. -/
def encodePunchPayload (c : Codec) (payload : PunchPayload) : List UInt8 :=
  c.punch.encode (punchPayloadToPb c payload)

/-- `decode_punch_payload`. -/
def decodePunchPayload (c : Codec) (payload : List UInt8) : IoResult PunchPayload := do
  punchPayloadFromPb c (← decodeMsg c.punch payload)

/-- `encode_nat_observe_reply_payload`. -/
def encodeNatObserveReplyPayload (c : Codec) (payload : NatObserveReplyPayload) : List UInt8 :=
  c.natObserveReply.encode (natObserveReplyPayloadToPb c payload)

/-- `decode_nat_observe_reply_payload`. -/
def decodeNatObserveReplyPayload (c : Codec) (payload : List UInt8) :
    IoResult NatObserveReplyPayload := do
  natObserveReplyPayloadFromPb c (← decodeMsg c.natObserveReply payload)

/-! ## What survives a trip over the wire -/

/-- Every item of a converted list comes from an item of the list. -/
theorem exists_of_mapM {α β : Type} {f : α → IoResult β} {l : List α} {r : List β}
    (h : l.mapM f = .ok r) {b : β} (hb : b ∈ r) : ∃ a ∈ l, f a = .ok b := by
  induction l generalizing r with
  | nil =>
      cases h
      cases hb
  | cons a l ih =>
      rw [List.mapM_cons] at h
      obtain ⟨b', hb', h⟩ := bind_eq_ok.mp h
      obtain ⟨r', hr', h⟩ := bind_eq_ok.mp h
      cases h
      rcases List.mem_cons.mp hb with rfl | hb
      · exact ⟨a, .head _, hb'⟩
      · obtain ⟨a', ha', hfa⟩ := ih hr' hb
        exact ⟨a', .tail _ ha', hfa⟩

section RoundTrip

variable {c : Codec}

theorem decodeMsg_encode {μ : Type} {message : Message μ} (hfaithful : message.Faithful) {m m' : μ}
    (h : decodeMsg message (message.encode m) = .ok m') : m' = m := by
  simp only [decodeMsg] at h
  split at h
  next hdecode =>
    cases h
    exact hfaithful m _ hdecode
  next => cases h

theorem peerId_peerInfoFromPb {pb : Pb.PeerInfo} {peer : PeerInfo}
    (h : peerInfoFromPb c pb = .ok peer) : peer.peerId = ⟨pb.peerId⟩ := by
  obtain ⟨addrs, -, h⟩ := bind_eq_ok.mp h
  obtain ⟨natInfo, -, h⟩ := bind_eq_ok.mp h
  cases h
  rfl

/-- An entry comes back with its peer and its metric. -/
theorem routeEntryFromPb_toPb {entry entry' : RouteEntry}
    (h : routeEntryFromPb c (routeEntryToPb c entry) = .ok entry') :
    entry'.peer.peerId = entry.peer.peerId ∧ entry'.metric = entry.metric := by
  obtain ⟨pb, hpb, h⟩ := bind_eq_ok.mp h
  cases hpb
  obtain ⟨peer, hpeer, h⟩ := bind_eq_ok.mp h
  obtain ⟨metric, hmetric, h⟩ := bind_eq_ok.mp h
  cases h
  refine ⟨peerId_peerInfoFromPb hpeer, ?_⟩
  simp only [checkedU8] at hmetric
  split at hmetric
  next =>
    cases hmetric
    simp [routeEntryToPb]
  next => cases hmetric

/-- The entries of a decoded list are those that were encoded, as far as peers
and metrics go. -/
theorem entries_mapM {entries entries' : List RouteEntry}
    (h : (entries.map (routeEntryToPb c)).mapM (routeEntryFromPb c) = .ok entries')
    {entry' : RouteEntry} (hentry : entry' ∈ entries') :
    ∃ entry ∈ entries, entry'.peer.peerId = entry.peer.peerId ∧ entry'.metric = entry.metric := by
  obtain ⟨pb, hpb, hdecode⟩ := exists_of_mapM h hentry
  obtain ⟨entry, hmem, rfl⟩ := List.mem_map.mp hpb
  exact ⟨entry, hmem, routeEntryFromPb_toPb hdecode⟩

theorem decodeRouteReplyPayload_encode (hc : c.Faithful) {reply reply' : RouteReplyPayload}
    (h : decodeRouteReplyPayload c (encodeRouteReplyPayload c reply) = .ok reply')
    {entry' : RouteEntry} (hentry : entry' ∈ reply'.peers) :
    ∃ entry ∈ reply.peers,
      entry'.peer.peerId = entry.peer.peerId ∧ entry'.metric = entry.metric := by
  obtain ⟨pb, hpb, h⟩ := bind_eq_ok.mp h
  cases decodeMsg_encode hc.routeReply hpb
  obtain ⟨peers, hpeers, h⟩ := bind_eq_ok.mp h
  cases h
  exact entries_mapM hpeers hentry

theorem decodeHelloPayload_encode (hc : c.Faithful) {hello hello' : HelloPayload}
    (h : decodeHelloPayload c (encodeHelloPayload c hello) = .ok hello') :
    hello'.peer.peerId = hello.peer.peerId ∧ ∀ entry' ∈ hello'.peers, ∃ entry ∈ hello.peers,
      entry'.peer.peerId = entry.peer.peerId ∧ entry'.metric = entry.metric := by
  obtain ⟨pb, hpb, h⟩ := bind_eq_ok.mp h
  cases decodeMsg_encode hc.hello hpb
  obtain ⟨pbPeer, hrequired, h⟩ := bind_eq_ok.mp h
  cases hrequired
  obtain ⟨peer, hpeer, h⟩ := bind_eq_ok.mp h
  obtain ⟨peers, hpeers, h⟩ := bind_eq_ok.mp h
  obtain ⟨observed, -, h⟩ := bind_eq_ok.mp h
  cases h
  exact ⟨peerId_peerInfoFromPb hpeer, fun entry' hentry => entries_mapM hpeers hentry⟩

theorem decodePunchPayload_encode (hc : c.Faithful) {punch punch' : PunchPayload}
    (h : decodePunchPayload c (encodePunchPayload c punch) = .ok punch') :
    punch'.src = punch.src := by
  obtain ⟨pb, hpb, h⟩ := bind_eq_ok.mp h
  cases decodeMsg_encode hc.punch hpb
  obtain ⟨pbNat, hrequired, h⟩ := bind_eq_ok.mp h
  cases hrequired
  obtain ⟨natInfo, -, h⟩ := bind_eq_ok.mp h
  cases h
  rfl

end RoundTrip

end RustP2p
