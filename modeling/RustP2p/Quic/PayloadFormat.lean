import RustP2p.Quic.Payload

/-!
# The payload format

What the conversions of `protocol.rs` between payloads and protobuf messages keep.

Two payload fields have a sentinel in the message: no relay hint is the empty id, and
no IPv6 address is the empty text.  A hint that is the empty id is lost, so the round
trip asks that no hint is (`NoEmptyHint`), and decoding gives no other payloads.  The
text of an address is never empty.

Addresses travel as text.  `AddrsRoundTrip` says that the text of every address of a
payload parses to that address, which is what the standard library is asked for.  It is
asked of these addresses only, because it fails for some: the text of an IPv6 socket
address leaves out its flow information.

Numbers are narrowed on the way back.  `OutOfRange` says that a message has a number
that does not fit, at any depth, and then the conversion fails.
-/

namespace RustP2p

/-! ## Conversions of lists and options -/

section Conversions

variable {α β : Type} {f : α → IoResult β} {g : β → α}

/-- A list comes back if each item of it does. -/
theorem mapM_map_eq_ok {l : List β} (h : ∀ b ∈ l, f (g b) = .ok b) :
    (l.map g).mapM f = .ok l := by
  induction l with
  | nil => rfl
  | cons b l ih =>
      have htail : (l.map g).mapM f = .ok l := ih fun b' hb' => h b' (.tail _ hb')
      rw [List.map_cons, List.mapM_cons, h b (.head _), htail]
      rfl

/-- An optional value comes back if it does when it is there. -/
theorem optionMapM_map_eq_ok {o : Option β} (h : ∀ b ∈ o, f (g b) = .ok b) :
    (o.map g).mapM f = .ok o := by
  cases o with
  | none => rfl
  | some b =>
      rw [Option.map_some, Option.mapM_some, h b rfl]
      rfl

/-- If a list converts, each item of it does. -/
theorem forall_of_mapM {l : List α} {r : List β} (h : l.mapM f = .ok r) :
    ∀ a ∈ l, ∃ b ∈ r, f a = .ok b := by
  induction l generalizing r with
  | nil =>
      intro a ha
      cases ha
  | cons a l ih =>
      rw [List.mapM_cons] at h
      obtain ⟨b, hb, h⟩ := bind_eq_ok.mp h
      obtain ⟨r', hr', h⟩ := bind_eq_ok.mp h
      cases h
      intro a' ha'
      rcases List.mem_cons.mp ha' with rfl | ha'
      · exact ⟨b, .head _, hb⟩
      · obtain ⟨b', hb', hf⟩ := ih hr' a' ha'
        exact ⟨b', .tail _ hb', hf⟩

/-- An optional value converts exactly if it does when it is there. -/
theorem of_optionMapM {o : Option α} {r : Option β} (h : o.mapM f = .ok r) :
    (o = none ∧ r = none) ∨ ∃ a b, o = some a ∧ r = some b ∧ f a = .ok b := by
  cases o with
  | none =>
      cases h
      exact .inl ⟨rfl, rfl⟩
  | some a =>
      rw [Option.mapM_some] at h
      cases hf : f a with
      | error e =>
          rw [hf] at h
          cases h
      | ok b =>
          rw [hf] at h
          cases h
          exact .inr ⟨a, b, rfl, rfl, hf⟩

end Conversions

/-- What does not succeed is an error. -/
theorem error_of_not_ok {α : Type} {x : IoResult α} (h : ∀ v, x ≠ .ok v) : ∃ e, x = .error e := by
  cases x with
  | error e => exact ⟨e, rfl⟩
  | ok v => exact absurd rfl (h v)

/-! ## Addresses -/

/-- The text of an address is not empty, and parses to the address. -/
def Text.RoundTrips {α : Type} (text : Text α) (a : α) : Prop :=
  text.format a ≠ "" ∧ text.parse (text.format a) = .ok a

section Addresses

variable (c : Codec)

/-- The addresses of NAT information. -/
structure NatInfo.AddrsRoundTrip (info : NatInfo) : Prop where
  publicIps : ∀ ip ∈ info.publicIps, c.ipv4.RoundTrips ip
  mappingTcpAddr : ∀ addr ∈ info.mappingTcpAddr, c.socketAddr.RoundTrips addr
  mappingUdpAddr : ∀ addr ∈ info.mappingUdpAddr, c.socketAddr.RoundTrips addr
  localIpv4 : c.ipv4.RoundTrips info.localIpv4
  localIpv4s : ∀ ip ∈ info.localIpv4s, c.ipv4.RoundTrips ip
  ipv6 : ∀ ip ∈ info.ipv6, c.ipv6.RoundTrips ip

/-- The addresses of a peer. -/
structure PeerInfo.AddrsRoundTrip (peer : PeerInfo) : Prop where
  addrs : ∀ addr ∈ peer.addrs, c.socketAddr.RoundTrips addr
  natInfo : ∀ info ∈ peer.natInfo, info.AddrsRoundTrip c

/-- The addresses of route entries. -/
def RouteEntry.AddrsRoundTrip (entries : List RouteEntry) : Prop :=
  ∀ entry ∈ entries, entry.peer.AddrsRoundTrip c

/-- The addresses of a hello. -/
structure HelloPayload.AddrsRoundTrip (payload : HelloPayload) : Prop where
  peer : payload.peer.AddrsRoundTrip c
  peers : RouteEntry.AddrsRoundTrip c payload.peers
  observedAddr : ∀ observation ∈ payload.observedAddr,
    c.socketAddr.RoundTrips observation.observedAddr

end Addresses

/-! ## Relay hints -/

/-- The relay hint of a peer is not the empty id. -/
def PeerInfo.NoEmptyHint (peer : PeerInfo) : Prop := peer.relayHint ≠ some ⟨""⟩

instance (peer : PeerInfo) : Decidable peer.NoEmptyHint :=
  inferInstanceAs (Decidable (peer.relayHint ≠ some ⟨""⟩))

/-- No relay hint of the entries is the empty id. -/
def RouteEntry.NoEmptyHint (entries : List RouteEntry) : Prop :=
  ∀ entry ∈ entries, entry.peer.NoEmptyHint

/-- No relay hint of a hello is the empty id. -/
def HelloPayload.NoEmptyHint (payload : HelloPayload) : Prop :=
  payload.peer.NoEmptyHint ∧ RouteEntry.NoEmptyHint payload.peers

/-! ## Numbers that do not fit -/

namespace Pb

/-- A port or the port range is above `u16`. -/
def NatInfo.OutOfRange (info : NatInfo) : Prop :=
  (∃ port ∈ info.publicUdpPorts ++ info.localUdpPorts ++ info.stunMappedPorts,
    65535 < port.toNat) ∨
  65535 < info.publicPortRange.toNat ∨ 65535 < info.localTcpPort.toNat ∨
  65535 < info.publicTcpPort.toNat

/-- A number in the NAT information of a peer does not fit. -/
def PeerInfo.OutOfRange (peer : PeerInfo) : Prop := ∃ info ∈ peer.natInfo, info.OutOfRange

/-- The metric of an entry is above `u8`, or a number of its peer does not fit. -/
def RouteEntry.OutOfRange (entry : RouteEntry) : Prop :=
  255 < entry.metric.toNat ∨ ∃ peer ∈ entry.peer, peer.OutOfRange

/-- A number of a hello does not fit. -/
def HelloPayload.OutOfRange (payload : HelloPayload) : Prop :=
  (∃ peer ∈ payload.peer, peer.OutOfRange) ∨ ∃ entry ∈ payload.peers, entry.OutOfRange

/-- A number of a route reply does not fit. -/
def RouteReplyPayload.OutOfRange (payload : RouteReplyPayload) : Prop :=
  ∃ entry ∈ payload.peers, entry.OutOfRange

/-- A number of a punch does not fit. -/
def PunchPayload.OutOfRange (payload : PunchPayload) : Prop :=
  ∃ info ∈ payload.natInfo, info.OutOfRange

end Pb

/-! ## Fields -/

section Fields

variable {c : Codec} {field : String}

theorem parseText_format {α : Type} {text : Text α} {a : α} (h : text.RoundTrips a) :
    parseText text field (text.format a) = .ok a := by
  simp only [parseText, h.2]

theorem parseIpv4OrUnspecified_format {ip : Ipv4Addr} (h : c.ipv4.RoundTrips ip) :
    parseIpv4OrUnspecified c field (c.ipv4.format ip) = .ok ip := by
  simp only [parseIpv4OrUnspecified]
  rw [if_neg h.1]
  exact parseText_format h

theorem checkedU16_toUInt32 (port : UInt16) : checkedU16 field port.toUInt32 = .ok port := by
  have hlt : port.toUInt32.toNat < 65536 := port.toNat_lt
  simp only [checkedU16]
  rw [if_pos hlt, UInt16.toUInt16_toUInt32]

theorem checkedU16Vec_toUInt32 (ports : List UInt16) :
    checkedU16Vec field (ports.map UInt16.toUInt32) = .ok ports :=
  mapM_map_eq_ok fun port _ => checkedU16_toUInt32 port

theorem checkedU8_toUInt32 (metric : UInt8) : checkedU8 field metric.toUInt32 = .ok metric := by
  have hlt : metric.toUInt32.toNat < 256 := metric.toNat_lt
  simp only [checkedU8]
  rw [if_pos hlt, UInt8.toUInt8_toUInt32]

theorem le_of_checkedU16 {value : UInt32} {port : UInt16} (h : checkedU16 field value = .ok port) :
    ¬ 65535 < value.toNat := by
  simp only [checkedU16] at h
  split at h
  next hlt => omega
  next => cases h

theorem le_of_checkedU8 {value : UInt32} {metric : UInt8} (h : checkedU8 field value = .ok metric) :
    ¬ 255 < value.toNat := by
  simp only [checkedU8] at h
  split at h
  next hlt => omega
  next => cases h

theorem le_of_checkedU16Vec {values : List UInt32} {ports : List UInt16}
    (h : checkedU16Vec field values = .ok ports) : ∀ value ∈ values, ¬ 65535 < value.toNat := by
  intro value hvalue
  obtain ⟨port, -, hport⟩ := forall_of_mapM h value hvalue
  exact le_of_checkedU16 hport

end Fields

/-! ## Round trips, message by message -/

section RoundTrips

variable {c : Codec}

theorem natInfoFromPb_toPb {info : NatInfo} (h : info.AddrsRoundTrip c) :
    natInfoFromPb c (natInfoToPb c info) = .ok info := by
  have htype : natTypeFromPb (natInfoToPb c info).natType = .ok info.natType := by
    cases htype : info.natType with
    | cone => simp only [natInfoToPb, htype]; rfl
    | symmetric => simp only [natInfoToPb, htype]; rfl
  have hpublicIps : (info.publicIps.map c.ipv4.format).mapM (parseIpv4 c "nat.public_ips") =
      .ok info.publicIps := mapM_map_eq_ok fun ip hip => parseText_format (h.publicIps ip hip)
  have htcp : (info.mappingTcpAddr.map c.socketAddr.format).mapM
      (parseSocketAddr c "nat.mapping_tcp_addr") = .ok info.mappingTcpAddr :=
    mapM_map_eq_ok fun addr haddr => parseText_format (h.mappingTcpAddr addr haddr)
  have hudp : (info.mappingUdpAddr.map c.socketAddr.format).mapM
      (parseSocketAddr c "nat.mapping_udp_addr") = .ok info.mappingUdpAddr :=
    mapM_map_eq_ok fun addr haddr => parseText_format (h.mappingUdpAddr addr haddr)
  have hlocalIpv4s : (info.localIpv4s.map c.ipv4.format).mapM (parseIpv4 c "nat.local_ipv4s") =
      .ok info.localIpv4s := mapM_map_eq_ok fun ip hip => parseText_format (h.localIpv4s ip hip)
  simp only [natInfoFromPb, htype]
  simp only [natInfoToPb, hpublicIps, checkedU16Vec_toUInt32, htcp, hudp, checkedU16_toUInt32,
    parseIpv4OrUnspecified_format h.localIpv4, hlocalIpv4s]
  -- no address is the empty text, and the text of an address is never empty
  have hipv6 := h.ipv6
  obtain ⟨_, _, _, _, _, _, _, _, ipv6, _, _, _, _⟩ := info
  cases ipv6 with
  | none => rfl
  | some ip =>
      have hround : c.ipv6.RoundTrips ip := hipv6 ip rfl
      simp only [Option.map_some, Option.getD_some, hround.1, if_false, parseIpv6,
        parseText_format hround]
      rfl

theorem natObservationFromPb_toPb {observation : NatObservation}
    (h : c.socketAddr.RoundTrips observation.observedAddr) :
    natObservationFromPb c (natObservationToPb c observation) = .ok observation := by
  obtain ⟨protocol, addr, observer, time⟩ := observation
  simp only [natObservationFromPb, natObservationToPb, parseSocketAddr, parseText_format h]
  cases protocol with
  | udp => rfl
  | tcp => rfl

theorem peerInfoFromPb_toPb {peer : PeerInfo} (h : peer.AddrsRoundTrip c)
    (hhint : peer.NoEmptyHint) : peerInfoFromPb c (peerInfoToPb c peer) = .ok peer := by
  have haddrs : (peer.addrs.map c.socketAddr.format).mapM (parseSocketAddr c "peer.addrs") =
      .ok peer.addrs := mapM_map_eq_ok fun addr haddr => parseText_format (h.addrs addr haddr)
  have hnat : (peer.natInfo.map (natInfoToPb c)).mapM (natInfoFromPb c) = .ok peer.natInfo :=
    optionMapM_map_eq_ok fun info hinfo => natInfoFromPb_toPb (h.natInfo info hinfo)
  simp only [peerInfoFromPb, peerInfoToPb, haddrs, hnat]
  obtain ⟨_, _, relayHint, _, _, _⟩ := peer
  cases relayHint with
  | none => rfl
  | some hint =>
      have hne : hint.value ≠ "" := by
        intro hempty
        apply hhint
        simp only [← hempty]
      simp only [Option.map_some, Option.getD_some, hne, if_false]
      rfl

theorem routeEntryFromPb_toPb_eq {entry : RouteEntry} (h : entry.peer.AddrsRoundTrip c)
    (hhint : entry.peer.NoEmptyHint) :
    routeEntryFromPb c (routeEntryToPb c entry) = .ok entry := by
  simp only [routeEntryFromPb, routeEntryToPb, required]
  simp only [bind, Except.bind, peerInfoFromPb_toPb h hhint, checkedU8_toUInt32]
  rfl

theorem entries_round_trip {entries : List RouteEntry} (h : RouteEntry.AddrsRoundTrip c entries)
    (hhint : RouteEntry.NoEmptyHint entries) :
    (entries.map (routeEntryToPb c)).mapM (routeEntryFromPb c) = .ok entries :=
  mapM_map_eq_ok fun entry hentry =>
    routeEntryFromPb_toPb_eq (h entry hentry) (hhint entry hentry)

theorem helloPayloadFromPb_toPb {payload : HelloPayload} (h : payload.AddrsRoundTrip c)
    (hhint : payload.NoEmptyHint) :
    helloPayloadFromPb c (helloPayloadToPb c payload) = .ok payload := by
  have hobserved : (payload.observedAddr.map (natObservationToPb c)).mapM
      (natObservationFromPb c) = .ok payload.observedAddr :=
    optionMapM_map_eq_ok fun observation hobs =>
      natObservationFromPb_toPb (h.observedAddr observation hobs)
  simp only [helloPayloadFromPb, helloPayloadToPb, required, bind, Except.bind,
    peerInfoFromPb_toPb h.peer hhint.1, entries_round_trip h.peers hhint.2, hobserved]
  rfl

theorem routeReplyPayloadFromPb_toPb {payload : RouteReplyPayload}
    (h : RouteEntry.AddrsRoundTrip c payload.peers)
    (hhint : RouteEntry.NoEmptyHint payload.peers) :
    routeReplyPayloadFromPb c (routeReplyPayloadToPb c payload) = .ok payload := by
  simp only [routeReplyPayloadFromPb, routeReplyPayloadToPb, entries_round_trip h hhint]
  rfl

theorem punchPayloadFromPb_toPb {payload : PunchPayload} (h : payload.natInfo.AddrsRoundTrip c) :
    punchPayloadFromPb c (punchPayloadToPb c payload) = .ok payload := by
  simp only [punchPayloadFromPb, punchPayloadToPb, required, bind, Except.bind,
    natInfoFromPb_toPb h]
  rfl

theorem natObserveReplyPayloadFromPb_toPb {payload : NatObserveReplyPayload}
    (h : c.socketAddr.RoundTrips payload.observation.observedAddr) :
    natObserveReplyPayloadFromPb c (natObserveReplyPayloadToPb c payload) = .ok payload := by
  simp only [natObserveReplyPayloadFromPb, natObserveReplyPayloadToPb, required, bind, Except.bind,
    natObservationFromPb_toPb h]
  rfl

end RoundTrips

/-! ## What decoding gives -/

section Decoding

variable {c : Codec}

/-- A `let` with two branches, whose rest the two branches share. -/
theorem ite_bind_eq_ok {α β : Type} {p : Prop} [Decidable p] {x y : IoResult α}
    {k : α → IoResult β} {b : β} (h : (if p then x >>= k else y >>= k) = .ok b) :
    ∃ a, k a = .ok b := by
  split at h
  next =>
    obtain ⟨a, -, ha⟩ := bind_eq_ok.mp h
    exact ⟨a, ha⟩
  next =>
    obtain ⟨a, -, ha⟩ := bind_eq_ok.mp h
    exact ⟨a, ha⟩

theorem not_outOfRange_natInfo {pb : Pb.NatInfo} {info : NatInfo}
    (h : natInfoFromPb c pb = .ok info) : ¬ pb.OutOfRange := by
  obtain ⟨natType, -, h⟩ := bind_eq_ok.mp h
  obtain ⟨publicIps, -, h⟩ := bind_eq_ok.mp h
  obtain ⟨publicUdpPorts, hpublicUdp, h⟩ := bind_eq_ok.mp h
  obtain ⟨mappingTcpAddr, -, h⟩ := bind_eq_ok.mp h
  obtain ⟨mappingUdpAddr, -, h⟩ := bind_eq_ok.mp h
  obtain ⟨publicPortRange, hrange, h⟩ := bind_eq_ok.mp h
  obtain ⟨localIpv4, -, h⟩ := bind_eq_ok.mp h
  obtain ⟨localIpv4s, -, h⟩ := bind_eq_ok.mp h
  obtain ⟨ipv6, h⟩ := ite_bind_eq_ok h
  obtain ⟨localUdpPorts, hlocalUdp, h⟩ := bind_eq_ok.mp h
  obtain ⟨localTcpPort, hlocalTcp, h⟩ := bind_eq_ok.mp h
  obtain ⟨publicTcpPort, hpublicTcp, h⟩ := bind_eq_ok.mp h
  obtain ⟨stunMappedPorts, hstun, h⟩ := bind_eq_ok.mp h
  intro hout
  rcases hout with ⟨port, hport, hlarge⟩ | hlarge | hlarge | hlarge
  · rcases List.mem_append.mp hport with hport | hport
    · rcases List.mem_append.mp hport with hport | hport
      · exact le_of_checkedU16Vec hpublicUdp port hport hlarge
      · exact le_of_checkedU16Vec hlocalUdp port hport hlarge
    · exact le_of_checkedU16Vec hstun port hport hlarge
  · exact le_of_checkedU16 hrange hlarge
  · exact le_of_checkedU16 hlocalTcp hlarge
  · exact le_of_checkedU16 hpublicTcp hlarge

/-- A decoded peer has no empty hint, and its message no number out of range. -/
theorem of_peerInfoFromPb {pb : Pb.PeerInfo} {peer : PeerInfo}
    (h : peerInfoFromPb c pb = .ok peer) : peer.NoEmptyHint ∧ ¬ pb.OutOfRange := by
  obtain ⟨addrs, -, h⟩ := bind_eq_ok.mp h
  obtain ⟨natInfo, hnat, h⟩ := bind_eq_ok.mp h
  cases h
  constructor
  · intro hempty
    simp only at hempty
    split at hempty
    next => cases hempty
    next hne => exact hne (congrArg PeerId.value (Option.some.inj hempty))
  · intro hout
    obtain ⟨info, hinfo, hout⟩ := hout
    rcases of_optionMapM hnat with ⟨hnone, -⟩ | ⟨info', info'', hsome, -, hdecode⟩
    · rw [hnone] at hinfo
      cases hinfo
    · rw [hsome] at hinfo
      cases hinfo
      exact not_outOfRange_natInfo hdecode hout

theorem required_eq_ok {α : Type} {value : Option α} {field : String} {v : α}
    (h : required value field = .ok v) : value = some v := by
  cases value with
  | none => cases h
  | some v' =>
      cases h
      rfl

/-- So does a decoded entry. -/
theorem of_routeEntryFromPb {pb : Pb.RouteEntry} {entry : RouteEntry}
    (h : routeEntryFromPb c pb = .ok entry) : entry.peer.NoEmptyHint ∧ ¬ pb.OutOfRange := by
  obtain ⟨pbPeer, hrequired, h⟩ := bind_eq_ok.mp h
  obtain ⟨peer, hpeer, h⟩ := bind_eq_ok.mp h
  obtain ⟨metric, hmetric, h⟩ := bind_eq_ok.mp h
  cases h
  obtain ⟨hhint, hrange⟩ := of_peerInfoFromPb hpeer
  refine ⟨hhint, ?_⟩
  intro hout
  rcases hout with hlarge | ⟨pb', hpb', hout⟩
  · exact le_of_checkedU8 hmetric hlarge
  · rw [required_eq_ok hrequired] at hpb'
    cases hpb'
    exact hrange hout

/-- And so do the entries of a list. -/
theorem of_entries {pbs : List Pb.RouteEntry} {entries : List RouteEntry}
    (h : pbs.mapM (routeEntryFromPb c) = .ok entries) :
    RouteEntry.NoEmptyHint entries ∧ ¬ ∃ pb ∈ pbs, pb.OutOfRange := by
  constructor
  · intro entry hentry
    obtain ⟨pb, -, hdecode⟩ := exists_of_mapM h hentry
    exact (of_routeEntryFromPb hdecode).1
  · intro hout
    obtain ⟨pb, hpb, hout⟩ := hout
    obtain ⟨entry, -, hdecode⟩ := forall_of_mapM h pb hpb
    exact (of_routeEntryFromPb hdecode).2 hout

theorem of_helloPayloadFromPb {pb : Pb.HelloPayload} {payload : HelloPayload}
    (h : helloPayloadFromPb c pb = .ok payload) : payload.NoEmptyHint ∧ ¬ pb.OutOfRange := by
  obtain ⟨pbPeer, hrequired, h⟩ := bind_eq_ok.mp h
  obtain ⟨peer, hpeer, h⟩ := bind_eq_ok.mp h
  obtain ⟨peers, hpeers, h⟩ := bind_eq_ok.mp h
  obtain ⟨observed, -, h⟩ := bind_eq_ok.mp h
  cases h
  obtain ⟨hhint, hrange⟩ := of_peerInfoFromPb hpeer
  obtain ⟨hhints, hranges⟩ := of_entries hpeers
  refine ⟨⟨hhint, hhints⟩, ?_⟩
  intro hout
  rcases hout with ⟨pb', hpb', hout⟩ | hout
  · rw [required_eq_ok hrequired] at hpb'
    cases hpb'
    exact hrange hout
  · exact hranges hout

theorem of_routeReplyPayloadFromPb {pb : Pb.RouteReplyPayload} {payload : RouteReplyPayload}
    (h : routeReplyPayloadFromPb c pb = .ok payload) :
    RouteEntry.NoEmptyHint payload.peers ∧ ¬ pb.OutOfRange := by
  obtain ⟨peers, hpeers, h⟩ := bind_eq_ok.mp h
  cases h
  exact of_entries hpeers

theorem not_outOfRange_punch {pb : Pb.PunchPayload} {payload : PunchPayload}
    (h : punchPayloadFromPb c pb = .ok payload) : ¬ pb.OutOfRange := by
  obtain ⟨pbNat, hrequired, h⟩ := bind_eq_ok.mp h
  obtain ⟨natInfo, hnat, h⟩ := bind_eq_ok.mp h
  intro hout
  obtain ⟨info, hinfo, hout⟩ := hout
  rw [required_eq_ok hrequired] at hinfo
  cases hinfo
  exact not_outOfRange_natInfo hnat hout

end Decoding

/-! ## The round trip of a payload -/

/-- A control payload: its message, and the functions of `protocol.rs` between the two
and between the payload and bytes. -/
structure ControlPayload (α μ : Type) where
  message : Message μ
  toPb : α → μ
  fromPb : μ → IoResult α
  encode : α → List UInt8
  decode : List UInt8 → IoResult α

/-- The hello payload. -/
def ControlPayload.hello (c : Codec) : ControlPayload HelloPayload Pb.HelloPayload :=
  ⟨c.hello, helloPayloadToPb c, helloPayloadFromPb c, encodeHelloPayload c, decodeHelloPayload c⟩

/-- The route reply payload. -/
def ControlPayload.routeReply (c : Codec) :
    ControlPayload RouteReplyPayload Pb.RouteReplyPayload :=
  ⟨c.routeReply, routeReplyPayloadToPb c, routeReplyPayloadFromPb c, encodeRouteReplyPayload c,
    decodeRouteReplyPayload c⟩

/-- The punch payload. -/
def ControlPayload.punch (c : Codec) : ControlPayload PunchPayload Pb.PunchPayload :=
  ⟨c.punch, punchPayloadToPb c, punchPayloadFromPb c, encodePunchPayload c, decodePunchPayload c⟩

/-- The reply with an observation. -/
def ControlPayload.natObserveReply (c : Codec) :
    ControlPayload NatObserveReplyPayload Pb.NatObserveReplyPayload :=
  ⟨c.natObserveReply, natObserveReplyPayloadToPb c, natObserveReplyPayloadFromPb c,
    encodeNatObserveReplyPayload c, decodeNatObserveReplyPayload c⟩

/-- What the round trip of a control payload keeps.  `addrs` says that the addresses of a
payload come back from their text, `hints` that no relay hint of it is the empty id, and
`outOfRange` that a message has a number that is too large.  Of the protobuf codec only
the one message is asked for. -/
structure ControlPayload.RoundTrips {α μ : Type} (p : ControlPayload α μ) (addrs hints : α → Prop)
    (outOfRange : μ → Prop) : Prop where
  /-- The payload comes back from its message. -/
  fromPb_toPb : ∀ v, addrs v → hints v → p.fromPb (p.toPb v) = .ok v
  /-- The payload comes back from its bytes. -/
  decode_encode : ∀ v, addrs v → hints v →
    p.message.decode (p.message.encode (p.toPb v)) = .ok (p.toPb v) → p.decode (p.encode v) = .ok v
  /-- Decoding gives no empty hint. -/
  hints_fromPb : ∀ m v, p.fromPb m = .ok v → hints v
  /-- So what was decoded comes back. -/
  fromPb_stable : ∀ m v, p.fromPb m = .ok v → addrs v → p.fromPb (p.toPb v) = .ok v
  /-- The same for bytes. -/
  decode_stable : ∀ bytes v, p.decode bytes = .ok v → addrs v →
    p.message.decode (p.message.encode (p.toPb v)) = .ok (p.toPb v) → p.decode (p.encode v) = .ok v
  /-- A number that is too large is an error. -/
  fromPb_outOfRange : ∀ m, outOfRange m → ∃ e, p.fromPb m = .error e
  /-- The same for bytes. -/
  decode_outOfRange : ∀ bytes m, p.message.decode bytes = .ok m → outOfRange m →
    ∃ e, p.decode bytes = .error e

/-- The round trip, from what the two conversions keep. -/
theorem ControlPayload.roundTrips {α μ : Type} {p : ControlPayload α μ} {addrs hints : α → Prop}
    {outOfRange : μ → Prop} (hencode : ∀ v, p.encode v = p.message.encode (p.toPb v))
    (hdecode : ∀ bytes, p.decode bytes = (decodeMsg p.message bytes >>= p.fromPb))
    (hback : ∀ v, addrs v → hints v → p.fromPb (p.toPb v) = .ok v)
    (hof : ∀ m v, p.fromPb m = .ok v → hints v ∧ ¬ outOfRange m) :
    p.RoundTrips addrs hints outOfRange := by
  have hbytes : ∀ bytes m, p.message.decode bytes = .ok m → p.decode bytes = p.fromPb m := by
    intro bytes m hm
    simp only [hdecode, decodeMsg, hm]
    rfl
  have herror : ∀ m, outOfRange m → ∃ e, p.fromPb m = .error e := by
    intro m hout
    exact error_of_not_ok fun v hv => (hof m v hv).2 hout
  have hround : ∀ v, addrs v → hints v →
      p.message.decode (p.message.encode (p.toPb v)) = .ok (p.toPb v) →
      p.decode (p.encode v) = .ok v := by
    intro v haddrs hhints hm
    rw [hencode, hbytes _ _ hm]
    exact hback v haddrs hhints
  refine ⟨hback, hround, fun m v hv => (hof m v hv).1, ?_, ?_, herror, ?_⟩
  · intro m v hv haddrs
    exact hback v haddrs (hof m v hv).1
  · intro bytes v hv haddrs hm
    rw [hdecode] at hv
    obtain ⟨m, -, hv⟩ := bind_eq_ok.mp hv
    exact hround v haddrs (hof m v hv).1 hm
  · intro bytes m hm hout
    rw [hbytes bytes m hm]
    exact herror m hout

/-- The four control payloads come back from their messages and from their bytes, field by
field, and no number is cut off on the way.  Neither a punch nor an observation has a relay
hint, and an observation has no number that is narrowed. -/
theorem control_payload_round_trip (c : Codec) :
    (ControlPayload.hello c).RoundTrips (HelloPayload.AddrsRoundTrip c) HelloPayload.NoEmptyHint
      Pb.HelloPayload.OutOfRange ∧
    (ControlPayload.routeReply c).RoundTrips
      (fun payload => RouteEntry.AddrsRoundTrip c payload.peers)
      (fun payload => RouteEntry.NoEmptyHint payload.peers) Pb.RouteReplyPayload.OutOfRange ∧
    (ControlPayload.punch c).RoundTrips (fun payload => payload.natInfo.AddrsRoundTrip c)
      (fun _ => True) Pb.PunchPayload.OutOfRange ∧
    (ControlPayload.natObserveReply c).RoundTrips
      (fun payload => c.socketAddr.RoundTrips payload.observation.observedAddr)
      (fun _ => True) (fun _ => False) := by
  refine ⟨?_, ?_, ?_, ?_⟩
  · exact ControlPayload.roundTrips (fun _ => rfl) (fun _ => rfl)
      (fun _ => helloPayloadFromPb_toPb) (fun _ _ => of_helloPayloadFromPb)
  · exact ControlPayload.roundTrips (fun _ => rfl) (fun _ => rfl)
      (fun _ => routeReplyPayloadFromPb_toPb) (fun _ _ => of_routeReplyPayloadFromPb)
  · exact ControlPayload.roundTrips (fun _ => rfl) (fun _ => rfl)
      (fun _ haddrs _ => punchPayloadFromPb_toPb haddrs)
      (fun _ _ hv => ⟨trivial, not_outOfRange_punch hv⟩)
  · exact ControlPayload.roundTrips (fun _ => rfl) (fun _ => rfl)
      (fun _ haddrs _ => natObserveReplyPayloadFromPb_toPb haddrs)
      (fun _ _ _ => ⟨trivial, id⟩)

/-- The hello of `b`, which reached `a` through `r`. -/
def hintedHello : HelloPayload :=
  ⟨⟨⟨"b"⟩, [.v4 ⟨1, 2, 3, 4⟩ 5], some ⟨"r"⟩, 1, false, none⟩, [], none⟩

/-- Its protobuf encoding. -/
def hintedHelloBytes : List UInt8 :=
  [0x0a, 19, 0x0a, 1, 0x62, 0x12, 9, 0x31, 0x2e, 0x32, 0x2e, 0x33, 0x2e, 0x34, 0x3a, 0x35,
    0x1a, 1, 0x72, 0x20, 1]

/-- A codec that has this hello and its address. -/
def hintedCodec : Codec :=
  { Codec.empty with
    hello := .ofTable [(⟨some ⟨"b", ["1.2.3.4:5"], "r", 1, false, none⟩, [], none⟩,
      hintedHelloBytes)]
    socketAddr := .ofTable [(.v4 ⟨1, 2, 3, 4⟩ 5, "1.2.3.4:5")] }

theorem control_payload_round_trip_hello :
    encodeHelloPayload hintedCodec hintedHello = hintedHelloBytes ∧
      decodeHelloPayload hintedCodec hintedHelloBytes = .ok hintedHello := by
  have haddr : hintedCodec.socketAddr.RoundTrips (.v4 ⟨1, 2, 3, 4⟩ 5) := ⟨by decide, by rfl⟩
  refine ⟨by rfl, (control_payload_round_trip hintedCodec).1.decode_encode hintedHello ?_ ?_ ?_⟩
  · refine ⟨⟨?_, ?_⟩, ?_, ?_⟩
    · intro addr haddr'
      rcases List.mem_singleton.mp haddr' with rfl
      exact haddr
    · intro info hinfo
      cases hinfo
    · intro entry hentry
      cases hentry
    · intro observation hobs
      cases hobs
  · refine ⟨by decide, ?_⟩
    intro entry hentry
    cases hentry
  · rfl

end RustP2p
