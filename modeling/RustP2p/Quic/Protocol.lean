import RustP2p.Quic.Transport

/-!
# The protocol layer

`ProtocolLayer` of `protocol.rs`: its state, the helpers its handlers share, and
the calls of its interface.  The two channels of the source are not here but in
the node model, where tasks wait on them.

`route_candidates` holds the key a peer was last heard on directly.  A candidate
becomes a confirmed route in `confirmDirectAndPromote` only.

Three tables are the stores of the layer: the peers, the candidates and the
confirmed routes.  Every helper has one lemma that says what it does to them.
Most helpers leave them alone (`SameStores`), and the others make writes of four
kinds (`Writes`).  `Adds A l l'` is what follows for the routes: the layer keeps
its identity and its direct routes, and every new route meets `A`.
-/

namespace RustP2p

open BigEndian

/-! ## The layer -/

/-- `ProtocolLayer`, without its channels. -/
structure ProtocolLayer where
  transport : Transport
  peerId : PeerId
  maxTtl : UInt8
  closed : Bool
  /-- `none` allows every peer. -/
  punchWhitelist : Option (List PeerId)
  /-- The empty set allows every peer. -/
  natObservers : List PeerId
  natInfo : NatInfo
  peerNat : DashMap PeerId NatInfo
  pendingHelloRoutes : DashSet RouteKey
  pendingNatObserve : DashMap PeerId RouteKey
  pendingPunch : DashMap UInt64 PeerId
  routeCandidates : DashMap PeerId RouteKey
  lastPunchTime : DashMap PeerId UInt64
  pendingEcho : DashMap PeerId UInt64
  /-- The tasks of `spawn_probe_rtt` that have not run yet. -/
  probeTasks : List (PeerId × RouteKey)

/-- `stun::StunResult`, the fields that are read. -/
structure StunResult where
  natType : NatType
  portRange : UInt16
  publicUdpPorts : List UInt16
deriving DecidableEq, Repr

/-! ## NAT information -/

/-- `if !list.contains(&x) { list.push(x) }`. -/
def pushNew {α : Type} [DecidableEq α] (l : List α) (x : α) : List α :=
  if x ∈ l then l else l ++ [x]

theorem mem_pushNew {α : Type} [DecidableEq α] {l : List α} {x y : α} :
    y ∈ pushNew l x ↔ y ∈ l ∨ y = x := by
  simp only [pushNew]
  split
  next hmem =>
    constructor
    · exact Or.inl
    · rintro (hy | rfl)
      · exact hy
      · exact hmem
  next => simp

theorem pushNew_eq_self {α : Type} [DecidableEq α] {l : List α} {x : α} :
    pushNew l x = l ↔ x ∈ l := by
  simp only [pushNew]
  split
  next h => exact iff_of_true rfl h
  next h => simp [h]

/-- `apply_observation_to_nat_info`. -/
def applyObservationToNatInfo (info : NatInfo) (observation : NatObservation) : NatInfo :=
  let info := match observation.observedAddr with
    | .v4 ip _ => { info with publicIps := pushNew info.publicIps ip }
    | .v6 ip _ _ _ => { info with ipv6 := some ip }
  match observation.observedProtocol with
  | .udp =>
      { info with publicUdpPorts := pushNew info.publicUdpPorts observation.observedAddr.port }
  | .tcp => { info with publicTcpPort := observation.observedAddr.port }

/-- `apply_stun_result_to_nat_info`. -/
def applyStunResultToNatInfo (info : NatInfo) (result : StunResult) : NatInfo :=
  { info with
    natType := result.natType
    publicPortRange := result.portRange
    stunMappedPorts := result.publicUdpPorts }

/-- The address injection of `try_execute_punch`, for a punch that came directly. -/
def injectPeerAddr (info : NatInfo) (addr : SocketAddr) : NatInfo :=
  match addr with
  | .v4 ip port =>
      { info with
        publicIps := pushNew info.publicIps ip
        publicUdpPorts := pushNew info.publicUdpPorts port }
  | .v6 .. => info

namespace ProtocolLayer

/-- `ProtocolLayer::new`, before its tasks start. -/
def new (peerId : PeerId) (transport : Transport) (maxTtl : UInt8)
    (punchWhitelist : Option (List PeerId)) (natObservers : List PeerId) (natInfo : NatInfo) :
    ProtocolLayer where
  transport := transport
  peerId := peerId
  maxTtl := max maxTtl 1
  closed := false
  punchWhitelist := punchWhitelist
  natObservers := natObservers
  natInfo := natInfo
  peerNat := ∅
  pendingHelloRoutes := ∅
  pendingNatObserve := ∅
  pendingPunch := ∅
  routeCandidates := ∅
  lastPunchTime := ∅
  pendingEcho := ∅
  probeTasks := []

/-! ## Queries -/

/-- `punch_allowed`. -/
def punchAllowed (l : ProtocolLayer) (peerId : PeerId) : Bool :=
  match l.punchWhitelist with
  | none => true
  | some set => peerId ∈ set

/-- `should_observe_with`. -/
def shouldObserveWith (l : ProtocolLayer) (peerId : PeerId) : Bool :=
  l.natObservers.isEmpty || decide (peerId ∈ l.natObservers)

/-- `has_direct_route`. -/
def hasDirectRoute (l : ProtocolLayer) (peerId : PeerId) : Bool :=
  (l.transport.routesOf peerId).any Route.isDirect

/-- `peer_info_from_packet`. -/
def peerInfoFromPacket (l : ProtocolLayer) (env : Env) (src : PeerId) (routeKey : RouteKey)
    (metric : UInt8) : PeerInfo where
  peerId := src
  addrs := if metric = 0 then [routeKey.peerAddr] else []
  relayHint := if metric > 0 then l.transport.routeToId routeKey else none
  lastSeen := env.nowMillis
  isDirect := false
  natInfo := l.peerNat.get src

/-- `self_peer_info`. -/
def selfPeerInfo (l : ProtocolLayer) (env : Env) : PeerInfo :=
  let ownAddr := l.transport.localAddr
  let advertisedIp := if ¬ ownAddr.ip.isUnspecified then some ownAddr.ip
    else l.natInfo.publicIps.head?.map IpAddr.v4
  let addrs := match advertisedIp with
    | some ip => [SocketAddr.new ip ownAddr.port]
    | none => []
  let tcpAddr := l.transport.localTcpAddr.bind fun addr =>
    if addr.ip.isUnspecified then advertisedIp.map fun ip => SocketAddr.new ip addr.port
    else some addr
  { peerId := l.peerId
    addrs := match tcpAddr with
      | some addr => pushNew addrs addr
      | none => addrs
    relayHint := none
    lastSeen := env.nowMillis
    isDirect := true
    natInfo := some l.natInfo }

/-- `observation_from_route`. -/
def observationFromRoute (l : ProtocolLayer) (env : Env) (routeKey : RouteKey) :
    NatObservation where
  observedProtocol := .ofProtocol routeKey.protocol
  observedAddr := routeKey.peerAddr
  observerPeerId := l.peerId
  observedAt := env.nowMillis

/-- `discovery_entries`: this node itself, and every known peer that has a
route, with the metric of its first route. -/
def discoveryEntries (l : ProtocolLayer) (env : Env) (requester : PeerId) : List RouteEntry :=
  ⟨l.selfPeerInfo env, 0⟩ :: l.transport.knownPeers.filterMap fun peer =>
    if peer.peerId = requester then none
    else (l.transport.routesOf peer.peerId).head?.map fun route => ⟨peer, route.metric⟩

/-- `hello_payload`. -/
def helloPayload (l : ProtocolLayer) (env : Env) (requester : PeerId)
    (observedAddr : Option NatObservation) : HelloPayload where
  peer := l.selfPeerInfo env
  peers := l.discoveryEntries env requester
  observedAddr := observedAddr

/-- `punch_payload_with_request_id`. -/
def punchPayloadWithRequestId (l : ProtocolLayer) (dest : PeerId) (requestId : UInt64) :
    PunchPayload where
  requestId := requestId
  src := l.peerId
  dest := dest
  natInfo := l.natInfo

/-- `is_confirmed_or_candidate`. -/
def isConfirmedOrCandidate (l : ProtocolLayer) (peerId : PeerId) (routeKey : RouteKey)
    (metric : UInt8) : Bool :=
  metric = 0 ∧
    ((l.transport.routesOf peerId).any (fun route => route.routeKey = routeKey ∧ route.isDirect) ∨
      l.routeCandidates.get peerId = some routeKey)

/-! ## Writes to one table -/

/-- `peer_nat.insert`. -/
def insertPeerNat (l : ProtocolLayer) (peerId : PeerId) (natInfo : NatInfo) : ProtocolLayer :=
  { l with peerNat := l.peerNat.insert peerId natInfo }

/-- `if let Some(nat_info) = &peer.nat_info { peer_nat.insert }`. -/
def learnPeerNat (l : ProtocolLayer) (peer : PeerInfo) : ProtocolLayer :=
  match peer.natInfo with
  | some natInfo => l.insertPeerNat peer.peerId natInfo
  | none => l

/-- `route_candidates.insert`. -/
def insertCandidate (l : ProtocolLayer) (peerId : PeerId) (routeKey : RouteKey) : ProtocolLayer :=
  { l with routeCandidates := l.routeCandidates.insert peerId routeKey }

/-- `pending_hello_routes.insert`. -/
def insertPendingHello (l : ProtocolLayer) (routeKey : RouteKey) : ProtocolLayer :=
  { l with pendingHelloRoutes := l.pendingHelloRoutes.insert routeKey () }

/-- `pending_hello_routes.remove`. -/
def removePendingHello (l : ProtocolLayer) (routeKey : RouteKey) : ProtocolLayer :=
  { l with pendingHelloRoutes := l.pendingHelloRoutes.remove routeKey }

/-- `pending_punch.insert`. -/
def insertPendingPunch (l : ProtocolLayer) (requestId : UInt64) (peerId : PeerId) :
    ProtocolLayer :=
  { l with pendingPunch := l.pendingPunch.insert requestId peerId }

/-- `pending_punch.remove`. -/
def removePendingPunch (l : ProtocolLayer) (requestId : UInt64) : ProtocolLayer :=
  { l with pendingPunch := l.pendingPunch.remove requestId }

/-- `pending_nat_observe.insert`. -/
def insertPendingNatObserve (l : ProtocolLayer) (peerId : PeerId) (routeKey : RouteKey) :
    ProtocolLayer :=
  { l with pendingNatObserve := l.pendingNatObserve.insert peerId routeKey }

/-- `pending_nat_observe.remove`. -/
def removePendingNatObserve (l : ProtocolLayer) (peerId : PeerId) : ProtocolLayer :=
  { l with pendingNatObserve := l.pendingNatObserve.remove peerId }

/-- `last_punch_time.insert`. -/
def insertLastPunchTime (l : ProtocolLayer) (peerId : PeerId) (now : UInt64) : ProtocolLayer :=
  { l with lastPunchTime := l.lastPunchTime.insert peerId now }

/-- `pending_echo.insert`. -/
def insertPendingEcho (l : ProtocolLayer) (peerId : PeerId) (ts : UInt64) : ProtocolLayer :=
  { l with pendingEcho := l.pendingEcho.insert peerId ts }

/-- `apply_observation`. -/
def applyObservation (l : ProtocolLayer) (observation : NatObservation) : ProtocolLayer :=
  { l with natInfo := applyObservationToNatInfo l.natInfo observation }

/-- The write of the STUN loop of `start_nat_maintenance`. -/
def applyStunResult (l : ProtocolLayer) (result : StunResult) : ProtocolLayer :=
  { l with natInfo := applyStunResultToNatInfo l.natInfo result }

/-- `is_confirmed_or_pending_nat_observe`.  The second test takes the pending
request away, whatever its key. -/
def isConfirmedOrPendingNatObserve (l : ProtocolLayer) (peerId : PeerId) (routeKey : RouteKey)
    (metric : UInt8) : Bool × ProtocolLayer :=
  if l.isConfirmedOrCandidate peerId routeKey metric then (true, l)
  else if metric = 0 then
    (l.pendingNatObserve.get peerId = some routeKey, l.removePendingNatObserve peerId)
  else (false, l)

/-! ## Changing routes -/

/-- `spawn_probe_rtt`. -/
def spawnProbeRtt (l : ProtocolLayer) (peerId : PeerId) (routeKey : RouteKey) : ProtocolLayer :=
  if (l.transport.routesOf peerId).any fun r => r.routeKey = routeKey ∧ r.measuredRtt.isSome then l
  else { l with probeTasks := l.probeTasks ++ [(peerId, routeKey)] }

/-- `transport.upsert_peer_info`. -/
def upsertPeerInfo (l : ProtocolLayer) (env : Env) (peer : PeerInfo) : ProtocolLayer :=
  { l with transport := l.transport.upsertPeerInfo env peer }

/-- `transport.confirm_peer_route`. -/
def confirmPeerRoute (l : ProtocolLayer) (env : Env) (peer : PeerInfo) (routeKey : RouteKey)
    (metric : UInt8) : ProtocolLayer :=
  { l with transport := l.transport.confirmPeerRoute env peer routeKey metric }

/-- `confirm_direct_and_promote`. -/
def confirmDirectAndPromote (l : ProtocolLayer) (env : Env) (peer : PeerInfo)
    (routeKey : RouteKey) : ProtocolLayer :=
  let l := l.confirmPeerRoute env peer routeKey 0
  let l := { l with routeCandidates := l.routeCandidates.remove peer.peerId }
  l.spawnProbeRtt peer.peerId routeKey

/-- `confirm_tcp_route`. -/
def confirmTcpRoute (l : ProtocolLayer) (env : Env) (peer : PeerInfo) (routeKey : RouteKey)
    (metric : UInt8) : ProtocolLayer :=
  if routeKey.protocol.isTcp ∧ metric = 0 then l.confirmDirectAndPromote env peer routeKey else l

/-- `confirm_relay_route_from_control`. -/
def confirmRelayRouteFromControl (l : ProtocolLayer) (env : Env) (peer : PeerInfo)
    (routeKey : RouteKey) (metric : UInt8) : ProtocolLayer :=
  if metric > 0 then l.confirmPeerRoute env peer routeKey metric else l

/-- The body of the loop of `ingest_route_entries`. -/
def ingestRouteEntry (env : Env) (via : RouteKey) (l : ProtocolLayer) (item : RouteEntry) :
    ProtocolLayer :=
  if item.peer.peerId = l.peerId ∨ item.peer.peerId.isUnspecified then l
  else (l.learnPeerNat item.peer).confirmPeerRoute env item.peer via (saturatingAdd item.metric 1)

/-- `ingest_route_entries`. -/
def ingestRouteEntries (l : ProtocolLayer) (env : Env) (entries : List RouteEntry)
    (via : RouteKey) : ProtocolLayer :=
  entries.foldl (ingestRouteEntry env via) l

/-! ## Sending -/

/-- `send_protocol`. -/
def sendProtocol (l : ProtocolLayer) (env : Env) (dest : PeerId) (protocol : ProtocolType)
    (payload : List UInt8) : Outcome ProtocolLayer :=
  match Packet.build protocol l.peerId dest l.maxTtl payload with
  | .error e => .fail l e
  | .ok packet =>
      (l.transport.sendWire env dest packet.buf).map fun t => { l with transport := t }

/-- `send_protocol_to_route`. -/
def sendProtocolToRoute (l : ProtocolLayer) (env : Env) (dest : PeerId) (routeKey : RouteKey)
    (protocol : ProtocolType) (payload : List UInt8) : Outcome ProtocolLayer :=
  match Packet.build protocol l.peerId dest l.maxTtl payload with
  | .error e => .fail l e
  | .ok packet =>
      (l.transport.sendWireToRoute env routeKey packet.buf).map fun t => { l with transport := t }

/-- `forward_packet`. -/
def forwardPacket (l : ProtocolLayer) (env : Env) (packet : Packet) : Outcome ProtocolLayer :=
  match packet.decrementTtl with
  | none => .ok l
  | some packet =>
      (l.transport.sendWire env packet.dest packet.buf).map fun t => { l with transport := t }

/-- `query_routes`. -/
def queryRoutes (l : ProtocolLayer) (env : Env) (peerId : PeerId) : Outcome ProtocolLayer :=
  l.sendProtocol env peerId .idRouteQuery []

/-- `execute_punch`. -/
def executePunch (c : Codec) (l : ProtocolLayer) (env : Env) (peerId : PeerId)
    (peerNatInfo : NatInfo) : Outcome ProtocolLayer :=
  let payload := encodePunchPayload c (l.punchPayloadWithRequestId peerId env.punchId)
  let l := l.insertPendingPunch env.punchId peerId
  match Packet.build .punchRequest l.peerId peerId l.maxTtl payload with
  | .error e => .fail l e
  | .ok packet => ⟨l, [.punch packet.buf peerNatInfo], env.punchNow⟩

/-- `last_punch_time` of the peer is less than so many seconds ago. -/
def punchedWithin (l : ProtocolLayer) (now : UInt64) (peerId : PeerId) (secs : Nat) : Bool :=
  match l.lastPunchTime.get peerId with
  | some last => now.toNat - last.toNat < secs
  | none => false

/-- `try_execute_punch`.  Punches that came over a relay are rate limited. -/
def tryExecutePunch (c : Codec) (l : ProtocolLayer) (env : Env) (src : PeerId) (natInfo : NatInfo)
    (routeKey : RouteKey) (metric : UInt8) : Outcome ProtocolLayer :=
  if l.hasDirectRoute src then .ok l
  else if metric > 0 then
    if l.punchedWithin env.nowSecs src 5 then .ok l
    else executePunch c (l.insertLastPunchTime src env.nowSecs) env src natInfo
  else executePunch c l env src (injectPeerAddr natInfo routeKey.peerAddr)

/-! ## The interface -/

/-- `close`. -/
def close (l : ProtocolLayer) : ProtocolLayer := { l with closed := true }

/-- `allow_punch`. -/
def allowPunch (l : ProtocolLayer) (peerId : PeerId) : ProtocolLayer :=
  { l with punchWhitelist := l.punchWhitelist.map fun set => pushNew set peerId }

/-- `deny_punch`. -/
def denyPunch (l : ProtocolLayer) (peerId : PeerId) : ProtocolLayer :=
  { l with punchWhitelist := some (match l.punchWhitelist with
      | some set => set.filter (· ≠ peerId)
      | none => []) }

/-- `set_punch_whitelist`. -/
def setPunchWhitelist (l : ProtocolLayer) (peers : Option (List PeerId)) : ProtocolLayer :=
  { l with punchWhitelist := peers }

/-- `route_metric_for`, and `ensure_peer_reachable` without the candidates. -/
def routeMetricFor (l : ProtocolLayer) (peerId : PeerId) :
    IoResult (RouteKey × UInt8) × ProtocolLayer :=
  match l.transport.routeFor peerId with
  | (.ok route, t) => (.ok (route.routeKey, route.metric), { l with transport := t })
  | (.error e, t) =>
      (match l.routeCandidates.get peerId with
        | some route => .ok (route, 0)
        | none => .error e, { l with transport := t })

/-- `punch`. -/
def punch (c : Codec) (l : ProtocolLayer) (env : Env) (peerId : PeerId) : Outcome ProtocolLayer :=
  if ¬ l.punchAllowed peerId then
    .fail l ⟨.permissionDenied, "peer is not in punch whitelist"⟩
  else
    let payload := l.punchPayloadWithRequestId peerId env.requestId
    let l := l.insertPendingPunch payload.requestId peerId
    (l.sendProtocol env peerId .punchRequest (encodePunchPayload c payload)).andThen fun l =>
      match l.peerNat.get peerId with
      | some natInfo => executePunch c l env peerId natInfo
      | none => .ok l

/-- `try_send_quic_payload`. -/
def trySendQuicPayload (l : ProtocolLayer) (peerId : PeerId) (payload : List UInt8) :
    Outcome ProtocolLayer :=
  match Packet.build .quicRelay l.peerId peerId l.maxTtl payload with
  | .error e => .fail l e
  | .ok packet =>
      match l.transport.routeFor peerId with
      | (.ok route, t) =>
          .ok { l with transport :=
            if route.metric = 0 then t.trySendWireToRoute route.routeKey packet.buf
            else t.trySendWire peerId packet.buf }
      | (.error _, t) =>
          match l.routeCandidates.get peerId with
          | some route => .ok { l with transport := t.trySendWireToRoute route packet.buf }
          | none => .fail { l with transport := t } ⟨.notFound, "peer route not found"⟩

/-- `try_send_quic_payload_via`. -/
def trySendQuicPayloadVia (l : ProtocolLayer) (peerId : PeerId) (routeKey : RouteKey)
    (payload : List UInt8) : Outcome ProtocolLayer :=
  match Packet.build .quicRelay l.peerId peerId l.maxTtl payload with
  | .error e => .fail l e
  | .ok packet =>
      .ok { l with transport := l.transport.trySendWireToRoute routeKey packet.buf }

/-- A task of `spawn_probe_rtt`, and one turn of the heartbeat loop. -/
def sendEcho (l : ProtocolLayer) (env : Env) (peerId : PeerId) (routeKey : RouteKey) :
    Outcome ProtocolLayer :=
  (l.insertPendingEcho peerId env.nowMillis).sendProtocolToRoute env peerId routeKey .echoRequest
    (toBeBytes 8 env.nowMillis.toNat)

/-! ## What a step adds to the routes -/

/-- The peer has a confirmed route with this key and metric. -/
def HasRoute (l : ProtocolLayer) (p : PeerId) (k : RouteKey) (m : UInt8) : Prop :=
  l.transport.HasRoute p k m

instance (l : ProtocolLayer) (p : PeerId) (k : RouteKey) (m : UInt8) :
    Decidable (l.HasRoute p k m) := inferInstanceAs (Decidable (l.transport.HasRoute p k m))

/-- From `l` to `l'` the layer keeps its identity and its direct routes, and
every new route meets `A`. -/
structure Adds (A : PeerId → RouteKey → UInt8 → Prop) (l l' : ProtocolLayer) : Prop where
  peerId : l'.peerId = l.peerId
  maxTtl : l'.maxTtl = l.maxTtl
  back : ∀ {p k m}, l'.HasRoute p k m → l.HasRoute p k m ∨ A p k m
  kept : ∀ {p k}, l.HasRoute p k 0 → l'.HasRoute p k 0

/-- From `l` to `l'` no route is added. -/
abbrev Quiet (l l' : ProtocolLayer) : Prop := Adds (fun _ _ _ => False) l l'

section Adds

variable {A B : PeerId → RouteKey → UInt8 → Prop} {l l' l'' : ProtocolLayer}

theorem Adds.refl (l : ProtocolLayer) : Adds A l l := ⟨rfl, rfl, Or.inl, id⟩

theorem Adds.trans (h : Adds A l l') (h' : Adds A l' l'') : Adds A l l'' where
  peerId := h'.peerId.trans h.peerId
  maxTtl := h'.maxTtl.trans h.maxTtl
  back hr := (h'.back hr).elim h.back Or.inr
  kept hr := h'.kept (h.kept hr)

theorem Adds.mono (h : Adds A l l') (hAB : ∀ {p k m}, A p k m → B p k m) : Adds B l l' :=
  ⟨h.peerId, h.maxTtl, fun hr => (h.back hr).imp_right hAB, h.kept⟩

/-- A quiet step adds whatever one likes. -/
theorem Adds.of_quiet (h : Quiet l l') : Adds A l l' := h.mono False.elim

theorem Quiet.of_sameRoutes (hid : l'.peerId = l.peerId) (httl : l'.maxTtl = l.maxTtl)
    (h : l.transport.SameRoutes l'.transport) : Quiet l l' :=
  ⟨hid, httl, fun hr => Or.inl ((h _ _ _).mp hr), fun hr => (h _ _ _).mpr hr⟩

/-- A change of the other fields is quiet. -/
theorem Quiet.of_transport (hid : l'.peerId = l.peerId) (httl : l'.maxTtl = l.maxTtl)
    (h : l'.transport = l.transport) : Quiet l l' :=
  .of_sameRoutes hid httl (h ▸ Transport.SameRoutes.refl _)

/-- Without new direct routes, the direct routes are the same. -/
theorem Adds.direct_iff (h : Adds A l l') (hA : ∀ {p k}, ¬ A p k 0) {p : PeerId} {k : RouteKey} :
    l'.HasRoute p k 0 ↔ l.HasRoute p k 0 :=
  ⟨fun hr => (h.back hr).elim id fun ha => absurd ha hA, h.kept⟩

end Adds

/-! ## What a step leaves alone -/

/-- From `l` to `l'` the layer keeps its identity, its peers, its candidates and its
routes. -/
structure SameStores (l l' : ProtocolLayer) : Prop where
  peerId : l'.peerId = l.peerId
  maxTtl : l'.maxTtl = l.maxTtl
  transport : l.transport.SameStores l'.transport
  candidates : ∀ p, l'.routeCandidates.get p = l.routeCandidates.get p

section SameStores

variable {l l' l'' : ProtocolLayer}

theorem SameStores.refl (l : ProtocolLayer) : SameStores l l := ⟨rfl, rfl, .refl _, fun _ => rfl⟩

theorem SameStores.trans (h : SameStores l l') (h' : SameStores l' l'') : SameStores l l'' where
  peerId := h'.peerId.trans h.peerId
  maxTtl := h'.maxTtl.trans h.maxTtl
  transport := h.transport.trans h'.transport
  candidates p := (h'.candidates p).trans (h.candidates p)

/-- A change of the other fields. -/
theorem SameStores.of_fields (hid : l'.peerId = l.peerId) (httl : l'.maxTtl = l.maxTtl)
    (h : l'.transport = l.transport) (hcandidates : l'.routeCandidates = l.routeCandidates) :
    SameStores l l' := ⟨hid, httl, h ▸ .refl _, fun _ => hcandidates ▸ rfl⟩

/-- What leaves the routes alone is quiet. -/
theorem SameStores.quiet (h : SameStores l l') : Quiet l l' :=
  .of_sameRoutes h.peerId h.maxTtl h.transport.routes

theorem Adds.of_same {A : PeerId → RouteKey → UInt8 → Prop} (h : SameStores l l') : Adds A l l' :=
  .of_quiet h.quiet

theorem SameStores.andThen {o : Outcome ProtocolLayer}
    {next : ProtocolLayer → Outcome ProtocolLayer} (h : SameStores l o.state)
    (hnext : ∀ m, SameStores m (next m).state) : SameStores l (o.andThen next).state := by
  rcases o.andThen_state next with heq | heq
  · rw [heq]
    exact h
  · rw [heq]
    exact h.trans (hnext o.state)

end SameStores

/-! ## What a step writes to the stores -/

/-- The writes to the peers, the candidates and the routes. -/
inductive Write where
  /-- `upsert_peer_info`. -/
  | upsert (peer : PeerInfo)
  /-- `confirm_peer_route`. -/
  | confirm (peer : PeerInfo) (routeKey : RouteKey) (metric : UInt8)
  /-- `route_candidates.insert`. -/
  | candidate (peerId : PeerId) (routeKey : RouteKey)
  /-- `route_candidates.remove`. -/
  | promote (peerId : PeerId)

/-- The layer after a write. -/
def Write.apply (env : Env) (l : ProtocolLayer) : Write → ProtocolLayer
  | upsert peer => l.upsertPeerInfo env peer
  | confirm peer routeKey metric => l.confirmPeerRoute env peer routeKey metric
  | candidate peerId routeKey => l.insertCandidate peerId routeKey
  | promote peerId => { l with routeCandidates := l.routeCandidates.remove peerId }

/-- From `l` the stores change by writes that meet `W` only. -/
inductive Writes (W : Write → Prop) (l : ProtocolLayer) : ProtocolLayer → Prop where
  | refl : Writes W l l
  | write {m : ProtocolLayer} (env : Env) {w : Write} (before : Writes W l m) (meets : W w) :
      Writes W l (w.apply env m)
  | same {m m' : ProtocolLayer} (before : Writes W l m) (same : SameStores m m') : Writes W l m'

section Writes

variable {W V : Write → Prop} {l l' l'' : ProtocolLayer}

theorem Writes.of_same (h : SameStores l l') : Writes W l l' := .same .refl h

theorem Writes.trans (h : Writes W l l') (h' : Writes W l' l'') : Writes W l l'' := by
  induction h' with
  | refl => exact h
  | write env _ meets ih => exact .write env ih meets
  | same _ same ih => exact .same ih same

theorem Writes.mono (h : Writes W l l') (hWV : ∀ w, W w → V w) : Writes V l l' := by
  induction h with
  | refl => exact .refl
  | write env _ meets ih => exact .write env ih (hWV _ meets)
  | same _ same ih => exact .same ih same

theorem Writes.peerId (h : Writes W l l') : l'.peerId = l.peerId := by
  induction h with
  | refl => rfl
  | @write m env w _ _ ih => cases w <;> exact ih
  | same _ same ih => exact same.peerId.trans ih

theorem transport_peerId_apply (env : Env) (l : ProtocolLayer) (w : Write) :
    (w.apply env l).transport.peerId = l.transport.peerId := by
  cases w with
  | upsert peer => exact Transport.upsertPeerInfo_peerId _ env peer
  | confirm peer key metric => exact Transport.upsertPeerInfo_peerId _ env _
  | candidate p key => rfl
  | promote p => rfl

/-- What every allowed write keeps, and the stores determine, is kept. -/
theorem Writes.invariant {I : ProtocolLayer → Prop} (h : Writes W l l')
    (same : ∀ m m', SameStores m m' → I m → I m')
    (write : ∀ m env w, W w → I m → I (w.apply env m)) (hl : I l) : I l' := by
  induction h with
  | refl => exact hl
  | write env _ meets ih => exact write _ env _ meets ih
  | same _ hsame ih => exact same _ _ hsame ih

end Writes

theorem hasDirectRoute_iff {l : ProtocolLayer} {p : PeerId} :
    l.hasDirectRoute p = true ↔ ∃ k, l.HasRoute p k 0 := by
  simp only [hasDirectRoute, List.any_eq_true, Route.isDirect_iff]
  constructor
  · intro h
    obtain ⟨r, hr, hm⟩ := h
    exact ⟨r.routeKey, r, hr, rfl, hm⟩
  · intro h
    obtain ⟨k, r, hr, -, hm⟩ := h
    exact ⟨r, hr, hm⟩

/-- What is advertised for another peer is the metric of its first route. -/
theorem head_of_discoveryEntries {l : ProtocolLayer} {env : Env} {requester : PeerId}
    {entry : RouteEntry} (h : entry ∈ l.discoveryEntries env requester) :
    entry.peer.peerId = l.peerId ∨
      ∃ route, (l.transport.routesOf entry.peer.peerId).head? = some route ∧
        route.metric = entry.metric := by
  rcases List.mem_cons.mp h with rfl | h
  · exact Or.inl rfl
  · obtain ⟨peer, -, hpeer⟩ := List.mem_filterMap.mp h
    split at hpeer
    next => cases hpeer
    next =>
      obtain ⟨route, hroute, rfl⟩ := Option.map_eq_some_iff.mp hpeer
      exact Or.inr ⟨route, hroute, rfl⟩

theorem isConfirmedOrCandidate_iff {l : ProtocolLayer} {p : PeerId} {k : RouteKey} {m : UInt8} :
    l.isConfirmedOrCandidate p k m = true ↔
      m = 0 ∧ (l.HasRoute p k 0 ∨ l.routeCandidates.get p = some k) := by
  simp only [isConfirmedOrCandidate, List.any_eq_true, decide_eq_true_eq, Route.isDirect_iff]
  rfl

/-! ## Writes to one table -/

section Writes

variable (l : ProtocolLayer)

theorem same_insertPeerNat (p : PeerId) (natInfo : NatInfo) :
    SameStores l (l.insertPeerNat p natInfo) :=
  .of_fields rfl rfl rfl rfl

theorem same_learnPeerNat (peer : PeerInfo) : SameStores l (l.learnPeerNat peer) := by
  simp only [learnPeerNat]
  split
  next => exact same_insertPeerNat l _ _
  next => exact SameStores.refl l

theorem quiet_insertCandidate (p : PeerId) (k : RouteKey) : Quiet l (l.insertCandidate p k) :=
  .of_transport rfl rfl rfl

theorem same_insertPendingHello (k : RouteKey) : SameStores l (l.insertPendingHello k) :=
  .of_fields rfl rfl rfl rfl

theorem same_removePendingHello (k : RouteKey) : SameStores l (l.removePendingHello k) :=
  .of_fields rfl rfl rfl rfl

theorem same_insertPendingPunch (requestId : UInt64) (p : PeerId) :
    SameStores l (l.insertPendingPunch requestId p) := .of_fields rfl rfl rfl rfl

theorem same_removePendingPunch (requestId : UInt64) :
    SameStores l (l.removePendingPunch requestId) :=
  .of_fields rfl rfl rfl rfl

theorem same_insertPendingNatObserve (p : PeerId) (k : RouteKey) :
    SameStores l (l.insertPendingNatObserve p k) := .of_fields rfl rfl rfl rfl

theorem same_removePendingNatObserve (p : PeerId) : SameStores l (l.removePendingNatObserve p) :=
  .of_fields rfl rfl rfl rfl

theorem same_insertLastPunchTime (p : PeerId) (now : UInt64) :
    SameStores l (l.insertLastPunchTime p now) := .of_fields rfl rfl rfl rfl

theorem same_insertPendingEcho (p : PeerId) (ts : UInt64) :
    SameStores l (l.insertPendingEcho p ts) :=
  .of_fields rfl rfl rfl rfl

theorem same_applyObservation (observation : NatObservation) :
    SameStores l (l.applyObservation observation) := .of_fields rfl rfl rfl rfl

theorem same_applyStunResult (result : StunResult) : SameStores l (l.applyStunResult result) :=
  .of_fields rfl rfl rfl rfl

theorem quiet_upsertPeerInfo (env : Env) (peer : PeerInfo) : Quiet l (l.upsertPeerInfo env peer) :=
  .of_sameRoutes rfl rfl (l.transport.sameRoutes_upsertPeerInfo env peer)

theorem same_isConfirmedOrPendingNatObserve (p : PeerId) (key : RouteKey) (metric : UInt8) :
    SameStores l (l.isConfirmedOrPendingNatObserve p key metric).2 := by
  simp only [isConfirmedOrPendingNatObserve]
  split
  next => exact SameStores.refl l
  next =>
    split
    next => exact same_removePendingNatObserve l p
    next => exact SameStores.refl l

end Writes

/-! ## The helpers that write -/

theorem same_spawnProbeRtt (l : ProtocolLayer) (p : PeerId) (k : RouteKey) :
    SameStores l (l.spawnProbeRtt p k) := by
  simp only [spawnProbeRtt]
  split
  next => exact SameStores.refl l
  next => exact .of_fields rfl rfl rfl rfl

theorem adds_confirmPeerRoute (l : ProtocolLayer) (env : Env) (peer : PeerInfo) (key : RouteKey)
    (metric : UInt8) :
    Adds (fun p k m => p = peer.peerId ∧ k = key ∧ m = metric) l
      (l.confirmPeerRoute env peer key metric) :=
  ⟨rfl, rfl, Transport.hasRoute_confirmPeerRoute, Transport.HasRoute.confirmPeerRoute⟩

/-- If the write confirms a route, the route meets `A`. -/
def Write.Meets (A : PeerId → RouteKey → UInt8 → Prop) : Write → Prop
  | confirm peer routeKey metric => A peer.peerId routeKey metric
  | _ => True

/-- Only a confirmation adds a route. -/
theorem Writes.adds {A : PeerId → RouteKey → UInt8 → Prop} {l l' : ProtocolLayer}
    (h : Writes (Write.Meets A) l l') : Adds A l l' := by
  induction h with
  | refl => exact Adds.refl l
  | @write m env w _ meets ih =>
      refine ih.trans ?_
      cases w with
      | upsert peer => exact .of_quiet (quiet_upsertPeerInfo m env peer)
      | confirm peer key metric =>
          refine (adds_confirmPeerRoute m env peer key metric).mono ?_
          intro p k m' h
          obtain ⟨rfl, rfl, rfl⟩ := h
          exact meets
      | candidate p key => exact .of_quiet (quiet_insertCandidate m p key)
      | promote p => exact .of_quiet (.of_transport rfl rfl rfl)
  | same _ same ih => exact ih.trans (.of_same same)

/-- No write takes a direct route away. -/
theorem hasRoute_apply {l : ProtocolLayer} (env : Env) (w : Write) {p : PeerId} {k : RouteKey}
    (h : l.HasRoute p k 0) : (w.apply env l).HasRoute p k 0 := by
  have hwrites : Writes (Write.Meets fun _ _ _ => True) l (w.apply env l) :=
    .write env .refl (by cases w <;> trivial)
  exact hwrites.adds.kept h

section Confirm

variable {W : Write → Prop} (l : ProtocolLayer) (env : Env) (peer : PeerInfo) (key : RouteKey)

theorem writes_confirmDirectAndPromote (hconfirm : W (.confirm peer key 0))
    (hpromote : W (.promote peer.peerId)) : Writes W l (l.confirmDirectAndPromote env peer key) :=
  .same (.write env (.write env .refl hconfirm) hpromote) (same_spawnProbeRtt _ peer.peerId key)

/-- After the confirmation the route is there, and it is direct. -/
theorem hasRoute_confirmDirectAndPromote :
    (l.confirmDirectAndPromote env peer key).HasRoute peer.peerId key 0 :=
  (same_spawnProbeRtt _ peer.peerId key).quiet.kept
    (l.transport.hasRoute_confirmPeerRoute_self env peer key)

theorem writes_confirmTcpRoute {metric : UInt8}
    (hconfirm : key.protocol.isTcp → metric = 0 → W (.confirm peer key 0))
    (hpromote : W (.promote peer.peerId)) : Writes W l (l.confirmTcpRoute env peer key metric) := by
  simp only [confirmTcpRoute]
  split
  next h => exact writes_confirmDirectAndPromote l env peer key (hconfirm h.1 h.2) hpromote
  next => exact .refl

theorem writes_confirmRelayRouteFromControl {metric : UInt8}
    (hconfirm : 0 < metric → W (.confirm peer key metric)) :
    Writes W l (l.confirmRelayRouteFromControl env peer key metric) := by
  simp only [confirmRelayRouteFromControl]
  split
  next h => exact .write env .refl (hconfirm h)
  next => exact .refl

end Confirm

/-- The route an advertised entry may add: one hop longer than advertised. -/
def Advertised (self : PeerId) (entries : List RouteEntry) (p : PeerId) (m : UInt8) : Prop :=
  ∃ item ∈ entries, p = item.peer.peerId ∧ p ≠ self ∧ p.isUnspecified = false ∧
    m = saturatingAdd item.metric 1

/-- The entries that are ingested: not this node, and not without an id. -/
def Ingested (self : PeerId) (item : RouteEntry) : Prop :=
  item.peer.peerId ≠ self ∧ item.peer.peerId.isUnspecified = false

theorem writes_ingestRouteEntry {W : Write → Prop} (env : Env) (via : RouteKey)
    (l : ProtocolLayer) (item : RouteEntry)
    (hconfirm : Ingested l.peerId item →
      W (.confirm item.peer via (saturatingAdd item.metric 1))) :
    Writes W l (ingestRouteEntry env via l item) := by
  simp only [ingestRouteEntry]
  split
  next => exact .refl
  next h =>
    have hingested : Ingested l.peerId item := by simpa [Ingested] using h
    exact .write env (.of_same (same_learnPeerNat l item.peer)) (hconfirm hingested)

/-- By induction on the list, every write comes from one of the entries. -/
theorem writes_ingestRouteEntries {W : Write → Prop} (l : ProtocolLayer) (env : Env)
    (entries : List RouteEntry) (via : RouteKey)
    (hconfirm : ∀ item ∈ entries, Ingested l.peerId item →
      W (.confirm item.peer via (saturatingAdd item.metric 1))) :
    Writes W l (l.ingestRouteEntries env entries via) := by
  simp only [ingestRouteEntries]
  induction entries generalizing l with
  | nil => exact .refl
  | cons item entries ih =>
      have hhead := writes_ingestRouteEntry env via l item (hconfirm item (.head _))
      rw [List.foldl_cons]
      refine hhead.trans (ih _ ?_)
      intro e he hingested
      rw [hhead.peerId] at hingested
      exact hconfirm e (.tail _ he) hingested

/-- Every route after the entries were ingested was there before, or one of them
advertised it. -/
theorem adds_ingestRouteEntries (l : ProtocolLayer) (env : Env) (entries : List RouteEntry)
    (via : RouteKey) :
    Adds (fun p k m => k = via ∧ Advertised l.peerId entries p m) l
      (l.ingestRouteEntries env entries via) := by
  refine Writes.adds (writes_ingestRouteEntries l env entries via ?_)
  intro item hitem hingested
  exact ⟨rfl, item, hitem, rfl, hingested.1, hingested.2, rfl⟩

/-- An advertised route is never direct. -/
theorem Advertised.ne_zero {self : PeerId} {entries : List RouteEntry} {p : PeerId} {m : UInt8}
    (h : Advertised self entries p m) : m ≠ 0 := by
  obtain ⟨item, -, -, -, -, rfl⟩ := h
  exact saturatingAdd_one_ne_zero item.metric

/-! ## The helpers that do not -/

theorem same_transport {l : ProtocolLayer} {t : Transport} (h : l.transport.SameStores t) :
    SameStores l { l with transport := t } := ⟨rfl, rfl, h, fun _ => rfl⟩

theorem same_sendProtocol (l : ProtocolLayer) (env : Env) (dest : PeerId)
    (protocol : ProtocolType) (payload : List UInt8) :
    SameStores l (l.sendProtocol env dest protocol payload).state := by
  simp only [sendProtocol]
  split
  next => exact SameStores.refl l
  next => exact same_transport (Transport.sameStores_sendWire _ _ _ _)

@[simp] theorem sendProtocolToRoute_state (l : ProtocolLayer) (env : Env) (dest : PeerId)
    (key : RouteKey) (protocol : ProtocolType) (payload : List UInt8) :
    (l.sendProtocolToRoute env dest key protocol payload).state = l := by
  simp only [sendProtocolToRoute]
  split
  next => rfl
  next => rw [Outcome.map_state, Transport.sendWireToRoute_state]

theorem same_forwardPacket (l : ProtocolLayer) (env : Env) (packet : Packet) :
    SameStores l (l.forwardPacket env packet).state := by
  simp only [forwardPacket]
  split
  next => exact SameStores.refl l
  next => exact same_transport (Transport.sameStores_sendWire _ _ _ _)

theorem same_executePunch (c : Codec) (l : ProtocolLayer) (env : Env) (p : PeerId)
    (natInfo : NatInfo) : SameStores l (executePunch c l env p natInfo).state := by
  simp only [executePunch]
  split <;> exact same_insertPendingPunch l env.punchId p

theorem same_tryExecutePunch (c : Codec) (l : ProtocolLayer) (env : Env) (p : PeerId)
    (natInfo : NatInfo) (key : RouteKey) (metric : UInt8) :
    SameStores l (tryExecutePunch c l env p natInfo key metric).state := by
  simp only [tryExecutePunch]
  split
  next => exact SameStores.refl l
  next =>
    split
    next =>
      split
      next => exact SameStores.refl l
      next =>
        exact (same_insertLastPunchTime l p env.nowSecs).trans
          (same_executePunch c _ env p natInfo)
    next => exact same_executePunch c l env p _

theorem same_routeMetricFor (l : ProtocolLayer) (p : PeerId) :
    SameStores l (l.routeMetricFor p).2 := by
  have hlookup := l.transport.sameStores_routeFor p
  simp only [routeMetricFor]
  split
  next t heq =>
    rw [heq] at hlookup
    exact same_transport hlookup
  next t heq =>
    rw [heq] at hlookup
    exact same_transport hlookup

theorem same_punch (c : Codec) (l : ProtocolLayer) (env : Env) (p : PeerId) :
    SameStores l (punch c l env p).state := by
  simp only [punch]
  split
  next => exact SameStores.refl l
  next =>
    refine SameStores.andThen ?_ ?_
    · exact (same_insertPendingPunch l env.requestId p).trans
        (same_sendProtocol _ env p .punchRequest _)
    · intro m
      split
      next natInfo _ => exact same_executePunch c m env p natInfo
      next => exact SameStores.refl m

theorem same_trySendQuicPayload (l : ProtocolLayer) (p : PeerId) (payload : List UInt8) :
    SameStores l (l.trySendQuicPayload p payload).state := by
  simp only [trySendQuicPayload]
  split
  next => exact SameStores.refl l
  next =>
    have hlookup := l.transport.sameStores_routeFor p
    split
    next t heq =>
      rw [heq] at hlookup
      refine same_transport (hlookup.trans ?_)
      split <;> exact Transport.sameStores_outbound _ _
    next t heq =>
      rw [heq] at hlookup
      split
      next => exact same_transport (hlookup.trans (Transport.sameStores_outbound _ _))
      next => exact same_transport hlookup

theorem same_trySendQuicPayloadVia (l : ProtocolLayer) (p : PeerId) (key : RouteKey)
    (payload : List UInt8) : SameStores l (l.trySendQuicPayloadVia p key payload).state := by
  simp only [trySendQuicPayloadVia]
  split
  next => exact SameStores.refl l
  next => exact same_transport (Transport.sameStores_outbound _ _)

theorem same_sendEcho (l : ProtocolLayer) (env : Env) (p : PeerId) (key : RouteKey) :
    SameStores l (l.sendEcho env p key).state := by
  simp only [sendEcho]
  rw [sendProtocolToRoute_state]
  exact same_insertPendingEcho l p env.nowMillis

end ProtocolLayer

end RustP2p
