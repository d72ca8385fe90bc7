import RustP2p.Quic.Protocol

/-!
# Handling a packet

`handle_transport_packet` of `protocol.rs`, for one received byte string.

* `screen` drops what is not an overlay packet or comes from this node itself.
* `arrive` is the common part: read time, peer store, and the candidate for a
  packet that came directly.
* A packet for another node is forwarded.
* `dispatch` has one function per packet type.

Two branches put an item into a bounded channel with an awaiting send, and the
HelloReply branch goes on after it.  So handling gives a `Handling`: it is done,
or it waits for room in one of the two channels.  `Handling.layer` is the state
at that point.
-/

namespace RustP2p

open BigEndian

/-- `TransportPayload`. -/
structure TransportPayload where
  src : PeerId
  payload : List UInt8
deriving DecidableEq, Repr

/-- How far handling gets before it has to wait. -/
inductive Handling where
  /-- The handler returned. -/
  | done (outcome : Outcome ProtocolLayer)
  /-- `hello_tx.send_async`.  Afterwards the entries are ingested. -/
  | sendHello (layer : ProtocolLayer) (item : SocketAddr × PeerId) (entries : List RouteEntry)
      (via : RouteKey)
  /-- `quic_tx.send_async`. -/
  | sendQuic (layer : ProtocolLayer) (payload : TransportPayload)

/-- The layer after handling, or where it waits. -/
def Handling.layer : Handling → ProtocolLayer
  | done outcome => outcome.state
  | sendHello layer _ _ _ => layer
  | sendQuic layer _ => layer

/-- The item that waits for the `hello` channel. -/
def Handling.item : Handling → Option (SocketAddr × PeerId)
  | sendHello _ item _ _ => some item
  | _ => none

/-- What was sent so far. -/
def Handling.effects : Handling → List Effect
  | done outcome => outcome.effects
  | sendHello .. => []
  | sendQuic .. => []

namespace ProtocolLayer

/-! ## The common part -/

/-- The packet, when it is an overlay packet of another node. -/
def screen (l : ProtocolLayer) (data : List UInt8) : IoResult (Option Packet) :=
  match data with
  | [] => .ok none
  | first :: _ =>
      match classifyPacket first with
      | .rustP2p _ =>
          match Packet.parse data with
          | .error e => .error e
          | .ok packet =>
              if packet.src = l.peerId ∨ packet.src.isUnspecified then .ok none
              else .ok (some packet)
      | _ => .ok none

/-- The peer as the packet shows it, and the layer after the common part. -/
def arrive (l : ProtocolLayer) (env : Env) (packet : Packet) (routeKey : RouteKey) :
    PeerInfo × ProtocolLayer :=
  let l := { l with transport := l.transport.updateRouteReadTime env packet.src routeKey }
  let peer := l.peerInfoFromPacket env packet.src routeKey packet.metric
  let l := l.upsertPeerInfo env peer
  (peer, if packet.metric = 0 then l.insertCandidate packet.src routeKey else l)

/-- The packet is for this node. -/
def isLocal (l : ProtocolLayer) (packet : Packet) : Bool :=
  packet.dest = l.peerId ∨ packet.dest.isBroadcast

/-! ## Hello -/

/-- The HelloRequest branch. -/
def onHelloRequest (c : Codec) (env : Env) (l : ProtocolLayer) (packet : Packet)
    (routeKey : RouteKey) (peer : PeerInfo) : Outcome ProtocolLayer :=
  let l := if packet.metric = 0 then l.confirmDirectAndPromote env peer routeKey
    else l.confirmTcpRoute env peer routeKey packet.metric
  let payload := l.helloPayload env packet.src (some (l.observationFromRoute env routeKey))
  l.sendProtocolToRoute env packet.src routeKey .helloReply (encodeHelloPayload c payload)

/-- What a HelloReply says about NATs, its own and ours.  Only a direct reply
can say how we are seen. -/
def learnHello (l : ProtocolLayer) (hello : HelloPayload) (metric : UInt8) : ProtocolLayer :=
  let l := l.learnPeerNat hello.peer
  match hello.observedAddr with
  | some observation => if metric = 0 then l.applyObservation observation else l
  | none => l

/-- A direct reply on a pending key confirms the route.  The key is no longer
pending afterwards. -/
def confirmHello (l : ProtocolLayer) (env : Env) (hello : HelloPayload) (routeKey : RouteKey)
    (metric : UInt8) : ProtocolLayer :=
  let pending := (l.pendingHelloRoutes.get routeKey).isSome
  let l := l.removePendingHello routeKey
  if metric = 0 ∧ pending then l.confirmDirectAndPromote env hello.peer routeKey
  else l.upsertPeerInfo env hello.peer

/-- The HelloReply branch, up to the channel. -/
def onHelloReply (c : Codec) (env : Env) (l : ProtocolLayer) (packet : Packet)
    (routeKey : RouteKey) : Handling :=
  match decodeHelloPayload c packet.payload with
  | .error e => .done (.fail l e)
  | .ok hello =>
      let l := (l.learnHello hello packet.metric).confirmHello env hello routeKey packet.metric
      .sendHello l (routeKey.peerAddr, hello.peer.peerId) hello.peers routeKey

/-! ## Route discovery -/

/-- The IDRouteQuery branch. -/
def onIdRouteQuery (c : Codec) (env : Env) (l : ProtocolLayer) (packet : Packet)
    (routeKey : RouteKey) (peer : PeerInfo) : Outcome ProtocolLayer :=
  let l := l.confirmRelayRouteFromControl env peer routeKey packet.metric
  let payload := encodeRouteReplyPayload c ⟨l.discoveryEntries env packet.src⟩
  l.sendProtocolToRoute env packet.src routeKey .idRouteReply payload

/-- The IDRouteReply branch. -/
def onIdRouteReply (c : Codec) (env : Env) (l : ProtocolLayer) (packet : Packet)
    (routeKey : RouteKey) (peer : PeerInfo) : Outcome ProtocolLayer :=
  match decodeRouteReplyPayload c packet.payload with
  | .error e => .fail l e
  | .ok reply =>
      let l := l.confirmTcpRoute env peer routeKey packet.metric
      let l := l.confirmRelayRouteFromControl env peer routeKey packet.metric
      .ok (l.ingestRouteEntries env reply.peers routeKey)

/-! ## Hole punching -/

/-- `handle_punch_payload`. -/
def handlePunchPayload (c : Codec) (l : ProtocolLayer) (payload : List UInt8) :
    IoResult PunchPayload × ProtocolLayer :=
  match decodePunchPayload c payload with
  | .error e => (.error e, l)
  | .ok payload => (.ok payload, l.insertPeerNat payload.src payload.natInfo)

/-- `handle_punch_consult_request`. -/
def handlePunchConsultRequest (c : Codec) (env : Env) (l : ProtocolLayer) (packet : Packet)
    (routeKey : RouteKey) : Outcome ProtocolLayer :=
  match handlePunchPayload c l packet.payload with
  | (.error e, l) => .fail l e
  | (.ok payload, l) =>
      if ¬ l.punchAllowed payload.src then .ok l
      else l.sendProtocolToRoute env payload.src routeKey .punchConsultReply
        (encodePunchPayload c (l.punchPayloadWithRequestId payload.src env.requestId))

/-- The PunchConsultReply branch. -/
def onPunchConsultReply (c : Codec) (l : ProtocolLayer) (packet : Packet) :
    Outcome ProtocolLayer :=
  match handlePunchPayload c l packet.payload with
  | (.error e, l) => .fail l e
  | (.ok _, l) => .ok l

/-- What a direct PunchRequest does to the routes: its source becomes direct, if
it was not, and a candidate. -/
def confirmPunchRequest (l : ProtocolLayer) (env : Env) (src : PeerId) (routeKey : RouteKey)
    (metric : UInt8) : ProtocolLayer :=
  if metric = 0 then
    let peer := l.peerInfoFromPacket env src routeKey metric
    let l := if l.hasDirectRoute src then l else l.confirmDirectAndPromote env peer routeKey
    l.insertCandidate src routeKey
  else l

/-- The PunchRequest branch.  The punch goes first, and the reply follows
whatever became of it. -/
def onPunchRequest (c : Codec) (env : Env) (l : ProtocolLayer) (packet : Packet)
    (routeKey : RouteKey) : Outcome ProtocolLayer :=
  match handlePunchPayload c l packet.payload with
  | (.error e, l) => .fail l e
  | (.ok payload, l) =>
      let l := l.confirmPunchRequest env payload.src routeKey packet.metric
      if l.punchAllowed payload.src then
        (tryExecutePunch c l env payload.src payload.natInfo routeKey packet.metric).ignoring
          fun l => l.sendProtocolToRoute env payload.src routeKey .punchReply
            (encodePunchPayload c (l.punchPayloadWithRequestId payload.src payload.requestId))
      else .ok l

/-- What a PunchReply does to the routes.  The request is no longer pending
afterwards, whoever answered it. -/
def confirmPunchReply (l : ProtocolLayer) (env : Env) (payload : PunchPayload)
    (routeKey : RouteKey) (metric : UInt8) : ProtocolLayer :=
  match l.pendingPunch.get payload.requestId with
  | none => l
  | some peerId =>
      let l := l.removePendingPunch payload.requestId
      if peerId = payload.src ∧ metric = 0 ∧ ¬ l.hasDirectRoute payload.src then
        l.confirmDirectAndPromote env (l.peerInfoFromPacket env payload.src routeKey metric)
          routeKey
      else l

/-- The PunchReply branch. -/
def onPunchReply (c : Codec) (env : Env) (l : ProtocolLayer) (packet : Packet)
    (routeKey : RouteKey) : Outcome ProtocolLayer :=
  match handlePunchPayload c l packet.payload with
  | (.error e, l) => .fail l e
  | (.ok payload, l) =>
      let l := l.confirmPunchReply env payload routeKey packet.metric
      if l.punchAllowed payload.src then
        (tryExecutePunch c l env payload.src payload.natInfo routeKey packet.metric).ignoring .ok
      else .ok l

/-! ## Echo -/

/-- The EchoRequest and TimestampRequest branches: confirm a TCP route and send
the payload back. -/
def onEcho (reply : ProtocolType) (env : Env) (l : ProtocolLayer) (packet : Packet)
    (routeKey : RouteKey) (peer : PeerInfo) : Outcome ProtocolLayer :=
  (l.confirmTcpRoute env peer routeKey packet.metric).sendProtocolToRoute env packet.src routeKey
    reply packet.payload

/-- The EchoReply branch. -/
def onEchoReply (env : Env) (l : ProtocolLayer) (packet : Packet) (routeKey : RouteKey) :
    ProtocolLayer :=
  if packet.metric = 0 ∧ 8 ≤ packet.payload.length then
    let sentTs := fromBeBytes (packet.payload.take 8)
    let now := env.nowMillis.toNat
    if now > sentTs ∧ now - sentTs < 60000 then
      { l with transport :=
          l.transport.updateRouteRtt packet.src routeKey (UInt32.ofNat (now - sentTs)) }
    else l
  else l

/-! ## NAT observation -/

/-- The NatObserveRequest branch. -/
def onNatObserveRequest (c : Codec) (env : Env) (l : ProtocolLayer) (packet : Packet)
    (routeKey : RouteKey) : Outcome ProtocolLayer :=
  if l.isConfirmedOrCandidate packet.src routeKey packet.metric then
    l.sendProtocolToRoute env packet.src routeKey .natObserveReply
      (encodeNatObserveReplyPayload c ⟨l.observationFromRoute env routeKey⟩)
  else .ok l

/-- The NatObserveReply branch. -/
def onNatObserveReply (c : Codec) (env : Env) (l : ProtocolLayer) (packet : Packet)
    (routeKey : RouteKey) (peer : PeerInfo) : Outcome ProtocolLayer :=
  match l.isConfirmedOrPendingNatObserve packet.src routeKey packet.metric with
  | (false, l) => .ok l
  | (true, l) =>
      match decodeNatObserveReplyPayload c packet.payload with
      | .error e => .fail l e
      | .ok reply =>
          if reply.observation.observerPeerId = packet.src ∧ l.shouldObserveWith packet.src then
            let l := l.applyObservation reply.observation
            .ok (if packet.metric = 0 then l.confirmDirectAndPromote env peer routeKey else l)
          else .ok l

/-! ## The handler -/

/-- The `match` of `handle_transport_packet` over the packet type. -/
def dispatch (c : Codec) (env : Env) (l : ProtocolLayer) (packet : Packet) (routeKey : RouteKey)
    (peer : PeerInfo) : ProtocolType → Handling
  | .helloRequest => .done (onHelloRequest c env l packet routeKey peer)
  | .helloReply => onHelloReply c env l packet routeKey
  | .idRouteQuery => .done (onIdRouteQuery c env l packet routeKey peer)
  | .idRouteReply => .done (onIdRouteReply c env l packet routeKey peer)
  | .quicRelay => .sendQuic l ⟨packet.src, packet.payload⟩
  | .punchConsultRequest => .done (handlePunchConsultRequest c env l packet routeKey)
  | .punchConsultReply => .done (onPunchConsultReply c l packet)
  | .punchRequest => .done (onPunchRequest c env l packet routeKey)
  | .punchReply => .done (onPunchReply c env l packet routeKey)
  | .echoRequest => .done (onEcho .echoReply env l packet routeKey peer)
  | .echoReply => .done (.ok (onEchoReply env l packet routeKey))
  | .timestampRequest => .done (onEcho .timestampReply env l packet routeKey peer)
  | .natObserveRequest => .done (onNatObserveRequest c env l packet routeKey)
  | .natObserveReply => .done (onNatObserveReply c env l packet routeKey peer)
  | .messageData => .done (.ok l)
  | .rangeBroadcast => .done (.ok l)
  | .timestampReply => .done (.ok l)

/-- Handling of an admitted packet. -/
def handlePacket (c : Codec) (env : Env) (l : ProtocolLayer) (packet : Packet)
    (routeKey : RouteKey) : Handling :=
  let (peer, l) := l.arrive env packet routeKey
  if l.isLocal packet then
    match packet.protocol with
    | .error e => .done (.fail l e)
    | .ok protocol => dispatch c env l packet routeKey peer protocol
  else .done (l.forwardPacket env packet)

/-- `handle_transport_packet`, up to its end or to the first full channel. -/
def handleTransportPacket (c : Codec) (env : Env) (l : ProtocolLayer) (data : List UInt8)
    (routeKey : RouteKey) : Handling :=
  match l.screen data with
  | .error e => .done (.fail l e)
  | .ok none => .done (.ok l)
  | .ok (some packet) => handlePacket c env l packet routeKey

/-- The layer when the handler returns. -/
def finish (env : Env) : Handling → ProtocolLayer
  | .done outcome => outcome.state
  | .sendHello layer _ entries via => layer.ingestRouteEntries env entries via
  | .sendQuic layer _ => layer

end ProtocolLayer

end RustP2p
