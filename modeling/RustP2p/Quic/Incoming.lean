import RustP2p.Quic.Socket

/-!
# Incoming datagrams and streams

`handle_incoming_datagram` and `handle_incoming_stream` of `quic.rs`, and the
frames they decode.  Each runs for something that arrived on a connection, and
gets the synthetic address of the remote side.

Two peer ids play a part.  The connection has the one of its address in
`virtual_by_addr`, and the frame declares a source.  The handlers ask that the
first exists, and that there is a route or a candidate for the second.  They do
not compare the two: the source of a message is the one that its frame declares
(`incoming_source_declared`).
-/

namespace RustP2p

open BigEndian

/-! ## Frames -/

namespace Pb

/-- Message `StreamHeader`. -/
structure StreamHeader where
  src : String
  dest : String
deriving DecidableEq, Repr

/-- Message `StreamFrame`, whose `oneof` has one case. -/
structure StreamFrame where
  frame : Option StreamHeader
deriving DecidableEq, Repr

/-- Message `UserDatagram`. -/
structure UserDatagram where
  id : UInt64
  src : String
  dest : String
  payload : List UInt8
deriving DecidableEq, Repr

/-- Message `DatagramFrame`, whose `oneof` has one case. -/
structure DatagramFrame where
  frame : Option UserDatagram
deriving DecidableEq, Repr

end Pb

/-- The protobuf codecs of the two frames. -/
structure FrameCodec where
  stream : Message Pb.StreamFrame
  datagram : Message Pb.DatagramFrame

/-- `protocol::StreamHeader`, the one case of `StreamFrame`. -/
structure StreamHeader where
  src : PeerId
  dest : PeerId
deriving DecidableEq, Repr

/-- `protocol::DatagramFrame`, which has one case. -/
structure DatagramFrame where
  id : UInt64
  src : PeerId
  dest : PeerId
  payload : List UInt8
deriving DecidableEq, Repr

/-- `decode_stream_frame`. -/
def decodeStreamFrame (c : FrameCodec) (payload : List UInt8) : IoResult StreamHeader := do
  let frame ← decodeMsg c.stream payload
  let header ← required frame.frame "stream_frame.frame"
  return ⟨⟨header.src⟩, ⟨header.dest⟩⟩

/-- `decode_datagram_frame`. -/
def decodeDatagramFrame (c : FrameCodec) (payload : List UInt8) : IoResult DatagramFrame := do
  let frame ← decodeMsg c.datagram payload
  let user ← required frame.frame "datagram_frame.frame"
  return ⟨user.id, ⟨user.src⟩, ⟨user.dest⟩, user.payload⟩

/-- What a stream carries, and the text of the error at its end. -/
structure RecvStream where
  bytes : List UInt8
  ended : String
deriving DecidableEq, Repr

/-- `read_exact`. -/
def RecvStream.readExact (recv : RecvStream) (len : Nat) : IoResult (List UInt8 × RecvStream) :=
  if recv.bytes.length < len then .error ⟨.unexpectedEof, recv.ended⟩
  else .ok (recv.bytes.take len, { recv with bytes := recv.bytes.drop len })

/-- `read_frame`. -/
def readFrame (recv : RecvStream) : IoResult (List UInt8 × RecvStream) := do
  let (len, recv) ← recv.readExact 4
  if fromBeBytes len > 64 * 1024 then .error ⟨.invalidData, "stream header too large"⟩
  else recv.readExact (fromBeBytes len)

/-- `read_stream_frame`, and the stream after it. -/
def readStreamFrame (c : FrameCodec) (recv : RecvStream) :
    IoResult (StreamHeader × RecvStream) := do
  let (data, recv) ← readFrame recv
  let header ← decodeStreamFrame c data
  return (header, recv)

/-! ## The handlers -/

/-- `ReceivedMessage`. -/
structure ReceivedMessage where
  payload : List UInt8
  src : PeerId
  dest : PeerId
  route : RouteKey
  ttl : UInt8
  maxTtl : UInt8
  isRelay : Bool
  isBroadcast : Bool
deriving DecidableEq, Repr

/-- `IncomingBiStream`, without the sending half. -/
structure IncomingBiStream where
  peerId : PeerId
  recv : RecvStream
deriving DecidableEq, Repr

/-- `QuicEndpoint`, as far as what arrives on its connections goes. -/
structure Incoming where
  peerId : PeerId
  socket : QuicPeerSocket
  protocol : ProtocolLayer
  seenDatagrams : DashMap (PeerId × UInt64) Unit
  inbox : List ReceivedMessage
  streams : List IncomingBiStream

namespace Incoming

/-- `handle_incoming_stream`. -/
def handleIncomingStream (c : FrameCodec) (ep : Incoming) (remoteAddr : SocketAddr)
    (recv : RecvStream) : IoResult Unit × Incoming :=
  match ep.socket.peerForVirtualAddr remoteAddr with
  | none => (.error ⟨.permissionDenied, "stream arrived from unknown synthetic peer"⟩, ep)
  | some _ =>
      match readStreamFrame c recv with
      | .error e => (.error e, ep)
      | .ok (header, recv) =>
          if header.dest ≠ ep.peerId then
            (.error ⟨.permissionDenied, "stream destination peer mismatch"⟩, ep)
          else
            match ep.protocol.routeMetricFor header.src with
            | (.error e, protocol) => (.error e, { ep with protocol := protocol })
            | (.ok _, protocol) =>
                (.ok (), { ep with
                  protocol := protocol
                  streams := ep.streams ++ [⟨header.src, recv⟩] })

/-- `handle_incoming_datagram`. -/
def handleIncomingDatagram (c : FrameCodec) (ep : Incoming) (remoteAddr : SocketAddr)
    (data : List UInt8) : IoResult Unit × Incoming :=
  match ep.socket.peerForVirtualAddr remoteAddr with
  | none => (.error ⟨.permissionDenied, "datagram arrived from unknown synthetic peer"⟩, ep)
  | some _ =>
      match decodeDatagramFrame c data with
      | .error e => (.error e, ep)
      | .ok frame =>
          if frame.dest ≠ ep.peerId then (.ok (), ep)
          else
            let seen := ep.seenDatagrams.insert (frame.src, frame.id) ()
            match ep.seenDatagrams.get (frame.src, frame.id) with
            | some _ => (.ok (), { ep with seenDatagrams := seen })
            | none =>
                match ep.protocol.routeMetricFor frame.src with
                | (.error e, protocol) =>
                    (.error e, { ep with seenDatagrams := seen, protocol := protocol })
                | (.ok (route, metric), protocol) =>
                    (.ok (), { ep with
                      seenDatagrams := seen
                      protocol := protocol
                      inbox := ep.inbox ++ [{
                        payload := frame.payload
                        src := frame.src
                        dest := frame.dest
                        route := route
                        ttl := saturatingSub ep.protocol.maxTtl metric
                        maxTtl := ep.protocol.maxTtl
                        isRelay := metric > 0
                        isBroadcast := false }] })

/-- A datagram from this address delivers the message. -/
def DeliversMessage (c : FrameCodec) (ep : Incoming) (addr : SocketAddr) (data : List UInt8)
    (message : ReceivedMessage) : Prop :=
  (ep.handleIncomingDatagram c addr data).2.inbox = ep.inbox ++ [message]

/-- A stream from this address is delivered. -/
def DeliversStream (c : FrameCodec) (ep : Incoming) (addr : SocketAddr) (recv : RecvStream)
    (stream : IncomingBiStream) : Prop :=
  (ep.handleIncomingStream c addr recv).2.streams = ep.streams ++ [stream]

/-! ## What is delivered -/

variable {c : FrameCodec} {ep : Incoming} {addr : SocketAddr}

/-- A list does not change by an item. -/
theorem ne_append_singleton {α : Type} (l : List α) (a : α) : l ≠ l ++ [a] :=
  fun h => List.cons_ne_nil a [] (List.self_eq_append_right.mp h)

/-- A message is delivered exactly if the connection has a peer, the frame decodes and names
this node, it was not seen before, and the declared source has a route or a candidate. -/
theorem deliversMessage_iff {data : List UInt8} {message : ReceivedMessage} :
    ep.DeliversMessage c addr data message ↔
      ∃ peer frame route metric, ep.socket.peerForVirtualAddr addr = some peer ∧
        decodeDatagramFrame c data = .ok frame ∧ frame.dest = ep.peerId ∧
        ep.seenDatagrams.get (frame.src, frame.id) = none ∧
        (ep.protocol.routeMetricFor frame.src).1 = .ok (route, metric) ∧
        message = ⟨frame.payload, frame.src, frame.dest, route,
          saturatingSub ep.protocol.maxTtl metric, ep.protocol.maxTtl, metric > 0, false⟩ := by
  constructor
  · intro h
    simp only [DeliversMessage, handleIncomingDatagram] at h
    split at h
    next => exact absurd h (ne_append_singleton _ _)
    next peer hpeer =>
      split at h
      next => exact absurd h (ne_append_singleton _ _)
      next frame hframe =>
        split at h
        next => exact absurd h (ne_append_singleton _ _)
        next hdest =>
          split at h
          next => exact absurd h (ne_append_singleton _ _)
          next hseen =>
            split at h
            next => exact absurd h (ne_append_singleton _ _)
            next route metric protocol hroute =>
              have hmessage := List.append_cancel_left h
              refine ⟨peer, frame, route, metric, hpeer, hframe, not_not.mp hdest, hseen, ?_, ?_⟩
              · rw [hroute]
              · exact (List.singleton_inj.mp hmessage).symm
  · intro h
    obtain ⟨peer, frame, route, metric, hpeer, hframe, hdest, hseen, hroute, rfl⟩ := h
    have hpair : ep.protocol.routeMetricFor frame.src =
        (.ok (route, metric), (ep.protocol.routeMetricFor frame.src).2) := by
      rw [← hroute]
    simp only [DeliversMessage, handleIncomingDatagram, hpeer, hframe, hdest, hseen, ne_eq,
      not_true_eq_false, if_false]
    rw [hpair]

/-- A stream is delivered exactly if the connection has a peer, the header decodes and names
this node, and the declared source has a route or a candidate. -/
theorem deliversStream_iff {recv : RecvStream} {stream : IncomingBiStream} :
    ep.DeliversStream c addr recv stream ↔
      ∃ peer header rest routeMetric, ep.socket.peerForVirtualAddr addr = some peer ∧
        readStreamFrame c recv = .ok (header, rest) ∧ header.dest = ep.peerId ∧
        (ep.protocol.routeMetricFor header.src).1 = .ok routeMetric ∧
        stream = ⟨header.src, rest⟩ := by
  constructor
  · intro h
    simp only [DeliversStream, handleIncomingStream] at h
    split at h
    next => exact absurd h (ne_append_singleton _ _)
    next peer hpeer =>
      split at h
      next => exact absurd h (ne_append_singleton _ _)
      next header rest hheader =>
        split at h
        next => exact absurd h (ne_append_singleton _ _)
        next hdest =>
          split at h
          next => exact absurd h (ne_append_singleton _ _)
          next routeMetric protocol hroute =>
            have hstream := List.append_cancel_left h
            refine ⟨peer, header, rest, routeMetric, hpeer, hheader, not_not.mp hdest, ?_, ?_⟩
            · rw [hroute]
            · exact (List.singleton_inj.mp hstream).symm
  · intro h
    obtain ⟨peer, header, rest, routeMetric, hpeer, hheader, hdest, hroute, rfl⟩ := h
    have hpair : ep.protocol.routeMetricFor header.src =
        (.ok routeMetric, (ep.protocol.routeMetricFor header.src).2) := by
      rw [← hroute]
    simp only [DeliversStream, handleIncomingStream, hpeer, hheader, hdest, ne_eq,
      not_true_eq_false, if_false]
    rw [hpair]

/-- What arrives on a connection is delivered only if the address of the connection has a peer,
and the frame names this node and a source that has a route or a candidate.  The source of a
message is the one that its frame declares, and every frame that meets these conditions and
was not seen before is delivered, whichever source it declares. -/
theorem incoming_source_declared (c : FrameCodec) (ep : Incoming) (addr : SocketAddr) :
    (∀ data message, ep.DeliversMessage c addr data message →
      ∃ peer frame routeMetric, ep.socket.peerForVirtualAddr addr = some peer ∧
        decodeDatagramFrame c data = .ok frame ∧ message.src = frame.src ∧
        message.dest = frame.dest ∧ message.payload = frame.payload ∧ frame.dest = ep.peerId ∧
        (ep.protocol.routeMetricFor frame.src).1 = .ok routeMetric) ∧
    (∀ data peer frame routeMetric, ep.socket.peerForVirtualAddr addr = some peer →
      decodeDatagramFrame c data = .ok frame → frame.dest = ep.peerId →
      ep.seenDatagrams.get (frame.src, frame.id) = none →
      (ep.protocol.routeMetricFor frame.src).1 = .ok routeMetric →
      ∃ message, ep.DeliversMessage c addr data message ∧ message.src = frame.src) ∧
    ∀ recv stream, ep.DeliversStream c addr recv stream →
      ∃ peer header rest routeMetric, ep.socket.peerForVirtualAddr addr = some peer ∧
        readStreamFrame c recv = .ok (header, rest) ∧ stream.recv = rest ∧
        header.dest = ep.peerId ∧
        (ep.protocol.routeMetricFor header.src).1 = .ok routeMetric := by
  refine ⟨?_, ?_, ?_⟩
  · intro data message h
    obtain ⟨peer, frame, route, metric, hpeer, hframe, hdest, -, hroute, rfl⟩ :=
      deliversMessage_iff.mp h
    exact ⟨peer, frame, (route, metric), hpeer, hframe, rfl, rfl, rfl, hdest, hroute⟩
  · intro data peer frame routeMetric hpeer hframe hdest hseen hroute
    obtain ⟨route, metric⟩ := routeMetric
    exact ⟨_, deliversMessage_iff.mpr
      ⟨peer, frame, route, metric, hpeer, hframe, hdest, hseen, hroute, rfl⟩, rfl⟩
  · intro recv stream h
    obtain ⟨peer, header, rest, routeMetric, hpeer, hheader, hdest, hroute, rfl⟩ :=
      deliversStream_iff.mp h
    exact ⟨peer, header, rest, routeMetric, hpeer, hheader, rfl, hdest, hroute⟩

/-- The address of the connection with `e`. -/
def declaredAddr : SocketAddr := syntheticAddr 0 1024

/-- The node `a`, connected with `e`, with a candidate for `b`. -/
def declaredNode : Incoming where
  peerId := ⟨"a"⟩
  socket := (QuicPeerSocket.new.publish ⟨⟨"e"⟩, none⟩ declaredAddr).ensureVirtualMapping
    declaredAddr ⟨⟨"e"⟩, none⟩
  protocol :=
    let l := Startup.nodeA.layer
    { l with routeCandidates := l.routeCandidates.insert ⟨"b"⟩ QuicEndpoint.viaKey }
  seenDatagrams := ∅
  inbox := []
  streams := []

/-- A datagram frame from `b` to `a`. -/
def declaredFrame : List UInt8 := [0x0a, 11, 0x08, 7, 0x12, 1, 0x62, 0x1a, 1, 0x61, 0x22, 1, 1]

/-- A codec that has this frame. -/
def declaredCodec : FrameCodec where
  stream := .ofTable []
  datagram := .ofTable [(⟨some ⟨7, "b", "a", [1]⟩⟩, declaredFrame)]

/-- The datagram arrives on the connection with `e`, and is delivered as a message of `b`. -/
theorem declared_source_not_connection_peer :
    ∃ message, declaredNode.DeliversMessage declaredCodec declaredAddr declaredFrame message ∧
      declaredNode.socket.peerForVirtualAddr declaredAddr = some ⟨"e"⟩ ∧
      message.src = ⟨"b"⟩ ∧
      some message.src ≠ declaredNode.socket.peerForVirtualAddr declaredAddr := by
  refine ⟨⟨[1], ⟨"b"⟩, ⟨"a"⟩, QuicEndpoint.viaKey, 3, 3, false, false⟩, ?_, ?_, rfl, ?_⟩
  · rw [DeliversMessage]
    decide +kernel
  · decide +kernel
  · decide +kernel

end Incoming

end RustP2p
