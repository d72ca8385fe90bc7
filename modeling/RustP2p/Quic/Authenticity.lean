import RustP2p.Quic.Traffic

/-!
# Where QUIC payloads come from

The QUIC socket of a node hands its datagrams to the protocol layer, which wraps each in a
QuicRelay packet and queues it for the core sender.  The packet is relayed, and the node it
is for hands the payload to its own QUIC socket, with the sender's id.

`quic_authentic` is about all of them together, with the network of `Traffic`: whatever is
delivered as coming from `p` was submitted at `p` for the node that gets it, byte for byte,
or a stranger sent a packet that says so.  Delay, loss, repetition, wrong delivery and any
number of relays change nothing.

The queue of the core sender is the one place where such packets wait in a node.  So the
first part says which functions leave it alone: all but the two that submit.
-/

namespace RustP2p

open ProtocolLayer Transition

/-! ## The queue of the core sender -/

namespace Transport

variable (t : Transport) (env : Env)

@[simp] theorem routeFor_outbound (p : PeerId) : (t.routeFor p).2.outbound = t.outbound := rfl

@[simp] theorem sendWire_outbound (p : PeerId) (data : List UInt8) :
    (t.sendWire env p data).state.outbound = t.outbound := by
  rw [sendWire_state]
  rfl

@[simp] theorem upsertPeerInfo_outbound (peer : PeerInfo) :
    (t.upsertPeerInfo env peer).outbound = t.outbound := by
  simp only [upsertPeerInfo]
  split <;> rfl

@[simp] theorem confirmPeerRoute_outbound (peer : PeerInfo) (key : RouteKey) (metric : UInt8) :
    (t.confirmPeerRoute env peer key metric).outbound = t.outbound :=
  upsertPeerInfo_outbound _ env _

end Transport

namespace ProtocolLayer

/-- The packets that wait for the core sender. -/
def queue (l : ProtocolLayer) : List CoreOutboundPacket := l.transport.outbound

section Queue

variable (l : ProtocolLayer) (env : Env)

@[simp] theorem queue_learnPeerNat (peer : PeerInfo) : (l.learnPeerNat peer).queue = l.queue := by
  simp only [learnPeerNat]
  split <;> rfl

@[simp] theorem queue_isConfirmedOrPendingNatObserve (p : PeerId) (key : RouteKey)
    (metric : UInt8) : (l.isConfirmedOrPendingNatObserve p key metric).2.queue = l.queue := by
  simp only [isConfirmedOrPendingNatObserve]
  split
  next => rfl
  next => split <;> rfl

@[simp] theorem queue_spawnProbeRtt (p : PeerId) (key : RouteKey) :
    (l.spawnProbeRtt p key).queue = l.queue := by
  simp only [spawnProbeRtt]
  split <;> rfl

@[simp] theorem queue_confirmPeerRoute (peer : PeerInfo) (key : RouteKey) (metric : UInt8) :
    (l.confirmPeerRoute env peer key metric).queue = l.queue :=
  l.transport.confirmPeerRoute_outbound env peer key metric

@[simp] theorem queue_upsertPeerInfo (peer : PeerInfo) :
    (l.upsertPeerInfo env peer).queue = l.queue := l.transport.upsertPeerInfo_outbound env peer

@[simp] theorem queue_confirmDirectAndPromote (peer : PeerInfo) (key : RouteKey) :
    (l.confirmDirectAndPromote env peer key).queue = l.queue :=
  (queue_spawnProbeRtt _ _ _).trans (l.queue_confirmPeerRoute env peer key 0)

@[simp] theorem queue_confirmTcpRoute (peer : PeerInfo) (key : RouteKey) (metric : UInt8) :
    (l.confirmTcpRoute env peer key metric).queue = l.queue := by
  simp only [confirmTcpRoute]
  split <;> simp

@[simp] theorem queue_confirmRelayRouteFromControl (peer : PeerInfo) (key : RouteKey)
    (metric : UInt8) :
    (l.confirmRelayRouteFromControl env peer key metric).queue = l.queue := by
  simp only [confirmRelayRouteFromControl]
  split <;> simp

@[simp] theorem queue_ingestRouteEntries (entries : List RouteEntry) (via : RouteKey) :
    (l.ingestRouteEntries env entries via).queue = l.queue := by
  simp only [ingestRouteEntries]
  induction entries generalizing l with
  | nil => rfl
  | cons item entries ih =>
      rw [List.foldl_cons, ih]
      simp only [ingestRouteEntry]
      split <;> simp

@[simp] theorem queue_sendProtocol (dest : PeerId) (protocol : ProtocolType)
    (payload : List UInt8) : (l.sendProtocol env dest protocol payload).state.queue = l.queue := by
  simp only [sendProtocol]
  split
  next => rfl
  next => exact l.transport.sendWire_outbound env dest _

@[simp] theorem queue_forwardPacket (packet : Packet) :
    (l.forwardPacket env packet).state.queue = l.queue := by
  simp only [forwardPacket]
  split
  next => rfl
  next => exact l.transport.sendWire_outbound env _ _

@[simp] theorem queue_executePunch (c : Codec) (p : PeerId) (natInfo : NatInfo) :
    (executePunch c l env p natInfo).state.queue = l.queue := by
  simp only [executePunch]
  split <;> rfl

@[simp] theorem queue_tryExecutePunch (c : Codec) (p : PeerId) (natInfo : NatInfo)
    (key : RouteKey) (metric : UInt8) :
    (tryExecutePunch c l env p natInfo key metric).state.queue = l.queue := by
  simp only [tryExecutePunch]
  split
  next => rfl
  next =>
    split
    next =>
      split
      next => rfl
      next => exact queue_executePunch _ env c p natInfo
    next => exact queue_executePunch l env c p _

@[simp] theorem queue_sendEcho (p : PeerId) (key : RouteKey) :
    (l.sendEcho env p key).state.queue = l.queue := by
  simp only [sendEcho, sendProtocolToRoute_state]
  rfl

@[simp] theorem queue_routeMetricFor (p : PeerId) : (l.routeMetricFor p).2.queue = l.queue := by
  simp only [routeMetricFor]
  have hqueue := l.transport.routeFor_outbound p
  split
  next heq =>
    rw [heq] at hqueue
    exact hqueue
  next heq =>
    rw [heq] at hqueue
    exact hqueue

theorem queue_andThen {o : Outcome ProtocolLayer} {next : ProtocolLayer → Outcome ProtocolLayer}
    (h : o.state.queue = l.queue) (hnext : ∀ m : ProtocolLayer, (next m).state.queue = m.queue) :
    (o.andThen next).state.queue = l.queue := by
  rcases o.andThen_state next with heq | heq
  · rw [heq]
    exact h
  · rw [heq, hnext]
    exact h

@[simp] theorem queue_punch (c : Codec) (p : PeerId) :
    (punch c l env p).state.queue = l.queue := by
  simp only [punch]
  split
  next => rfl
  next =>
    refine queue_andThen l ?_ fun m => ?_
    · exact queue_sendProtocol _ env p .punchRequest _
    · split <;> simp

/-! ### The handler -/

theorem queue_arrive (packet : Packet) (key : RouteKey) :
    (l.arrive env packet key).2.queue = l.queue := by
  simp only [arrive]
  split
  next => exact queue_upsertPeerInfo _ env _
  next => exact queue_upsertPeerInfo _ env _

theorem queue_handlePunchPayload (c : Codec) (payload : List UInt8) :
    (handlePunchPayload c l payload).2.queue = l.queue := by
  simp only [handlePunchPayload]
  split <;> rfl

@[simp] theorem queue_learnHello (hello : HelloPayload) (metric : UInt8) :
    (l.learnHello hello metric).queue = l.queue := by
  simp only [learnHello]
  split
  next =>
    split
    next => exact l.queue_learnPeerNat hello.peer
    next => exact l.queue_learnPeerNat hello.peer
  next => exact l.queue_learnPeerNat hello.peer

@[simp] theorem queue_confirmHello (hello : HelloPayload) (key : RouteKey) (metric : UInt8) :
    (l.confirmHello env hello key metric).queue = l.queue := by
  simp only [confirmHello]
  split
  next => exact queue_confirmDirectAndPromote _ env hello.peer key
  next => exact queue_upsertPeerInfo _ env hello.peer

theorem queue_confirmPunchRequest (src : PeerId) (key : RouteKey) (metric : UInt8) :
    (l.confirmPunchRequest env src key metric).queue = l.queue := by
  simp only [confirmPunchRequest]
  split
  next =>
    split
    next => rfl
    next => exact l.queue_confirmDirectAndPromote env _ key
  next => rfl

theorem queue_confirmPunchReply (payload : PunchPayload) (key : RouteKey) (metric : UInt8) :
    (l.confirmPunchReply env payload key metric).queue = l.queue := by
  simp only [confirmPunchReply]
  split
  next => rfl
  next =>
    split
    next => exact queue_confirmDirectAndPromote _ env _ key
    next => rfl

theorem queue_onPunchRequest (c : Codec) (packet : Packet) (key : RouteKey) :
    (onPunchRequest c env l packet key).state.queue = l.queue := by
  have hpunch := l.queue_handlePunchPayload c packet.payload
  simp only [onPunchRequest]
  split
  next heq =>
    rw [heq] at hpunch
    exact hpunch
  next payload l' heq =>
    rw [heq] at hpunch
    have hconfirm := queue_confirmPunchRequest l' env payload.src key packet.metric
    split
    next =>
      rw [Outcome.ignoring_state, sendProtocolToRoute_state, queue_tryExecutePunch]
      exact hconfirm.trans hpunch
    next => exact hconfirm.trans hpunch

theorem queue_onPunchReply (c : Codec) (packet : Packet) (key : RouteKey) :
    (onPunchReply c env l packet key).state.queue = l.queue := by
  have hpunch := l.queue_handlePunchPayload c packet.payload
  simp only [onPunchReply]
  split
  next heq =>
    rw [heq] at hpunch
    exact hpunch
  next payload l' heq =>
    rw [heq] at hpunch
    have hconfirm := queue_confirmPunchReply l' env payload key packet.metric
    split
    next =>
      rw [Outcome.ignoring_state, Outcome.ok_state, queue_tryExecutePunch]
      exact hconfirm.trans hpunch
    next => exact hconfirm.trans hpunch

theorem queue_onNatObserveReply (c : Codec) (packet : Packet) (key : RouteKey)
    (peer : PeerInfo) :
    (onNatObserveReply c env l packet key peer).state.queue = l.queue := by
  have hpending := l.queue_isConfirmedOrPendingNatObserve packet.src key packet.metric
  simp only [onNatObserveReply]
  split
  next heq =>
    rw [heq] at hpending
    exact hpending
  next l' heq =>
    rw [heq] at hpending
    split
    next => exact hpending
    next reply _ =>
      split
      next =>
        split
        next =>
          exact (queue_confirmDirectAndPromote (l'.applyObservation reply.observation) env peer
            key).trans hpending
        next => exact hpending
      next => exact hpending

theorem queue_dispatch (c : Codec) (packet : Packet) (key : RouteKey) (peer : PeerInfo)
    (protocol : ProtocolType) :
    (dispatch c env l packet key peer protocol).layer.queue = l.queue := by
  have hpunch := l.queue_handlePunchPayload c packet.payload
  cases protocol with
  | helloRequest =>
      simp only [dispatch, Handling.layer, onHelloRequest, sendProtocolToRoute_state]
      split
      next => exact l.queue_confirmDirectAndPromote env peer key
      next => exact l.queue_confirmTcpRoute env peer key packet.metric
  | helloReply =>
      simp only [dispatch, onHelloReply]
      split
      next => rfl
      next hello _ =>
        exact (queue_confirmHello _ env hello key packet.metric).trans
          (l.queue_learnHello hello packet.metric)
  | idRouteQuery =>
      simp only [dispatch, Handling.layer, onIdRouteQuery, sendProtocolToRoute_state]
      exact l.queue_confirmRelayRouteFromControl env peer key packet.metric
  | idRouteReply =>
      simp only [dispatch, Handling.layer, onIdRouteReply]
      split
      next => rfl
      next => simp
  | quicRelay => rfl
  | punchConsultRequest =>
      simp only [dispatch, Handling.layer, handlePunchConsultRequest]
      split
      next heq =>
        rw [heq] at hpunch
        exact hpunch
      next heq =>
        rw [heq] at hpunch
        split
        next => exact hpunch
        next => rwa [sendProtocolToRoute_state]
  | punchConsultReply =>
      simp only [dispatch, Handling.layer, onPunchConsultReply]
      split
      next heq =>
        rw [heq] at hpunch
        exact hpunch
      next heq =>
        rw [heq] at hpunch
        exact hpunch
  | punchRequest => exact l.queue_onPunchRequest env c packet key
  | punchReply => exact l.queue_onPunchReply env c packet key
  | echoRequest =>
      simp only [dispatch, Handling.layer, onEcho, sendProtocolToRoute_state]
      exact l.queue_confirmTcpRoute env peer key packet.metric
  | echoReply =>
      simp only [dispatch, Handling.layer, Outcome.ok_state, onEchoReply]
      split
      next => split <;> rfl
      next => rfl
  | timestampRequest =>
      simp only [dispatch, Handling.layer, onEcho, sendProtocolToRoute_state]
      exact l.queue_confirmTcpRoute env peer key packet.metric
  | natObserveRequest =>
      simp only [dispatch, Handling.layer, onNatObserveRequest]
      split
      next => rw [sendProtocolToRoute_state]
      next => rfl
  | natObserveReply => exact l.queue_onNatObserveReply env c packet key peer
  | messageData => rfl
  | rangeBroadcast => rfl
  | timestampReply => rfl

/-- Handling a packet submits nothing. -/
theorem queue_handleTransportPacket (c : Codec) (data : List UInt8) (key : RouteKey) :
    (handleTransportPacket c env l data key).layer.queue = l.queue := by
  have hhandled : Handled c env l data key (handleTransportPacket c env l data key) :=
    handled_handleTransportPacket
  generalize handleTransportPacket c env l data key = handling at hhandled
  cases hhandled with
  | dropped unscreened state effects => rw [Handling.layer, state]
  | @forwarded packet screened remote =>
      exact (queue_forwardPacket _ env packet).trans (queue_arrive l env packet key)
  | @untyped packet e screened isLocal type => exact queue_arrive l env packet key
  | @dispatched packet protocol screened isLocal type =>
      exact (queue_dispatch _ env c packet key _ _).trans (queue_arrive l env packet key)

/-! ### The tasks -/

@[simp] theorem queue_probeCandidate (p : PeerId) (key : RouteKey) :
    (l.probeCandidate env p key).state.queue = l.queue := by
  have hlookup := l.transport.routeFor_outbound p
  simp only [probeCandidate]
  split
  next heq =>
    rw [heq] at hlookup
    exact hlookup
  next heq =>
    rw [heq] at hlookup
    rw [sendProtocolToRoute_state]
    exact hlookup

theorem queue_sendAutoPunch (c : Codec) (now : UInt64) (p : PeerId) :
    (sendAutoPunch c l env now p).state.queue = l.queue := by
  simp only [sendAutoPunch, Outcome.ignoring_state]
  split
  next =>
    split
    next =>
      rw [queue_executePunch, queue_sendProtocol]
      rfl
    next =>
      rw [Outcome.ok_state, queue_sendProtocol]
      rfl
  next =>
    rw [Outcome.ok_state, queue_sendProtocol]
    rfl

theorem queue_autoPunch (c : Codec) (now : UInt64) (p : PeerId) :
    (autoPunch c l env now p).state.queue = l.queue := by
  simp only [autoPunch]
  split
  next => rfl
  next =>
    split
    next => exact l.transport.routeFor_outbound p
    next => exact queue_sendAutoPunch _ env c now p

theorem queue_requestObservation (p : PeerId) :
    (l.requestObservation env p).state.queue = l.queue := by
  have hlookup := l.transport.routeFor_outbound p
  simp only [requestObservation]
  split
  next =>
    rw [queue_sendProtocol]
    split
    next heq =>
      rw [heq] at hlookup
      exact hlookup
    next heq =>
      rw [heq] at hlookup
      exact hlookup
  next => rfl

theorem queue_runMaintenance {c : Codec} {m m' : Maintenance} {o : Outcome ProtocolLayer}
    (h : Task.runMaintenance c env l m = some (o, m')) : o.state.queue = l.queue := by
  simp only [Task.runMaintenance] at h
  split at h
  next => split at h <;> (cases h; rfl)
  next => cases h; rfl
  next =>
    split at h
    next => cases h; rfl
    next => cases h; exact l.queue_sendProtocol env _ .idRouteQuery []
  next => cases h; rfl
  next => cases h; exact l.queue_probeCandidate env _ _
  next => cases h; rfl
  next => cases h; exact l.queue_autoPunch env c _ _
  next => cases h

end Queue

end ProtocolLayer

/-- The bytes a packet in the queue of the core sender has. -/
def CoreOutboundPacket.data : CoreOutboundPacket → List UInt8
  | peerPacket _ data => data
  | routePacket _ data => data

/-- The payload a call submits, and whom it is for. -/
def Task.submission : Task → Option (PeerId × List UInt8)
  | sendQuic peerId payload => some (peerId, payload)
  | sendQuicVia peerId _ payload => some (peerId, payload)
  | _ => none

/-- The bytes are the packet that the layer makes of this payload. -/
def ProtocolLayer.Wraps (l : ProtocolLayer) (dest : PeerId) (payload data : List UInt8) : Prop :=
  ∃ packet, Packet.build .quicRelay l.peerId dest l.maxTtl payload = .ok packet ∧
    packet.buf = data

section Submissions

variable {c : Codec} {env : Env} {l : ProtocolLayer} {loops loops' : Loops}
  {o : Outcome ProtocolLayer} {x : CoreOutboundPacket}

theorem queue_trySendQuicPayload {p : PeerId} {payload : List UInt8}
    (hx : x ∈ (l.trySendQuicPayload p payload).state.queue) :
    x ∈ l.queue ∨ l.Wraps p payload x.data := by
  have hlookup := l.transport.routeFor_outbound p
  simp only [trySendQuicPayload] at hx
  split at hx
  next => exact Or.inl hx
  next packet hbuild =>
    have hpushed {t : Transport} {y : CoreOutboundPacket} (hy : y.data = packet.buf)
        (ht : t.outbound = l.transport.outbound) (hx : x ∈ t.outbound ++ [y]) :
        x ∈ l.queue ∨ l.Wraps p payload x.data := by
      rcases List.mem_append.mp hx with hx | hx
      · rw [ht] at hx
        exact Or.inl hx
      · rw [List.mem_singleton.mp hx]
        exact Or.inr ⟨packet, hbuild, hy.symm⟩
    split at hx
    next route t heq =>
      rw [heq] at hlookup
      simp only [Outcome.ok_state, queue] at hx
      split at hx
      next => exact hpushed rfl hlookup hx
      next => exact hpushed rfl hlookup hx
    next e t heq =>
      rw [heq] at hlookup
      split at hx
      next => exact hpushed rfl hlookup hx
      next =>
        simp only [Outcome.fail_state, queue] at hx
        rw [hlookup] at hx
        exact Or.inl hx

theorem queue_trySendQuicPayloadVia {p : PeerId} {key : RouteKey} {payload : List UInt8}
    (hx : x ∈ (l.trySendQuicPayloadVia p key payload).state.queue) :
    x ∈ l.queue ∨ l.Wraps p payload x.data := by
  simp only [trySendQuicPayloadVia] at hx
  split at hx
  next => exact Or.inl hx
  next packet hbuild =>
    rcases List.mem_append.mp hx with hx | hx
    · exact Or.inl hx
    · exact Or.inr (List.mem_singleton.mp hx ▸ ⟨packet, hbuild, rfl⟩)

/-- The core sender sends the bytes at the head of the queue. -/
theorem Transport.coreSend_spec {t : Transport} {o : Outcome Transport}
    (h : t.coreSend env = some o) : ∃ head rest, t.outbound = head :: rest ∧
      o.state.outbound = rest ∧ ∀ e ∈ o.effects, e.bytes = head.data := by
  simp only [coreSend] at h
  split at h
  next => cases h
  next dest data rest heq =>
    cases h
    refine ⟨_, rest, heq, sendWire_outbound _ env dest data, fun e he => ?_⟩
    obtain ⟨key, metric, -, rfl⟩ := effects_sendWire he
    rfl
  next key data rest heq =>
    cases h
    refine ⟨_, rest, heq, by rw [sendWireToRoute_state], fun e he => ?_⟩
    rw [effects_sendWireToRoute he]
    rfl

/-- A task leaves the queue alone, submits, or sends its head. -/
theorem Task.queue_run {task : Task} (h : task.run c env l loops = some (o, loops'))
    (hx : x ∈ o.state.queue) :
    x ∈ l.queue ∨ ∃ dest payload, task.submission = some (dest, payload) ∧
      l.Wraps dest payload x.data := by
  cases task with
  | maintain =>
      obtain ⟨⟨o', m⟩, hrun, heq⟩ := Option.map_eq_some_iff.mp h
      cases heq
      exact Or.inl (queue_runMaintenance l env hrun ▸ hx)
  | heartbeat =>
      simp only [run] at h
      split at h
      next => split at h <;> cases h; exact Or.inl hx
      next => cases h; exact Or.inl (queue_sendEcho l env _ _ ▸ hx)
  | observe =>
      simp only [run] at h
      split at h
      next => split at h <;> cases h; exact Or.inl hx
      next => cases h; exact Or.inl (queue_requestObservation l env _ ▸ hx)
  | stun result => cases h; exact Or.inl hx
  | probe index =>
      simp only [run] at h
      split at h
      next =>
        cases h
        rw [queue_sendEcho] at hx
        exact Or.inl hx
      next => cases h
  | coreSend =>
      obtain ⟨o', hsend, heq⟩ := Option.map_eq_some_iff.mp h
      cases heq
      obtain ⟨head, rest, hqueue, hrest, -⟩ := Transport.coreSend_spec hsend
      refine Or.inl ?_
      simp only [queue, Outcome.map_state] at hx ⊢
      rw [hrest] at hx
      rw [hqueue]
      exact List.mem_cons_of_mem head hx
  | allowPunch peerId => cases h; exact Or.inl hx
  | denyPunch peerId => cases h; exact Or.inl hx
  | setPunchWhitelist peers => cases h; exact Or.inl hx
  | punch peerId => cases h; exact Or.inl (queue_punch l env c peerId ▸ hx)
  | lookup peerId => cases h; exact Or.inl (queue_routeMetricFor l peerId ▸ hx)
  | sendQuic peerId payload =>
      cases h
      exact (queue_trySendQuicPayload hx).imp_right fun hwraps => ⟨peerId, payload, rfl, hwraps⟩
  | sendQuicVia peerId routeKey payload =>
      cases h
      exact (queue_trySendQuicPayloadVia hx).imp_right fun hwraps =>
        ⟨peerId, payload, rfl, hwraps⟩
  | close => cases h; exact Or.inl hx
  | rehash peers candidates routeTable =>
      obtain ⟨l', hrehash, heq⟩ := Option.map_eq_some_iff.mp h
      cases heq
      simp only [ProtocolLayer.rehash] at hrehash
      split at hrehash <;> cases hrehash
      exact Or.inl hx

end Submissions

/-! ## One node -/

/-- QUIC payloads, by their source and their destination. -/
abbrev Known := PeerId → PeerId → List UInt8 → Prop

/-- Bytes on the wire: if they are a QuicRelay packet, its payload is known. -/
def Authentic (K : Known) (data : List UInt8) : Prop :=
  ∀ packet, Packet.parse data = .ok packet → packet.protocol = .ok .quicRelay →
    K packet.src packet.dest packet.payload

/-- A payload as the node with this id receives it. -/
def Genuine (K : Known) (id : PeerId) (payload : TransportPayload) : Prop :=
  payload.src ≠ id ∧ ∃ dest, (dest = id ∨ dest.isBroadcast = true) ∧
    K payload.src dest payload.payload

/-- The payload the dispatcher is about to send. -/
def Dispatcher.payload : Dispatcher → Option TransportPayload
  | sendingQuic payload => some payload
  | _ => none

@[simp] theorem Dispatcher.payload_idle : Dispatcher.idle.payload = none := rfl
@[simp] theorem Dispatcher.payload_stopped : Dispatcher.stopped.payload = none := rfl
@[simp] theorem Dispatcher.payload_sendingHello (item : HelloItem) (entries : List RouteEntry)
    (via : RouteKey) : (Dispatcher.sendingHello item entries via).payload = none := rfl
@[simp] theorem Dispatcher.payload_sendingQuic (payload : TransportPayload) :
    (Dispatcher.sendingQuic payload).payload = some payload := rfl

/-- The payloads that have arrived at a node, and that its QUIC socket has not read. -/
def Node.arrived (n : Node) : List TransportPayload := n.quicQueue ++ n.dispatcher.payload.toList

/-- Everything about QUIC payloads in the node with this id. -/
structure Node.Attested (K : Known) (id : PeerId) (n : Node) : Prop where
  peerId : n.layer.peerId = id
  queue : ∀ x ∈ n.layer.queue, Authentic K x.data
  sent : ∀ e ∈ n.sent, Authentic K e.bytes
  arrived : ∀ payload ∈ n.arrived, Genuine K id payload

section Nodes

variable {K K' : Known} {c : Codec} {id : PeerId} {n n' : Node} {data : List UInt8}

theorem Authentic.mono (h : Authentic K data) (hK : ∀ src dest payload, K src dest payload →
    K' src dest payload) : Authentic K' data :=
  fun packet hparse htype => hK _ _ _ (h packet hparse htype)

theorem Genuine.mono {payload : TransportPayload} (h : Genuine K id payload)
    (hK : ∀ src dest payload, K src dest payload → K' src dest payload) :
    Genuine K' id payload := by
  obtain ⟨hsrc, dest, hdest, hknown⟩ := h
  exact ⟨hsrc, dest, hdest, hK _ _ _ hknown⟩

theorem Node.Attested.mono (h : n.Attested K id) (hK : ∀ src dest payload, K src dest payload →
    K' src dest payload) : n.Attested K' id :=
  ⟨h.peerId, fun x hx => (h.queue x hx).mono hK, fun e he => (h.sent e he).mono hK,
    fun payload hpayload => (h.arrived payload hpayload).mono hK⟩

/-- What is submitted is known. -/
theorem authentic_of_wraps {l : ProtocolLayer} {dest : PeerId} {payload : List UInt8}
    (h : l.Wraps dest payload data) (hknown : K l.peerId dest payload) : Authentic K data := by
  obtain ⟨packet, hbuild, rfl⟩ := h
  intro packet' hparse _
  cases (Packet.parse_build hbuild).symm.trans hparse
  obtain ⟨hsrc, hdest, hpayload, -⟩ := Packet.build_fields hbuild
  rwa [hsrc, hdest, hpayload]

/-- The other packets of a node are of other types. -/
theorem authentic_of_originates {l : ProtocolLayer} (h : Originates c l data) :
    Authentic K data := by
  obtain ⟨protocol, dest, payload, packet, hbuild, rfl, hsays⟩ := h
  intro packet' hparse htype
  cases (Packet.parse_build hbuild).symm.trans hparse
  obtain ⟨-, -, -, -, -, -, hprotocol⟩ := Packet.build_fields hbuild
  cases hprotocol.symm.trans htype
  cases hsays with
  | punch type src => rcases type with h | h | h <;> cases h
  | plain type => cases type

/-- A relay changes the time to live only. -/
theorem Authentic.forward {packet : Packet} (h : Authentic K data)
    (hparse : Packet.parse data = .ok packet) (ttl : UInt8) :
    Authentic K (packet.setTtl ttl).buf := by
  intro packet' hparse' htype
  cases (Packet.parse_setTtl hparse ttl).symm.trans hparse'
  rw [Packet.setTtl_protocol] at htype
  rw [Packet.setTtl_src, Packet.setTtl_dest, Packet.setTtl_payload]
  exact h packet hparse htype

/-- A payload that handling delivers is that of a packet for this node. -/
theorem genuine_of_sendQuic {env : Env} {l layer : ProtocolLayer} {key : RouteKey}
    {payload : TransportPayload} (hauthentic : Authentic K data)
    (h : handleTransportPacket c env l data key = .sendQuic layer payload) :
    Genuine K l.peerId payload := by
  have hhandled : Handled c env l data key (handleTransportPacket c env l data key) :=
    handled_handleTransportPacket
  rw [h] at hhandled
  generalize hhandling : Handling.sendQuic layer payload = handling at hhandled
  cases hhandled with
  | dropped => cases hhandling
  | forwarded => cases hhandling
  | untyped => cases hhandling
  | @dispatched packet protocol screened hlocal type =>
      obtain ⟨-, hparse, hsrc, -⟩ := screen_eq_some.mp screened
      have hdest : packet.dest = l.peerId ∨ packet.dest.isBroadcast = true := by
        simpa [isLocal] using hlocal
      cases protocol with
      | quicRelay =>
          cases hhandling
          exact ⟨hsrc, packet.dest, hdest, hauthentic packet hparse type⟩
      | helloReply =>
          simp only [dispatch, onHelloReply] at hhandling
          split at hhandling <;> cases hhandling
      | _ => cases hhandling

theorem Node.queue_sendHello (l : ProtocolLayer) (env : Env) (addr : SocketAddr) :
    (sendHello l env addr).state.queue = l.queue := by
  simp only [sendHello]
  split
  next => rfl
  next =>
    rw [Outcome.map_state, Transport.sendRawToAddr_state]

/-- What a step puts into the queue was submitted by it. -/
theorem Node.queue_step {e : Event} {x : CoreOutboundPacket} (h : step c n e = some n')
    (hx : x ∈ n'.layer.queue) :
    x ∈ n.layer.queue ∨ ∃ task env dest payload, e = .task task env ∧
      task.submission = some (dest, payload) ∧ n.layer.Wraps dest payload x.data := by
  cases Move.of_step h with
  | packet idle =>
      rw [handlePacket_layer, queue_handleTransportPacket] at hx
      exact Or.inl hx
  | helloSent sending room =>
      rw [queue_ingestRouteEntries] at hx
      exact Or.inl hx
  | quicSent => exact Or.inl hx
  | transportClosed => exact Or.inl hx
  | quicReceived => exact Or.inl hx
  | bootstrap => exact Or.inl hx
  | call running move =>
      refine Or.inl ?_
      cases move with
      | sent => exact queue_sendHello _ _ _ ▸ hx
      | unsent => exact queue_sendHello _ _ _ ▸ hx
      | _ => exact hx
  | @task task env outcome loops ran =>
      refine (Task.queue_run ran hx).imp_right ?_
      rintro ⟨dest, payload, hsubmission, hwraps⟩
      exact ⟨task, env, dest, payload, rfl, hsubmission, hwraps⟩

/-- What a step has sent carries known payloads only. -/
theorem Node.Attested.sent_step {e : Event} (h : n.Attested K id) (hstep : step c n e = some n')
    (hpacket : ∀ env data key, e = .packet env data key → Authentic K data) :
    ∀ x ∈ n'.sent, Authentic K x.bytes := by
  intro x hx
  rcases Node.sent_step hstep hx with hold | hown | hforward | ⟨env, rfl⟩
  · exact h.sent x hold
  · exact authentic_of_originates hown
  · obtain ⟨env, data, key, packet, rfl, hscreen, -, hbytes⟩ := hforward
    obtain ⟨-, hparse, -⟩ := screen_eq_some.mp hscreen
    rw [hbytes]
    exact (hpacket env data key rfl).forward hparse _
  · simp only [step] at hstep
    split at hstep
    next => cases hstep
    next outcome loops hrun =>
      cases hstep
      rcases List.mem_append.mp hx with hold | hnew
      · exact h.sent x hold
      · obtain ⟨o, hsend, heq⟩ := Option.map_eq_some_iff.mp hrun
        cases heq
        obtain ⟨head, rest, hqueue, -, hbytes⟩ := Transport.coreSend_spec hsend
        rw [hbytes x hnew]
        exact h.queue head (by rw [ProtocolLayer.queue, hqueue]; exact List.mem_cons_self)

@[simp] theorem Node.payload_nextDispatcher (l : ProtocolLayer) :
    (nextDispatcher l).payload = none := by
  simp only [nextDispatcher]
  split <;> rfl

/-- A payload that has arrived after a step had arrived before it, or the step handled a packet
that carries it. -/
theorem Node.arrived_step {e : Event} {payload : TransportPayload} (h : step c n e = some n')
    (hpayload : payload ∈ n'.arrived) :
    payload ∈ n.arrived ∨ ∃ env data key layer, e = .packet env data key ∧
      handleTransportPacket c env n.layer data key = .sendQuic layer payload := by
  cases Move.of_step h with
  | @packet env data key idle =>
      simp only [handlePacket] at hpayload
      split at hpayload
      next => exact Or.inl (by simpa [arrived, idle] using hpayload)
      next => exact Or.inl (by simpa [arrived, idle] using hpayload)
      next layer payload' hhandling =>
        rcases List.mem_append.mp hpayload with hold | hnew
        · exact Or.inl (List.mem_append_left _ hold)
        · obtain rfl : payload = payload' := by simpa using hnew
          exact Or.inr ⟨env, data, key, layer, rfl, hhandling⟩
  | helloSent sending room =>
      exact Or.inl (by simpa [arrived, sending] using hpayload)
  | quicSent sending room =>
      exact Or.inl (by simpa [arrived, sending] using hpayload)
  | transportClosed idle =>
      exact Or.inl (by simpa [arrived, idle] using hpayload)
  | quicReceived head =>
      refine Or.inl ?_
      simp only [arrived, head, List.cons_append] at hpayload ⊢
      exact List.mem_cons_of_mem _ hpayload
  | bootstrap => exact Or.inl hpayload
  | call running move => exact Or.inl hpayload
  | task ran => exact Or.inl hpayload

/-- A node that gets and submits known payloads only has no others. -/
theorem Node.Attested.step {e : Event} (h : n.Attested K id) (hstep : Node.step c n e = some n')
    (hpacket : ∀ env data key, e = .packet env data key → Authentic K data)
    (hsubmit : ∀ task env dest payload, e = .task task env →
      task.submission = some (dest, payload) → K id dest payload) : n'.Attested K id := by
  have hid := (adds_step hstep).peerId
  refine ⟨hid.trans h.peerId, fun x hx => ?_, h.sent_step hstep hpacket, fun payload hin => ?_⟩
  · rcases queue_step hstep hx with hold | ⟨task, env, dest, payload, he, hsub, hwraps⟩
    · exact h.queue x hold
    · exact authentic_of_wraps hwraps (h.peerId ▸ hsubmit task env dest payload he hsub)
  · rcases arrived_step hstep hin with hold | ⟨env, data, key, layer, rfl, hhandling⟩
    · exact h.arrived payload hold
    · exact h.peerId ▸ genuine_of_sendQuic (hpacket env data key rfl) hhandling

end Nodes

/-! ## The network -/

namespace Traffic

/-- What an event submits: from whom, for whom, and the payload. -/
def submitted (_ : Traffic) : TrafficEvent → Option (PeerId × PeerId × List UInt8)
  | .node n (.task task _) => task.submission.map fun s => (n, s)
  | _ => none

/-- What a stranger sends. -/
def injected (_ : Traffic) : TrafficEvent → Option (List UInt8)
  | .stranger data => some data
  | _ => none

/-- What the QUIC socket of a node reads. -/
def received (s : Traffic) : TrafficEvent → Option (PeerId × TransportPayload)
  | .node n .quicReceived => (s.nodes n).quicQueue.head?.map fun payload => (n, payload)
  | _ => none

/-- The payloads that were submitted, or that a packet of a stranger carries. -/
def KnownAfter (c : Codec) (s : Traffic) (es : List TrafficEvent) : Known :=
  fun src dest payload =>
    (src, dest, payload) ∈ outputs (step c) submitted s es ∨
    ∃ data ∈ outputs (step c) injected s es, ∃ packet, Packet.parse data = .ok packet ∧
      packet.protocol = .ok .quicRelay ∧ packet.src = src ∧ packet.dest = dest ∧
      packet.payload = payload

/-- Nothing has been sent yet. -/
structure Fresh (s : Traffic) : Prop where
  flight : s.flight = []
  peerId : ∀ n, (s.nodes n).layer.peerId = n
  queue : ∀ n, (s.nodes n).layer.queue = []
  sent : ∀ n, (s.nodes n).sent = []
  arrived : ∀ n, (s.nodes n).arrived = []

/-- Everything about QUIC payloads in the network. -/
structure Attested (K : Known) (s : Traffic) : Prop where
  nodes : ∀ n, (s.nodes n).Attested K n
  flight : ∀ data ∈ s.flight, Authentic K data

section

variable {K K' : Known} {c : Codec} {s t : Traffic}

theorem Fresh.attested (h : s.Fresh) : s.Attested K := by
  refine ⟨fun n => ⟨h.peerId n, ?_, ?_, ?_⟩, ?_⟩
  · simp [h.queue]
  · simp [h.sent]
  · simp [h.arrived]
  · simp [h.flight]

theorem Attested.mono (h : s.Attested K) (hK : ∀ src dest payload, K src dest payload →
    K' src dest payload) : s.Attested K' :=
  ⟨fun n => (h.nodes n).mono hK, fun data hdata => (h.flight data hdata).mono hK⟩

/-- What a node puts on the wire is among what it has sent. -/
theorem authentic_of_launched {n n' : Node} {id : PeerId} {data : List UInt8}
    (h : n'.Attested K id) (hdata : data ∈ launched n n') : Authentic K data := by
  obtain ⟨e, he, hdatagram⟩ := List.mem_filterMap.mp hdata
  have hbytes : e.bytes = data := by
    cases e with
    | toRoute key bytes => exact Option.some.inj hdatagram
    | toAddr addr bytes => exact Option.some.inj hdatagram
    | punch bytes natInfo => cases hdatagram
  rw [← hbytes]
  exact h.sent e (List.mem_of_mem_drop he)

theorem Attested.stepNode (h : s.Attested K) {n : PeerId} {e : Event}
    {flight : List (List UInt8)} (hstep : s.stepNode c n e flight = some t)
    (hflight : ∀ data ∈ flight, Authentic K data)
    (hpacket : ∀ env data key, e = .packet env data key → Authentic K data)
    (hsubmit : ∀ task env dest payload, e = .task task env →
      task.submission = some (dest, payload) → K n dest payload) : t.Attested K := by
  obtain ⟨node, hnode, rfl⟩ := stepNode_eq_some hstep
  have hattested := (h.nodes n).step hnode hpacket hsubmit
  refine ⟨fun m => ?_, fun data hdata => ?_⟩
  · by_cases hm : m = n
    · subst hm
      simpa using hattested
    · simpa [Function.update_of_ne hm] using h.nodes m
  · rcases List.mem_append.mp hdata with hdata | hdata
    · exact hflight data hdata
    · exact authentic_of_launched hattested hdata

/-- What the QUIC socket reads had arrived. -/
theorem arrived_of_received {e : TrafficEvent} {x : PeerId × TransportPayload}
    (h : received s e = some x) : x.2 ∈ (s.nodes x.1).arrived := by
  simp only [received] at h
  split at h
  next n =>
    obtain ⟨payload, hhead, rfl⟩ := Option.map_eq_some_iff.mp h
    exact List.mem_append_left _ (List.mem_of_head? hhead)
  next => cases h

/-- A step that submits and injects known payloads only keeps everything genuine. -/
theorem Attested.step {e : TrafficEvent} (h : s.Attested K) (hstep : Traffic.step c s e = some t)
    (hsubmitted : ∀ src dest payload, submitted s e = some (src, dest, payload) →
      K src dest payload)
    (hinjected : ∀ data, injected s e = some data → Authentic K data) : t.Attested K := by
  cases e with
  | deliver i n env key =>
      simp only [Traffic.step] at hstep
      split at hstep
      next => cases hstep
      next data hdata =>
        have hauthentic := h.flight data (List.mem_of_getElem? hdata)
        refine h.stepNode hstep (fun d hd => h.flight d (List.mem_of_mem_eraseIdx hd)) ?_ ?_
        · rintro _ _ _ ⟨⟩
          exact hauthentic
        · rintro _ _ _ _ ⟨⟩
  | lose i =>
      simp only [Traffic.step] at hstep
      split at hstep <;> cases hstep
      exact ⟨h.nodes, fun d hd => h.flight d (List.mem_of_mem_eraseIdx hd)⟩
  | copy i =>
      obtain ⟨data, hdata, rfl⟩ := Option.map_eq_some_iff.mp hstep
      refine ⟨h.nodes, fun d hd => ?_⟩
      rcases List.mem_append.mp hd with hd | hd
      · exact h.flight d hd
      · rw [List.mem_singleton.mp hd]
        exact h.flight data (List.mem_of_getElem? hdata)
  | node n e =>
      simp only [Traffic.step] at hstep
      split at hstep
      next => cases hstep
      next hpacket =>
        refine h.stepNode hstep h.flight ?_ ?_
        · rintro env data key rfl
          exact absurd rfl (hpacket env data key)
        · rintro task env dest payload rfl hsubmission
          exact hsubmitted n dest payload (by simp [submitted, hsubmission])
  | probe n data =>
      simp only [Traffic.step] at hstep
      split at hstep <;> cases hstep
      next hpunching =>
        refine ⟨h.nodes, fun d hd => ?_⟩
        rcases List.mem_append.mp hd with hd | hd
        · exact h.flight d hd
        · obtain ⟨e, he, hbytes⟩ := List.any_eq_true.mp hpunching
          rw [List.mem_singleton.mp hd]
          cases e with
          | punch bytes natInfo =>
              have heq : bytes = data := by simpa using hbytes
              exact heq ▸ (h.nodes n).sent _ he
          | _ => cases hbytes
  | stranger data =>
      cases hstep
      refine ⟨h.nodes, fun d hd => ?_⟩
      rcases List.mem_append.mp hd with hd | hd
      · exact h.flight d hd
      · rw [List.mem_singleton.mp hd]
        exact hinjected data rfl

end

variable {c : Codec} {s t : Traffic} {es : List TrafficEvent}

/-- No QUIC payload is forged, altered or delivered to the wrong node.  What the QUIC socket of
a node reads as coming from `p` was submitted at `p` for this node, or for all, or a stranger
sent it in a packet that says so.  It never comes from the node itself. -/
theorem quic_authentic (hfresh : s.Fresh) (hrun : run (step c) s es = some t) {n : PeerId}
    {payload : TransportPayload} (h : (n, payload) ∈ outputs (step c) received s es) :
    payload.src ≠ n ∧ ∃ dest, (dest = n ∨ dest.isBroadcast = true) ∧
      ((payload.src, dest, payload.payload) ∈ outputs (step c) submitted s es ∨
        ∃ data ∈ outputs (step c) injected s es, ∃ packet, Packet.parse data = .ok packet ∧
          packet.protocol = .ok .quicRelay ∧ packet.src = payload.src ∧ packet.dest = dest ∧
          packet.payload = payload.payload) := by
  have hinv : t.Attested (KnownAfter c s es) ∧ ∀ e ∈ outputs (step c) received s es,
      Genuine (KnownAfter c s es) e.1 e.2 := by
    refine run_history (P := fun es t => t.Attested (KnownAfter c s es) ∧
      ∀ e ∈ outputs (step c) received s es, Genuine (KnownAfter c s es) e.1 e.2)
      ⟨hfresh.attested, fun e he => absurd he List.not_mem_nil⟩ ?_ hrun
    intro es m e t hpre ih hstep
    have hgrows (src dest : PeerId) (payload : List UInt8)
        (hknown : KnownAfter c s es src dest payload) :
        KnownAfter c s (es ++ [e]) src dest payload := by
      simp only [KnownAfter, outputs_concat hpre, List.mem_append]
      rcases hknown with hknown | ⟨data, hdata, hpacket⟩
      · exact Or.inl (Or.inl hknown)
      · exact Or.inr ⟨data, Or.inl hdata, hpacket⟩
    have hattested := ih.1.mono hgrows
    refine ⟨hattested.step hstep ?_ ?_, fun x hx => ?_⟩
    · intro src dest payload hsubmitted
      refine Or.inl ?_
      rw [outputs_concat hpre, hsubmitted]
      simp
    · intro data hinjected packet hparse htype
      refine Or.inr ⟨data, ?_, packet, hparse, htype, rfl, rfl, rfl⟩
      rw [outputs_concat hpre, hinjected]
      simp
    · rw [outputs_concat hpre] at hx
      rcases List.mem_append.mp hx with hx | hx
      · exact (ih.2 x hx).mono hgrows
      · exact (hattested.nodes x.1).arrived x.2 (arrived_of_received (Option.mem_toList.mp hx))
  exact hinv.2 _ h

/-- The nodes of the chain, before anything is sent. -/
def quietChain : Traffic := ⟨Network.chainNetwork, []⟩

theorem fresh_quietChain : quietChain.Fresh := by
  have hfold (l : ProtocolLayer) (neighbours : List (PeerId × UInt8)) :
      (neighbours.foldl Network.meet l).peerId = l.peerId ∧
        (neighbours.foldl Network.meet l).queue = l.queue := by
    induction neighbours generalizing l with
    | nil => exact ⟨rfl, rfl⟩
    | cons e rest ih =>
        obtain ⟨hid, hqueue⟩ := ih (Network.meet l e)
        exact ⟨hid, hqueue.trans (queue_confirmPeerRoute l _ _ _ 0)⟩
  exact ⟨rfl, fun n => (hfold _ _).1, fun n => (hfold _ _).2, fun n => rfl, fun n => rfl⟩

/-- `a` submits a payload for `c`, which goes over `b`. -/
def chainQuic : List TrafficEvent :=
  [.node ⟨"a"⟩ (.task (.sendQuicVia ⟨"c"⟩ (Network.chainKey 2) [1, 2, 3]) (Env.atMillis 1)),
    .node ⟨"a"⟩ (.task .coreSend (Env.atMillis 1)),
    .deliver 0 ⟨"b"⟩ (Env.atMillis 1) (Network.chainKey 1),
    .deliver 0 ⟨"c"⟩ (Env.atMillis 1) (Network.chainKey 2),
    .node ⟨"c"⟩ .quicSent, .node ⟨"c"⟩ .quicReceived]

theorem quic_authentic_relayed :
    (⟨"c"⟩, ⟨⟨"a"⟩, [1, 2, 3]⟩) ∈
        outputs (step Network.chainCodec) received quietChain chainQuic ∧
      (⟨"a"⟩ : PeerId) ≠ ⟨"c"⟩ := by
  obtain ⟨t, ht, -⟩ : ∃ t, run (step Network.chainCodec) quietChain chainQuic = some t ∧
      t.flight = [] := by
    decide +kernel
  have hreceived : (⟨"c"⟩, ⟨⟨"a"⟩, [1, 2, 3]⟩) ∈
      outputs (step Network.chainCodec) received quietChain chainQuic := by
    decide +kernel
  exact ⟨hreceived, (quic_authentic fresh_quietChain ht hreceived).1⟩

end Traffic

end RustP2p
