import RustP2p.Quic.HandlerSpec

/-!
# What handling leaves alone

`Framed l l'` says that a step left alone what the node knows of its own NAT,
who may observe it, and the state of the punches.  Confirming routes, learning
about peers and sending are all framed, so only two things are left for a packet
to do to these fields: `apply_observation` writes the NAT information, and the
punch branches write the punches.
-/

namespace RustP2p

namespace ProtocolLayer

/-- From `l` to `l'` the NAT information, its observers and the punches stay as they
are. -/
structure Framed (l l' : ProtocolLayer) : Prop where
  natInfo : l'.natInfo = l.natInfo
  natObservers : l'.natObservers = l.natObservers
  punchWhitelist : l'.punchWhitelist = l.punchWhitelist
  pendingPunch : l'.pendingPunch = l.pendingPunch
  lastPunchTime : l'.lastPunchTime = l.lastPunchTime

theorem Framed.refl (l : ProtocolLayer) : Framed l l := ⟨rfl, rfl, rfl, rfl, rfl⟩

theorem Framed.trans {l l' l'' : ProtocolLayer} (h : Framed l l') (h' : Framed l' l'') :
    Framed l l'' where
  natInfo := h'.natInfo.trans h.natInfo
  natObservers := h'.natObservers.trans h.natObservers
  punchWhitelist := h'.punchWhitelist.trans h.punchWhitelist
  pendingPunch := h'.pendingPunch.trans h.pendingPunch
  lastPunchTime := h'.lastPunchTime.trans h.lastPunchTime

theorem Framed.punchAllowed {l l' : ProtocolLayer} (h : Framed l l') (p : PeerId) :
    l'.punchAllowed p = l.punchAllowed p := by
  simp only [ProtocolLayer.punchAllowed, h.punchWhitelist]

theorem Framed.shouldObserveWith {l l' : ProtocolLayer} (h : Framed l l') (p : PeerId) :
    l'.shouldObserveWith p = l.shouldObserveWith p := by
  simp only [ProtocolLayer.shouldObserveWith, h.natObservers]

theorem Framed.punchedWithin {l l' : ProtocolLayer} (h : Framed l l') (now : UInt64) (p : PeerId)
    (secs : Nat) : l'.punchedWithin now p secs = l.punchedWithin now p secs := by
  simp only [ProtocolLayer.punchedWithin, h.lastPunchTime]

/-! ## The helpers -/

section Helpers

variable (l : ProtocolLayer) (env : Env)

theorem framed_insertPeerNat (p : PeerId) (natInfo : NatInfo) :
    Framed l (l.insertPeerNat p natInfo) := ⟨rfl, rfl, rfl, rfl, rfl⟩

theorem framed_learnPeerNat (peer : PeerInfo) : Framed l (l.learnPeerNat peer) := by
  simp only [learnPeerNat]
  split
  next => exact framed_insertPeerNat l _ _
  next => exact .refl l

theorem framed_insertCandidate (p : PeerId) (key : RouteKey) :
    Framed l (l.insertCandidate p key) := ⟨rfl, rfl, rfl, rfl, rfl⟩

theorem framed_upsertPeerInfo (peer : PeerInfo) : Framed l (l.upsertPeerInfo env peer) :=
  ⟨rfl, rfl, rfl, rfl, rfl⟩

theorem framed_confirmPeerRoute (peer : PeerInfo) (key : RouteKey) (metric : UInt8) :
    Framed l (l.confirmPeerRoute env peer key metric) := ⟨rfl, rfl, rfl, rfl, rfl⟩

theorem framed_confirmDirectAndPromote (peer : PeerInfo) (key : RouteKey) :
    Framed l (l.confirmDirectAndPromote env peer key) := by
  simp only [confirmDirectAndPromote, spawnProbeRtt]
  split <;> exact ⟨rfl, rfl, rfl, rfl, rfl⟩

theorem framed_confirmTcpRoute (peer : PeerInfo) (key : RouteKey) (metric : UInt8) :
    Framed l (l.confirmTcpRoute env peer key metric) := by
  simp only [confirmTcpRoute]
  split
  next => exact framed_confirmDirectAndPromote l env peer key
  next => exact .refl l

theorem framed_confirmRelayRouteFromControl (peer : PeerInfo) (key : RouteKey) (metric : UInt8) :
    Framed l (l.confirmRelayRouteFromControl env peer key metric) := by
  simp only [confirmRelayRouteFromControl]
  split
  next => exact framed_confirmPeerRoute l env peer key metric
  next => exact .refl l

theorem framed_ingestRouteEntry (via : RouteKey) (item : RouteEntry) :
    Framed l (ingestRouteEntry env via l item) := by
  simp only [ingestRouteEntry]
  split
  next => exact .refl l
  next => exact (framed_learnPeerNat l item.peer).trans (framed_confirmPeerRoute _ env _ _ _)

theorem framed_ingestRouteEntries (entries : List RouteEntry) (via : RouteKey) :
    Framed l (l.ingestRouteEntries env entries via) := by
  simp only [ingestRouteEntries]
  induction entries generalizing l with
  | nil => exact .refl l
  | cons item entries ih => exact (framed_ingestRouteEntry l env via item).trans (ih _)

theorem framed_forwardPacket (packet : Packet) : Framed l (l.forwardPacket env packet).state := by
  simp only [forwardPacket]
  split <;> exact ⟨rfl, rfl, rfl, rfl, rfl⟩

theorem framed_isConfirmedOrPendingNatObserve (p : PeerId) (key : RouteKey) (metric : UInt8) :
    Framed l (l.isConfirmedOrPendingNatObserve p key metric).2 := by
  simp only [isConfirmedOrPendingNatObserve]
  split
  next => exact .refl l
  next => split <;> exact ⟨rfl, rfl, rfl, rfl, rfl⟩

theorem framed_arrive (packet : Packet) (key : RouteKey) :
    Framed l (l.arrive env packet key).2 := by
  simp only [arrive]
  split <;> exact ⟨rfl, rfl, rfl, rfl, rfl⟩

theorem framed_confirmHello (hello : HelloPayload) (key : RouteKey) (metric : UInt8) :
    Framed l (l.confirmHello env hello key metric) := by
  simp only [confirmHello]
  have hremove : Framed l (l.removePendingHello key) := ⟨rfl, rfl, rfl, rfl, rfl⟩
  refine hremove.trans ?_
  split
  next => exact framed_confirmDirectAndPromote _ env hello.peer key
  next => exact framed_upsertPeerInfo _ env hello.peer

theorem framed_confirmPunchRequest (src : PeerId) (key : RouteKey) (metric : UInt8) :
    Framed l (l.confirmPunchRequest env src key metric) := by
  simp only [confirmPunchRequest]
  split
  next =>
    refine Framed.trans ?_ (framed_insertCandidate _ src key)
    split
    next => exact .refl l
    next => exact framed_confirmDirectAndPromote l env _ key
  next => exact .refl l

/-- A PunchReply takes its request away and leaves the rest alone. -/
theorem framed_confirmPunchReply (punch : PunchPayload) (key : RouteKey) (metric : UInt8) :
    Framed { l with pendingPunch := (l.confirmPunchReply env punch key metric).pendingPunch }
      (l.confirmPunchReply env punch key metric) := by
  simp only [confirmPunchReply]
  split
  next => exact ⟨rfl, rfl, rfl, rfl, rfl⟩
  next =>
    split
    next =>
      have hframed := framed_confirmDirectAndPromote (l.removePendingPunch punch.requestId) env
        ((l.removePendingPunch punch.requestId).peerInfoFromPacket env punch.src key metric) key
      exact ⟨hframed.natInfo, hframed.natObservers, hframed.punchWhitelist, rfl,
        hframed.lastPunchTime⟩
    next => exact ⟨rfl, rfl, rfl, rfl, rfl⟩

/-- No other request is taken away. -/
theorem get_pendingPunch_confirmPunchReply (punch : PunchPayload) (key : RouteKey)
    (metric : UInt8) (id : UInt64) :
    (l.confirmPunchReply env punch key metric).pendingPunch.get id =
      if id = punch.requestId then none else l.pendingPunch.get id := by
  simp only [confirmPunchReply]
  split
  next hnone =>
    split
    next hid => rw [hid, hnone]
    next => rfl
  next =>
    have hremoved : (l.removePendingPunch punch.requestId).pendingPunch.get id =
        if id = punch.requestId then none else l.pendingPunch.get id :=
      DashMap.get_remove l.pendingPunch id punch.requestId
    split
    next => rw [(framed_confirmDirectAndPromote _ env _ key).pendingPunch, hremoved]
    next => exact hremoved

end Helpers

/-! ## The branches -/

section Branches

variable {c : Codec} {env : Env} {l : ProtocolLayer} {packet : Packet} {key : RouteKey}
  {peer : PeerInfo}

theorem framed_onHelloRequest : Framed l (onHelloRequest c env l packet key peer).state := by
  simp only [onHelloRequest]
  rw [sendProtocolToRoute_state]
  split
  next => exact framed_confirmDirectAndPromote l env peer key
  next => exact framed_confirmTcpRoute l env peer key packet.metric

theorem framed_onIdRouteQuery : Framed l (onIdRouteQuery c env l packet key peer).state := by
  simp only [onIdRouteQuery]
  rw [sendProtocolToRoute_state]
  exact framed_confirmRelayRouteFromControl l env peer key packet.metric

theorem framed_onIdRouteReply : Framed l (onIdRouteReply c env l packet key peer).state := by
  simp only [onIdRouteReply]
  split
  next => exact .refl l
  next =>
    exact ((framed_confirmTcpRoute l env peer key packet.metric).trans
      (framed_confirmRelayRouteFromControl _ env peer key packet.metric)).trans
      (framed_ingestRouteEntries _ env _ key)

theorem framed_onEcho {reply : ProtocolType} :
    Framed l (onEcho reply env l packet key peer).state := by
  simp only [onEcho]
  rw [sendProtocolToRoute_state]
  exact framed_confirmTcpRoute l env peer key packet.metric

theorem framed_onEchoReply : Framed l (onEchoReply env l packet key) := by
  simp only [onEchoReply]
  split
  next => split <;> exact ⟨rfl, rfl, rfl, rfl, rfl⟩
  next => exact .refl l

theorem framed_onNatObserveRequest :
    Framed l (onNatObserveRequest c env l packet key).state := by
  simp only [onNatObserveRequest]
  split
  next =>
    rw [sendProtocolToRoute_state]
    exact .refl l
  next => exact .refl l

theorem framed_handlePunchPayload (payload : List UInt8) :
    Framed l (handlePunchPayload c l payload).2 := by
  simp only [handlePunchPayload]
  split
  next => exact .refl l
  next => exact framed_insertPeerNat l _ _

theorem framed_handlePunchConsultRequest :
    Framed l (handlePunchConsultRequest c env l packet key).state := by
  have hpayload := framed_handlePunchPayload (c := c) (l := l) packet.payload
  simp only [handlePunchConsultRequest]
  split
  next heq =>
    rw [heq] at hpayload
    exact hpayload
  next heq =>
    rw [heq] at hpayload
    split
    next => exact hpayload
    next =>
      rw [sendProtocolToRoute_state]
      exact hpayload

theorem framed_onPunchConsultReply : Framed l (onPunchConsultReply c l packet).state := by
  have hpayload := framed_handlePunchPayload (c := c) (l := l) packet.payload
  simp only [onPunchConsultReply]
  split
  next heq =>
    rw [heq] at hpayload
    exact hpayload
  next heq =>
    rw [heq] at hpayload
    exact hpayload

/-- The types that neither observe nor punch are framed. -/
theorem framed_dispatch {protocol : ProtocolType} (hhello : protocol ≠ .helloReply)
    (hobserve : protocol ≠ .natObserveReply) (hrequest : protocol ≠ .punchRequest)
    (hreply : protocol ≠ .punchReply) :
    Framed l (dispatch c env l packet key peer protocol).layer := by
  cases protocol with
  | helloRequest => exact framed_onHelloRequest
  | helloReply => exact absurd rfl hhello
  | idRouteQuery => exact framed_onIdRouteQuery
  | idRouteReply => exact framed_onIdRouteReply
  | quicRelay => exact .refl l
  | punchConsultRequest => exact framed_handlePunchConsultRequest
  | punchConsultReply => exact framed_onPunchConsultReply
  | punchRequest => exact absurd rfl hrequest
  | punchReply => exact absurd rfl hreply
  | echoRequest => exact framed_onEcho
  | echoReply => exact framed_onEchoReply
  | timestampRequest => exact framed_onEcho
  | natObserveRequest => exact framed_onNatObserveRequest
  | natObserveReply => exact absurd rfl hobserve
  | messageData => exact .refl l
  | rangeBroadcast => exact .refl l
  | timestampReply => exact .refl l

end Branches

end ProtocolLayer

end RustP2p
