import RustP2p.Core.RouteEvolution
import RustP2p.Quic.Node

/-!
# The route table of a running node

A node changes its route table by calls on it only: it adds routes, renews read times and
round trips, and looks routes up.  It takes none away.  So over a run the table is one that
a history of such calls makes out of an empty table (`routes_of_run`), and what holds of
histories holds of nodes.

There is one lemma for each function that reaches the table.  `Evolves l l'` says that calls
lead from the table of the layer `l` to that of `l'`.
-/

namespace RustP2p

open Transition

/-! ## The transport layer -/

namespace Transport

variable (t : Transport) (env : Env)

theorem routes_routeFor (p : PeerId) :
    (t.routeFor p).2.routes = t.routes.apply (.getRouteById p) := rfl

theorem routes_confirmPeerRoute (peer : PeerInfo) (key : RouteKey) (metric : UInt8) :
    (t.confirmPeerRoute env peer key metric).routes =
      t.routes.apply (.addRoute env.instant peer.peerId (.fromDefaultRt key metric)) :=
  upsertPeerInfo_routes _ env _

theorem evolves_routeFor (p : PeerId) : t.routes.Evolves (t.routeFor p).2.routes := by
  rw [routes_routeFor]
  exact RouteTable.evolves_apply t.routes rfl

theorem evolves_updateRouteReadTime (p : PeerId) (key : RouteKey) :
    t.routes.Evolves (t.updateRouteReadTime env p key).routes := by
  have hcall : (t.updateRouteReadTime env p key).routes =
      t.routes.apply (.updateReadTime env.instant p key) := rfl
  rw [hcall]
  exact RouteTable.evolves_apply t.routes rfl

theorem evolves_updateRouteRtt (p : PeerId) (key : RouteKey) (rtt : UInt32) :
    t.routes.Evolves (t.updateRouteRtt p key rtt).routes := by
  have hcall : (t.updateRouteRtt p key rtt).routes = t.routes.apply (.updateRtt p key rtt) := rfl
  rw [hcall]
  exact RouteTable.evolves_apply t.routes rfl

theorem evolves_sendWire (p : PeerId) (data : List UInt8) :
    t.routes.Evolves (t.sendWire env p data).state.routes := by
  rw [sendWire_state]
  exact t.evolves_routeFor p

theorem evolves_coreSend {o : Outcome Transport} (h : t.coreSend env = some o) :
    t.routes.Evolves o.state.routes := by
  simp only [coreSend] at h
  split at h
  next => cases h
  next dest data rest _ =>
    cases h
    exact evolves_sendWire { t with outbound := rest } env dest data
  next =>
    cases h
    rw [sendWireToRoute_state]
    exact .refl t.routes

end Transport

/-! ## The protocol layer -/

namespace ProtocolLayer

/-- Calls that take no route away lead from the one route table to the other. -/
def Evolves (l l' : ProtocolLayer) : Prop := l.transport.routes.Evolves l'.transport.routes

section Evolves

variable {l l' l'' : ProtocolLayer}

theorem Evolves.refl (l : ProtocolLayer) : Evolves l l := RouteTable.Evolves.refl _

theorem Evolves.trans (h : Evolves l l') (h' : Evolves l' l'') : Evolves l l'' :=
  RouteTable.Evolves.trans h h'

theorem Evolves.of_routes (h : l'.transport.routes = l.transport.routes) : Evolves l l' := by
  rw [Evolves, h]
  exact .refl _

theorem Evolves.andThen {o : Outcome ProtocolLayer}
    {next : ProtocolLayer → Outcome ProtocolLayer} (h : Evolves l o.state)
    (hnext : ∀ m, Evolves m (next m).state) : Evolves l (o.andThen next).state := by
  rcases o.andThen_state next with heq | heq
  · rw [heq]
    exact h
  · rw [heq]
    exact h.trans (hnext o.state)

variable (l) (env : Env)

theorem evolves_lookup (p : PeerId) :
    Evolves l { l with transport := (l.transport.routeFor p).2 } :=
  l.transport.evolves_routeFor p

theorem evolves_learnPeerNat (peer : PeerInfo) : Evolves l (l.learnPeerNat peer) := by
  simp only [learnPeerNat]
  split <;> exact .of_routes rfl

theorem evolves_isConfirmedOrPendingNatObserve (p : PeerId) (key : RouteKey) (metric : UInt8) :
    Evolves l (l.isConfirmedOrPendingNatObserve p key metric).2 := by
  simp only [isConfirmedOrPendingNatObserve]
  split
  next => exact .of_routes rfl
  next => split <;> exact .of_routes rfl

theorem evolves_upsertPeerInfo (peer : PeerInfo) : Evolves l (l.upsertPeerInfo env peer) :=
  .of_routes (l.transport.upsertPeerInfo_routes env peer)

theorem evolves_confirmPeerRoute (peer : PeerInfo) (key : RouteKey) (metric : UInt8) :
    Evolves l (l.confirmPeerRoute env peer key metric) := by
  simp only [Evolves, confirmPeerRoute, Transport.routes_confirmPeerRoute]
  exact RouteTable.evolves_apply _ rfl

theorem evolves_confirmDirectAndPromote (peer : PeerInfo) (key : RouteKey) :
    Evolves l (l.confirmDirectAndPromote env peer key) := by
  refine (evolves_confirmPeerRoute l env peer key 0).trans ?_
  simp only [confirmDirectAndPromote, spawnProbeRtt]
  split <;> exact .of_routes rfl

theorem evolves_confirmTcpRoute (peer : PeerInfo) (key : RouteKey) (metric : UInt8) :
    Evolves l (l.confirmTcpRoute env peer key metric) := by
  simp only [confirmTcpRoute]
  split
  next => exact evolves_confirmDirectAndPromote l env peer key
  next => exact .refl l

theorem evolves_confirmRelayRouteFromControl (peer : PeerInfo) (key : RouteKey)
    (metric : UInt8) : Evolves l (l.confirmRelayRouteFromControl env peer key metric) := by
  simp only [confirmRelayRouteFromControl]
  split
  next => exact evolves_confirmPeerRoute l env peer key metric
  next => exact .refl l

theorem evolves_ingestRouteEntries (entries : List RouteEntry) (via : RouteKey) :
    Evolves l (l.ingestRouteEntries env entries via) := by
  simp only [ingestRouteEntries]
  induction entries generalizing l with
  | nil => exact .refl l
  | cons item entries ih =>
      rw [List.foldl_cons]
      refine Evolves.trans ?_ (ih _)
      simp only [ingestRouteEntry]
      split
      next => exact .refl l
      next =>
        exact (evolves_learnPeerNat l item.peer).trans (evolves_confirmPeerRoute _ env _ via _)

theorem evolves_sendProtocol (dest : PeerId) (protocol : ProtocolType) (payload : List UInt8) :
    Evolves l (l.sendProtocol env dest protocol payload).state := by
  simp only [sendProtocol]
  split
  next => exact .refl l
  next => exact l.transport.evolves_sendWire env dest _

theorem evolves_sendProtocolToRoute (dest : PeerId) (key : RouteKey) (protocol : ProtocolType)
    (payload : List UInt8) :
    Evolves l (l.sendProtocolToRoute env dest key protocol payload).state :=
  .of_routes (by rw [sendProtocolToRoute_state])

theorem evolves_forwardPacket (packet : Packet) : Evolves l (l.forwardPacket env packet).state := by
  simp only [forwardPacket]
  split
  next => exact .refl l
  next => exact l.transport.evolves_sendWire env _ _

theorem evolves_executePunch (c : Codec) (p : PeerId) (natInfo : NatInfo) :
    Evolves l (executePunch c l env p natInfo).state := by
  simp only [executePunch]
  split <;> exact .of_routes rfl

theorem evolves_tryExecutePunch (c : Codec) (p : PeerId) (natInfo : NatInfo) (key : RouteKey)
    (metric : UInt8) : Evolves l (tryExecutePunch c l env p natInfo key metric).state := by
  simp only [tryExecutePunch]
  split
  next => exact .refl l
  next =>
    split
    next =>
      split
      next => exact .refl l
      next => exact evolves_executePunch (l.insertLastPunchTime p env.nowSecs) env c p natInfo
    next => exact evolves_executePunch l env c p _

theorem evolves_sendEcho (p : PeerId) (key : RouteKey) :
    Evolves l (l.sendEcho env p key).state :=
  evolves_sendProtocolToRoute (l.insertPendingEcho p env.nowMillis) env p key .echoRequest _

theorem evolves_routeMetricFor (p : PeerId) : Evolves l (l.routeMetricFor p).2 := by
  have hlookup := evolves_lookup l p
  simp only [routeMetricFor]
  split
  next heq =>
    rw [heq] at hlookup
    exact hlookup
  next heq =>
    rw [heq] at hlookup
    exact hlookup

theorem evolves_punch (c : Codec) (p : PeerId) : Evolves l (punch c l env p).state := by
  simp only [punch]
  split
  next => exact .refl l
  next =>
    refine Evolves.andThen ?_ fun m => ?_
    · exact evolves_sendProtocol (l.insertPendingPunch _ p) env p .punchRequest _
    · split
      next => exact evolves_executePunch m env c p _
      next => exact .refl m

theorem evolves_trySendQuicPayload (p : PeerId) (payload : List UInt8) :
    Evolves l (l.trySendQuicPayload p payload).state := by
  have hlookup := evolves_lookup l p
  simp only [trySendQuicPayload]
  split
  next => exact .refl l
  next =>
    split
    next heq =>
      rw [heq] at hlookup
      refine hlookup.trans (.of_routes ?_)
      simp only [Outcome.ok_state]
      split <;> rfl
    next heq =>
      rw [heq] at hlookup
      split
      next => exact hlookup
      next => exact hlookup

theorem evolves_trySendQuicPayloadVia (p : PeerId) (key : RouteKey) (payload : List UInt8) :
    Evolves l (l.trySendQuicPayloadVia p key payload).state := by
  simp only [trySendQuicPayloadVia]
  split <;> exact .of_routes rfl

/-! ### The handler -/

theorem evolves_arrive (packet : Packet) (key : RouteKey) :
    Evolves l (l.arrive env packet key).2 := by
  have hread : l.transport.routes.Evolves
      (l.transport.updateRouteReadTime env packet.src key).routes :=
    l.transport.evolves_updateRouteReadTime env packet.src key
  refine RouteTable.Evolves.trans hread ?_
  simp only [arrive]
  split <;> exact evolves_upsertPeerInfo _ env _

theorem evolves_handlePunchPayload (c : Codec) (payload : List UInt8) :
    Evolves l (handlePunchPayload c l payload).2 := by
  simp only [handlePunchPayload]
  split <;> exact .of_routes rfl

theorem evolves_learnHello (hello : HelloPayload) (metric : UInt8) :
    Evolves l (l.learnHello hello metric) := by
  refine (evolves_learnPeerNat l hello.peer).trans ?_
  simp only [learnHello]
  split
  next => split <;> exact .of_routes rfl
  next => exact .refl _

theorem evolves_confirmHello (hello : HelloPayload) (key : RouteKey) (metric : UInt8) :
    Evolves l (l.confirmHello env hello key metric) := by
  simp only [confirmHello]
  split
  next => exact evolves_confirmDirectAndPromote (l.removePendingHello key) env hello.peer key
  next => exact evolves_upsertPeerInfo (l.removePendingHello key) env hello.peer

theorem evolves_confirmPunchRequest (src : PeerId) (key : RouteKey) (metric : UInt8) :
    Evolves l (l.confirmPunchRequest env src key metric) := by
  simp only [confirmPunchRequest]
  split
  next =>
    split
    next => exact .of_routes rfl
    next => exact evolves_confirmDirectAndPromote l env _ key
  next => exact .refl l

theorem evolves_confirmPunchReply (payload : PunchPayload) (key : RouteKey) (metric : UInt8) :
    Evolves l (l.confirmPunchReply env payload key metric) := by
  simp only [confirmPunchReply]
  split
  next => exact .refl l
  next =>
    split
    next => exact evolves_confirmDirectAndPromote (l.removePendingPunch _) env _ key
    next => exact .of_routes rfl

theorem evolves_onPunchRequest (c : Codec) (packet : Packet) (key : RouteKey) :
    Evolves l (onPunchRequest c env l packet key).state := by
  have hpunch := evolves_handlePunchPayload l c packet.payload
  simp only [onPunchRequest]
  split
  next heq =>
    rw [heq] at hpunch
    exact hpunch
  next payload l' heq =>
    rw [heq] at hpunch
    have hconfirm := hpunch.trans (evolves_confirmPunchRequest l' env payload.src key
      packet.metric)
    split
    next =>
      rw [Outcome.ignoring_state, sendProtocolToRoute_state]
      exact hconfirm.trans (evolves_tryExecutePunch _ env c _ _ key _)
    next => exact hconfirm

theorem evolves_onPunchReply (c : Codec) (packet : Packet) (key : RouteKey) :
    Evolves l (onPunchReply c env l packet key).state := by
  have hpunch := evolves_handlePunchPayload l c packet.payload
  simp only [onPunchReply]
  split
  next heq =>
    rw [heq] at hpunch
    exact hpunch
  next payload l' heq =>
    rw [heq] at hpunch
    have hconfirm := hpunch.trans (evolves_confirmPunchReply l' env payload key
      packet.metric)
    split
    next =>
      rw [Outcome.ignoring_state, Outcome.ok_state]
      exact hconfirm.trans (evolves_tryExecutePunch _ env c _ _ key _)
    next => exact hconfirm

theorem evolves_onNatObserveReply (c : Codec) (packet : Packet) (key : RouteKey)
    (peer : PeerInfo) : Evolves l (onNatObserveReply c env l packet key peer).state := by
  have hpending := evolves_isConfirmedOrPendingNatObserve l packet.src key packet.metric
  simp only [onNatObserveReply]
  split
  next heq =>
    rw [heq] at hpending
    exact hpending
  next l' heq =>
    rw [heq] at hpending
    split
    next => exact hpending
    next reply _ =>
      split
      next =>
        split
        next =>
          exact hpending.trans
            (evolves_confirmDirectAndPromote (l'.applyObservation reply.observation) env peer key)
        next => exact hpending
      next => exact hpending

/-- An EchoReply measures the route it came over. -/
theorem evolves_onEchoReply (packet : Packet) (key : RouteKey) :
    Evolves l (onEchoReply env l packet key) := by
  simp only [onEchoReply]
  split
  next =>
    split
    next => exact l.transport.evolves_updateRouteRtt packet.src key _
    next => exact .refl l
  next => exact .refl l

theorem evolves_dispatch (c : Codec) (packet : Packet) (key : RouteKey) (peer : PeerInfo)
    (protocol : ProtocolType) :
    Evolves l (dispatch c env l packet key peer protocol).layer := by
  have hpunch := evolves_handlePunchPayload l c packet.payload
  cases protocol with
  | helloRequest =>
      simp only [dispatch, Handling.layer, onHelloRequest, sendProtocolToRoute_state]
      split
      next => exact evolves_confirmDirectAndPromote l env peer key
      next => exact evolves_confirmTcpRoute l env peer key packet.metric
  | helloReply =>
      simp only [dispatch, onHelloReply]
      split
      next => exact .refl l
      next hello _ =>
        exact (evolves_learnHello l hello packet.metric).trans
          (evolves_confirmHello _ env hello key packet.metric)
  | idRouteQuery =>
      simp only [dispatch, Handling.layer, onIdRouteQuery, sendProtocolToRoute_state]
      exact evolves_confirmRelayRouteFromControl l env peer key packet.metric
  | idRouteReply =>
      simp only [dispatch, Handling.layer, onIdRouteReply]
      split
      next => exact .refl l
      next =>
        exact ((evolves_confirmTcpRoute l env peer key packet.metric).trans
          (evolves_confirmRelayRouteFromControl _ env peer key packet.metric)).trans
            (evolves_ingestRouteEntries _ env _ key)
  | quicRelay => exact .refl l
  | punchConsultRequest =>
      simp only [dispatch, Handling.layer, handlePunchConsultRequest]
      split
      next heq =>
        rw [heq] at hpunch
        exact hpunch
      next heq =>
        rw [heq] at hpunch
        split
        next => exact hpunch
        next => rwa [sendProtocolToRoute_state]
  | punchConsultReply =>
      simp only [dispatch, Handling.layer, onPunchConsultReply]
      split
      next heq =>
        rw [heq] at hpunch
        exact hpunch
      next heq =>
        rw [heq] at hpunch
        exact hpunch
  | punchRequest => exact evolves_onPunchRequest l env c packet key
  | punchReply => exact evolves_onPunchReply l env c packet key
  | echoRequest =>
      simp only [dispatch, Handling.layer, onEcho, sendProtocolToRoute_state]
      exact evolves_confirmTcpRoute l env peer key packet.metric
  | echoReply => exact evolves_onEchoReply l env packet key
  | timestampRequest =>
      simp only [dispatch, Handling.layer, onEcho, sendProtocolToRoute_state]
      exact evolves_confirmTcpRoute l env peer key packet.metric
  | natObserveRequest =>
      simp only [dispatch, Handling.layer, onNatObserveRequest]
      split
      next => exact evolves_sendProtocolToRoute l env packet.src key .natObserveReply _
      next => exact .refl l
  | natObserveReply => exact evolves_onNatObserveReply l env c packet key peer
  | messageData => exact .refl l
  | rangeBroadcast => exact .refl l
  | timestampReply => exact .refl l

theorem evolves_handleTransportPacket (c : Codec) (data : List UInt8) (key : RouteKey) :
    Evolves l (handleTransportPacket c env l data key).layer := by
  have hhandled : Handled c env l data key (handleTransportPacket c env l data key) :=
    handled_handleTransportPacket
  generalize handleTransportPacket c env l data key = handling at hhandled
  cases hhandled with
  | dropped unscreened state effects =>
      rw [Handling.layer, state]
      exact .refl l
  | @forwarded packet screened remote =>
      exact (evolves_arrive l env packet key).trans (evolves_forwardPacket _ env packet)
  | @untyped packet e screened isLocal type => exact evolves_arrive l env packet key
  | @dispatched packet protocol screened isLocal type =>
      exact (evolves_arrive l env packet key).trans (evolves_dispatch _ env c packet key _ _)

/-! ### The tasks -/

theorem evolves_probeCandidate (p : PeerId) (key : RouteKey) :
    Evolves l (l.probeCandidate env p key).state := by
  have hlookup := evolves_lookup l p
  simp only [probeCandidate]
  split
  next heq =>
    rw [heq] at hlookup
    exact hlookup
  next heq =>
    rw [heq] at hlookup
    rw [sendProtocolToRoute_state]
    exact hlookup

theorem evolves_sendAutoPunch (c : Codec) (now : UInt64) (p : PeerId) :
    Evolves l (sendAutoPunch c l env now p).state := by
  have hsend (dest : PeerId) (payload : List UInt8) :
      Evolves l (((l.insertLastPunchTime p now).insertPendingPunch env.requestId p).sendProtocol env
        dest .punchRequest payload).state :=
    evolves_sendProtocol ((l.insertLastPunchTime p now).insertPendingPunch env.requestId p) env dest
      .punchRequest payload
  simp only [sendAutoPunch, Outcome.ignoring_state]
  split
  next =>
    split
    next => exact Evolves.trans (hsend p _) (evolves_executePunch _ env c p _)
    next => exact hsend p _
  next => exact hsend p _

theorem evolves_autoPunch (c : Codec) (now : UInt64) (p : PeerId) :
    Evolves l (autoPunch c l env now p).state := by
  have hlookup := evolves_lookup l p
  simp only [autoPunch]
  split
  next => exact .refl l
  next =>
    split
    next => exact hlookup
    next => exact hlookup.trans (evolves_sendAutoPunch _ env c now p)

theorem evolves_requestObservation (p : PeerId) :
    Evolves l (l.requestObservation env p).state := by
  have hlookup := evolves_lookup l p
  simp only [requestObservation]
  split
  next =>
    refine Evolves.trans ?_ (evolves_sendProtocol _ env p .natObserveRequest [])
    split
    next heq =>
      rw [heq] at hlookup
      exact hlookup
    next heq =>
      rw [heq] at hlookup
      exact hlookup
  next => exact .refl l

theorem evolves_runMaintenance {c : Codec} {m m' : Maintenance} {o : Outcome ProtocolLayer}
    (h : Task.runMaintenance c env l m = some (o, m')) : Evolves l o.state := by
  simp only [Task.runMaintenance] at h
  split at h
  next => split at h <;> (cases h; exact .refl l)
  next => cases h; exact .refl l
  next =>
    split at h
    next => cases h; exact .refl l
    next => cases h; exact evolves_sendProtocol l env _ .idRouteQuery []
  next => cases h; exact .refl l
  next => cases h; exact evolves_probeCandidate l env _ _
  next => cases h; exact .refl l
  next => cases h; exact evolves_autoPunch l env c _ _
  next => cases h

/-- Rehashing changes the order of iteration. -/
theorem evolves_rehash {peers : DashMap PeerId PeerInfo} {candidates : DashMap PeerId RouteKey}
    {routeTable : DashMap PeerId PeerRoutes}
    (h : l.rehash peers candidates routeTable = some l') : Evolves l l' := by
  simp only [rehash] at h
  split at h
  next hperm =>
    cases h
    exact RouteTable.Alike.evolves
      ⟨fun p => (DashMap.get_perm hperm.2.2 p).symm, fun _ => rfl, rfl⟩
  next => cases h

end Evolves

end ProtocolLayer

open ProtocolLayer

theorem Task.evolves_run {c : Codec} {env : Env} {l : ProtocolLayer} {loops loops' : Loops}
    {task : Task} {o : Outcome ProtocolLayer}
    (h : task.run c env l loops = some (o, loops')) : Evolves l o.state := by
  cases task with
  | maintain =>
      obtain ⟨⟨o', m⟩, hrun, heq⟩ := Option.map_eq_some_iff.mp h
      cases heq
      exact evolves_runMaintenance l _ hrun
  | heartbeat =>
      simp only [run] at h
      split at h
      next => split at h <;> cases h; exact .refl l
      next => cases h; exact evolves_sendEcho l _ _ _
  | observe =>
      simp only [run] at h
      split at h
      next => split at h <;> cases h; exact .refl l
      next => cases h; exact evolves_requestObservation l _ _
  | stun result => cases h; exact .of_routes rfl
  | probe index =>
      simp only [run] at h
      split at h
      next p key _ =>
        cases h
        exact evolves_sendEcho { l with probeTasks := l.probeTasks.eraseIdx index } _ p key
      next => cases h
  | coreSend =>
      obtain ⟨o', hsend, heq⟩ := Option.map_eq_some_iff.mp h
      cases heq
      exact l.transport.evolves_coreSend env hsend
  | allowPunch peerId => cases h; exact .of_routes rfl
  | denyPunch peerId => cases h; exact .of_routes rfl
  | setPunchWhitelist peers => cases h; exact .of_routes rfl
  | punch peerId => cases h; exact evolves_punch l _ c peerId
  | lookup peerId => cases h; exact evolves_routeMetricFor l peerId
  | sendQuic peerId payload => cases h; exact evolves_trySendQuicPayload l peerId payload
  | sendQuicVia peerId routeKey payload =>
      cases h
      exact evolves_trySendQuicPayloadVia l peerId routeKey payload
  | close => cases h; exact .of_routes rfl
  | rehash peers candidates routeTable =>
      obtain ⟨l', hrehash, heq⟩ := Option.map_eq_some_iff.mp h
      cases heq
      exact evolves_rehash l hrehash

/-! ## The node -/

theorem CallMove.evolves {l l' : ProtocolLayer} {queue queue' : List HelloItem}
    {call call' : Call} {effects : List Effect} {s : CallStep}
    (h : Node.CallMove l queue call s call' l' queue' effects) : Evolves l l' := by
  have hsend (env : Env) : Evolves l (Node.sendHello l env call.addr).state := by
    simp only [Node.sendHello]
    split
    next => exact .refl l
    next =>
      rw [Outcome.map_state, Transport.sendRawToAddr_state]
      exact .refl l
  cases h with
  | sent => exact hsend _
  | unsent => exact hsend _
  | register => exact .of_routes rfl
  | _ => exact .refl l

namespace Node

variable {c : Codec} {n n' : Node}

/-- An event makes calls on the route table that take nothing away. -/
theorem evolves_step {e : Event} (h : step c n e = some n') : Evolves n.layer n'.layer := by
  cases Move.of_step h with
  | packet idle =>
      rw [handlePacket_layer]
      exact evolves_handleTransportPacket n.layer _ c _ _
  | helloSent sending room => exact evolves_ingestRouteEntries n.layer _ _ _
  | quicSent => exact .refl _
  | transportClosed => exact .refl _
  | quicReceived => exact .refl _
  | bootstrap => exact .refl _
  | call running move => exact CallMove.evolves move
  | task ran => exact Task.evolves_run ran

theorem evolves_run {es : List Event} (h : run (step c) n es = some n') :
    Evolves n.layer n'.layer :=
  run_invariant (I := fun m => Evolves n.layer m.layer)
    (fun _ _ _ hstep hm => hm.trans (evolves_step hstep)) h (.refl n.layer)

/-! ## The routes of a run -/

/-- The layer a node starts with has an empty table. -/
theorem evolves_of_run {s : Startup} {es : List Event} (hrun : run (step c) s.node es = some n) :
    (RouteTable.new s.loadBalance).Evolves n.layer.transport.routes := evolves_run hrun

/-- Whatever happens at a node, its route table is one that calls make out of an empty table,
and none of the calls takes a route away. -/
theorem routes_of_run (c : Codec) (s : Startup) {es : List Event}
    (hrun : run (step c) s.node es = some n) :
    ∃ ops : List (RouteOp PeerId), (∀ op ∈ ops, op.removes = false) ∧
      RouteTable.Alike n.layer.transport.routes ((RouteTable.new s.loadBalance).runOps ops) :=
  evolves_of_run hrun

/-- `b` asks over a relay for routes. -/
def relayedQuery : Event :=
  .packet (Env.atMillis 1) [137, 3, 0, 3, 2, 0, 0, 0, 15, 0, 1, 0, 1, 98, 97] RouteTable.pathOne

/-- Then it greets from its own address. -/
def directHello : Event :=
  .packet (Env.atMillis 2) [141, 3, 0, 3, 3, 0, 0, 0, 15, 0, 1, 0, 1, 98, 97] RouteTable.pathTwo

theorem run_relayedQuery : ∃ n, run (step .empty) Startup.nodeA.node [relayedQuery] = some n ∧
    n.layer.HasRoute ⟨"b"⟩ RouteTable.pathOne 1 := by
  decide +kernel

theorem routes_of_run_query :
    ∃ n, run (step .empty) Startup.nodeA.node [relayedQuery] = some n ∧
      ∃ ops : List (RouteOp PeerId), (∀ op ∈ ops, op.removes = false) ∧
        RouteTable.Alike n.layer.transport.routes
          ((RouteTable.new Startup.nodeA.loadBalance).runOps ops) := by
  obtain ⟨n, hrun, -⟩ := run_relayedQuery
  exact ⟨n, hrun, routes_of_run .empty .nodeA hrun⟩

/-- Under the fewest hops, the first route is as short as the one lookup picks. -/
theorem linkInfo_eq {t : Transport} {p : PeerId} {r : Route}
    (hpolicy : t.routes.loadBalance = .minHopLowestLatency)
    (hsorted : (t.routes.route p).Pairwise (RouteTable.policyLe .minHopLowestLatency))
    (hlookup : (t.routeFor p).1 = .ok r) :
    t.linkInfo p = some ⟨p, if r.metric = 0 then .direct else .relay, r.metric⟩ := by
  have hpicked := RouteTable.picked_of_getRouteById hlookup
  rw [hpolicy] at hpicked
  obtain ⟨first, hfirst⟩ : ∃ first, (t.routes.route p).head? = some first :=
    Option.isSome_iff_exists.mp (List.isSome_head?.mpr (List.ne_nil_of_mem hpicked.mem))
  have hle : r.metric ≤ first.metric :=
    hpicked.least_metric hsorted first (List.mem_of_mem_head? hfirst)
  have hge : first.metric ≤ r.metric :=
    RouteTable.le_of_head? (fun x => UInt8.le_refl x.metric) hsorted hfirst r hpicked.mem
  have hmetric : first.metric = r.metric := UInt8.le_antisymm hge hle
  simp only [Transport.linkInfo, RouteTable.routeOne_eq, hfirst, Option.map_some, hmetric]

/-- Once a peer can be reached it stays so, and not over a longer way.  The route stays under
its key, a direct one stays direct, and no other gets longer unless the policy goes by
latency.  Lookup goes on finding a route, and a direct one if one was known.  Under the fewest
hops it finds none longer than the route, and the shortest of all, and `link_info` agrees. -/
theorem reachability_kept (c : Codec) (s : Startup) {es es' : List Event}
    (hrun : run (step c) s.node es = some n) (hrun' : run (step c) n es' = some n')
    {p : PeerId} {k : RouteKey} {m : UInt8} (hroute : n.layer.HasRoute p k m) :
    (∃ m', (∀ m'', n'.layer.HasRoute p k m'' ↔ m'' = m') ∧ (m = 0 → m' = 0) ∧
      (s.loadBalance ≠ .lowestLatency → m' ≤ m)) ∧
    ∃ r, (n'.layer.transport.routeFor p).1 = .ok r ∧ (m = 0 → r.metric = 0) ∧
      (s.loadBalance = .minHopLowestLatency →
        r.metric ≤ m ∧ (∀ x ∈ n'.layer.transport.routesOf p, r.metric ≤ x.metric) ∧
          n'.layer.transport.linkInfo p =
            some ⟨p, if r.metric = 0 then .direct else .relay, r.metric⟩) := by
  have hbefore := evolves_of_run hrun
  have hlater : RouteTable.Evolves n.layer.transport.routes n'.layer.transport.routes :=
    evolves_run hrun'
  have hafter := hbefore.trans hlater
  have hpolicy : n.layer.transport.routes.loadBalance = s.loadBalance := hbefore.policy
  have hpolicy' : n'.layer.transport.routes.loadBalance = s.loadBalance := hafter.policy
  obtain ⟨m', hkept, hdirect, hle⟩ := hlater.has hroute
  rw [hpolicy] at hle
  refine ⟨⟨m', fun m'' => ⟨fun h => ?_, fun h => h ▸ hkept⟩, hdirect, hle⟩, ?_⟩
  · exact RouteTable.listed_unique (hafter.nodup_keys p) (RouteTable.has_iff_listed.mp h)
      (RouteTable.has_iff_listed.mp hkept)
  · obtain ⟨x, hx, -, rfl⟩ := hkept
    obtain ⟨r, hr⟩ := RouteTable.getRouteById_isOk (List.ne_nil_of_mem hx)
    have hpicked := RouteTable.picked_of_getRouteById hr
    refine ⟨r, hr, fun hm => ?_, fun hhops => ?_⟩
    · cases hpicked with
      | direct first => exact Route.isDirect_iff.mp (List.find?_some first)
      | head relay => exact absurd (hdirect hm) (relay x hx)
      | turn relay => exact absurd (hdirect hm) (relay x hx)
    · rw [hpolicy', hhops] at hpicked
      have hsorted := hafter.pairwise (p := p) List.Pairwise.nil
      rw [hhops] at hsorted
      have hleast := hpicked.least_metric hsorted
      have hlatency : s.loadBalance ≠ .lowestLatency := fun h => by rw [hhops] at h; cases h
      exact ⟨UInt8.le_trans (hleast x hx) (hle hlatency), hleast,
        linkInfo_eq (hpolicy'.trans hhops) hsorted hr⟩

/-- `b` is one relay away, and then direct. -/
theorem reachability_kept_direct :
    ∃ n n', run (step .empty) Startup.nodeA.node [relayedQuery] = some n ∧
      run (step .empty) n [directHello] = some n' ∧
      n.layer.HasRoute ⟨"b"⟩ RouteTable.pathOne 1 ∧
      n'.layer.HasRoute ⟨"b"⟩ RouteTable.pathTwo 0 ∧
      ∃ m', (∀ m'', n'.layer.HasRoute ⟨"b"⟩ RouteTable.pathOne m'' ↔ m'' = m') ∧
        ((1 : UInt8) = 0 → m' = 0) ∧ (Startup.nodeA.loadBalance ≠ .lowestLatency → m' ≤ 1) := by
  obtain ⟨n, hrun, hroute, n', hrun', hdirect⟩ :
      ∃ n, run (step .empty) Startup.nodeA.node [relayedQuery] = some n ∧
        n.layer.HasRoute ⟨"b"⟩ RouteTable.pathOne 1 ∧
        ∃ n', run (step .empty) n [directHello] = some n' ∧
          n'.layer.HasRoute ⟨"b"⟩ RouteTable.pathTwo 0 := by
    decide +kernel
  exact ⟨n, n', hrun, hrun', hroute, hdirect, (reachability_kept .empty .nodeA hrun hrun' hroute).1⟩

end Node

end RustP2p
