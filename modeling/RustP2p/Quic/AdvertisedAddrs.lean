import RustP2p.Quic.Observers
import RustP2p.Quic.PeerStore

/-!
# The addresses a node advertises

A HelloReply and an IDRouteReply carry the node's description of itself and an
entry for every known peer.  The peers come from the store, where no address is
unspecified.  The node itself is described with its local address, and when that
is unspecified, with the first public address it was told.

What it is told is not checked.  `reported` is the observation a packet makes the
node apply, and `publicIps_step` says that nothing else changes the public
addresses.  The first one is never replaced, so it depends on the first report of
an IPv4 address alone whether the node advertises `0.0.0.0` from then on.
-/

namespace RustP2p

/-- No address of the peer is unspecified. -/
def PeerInfo.Specified (info : PeerInfo) : Prop := ∀ a ∈ info.addrs, a.ip.isUnspecified = false

instance (info : PeerInfo) : Decidable info.Specified := inferInstanceAs (Decidable (∀ _ ∈ _, _))

namespace ProtocolLayer

variable {c : Codec} {env : Env} {l l' : ProtocolLayer} {data : List UInt8} {packet : Packet}
  {key : RouteKey} {peer : PeerInfo}

/-! ## What the node says of itself -/

/-- The node has an address to advertise, or advertises none. -/
def SelfSpecified (l : ProtocolLayer) : Prop :=
  l.transport.localAddr.ip.isUnspecified = true →
    l.natInfo.publicIps.head? ≠ some Ipv4Addr.unspecified

instance (l : ProtocolLayer) : Decidable l.SelfSpecified := inferInstanceAs (Decidable (_ → _))

@[simp] theorem ip_new (ip : IpAddr) (port : UInt16) : (SocketAddr.new ip port).ip = ip := by
  cases ip <;> rfl

/-- The IP address that `self_peer_info` advertises. -/
def advertisedIp (l : ProtocolLayer) : Option IpAddr :=
  if ¬ l.transport.localAddr.ip.isUnspecified then some l.transport.localAddr.ip
  else l.natInfo.publicIps.head?.map IpAddr.v4

/-- Every address of the description has this IP address, or is a TCP address that is not
unspecified. -/
theorem mem_addrs_selfPeerInfo {a : SocketAddr} (ha : a ∈ (l.selfPeerInfo env).addrs) :
    l.advertisedIp = some a.ip ∨ a.ip.isUnspecified = false := by
  have hown {ip : IpAddr} {port : UInt16} (hip : l.advertisedIp = some ip)
      (heq : a = SocketAddr.new ip port) : l.advertisedIp = some a.ip := by
    rw [heq, ip_new, hip]
  simp only [selfPeerInfo] at ha
  split at ha
  next addr htcp =>
    rcases mem_pushNew.mp ha with ha | rfl
    · split at ha
      next ip hip => exact Or.inl (hown hip (List.mem_singleton.mp ha))
      next => cases ha
    · obtain ⟨tcp, -, htcp⟩ := Option.bind_eq_some_iff.mp htcp
      split at htcp
      next =>
        obtain ⟨ip, hip, rfl⟩ := Option.map_eq_some_iff.mp htcp
        exact Or.inl (hown hip rfl)
      next hspecified =>
        cases htcp
        exact Or.inr (by simpa using hspecified)
  next =>
    split at ha
    next ip hip => exact Or.inl (hown hip (List.mem_singleton.mp ha))
    next => cases ha

theorem mem_addrs_selfPeerInfo_of_ip {ip : IpAddr} (h : l.advertisedIp = some ip) :
    SocketAddr.new ip l.transport.localAddr.port ∈ (l.selfPeerInfo env).addrs := by
  simp only [advertisedIp] at h
  simp only [selfPeerInfo, h]
  split
  next => exact mem_pushNew.mpr (Or.inl (List.mem_singleton.mpr rfl))
  next => exact List.mem_singleton.mpr rfl

/-- The description is in order exactly if the IP address is. -/
theorem specified_selfPeerInfo_iff : (l.selfPeerInfo env).Specified ↔ l.SelfSpecified := by
  constructor
  · intro h hwildcard hhead
    have hip : l.advertisedIp = some (.v4 .unspecified) := by
      rw [advertisedIp, if_neg (by simpa using hwildcard), hhead]
      rfl
    have hspecified := h _ (mem_addrs_selfPeerInfo_of_ip hip)
    rw [ip_new] at hspecified
    cases hspecified
  · intro h a ha
    rcases mem_addrs_selfPeerInfo ha with hip | hspecified
    · simp only [advertisedIp] at hip
      split at hip
      next hspecified =>
        rw [← Option.some.inj hip]
        simpa using hspecified
      next hwildcard =>
        obtain ⟨ip, hhead, hv4⟩ := Option.map_eq_some_iff.mp hip
        rw [← hv4]
        have hne : ip ≠ Ipv4Addr.unspecified := by
          rintro rfl
          exact h (by simpa using hwildcard) hhead
        simpa [IpAddr.isUnspecified] using hne
    · exact hspecified

/-! ## What the node sends -/

/-- No HelloReply or IDRouteReply of the layer has an unspecified address in it. -/
def AdvertisesSpecified (l : ProtocolLayer) : Prop :=
  ∀ env requester observed,
    (l.helloPayload env requester observed).peer.Specified ∧
      (∀ entry ∈ (l.helloPayload env requester observed).peers, entry.peer.Specified) ∧
      ∀ entry ∈ l.discoveryEntries env requester, entry.peer.Specified

/-- The entries are the node itself and peers of the store. -/
theorem mem_discoveryEntries {requester : PeerId} {entry : RouteEntry}
    (h : entry ∈ l.discoveryEntries env requester) :
    entry.peer = l.selfPeerInfo env ∨ ∃ p, l.transport.peers.get p = some entry.peer := by
  rcases List.mem_cons.mp h with rfl | h
  · exact Or.inl rfl
  · obtain ⟨info, hinfo, hentry⟩ := List.mem_filterMap.mp h
    split at hentry
    next => cases hentry
    next =>
      obtain ⟨route, -, rfl⟩ := Option.map_eq_some_iff.mp hentry
      obtain ⟨e, he, rfl⟩ := List.mem_map.mp hinfo
      exact Or.inr ⟨e.1, DashMap.mem_pairs.mp (List.mem_map.mpr ⟨e, he, rfl⟩)⟩

/-- With a well-formed store it is up to the node's own address. -/
theorem advertisesSpecified_iff (hstore : l.transport.WellFormed) :
    l.AdvertisesSpecified ↔ l.SelfSpecified := by
  constructor
  · intro h
    exact specified_selfPeerInfo_iff.mp (h (Env.atMillis 0) l.peerId none).1
  · intro h env requester observed
    have hself : (l.selfPeerInfo env).Specified := specified_selfPeerInfo_iff.mpr h
    have hentries : ∀ entry ∈ l.discoveryEntries env requester, entry.peer.Specified := by
      intro entry hentry
      rcases mem_discoveryEntries hentry with heq | ⟨p, hp⟩
      · rw [heq]
        exact hself
      · exact hstore.specified p entry.peer hp
    exact ⟨hself, hentries, hentries⟩

/-! ## What the node is told -/

/-- The observation of a NatObserveReply that the layer accepts. -/
def acceptedObservation (c : Codec) (l : ProtocolLayer) (packet : Packet) :
    Option NatObservation :=
  match decodeNatObserveReplyPayload c packet.payload with
  | .ok reply =>
      if reply.observation.observerPeerId = packet.src ∧ l.shouldObserveWith packet.src then
        some reply.observation
      else none
  | .error _ => none

/-- The observation that handling the bytes makes the layer apply. -/
def reported (c : Codec) (l : ProtocolLayer) (data : List UInt8) : Option NatObservation :=
  match l.screen data with
  | .ok (some packet) =>
      if packet.metric = 0 ∧ l.isLocal packet then
        match packet.protocol with
        | .ok .helloReply =>
            match decodeHelloPayload c packet.payload with
            | .ok hello => hello.observedAddr
            | .error _ => none
        | .ok .natObserveReply => acceptedObservation c l packet
        | _ => none
      else none
  | _ => none

/-- The NAT information after an observation, if there is one. -/
def told (info : NatInfo) (observation : Option NatObservation) : NatInfo :=
  observation.elim info (applyObservationToNatInfo info)

/-- A NatObserveReply is applied if it is accepted, once its direct sender is a
candidate. -/
theorem natInfo_onNatObserveReply_eq
    (hcandidate : packet.metric = 0 → l.routeCandidates.get packet.src = some key) :
    (onNatObserveReply c env l packet key peer).state.natInfo =
      told l.natInfo (if packet.metric = 0 then acceptedObservation c l packet else none) := by
  by_cases hmetric : packet.metric = 0
  · have hcheck : l.isConfirmedOrPendingNatObserve packet.src key packet.metric = (true, l) := by
      simp only [isConfirmedOrPendingNatObserve]
      rw [if_pos (isConfirmedOrCandidate_iff.mpr ⟨hmetric, Or.inr (hcandidate hmetric)⟩)]
    simp only [onNatObserveReply, hcheck, acceptedObservation, if_pos hmetric]
    cases decodeNatObserveReplyPayload c packet.payload with
    | error e => rfl
    | ok reply =>
        simp only
        split
        next =>
          rw [Outcome.ok_state, (framed_confirmDirectAndPromote _ env peer key).natInfo]
          rfl
        next => rfl
  · have hcheck : l.isConfirmedOrPendingNatObserve packet.src key packet.metric = (false, l) := by
      simp [isConfirmedOrPendingNatObserve, isConfirmedOrCandidate, hmetric]
    simp only [onNatObserveReply, hcheck, if_neg hmetric]
    rfl

/-- Handling a packet changes the NAT information by what it reports. -/
theorem natInfo_handleTransportPacket :
    (handleTransportPacket c env l data key).layer.natInfo =
      told l.natInfo (reported c l data) := by
  have hhandled : Handled c env l data key (handleTransportPacket c env l data key) :=
    handled_handleTransportPacket
  generalize handleTransportPacket c env l data key = handling at hhandled
  cases hhandled with
  | dropped unscreened state effects =>
      have hnone : reported c l data = none := by
        unfold reported
        split
        next packet hscreen => exact absurd hscreen (unscreened packet)
        next => rfl
      rw [Handling.layer, state, hnone]
      rfl
  | @forwarded packet screened remote =>
      rw [Handling.layer, ((framed_arrive l env packet key).trans
        (framed_forwardPacket _ env packet)).natInfo]
      simp only [reported, screened, remote, Bool.false_eq_true, and_false, if_false]
      rfl
  | @untyped packet e screened isLocal type =>
      rw [Handling.layer, Outcome.fail_state, arrive_natInfo]
      simp only [reported, screened, type]
      split <;> rfl
  | @dispatched packet protocol screened isLocal type =>
      have harrive := framed_arrive l env packet key
      simp only [reported, screened, type, isLocal, and_true]
      by_cases hhello : protocol = .helloReply
      · subst hhello
        rw [dispatch, natInfo_onHelloReply, harrive.natInfo]
        cases hdecode : decodeHelloPayload c packet.payload with
        | error e => simp [told]
        | ok hello =>
            rcases hello with ⟨hpeer, hpeers, _ | observation⟩
            · simp [told]
            · by_cases hmetric : packet.metric = 0
              · simp [told, hmetric]
              · simp [told, hmetric]
      · by_cases hobserve : protocol = .natObserveReply
        · subst hobserve
          rw [dispatch, Handling.layer, natInfo_onNatObserveReply_eq
            (arrive_candidate l env packet key), harrive.natInfo]
          simp only [acceptedObservation, harrive.shouldObserveWith]
        · have hsame : (dispatch c env (l.arrive env packet key).2 packet key
              (l.arrive env packet key).1 protocol).layer.natInfo = l.natInfo := by
            by_cases hrequest : protocol = .punchRequest
            · subst hrequest
              exact natInfo_onPunchRequest.trans harrive.natInfo
            · by_cases hreply : protocol = .punchReply
              · subst hreply
                exact natInfo_onPunchReply.trans harrive.natInfo
              · exact (framed_dispatch hhello hobserve hrequest hreply).natInfo.trans
                  harrive.natInfo
          rw [hsame]
          split
          next =>
            split
            next heq => exact absurd (Except.ok.inj heq) hhello
            next heq => exact absurd (Except.ok.inj heq) hobserve
            next => rfl
          next => rfl

/-! ## What the tasks do to it -/

theorem natInfo_sendProtocol (dest : PeerId) (protocol : ProtocolType) (payload : List UInt8) :
    (l.sendProtocol env dest protocol payload).state.natInfo = l.natInfo := by
  simp only [sendProtocol]
  split <;> rfl

theorem natInfo_executePunch (p : PeerId) (natInfo : NatInfo) :
    (executePunch c l env p natInfo).state.natInfo = l.natInfo := by
  simp only [executePunch]
  split <;> rfl

theorem natInfo_sendAutoPunch (now : UInt64) (p : PeerId) :
    (sendAutoPunch c l env now p).state.natInfo = l.natInfo := by
  simp only [sendAutoPunch, Outcome.ignoring_state]
  split
  next =>
    split
    next => rw [natInfo_executePunch, natInfo_sendProtocol]; rfl
    next => rw [Outcome.ok_state, natInfo_sendProtocol]; rfl
  next => rw [Outcome.ok_state, natInfo_sendProtocol]; rfl

theorem natInfo_autoPunch (now : UInt64) (p : PeerId) :
    (autoPunch c l env now p).state.natInfo = l.natInfo := by
  simp only [autoPunch]
  split
  next => rfl
  next =>
    split
    next => rfl
    next => rw [natInfo_sendAutoPunch]

theorem natInfo_andThen {o : Outcome ProtocolLayer} {next : ProtocolLayer → Outcome ProtocolLayer}
    (h : o.state.natInfo = l.natInfo) (hnext : ∀ m, (next m).state.natInfo = m.natInfo) :
    (o.andThen next).state.natInfo = l.natInfo := by
  rcases o.andThen_state next with heq | heq
  · rw [heq, h]
  · rw [heq, hnext, h]

theorem natInfo_punch (p : PeerId) : (punch c l env p).state.natInfo = l.natInfo := by
  simp only [punch]
  split
  next => rfl
  next =>
    refine natInfo_andThen ?_ ?_
    · rw [natInfo_sendProtocol]
      rfl
    · intro m
      split
      next => exact natInfo_executePunch p _
      next => rfl

theorem natInfo_probeCandidate (p : PeerId) (k : RouteKey) :
    (l.probeCandidate env p k).state.natInfo = l.natInfo := by
  simp only [probeCandidate]
  split
  next => rfl
  next => rw [sendProtocolToRoute_state]; rfl

theorem natInfo_requestObservation (p : PeerId) :
    (l.requestObservation env p).state.natInfo = l.natInfo := by
  simp only [requestObservation]
  split
  next =>
    rw [natInfo_sendProtocol]
    split <;> rfl
  next => rfl

theorem natInfo_trySendQuicPayload (p : PeerId) (payload : List UInt8) :
    (l.trySendQuicPayload p payload).state.natInfo = l.natInfo := by
  simp only [trySendQuicPayload]
  split
  next => rfl
  next =>
    split
    next => rfl
    next => split <;> rfl

theorem natInfo_trySendQuicPayloadVia (p : PeerId) (k : RouteKey) (payload : List UInt8) :
    (l.trySendQuicPayloadVia p k payload).state.natInfo = l.natInfo := by
  simp only [trySendQuicPayloadVia]
  split <;> rfl

theorem natInfo_routeMetricFor (p : PeerId) : (l.routeMetricFor p).2.natInfo = l.natInfo := by
  simp only [routeMetricFor]
  split <;> rfl

theorem natInfo_rehash {peers : DashMap PeerId PeerInfo} {candidates : DashMap PeerId RouteKey}
    {routeTable : DashMap PeerId PeerRoutes}
    (h : l.rehash peers candidates routeTable = some l') : l'.natInfo = l.natInfo := by
  simp only [rehash] at h
  split at h
  next => cases h; rfl
  next => cases h

end ProtocolLayer

open ProtocolLayer

namespace Task

variable {c : Codec} {env : Env} {l : ProtocolLayer} {o : Outcome ProtocolLayer}

theorem natInfo_runMaintenance {m m' : Maintenance} (h : runMaintenance c env l m = some (o, m')) :
    o.state.natInfo = l.natInfo := by
  simp only [runMaintenance] at h
  split at h
  next => split at h <;> (cases h; rfl)
  next => cases h; rfl
  next =>
    split at h
    next => cases h; rfl
    next => cases h; exact natInfo_sendProtocol _ _ _
  next => cases h; rfl
  next => cases h; exact natInfo_probeCandidate _ _
  next => cases h; rfl
  next => cases h; exact natInfo_autoPunch _ _
  next => cases h

/-- No task changes the public addresses.  STUN results are about the mapping only. -/
theorem publicIps_run {loops loops' : Loops} {task : Task}
    (h : run c env l loops task = some (o, loops')) :
    o.state.natInfo.publicIps = l.natInfo.publicIps := by
  cases task with
  | maintain =>
      obtain ⟨⟨o', m⟩, hrun, heq⟩ := Option.map_eq_some_iff.mp h
      cases heq
      rw [natInfo_runMaintenance hrun]
  | heartbeat =>
      simp only [run] at h
      split at h
      next => split at h <;> cases h; rfl
      next => cases h; rw [sendEcho, sendProtocolToRoute_state]; rfl
  | observe =>
      simp only [run] at h
      split at h
      next => split at h <;> cases h; rfl
      next => cases h; rw [natInfo_requestObservation]
  | stun result => cases h; rfl
  | probe index =>
      simp only [run] at h
      split at h
      next => cases h; rw [sendEcho, sendProtocolToRoute_state]; rfl
      next => cases h
  | coreSend =>
      obtain ⟨o', -, heq⟩ := Option.map_eq_some_iff.mp h
      cases heq
      rfl
  | allowPunch peerId => cases h; rfl
  | denyPunch peerId => cases h; rfl
  | setPunchWhitelist peers => cases h; rfl
  | punch peerId => cases h; rw [natInfo_punch]
  | lookup peerId => cases h; rw [Outcome.ok_state, natInfo_routeMetricFor]
  | sendQuic peerId payload => cases h; rw [natInfo_trySendQuicPayload]
  | sendQuicVia peerId key payload => cases h; rw [natInfo_trySendQuicPayloadVia]
  | close => cases h; rfl
  | rehash peers candidates routeTable =>
      obtain ⟨l', hrehash, heq⟩ := Option.map_eq_some_iff.mp h
      cases heq
      rw [Outcome.ok_state, natInfo_rehash hrehash]

end Task

namespace Node

variable {c : Codec} {n n' : Node} {e : Event}

theorem natInfo_sendHello (l : ProtocolLayer) (env : Env) (addr : SocketAddr) :
    (sendHello l env addr).state.natInfo = l.natInfo := by
  simp only [sendHello]
  split <;> rfl

theorem CallMove.natInfo {l l' : ProtocolLayer} {queue queue' : List HelloItem} {call call' : Call}
    {effects : List Effect} {s : CallStep} (h : CallMove l queue call s call' l' queue' effects) :
    l'.natInfo = l.natInfo := by
  cases h with
  | sent => exact natInfo_sendHello l _ call.addr
  | unsent => exact natInfo_sendHello l _ call.addr
  | register => rfl
  | received => rfl
  | discarded => rfl
  | timeout => rfl
  | retry => rfl
  | failed => rfl
  | cancel => rfl

/-- What an event reports to the node. -/
def reported (c : Codec) (n : Node) : Event → Option NatObservation
  | .packet _ data _ => n.layer.reported c data
  | _ => none

/-- The public addresses change by what the event reports. -/
theorem publicIps_step (h : step c n e = some n') :
    n'.layer.natInfo.publicIps = (told n.layer.natInfo (n.reported c e)).publicIps := by
  cases Move.of_step h with
  | packet idle => rw [handlePacket_layer, natInfo_handleTransportPacket]; rfl
  | helloSent sending room => rw [(framed_ingestRouteEntries n.layer _ _ _).natInfo]; rfl
  | quicSent => rfl
  | transportClosed => rfl
  | quicReceived => rfl
  | bootstrap => rfl
  | call running move => rw [move.natInfo]; rfl
  | task ran => rw [Task.publicIps_run ran]; rfl

/-! ## The store and the local address of a run -/

theorem localAddr_store (t : Transport) (call : Transport.StoreCall) :
    (t.store call).localAddr = t.localAddr := by
  have hupsert (t : Transport) (env : Env) (peer : PeerInfo) :
      (t.upsertPeerInfo env peer).localAddr = t.localAddr := by
    simp only [Transport.upsertPeerInfo]
    split <;> rfl
  cases call with
  | upsertPeerInfo env peer => exact hupsert t env peer
  | confirmPeerRoute env peer key metric => exact hupsert _ env _

/-- A well-formed store of a node with this local address. -/
structure StoredAt (addr : SocketAddr) (l : ProtocolLayer) : Prop where
  wellFormed : l.transport.WellFormed
  localAddr : l.transport.localAddr = addr

theorem StoredAt.same {addr : SocketAddr} {l l' : ProtocolLayer} (h : StoredAt addr l)
    (hsame : SameStores l l') : StoredAt addr l' where
  wellFormed := by
    have hpeers := hsame.transport.peers
    constructor
    · rw [hpeers, hsame.transport.peerId]
      exact h.wellFormed.noSelf
    · intro p info hinfo
      rw [hpeers] at hinfo
      exact h.wellFormed.keyed p info hinfo
    · intro p info hinfo
      rw [hpeers] at hinfo
      exact h.wellFormed.specified p info hinfo
  localAddr := hsame.transport.localAddr.trans h.localAddr

theorem StoredAt.apply {addr : SocketAddr} {l : ProtocolLayer} (h : StoredAt addr l) (env : Env)
    (w : Write) : StoredAt addr (w.apply env l) := by
  have hstore (call : Transport.StoreCall) :
      StoredAt addr { l with transport := l.transport.store call } :=
    ⟨h.wellFormed.store call, (localAddr_store l.transport call).trans h.localAddr⟩
  cases w with
  | upsert peer => exact hstore (.upsertPeerInfo env peer)
  | confirm peer key metric => exact hstore (.confirmPeerRoute env peer key metric)
  | candidate p key => exact ⟨h.wellFormed, h.localAddr⟩
  | promote p => exact ⟨h.wellFormed, h.localAddr⟩

theorem StoredAt.step {addr : SocketAddr} (h : StoredAt addr n.layer)
    (hstep : step c n e = some n') : StoredAt addr n'.layer :=
  (writes_step hstep).invariant (fun _ _ hsame hm => hm.same hsame)
    (fun _ env w _ hm => hm.apply env w) h

theorem storedAt_node (s : Startup) : StoredAt s.localAddr s.node.layer where
  wellFormed := Transport.wellFormed_bind _ _ _ _ _
  localAddr := rfl

theorem storedAt_run {s : Startup} {es : List Event}
    (hrun : Transition.run (Node.step c) s.node es = some n) : StoredAt s.localAddr n.layer :=
  Transition.run_invariant (I := fun n => StoredAt s.localAddr n.layer)
    (fun _ _ _ hstep h => h.step hstep) hrun (storedAt_node s)

/-! ## What a run advertises -/

/-- A node without an address of its own is not told `0.0.0.0` as its first public
address. -/
def ReportsSpecified (c : Codec) (n : Node) (e : Event) : Prop :=
  n.layer.transport.localAddr.ip.isUnspecified = true → n.layer.natInfo.publicIps = [] →
    ∀ observation ∈ n.reported c e, observation.observedAddr.ip ≠ .v4 .unspecified

instance (c : Codec) (n : Node) (e : Event) : Decidable (ReportsSpecified c n e) :=
  inferInstanceAs (Decidable (_ → _ → ∀ _ ∈ _, _))

/-- The first public address is the first one that was told. -/
theorem head?_told (info : NatInfo) (observation : Option NatObservation) :
    (told info observation).publicIps.head? = some Ipv4Addr.unspecified ↔
      info.publicIps.head? = some Ipv4Addr.unspecified ∨
        info.publicIps = [] ∧ ∃ o, observation = some o ∧ o.observedAddr.ip = .v4 .unspecified := by
  cases observation with
  | none => simp [told]
  | some o =>
      simp only [Option.some.injEq, exists_eq_left']
      cases haddr : o.observedAddr with
      | v4 ip port =>
          have hips : (told info (some o)).publicIps = pushNew info.publicIps ip := by
            simp only [told, Option.elim_some, applyObservationToNatInfo, haddr]
            cases o.observedProtocol <;> rfl
          rw [hips]
          cases info.publicIps with
          | nil => simp [pushNew, SocketAddr.ip]
          | cons first rest =>
              simp only [pushNew]
              split <;> simp
      | v6 ip port flow scope =>
          have hips : (told info (some o)).publicIps = info.publicIps := by
            simp only [told, Option.elim_some, applyObservationToNatInfo, haddr]
            cases o.observedProtocol <;> rfl
          simp [hips, SocketAddr.ip]

/-- A step keeps the node's own address in order exactly if its report is. -/
theorem selfSpecified_step {addr : SocketAddr} (hstored : StoredAt addr n.layer)
    (hstep : step c n e = some n') (h : n.layer.SelfSpecified) :
    n'.layer.SelfSpecified ↔ ReportsSpecified c n e := by
  have haddr : n'.layer.transport.localAddr = n.layer.transport.localAddr :=
    (hstored.step hstep).localAddr.trans hstored.localAddr.symm
  simp only [SelfSpecified, haddr, publicIps_step hstep, ne_eq, head?_told]
  constructor
  · intro h' hwildcard hnil observation hreported hip
    exact h' hwildcard (Or.inr ⟨hnil, observation, hreported, hip⟩)
  · intro hreports hwildcard hhead
    rcases hhead with hfirst | ⟨hnil, observation, hreported, hip⟩
    · exact h hwildcard hfirst
    · exact hreports hwildcard hnil observation hreported hip

/-- In every state of a run no HelloReply and no IDRouteReply of the node has an
unspecified address in it, exactly if the node starts with an address in order and
is never told `0.0.0.0` as the first public address it has to advertise. -/
theorem advertised_specified_iff (c : Codec) (s : Startup) {es : List Event} {n : Node}
    (hrun : Transition.run (step c) s.node es = some n) :
    (∀ pre m, pre <+: es → Transition.run (step c) s.node pre = some m →
        m.layer.AdvertisesSpecified) ↔
      s.layer.SelfSpecified ∧ Transition.Along (step c) (ReportsSpecified c) s.node es := by
  have hiff {pre : List Event} {m : Node} (hm : Transition.run (step c) s.node pre = some m) :
      m.layer.AdvertisesSpecified ↔ m.layer.SelfSpecified :=
    advertisesSpecified_iff (storedAt_run hm).wellFormed
  have hstart (hs : s.layer.SelfSpecified) :
      (∀ pre m, pre <+: es → Transition.run (step c) s.node pre = some m →
        m.layer.SelfSpecified) ↔ Transition.Along (step c) (ReportsSpecified c) s.node es :=
    Transition.invariant_iff_along (I := fun m => m.layer.SelfSpecified) hrun hs
      fun _ _ _ _ hm hstep h => selfSpecified_step (storedAt_run hm) hstep h
  constructor
  · intro h
    have hs : s.layer.SelfSpecified :=
      (hiff (Transition.run_nil _)).mp (h [] s.node List.nil_prefix rfl)
    exact ⟨hs, (hstart hs).mp fun pre m hpre hm => (hiff hm).mp (h pre m hpre hm)⟩
  · intro h pre m hpre hm
    exact (hiff hm).mpr ((hstart h.1).mpr h.2 pre m hpre hm)

/-- The node `a` that is bound to the wildcard address. -/
def wildcardNode : Startup := { Startup.nodeA with localAddr := .v4 ⟨0, 0, 0, 0⟩ 5000 }

/-- The protobuf bytes of a hello in which `b` says that this node is seen as
`0.0.0.0:5`. -/
def unspecifiedBytes : List UInt8 :=
  [10, 3, 10, 1, 98, 26, 16, 18, 9, 48, 46, 48, 46, 48, 46, 48, 58, 53, 26, 1, 98, 32, 1]

/-- A codec that knows the two hellos of `b`. -/
def reportingCodec : Codec :=
  { Codec.empty with
    hello := .ofTable
      [(⟨some ⟨"b", [], "", 0, false, none⟩, [], some ⟨0, "0.0.0.0:5", "b", 1⟩⟩, unspecifiedBytes),
        (⟨some ⟨"b", [], "", 0, false, none⟩, [], some ⟨0, "1.2.3.4:5", "b", 1⟩⟩, newsBytes)]
    socketAddr := .ofTable [(.v4 ⟨0, 0, 0, 0⟩ 5, "0.0.0.0:5"), (.v4 ⟨1, 2, 3, 4⟩ 5, "1.2.3.4:5")] }

/-- The HelloReply of `b` to `a` with a hello of this length. -/
def reportingReply (bytes : List UInt8) : List UInt8 :=
  [142, 3, 0, 3, 3, 0, 0, 0, 38, 0, 1, 0, 1, 98, 97] ++ bytes

/-- `b` says `1.2.3.4` first and `0.0.0.0` afterwards. -/
def reportingRun : List Event :=
  [.packet (Env.atMillis 1) (reportingReply newsBytes) newsKey, .helloSent (Env.atMillis 1),
    .packet (Env.atMillis 2) (reportingReply unspecifiedBytes) newsKey]

/-- What is told after the first public address does not matter. -/
theorem advertised_specified_told :
    ∃ n, Transition.run (step reportingCodec) wildcardNode.node reportingRun = some n ∧
      n.layer.natInfo.publicIps = [⟨1, 2, 3, 4⟩, ⟨0, 0, 0, 0⟩] ∧ n.layer.AdvertisesSpecified := by
  obtain ⟨n, hn, hips⟩ :
      ∃ n, Transition.run (step reportingCodec) wildcardNode.node reportingRun = some n ∧
        n.layer.natInfo.publicIps = [⟨1, 2, 3, 4⟩, ⟨0, 0, 0, 0⟩] := by
    decide +kernel
  have hreports : Transition.Along (step reportingCodec) (ReportsSpecified reportingCodec)
      wildcardNode.node reportingRun := by
    decide +kernel
  refine ⟨n, hn, hips, ?_⟩
  exact (advertised_specified_iff reportingCodec wildcardNode hn).mpr ⟨by decide, hreports⟩
    reportingRun n (List.prefix_refl _) hn

/-- One HelloReply makes the node advertise `0.0.0.0`. -/
theorem unspecified_advertised :
    ¬ ∀ (c : Codec) (s : Startup) (es : List Event) (n : Node),
      Transition.run (step c) s.node es = some n → n.layer.AdvertisesSpecified := by
  intro h
  obtain ⟨n, hn, hself⟩ :
      ∃ n, Transition.run (step reportingCodec) wildcardNode.node
          [.packet (Env.atMillis 1) (reportingReply unspecifiedBytes) newsKey] = some n ∧
        ¬ n.layer.SelfSpecified := by
    decide +kernel
  have hspecified := (h reportingCodec wildcardNode _ n hn (Env.atMillis 1) ⟨"b"⟩ none).1
  exact absurd (specified_selfPeerInfo_iff.mp hspecified) hself

end Node

end RustP2p
