import RustP2p.Quic.Handler

/-!
# What handling a packet can do

`Confirmed c l packet key p m` says that handling may add the route to `p` with
metric `m` under the key the packet arrived on.  There is one constructor per
way a route is confirmed, with the guards of that branch.  `Caused` lists the
writes to all stores, these confirmations among them.
`writes_handleTransportPacket` says that handling does nothing else to the stores,
and every result about routes and peers in runs is derived from it.

`Handled` lists the ways a received byte string can be handled, before the
branch of its type is looked at.  `helloItem` is what handling puts into the
`hello` channel, and `effects_forwardPacket` is what it relays.
-/

namespace RustP2p

namespace ProtocolLayer

/-! ## The routes a packet may add -/

/-- The routes a packet may add under the key it arrived on. -/
inductive Confirmed (c : Codec) (l : ProtocolLayer) (packet : Packet) (key : RouteKey) :
    PeerId → UInt8 → Prop where
  /-- A direct HelloRequest confirms its sender. -/
  | helloRequest (type : packet.protocol = .ok .helloRequest) (direct : packet.metric = 0) :
      Confirmed c l packet key packet.src 0
  /-- A direct HelloReply on a pending key confirms the peer it names. -/
  | helloReply {hello : HelloPayload} (type : packet.protocol = .ok .helloReply)
      (payload : decodeHelloPayload c packet.payload = .ok hello) (direct : packet.metric = 0)
      (pending : (l.pendingHelloRoutes.get key).isSome) :
      Confirmed c l packet key hello.peer.peerId 0
  /-- A direct control packet over TCP confirms its sender. -/
  | tcp (type : packet.protocol = .ok .idRouteReply ∨ packet.protocol = .ok .echoRequest ∨
        packet.protocol = .ok .timestampRequest) (direct : packet.metric = 0)
      (tcp : key.protocol.isTcp) : Confirmed c l packet key packet.src 0
  /-- A direct PunchRequest confirms the peer its payload names. -/
  | punchRequest {punch : PunchPayload} (type : packet.protocol = .ok .punchRequest)
      (payload : decodePunchPayload c packet.payload = .ok punch) (direct : packet.metric = 0)
      (fresh : l.hasDirectRoute punch.src = false) : Confirmed c l packet key punch.src 0
  /-- So does a direct PunchReply to a pending request. -/
  | punchReply {punch : PunchPayload} (type : packet.protocol = .ok .punchReply)
      (payload : decodePunchPayload c packet.payload = .ok punch) (direct : packet.metric = 0)
      (fresh : l.hasDirectRoute punch.src = false)
      (pending : l.pendingPunch.get punch.requestId = some punch.src) :
      Confirmed c l packet key punch.src 0
  /-- A direct NatObserveReply confirms its sender. -/
  | natObserveReply (type : packet.protocol = .ok .natObserveReply) (direct : packet.metric = 0) :
      Confirmed c l packet key packet.src 0
  /-- Relayed route control confirms a relay route to its sender. -/
  | relay (type : packet.protocol = .ok .idRouteQuery ∨ packet.protocol = .ok .idRouteReply)
      (relayed : 0 < packet.metric) : Confirmed c l packet key packet.src packet.metric
  /-- The entries of an IDRouteReply are ingested. -/
  | advertised {reply : RouteReplyPayload} {p : PeerId} {m : UInt8}
      (type : packet.protocol = .ok .idRouteReply)
      (payload : decodeRouteReplyPayload c packet.payload = .ok reply)
      (entry : Advertised l.peerId reply.peers p m) : Confirmed c l packet key p m

/-! ## The writes a packet may cause -/

/-- The writes of the common part. -/
inductive Arrived (packet : Packet) (key : RouteKey) : Write → Prop where
  /-- Every packet tells of its sender, without a claim that it is direct. -/
  | heard {peer : PeerInfo} (sender : peer.peerId = packet.src) (indirect : peer.isDirect = false) :
      Arrived packet key (.upsert peer)
  /-- A packet that came directly makes its sender a candidate. -/
  | candidate (direct : packet.metric = 0) : Arrived packet key (.candidate packet.src key)

/-- The writes of the branch of the packet's type. -/
inductive Written (c : Codec) (l : ProtocolLayer) (packet : Packet) (key : RouteKey) :
    Write → Prop where
  /-- A HelloReply that confirms nothing tells of the peer it names, in the words of
  that peer. -/
  | described {hello : HelloPayload} (type : packet.protocol = .ok .helloReply)
      (payload : decodeHelloPayload c packet.payload = .ok hello)
      (unconfirmed : ¬ (packet.metric = 0 ∧ (l.pendingHelloRoutes.get key).isSome)) :
      Written c l packet key (.upsert hello.peer)
  /-- A direct PunchRequest makes the peer its payload names a candidate. -/
  | punched {punch : PunchPayload} (type : packet.protocol = .ok .punchRequest)
      (payload : decodePunchPayload c packet.payload = .ok punch) (direct : packet.metric = 0) :
      Written c l packet key (.candidate punch.src key)
  | confirmed {peer : PeerInfo} {m : UInt8} (confirmed : Confirmed c l packet key peer.peerId m) :
      Written c l packet key (.confirm peer key m)
  | promoted {p : PeerId} : Written c l packet key (.promote p)

/-- The writes a received byte string may cause. -/
inductive Caused (c : Codec) (l : ProtocolLayer) (data : List UInt8) (key : RouteKey) (w : Write) :
    Prop where
  | arrived {packet : Packet} (screened : l.screen data = .ok (some packet))
      (arrived : Arrived packet key w)
  | written {packet : Packet} (screened : l.screen data = .ok (some packet))
      (isLocal : l.isLocal packet = true) (written : Written c l packet key w)

/-- A route relation restricted to one key. -/
def At (key : RouteKey) (P : PeerId → UInt8 → Prop) : PeerId → RouteKey → UInt8 → Prop :=
  fun p k m => k = key ∧ P p m

/-! ## The common part -/

section Arrive

variable (l : ProtocolLayer) (env : Env) (packet : Packet) (key : RouteKey)

@[simp] theorem arrive_peer : (l.arrive env packet key).1.peerId = packet.src := rfl

@[simp] theorem arrive_pendingHelloRoutes :
    (l.arrive env packet key).2.pendingHelloRoutes = l.pendingHelloRoutes := by
  simp only [arrive]
  split <;> rfl

@[simp] theorem arrive_pendingPunch :
    (l.arrive env packet key).2.pendingPunch = l.pendingPunch := by
  simp only [arrive]
  split <;> rfl

@[simp] theorem arrive_natInfo : (l.arrive env packet key).2.natInfo = l.natInfo := by
  simp only [arrive]
  split <;> rfl

@[simp] theorem arrive_natObservers :
    (l.arrive env packet key).2.natObservers = l.natObservers := by
  simp only [arrive]
  split <;> rfl

/-- A packet that came directly leaves its key as the candidate of its sender. -/
theorem arrive_candidate (direct : packet.metric = 0) :
    (l.arrive env packet key).2.routeCandidates.get packet.src = some key := by
  simp only [arrive]
  simp only [direct, if_true]
  exact DashMap.get_insert_self _ _ _

theorem writes_arrive : Writes (Arrived packet key) l (l.arrive env packet key).2 := by
  have hsender : Arrived packet key (.upsert (l.arrive env packet key).1) := .heard rfl rfl
  have hheard := Writes.write env
    (.of_same (same_transport (l.transport.sameStores_updateRouteReadTime env packet.src key)))
    hsender
  simp only [arrive]
  split
  next direct => exact .write env hheard (.candidate direct)
  next => exact hheard

theorem sameRoutes_arrive : l.transport.SameRoutes (l.arrive env packet key).2.transport := by
  refine (l.transport.sameStores_updateRouteReadTime env packet.src key).routes.trans ?_
  simp only [arrive]
  split <;> exact Transport.sameRoutes_upsertPeerInfo _ env _

theorem quiet_arrive : Quiet l (l.arrive env packet key).2 := by
  refine Quiet.of_sameRoutes ?_ ?_ (sameRoutes_arrive l env packet key) <;>
  · simp only [arrive]
    split <;> rfl

theorem arrive_isLocal : (l.arrive env packet key).2.isLocal packet = l.isLocal packet := by
  simp only [isLocal]
  rw [(quiet_arrive l env packet key).peerId]

theorem arrive_hasDirectRoute (p : PeerId) :
    (l.arrive env packet key).2.hasDirectRoute p = l.hasDirectRoute p := by
  rw [Bool.eq_iff_iff, hasDirectRoute_iff, hasDirectRoute_iff]
  simp only [(quiet_arrive l env packet key).direct_iff id]

variable {l env packet key}

/-- The common part changes nothing a confirmation depends on. -/
theorem Confirmed.of_arrive {c : Codec} {p : PeerId} {m : UInt8}
    (h : Confirmed c (l.arrive env packet key).2 packet key p m) :
    Confirmed c l packet key p m := by
  cases h with
  | helloRequest type direct => exact .helloRequest type direct
  | helloReply type payload direct pending =>
      exact .helloReply type payload direct (by simpa using pending)
  | tcp type direct tcp => exact .tcp type direct tcp
  | punchRequest type payload direct fresh =>
      exact .punchRequest type payload direct (by rwa [arrive_hasDirectRoute] at fresh)
  | punchReply type payload direct fresh pending =>
      exact .punchReply type payload direct (by rwa [arrive_hasDirectRoute] at fresh)
        (by simpa using pending)
  | natObserveReply type direct => exact .natObserveReply type direct
  | relay type relayed => exact .relay type relayed
  | advertised type payload entry =>
      exact .advertised type payload (by rwa [(quiet_arrive l env packet key).peerId] at entry)

theorem Written.of_arrive {c : Codec} {w : Write}
    (h : Written c (l.arrive env packet key).2 packet key w) : Written c l packet key w := by
  cases h with
  | described type payload unconfirmed =>
      exact .described type payload (by simpa using unconfirmed)
  | punched type payload direct => exact .punched type payload direct
  | confirmed confirmed => exact .confirmed confirmed.of_arrive
  | promoted => exact .promoted

end Arrive

/-! ## Writes, branch by branch -/

section Helpers

variable {W : Write → Prop} (l : ProtocolLayer) (env : Env) (key : RouteKey) {metric : UInt8}

theorem same_learnHello (hello : HelloPayload) (metric : UInt8) :
    SameStores l (l.learnHello hello metric) := by
  refine (same_learnPeerNat l hello.peer).trans ?_
  simp only [learnHello]
  split
  next =>
    split
    next => exact same_applyObservation _ _
    next => exact SameStores.refl _
  next => exact SameStores.refl _

@[simp] theorem learnHello_pendingHelloRoutes (hello : HelloPayload) (metric : UInt8) :
    (l.learnHello hello metric).pendingHelloRoutes = l.pendingHelloRoutes := by
  simp only [learnHello, learnPeerNat]
  split <;> split <;> (try split) <;> rfl

theorem writes_confirmHello {hello : HelloPayload}
    (hconfirm : metric = 0 → (l.pendingHelloRoutes.get key).isSome → W (.confirm hello.peer key 0))
    (hupsert : ¬ (metric = 0 ∧ (l.pendingHelloRoutes.get key).isSome) → W (.upsert hello.peer))
    (hpromote : W (.promote hello.peer.peerId)) :
    Writes W l (l.confirmHello env hello key metric) := by
  unfold confirmHello
  refine Writes.trans (.of_same (same_removePendingHello l key)) ?_
  simp only
  split
  next h => exact writes_confirmDirectAndPromote _ env hello.peer key (hconfirm h.1 h.2) hpromote
  next h => exact .write env .refl (hupsert h)

theorem writes_confirmPunchRequest {src : PeerId}
    (hconfirm : ∀ peer, peer.peerId = src → metric = 0 → l.hasDirectRoute src = false →
      W (.confirm peer key 0))
    (hcandidate : metric = 0 → W (.candidate src key)) (hpromote : W (.promote src)) :
    Writes W l (l.confirmPunchRequest env src key metric) := by
  simp only [confirmPunchRequest]
  split
  next direct =>
    refine .write env (w := .candidate src key) ?_ (hcandidate direct)
    split
    next => exact .refl
    next fresh =>
      exact writes_confirmDirectAndPromote l env _ key
        (hconfirm _ rfl direct (Bool.eq_false_iff.mpr fresh)) hpromote
  next => exact .refl

theorem writes_confirmPunchReply {punch : PunchPayload}
    (hconfirm : ∀ peer, peer.peerId = punch.src → metric = 0 →
      l.hasDirectRoute punch.src = false →
      l.pendingPunch.get punch.requestId = some punch.src → W (.confirm peer key 0))
    (hpromote : W (.promote punch.src)) :
    Writes W l (l.confirmPunchReply env punch key metric) := by
  unfold confirmPunchReply
  split
  next => exact .refl
  next peerId pending =>
    refine Writes.trans (.of_same (same_removePendingPunch l punch.requestId)) ?_
    simp only
    split
    next guard =>
      obtain ⟨rfl, direct, fresh⟩ := guard
      exact writes_confirmDirectAndPromote _ env _ key
        (hconfirm _ rfl direct (Bool.eq_false_iff.mpr fresh) pending) hpromote
    next => exact .refl

end Helpers

theorem adds_confirmPunchRequest (l : ProtocolLayer) (env : Env) (src : PeerId) (key : RouteKey)
    (metric : UInt8) :
    Adds (At key fun p m => p = src ∧ m = 0 ∧ metric = 0 ∧ l.hasDirectRoute src = false) l
      (l.confirmPunchRequest env src key metric) := by
  refine Writes.adds (writes_confirmPunchRequest l env key ?_ (fun _ => trivial) trivial)
  intro peer hpeer direct fresh
  exact ⟨rfl, hpeer, rfl, direct, fresh⟩

theorem adds_confirmPunchReply (l : ProtocolLayer) (env : Env) (punch : PunchPayload)
    (key : RouteKey) (metric : UInt8) :
    Adds (At key fun p m => p = punch.src ∧ m = 0 ∧ metric = 0 ∧
      l.hasDirectRoute punch.src = false ∧ l.pendingPunch.get punch.requestId = some punch.src) l
      (l.confirmPunchReply env punch key metric) := by
  refine Writes.adds (writes_confirmPunchReply l env key ?_ trivial)
  intro peer hpeer direct fresh pending
  exact ⟨rfl, hpeer, rfl, direct, fresh, pending⟩

section Branches

variable {c : Codec} {env : Env} {l m : ProtocolLayer} {packet : Packet} {key : RouteKey}
  {peer : PeerInfo}

/-- A confirmation of the sender is written where `Confirmed` allows it. -/
theorem writes_sender (hpeer : peer.peerId = packet.src)
    (h : Confirmed c l packet key packet.src 0) :
    Writes (Written c l packet key) m (m.confirmDirectAndPromote env peer key) :=
  writes_confirmDirectAndPromote m env peer key (.confirmed (hpeer ▸ h)) .promoted

theorem writes_onHelloRequest (type : packet.protocol = .ok .helloRequest)
    (hpeer : peer.peerId = packet.src) :
    Writes (Written c l packet key) l (onHelloRequest c env l packet key peer).state := by
  simp only [onHelloRequest]
  rw [sendProtocolToRoute_state]
  split
  next direct => exact writes_sender hpeer (.helloRequest type direct)
  next relayed =>
    refine writes_confirmTcpRoute l env peer key ?_ .promoted
    intro _ direct
    exact absurd direct relayed

theorem writes_onHelloReply (type : packet.protocol = .ok .helloReply) :
    Writes (Written c l packet key) l (onHelloReply c env l packet key).layer := by
  simp only [onHelloReply]
  split
  next => exact .refl
  next hello payload =>
    refine Writes.trans (.of_same (same_learnHello l hello packet.metric))
      (writes_confirmHello _ env key ?_ ?_ .promoted)
    · intro direct pending
      exact .confirmed (.helloReply type payload direct (by simpa using pending))
    · intro unconfirmed
      exact .described type payload (by simpa using unconfirmed)

theorem writes_onIdRouteQuery (type : packet.protocol = .ok .idRouteQuery)
    (hpeer : peer.peerId = packet.src) :
    Writes (Written c l packet key) l (onIdRouteQuery c env l packet key peer).state := by
  simp only [onIdRouteQuery]
  rw [sendProtocolToRoute_state]
  refine writes_confirmRelayRouteFromControl l env peer key ?_
  intro relayed
  exact .confirmed (hpeer ▸ .relay (Or.inl type) relayed)

theorem writes_onIdRouteReply (type : packet.protocol = .ok .idRouteReply)
    (hpeer : peer.peerId = packet.src) :
    Writes (Written c l packet key) l (onIdRouteReply c env l packet key peer).state := by
  simp only [onIdRouteReply]
  split
  next => exact .refl
  next reply payload =>
    have htcp : Writes (Written c l packet key) l
        (l.confirmTcpRoute env peer key packet.metric) := by
      refine writes_confirmTcpRoute l env peer key ?_ .promoted
      intro tcp direct
      exact .confirmed (hpeer ▸ .tcp (Or.inl type) direct tcp)
    have hrelay : Writes (Written c l packet key) l
        ((l.confirmTcpRoute env peer key packet.metric).confirmRelayRouteFromControl env peer key
          packet.metric) := by
      refine htcp.trans (writes_confirmRelayRouteFromControl _ env peer key ?_)
      intro relayed
      exact .confirmed (hpeer ▸ .relay (Or.inr type) relayed)
    refine hrelay.trans (writes_ingestRouteEntries _ env reply.peers key ?_)
    intro item hitem hingested
    rw [hrelay.peerId] at hingested
    exact .confirmed (.advertised type payload
      ⟨item, hitem, rfl, hingested.1, hingested.2, rfl⟩)

theorem writes_onEcho {reply : ProtocolType} (type : packet.protocol = .ok .echoRequest ∨
    packet.protocol = .ok .timestampRequest) (hpeer : peer.peerId = packet.src) :
    Writes (Written c l packet key) l (onEcho reply env l packet key peer).state := by
  simp only [onEcho]
  rw [sendProtocolToRoute_state]
  refine writes_confirmTcpRoute l env peer key ?_ .promoted
  intro tcp direct
  exact .confirmed (hpeer ▸ .tcp (Or.inr type) direct tcp)

/-! ## Punching -/

theorem handlePunchPayload_ok {payload : List UInt8} {punch : PunchPayload} {l' : ProtocolLayer}
    (h : handlePunchPayload c l payload = (.ok punch, l')) :
    decodePunchPayload c payload = .ok punch ∧ l' = l.insertPeerNat punch.src punch.natInfo := by
  simp only [handlePunchPayload] at h
  split at h
  next => cases h
  next hdecode =>
    cases h
    exact ⟨hdecode, rfl⟩

theorem handlePunchPayload_error {payload : List UInt8} {e : IoError} {l' : ProtocolLayer}
    (h : handlePunchPayload c l payload = (.error e, l')) : l' = l := by
  simp only [handlePunchPayload] at h
  split at h
  next => cases h; rfl
  next => cases h

theorem same_handlePunchConsultRequest :
    SameStores l (handlePunchConsultRequest c env l packet key).state := by
  simp only [handlePunchConsultRequest]
  split
  next h =>
    rw [handlePunchPayload_error h]
    exact SameStores.refl l
  next payload l' h =>
    obtain ⟨-, rfl⟩ := handlePunchPayload_ok h
    split
    next => exact same_insertPeerNat l _ _
    next =>
      rw [sendProtocolToRoute_state]
      exact same_insertPeerNat l _ _

theorem same_onPunchConsultReply : SameStores l (onPunchConsultReply c l packet).state := by
  simp only [onPunchConsultReply]
  split
  next h =>
    rw [handlePunchPayload_error h]
    exact SameStores.refl l
  next payload l' h =>
    obtain ⟨-, rfl⟩ := handlePunchPayload_ok h
    exact same_insertPeerNat l _ _

theorem writes_onPunchRequest (type : packet.protocol = .ok .punchRequest) :
    Writes (Written c l packet key) l (onPunchRequest c env l packet key).state := by
  unfold onPunchRequest
  split
  next h =>
    rw [handlePunchPayload_error h]
    exact .refl
  next punch l' h =>
    obtain ⟨payload, rfl⟩ := handlePunchPayload_ok h
    have hconfirmed : Writes (Written c l packet key) (l.insertPeerNat punch.src punch.natInfo)
        ((l.insertPeerNat punch.src punch.natInfo).confirmPunchRequest env punch.src key
          packet.metric) := by
      refine writes_confirmPunchRequest _ env key ?_ (.punched type payload) .promoted
      intro peer hpeer direct fresh
      exact .confirmed (hpeer ▸ .punchRequest type payload direct fresh)
    refine Writes.trans (.of_same (same_insertPeerNat l punch.src punch.natInfo))
      (.same hconfirmed ?_)
    simp only
    split
    next =>
      rw [Outcome.ignoring_state, sendProtocolToRoute_state]
      exact same_tryExecutePunch c _ env punch.src punch.natInfo key packet.metric
    next => exact SameStores.refl _

theorem writes_onPunchReply (type : packet.protocol = .ok .punchReply) :
    Writes (Written c l packet key) l (onPunchReply c env l packet key).state := by
  unfold onPunchReply
  split
  next h =>
    rw [handlePunchPayload_error h]
    exact .refl
  next punch l' h =>
    obtain ⟨payload, rfl⟩ := handlePunchPayload_ok h
    have hconfirmed : Writes (Written c l packet key) (l.insertPeerNat punch.src punch.natInfo)
        ((l.insertPeerNat punch.src punch.natInfo).confirmPunchReply env punch key
          packet.metric) := by
      refine writes_confirmPunchReply _ env key ?_ .promoted
      intro peer hpeer direct fresh pending
      exact .confirmed (hpeer ▸ .punchReply type payload direct fresh pending)
    refine Writes.trans (.of_same (same_insertPeerNat l punch.src punch.natInfo))
      (.same hconfirmed ?_)
    simp only
    split
    next =>
      rw [Outcome.ignoring_state, Outcome.ok_state]
      exact same_tryExecutePunch c _ env punch.src punch.natInfo key packet.metric
    next => exact SameStores.refl _

/-! ## Measurement and observation -/

theorem same_onEchoReply : SameStores l (onEchoReply env l packet key) := by
  unfold onEchoReply
  split
  next =>
    simp only
    split
    next => exact same_transport (Transport.sameStores_updateRouteRtt _ _ _ _)
    next => exact SameStores.refl l
  next => exact SameStores.refl l

theorem same_onNatObserveRequest :
    SameStores l (onNatObserveRequest c env l packet key).state := by
  simp only [onNatObserveRequest]
  split
  next =>
    rw [sendProtocolToRoute_state]
    exact SameStores.refl l
  next => exact SameStores.refl l

theorem writes_onNatObserveReply (type : packet.protocol = .ok .natObserveReply)
    (hpeer : peer.peerId = packet.src) :
    Writes (Written c l packet key) l (onNatObserveReply c env l packet key peer).state := by
  have hsame := same_isConfirmedOrPendingNatObserve l packet.src key packet.metric
  simp only [onNatObserveReply]
  split
  next heq =>
    rw [heq] at hsame
    exact .of_same hsame
  next l' heq =>
    rw [heq] at hsame
    refine Writes.trans (.of_same hsame) ?_
    split
    next => exact .refl
    next reply _ =>
      split
      next =>
        refine Writes.trans (.of_same (same_applyObservation l' reply.observation)) ?_
        simp only [Outcome.ok_state]
        split
        next direct => exact writes_sender hpeer (.natObserveReply type direct)
        next => exact .refl
      next => exact .refl

/-- What a packet for this node writes, whatever its type. -/
theorem writes_dispatch {protocol : ProtocolType} (type : packet.protocol = .ok protocol)
    (hpeer : peer.peerId = packet.src) :
    Writes (Written c l packet key) l (dispatch c env l packet key peer protocol).layer := by
  cases protocol with
  | helloRequest => exact writes_onHelloRequest type hpeer
  | helloReply => exact writes_onHelloReply type
  | idRouteQuery => exact writes_onIdRouteQuery type hpeer
  | idRouteReply => exact writes_onIdRouteReply type hpeer
  | quicRelay => exact .refl
  | punchConsultRequest => exact .of_same same_handlePunchConsultRequest
  | punchConsultReply => exact .of_same same_onPunchConsultReply
  | punchRequest => exact writes_onPunchRequest type
  | punchReply => exact writes_onPunchReply type
  | echoRequest => exact writes_onEcho (Or.inl type) hpeer
  | echoReply => exact .of_same same_onEchoReply
  | timestampRequest => exact writes_onEcho (Or.inr type) hpeer
  | natObserveRequest => exact .of_same same_onNatObserveRequest
  | natObserveReply => exact writes_onNatObserveReply type hpeer
  | messageData => exact .refl
  | rangeBroadcast => exact .refl
  | timestampReply => exact .refl

/-- A confirmation that is written is one that `Confirmed` allows. -/
theorem Written.meets {w : Write} (h : Written c l packet key w) :
    w.Meets (At key (Confirmed c l packet key)) := by
  cases h with
  | confirmed confirmed => exact ⟨rfl, confirmed⟩
  | _ => trivial

/-- What a packet for this node adds to the routes, whatever its type. -/
theorem adds_dispatch {protocol : ProtocolType} (type : packet.protocol = .ok protocol)
    (hpeer : peer.peerId = packet.src) :
    Adds (At key (Confirmed c l packet key)) l
      (dispatch c env l packet key peer protocol).layer :=
  ((writes_dispatch type hpeer).mono fun _ => Written.meets).adds

end Branches

/-! ## The whole handler -/

section Handler

variable {c : Codec} {env : Env} {l : ProtocolLayer} {data : List UInt8} {packet : Packet}
  {key : RouteKey}

/-- The packets that get past the first checks. -/
theorem screen_eq_some : l.screen data = .ok (some packet) ↔
    (∃ first rest n, data = first :: rest ∧ classifyPacket first = .rustP2p n) ∧
      Packet.parse data = .ok packet ∧ packet.src ≠ l.peerId ∧
      packet.src.isUnspecified = false := by
  simp only [screen]
  cases data with
  | nil => simp
  | cons first rest =>
      cases hclass : classifyPacket first with
      | rustP2p n =>
          cases hparse : Packet.parse (first :: rest) with
          | error e => simp [hclass]
          | ok parsed =>
              simp only [hclass, Except.ok.injEq]
              split
              next h =>
                simp only [Except.ok.injEq, reduceCtorEq, false_iff]
                intro h
                obtain ⟨-, rfl, hself, hspec⟩ := h
                rcases h with h | h
                · exact hself h
                · rw [h] at hspec
                  cases hspec
              next h =>
                rw [not_or, Bool.not_eq_true] at h
                simp only [Except.ok.injEq, Option.some.injEq]
                constructor
                · rintro rfl
                  exact ⟨⟨first, rest, n, rfl, hclass⟩, rfl, h⟩
                · intro h
                  obtain ⟨-, rfl, -⟩ := h
                  rfl
      | stun => simp [hclass]
      | quic => simp [hclass]
      | punch => simp [hclass]
      | other b => simp [hclass]

/-- What is screened is the packet that was parsed. -/
theorem eq_of_screen {packet' : Packet} (hparse : Packet.parse data = .ok packet)
    (hscreen : l.screen data = .ok (some packet')) : packet = packet' := by
  obtain ⟨-, hparse', -⟩ := screen_eq_some.mp hscreen
  exact Except.ok.inj (hparse.symm.trans hparse')

theorem handleTransportPacket_of_screen (hscreen : l.screen data = .ok (some packet)) :
    handleTransportPacket c env l data key = handlePacket c env l packet key := by
  simp only [handleTransportPacket]
  rw [hscreen]

/-- A packet for another node is only forwarded. -/
theorem handlePacket_forward (hlocal : l.isLocal packet = false) :
    handlePacket c env l packet key =
      .done ((l.arrive env packet key).2.forwardPacket env packet) := by
  simp only [handlePacket]
  simp only [arrive_isLocal, hlocal, Bool.false_eq_true, if_false]

/-- A packet for this node goes to the branch of its type. -/
theorem handlePacket_local {protocol : ProtocolType} (hlocal : l.isLocal packet = true)
    (type : packet.protocol = .ok protocol) :
    handlePacket c env l packet key = dispatch c env (l.arrive env packet key).2 packet key
      (l.arrive env packet key).1 protocol := by
  simp only [handlePacket]
  simp only [arrive_isLocal, hlocal, if_true, type]

/-- Without a known type, handling ends after the common part. -/
theorem handlePacket_untyped {e : IoError} (hlocal : l.isLocal packet = true)
    (type : packet.protocol = .error e) :
    handlePacket c env l packet key = .done (.fail (l.arrive env packet key).2 e) := by
  simp only [handlePacket]
  simp only [arrive_isLocal, hlocal, if_true, type]

/-- How a received byte string is handled. -/
inductive Handled (c : Codec) (env : Env) (l : ProtocolLayer) (data : List UInt8)
    (key : RouteKey) : Handling → Prop where
  | dropped {outcome : Outcome ProtocolLayer}
      (unscreened : ∀ packet, l.screen data ≠ .ok (some packet)) (state : outcome.state = l)
      (effects : outcome.effects = []) : Handled c env l data key (.done outcome)
  | forwarded {packet : Packet} (screened : l.screen data = .ok (some packet))
      (remote : l.isLocal packet = false) :
      Handled c env l data key (.done ((l.arrive env packet key).2.forwardPacket env packet))
  | untyped {packet : Packet} {e : IoError} (screened : l.screen data = .ok (some packet))
      (isLocal : l.isLocal packet = true) (type : packet.protocol = .error e) :
      Handled c env l data key (.done (.fail (l.arrive env packet key).2 e))
  | dispatched {packet : Packet} {protocol : ProtocolType}
      (screened : l.screen data = .ok (some packet)) (isLocal : l.isLocal packet = true)
      (type : packet.protocol = .ok protocol) :
      Handled c env l data key (dispatch c env (l.arrive env packet key).2 packet key
        (l.arrive env packet key).1 protocol)

theorem handled_handleTransportPacket :
    Handled c env l data key (handleTransportPacket c env l data key) := by
  cases hscreen : l.screen data with
  | error e =>
      simp only [handleTransportPacket, hscreen]
      exact .dropped (by simp [hscreen]) rfl rfl
  | ok screened =>
      cases screened with
      | none =>
          simp only [handleTransportPacket, hscreen]
          exact .dropped (by simp [hscreen]) rfl rfl
      | some packet =>
          rw [handleTransportPacket_of_screen hscreen]
          cases hlocal : l.isLocal packet with
          | false =>
              rw [handlePacket_forward hlocal]
              exact .forwarded hscreen hlocal
          | true =>
              cases type : packet.protocol with
              | error e =>
                  rw [handlePacket_untyped hlocal type]
                  exact .untyped hscreen hlocal type
              | ok protocol =>
                  rw [handlePacket_local hlocal type]
                  exact .dispatched hscreen hlocal type

/-- A packet of a known type is dropped, forwarded or handled by its type. -/
theorem Handled.of_type {P : Handling → Prop} {packet : Packet} {protocol : ProtocolType}
    (hparse : Packet.parse data = .ok packet) (type : packet.protocol = .ok protocol)
    (dropped : ∀ outcome : Outcome ProtocolLayer, (∀ packet, l.screen data ≠ .ok (some packet)) →
      outcome.state = l → outcome.effects = [] → P (.done outcome))
    (forwarded : l.screen data = .ok (some packet) → l.isLocal packet = false →
      P (.done ((l.arrive env packet key).2.forwardPacket env packet)))
    (dispatched : l.screen data = .ok (some packet) → l.isLocal packet = true →
      P (dispatch c env (l.arrive env packet key).2 packet key (l.arrive env packet key).1
        protocol)) :
    P (handleTransportPacket c env l data key) := by
  have hhandled : Handled c env l data key (handleTransportPacket c env l data key) :=
    handled_handleTransportPacket
  generalize handleTransportPacket c env l data key = handling at hhandled
  cases hhandled with
  | dropped unscreened state effects => exact dropped _ unscreened state effects
  | forwarded screened remote =>
      obtain rfl := eq_of_screen hparse screened
      exact forwarded screened remote
  | untyped screened isLocal untyped =>
      obtain rfl := eq_of_screen hparse screened
      cases type.symm.trans untyped
  | dispatched screened isLocal type' =>
      obtain rfl := eq_of_screen hparse screened
      cases type.symm.trans type'
      exact dispatched screened isLocal

/-- Handling writes nothing else to the stores. -/
theorem writes_handleTransportPacket :
    Writes (Caused c l data key) l (handleTransportPacket c env l data key).layer := by
  have hhandled : Handled c env l data key (handleTransportPacket c env l data key) :=
    handled_handleTransportPacket
  generalize handleTransportPacket c env l data key = handling at hhandled
  cases hhandled with
  | dropped unscreened state effects =>
      rw [Handling.layer, state]
      exact .refl
  | @forwarded packet screened remote =>
      exact .same ((writes_arrive l env packet key).mono fun _ => .arrived screened)
        (same_forwardPacket _ env packet)
  | @untyped packet e screened isLocal type =>
      exact (writes_arrive l env packet key).mono fun _ => .arrived screened
  | @dispatched packet protocol screened isLocal type =>
      refine ((writes_arrive l env packet key).mono fun _ => .arrived screened).trans
        ((writes_dispatch type (arrive_peer l env packet key)).mono ?_)
      intro w h
      exact .written screened isLocal h.of_arrive

/-- Every route that is written was confirmed by the packet, under the key it arrived
on. -/
theorem Caused.meets {A : PeerId → RouteKey → UInt8 → Prop} {w : Write}
    (h : Caused c l data key w)
    (hconfirmed : ∀ packet p m, l.screen data = .ok (some packet) → l.isLocal packet = true →
      Confirmed c l packet key p m → A p key m) : w.Meets A := by
  cases h with
  | arrived screened arrived => cases arrived <;> trivial
  | @written packet screened isLocal written =>
      cases written with
      | confirmed confirmed => exact hconfirmed packet _ _ screened isLocal confirmed
      | _ => trivial

/-! ## What goes to the `hello` channel -/

/-- The item of a HelloReply: where it came from and whom it names. -/
def helloItem (c : Codec) (l : ProtocolLayer) (data : List UInt8) (key : RouteKey) :
    Option (SocketAddr × PeerId) :=
  match l.screen data with
  | .ok (some packet) =>
      if l.isLocal packet ∧ packet.protocol = .ok .helloReply then
        match decodeHelloPayload c packet.payload with
        | .ok hello => some (key.peerAddr, hello.peer.peerId)
        | .error _ => none
      else none
  | _ => none

/-- The packet behind an item. -/
theorem helloItem_eq_some {item : SocketAddr × PeerId} :
    helloItem c l data key = some item ↔ ∃ packet hello, l.screen data = .ok (some packet) ∧
      l.isLocal packet = true ∧ packet.protocol = .ok .helloReply ∧
      decodeHelloPayload c packet.payload = .ok hello ∧
      item = (key.peerAddr, hello.peer.peerId) := by
  simp only [helloItem]
  constructor
  · intro h
    split at h
    next packet hscreen =>
      split at h
      next htype =>
        split at h
        next hello hdecode =>
          cases h
          exact ⟨packet, hello, hscreen, htype.1, htype.2, hdecode, rfl⟩
        next => cases h
      next => cases h
    next => cases h
  · intro h
    obtain ⟨packet, hello, hscreen, hlocal, htype, hdecode, rfl⟩ := h
    simp only [hscreen, hlocal, htype, hdecode, and_self, if_true]

/-- A type other than HelloReply puts nothing into the channel. -/
theorem dispatch_item {peer : PeerInfo} {protocol : ProtocolType} (h : protocol ≠ .helloReply) :
    (dispatch c env l packet key peer protocol).item = none := by
  cases protocol <;> first | rfl | exact absurd rfl h

/-- Handling sends the item of the packet to the channel. -/
theorem handleTransportPacket_item (c : Codec) (env : Env) (l : ProtocolLayer)
    (data : List UInt8) (key : RouteKey) :
    (handleTransportPacket c env l data key).item = helloItem c l data key := by
  have hhandled : Handled c env l data key (handleTransportPacket c env l data key) :=
    handled_handleTransportPacket
  generalize handleTransportPacket c env l data key = handling at hhandled
  cases hhandled with
  | dropped unscreened state effects =>
      rw [helloItem]
      split
      next packet hscreen => exact absurd hscreen (unscreened packet)
      next => rfl
  | forwarded screened remote =>
      simp only [helloItem, screened, remote, Bool.false_eq_true, false_and, if_false]
      rfl
  | untyped screened isLocal type =>
      simp only [helloItem, screened, type, reduceCtorEq, and_false, if_false]
      rfl
  | @dispatched packet protocol screened isLocal type =>
      simp only [helloItem, screened, isLocal, type, true_and]
      by_cases hreply : protocol = .helloReply
      · subst hreply
        simp only [if_true, dispatch, onHelloReply]
        cases decodeHelloPayload c packet.payload <;> rfl
      · rw [dispatch_item hreply]
        simp only [Except.ok.injEq, hreply, if_false]

/-- When handling waits for the channel, the entries it still has to ingest are
those of the HelloReply, and they go under the key it arrived on. -/
theorem handleTransportPacket_sendHello {l' : ProtocolLayer} {item : SocketAddr × PeerId}
    {entries : List RouteEntry} {via : RouteKey}
    (h : handleTransportPacket c env l data key = .sendHello l' item entries via) :
    via = key ∧ ∃ packet hello, l.screen data = .ok (some packet) ∧ l.isLocal packet = true ∧
      packet.protocol = .ok .helloReply ∧ decodeHelloPayload c packet.payload = .ok hello ∧
      entries = hello.peers := by
  have hitem : helloItem c l data key = some item := by
    rw [← handleTransportPacket_item c env, h]
    rfl
  obtain ⟨packet, hello, hscreen, hlocal, htype, hdecode, -⟩ := helloItem_eq_some.mp hitem
  rw [handleTransportPacket_of_screen hscreen, handlePacket_local hlocal htype] at h
  simp only [dispatch, onHelloReply, hdecode] at h
  cases h
  exact ⟨rfl, packet, hello, hscreen, hlocal, htype, hdecode, rfl⟩

/-! ## What is forwarded -/

/-- Forwarding sends the packet with one less to live over a route to its
destination, or nothing. -/
theorem effects_forwardPacket {e : Effect} (h : e ∈ (l.forwardPacket env packet).effects) :
    1 < packet.ttl ∧ ∃ k m, l.HasRoute packet.dest k m ∧
      e = .toRoute k (packet.setTtl (packet.ttl - 1)).buf := by
  simp only [forwardPacket, Packet.decrementTtl] at h
  split at h
  next => exact absurd h List.not_mem_nil
  next packet' hdecrement =>
    split at hdecrement
    next => cases hdecrement
    next httl =>
      cases hdecrement
      exact ⟨UInt8.not_le.mp httl, Transport.effects_sendWire h⟩

/-- It sends at most once. -/
theorem length_effects_forwardPacket : (l.forwardPacket env packet).effects.length ≤ 1 := by
  simp only [forwardPacket]
  split
  next => exact Nat.zero_le 1
  next =>
    rw [Outcome.map_effects]
    simp only [Transport.sendWire, Transport.sendWireToRoute]
    split
    next => split <;> simp
    next => simp

end Handler

end ProtocolLayer

end RustP2p
