import RustP2p.Quic.HelloChannel

/-!
# Ids that are no peer

The empty id, the broadcast id and the id of the node itself are reserved: none of
them should be a key of the routes, the peers or the candidates.

Ids come in by four ways, and each has a filter of its own.  The source of the
header is neither the node nor empty, but may be `*`.  The peer of a HelloReply may
be anything, the node itself apart when nothing is confirmed.  The source of a
punch payload may be anything.  The peer of an advertised entry is neither the node
nor empty, but may be `*`.  `NamesPeers` asks of a packet what the filters leave
open, and while every packet meets it, the stores hold no reserved id
(`reserved_ids_not_stored`).
-/

namespace RustP2p

open ProtocolLayer

namespace ProtocolLayer

/-! ## Keys of the stores -/

/-- The ids that are no peer of the node `self`. -/
def Reserved (self p : PeerId) : Prop :=
  p.isUnspecified = true ∨ p.isBroadcast = true ∨ p = self

instance (self p : PeerId) : Decidable (Reserved self p) :=
  inferInstanceAs (Decidable (_ ∨ _ ∨ _))

/-- The id is a key of the routes, the peers or the candidates. -/
def IsKey (l : ProtocolLayer) (p : PeerId) : Prop :=
  l.transport.routes.exists_ p = true ∨ (l.transport.peers.get p).isSome = true ∨
    (l.routeCandidates.get p).isSome = true

instance (l : ProtocolLayer) (p : PeerId) : Decidable (l.IsKey p) :=
  inferInstanceAs (Decidable (_ ∨ _ ∨ _))

variable {l l' : ProtocolLayer}

theorem SameStores.isKey (h : SameStores l l') {p : PeerId} (hkey : l'.IsKey p) : l.IsKey p := by
  simp only [IsKey, h.transport.routed, h.transport.peers, h.candidates] at hkey
  exact hkey

/-- The write may make `p` a key at the node `self`. -/
def Write.Keys (self p : PeerId) : Write → Prop
  -- `upsert_peer_info` leaves the node itself out.
  | upsert peer => p = peer.peerId ∧ p ≠ self
  | confirm peer _ _ => p = peer.peerId
  | candidate q _ => p = q
  | promote _ => False

theorem isKey_upsertPeerInfo {env : Env} {peer : PeerInfo} {p : PeerId}
    (h : (l.upsertPeerInfo env peer).IsKey p) :
    l.IsKey p ∨ p = peer.peerId ∧ p ≠ l.transport.peerId := by
  by_cases hp : p = peer.peerId
  · by_cases hself : peer.peerId = l.transport.peerId
    · rw [upsertPeerInfo, Transport.upsertPeerInfo_self env hself] at h
      exact Or.inl h
    · exact Or.inr ⟨hp, hp ▸ hself⟩
  · simp only [IsKey, upsertPeerInfo, Transport.upsertPeerInfo_routes,
      Transport.get_upsertPeerInfo_of_ne env hp] at h
    exact Or.inl h

/-- Only the id a write is about becomes a key. -/
theorem isKey_apply {env : Env} {w : Write} {p : PeerId} (h : (w.apply env l).IsKey p) :
    l.IsKey p ∨ w.Keys l.transport.peerId p := by
  cases w with
  | upsert peer => exact isKey_upsertPeerInfo h
  | confirm peer key metric =>
      -- The route comes first, and then the peer is stored.
      have hupsert : (({ l with transport :=
          l.transport.confirmRoute env peer.peerId key metric } : ProtocolLayer).upsertPeerInfo env
          (l.transport.confirmedPeer peer key metric)).IsKey p := h
      rcases isKey_upsertPeerInfo hupsert with hroute | hpeer
      · simp only [IsKey, Transport.confirmRoute, RouteTable.exists_addRoute, Bool.or_eq_true,
          decide_eq_true_eq, or_assoc] at hroute
        exact hroute.symm
      · exact Or.inr (hpeer.1.trans (Transport.confirmedPeer_peerId _ _ _ _))
  | candidate q key =>
      simp only [IsKey, Write.apply, insertCandidate, DashMap.get_insert] at h
      by_cases hp : p = q
      · exact Or.inr hp
      · simp only [hp, if_false] at h
        exact Or.inl h
  | promote q =>
      simp only [IsKey, Write.apply, DashMap.get_remove] at h
      by_cases hp : p = q
      · simp only [hp, if_true, Option.isSome_none, Bool.false_eq_true, or_false] at h
        exact Or.inl (hp ▸ h.elim Or.inl fun h => Or.inr (Or.inl h))
      · simp only [hp, if_false] at h
        exact Or.inl h

/-! ## What a packet may name -/

/-- The peer of a HelloReply is no reserved id.  The node itself does no harm where
the reply confirms nothing. -/
def HelloNamesPeer (l : ProtocolLayer) (packet : Packet) (key : RouteKey) (hello : HelloPayload) :
    Prop :=
  hello.peer.peerId.isUnspecified = false ∧ hello.peer.peerId.isBroadcast = false ∧
    (hello.peer.peerId = l.peerId →
      ¬ (packet.metric = 0 ∧ (l.pendingHelloRoutes.get key).isSome = true))

instance (l : ProtocolLayer) (packet : Packet) (key : RouteKey) (hello : HelloPayload) :
    Decidable (HelloNamesPeer l packet key hello) := inferInstanceAs (Decidable (_ ∧ _ ∧ (_ → _)))

/-- No advertised entry is about the broadcast id. -/
def EntriesNamePeers (entries : List RouteEntry) : Prop :=
  ∀ item ∈ entries, item.peer.peerId.isBroadcast = false

instance (entries : List RouteEntry) : Decidable (EntriesNamePeers entries) :=
  inferInstanceAs (Decidable (∀ item ∈ entries, _))

/-- The ids that the branch of the packet's type stores are ids of peers. -/
structure PayloadNamesPeers (c : Codec) (l : ProtocolLayer) (packet : Packet) (key : RouteKey) :
    Prop where
  hello : packet.protocol = .ok .helloReply →
    OnOk (decodeHelloPayload c packet.payload) (HelloNamesPeer l packet key)
  entries : packet.protocol = .ok .idRouteReply →
    OnOk (decodeRouteReplyPayload c packet.payload) fun reply => EntriesNamePeers reply.peers
  punchRequest : packet.protocol = .ok .punchRequest → packet.metric = 0 →
    OnOk (decodePunchPayload c packet.payload) fun punch => ¬ Reserved l.peerId punch.src
  punchReply : packet.protocol = .ok .punchReply → packet.metric = 0 →
    OnOk (decodePunchPayload c packet.payload) fun punch =>
      l.pendingPunch.get punch.requestId = some punch.src → ¬ Reserved l.peerId punch.src

instance (c : Codec) (l : ProtocolLayer) (packet : Packet) (key : RouteKey) :
    Decidable (PayloadNamesPeers c l packet key) :=
  decidable_of_iff ((packet.protocol = .ok .helloReply →
      OnOk (decodeHelloPayload c packet.payload) (HelloNamesPeer l packet key)) ∧
    (packet.protocol = .ok .idRouteReply →
      OnOk (decodeRouteReplyPayload c packet.payload) fun reply => EntriesNamePeers reply.peers) ∧
    (packet.protocol = .ok .punchRequest → packet.metric = 0 →
      OnOk (decodePunchPayload c packet.payload) fun punch => ¬ Reserved l.peerId punch.src) ∧
    (packet.protocol = .ok .punchReply → packet.metric = 0 →
      OnOk (decodePunchPayload c packet.payload) fun punch =>
        l.pendingPunch.get punch.requestId = some punch.src → ¬ Reserved l.peerId punch.src))
    ⟨fun h => ⟨h.1, h.2.1, h.2.2.1, h.2.2.2⟩,
      fun h => ⟨h.hello, h.entries, h.punchRequest, h.punchReply⟩⟩

/-- The ids of a packet that handling stores are ids of peers. -/
structure NamesPeers (c : Codec) (l : ProtocolLayer) (packet : Packet) (key : RouteKey) : Prop where
  src : packet.src.isBroadcast = false
  payload : l.isLocal packet = true → PayloadNamesPeers c l packet key

instance (c : Codec) (l : ProtocolLayer) (packet : Packet) (key : RouteKey) :
    Decidable (NamesPeers c l packet key) :=
  decidable_of_iff (packet.src.isBroadcast = false ∧
    (l.isLocal packet = true → PayloadNamesPeers c l packet key))
    ⟨fun h => ⟨h.1, h.2⟩, fun h => ⟨h.src, h.payload⟩⟩

section Packet

variable {c : Codec} {packet : Packet} {key : RouteKey}

theorem not_reserved {self p : PeerId} (hself : p ≠ self) (hspecified : p.isUnspecified = false)
    (hbroadcast : p.isBroadcast = false) : ¬ Reserved self p := by
  intro hreserved
  rcases hreserved with hempty | hstar | hown
  · rw [hspecified] at hempty
    cases hempty
  · rw [hbroadcast] at hstar
    cases hstar
  · exact hself hown

/-- The sender of a screened packet that names peers is a peer. -/
theorem NamesPeers.sender (h : NamesPeers c l packet key) {data : List UInt8}
    (screened : l.screen data = .ok (some packet)) : ¬ Reserved l.peerId packet.src := by
  obtain ⟨-, -, hself, hspecified⟩ := screen_eq_some.mp screened
  exact not_reserved hself hspecified h.src

/-- Every route it confirms is the route of a peer. -/
theorem NamesPeers.confirmed (h : NamesPeers c l packet key) {data : List UInt8}
    (screened : l.screen data = .ok (some packet)) (hlocal : l.isLocal packet = true) {p : PeerId}
    {m : UInt8} (hconfirmed : Confirmed c l packet key p m) : ¬ Reserved l.peerId p := by
  cases hconfirmed with
  | helloRequest => exact h.sender screened
  | @helloReply hello type payload direct pending =>
      obtain ⟨hspecified, hbroadcast, hself⟩ := (h.payload hlocal).hello type hello payload
      exact not_reserved (fun hown => hself hown ⟨direct, pending⟩) hspecified hbroadcast
  | tcp => exact h.sender screened
  | punchRequest type payload direct => exact (h.payload hlocal).punchRequest type direct _ payload
  | punchReply type payload direct _ pending =>
      exact (h.payload hlocal).punchReply type direct _ payload pending
  | natObserveReply => exact h.sender screened
  | relay => exact h.sender screened
  | @advertised reply p m type payload entry =>
      obtain ⟨item, hitem, rfl, hself, hspecified, -⟩ := entry
      exact not_reserved hself hspecified
        ((h.payload hlocal).entries type reply payload item hitem)

/-- No reserved id becomes a key by what the packet writes. -/
theorem NamesPeers.written (h : NamesPeers c l packet key) {data : List UInt8}
    (screened : l.screen data = .ok (some packet)) (hlocal : l.isLocal packet = true) {w : Write}
    (hwritten : Written c l packet key w) {p : PeerId} (hkeys : w.Keys l.peerId p) :
    ¬ Reserved l.peerId p := by
  cases hwritten with
  | @described hello type payload =>
      obtain ⟨rfl, hself⟩ := hkeys
      obtain ⟨hspecified, hbroadcast, -⟩ := (h.payload hlocal).hello type hello payload
      exact not_reserved hself hspecified hbroadcast
  | punched type payload direct =>
      obtain rfl := hkeys
      exact (h.payload hlocal).punchRequest type direct _ payload
  | confirmed confirmed =>
      obtain rfl := hkeys
      exact h.confirmed screened hlocal confirmed
  | promoted => exact hkeys.elim

end Packet

end ProtocolLayer

/-! ## Runs -/

namespace Node

/-- The entries of the HelloReply that the dispatcher has not finished. -/
def pendingEntries (n : Node) : List RouteEntry :=
  match n.dispatcher with
  | .sendingHello _ entries _ => entries
  | _ => []

/-- Every id that the event stores is the id of a peer. -/
def StoresPeers (c : Codec) (n : Node) : Event → Prop
  | .packet _ data routeKey => OnOk (n.layer.screen data) fun screened =>
      ∀ packet ∈ screened, NamesPeers c n.layer packet routeKey
  | .helloSent _ => EntriesNamePeers n.pendingEntries
  | _ => True

instance (c : Codec) (n : Node) (e : Event) : Decidable (StoresPeers c n e) :=
  match e with
  | .packet _ _ _ => inferInstanceAs (Decidable (OnOk _ _))
  | .helloSent _ => inferInstanceAs (Decidable (EntriesNamePeers _))
  | .quicSent => isTrue trivial
  | .transportClosed => isTrue trivial
  | .quicReceived => isTrue trivial
  | .bootstrap _ => isTrue trivial
  | .call _ _ => isTrue trivial
  | .task _ _ => isTrue trivial

/-- Such an event makes no reserved id a key. -/
theorem StoresPeers.stored {c : Codec} {n : Node} {e : Event} (h : StoresPeers c n e) {w : Write}
    (hstored : Stored c n e w) {p : PeerId} (hkeys : w.Keys n.layer.peerId p) :
    ¬ Reserved n.layer.peerId p := by
  cases hstored with
  | packet caused =>
      cases caused with
      | @arrived packet screened arrived =>
          have hsender := (h _ screened packet rfl).sender screened
          cases arrived with
          | heard sender =>
              obtain ⟨rfl, -⟩ := hkeys
              rwa [sender]
          | candidate =>
              obtain rfl := hkeys
              exact hsender
      | @written packet screened isLocal written =>
          exact (h _ screened packet rfl).written screened isLocal written hkeys
  | @advertised env item entries via entry sending mem ingested =>
      obtain rfl := hkeys
      have hentries : n.pendingEntries = entries := by rw [pendingEntries, sending]
      obtain ⟨hself, hspecified⟩ := ingested
      exact not_reserved hself hspecified (h entry (hentries ▸ mem))

/-- The layer and its transport have one id, and no reserved id is a key. -/
structure Unreserved (own : PeerId) (l : ProtocolLayer) : Prop where
  peerId : l.peerId = own
  transport : l.transport.peerId = own
  keys : ∀ p, l.IsKey p → ¬ Reserved own p

theorem unreserved_node (s : Startup) : Unreserved s.peerId s.node.layer where
  peerId := rfl
  transport := rfl
  keys p h := by
    rcases h with h | h | h <;> cases h

/-- A write whose keys are not reserved leaves no reserved id behind. -/
theorem Unreserved.apply {own : PeerId} {l : ProtocolLayer} (h : Unreserved own l) (env : Env)
    {w : Write} (hw : ∀ p, w.Keys own p → ¬ Reserved own p) : Unreserved own (w.apply env l) where
  peerId := by cases w <;> exact h.peerId
  transport := by rw [transport_peerId_apply, h.transport]
  keys p hkey := by
    rcases isKey_apply hkey with hold | hnew
    · exact h.keys p hold
    · exact hw p (h.transport ▸ hnew)

theorem Unreserved.step {own : PeerId} {c : Codec} {n n' : Node} {e : Event}
    (h : Unreserved own n.layer) (hpeers : StoresPeers c n e) (hstep : step c n e = some n') :
    Unreserved own n'.layer := by
  refine (writes_step hstep).invariant ?_ ?_ h
  · intro l l' hsame hl
    exact ⟨hsame.peerId.trans hl.peerId, hsame.transport.peerId.trans hl.transport,
      fun p hkey => hl.keys p (hsame.isKey hkey)⟩
  · intro l env w hstored hl
    refine hl.apply env ?_
    rw [← h.peerId]
    intro p hkeys
    exact hpeers.stored hstored hkeys

/-- While every event stores ids of peers only, none of the empty id, the broadcast id
and the node's own id is a key of the routes, the peers or the candidates. -/
theorem reserved_ids_not_stored (c : Codec) (s : Startup) {es : List Event} {n : Node}
    (hrun : Transition.run (step c) s.node es = some n)
    (hpeers : Transition.Along (step c) (StoresPeers c) s.node es) {p : PeerId}
    (hreserved : Reserved s.peerId p) : ¬ n.layer.IsKey p := by
  have hunreserved : Unreserved s.peerId n.layer :=
    Transition.run_invariant_along (I := fun n => Unreserved s.peerId n.layer)
      (fun m e m' hc hstep h => h.step hc hstep) hrun hpeers (unreserved_node s)
  intro hkey
  exact hunreserved.keys p hkey hreserved

/-- A bootstrap from the address of `b`, and its reply. -/
def answeredRun : List Event :=
  [.bootstrap helloKey.peerAddr, .call 0 (.hello (Env.atMillis 1)), .call 0 .register] ++
    helloRound helloKey

/-- After it `b` is a key, and no reserved id is. -/
theorem reserved_ids_not_stored_bootstrap :
    ∃ n, Transition.run (step helloCodec) Startup.nodeA.node answeredRun = some n ∧
      n.layer.IsKey ⟨"b"⟩ ∧ ∀ p, Reserved ⟨"a"⟩ p → ¬ n.layer.IsKey p := by
  obtain ⟨n, hn, hkey⟩ :
      ∃ n, Transition.run (step helloCodec) Startup.nodeA.node answeredRun = some n ∧
        n.layer.IsKey ⟨"b"⟩ := by
    decide +kernel
  have hpeers : Transition.Along (step helloCodec) (StoresPeers helloCodec) Startup.nodeA.node
      answeredRun := by
    decide +kernel
  refine ⟨n, hn, hkey, ?_⟩
  intro p hreserved
  exact reserved_ids_not_stored helloCodec .nodeA hn hpeers hreserved

/-- A HelloRequest to `a` whose header names `*` as its source. -/
def broadcastHello : List UInt8 := [141, 3, 0, 3, 3, 0, 0, 0, 15, 0, 1, 0, 1, 42, 97]

/-- After this packet `*` has a direct route and is a known peer. -/
theorem broadcast_id_stored :
    ¬ ∀ (c : Codec) (s : Startup) (es : List Event) (n : Node) (p : PeerId),
      s.peerId.isUnspecified = false → s.peerId.isBroadcast = false →
      Transition.run (step c) s.node es = some n → Reserved s.peerId p → ¬ n.layer.IsKey p := by
  intro h
  obtain ⟨n, hn, hkey⟩ :
      ∃ n, Transition.run (step helloCodec) Startup.nodeA.node
          [.packet (Env.atMillis 1) broadcastHello helloKey] = some n ∧
        n.layer.IsKey .broadcast := by
    decide +kernel
  exact h helloCodec .nodeA _ n .broadcast (by decide) (by decide) hn (Or.inr (Or.inl (by decide)))
    hkey

end Node

end RustP2p
