import RustP2p.Quic.Node

/-!
# The QUIC socket adapter

`QuicPeerSocket` of `quic.rs`.  quinn wants socket addresses, and the overlay
has peer ids, so the adapter hands out synthetic addresses.  A *virtual peer* is
a peer id, with a route key if all its packets go over one route.  Every virtual
peer that was registered has an address, and the address leads back to it.

* Outbound, `trySend` looks up the virtual peer of the destination.
* Inbound, the transport loop takes the sender of a QuicRelay packet, registers
  it as a virtual peer *without* a key, and injects the packet from that address.

The two directions agree for a default connection.  For a connection pinned to a
route they never do: no packet is injected from the address of a pinned
connection (`via_reply_misaddressed`).  The invariant is `Owned`: the address of
a virtual peer belongs to it alone.

Each method of the adapter is one step here.  Which of them runs when is left
open, and so are the random numbers an allocation draws.
-/

namespace RustP2p

/-! ## The adapter -/

/-- `VirtualPeer`.  With a key, all packets go over this route. -/
structure VirtualPeer where
  peerId : PeerId
  routeKey : Option RouteKey
deriving DecidableEq, Repr

/-- `RoutedQuicPacket`. -/
structure RoutedQuicPacket where
  data : List UInt8
  addr : SocketAddr
deriving DecidableEq, Repr

/-- `QuicPeerSocket`, with the packets of its channel. -/
structure QuicPeerSocket where
  virtualByAddr : DashMap SocketAddr VirtualPeer
  virtualByPeer : DashMap PeerId SocketAddr
  viaVirtualAddrs : DashMap (PeerId × RouteKey) SocketAddr
  routedQuic : List RoutedQuicPacket

/-- The random numbers of one call of `allocate_virtual_addr`. -/
structure Draws where
  /-- Suffix and port in each turn of the first loop. -/
  pair : Nat → UInt16 × UInt16
  /-- The suffix in each turn of the second loop. -/
  suffix : Nat → UInt16
  /-- The turns of the second loop that the call has made so far. -/
  turns : Nat

/-- Every turn draws the same numbers. -/
def Draws.constant (suffix port : UInt16) : Draws := ⟨fun _ => (suffix, port), fun _ => suffix, 1⟩

/-- `127.255.0.0/16` with the suffix and the port. -/
def syntheticAddr (suffix port : UInt16) : SocketAddr :=
  .v4 ⟨127, 255, (suffix >>> 8).toUInt8, suffix.toUInt8⟩ port

namespace QuicPeerSocket

/-- `QuicPeerSocket::new`. -/
def new : QuicPeerSocket := ⟨∅, ∅, ∅, []⟩

/-- `ensure_virtual_mapping`. -/
def ensureVirtualMapping (s : QuicPeerSocket) (addr : SocketAddr) (desired : VirtualPeer) :
    QuicPeerSocket :=
  { s with virtualByAddr := s.virtualByAddr.insert addr desired }

/-- `release_reserved_virtual_addr`. -/
def releaseReservedVirtualAddr (s : QuicPeerSocket) (addr : SocketAddr) (reserved : VirtualPeer) :
    QuicPeerSocket :=
  if s.virtualByAddr.get addr = some reserved then
    { s with virtualByAddr := s.virtualByAddr.remove addr }
  else s

/-- One turn of the loops of `allocate_virtual_addr`. -/
def reserve (s : QuicPeerSocket) (virtualPeer : VirtualPeer) (addr : SocketAddr) :
    Option (SocketAddr × QuicPeerSocket) :=
  if s.virtualByAddr.get addr = none then some (addr, s.ensureVirtualMapping addr virtualPeer)
  else none

/-- `allocate_virtual_addr`, `none` as long as it has not found a free address. -/
def allocateVirtualAddr (s : QuicPeerSocket) (draws : Draws) (virtualPeer : VirtualPeer) :
    Option (SocketAddr × QuicPeerSocket) :=
  match (List.range 128).findSome? fun i =>
      s.reserve virtualPeer
        (syntheticAddr (draws.pair i).1 (1024 + (draws.pair i).2 % (65535 - 1024))) with
  | some reserved => some reserved
  | none =>
      (List.range draws.turns).findSome? fun i =>
        s.reserve virtualPeer (syntheticAddr (draws.suffix i) 4433)

/-- The published address of a virtual peer. -/
def published (s : QuicPeerSocket) (virtualPeer : VirtualPeer) : Option SocketAddr :=
  match virtualPeer.routeKey with
  | none => s.virtualByPeer.get virtualPeer.peerId
  | some routeKey => s.viaVirtualAddrs.get (virtualPeer.peerId, routeKey)

/-- Publishes the address of a virtual peer. -/
def publish (s : QuicPeerSocket) (virtualPeer : VirtualPeer) (addr : SocketAddr) :
    QuicPeerSocket :=
  match virtualPeer.routeKey with
  | none => { s with virtualByPeer := s.virtualByPeer.insert virtualPeer.peerId addr }
  | some routeKey =>
      { s with viaVirtualAddrs := s.viaVirtualAddrs.insert (virtualPeer.peerId, routeKey) addr }

/-- Takes the published address of a virtual peer back. -/
def retract (s : QuicPeerSocket) (virtualPeer : VirtualPeer) : QuicPeerSocket :=
  match virtualPeer.routeKey with
  | none => { s with virtualByPeer := s.virtualByPeer.remove virtualPeer.peerId }
  | some routeKey =>
      { s with viaVirtualAddrs := s.viaVirtualAddrs.remove (virtualPeer.peerId, routeKey) }

/-- The body that the two registrations share: the published address, or else a
new one, unless another call published one in between. -/
def register (s : QuicPeerSocket) (draws : Draws) (virtualPeer : VirtualPeer) :
    Option (SocketAddr × QuicPeerSocket) :=
  match s.published virtualPeer with
  | some addr => some (addr, s.ensureVirtualMapping addr virtualPeer)
  | none =>
      match s.allocateVirtualAddr draws virtualPeer with
      | none => none
      | some (addr, s) =>
          match s.published virtualPeer with
          | none => some (addr, s.publish virtualPeer addr)
          | some existing =>
              some (existing, (s.releaseReservedVirtualAddr addr virtualPeer).ensureVirtualMapping
                existing virtualPeer)

/-- `register_virtual_peer`. -/
def registerVirtualPeer (s : QuicPeerSocket) (draws : Draws) (peerId : PeerId) :
    Option (SocketAddr × QuicPeerSocket) :=
  s.register draws ⟨peerId, none⟩

/-- `register_virtual_peer_via`. -/
def registerVirtualPeerVia (s : QuicPeerSocket) (draws : Draws) (peerId : PeerId)
    (routeKey : RouteKey) : Option (SocketAddr × QuicPeerSocket) :=
  s.register draws ⟨peerId, some routeKey⟩

/-- The body that the two releases share. -/
def release (s : QuicPeerSocket) (virtualPeer : VirtualPeer) : QuicPeerSocket :=
  match s.published virtualPeer with
  | some addr =>
      let s := s.retract virtualPeer
      { s with virtualByAddr := s.virtualByAddr.remove addr }
  | none => s

/-- `release_virtual_peer`. -/
def releaseVirtualPeer (s : QuicPeerSocket) (peerId : PeerId) : QuicPeerSocket :=
  s.release ⟨peerId, none⟩

/-- `release_virtual_peer_via`. -/
def releaseVirtualPeerVia (s : QuicPeerSocket) (peerId : PeerId) (routeKey : RouteKey) :
    QuicPeerSocket :=
  s.release ⟨peerId, some routeKey⟩

/-- `peer_for_virtual_addr`. -/
def peerForVirtualAddr (s : QuicPeerSocket) (addr : SocketAddr) : Option PeerId :=
  (s.virtualByAddr.get addr).map VirtualPeer.peerId

/-- `inject_routed_quic`. -/
def injectRoutedQuic (s : QuicPeerSocket) (data : List UInt8) (addr : SocketAddr) :
    QuicPeerSocket :=
  { s with routedQuic := s.routedQuic ++ [⟨data, addr⟩] }

/-- `try_send`. -/
def trySend (c : Codec) (s : QuicPeerSocket) (l : ProtocolLayer) (destination : SocketAddr)
    (contents : List UInt8) : Outcome ProtocolLayer :=
  match s.virtualByAddr.get destination with
  | some peer =>
      match peer.routeKey with
      | some routeKey => l.trySendQuicPayloadVia peer.peerId routeKey contents
      | none => l.trySendQuicPayload peer.peerId contents
  | none =>
      .fail l ⟨.notFound,
        "unknown synthetic QUIC destination: " ++ c.socketAddr.format destination⟩

/-- `poll_recv` with buffers of these lengths and so many places for meta data.
It is ready with an error or a packet, or pending (`none`). -/
def pollRecv (s : QuicPeerSocket) (bufs : List Nat) (metaLen : Nat) :
    Option (IoResult RoutedQuicPacket) × QuicPeerSocket :=
  match bufs, metaLen, s.routedQuic with
  | [], _, _ => (some (.error ⟨.invalidInput, "poll_recv requires non-empty bufs and meta"⟩), s)
  | _, 0, _ => (some (.error ⟨.invalidInput, "poll_recv requires non-empty bufs and meta"⟩), s)
  | len :: _, _, packet :: rest =>
      (some (.ok ⟨packet.data.take len, packet.addr⟩), { s with routedQuic := rest })
  | _, _, [] => (none, s)

/-! ## The invariant -/

/-- The published address of a virtual peer leads back to it. -/
def Owned (s : QuicPeerSocket) : Prop :=
  ∀ v a, s.published v = some a → s.virtualByAddr.get a = some v

theorem owned_new : Owned new := by
  rintro ⟨p, key⟩ a h
  cases key <;> cases h

variable {s s' : QuicPeerSocket} {v w : VirtualPeer} {a b : SocketAddr} {draws : Draws}

theorem published_publish (s : QuicPeerSocket) (v w : VirtualPeer) (a : SocketAddr) :
    (s.publish v a).published w = if w = v then some a else s.published w := by
  obtain ⟨p, k⟩ := v
  obtain ⟨q, k'⟩ := w
  cases k <;> cases k' <;> simp [publish, published, DashMap.get_insert]

theorem published_retract (s : QuicPeerSocket) (v w : VirtualPeer) :
    (s.retract v).published w = if w = v then none else s.published w := by
  obtain ⟨p, k⟩ := v
  obtain ⟨q, k'⟩ := w
  cases k <;> cases k' <;> simp [retract, published, DashMap.get_remove]

@[simp] theorem virtualByAddr_publish (s : QuicPeerSocket) (v : VirtualPeer) (a : SocketAddr) :
    (s.publish v a).virtualByAddr = s.virtualByAddr := by
  simp only [publish]
  split <;> rfl

@[simp] theorem virtualByAddr_retract (s : QuicPeerSocket) (v : VirtualPeer) :
    (s.retract v).virtualByAddr = s.virtualByAddr := by
  simp only [retract]
  split <;> rfl

@[simp] theorem published_ensureVirtualMapping (s : QuicPeerSocket) (a : SocketAddr)
    (v w : VirtualPeer) : (s.ensureVirtualMapping a v).published w = s.published w := rfl

/-- An allocated address was free, and it now leads to the virtual peer. -/
theorem allocateVirtualAddr_eq (h : s.allocateVirtualAddr draws v = some (a, s')) :
    s.virtualByAddr.get a = none ∧ s' = s.ensureVirtualMapping a v := by
  have hreserve {addr : SocketAddr} (h : s.reserve v addr = some (a, s')) :
      s.virtualByAddr.get a = none ∧ s' = s.ensureVirtualMapping a v := by
    simp only [reserve] at h
    split at h
    next hfree => cases h; exact ⟨hfree, rfl⟩
    next => cases h
  simp only [allocateVirtualAddr] at h
  split at h
  next hfirst =>
    cases h
    obtain ⟨i, -, hi⟩ := List.exists_of_findSome?_eq_some hfirst
    exact hreserve hi
  next =>
    obtain ⟨i, -, hi⟩ := List.exists_of_findSome?_eq_some h
    exact hreserve hi

/-- A registration gives the published address, or publishes a free one. -/
theorem register_eq (h : s.register draws v = some (a, s')) :
    (s.published v = some a ∧ s' = s.ensureVirtualMapping a v) ∨
      (s.published v = none ∧ s.virtualByAddr.get a = none ∧
        s' = (s.ensureVirtualMapping a v).publish v a) := by
  simp only [register] at h
  split at h
  next hpub => cases h; exact Or.inl ⟨hpub, rfl⟩
  next hpub =>
    split at h
    next => cases h
    next halloc =>
      obtain ⟨hfree, rfl⟩ := allocateVirtualAddr_eq halloc
      rw [published_ensureVirtualMapping, hpub] at h
      cases h
      exact Or.inr ⟨hpub, hfree, rfl⟩

/-- After a registration the address is published. -/
theorem published_register (h : s.register draws v = some (a, s')) : s'.published v = some a := by
  rcases register_eq h with ⟨hpub, rfl⟩ | ⟨-, -, rfl⟩
  · exact hpub
  · rw [published_publish, if_pos rfl]

/-- A registration takes no published address away. -/
theorem published_of_register (h : s.register draws v = some (b, s'))
    (hw : s.published w = some a) : s'.published w = some a := by
  rcases register_eq h with ⟨-, rfl⟩ | ⟨hnone, -, rfl⟩
  · exact hw
  · have hne : w ≠ v := by
      rintro rfl
      rw [hnone] at hw
      cases hw
    rw [published_publish, if_neg hne]
    exact hw

theorem Owned.register (hs : s.Owned) (h : s.register draws v = some (a, s')) : s'.Owned := by
  rcases register_eq h with ⟨hpub, rfl⟩ | ⟨-, hfree, rfl⟩
  · intro w b hb
    rw [published_ensureVirtualMapping] at hb
    have hold := hs w b hb
    rw [ensureVirtualMapping, DashMap.get_insert]
    split
    next heq =>
      subst heq
      exact (hs v b hpub).symm.trans hold
    next => exact hold
  · intro w b hb
    rw [published_publish] at hb
    rw [virtualByAddr_publish, ensureVirtualMapping, DashMap.get_insert]
    split at hb
    next hw =>
      cases hb
      rw [if_pos rfl, hw]
    next =>
      have hold := hs w b hb
      have hne : b ≠ a := by
        rintro rfl
        rw [hfree] at hold
        cases hold
      rw [if_neg hne]
      exact hold

theorem Owned.release (hs : s.Owned) (v : VirtualPeer) : (s.release v).Owned := by
  simp only [QuicPeerSocket.release]
  split
  next a hpub =>
    intro w b hb
    have hne : w ≠ v := by
      rintro rfl
      have hgone : (s.retract w).published w = some b := hb
      rw [published_retract, if_pos rfl] at hgone
      cases hgone
    have hold : s.published w = some b := by
      have hgone : (s.retract v).published w = some b := hb
      rwa [published_retract, if_neg hne] at hgone
    -- The address is not the released one, which belongs to `v`.
    have hab : b ≠ a := by
      rintro rfl
      exact hne (Option.some.inj ((hs w b hold).symm.trans (hs v b hpub)))
    simp only [virtualByAddr_retract, DashMap.get_remove, if_neg hab]
    exact hs w b hold
  next => exact hs

/-- Only its own release takes the address of a virtual peer away. -/
theorem published_release (hne : w ≠ v) (hw : s.published w = some a) :
    (s.release v).published w = some a := by
  simp only [release]
  split
  next =>
    have hkept : (s.retract v).published w = some a := by rwa [published_retract, if_neg hne]
    exact hkept
  next => exact hw

/-- Two virtual peers never get one address. -/
theorem Owned.register_ne (hs : s.Owned) (hw : s.published w = some a) (hne : v ≠ w)
    (h : s.register draws v = some (b, s')) : b ≠ a := by
  rintro rfl
  have hown := hs w b hw
  rcases register_eq h with ⟨hpub, -⟩ | ⟨-, hfree, -⟩
  · exact hne (Option.some.inj ((hs v b hpub).symm.trans hown))
  · rw [hfree] at hown
    cases hown

end QuicPeerSocket

/-! ## The endpoint -/

/-- A node with its QUIC endpoint, as far as packets go through the adapter. -/
structure QuicEndpoint where
  node : Node
  socket : QuicPeerSocket

/-- What can happen at the endpoint. -/
inductive EndpointEvent where
  /-- A step of the node below. -/
  | node (event : Event)
  /-- One turn of `start_transport_loop`. -/
  | transportLoop (draws : Draws)
  | register (peerId : PeerId) (draws : Draws)
  | registerVia (peerId : PeerId) (routeKey : RouteKey) (draws : Draws)
  | release (peerId : PeerId)
  | releaseVia (peerId : PeerId) (routeKey : RouteKey)
  /-- quinn sends. -/
  | trySend (destination : SocketAddr) (contents : List UInt8)
  /-- quinn receives. -/
  | pollRecv (bufs : List Nat) (metaLen : Nat)

/-- The endpoint of a node that just started. -/
def Startup.endpoint (s : Startup) : QuicEndpoint := ⟨s.node, .new⟩

namespace QuicEndpoint

/-- The packet that a turn of the transport loop injects, with its sender and the
adapter after the registration. -/
def inject (ep : QuicEndpoint) (draws : Draws) :
    Option (PeerId × RoutedQuicPacket × QuicPeerSocket) :=
  match ep.node.quicQueue with
  | [] => none
  | payload :: _ =>
      match ep.socket.registerVirtualPeer draws payload.src with
      | none => none
      | some (addr, socket) => some (payload.src, ⟨payload.payload, addr⟩, socket)

/-- One turn of `start_transport_loop`: `recv_quic_payload`, the registration of
the sender, and the injection. -/
def transportLoop (c : Codec) (ep : QuicEndpoint) (draws : Draws) : Option QuicEndpoint :=
  match ep.inject draws, Node.step c ep.node .quicReceived with
  | some (_, packet, socket), some node =>
      some ⟨node, socket.injectRoutedQuic packet.data packet.addr⟩
  | _, _ => none

/-- The endpoint after an event, if the event can happen.  The payloads of the
node are received by the transport loop only. -/
def step (c : Codec) (ep : QuicEndpoint) : EndpointEvent → Option QuicEndpoint
  | .node .quicReceived => none
  | .node event => (Node.step c ep.node event).map fun node => { ep with node := node }
  | .transportLoop draws => ep.transportLoop c draws
  | .register peerId draws =>
      (ep.socket.registerVirtualPeer draws peerId).map fun r => { ep with socket := r.2 }
  | .registerVia peerId routeKey draws =>
      (ep.socket.registerVirtualPeerVia draws peerId routeKey).map fun r =>
        { ep with socket := r.2 }
  | .release peerId => some { ep with socket := ep.socket.releaseVirtualPeer peerId }
  | .releaseVia peerId routeKey =>
      some { ep with socket := ep.socket.releaseVirtualPeerVia peerId routeKey }
  | .trySend destination contents =>
      let outcome := QuicPeerSocket.trySend c ep.socket ep.node.layer destination contents
      some { ep with node := { ep.node with
        layer := outcome.state
        sent := ep.node.sent ++ outcome.effects } }
  | .pollRecv bufs metaLen => some { ep with socket := (ep.socket.pollRecv bufs metaLen).2 }

/-- The packet an event injects, with its sender. -/
def injected (ep : QuicEndpoint) : EndpointEvent → Option (PeerId × RoutedQuicPacket)
  | .transportLoop draws => (ep.inject draws).map fun r => (r.1, r.2.1)
  | _ => none

/-! ## What a step does to the addresses -/

variable {c : Codec} {ep ep' : QuicEndpoint} {e : EndpointEvent} {p : PeerId} {k : RouteKey}
  {a : SocketAddr}

/-- The addresses of an adapter are those of another. -/
structure SameAddrs (s s' : QuicPeerSocket) : Prop where
  virtualByAddr : s'.virtualByAddr = s.virtualByAddr
  published : ∀ v, s'.published v = s.published v

theorem SameAddrs.refl (s : QuicPeerSocket) : SameAddrs s s := ⟨rfl, fun _ => rfl⟩

theorem SameAddrs.owned {s s' : QuicPeerSocket} (h : SameAddrs s s') (hs : s.Owned) : s'.Owned := by
  intro v a ha
  rw [h.published] at ha
  rw [h.virtualByAddr]
  exact hs v a ha

/-- What an event does to the addresses of the adapter: nothing, or it registers
or releases a virtual peer. -/
inductive SocketMove (e : EndpointEvent) (s s' : QuicPeerSocket) : Prop where
  | same (addrs : SameAddrs s s')
  | register {v : VirtualPeer} {draws : Draws} {a : SocketAddr} {t : QuicPeerSocket}
      (registered : s.register draws v = some (a, t)) (addrs : SameAddrs t s')
  | release {v : VirtualPeer} (released : s' = s.release v)
      (event : ∀ p k, v = ⟨p, some k⟩ → e = .releaseVia p k)

theorem socketMove_step (h : step c ep e = some ep') : SocketMove e ep.socket ep'.socket := by
  cases e with
  | node event =>
      cases event with
      | quicReceived => cases h
      | _ =>
          simp only [step, Option.map_eq_some_iff] at h
          obtain ⟨node, -, rfl⟩ := h
          exact .same (.refl _)
  | transportLoop draws =>
      simp only [step, transportLoop] at h
      split at h
      next src packet socket node hinject _ =>
        cases h
        simp only [inject] at hinject
        split at hinject
        next => cases hinject
        next =>
          split at hinject
          next => cases hinject
          next hregister =>
            cases hinject
            exact .register hregister ⟨rfl, fun _ => rfl⟩
      next => cases h
  | register peerId draws =>
      obtain ⟨⟨a, t⟩, hregister, rfl⟩ := Option.map_eq_some_iff.mp h
      exact .register hregister (.refl _)
  | registerVia peerId routeKey draws =>
      obtain ⟨⟨a, t⟩, hregister, rfl⟩ := Option.map_eq_some_iff.mp h
      exact .register hregister (.refl _)
  | release peerId =>
      cases h
      refine .release rfl ?_
      intro p k h
      obtain ⟨⟩ := h
  | releaseVia peerId routeKey =>
      cases h
      refine .release rfl ?_
      rintro p k heq
      cases heq
      rfl
  | trySend destination contents =>
      cases h
      exact .same (.refl _)
  | pollRecv bufs metaLen =>
      cases h
      refine .same ?_
      simp only [QuicPeerSocket.pollRecv]
      split <;> exact ⟨rfl, fun _ => rfl⟩

theorem owned_step (h : step c ep e = some ep') (hs : ep.socket.Owned) : ep'.socket.Owned := by
  cases socketMove_step h with
  | same addrs => exact addrs.owned hs
  | register registered addrs => exact addrs.owned (hs.register registered)
  | release released =>
      rw [released]
      exact hs.release _

/-- The address of a pinned connection stays until it is released. -/
theorem published_step (h : step c ep e = some ep') (hkept : e ≠ .releaseVia p k)
    (ha : ep.socket.published ⟨p, some k⟩ = some a) :
    ep'.socket.published ⟨p, some k⟩ = some a := by
  cases socketMove_step h with
  | same addrs =>
      rw [addrs.published]
      exact ha
  | register registered addrs =>
      rw [addrs.published]
      exact QuicPeerSocket.published_of_register registered ha
  | release released event =>
      rw [released]
      refine QuicPeerSocket.published_release ?_ ha
      rintro rfl
      exact hkept (event p k rfl)

/-- In a reached endpoint every address belongs to one virtual peer. -/
theorem owned_run (s : Startup) {es : List EndpointEvent}
    (hrun : Transition.run (step c) s.endpoint es = some ep) : ep.socket.Owned :=
  Transition.run_invariant (I := fun ep => ep.socket.Owned) (fun _ _ _ => owned_step) hrun
    QuicPeerSocket.owned_new

/-! ## Replies on a pinned connection -/

/-- A packet of the peer is not injected from the address of its pinned
connection. -/
theorem injected_addr_ne (hs : ep.socket.Owned)
    (ha : ep.socket.published ⟨p, some k⟩ = some a) {packet : RoutedQuicPacket}
    (h : ep.injected e = some (p, packet)) : packet.addr ≠ a := by
  cases e with
  | transportLoop draws =>
      obtain ⟨⟨src, packet', t⟩, hinject, heq⟩ := Option.map_eq_some_iff.mp h
      cases heq
      simp only [inject] at hinject
      split at hinject
      next => cases hinject
      next =>
        split at hinject
        next => cases hinject
        next hregister =>
          cases hinject
          exact hs.register_ne ha (by simp) hregister
  | _ => cases h

/-- A connection to `p` is pinned to the route `k` in a reached endpoint, and its
address is `a`.  As long as it is not released, no packet of `p` is injected
from `a`: whatever `p` sends back on the connection comes from another address. -/
theorem via_reply_misaddressed (c : Codec) (s : Startup) {pre post : List EndpointEvent}
    {ep ep' : QuicEndpoint} {p : PeerId} {k : RouteKey} {a : SocketAddr} {draws : Draws}
    {socket : QuicPeerSocket} (hpre : Transition.run (step c) s.endpoint pre = some ep)
    (hvia : ep.socket.registerVirtualPeerVia draws p k = some (a, socket))
    (hpost : Transition.run (step c) ⟨ep.node, socket⟩ post = some ep')
    (hkept : EndpointEvent.releaseVia p k ∉ post) :
    Transition.Along (step c)
      (fun ep e => ∀ packet, ep.injected e = some (p, packet) → packet.addr ≠ a)
      ⟨ep.node, socket⟩ post := by
  have howned : socket.Owned := (owned_run s hpre).register hvia
  have hpub : socket.published ⟨p, some k⟩ = some a := QuicPeerSocket.published_register hvia
  rw [Transition.along_iff hpost]
  intro before e after m hes hm packet hpacket
  -- The invariant holds up to the injection, since nothing before it releases.
  have hinv : m.socket.Owned ∧ m.socket.published ⟨p, some k⟩ = some a := by
    refine Transition.run_invariant_along
      (I := fun ep => ep.socket.Owned ∧ ep.socket.published ⟨p, some k⟩ = some a)
      (C := fun _ e => e ≠ .releaseVia p k) ?_ hm ?_ ⟨howned, hpub⟩
    · intro ep e ep' hne hstep h
      obtain ⟨hs, ha⟩ := h
      exact ⟨owned_step hstep hs, published_step hstep hne ha⟩
    · rw [Transition.along_iff hm]
      rintro pre' e' post' _ rfl - rfl
      exact hkept (by simp [hes])
  exact injected_addr_ne hinv.1 hinv.2 hpacket

/-- The route of `b` to which the node `a` pins a connection. -/
def viaKey : RouteKey := ⟨.udp, .v4 ⟨0, 0, 0, 0⟩ 5000, .v4 ⟨10, 0, 0, 2⟩ 5000⟩

/-- The address of the connection. -/
def viaAddr : SocketAddr := .v4 ⟨127, 255, 0, 0⟩ 1024

/-- The adapter once the connection is registered. -/
def pinned : Option (SocketAddr × QuicPeerSocket) :=
  QuicPeerSocket.new.registerVirtualPeerVia (.constant 0 0) ⟨"b"⟩ viaKey

/-- The QuicRelay packets of `a` to `b` and of `b` to `a`, with one byte each. -/
def viaRequest : List UInt8 := [140, 3, 0, 3, 3, 0, 0, 0, 16, 0, 1, 0, 1, 97, 98, 1]
def viaReply : List UInt8 := [140, 3, 0, 3, 3, 0, 0, 0, 16, 0, 1, 0, 1, 98, 97, 2]

/-- quinn sends on the connection, and `b` answers on the route. -/
def pinnedRun : List EndpointEvent :=
  [.trySend viaAddr [1], .node (.packet (Env.atMillis 1) viaReply viaKey), .node .quicSent,
    .transportLoop (.constant 1 0)]

/-- The request goes over the route the connection is pinned to, the reply comes
back on it, and it is injected from another address. -/
theorem via_reply_from_other_address :
    ∃ socket ep, pinned = some (viaAddr, socket) ∧
      Transition.run (step .empty) ⟨Startup.nodeA.node, socket⟩ pinnedRun = some ep ∧
      ep.node.layer.transport.outbound = [.routePacket viaKey viaRequest] ∧
      ep.socket.routedQuic = [⟨[2], .v4 ⟨127, 255, 0, 1⟩ 1024⟩] ∧
      .v4 ⟨127, 255, 0, 1⟩ 1024 ≠ viaAddr := by
  obtain ⟨⟨addr, socket⟩, hsocket, rfl, ep, hrun, houtbound, hrouted⟩ :
      ∃ r ∈ pinned, r.1 = viaAddr ∧
        ∃ ep, Transition.run (step .empty) ⟨Startup.nodeA.node, r.2⟩ pinnedRun = some ep ∧
          ep.node.layer.transport.outbound = [.routePacket viaKey viaRequest] ∧
          ep.socket.routedQuic = [⟨[2], .v4 ⟨127, 255, 0, 1⟩ 1024⟩] := by
    decide +kernel
  exact ⟨socket, ep, hsocket, hrun, houtbound, hrouted, by decide⟩

/-- The same run, without looking at the address. -/
theorem via_reply_misaddressed_pinned :
    ∃ socket, pinned = some (viaAddr, socket) ∧ Transition.Along (step .empty)
      (fun ep e => ∀ packet, ep.injected e = some (⟨"b"⟩, packet) → packet.addr ≠ viaAddr)
      ⟨Startup.nodeA.node, socket⟩ pinnedRun := by
  obtain ⟨⟨addr, socket⟩, hsocket, rfl, hsome⟩ :
      ∃ r ∈ pinned, r.1 = viaAddr ∧
        (Transition.run (step .empty) ⟨Startup.nodeA.node, r.2⟩ pinnedRun).isSome := by
    decide +kernel
  obtain ⟨ep, hrun⟩ := Option.isSome_iff_exists.mp hsome
  have hpre : Transition.run (step .empty) Startup.nodeA.endpoint [] =
      some Startup.nodeA.endpoint := rfl
  exact ⟨socket, hsocket,
    via_reply_misaddressed .empty .nodeA hpre hsocket hrun (by simp [pinnedRun])⟩

end QuicEndpoint

end RustP2p
