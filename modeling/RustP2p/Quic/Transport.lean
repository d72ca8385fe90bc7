import RustP2p.Core.RouteTable
import RustP2p.Quic.Payload

/-!
# The transport layer

`TransportLayer` of `transport.rs`: the peer store, the confirmed routes and the
queue of the core sender.  The protocol layer changes routes through
`confirmPeerRoute` only.

A step of the code reads clocks and random numbers and hands packets to the
operating system.  What it reads is its `Env`, and what it hands over is the
list of its `Effect`s, so that every function here is pure.  An `Outcome` is the
new state with the effects and the result.  A failed step keeps the changes it
made before it failed.

`HasRoute` is what the other modules say about the routes.  Lookups, read times
and the peer store leave it as it is (`SameRoutes`), and `confirmPeerRoute` is
bounded by `hasRoute_confirmPeerRoute`.
-/

namespace RustP2p

/-! ## What a step reads and what it sends -/

/-- What one step of the code reads from outside. -/
structure Env where
  /-- `now_millis`. -/
  nowMillis : UInt64
  /-- The wall clock in seconds. -/
  nowSecs : UInt64
  /-- `Instant::now`. -/
  instant : Instant
  /-- `rand::random` for a punch message sent over the overlay. -/
  requestId : UInt64
  /-- `rand::random` for a punch message sent by `execute_punch`. -/
  punchId : UInt64
  /-- The answer of `CoreTransportLayer::send_to_route` on each key. -/
  sendToRoute : RouteKey → IoResult Unit
  /-- The answer of `Puncher::send_to` on each address. -/
  sendTo : SocketAddr → IoResult Unit
  /-- The answer of `Puncher::punch_now`. -/
  punchNow : IoResult Unit

/-- A step at the given time, with all sends succeeding. -/
def Env.atMillis (ms : Nat) : Env where
  nowMillis := UInt64.ofNat ms
  nowSecs := UInt64.ofNat (ms / 1000)
  instant := ms
  requestId := 1
  punchId := 2
  sendToRoute _ := .ok ()
  sendTo _ := .ok ()
  punchNow := .ok ()

/-- What a step hands to the core transport. -/
inductive Effect where
  /-- Bytes sent over a route. -/
  | toRoute (key : RouteKey) (data : List UInt8)
  /-- Bytes sent to a bare socket address. -/
  | toAddr (addr : SocketAddr) (data : List UInt8)
  /-- A round of hole punching with these bytes. -/
  | punch (data : List UInt8) (natInfo : NatInfo)
deriving DecidableEq, Repr

/-- The state after a step, what it sent, and its result. -/
structure Outcome (σ : Type) where
  state : σ
  effects : List Effect
  result : IoResult Unit

namespace Outcome

variable {σ τ : Type}

/-- Nothing sent. -/
def ok (s : σ) : Outcome σ := ⟨s, [], .ok ()⟩

/-- The step stops with an error. -/
def fail (s : σ) (e : IoError) : Outcome σ := ⟨s, [], .error e⟩

/-- The outcome of a component, as one of the whole. -/
def map (f : σ → τ) (o : Outcome σ) : Outcome τ := ⟨f o.state, o.effects, o.result⟩

/-- `let _ =`: the next step runs whatever the result of this one. -/
def ignoring (o : Outcome σ) (next : σ → Outcome σ) : Outcome σ :=
  ⟨(next o.state).state, o.effects ++ (next o.state).effects, (next o.state).result⟩

/-- `?`: the next step runs if this one succeeded. -/
def andThen (o : Outcome σ) (next : σ → Outcome σ) : Outcome σ :=
  match o.result with
  | .ok () => o.ignoring next
  | .error _ => o

@[simp] theorem ok_state (s : σ) : (ok s).state = s := rfl
@[simp] theorem ok_effects (s : σ) : (ok s).effects = [] := rfl
@[simp] theorem fail_state (s : σ) (e : IoError) : (fail s e).state = s := rfl
@[simp] theorem fail_effects (s : σ) (e : IoError) : (fail s e).effects = [] := rfl
@[simp] theorem map_state (f : σ → τ) (o : Outcome σ) : (o.map f).state = f o.state := rfl
@[simp] theorem map_effects (f : σ → τ) (o : Outcome σ) : (o.map f).effects = o.effects := rfl
@[simp] theorem ignoring_state (o : Outcome σ) (next : σ → Outcome σ) :
    (o.ignoring next).state = (next o.state).state := rfl

/-- The state after `?` is the one before or after the next step. -/
theorem andThen_state (o : Outcome σ) (next : σ → Outcome σ) :
    (o.andThen next).state = o.state ∨ (o.andThen next).state = (next o.state).state := by
  simp only [andThen]
  split
  next => exact Or.inr rfl
  next => exact Or.inl rfl

/-- An effect of two steps is one of the first or of the second. -/
theorem mem_effects_ignoring {o : Outcome σ} {next : σ → Outcome σ} {e : Effect} :
    e ∈ (o.ignoring next).effects ↔ e ∈ o.effects ∨ e ∈ (next o.state).effects :=
  List.mem_append

end Outcome

/-! ## The layer -/

/-- `LinkMode`. -/
inductive LinkMode where
  | direct
  | relay
deriving DecidableEq, Repr

/-- `LinkInfo`. -/
structure LinkInfo where
  peerId : PeerId
  mode : LinkMode
  metric : UInt8
deriving DecidableEq, Repr

/-- `CoreOutboundPacket`. -/
inductive CoreOutboundPacket where
  | peerPacket (dest : PeerId) (data : List UInt8)
  | routePacket (routeKey : RouteKey) (data : List UInt8)
deriving DecidableEq, Repr

/-- `TransportLayer`, with the parts of its core and its state that the protocol
layer uses. -/
structure Transport where
  peerId : PeerId
  /-- The local address that is advertised. -/
  localAddr : SocketAddr
  /-- The local address of the main IPv4 socket as the socket reports it. -/
  rawLocalAddr : SocketAddr
  localTcpAddr : Option SocketAddr
  peers : DashMap PeerId PeerInfo
  routes : RouteTable PeerId
  /-- The queue of `start_core_sender`. -/
  outbound : List CoreOutboundPacket

namespace Transport

/-- `TransportLayer::bind`, once the sockets are bound to these addresses. -/
def bind (peerId : PeerId) (localAddr rawLocalAddr : SocketAddr)
    (localTcpAddr : Option SocketAddr) (loadBalance : LoadBalance) : Transport :=
  ⟨peerId, localAddr, rawLocalAddr, localTcpAddr, ∅, .new loadBalance, []⟩

/-- `known_peers`. -/
def knownPeers (t : Transport) : List PeerInfo := t.peers.values

/-- `routes`, the confirmed routes of a peer. -/
def routesOf (t : Transport) (peerId : PeerId) : List Route := t.routes.route peerId

/-- `link_info`. -/
def linkInfo (t : Transport) (peerId : PeerId) : Option LinkInfo :=
  (t.routes.routeOne peerId).map fun route =>
    ⟨peerId, if route.metric = 0 then .direct else .relay, route.metric⟩

/-- `link_mode`. -/
def linkMode (t : Transport) (peerId : PeerId) : Option LinkMode :=
  (t.linkInfo peerId).map LinkInfo.mode

/-- `route_for`. -/
def routeFor (t : Transport) (peerId : PeerId) : IoResult Route × Transport :=
  let (route, routes) := t.routes.getRouteById peerId
  (route, { t with routes := routes })

/-- `route_to_id`. -/
def routeToId (t : Transport) (routeKey : RouteKey) : Option PeerId := t.routes.routeToId routeKey

/-- `send_wire_to_route`. -/
def sendWireToRoute (t : Transport) (env : Env) (routeKey : RouteKey) (data : List UInt8) :
    Outcome Transport :=
  match env.sendToRoute routeKey with
  | .ok () => ⟨t, [.toRoute routeKey data], .ok ()⟩
  | .error e => .fail t e

/-- `send_wire`: over the route that lookup gives for the peer. -/
def sendWire (t : Transport) (env : Env) (peerId : PeerId) (data : List UInt8) :
    Outcome Transport :=
  match t.routeFor peerId with
  | (.ok route, t) => t.sendWireToRoute env route.routeKey data
  | (.error e, t) => .fail t e

/-- `send_raw_to_addr`. -/
def sendRawToAddr (t : Transport) (env : Env) (data : List UInt8) (addr : SocketAddr) :
    Outcome Transport :=
  match env.sendTo addr with
  | .ok () => ⟨t, [.toAddr addr data], .ok ()⟩
  | .error e => .fail t e

/-- `try_send_wire`. -/
def trySendWire (t : Transport) (peerId : PeerId) (data : List UInt8) : Transport :=
  { t with outbound := t.outbound ++ [.peerPacket peerId data] }

/-- `try_send_wire_to_route`. -/
def trySendWireToRoute (t : Transport) (routeKey : RouteKey) (data : List UInt8) : Transport :=
  { t with outbound := t.outbound ++ [.routePacket routeKey data] }

/-- One turn of the loop of `start_core_sender`, `none` when the queue is empty. -/
def coreSend (t : Transport) (env : Env) : Option (Outcome Transport) :=
  match t.outbound with
  | [] => none
  | .peerPacket dest data :: rest => some ({ t with outbound := rest }.sendWire env dest data)
  | .routePacket routeKey data :: rest =>
      some ({ t with outbound := rest }.sendWireToRoute env routeKey data)

/-- `confirm_route`. -/
def confirmRoute (t : Transport) (env : Env) (peerId : PeerId) (routeKey : RouteKey)
    (metric : UInt8) : Transport :=
  { t with routes := (t.routes.addRoute env.instant peerId (.fromDefaultRt routeKey metric)).2 }

/-- `update_route_read_time`. -/
def updateRouteReadTime (t : Transport) (env : Env) (peerId : PeerId) (routeKey : RouteKey) :
    Transport :=
  { t with routes := t.routes.updateReadTime env.instant peerId routeKey }

/-- `update_route_rtt`. -/
def updateRouteRtt (t : Transport) (peerId : PeerId) (routeKey : RouteKey) (rtt : UInt32) :
    Transport :=
  { t with routes := t.routes.updateRtt peerId routeKey rtt }

/-- What `upsert_peer_info` keeps of the entry it replaces. -/
def mergePeer (merged existing : PeerInfo) : PeerInfo :=
  let addrs := existing.addrs.foldl
    (fun addrs addr => if ¬ addr.ip.isUnspecified ∧ addr ∉ addrs then addrs ++ [addr] else addrs)
    merged.addrs
  let isDirect := merged.isDirect || existing.isDirect
  { merged with
    addrs := addrs
    isDirect := isDirect
    relayHint := if isDirect then none else merged.relayHint <|> existing.relayHint
    natInfo := merged.natInfo <|> existing.natInfo }

/-- `upsert_peer_info`. -/
def upsertPeerInfo (t : Transport) (env : Env) (peer : PeerInfo) : Transport :=
  if peer.peerId = t.peerId then t
  else
    let merged := { peer with
      lastSeen := env.nowMillis
      addrs := peer.addrs.filter fun a => ¬ a.ip.isUnspecified }
    let merged := match t.peers.get peer.peerId with
      | some existing => mergePeer merged existing
      | none => merged
    { t with peers := t.peers.insert merged.peerId merged }

/-- The peer as `confirm_peer_route` stores it: a direct peer keeps its socket
address, and a relayed peer points at the relay. -/
def confirmedPeer (t : Transport) (peer : PeerInfo) (routeKey : RouteKey) (metric : UInt8) :
    PeerInfo :=
  if metric = 0 then
    { peer with
      isDirect := true
      relayHint := none
      addrs := if routeKey.peerAddr ∈ peer.addrs then peer.addrs
        else peer.addrs ++ [routeKey.peerAddr] }
  else
    { peer with
      isDirect := false
      addrs := []
      relayHint := peer.relayHint <|> t.routeToId routeKey }

/-- `confirm_peer_route`. -/
def confirmPeerRoute (t : Transport) (env : Env) (peer : PeerInfo) (routeKey : RouteKey)
    (metric : UInt8) : Transport :=
  (t.confirmRoute env peer.peerId routeKey metric).upsertPeerInfo env
    (t.confirmedPeer peer routeKey metric)

/-! ## What happens to the routes and the peers -/

/-- The peer has a confirmed route with this key and metric. -/
def HasRoute (t : Transport) (p : PeerId) (k : RouteKey) (m : UInt8) : Prop := t.routes.Has p k m

instance (t : Transport) (p : PeerId) (k : RouteKey) (m : UInt8) : Decidable (t.HasRoute p k m) :=
  inferInstanceAs (Decidable (t.routes.Has p k m))

/-- The same confirmed routes, up to order, read times and round trips. -/
def SameRoutes (t t' : Transport) : Prop := ∀ p k m, t'.HasRoute p k m ↔ t.HasRoute p k m

theorem SameRoutes.refl (t : Transport) : SameRoutes t t := fun _ _ _ => Iff.rfl

theorem SameRoutes.trans {t u v : Transport} (h : SameRoutes t u) (h' : SameRoutes u v) :
    SameRoutes t v := fun p k m => (h' p k m).trans (h p k m)

/-- The same node at the same address, with the same peers, the same information about
them and the same confirmed routes. -/
structure SameStores (t t' : Transport) : Prop where
  peerId : t'.peerId = t.peerId
  localAddr : t'.localAddr = t.localAddr
  peers : ∀ p, t'.peers.get p = t.peers.get p
  routed : ∀ p, t'.routes.exists_ p = t.routes.exists_ p
  routes : SameRoutes t t'

theorem SameStores.refl (t : Transport) : SameStores t t :=
  ⟨rfl, rfl, fun _ => rfl, fun _ => rfl, .refl t⟩

theorem SameStores.trans {t u v : Transport} (h : SameStores t u) (h' : SameStores u v) :
    SameStores t v where
  peerId := h'.peerId.trans h.peerId
  localAddr := h'.localAddr.trans h.localAddr
  peers p := (h'.peers p).trans (h.peers p)
  routed p := (h'.routed p).trans (h.routed p)
  routes := h.routes.trans h'.routes

/-- A change of the outbound queue. -/
theorem sameStores_outbound (t : Transport) (outbound : List CoreOutboundPacket) :
    SameStores t { t with outbound := outbound } := ⟨rfl, rfl, fun _ => rfl, fun _ => rfl, .refl t⟩

theorem sameStores_routeFor (t : Transport) (p : PeerId) : SameStores t (t.routeFor p).2 where
  peerId := rfl
  localAddr := rfl
  peers _ := rfl
  routed q := RouteTable.exists_getRouteById t.routes p q
  routes _ _ _ := RouteTable.has_getRouteById

theorem hasRoute_of_routeFor {t : Transport} {p : PeerId} {r : Route}
    (h : (t.routeFor p).1 = .ok r) : t.HasRoute p r.routeKey r.metric :=
  RouteTable.has_of_getRouteById h

@[simp] theorem sendWireToRoute_state (t : Transport) (env : Env) (k : RouteKey)
    (data : List UInt8) : (t.sendWireToRoute env k data).state = t := by
  simp only [sendWireToRoute]
  split <;> rfl

/-- Over a route, the bytes themselves are sent or nothing is. -/
theorem effects_sendWireToRoute {t : Transport} {env : Env} {k : RouteKey} {data : List UInt8}
    {e : Effect} (h : e ∈ (t.sendWireToRoute env k data).effects) : e = .toRoute k data := by
  simp only [sendWireToRoute] at h
  split at h
  next => exact List.mem_singleton.mp h
  next => exact absurd h List.not_mem_nil

theorem sendWire_state (t : Transport) (env : Env) (p : PeerId) (data : List UInt8) :
    (t.sendWire env p data).state = (t.routeFor p).2 := by
  simp only [sendWire]
  split
  next h => rw [sendWireToRoute_state, h]
  next h => rw [Outcome.fail_state, h]

theorem sameStores_sendWire (t : Transport) (env : Env) (p : PeerId) (data : List UInt8) :
    SameStores t (t.sendWire env p data).state := by
  rw [sendWire_state]
  exact sameStores_routeFor t p

/-- Towards a peer, the bytes themselves are sent over one of its routes, or
nothing is. -/
theorem effects_sendWire {t : Transport} {env : Env} {p : PeerId} {data : List UInt8} {e : Effect}
    (h : e ∈ (t.sendWire env p data).effects) :
    ∃ k m, t.HasRoute p k m ∧ e = .toRoute k data := by
  simp only [sendWire] at h
  split at h
  next route _ heq =>
    exact ⟨route.routeKey, route.metric, hasRoute_of_routeFor (by rw [heq]),
      effects_sendWireToRoute h⟩
  next => exact absurd h List.not_mem_nil

@[simp] theorem sendRawToAddr_state (t : Transport) (env : Env) (data : List UInt8)
    (addr : SocketAddr) : (t.sendRawToAddr env data addr).state = t := by
  simp only [sendRawToAddr]
  split <;> rfl

theorem sameStores_coreSend {t : Transport} {env : Env} {o : Outcome Transport}
    (h : t.coreSend env = some o) : SameStores t o.state := by
  simp only [coreSend] at h
  split at h
  next => cases h
  next =>
    cases h
    exact (sameStores_outbound t _).trans (sameStores_sendWire _ env _ _)
  next =>
    cases h
    rw [sendWireToRoute_state]
    exact sameStores_outbound t _

theorem sameStores_updateRouteReadTime (t : Transport) (env : Env) (p : PeerId) (k : RouteKey) :
    SameStores t (t.updateRouteReadTime env p k) where
  peerId := rfl
  localAddr := rfl
  peers _ := rfl
  routed q := RouteTable.exists_updateReadTime t.routes env.instant p q k
  routes _ _ _ := RouteTable.has_updateReadTime

theorem sameStores_updateRouteRtt (t : Transport) (p : PeerId) (k : RouteKey) (rtt : UInt32) :
    SameStores t (t.updateRouteRtt p k rtt) where
  peerId := rfl
  localAddr := rfl
  peers _ := rfl
  routed q := RouteTable.exists_updateRtt t.routes p q k rtt
  routes _ _ _ := RouteTable.has_updateRtt

@[simp] theorem upsertPeerInfo_routes (t : Transport) (env : Env) (peer : PeerInfo) :
    (t.upsertPeerInfo env peer).routes = t.routes := by
  simp only [upsertPeerInfo]
  split <;> rfl

@[simp] theorem upsertPeerInfo_peerId (t : Transport) (env : Env) (peer : PeerInfo) :
    (t.upsertPeerInfo env peer).peerId = t.peerId := by
  simp only [upsertPeerInfo]
  split <;> rfl

theorem sameRoutes_upsertPeerInfo (t : Transport) (env : Env) (peer : PeerInfo) :
    SameRoutes t (t.upsertPeerInfo env peer) := by
  intro p k m
  rw [HasRoute, upsertPeerInfo_routes, HasRoute]

/-- A node stores nothing about itself. -/
theorem upsertPeerInfo_self {t : Transport} {peer : PeerInfo} (env : Env)
    (h : peer.peerId = t.peerId) : t.upsertPeerInfo env peer = t := by
  simp only [upsertPeerInfo, h, if_true]

theorem get_upsertPeerInfo_of_ne {t : Transport} {peer : PeerInfo} (env : Env) {p : PeerId}
    (h : p ≠ peer.peerId) : (t.upsertPeerInfo env peer).peers.get p = t.peers.get p := by
  simp only [upsertPeerInfo]
  split
  next => rfl
  next =>
    split
    next => exact (DashMap.get_insert _ _ _ _).trans (if_neg h)
    next => exact (DashMap.get_insert _ _ _ _).trans (if_neg h)

/-- What is stored about another peer: it is direct if it says so or was before, and
then a relay is kept only at the first time. -/
theorem get_upsertPeerInfo {t : Transport} {peer : PeerInfo} (env : Env)
    (h : peer.peerId ≠ t.peerId) :
    ∃ merged, (t.upsertPeerInfo env peer).peers.get peer.peerId = some merged ∧
      merged.isDirect = (peer.isDirect || (t.peers.get peer.peerId).any PeerInfo.isDirect) ∧
      (merged.isDirect = true → merged.relayHint =
        if (t.peers.get peer.peerId).isSome then none else peer.relayHint) := by
  simp only [upsertPeerInfo, h, if_false]
  cases hexisting : t.peers.get peer.peerId with
  | none => exact ⟨_, DashMap.get_insert_self _ _ _, by simp, fun _ => rfl⟩
  | some existing =>
      refine ⟨_, DashMap.get_insert_self _ _ _, rfl, ?_⟩
      intro hdirect
      exact if_pos hdirect

@[simp] theorem confirmedPeer_peerId (t : Transport) (peer : PeerInfo) (key : RouteKey)
    (metric : UInt8) : (t.confirmedPeer peer key metric).peerId = peer.peerId := by
  simp only [confirmedPeer]
  split <;> rfl

/-- Only a direct confirmation stores a direct peer, and it names no relay. -/
theorem isDirect_confirmedPeer {t : Transport} {peer : PeerInfo} {key : RouteKey} {metric : UInt8}
    (h : (t.confirmedPeer peer key metric).isDirect = true) :
    metric = 0 ∧ (t.confirmedPeer peer key metric).relayHint = none := by
  simp only [confirmedPeer] at h ⊢
  split at h
  next direct => exact ⟨direct, by rw [if_pos direct]⟩
  next => cases h

theorem hasRoute_confirmPeerRoute_iff {t : Transport} {env : Env} {peer : PeerInfo}
    {key : RouteKey} {metric : UInt8} {p : PeerId} {k : RouteKey} {m : UInt8} :
    (t.confirmPeerRoute env peer key metric).HasRoute p k m ↔
      (t.routes.addRoute env.instant peer.peerId (.fromDefaultRt key metric)).2.Has p k m := by
  rw [HasRoute, confirmPeerRoute, upsertPeerInfo_routes, confirmRoute]

/-- Every route after `confirm_peer_route` was there before, or is the one
confirmed. -/
theorem hasRoute_confirmPeerRoute {t : Transport} {env : Env} {peer : PeerInfo} {key : RouteKey}
    {metric : UInt8} {p : PeerId} {k : RouteKey} {m : UInt8}
    (h : (t.confirmPeerRoute env peer key metric).HasRoute p k m) :
    t.HasRoute p k m ∨ p = peer.peerId ∧ k = key ∧ m = metric :=
  RouteTable.has_addRoute (hasRoute_confirmPeerRoute_iff.mp h)

/-- A confirmed direct route is in the table. -/
theorem hasRoute_confirmPeerRoute_self (t : Transport) (env : Env) (peer : PeerInfo)
    (key : RouteKey) : (t.confirmPeerRoute env peer key 0).HasRoute peer.peerId key 0 :=
  hasRoute_confirmPeerRoute_iff.mpr (RouteTable.has_addRoute_self rfl)

/-- A direct route is never lost to a confirmation. -/
theorem HasRoute.confirmPeerRoute {t : Transport} {env : Env} {peer : PeerInfo} {key : RouteKey}
    {metric : UInt8} {p : PeerId} {k : RouteKey} (h : t.HasRoute p k 0) :
    (t.confirmPeerRoute env peer key metric).HasRoute p k 0 :=
  hasRoute_confirmPeerRoute_iff.mpr (RouteTable.Has.addRoute h)

end Transport

end RustP2p
