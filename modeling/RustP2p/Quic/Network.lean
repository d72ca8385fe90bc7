import Mathlib.Combinatorics.SimpleGraph.Metric
import RustP2p.Quic.Emission
import RustP2p.Quic.Forwarding

/-!
# A network of nodes

Nodes joined by a fixed set of direct links.  A route key of a node is one end
of a link, and the node at the other end is its neighbour there.  Every node
runs the whole of `Node.step`.  A packet arrives over a link only if the
neighbour has sent it over that link; it may be lost, delayed, repeated and
overtaken.

The *relays* of a route are the nodes between a node and a peer when the first
hop is the link of the route's key.  A path over the neighbour `q` with `d` more
links has `d` relays, so the smallest number is the distance from `q`
(`Topology.relays`).

A stored metric should not be smaller.  Two sources give metrics: the time to
live a packet has lost, which is the number of its relays, and the metric a peer
advertises, to which one is added.  The second counts the hop to the advertiser
as one, however many relays the reply came over.  `relays_le_metric` has the
condition under which every metric is sound.  Its invariant is `Sound`: besides
the routes, everything sent is honest about where it comes from and about what
it advertises.
-/

namespace RustP2p

open ProtocolLayer

/-! ## Links -/

/-- Direct links.  `link n k` is the other end of the link that has its end `k`
at `n`. -/
structure Topology where
  link : PeerId → RouteKey → Option (PeerId × RouteKey)
  symm : ∀ {n k q k'}, link n k = some (q, k') → link q k' = some (n, k)
  irrefl : ∀ {n k q k'}, link n k = some (q, k') → n ≠ q

namespace Topology

/-- The graph of the links. -/
def graph (t : Topology) : SimpleGraph PeerId where
  Adj n q := ∃ k k', t.link n k = some (q, k')
  symm := by
    constructor
    intro n q h
    obtain ⟨k, k', h⟩ := h
    exact ⟨k', k, t.symm h⟩
  loopless := by
    constructor
    intro n h
    obtain ⟨k, k', h⟩ := h
    exact t.irrefl h rfl

/-- The smallest number of relays on a path from `n` to `p` whose first hop is
the link at `k`. -/
noncomputable def relays (t : Topology) (n : PeerId) (k : RouteKey) (p : PeerId) : ℕ∞ :=
  match t.link n k with
  | none => ⊤
  | some (q, _) => t.graph.edist q p

variable {t : Topology} {n p q : PeerId} {k k' : RouteKey}

theorem relays_of_link (h : t.link n k = some (q, k')) : t.relays n k p = t.graph.edist q p := by
  simp only [relays]
  rw [h]

theorem link_of_relays_le {m : ℕ} (h : t.relays n k p ≤ m) : ∃ q k', t.link n k = some (q, k') := by
  simp only [relays] at h
  split at h
  next => exact absurd h (by simp)
  next q k' hlink => exact ⟨q, k', hlink⟩

/-- The neighbour is one link nearer, or one further away. -/
theorem edist_le_of_link (h : t.link n k = some (q, k')) {m : ℕ} (hm : t.graph.edist q p ≤ m) :
    t.graph.edist n p ≤ m + 1 := by
  have hadj : t.graph.edist n q = 1 := SimpleGraph.edist_eq_one_iff_adj.mpr ⟨k, k', h⟩
  calc t.graph.edist n p ≤ t.graph.edist n q + t.graph.edist q p := SimpleGraph.edist_triangle
    _ ≤ 1 + m := by rw [hadj]; gcongr
    _ = m + 1 := add_comm _ _

end Topology

/-! ## The network -/

/-- The nodes, by their ids. -/
abbrev Network := PeerId → Node

namespace Network

/-- The bytes an effect of a node puts on its link at `k`.  A punch may go to any
neighbour. -/
def carried (k : RouteKey) : Effect → Option (List UInt8)
  | .toRoute key data => if key = k then some data else none
  | .toAddr addr data => if k.protocol = .udp ∧ k.peerAddr = addr then some data else none
  | .punch data _ => some data

/-- The bytes may arrive at `n` over its link at `k`. -/
def arrives (t : Topology) (net : Network) (n : PeerId) (k : RouteKey) (data : List UInt8) :
    Bool :=
  match t.link n k with
  | none => false
  | some (q, k') => (net q).sent.any fun e => carried k' e = some data

/-- What can happen at a node of the network.  The core sender, which sends the
queued QUIC payloads, does not run. -/
def enabled (t : Topology) (net : Network) (n : PeerId) : Event → Bool
  | .packet _ data k => arrives t net n k data
  | .task .coreSend _ => false
  | _ => true

/-- An event at one node. -/
def step (c : Codec) (t : Topology) (net : Network) (e : PeerId × Event) : Option Network :=
  if enabled t net e.1 e.2 then
    (Node.step c (net e.1) e.2).map fun node => Function.update net e.1 node
  else none

/-- Nodes that have sent nothing yet, and whose routes are direct routes to their
neighbours. -/
structure Initial (t : Topology) (net : Network) : Prop where
  peerId : ∀ n, (net n).layer.peerId = n
  sent : ∀ n, (net n).sent = []
  idle : ∀ n, (net n).dispatcher = .idle
  direct : ∀ {n p k m}, (net n).layer.HasRoute p k m → m = 0 ∧ ∃ k', t.link n k = some (p, k')

variable {c : Codec} {t : Topology} {net net' : Network} {n q : PeerId} {k k' : RouteKey}
  {data : List UInt8} {packet : Packet}

theorem bytes_of_carried {e : Effect} (h : carried k e = some data) : e.bytes = data := by
  cases e with
  | toRoute key bytes =>
      simp only [carried] at h
      split at h <;> cases h
      rfl
  | toAddr addr bytes =>
      simp only [carried] at h
      split at h <;> cases h
      rfl
  | punch bytes natInfo => exact Option.some.inj h

/-- What arrives was sent by the neighbour. -/
theorem sent_of_arrives (h : arrives t net n k data = true) :
    ∃ q k' e, t.link n k = some (q, k') ∧ e ∈ (net q).sent ∧ e.bytes = data := by
  simp only [arrives] at h
  split at h
  next => cases h
  next q k' hlink =>
    obtain ⟨e, he, hcarried⟩ := List.any_eq_true.mp h
    exact ⟨q, k', e, hlink, he, bytes_of_carried (of_decide_eq_true hcarried)⟩

/-- A step of the network is a step of one node. -/
theorem step_eq_some {e : Event} (h : step c t net (n, e) = some net') :
    enabled t net n e = true ∧ ∃ node, Node.step c (net n) e = some node ∧
      net' = Function.update net n node := by
  simp only [step] at h
  split at h
  next henabled =>
    obtain ⟨node, hnode, rfl⟩ := Option.map_eq_some_iff.mp h
    exact ⟨henabled, node, hnode, rfl⟩
  next => cases h

/-! ## Honest packets -/

/-- What a packet says about peers is so: the ids in its payload are that of its
sender, and a peer it advertises is at most one link further from the sender
than it says. -/
structure HonestContent (c : Codec) (t : Topology) (packet : Packet) : Prop where
  hello : packet.protocol = .ok .helloReply → ∀ hello,
    decodeHelloPayload c packet.payload = .ok hello → hello.peer.peerId = packet.src ∧
      ∀ entry ∈ hello.peers,
        t.graph.edist packet.src entry.peer.peerId ≤ entry.metric.toNat + 1
  reply : packet.protocol = .ok .idRouteReply → ∀ reply,
    decodeRouteReplyPayload c packet.payload = .ok reply → ∀ entry ∈ reply.peers,
      t.graph.edist packet.src entry.peer.peerId ≤ entry.metric.toNat + 1
  punch : packet.protocol = .ok .punchRequest ∨ packet.protocol = .ok .punchReply → ∀ punch,
    decodePunchPayload c packet.payload = .ok punch → punch.src = packet.src

/-- A packet that `n` has sent, its own or another's: its metric is the number of
relays it has passed, so its sender is at most so far away from `n`. -/
structure HonestPacket (c : Codec) (t : Topology) (n : PeerId) (packet : Packet) : Prop where
  ttl : packet.ttl ≤ packet.maxTtl
  src : t.graph.edist n packet.src ≤ packet.metric.toNat
  content : HonestContent c t packet

/-- A direct packet comes from the neighbour itself. -/
theorem HonestPacket.eq_src (h : HonestPacket c t q packet) (hdirect : packet.metric = 0) :
    q = packet.src := by
  have hzero := h.src
  rw [hdirect] at hzero
  simpa using hzero

/-- Bytes that `n` may honestly send. -/
def Honest (c : Codec) (t : Topology) (n : PeerId) (data : List UInt8) : Prop :=
  ∀ packet, Packet.parse data = .ok packet → HonestPacket c t n packet

/-- Relaying keeps a packet honest: it loses one to live and comes one link
further. -/
theorem HonestPacket.forward (h : HonestPacket c t q packet)
    (hlink : t.link n k = some (q, k')) (hparse : Packet.parse data = .ok packet)
    (httl : 1 < packet.ttl) : Honest c t n (packet.setTtl (packet.ttl - 1)).buf := by
  intro packet' hparse'
  cases (Packet.parse_setTtl hparse _).symm.trans hparse'
  have hle := UInt8.le_iff_toNat_le.mp h.ttl
  have hpos : 1 < packet.ttl.toNat := by simpa [UInt8.lt_iff_toNat_lt] using httl
  have hpred : (packet.ttl - 1).toNat = packet.ttl.toNat - 1 :=
    UInt8.toNat_sub_of_le _ _ (UInt8.le_of_lt httl)
  have hmetric : packet.metric.toNat = packet.maxTtl.toNat - packet.ttl.toNat := by
    rw [Packet.metric, saturatingSub_toNat]
  refine ⟨?_, ?_, ?_⟩
  · rw [UInt8.le_iff_toNat_le, Packet.setTtl_ttl, Packet.setTtl_maxTtl]
    omega
  · have hdist := Topology.edist_le_of_link hlink h.src
    have hsum : packet.metric.toNat + 1 =
        (packet.setTtl (packet.ttl - 1)).metric.toNat := by
      rw [metric_setTtl]
      omega
    rw [Packet.setTtl_src, ← hsum]
    exact_mod_cast hdist
  · obtain ⟨hello, reply, punch⟩ := h.content
    constructor
    · simpa using hello
    · simpa using reply
    · simpa using punch

/-- Every advertised peer is the layer itself or has a route with the metric. -/
theorem mem_discoveryEntries {l : ProtocolLayer} {env : Env} {requester : PeerId}
    {entry : RouteEntry} (h : entry ∈ l.discoveryEntries env requester) :
    entry.peer.peerId = l.peerId ∨ ∃ k, l.HasRoute entry.peer.peerId k entry.metric := by
  rcases ProtocolLayer.head_of_discoveryEntries h with hself | ⟨route, hroute, hmetric⟩
  · exact Or.inl hself
  · exact Or.inr ⟨route.routeKey, route, List.mem_of_mem_head? hroute, rfl, hmetric⟩

/-- What a layer advertises is honest if its routes are sound. -/
theorem edist_discoveryEntries {l : ProtocolLayer}
    (hroutes : ∀ {p k m}, l.HasRoute p k m → t.relays l.peerId k p ≤ m.toNat) {env : Env}
    {requester : PeerId} {entry : RouteEntry} (h : entry ∈ l.discoveryEntries env requester) :
    t.graph.edist l.peerId entry.peer.peerId ≤ entry.metric.toNat + 1 := by
  rcases mem_discoveryEntries h with hself | ⟨k, hroute⟩
  · rw [hself, SimpleGraph.edist_self]
    exact zero_le
  · have hrelays := hroutes hroute
    obtain ⟨q, k', hlink⟩ := Topology.link_of_relays_le hrelays
    rw [Topology.relays_of_link hlink] at hrelays
    exact Topology.edist_le_of_link hlink hrelays

/-- A packet of its own is honest if the routes of the layer are sound. -/
theorem honest_of_originates (hc : c.Faithful) {l : ProtocolLayer}
    (hroutes : ∀ {p k m}, l.HasRoute p k m → t.relays l.peerId k p ≤ m.toNat)
    (h : Originates c l data) : Honest c t l.peerId data := by
  obtain ⟨protocol, dest, payload, packet, hbuild, rfl, hcontent⟩ := h
  intro packet' hparse'
  cases (Packet.parse_build hbuild).symm.trans hparse'
  obtain ⟨hsrc, -, hpayload, hmax, httl, -, htype⟩ := Packet.build_fields hbuild
  refine ⟨UInt8.le_of_eq (httl.trans hmax.symm), ?_, ?_⟩
  · rw [hsrc, SimpleGraph.edist_self]
    exact zero_le
  · constructor
    · intro hprotocol hello hdecode
      cases htype.symm.trans hprotocol
      rw [hpayload] at hdecode
      rw [hsrc]
      cases hcontent with
      | helloReply env requester observed =>
          obtain ⟨hpeer, hentries⟩ := decodeHelloPayload_encode hc hdecode
          refine ⟨hpeer, fun entry hentry => ?_⟩
          obtain ⟨entry', hmem, hid, hmetric⟩ := hentries entry hentry
          rw [hid, hmetric]
          exact edist_discoveryEntries hroutes hmem
      | punch type => simp at type
      | plain type => cases type
    · intro hprotocol reply hdecode entry hentry
      cases htype.symm.trans hprotocol
      rw [hpayload] at hdecode
      rw [hsrc]
      cases hcontent with
      | idRouteReply env requester =>
          obtain ⟨entry', hmem, hid, hmetric⟩ := decodeRouteReplyPayload_encode hc hdecode hentry
          rw [hid, hmetric]
          exact edist_discoveryEntries hroutes hmem
      | punch type => simp at type
      | plain type => cases type
    · intro hprotocol punch hdecode
      rw [hpayload] at hdecode
      rw [hsrc]
      rw [htype] at hprotocol
      cases hcontent with
      | helloReply => simp at hprotocol
      | idRouteReply => simp at hprotocol
      | punch _ src => exact (decodePunchPayload_encode hc hdecode).trans src
      | plain type =>
          simp only [Except.ok.injEq] at hprotocol
          rcases hprotocol with rfl | rfl <;> cases type

/-! ## Ingesting entries -/

/-- The entries that a layer ingests from a packet. -/
def ingested (c : Codec) (l : ProtocolLayer) (packet : Packet) : List RouteEntry :=
  let entries := match packet.protocol with
    | .ok .helloReply =>
        match decodeHelloPayload c packet.payload with
        | .ok hello => hello.peers
        | .error _ => []
    | .ok .idRouteReply =>
        match decodeRouteReplyPayload c packet.payload with
        | .ok reply => reply.peers
        | .error _ => []
    | _ => []
  entries.filter fun entry => entry.peer.peerId ≠ l.peerId ∧ ¬ entry.peer.peerId.isUnspecified

/-- The metric that ingesting stores for an entry covers the relays of the
packet.  Either the packet came directly and the metric has room for one more
hop, or the entry is about the sender itself. -/
def covers (packet : Packet) (entry : RouteEntry) : Bool :=
  (packet.metric = 0 ∧ entry.metric < 255) ∨
    (entry.peer.peerId = packet.src ∧ packet.metric ≤ saturatingAdd entry.metric 1)

/-- If the event handles a packet for its node, every entry it ingests is
covered. -/
def coversAt (c : Codec) (net : Network) (e : PeerId × Event) : Bool :=
  match e.2 with
  | .packet _ data _ =>
      match (net e.1).layer.screen data with
      | .ok (some packet) =>
          !(net e.1).layer.isLocal packet ||
            (ingested c (net e.1).layer packet).all (covers packet)
      | _ => true
  | _ => true

theorem mem_ingested_hello {l : ProtocolLayer} {hello : HelloPayload} {entry : RouteEntry}
    (type : packet.protocol = .ok .helloReply)
    (payload : decodeHelloPayload c packet.payload = .ok hello) (hentry : entry ∈ hello.peers)
    (hself : entry.peer.peerId ≠ l.peerId) (hspecified : entry.peer.peerId.isUnspecified = false) :
    entry ∈ ingested c l packet := by
  simp [ingested, type, payload, hentry, hself, hspecified]

theorem mem_ingested_reply {l : ProtocolLayer} {reply : RouteReplyPayload} {entry : RouteEntry}
    (type : packet.protocol = .ok .idRouteReply)
    (payload : decodeRouteReplyPayload c packet.payload = .ok reply)
    (hentry : entry ∈ reply.peers) (hself : entry.peer.peerId ≠ l.peerId)
    (hspecified : entry.peer.peerId.isUnspecified = false) : entry ∈ ingested c l packet := by
  simp [ingested, type, payload, hentry, hself, hspecified]

/-- At a handled packet the condition is about each entry. -/
theorem covers_of_coversAt {env : Env} (h : coversAt c net (n, .packet env data k) = true)
    (hscreen : (net n).layer.screen data = .ok (some packet))
    (hlocal : (net n).layer.isLocal packet = true) {entry : RouteEntry}
    (hentry : entry ∈ ingested c (net n).layer packet) : covers packet entry = true := by
  simp only [coversAt, hscreen, hlocal, Bool.not_true, Bool.false_or, List.all_eq_true] at h
  exact h entry hentry

/-- The metric that is stored for a covered entry is sound. -/
theorem edist_of_covers (h : HonestPacket c t q packet) {entry : RouteEntry}
    (hentry : t.graph.edist packet.src entry.peer.peerId ≤ entry.metric.toNat + 1)
    (hcovers : covers packet entry = true) :
    t.graph.edist q entry.peer.peerId ≤ (saturatingAdd entry.metric 1).toNat := by
  rcases of_decide_eq_true hcovers with ⟨hdirect, hroom⟩ | ⟨hself, hmetric⟩
  · have hstored : (saturatingAdd entry.metric 1).toNat = entry.metric.toNat + 1 := by
      have hlt : entry.metric.toNat < 255 := by simpa [UInt8.lt_iff_toNat_lt] using hroom
      rw [saturatingAdd_toNat, UInt8.toNat_one]
      omega
    rw [h.eq_src hdirect, hstored]
    exact_mod_cast hentry
  · rw [hself]
    refine h.src.trans ?_
    exact_mod_cast UInt8.le_iff_toNat_le.mp hmetric

/-- A route that an honest packet from the neighbour `q` adds is sound. -/
theorem edist_of_confirmed {l : ProtocolLayer} (h : HonestPacket c t q packet)
    (hcovers : ∀ entry ∈ ingested c l packet, covers packet entry = true) {p : PeerId} {m : UInt8}
    (hconfirmed : Confirmed c l packet k p m) : t.graph.edist q p ≤ m.toNat := by
  have hdirect (hmetric : packet.metric = 0) : t.graph.edist q packet.src ≤ (0 : UInt8).toNat := by
    rw [h.eq_src hmetric, SimpleGraph.edist_self]
    exact zero_le
  cases hconfirmed with
  | helloRequest type direct => exact hdirect direct
  | helloReply type payload direct pending =>
      rw [(h.content.hello type _ payload).1]
      exact hdirect direct
  | tcp type direct tcp => exact hdirect direct
  | punchRequest type payload direct fresh =>
      rw [h.content.punch (Or.inl type) _ payload]
      exact hdirect direct
  | punchReply type payload direct fresh pending =>
      rw [h.content.punch (Or.inr type) _ payload]
      exact hdirect direct
  | natObserveReply type direct => exact hdirect direct
  | relay type relayed => exact h.src
  | advertised type payload entry =>
      obtain ⟨item, hitem, rfl, hself, hspecified, rfl⟩ := entry
      exact edist_of_covers h (h.content.reply type _ payload item hitem)
        (hcovers item (mem_ingested_reply type payload hitem hself hspecified))

/-! ## Soundness of whole runs -/

/-- The invariant of a run. -/
structure Sound (c : Codec) (t : Topology) (net : Network) : Prop where
  peerId : ∀ n, (net n).layer.peerId = n
  routes : ∀ {n p k m}, (net n).layer.HasRoute p k m → t.relays n k p ≤ m.toNat
  sent : ∀ {n e}, e ∈ (net n).sent → Honest c t n e.bytes
  /-- The entries a node still has to ingest. -/
  ingesting : ∀ {n item entries via}, (net n).dispatcher = .sendingHello item entries via →
    ∀ {p m}, Advertised n entries p m → t.relays n via p ≤ m.toNat

theorem sound_initial (h : Initial t net) : Sound c t net where
  peerId := h.peerId
  routes := by
    intro n p k m hroute
    obtain ⟨rfl, k', hlink⟩ := h.direct hroute
    rw [Topology.relays_of_link hlink, SimpleGraph.edist_self]
    exact zero_le
  sent := by
    intro n e he
    rw [h.sent] at he
    cases he
  ingesting := by
    intro n item entries via hsending
    rw [h.idle] at hsending
    cases hsending

/-- An honest packet that arrives, once it is admitted. -/
theorem Sound.honestPacket (h : Sound c t net) (harrives : arrives t net n k data = true)
    (hscreen : (net n).layer.screen data = .ok (some packet)) :
    ∃ q k', t.link n k = some (q, k') ∧ Packet.parse data = .ok packet ∧
      HonestPacket c t q packet := by
  obtain ⟨q, k', e, hlink, he, rfl⟩ := sent_of_arrives harrives
  obtain ⟨-, hparse, -⟩ := screen_eq_some.mp hscreen
  exact ⟨q, k', hlink, hparse, h.sent he packet hparse⟩

/-- The routes of the node that took the step are sound. -/
theorem Sound.routes_step (h : Sound c t net) {e : Event} (henabled : enabled t net n e = true)
    (hcovers : coversAt c net (n, e) = true) {node : Node}
    (hnode : Node.step c (net n) e = some node) {p : PeerId} {m : UInt8}
    (hroute : node.layer.HasRoute p k m) : t.relays n k p ≤ m.toNat := by
  rcases (Node.adds_step hnode).back hroute with hold | hnew
  · exact h.routes hold
  · cases hnew with
    | packet admitted isLocal confirmed =>
        obtain ⟨q, k', hlink, -, hhonest⟩ := h.honestPacket henabled admitted
        rw [Topology.relays_of_link hlink]
        exact edist_of_confirmed hhonest
          (fun entry hentry => covers_of_coversAt hcovers admitted isLocal hentry) confirmed
    | advertised sending entry =>
        rw [h.peerId] at entry
        exact h.ingesting sending entry

/-- So is what it has to ingest. -/
theorem Sound.ingesting_step (h : Sound c t net) {e : Event}
    (henabled : enabled t net n e = true) (hcovers : coversAt c net (n, e) = true) {node : Node}
    (hnode : Node.step c (net n) e = some node) {item : HelloItem} {entries : List RouteEntry}
    {via : RouteKey} (hsending : node.dispatcher = .sendingHello item entries via) {p : PeerId}
    {m : UInt8} (hentry : Advertised n entries p m) : t.relays n via p ≤ m.toNat := by
  rcases Node.dispatcher_step hnode hsending with hold | ⟨env, data, packet, hello, rfl, hscreen,
    hlocal, htype, hdecode, rfl⟩
  · exact h.ingesting hold hentry
  · obtain ⟨q, k', hlink, -, hhonest⟩ := h.honestPacket henabled hscreen
    obtain ⟨entry, hmem, rfl, hself, hspecified, rfl⟩ := hentry
    rw [Topology.relays_of_link hlink]
    refine edist_of_covers hhonest ((hhonest.content.hello htype hello hdecode).2 entry hmem)
      (covers_of_coversAt hcovers hscreen hlocal
        (mem_ingested_hello htype hdecode hmem ?_ hspecified))
    rw [h.peerId]
    exact hself

/-- And everything it has sent is honest. -/
theorem Sound.sent_step (h : Sound c t net) (hc : c.Faithful) {e : Event}
    (henabled : enabled t net n e = true) (hcovers : coversAt c net (n, e) = true) {node : Node}
    (hnode : Node.step c (net n) e = some node) {x : Effect} (hx : x ∈ node.sent) :
    Honest c t n x.bytes := by
  rcases Node.sent_step hnode hx with hold | hown | hrelayed | ⟨env, rfl⟩
  · exact h.sent hold
  · have hself : node.layer.peerId = n := (Node.adds_step hnode).peerId.trans (h.peerId n)
    have hhonest : Honest c t node.layer.peerId x.bytes := by
      refine honest_of_originates hc ?_ hown
      intro p k m hroute
      rw [hself]
      exact h.routes_step henabled hcovers hnode hroute
    rwa [hself] at hhonest
  · obtain ⟨env, data, key, packet, rfl, hscreen, httl, hbytes⟩ := hrelayed
    obtain ⟨q, k', hlink, hparse, hhonest⟩ := h.honestPacket henabled hscreen
    rw [hbytes]
    exact hhonest.forward hlink hparse httl
  · cases henabled

theorem Sound.step (h : Sound c t net) (hc : c.Faithful) {e : PeerId × Event}
    (hcovers : coversAt c net e = true) (hstep : step c t net e = some net') : Sound c t net' := by
  obtain ⟨n, e⟩ := e
  obtain ⟨henabled, node, hnode, rfl⟩ := step_eq_some hstep
  have hother {n' : PeerId} (hne : n' ≠ n) : Function.update net n node n' = net n' :=
    Function.update_of_ne hne node net
  have hself : Function.update net n node n = node := Function.update_self n node net
  constructor
  · intro n'
    by_cases hn : n' = n
    · subst hn
      rw [hself, (Node.adds_step hnode).peerId, h.peerId]
    · rw [hother hn, h.peerId]
  · intro n' p k m hroute
    by_cases hn : n' = n
    · subst hn
      rw [hself] at hroute
      exact h.routes_step henabled hcovers hnode hroute
    · rw [hother hn] at hroute
      exact h.routes hroute
  · intro n' x hx
    by_cases hn : n' = n
    · subst hn
      rw [hself] at hx
      exact h.sent_step hc henabled hcovers hnode hx
    · rw [hother hn] at hx
      exact h.sent hx
  · intro n' item entries via hsending p m hentry
    by_cases hn : n' = n
    · subst hn
      rw [hself] at hsending
      exact h.ingesting_step henabled hcovers hnode hsending hentry
    · rw [hother hn] at hsending
      exact h.ingesting hsending hentry

/-- In a run in which every ingested entry is covered, no route of any node has a
metric below the number of relays that its first hop needs. -/
theorem relays_le_metric (hc : c.Faithful) {net₀ : Network} (hinitial : Initial t net₀)
    {es : List (PeerId × Event)} (hrun : Transition.run (step c t) net₀ es = some net)
    (hcovers : Transition.Along (step c t) (fun net e => coversAt c net e = true) net₀ es)
    {p : PeerId} {m : UInt8} (hroute : (net n).layer.HasRoute p k m) :
    t.relays n k p ≤ m.toNat := by
  have hsound : Sound c t net :=
    Transition.run_invariant_along (fun _ _ _ hcovers hstep h => h.step hc hcovers hstep) hrun
      hcovers (sound_initial hinitial)
  exact hsound.routes hroute

/-! ## A chain of four nodes -/

/-- The addresses of the nodes `a`, `b`, `c` and `d`, which have the numbers one to
four. -/
def chainAddr (i : UInt8) : SocketAddr := .v4 ⟨10, 0, 0, i⟩ 5000

/-- The key under which its neighbours have the node with this number. -/
def chainKey (i : UInt8) : RouteKey := ⟨.udp, .v4 .unspecified 5000, chainAddr i⟩

/-- The links, each from both its ends. -/
def chainLinks : List ((PeerId × RouteKey) × (PeerId × RouteKey)) :=
  [((⟨"a"⟩, chainKey 2), (⟨"b"⟩, chainKey 1)), ((⟨"b"⟩, chainKey 1), (⟨"a"⟩, chainKey 2)),
    ((⟨"b"⟩, chainKey 3), (⟨"c"⟩, chainKey 2)), ((⟨"c"⟩, chainKey 2), (⟨"b"⟩, chainKey 3)),
    ((⟨"c"⟩, chainKey 4), (⟨"d"⟩, chainKey 3)), ((⟨"d"⟩, chainKey 3), (⟨"c"⟩, chainKey 4))]

/-- The other end of a link of the chain. -/
def chainLink (n : PeerId) (k : RouteKey) : Option (PeerId × RouteKey) :=
  (chainLinks.find? fun e => e.1 = (n, k)).map Prod.snd

theorem mem_chainLinks (h : chainLink n k = some (q, k')) : ((n, k), (q, k')) ∈ chainLinks := by
  obtain ⟨⟨near, far⟩, hfind, rfl⟩ := Option.map_eq_some_iff.mp h
  have hnear : near = (n, k) := by simpa using List.find?_some hfind
  rw [← hnear]
  exact List.mem_of_find?_eq_some hfind

/-- The chain `a`, `b`, `c`, `d`. -/
def chain : Topology where
  link := chainLink
  symm := by
    intro n k q k' h
    have hlinks : ∀ e ∈ chainLinks, chainLink e.2.1 e.2.2 = some e.1 := by decide
    exact hlinks _ (mem_chainLinks h)
  irrefl := by
    intro n k q k' h
    have hlinks : ∀ e ∈ chainLinks, e.1.1 ≠ e.2.1 := by decide
    exact hlinks _ (mem_chainLinks h)

/-- The direct route to a neighbour is confirmed. -/
def meet (l : ProtocolLayer) (neighbour : PeerId × UInt8) : ProtocolLayer :=
  l.confirmPeerRoute (Env.atMillis 1) ⟨neighbour.1, [], none, 1, false, none⟩
    (chainKey neighbour.2) 0

/-- A node with direct routes to its neighbours. -/
def chainNode (id : PeerId) (i : UInt8) (neighbours : List (PeerId × UInt8)) : Node :=
  let node := Startup.node ⟨id, chainAddr i, .v4 .unspecified 5000, none, .minHopLowestLatency, 3,
    none, [], .default⟩
  { node with layer := neighbours.foldl meet node.layer }

/-- The neighbours of a node, with their numbers. -/
def chainNeighbours (id : PeerId) : List (PeerId × UInt8) :=
  if id = ⟨"a"⟩ then [(⟨"b"⟩, 2)]
  else if id = ⟨"b"⟩ then [(⟨"a"⟩, 1), (⟨"c"⟩, 3)]
  else if id = ⟨"c"⟩ then [(⟨"b"⟩, 2), (⟨"d"⟩, 4)]
  else if id = ⟨"d"⟩ then [(⟨"c"⟩, 3)]
  else []

/-- The number of a node. -/
def chainNumber (id : PeerId) : UInt8 :=
  if id = ⟨"a"⟩ then 1 else if id = ⟨"b"⟩ then 2 else if id = ⟨"c"⟩ then 3 else 4

/-- The nodes of the chain.  Other ids belong to nodes without links. -/
def chainNetwork : Network := fun id => chainNode id (chainNumber id) (chainNeighbours id)

/-- The protobuf bytes of the hello of `b`, which advertises `c`. -/
def chainHelloBytes : List UInt8 :=
  [10, 33, 10, 1, 98, 18, 13, 49, 48, 46, 48, 46, 48, 46, 50, 58, 53, 48, 48, 48, 32, 1, 40, 1,
    50, 9, 58, 7, 48, 46, 48, 46, 48, 46, 48, 18, 35, 10, 33, 10, 1, 98, 18, 13, 49, 48, 46, 48,
    46, 48, 46, 50, 58, 53, 48, 48, 48, 32, 1, 40, 1, 50, 9, 58, 7, 48, 46, 48, 46, 48, 46, 48,
    18, 24, 10, 22, 10, 1, 99, 18, 13, 49, 48, 46, 48, 46, 48, 46, 51, 58, 53, 48, 48, 48, 32, 1,
    40, 1, 26, 20, 18, 13, 49, 48, 46, 48, 46, 48, 46, 49, 58, 53, 48, 48, 48, 26, 1, 98, 32, 1]

/-- The protobuf bytes of the route reply of `c`, which advertises `d` and `b`. -/
def chainReplyBytes : List UInt8 :=
  [10, 35, 10, 33, 10, 1, 99, 18, 13, 49, 48, 46, 48, 46, 48, 46, 51, 58, 53, 48, 48, 48, 32, 1,
    40, 1, 50, 9, 58, 7, 48, 46, 48, 46, 48, 46, 48, 10, 24, 10, 22, 10, 1, 100, 18, 13, 49, 48,
    46, 48, 46, 48, 46, 52, 58, 53, 48, 48, 48, 32, 1, 40, 1, 10, 24, 10, 22, 10, 1, 98, 18, 13,
    49, 48, 46, 48, 46, 48, 46, 50, 58, 53, 48, 48, 48, 32, 1, 40, 1]

/-- The message `NatInfo` of a node that knows nothing about its NAT. -/
def chainNat : Pb.NatInfo := ⟨0, [], [], [], [], 0, "0.0.0.0", [], "", [], 0, 0, []⟩

/-- The message `PeerInfo` of a node of the chain. -/
def chainPeer (id addr : String) (natInfo : Option Pb.NatInfo) : Pb.PeerInfo :=
  ⟨id, [addr], "", 1, true, natInfo⟩

/-- A codec that knows the two messages. -/
def chainCodec : Codec :=
  { Codec.empty with
    hello := .ofTable [(⟨some (chainPeer "b" "10.0.0.2:5000" chainNat),
      [⟨some (chainPeer "b" "10.0.0.2:5000" chainNat), 0⟩,
        ⟨some (chainPeer "c" "10.0.0.3:5000" none), 0⟩],
      some ⟨0, "10.0.0.1:5000", "b", 1⟩⟩, chainHelloBytes)]
    routeReply := .ofTable [(⟨[⟨some (chainPeer "c" "10.0.0.3:5000" chainNat), 0⟩,
      ⟨some (chainPeer "d" "10.0.0.4:5000" none), 0⟩,
      ⟨some (chainPeer "b" "10.0.0.2:5000" none), 0⟩]⟩, chainReplyBytes)]
    socketAddr := .ofTable [(chainAddr 1, "10.0.0.1:5000"), (chainAddr 2, "10.0.0.2:5000"),
      (chainAddr 3, "10.0.0.3:5000"), (chainAddr 4, "10.0.0.4:5000")]
    ipv4 := .ofTable [(.unspecified, "0.0.0.0")] }

/-- A packet of the chain, with this much left to live. -/
def chainPacket (protocol : ProtocolType) (src dest : String) (ttl : UInt8)
    (payload : List UInt8) : List UInt8 :=
  match Packet.build protocol ⟨src⟩ ⟨dest⟩ 3 payload with
  | .ok packet => (packet.setTtl ttl).buf
  | .error _ => []

/-- `a` bootstraps from `b` and learns of `c`. -/
def chainHello : List (PeerId × Event) :=
  [(⟨"a"⟩, .bootstrap (chainAddr 2)),
    (⟨"a"⟩, .call 0 (.hello (Env.atMillis 1))),
    (⟨"b"⟩, .packet (Env.atMillis 1) (chainPacket .helloRequest "a" "*" 3 []) (chainKey 1)),
    (⟨"a"⟩, .packet (Env.atMillis 1) (chainPacket .helloReply "b" "a" 3 chainHelloBytes)
      (chainKey 2)),
    (⟨"a"⟩, .helloSent (Env.atMillis 1))]

/-- Then `a` asks `c` for its routes, over `b`. -/
def chainQuery : List (PeerId × Event) :=
  [(⟨"a"⟩, .task .maintain (Env.atMillis 1)),
    (⟨"a"⟩, .task .maintain (Env.atMillis 1)),
    (⟨"b"⟩, .packet (Env.atMillis 1) (chainPacket .idRouteQuery "a" "c" 3 []) (chainKey 1)),
    (⟨"c"⟩, .packet (Env.atMillis 1) (chainPacket .idRouteQuery "a" "c" 2 []) (chainKey 2)),
    (⟨"b"⟩, .packet (Env.atMillis 1) (chainPacket .idRouteReply "c" "a" 3 chainReplyBytes)
      (chainKey 3)),
    (⟨"a"⟩, .packet (Env.atMillis 1) (chainPacket .idRouteReply "c" "a" 2 chainReplyBytes)
      (chainKey 2))]

/-- The routes of a node of the chain are those to its neighbours. -/
theorem hasRoute_chainNode {id p : PeerId} {i m : UInt8} {neighbours : List (PeerId × UInt8)}
    (h : (chainNode id i neighbours).layer.HasRoute p k m) :
    m = 0 ∧ ∃ e ∈ neighbours, p = e.1 ∧ k = chainKey e.2 := by
  have hfold (l : ProtocolLayer) : (neighbours.foldl meet l).HasRoute p k m →
      l.HasRoute p k m ∨ (m = 0 ∧ ∃ e ∈ neighbours, p = e.1 ∧ k = chainKey e.2) := by
    clear h
    induction neighbours generalizing l with
    | nil => exact Or.inl
    | cons e rest ih =>
        intro h
        rcases ih _ h with hold | ⟨hm, e', he', hrest⟩
        · rcases (adds_confirmPeerRoute l _ _ _ _).back hold with hl | ⟨hp, hk, hm⟩
          · exact Or.inl hl
          · exact Or.inr ⟨hm, e, .head _, hp, hk⟩
        · exact Or.inr ⟨hm, e', .tail _ he', hrest⟩
  exact (hfold _ h).resolve_left (Startup.not_hasRoute _ p k m)

theorem peerId_chainNode (id : PeerId) (i : UInt8) (neighbours : List (PeerId × UInt8)) :
    (chainNode id i neighbours).layer.peerId = id := by
  have hfold (l : ProtocolLayer) : (neighbours.foldl meet l).peerId = l.peerId := by
    induction neighbours generalizing l with
    | nil => rfl
    | cons e rest ih => exact ih _
  exact hfold _

/-- The chain starts with the direct routes to neighbours and no others. -/
theorem initial_chainNetwork : Initial chain chainNetwork where
  peerId n := peerId_chainNode n _ _
  sent _ := rfl
  idle _ := rfl
  direct := by
    intro n p k m hroute
    obtain ⟨rfl, e, he, rfl, rfl⟩ := hasRoute_chainNode hroute
    refine ⟨rfl, ?_⟩
    have hlinks : ∀ id ∈ [(⟨"a"⟩ : PeerId), ⟨"b"⟩, ⟨"c"⟩, ⟨"d"⟩], ∀ e ∈ chainNeighbours id,
        chainLink id (chainKey e.2) = some (e.1, chainKey (chainNumber id)) := by decide
    have hmem : n ∈ [(⟨"a"⟩ : PeerId), ⟨"b"⟩, ⟨"c"⟩, ⟨"d"⟩] := by
      by_contra hn
      simp only [List.mem_cons, List.not_mem_nil, or_false, not_or] at hn
      simp only [chainNeighbours, if_neg hn.1, if_neg hn.2.1, if_neg hn.2.2.1, if_neg hn.2.2.2,
        List.not_mem_nil] at he
    exact ⟨_, hlinks n hmem e he⟩

/-- A codec with at most one message in each table is faithful. -/
theorem faithful_singleton {μ : Type} [DecidableEq μ] {m : μ} {bytes : List UInt8}
    (hbytes : bytes ≠ [0xff]) : (Message.ofTable [(m, bytes)]).Faithful := by
  intro m₁ m₂ h
  by_cases hm : m = m₁
  · subst hm
    simpa [Message.ofTable, eq_comm] using h
  · simp [Message.ofTable, hm, hbytes] at h

theorem faithful_chainCodec : chainCodec.Faithful where
  hello := faithful_singleton (by decide)
  routeReply := faithful_singleton (by decide)
  punch := by
    intro m m' h
    cases h

/-- After the hello of `b`, the metric of `a` for `c` over `b` covers the one
relay. -/
theorem relays_le_metric_hello :
    ∃ net, Transition.run (step chainCodec chain) chainNetwork chainHello = some net ∧
      (net ⟨"a"⟩).layer.HasRoute ⟨"c"⟩ (chainKey 2) 1 ∧
      chain.relays ⟨"a"⟩ (chainKey 2) ⟨"c"⟩ ≤ (1 : UInt8).toNat := by
  obtain ⟨net, hrun, hroute⟩ :
      ∃ net, Transition.run (step chainCodec chain) chainNetwork chainHello = some net ∧
        (net ⟨"a"⟩).layer.HasRoute ⟨"c"⟩ (chainKey 2) 1 := by
    decide +kernel
  have hcovers : Transition.Along (step chainCodec chain)
      (fun net e => coversAt chainCodec net e = true) chainNetwork chainHello := by
    decide +kernel
  exact ⟨net, hrun, hroute, relays_le_metric faithful_chainCodec
    initial_chainNetwork hrun hcovers hroute⟩

/-- When the reply of `c` has come over `b`, `a` takes `d` to be one relay away
over `b`.  There are two, `b` and `c`. -/
theorem metric_understates_relays :
    ¬ ∀ (c : Codec) (t : Topology) (net₀ net : Network) (es : List (PeerId × Event)) (n p : PeerId)
      (k : RouteKey) (m : UInt8), c.Faithful → Initial t net₀ →
      (∀ n k q k', t.link n k = some (q, k') → (net₀ n).layer.HasRoute q k 0) →
      Transition.run (step c t) net₀ es = some net → (net n).layer.HasRoute p k m → 0 < m →
      t.relays n k p ≤ m.toNat := by
  intro h
  obtain ⟨net, hrun, hroute⟩ :
      ∃ net, Transition.run (step chainCodec chain) chainNetwork
          (chainHello ++ chainQuery) = some net ∧
        (net ⟨"a"⟩).layer.HasRoute ⟨"d"⟩ (chainKey 2) 1 := by
    decide +kernel
  have hjoined : ∀ e ∈ chainLinks, (chainNetwork e.1.1).layer.HasRoute e.2.1 e.1.2 0 := by
    decide +kernel
  have hneighbours : ∀ n k q k', chain.link n k = some (q, k') →
      (chainNetwork n).layer.HasRoute q k 0 := by
    intro n k q k' hlink
    exact hjoined ((n, k), (q, k')) (mem_chainLinks hlink)
  have hrelays := h chainCodec chain chainNetwork net _ ⟨"a"⟩ ⟨"d"⟩ (chainKey 2) 1
    faithful_chainCodec initial_chainNetwork hneighbours hrun hroute (by decide)
  have hlink : chain.link ⟨"a"⟩ (chainKey 2) = some (⟨"b"⟩, chainKey 1) := by decide
  rw [Topology.relays_of_link hlink] at hrelays
  -- One link would have to lead from `b` to `d`.
  rcases SimpleGraph.edist_le_one_iff_adj_or_eq.mp (by exact_mod_cast hrelays) with
    ⟨k, k', hadj⟩ | heq
  · have hnone : ∀ e ∈ chainLinks, ¬ (e.1.1 = ⟨"b"⟩ ∧ e.2.1 = ⟨"d"⟩) := by decide
    exact hnone _ (mem_chainLinks hadj) ⟨rfl, rfl⟩
  · exact absurd heq (by decide)

end Network

end RustP2p
