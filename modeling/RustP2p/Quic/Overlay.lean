import RustP2p.Quic.Network
import RustP2p.Quic.NodeRoutes
import RustP2p.Quic.Authenticity

/-!
# A network whose core senders run

The network of `Network`, in which the nodes also send the QUIC payloads that wait for the
core sender.  The invariant `Network.Sound` goes through once it says that what waits is honest
too (`Sound`): the packets in the queue are the node's own, and say nothing about other peers.

Two more things that every run keeps are needed where routes are found and used
(`Discovery`, `Delivery`).  Routes stay and get no longer (`evolves_run`), and a layer that goes
by the fewest hops keeps its routes in order and knows every peer it has a route to
(`Ordered`).
-/

namespace RustP2p

open ProtocolLayer Transition

/-! ## One layer -/

namespace ProtocolLayer

variable {env : Env} {l : ProtocolLayer} {own p : PeerId}

/-- The layer knows the peer, under its id. -/
def Acquainted (l : ProtocolLayer) (p : PeerId) : Prop :=
  ∃ info, l.transport.peers.get p = some info ∧ info.peerId = p

/-- A layer that goes by the fewest hops, has its routes in order, and knows every peer it
has a route to. -/
structure Ordered (own : PeerId) (l : ProtocolLayer) : Prop where
  peerId : l.peerId = own
  transport : l.transport.peerId = own
  policy : l.transport.routes.loadBalance = .minHopLowestLatency
  sorted : ∀ p, (l.transport.routes.route p).Pairwise (RouteTable.policyLe .minHopLowestLatency)
  acquainted : ∀ {p k m}, l.HasRoute p k m → p ≠ own → l.Acquainted p

/-- A peer that was described stays known. -/
theorem acquainted_upsertPeerInfo {peer : PeerInfo} (hpeer : peer.peerId ≠ l.transport.peerId)
    (h : p = peer.peerId ∨ l.Acquainted p) : (l.upsertPeerInfo env peer).Acquainted p := by
  have hmerged (existing : PeerInfo) (peer : PeerInfo) :
      (Transport.mergePeer peer existing).peerId = peer.peerId := rfl
  simp only [Acquainted, upsertPeerInfo, Transport.upsertPeerInfo, if_neg hpeer]
  split
  next existing _ =>
    rw [DashMap.get_insert, hmerged]
    split
    next hp => exact ⟨_, rfl, (hmerged _ _).trans hp.symm⟩
    next hp => exact h.resolve_left hp
  next =>
    rw [DashMap.get_insert]
    split
    next hp => exact ⟨_, rfl, hp.symm⟩
    next hp => exact h.resolve_left hp

/-- A write leaves every routed peer known. -/
theorem acquainted_apply (w : Write) (hl : l.transport.peerId = own)
    (h : ∀ {p k m}, l.HasRoute p k m → p ≠ own → l.Acquainted p) {k : RouteKey} {m : UInt8}
    (hroute : (w.apply env l).HasRoute p k m) (hp : p ≠ own) :
    (w.apply env l).Acquainted p := by
  have hupsert (l : ProtocolLayer) (peer : PeerInfo) (hl : l.transport.peerId = own)
      (h : p = peer.peerId ∨ l.Acquainted p) : (l.upsertPeerInfo env peer).Acquainted p := by
    by_cases hpeer : peer.peerId = l.transport.peerId
    · have hself : l.upsertPeerInfo env peer = l := by
        simp only [upsertPeerInfo, Transport.upsertPeerInfo_self env hpeer]
      rw [hself]
      exact h.resolve_left fun heq => hp (heq.trans (hpeer.trans hl))
    · exact acquainted_upsertPeerInfo hpeer h
  cases w with
  | upsert peer =>
      have hold := (Transport.sameRoutes_upsertPeerInfo l.transport env peer p k m).mp hroute
      exact hupsert l peer hl (Or.inr (h hold hp))
  | confirm peer key metric =>
      refine hupsert { l with transport :=
        l.transport.confirmRoute env peer.peerId key metric } _ hl ?_
      rw [Transport.confirmedPeer_peerId]
      rcases Transport.hasRoute_confirmPeerRoute hroute with hold | ⟨hself, -⟩
      · exact Or.inr (h hold hp)
      · exact Or.inl hself
  | candidate peerId key => exact h hroute hp
  | promote peerId => exact h hroute hp

/-- The order of the routes survives what does not take routes away. -/
theorem Ordered.evolves (h : l.Ordered own) {l' : ProtocolLayer} (hevolves : Evolves l l') :
    l'.transport.routes.loadBalance = .minHopLowestLatency ∧ ∀ p,
      (l'.transport.routes.route p).Pairwise (RouteTable.policyLe .minHopLowestLatency) := by
  refine ⟨(RouteTable.Evolves.policy hevolves).trans h.policy, fun p => ?_⟩
  have hsorted := RouteTable.Evolves.pairwise hevolves (p := p) (by
    rw [h.policy]
    exact h.sorted p)
  rwa [h.policy] at hsorted

/-- Confirming a route leaves a layer in order. -/
theorem Ordered.confirmPeerRoute (h : l.Ordered own) (env : Env) (peer : PeerInfo)
    (key : RouteKey) (metric : UInt8) : (l.confirmPeerRoute env peer key metric).Ordered own := by
  obtain ⟨hpolicy, hsorted⟩ := h.evolves (evolves_confirmPeerRoute l env peer key metric)
  exact ⟨(adds_confirmPeerRoute l env peer key metric).peerId.trans h.peerId,
    (transport_peerId_apply env l (.confirm peer key metric)).trans h.transport, hpolicy, hsorted,
    fun hroute hp => acquainted_apply (.confirm peer key metric) h.transport h.acquainted hroute hp⟩

/-- A step of a node leaves its layer in order. -/
theorem Ordered.step {c : Codec} {n n' : Node} {e : Event} (h : n.layer.Ordered own)
    (hstep : Node.step c n e = some n') : n'.layer.Ordered own := by
  obtain ⟨hpolicy, hsorted⟩ := h.evolves (Node.evolves_step hstep)
  have hstores : n'.layer.transport.peerId = own ∧
      ∀ {p k m}, n'.layer.HasRoute p k m → p ≠ own → n'.layer.Acquainted p := by
    refine (Node.writes_step hstep).invariant
      (I := fun l => l.transport.peerId = own ∧
        ∀ {p k m}, l.HasRoute p k m → p ≠ own → l.Acquainted p) ?_ ?_ ⟨h.transport, h.acquainted⟩
    · rintro m m' hsame ⟨hid, hknown⟩
      refine ⟨hsame.transport.peerId.trans hid, fun {p k metric} hroute hp => ?_⟩
      simp only [Acquainted, hsame.transport.peers]
      exact hknown ((hsame.transport.routes p k metric).mp hroute) hp
    · rintro m env w - ⟨hid, hknown⟩
      exact ⟨(transport_peerId_apply env m w).trans hid,
        fun hroute hp => acquainted_apply w hid hknown hroute hp⟩
  exact ⟨(Node.adds_step hstep).peerId.trans h.peerId, hstores.1, hpolicy, hsorted, hstores.2⟩

end ProtocolLayer

/-! ## The network -/

namespace Overlay

/-- What can happen at a node.  A packet arrives only if the neighbour has sent it. -/
def enabled (t : Topology) (net : Network) (n : PeerId) : Event → Bool
  | .packet _ data k => Network.arrives t net n k data
  | _ => true

/-- An event at one node. -/
def step (c : Codec) (t : Topology) (net : Network) (e : PeerId × Event) : Option Network :=
  if enabled t net e.1 e.2 then
    (Node.step c (net e.1) e.2).map fun node => Function.update net e.1 node
  else none

variable {c : Codec} {t : Topology} {net net' : Network} {n : PeerId}
  {es : List (PeerId × Event)}

/-- A step of the network is a step of one node. -/
theorem step_eq_some {e : Event} (h : step c t net (n, e) = some net') :
    enabled t net n e = true ∧ ∃ node, Node.step c (net n) e = some node ∧
      net' = Function.update net n node := by
  simp only [step] at h
  split at h
  next henabled =>
    obtain ⟨node, hnode, rfl⟩ := Option.map_eq_some_iff.mp h
    exact ⟨henabled, node, hnode, rfl⟩
  next => cases h

/-- What holds of the node that took a step and held of the others holds of every node. -/
theorem forall_update {P : PeerId → Node → Prop} {node : Node} (hnode : P n node)
    (hold : ∀ n, P n (net n)) (n' : PeerId) : P n' (Function.update net n node n') :=
  (Function.forall_update_iff net P).mpr ⟨hnode, fun n' _ => hold n'⟩ n'

/-- A step takes no route away from any node. -/
theorem evolves_step {e : PeerId × Event} (h : step c t net e = some net') :
    ∀ n, Evolves (net n).layer (net' n).layer := by
  obtain ⟨-, node, hnode, rfl⟩ := step_eq_some (n := e.1) (e := e.2) h
  exact forall_update (P := fun n m => Evolves (net n).layer m.layer) (Node.evolves_step hnode)
    fun _ => .refl _

theorem evolves_run (h : Transition.run (step c t) net es = some net') (n : PeerId) :
    Evolves (net n).layer (net' n).layer :=
  run_invariant (I := fun m => Evolves (net n).layer (m n).layer)
    (fun _ _ _ hstep hm => hm.trans (evolves_step hstep n)) h (.refl _)

/-- And it leaves every layer in order. -/
theorem ordered_step {e : PeerId × Event} (h : step c t net e = some net')
    (hordered : ∀ n, (net n).layer.Ordered n) : ∀ n, (net' n).layer.Ordered n := by
  obtain ⟨-, node, hnode, rfl⟩ := step_eq_some (n := e.1) (e := e.2) h
  exact forall_update (P := fun n m => m.layer.Ordered n) ((hordered e.1).step hnode) hordered

theorem ordered_run (h : Transition.run (step c t) net es = some net')
    (hordered : ∀ n, (net n).layer.Ordered n) : ∀ n, (net' n).layer.Ordered n :=
  run_invariant (I := fun m => ∀ n, (m n).layer.Ordered n)
    (fun _ _ _ hstep hm => ordered_step hstep hm) h hordered

/-! ## Soundness -/

/-- `Network.Sound`, and what waits for a core sender is honest as well. -/
structure Sound (c : Codec) (t : Topology) (net : Network) : Prop extends
    Network.Sound c t net where
  queue : ∀ {n x}, x ∈ (net n).layer.queue → Network.Honest c t n x.data

/-- A QUIC payload that a node submits is wrapped in an honest packet. -/
theorem honest_of_wraps {l : ProtocolLayer} {dest : PeerId} {payload data : List UInt8}
    (h : l.Wraps dest payload data) : Network.Honest c t l.peerId data := by
  obtain ⟨packet, hbuild, rfl⟩ := h
  intro packet' hparse
  cases (Packet.parse_build hbuild).symm.trans hparse
  obtain ⟨hsrc, -, -, hmax, httl, -, htype⟩ := Packet.build_fields hbuild
  refine ⟨UInt8.le_of_eq (httl.trans hmax.symm), ?_, ?_⟩
  · rw [hsrc, SimpleGraph.edist_self]
    exact zero_le
  · constructor
    · intro hprotocol
      cases htype.symm.trans hprotocol
    · intro hprotocol
      cases htype.symm.trans hprotocol
    · intro hprotocol
      rcases hprotocol with hprotocol | hprotocol <;> cases htype.symm.trans hprotocol

/-- The core sender leaves the routes and the dispatcher alone, and sends what waits. -/
theorem coreSend_spec {env : Env} {node node' : Node}
    (h : Node.step c node (.task .coreSend env) = some node') :
    (∀ {p k m}, node'.layer.HasRoute p k m → node.layer.HasRoute p k m) ∧
      node'.dispatcher = node.dispatcher ∧
      ∀ x ∈ node'.sent, x ∈ node.sent ∨ ∃ y ∈ node.layer.queue, x.bytes = y.data := by
  refine ⟨fun hroute => ?_, ?_, fun x hx => ?_⟩
  · rcases (Node.adds_step h).back hroute with hold | hnew
    · exact hold
    · cases hnew
  · cases Node.Move.of_step h with
    | task ran => rfl
  · cases Node.Move.of_step h with
    | task ran =>
        rcases List.mem_append.mp hx with hold | hnew
        · exact Or.inl hold
        · obtain ⟨o, hsend, heq⟩ := Option.map_eq_some_iff.mp ran
          cases heq
          obtain ⟨head, rest, hqueue, -, hbytes⟩ := Transport.coreSend_spec hsend
          refine Or.inr ⟨head, ?_, hbytes x hnew⟩
          rw [ProtocolLayer.queue, hqueue]
          exact List.mem_cons_self

/-- What waits for the core sender after a step is honest. -/
theorem Sound.queue_step (h : Sound c t net) {e : Event} {node : Node}
    (hnode : Node.step c (net n) e = some node) {x : CoreOutboundPacket}
    (hx : x ∈ node.layer.queue) : Network.Honest c t n x.data := by
  rcases Node.queue_step hnode hx with hold | ⟨task, env, dest, payload, -, -, hwraps⟩
  · exact h.queue hold
  · have hhonest := honest_of_wraps (c := c) (t := t) hwraps
    rwa [h.peerId] at hhonest

theorem Sound.step (h : Sound c t net) (hc : c.Faithful) {e : PeerId × Event}
    (hcovers : Network.coversAt c net e = true) (hstep : step c t net e = some net') :
    Sound c t net' := by
  obtain ⟨n, e⟩ := e
  obtain ⟨henabled, node, hnode, rfl⟩ := step_eq_some hstep
  have hqueue := forall_update (P := fun n m => ∀ x ∈ m.layer.queue, Network.Honest c t n x.data)
    (fun x hx => h.queue_step hnode hx) fun n x hx => h.queue hx
  by_cases hcore : ∃ env, e = .task .coreSend env
  · obtain ⟨env, rfl⟩ := hcore
    obtain ⟨hroutes, hdispatcher, hsent⟩ := coreSend_spec hnode
    refine ⟨⟨?_, fun {n} => ?_, fun {n} => ?_, fun {n} => ?_⟩, fun {n x} hx => hqueue n x hx⟩
    · exact forall_update (P := fun n m => m.layer.peerId = n)
        ((Node.adds_step hnode).peerId.trans (h.peerId n)) h.peerId
    · exact forall_update (P := fun n m => ∀ {p k d}, m.layer.HasRoute p k d →
        t.relays n k p ≤ d.toNat) (fun hroute => h.routes (hroutes hroute))
        (fun _ => h.routes) n
    · refine forall_update (P := fun n m => ∀ {x}, x ∈ m.sent → Network.Honest c t n x.bytes)
        (fun {x} hx => ?_) (fun _ => h.sent) n
      rcases hsent x hx with hold | ⟨y, hy, hbytes⟩
      · exact h.sent hold
      · rw [hbytes]
        exact h.queue hy
    · refine forall_update (P := fun n m => ∀ {item entries via},
        m.dispatcher = .sendingHello item entries via → ∀ {p d}, Advertised n entries p d →
          t.relays n via p ≤ d.toNat) (fun hsending => ?_) (fun _ => h.ingesting) n
      rw [hdispatcher] at hsending
      exact h.ingesting hsending
  · have hplain : Network.step c t net (n, e) = some (Function.update net n node) := by
      have henabled' : Network.enabled t net n e = true := by
        cases e with
        | packet env data k => exact henabled
        | task task env =>
            cases task with
            | coreSend => exact absurd ⟨env, rfl⟩ hcore
            | _ => rfl
        | _ => rfl
      simp only [Network.step, henabled', if_true, hnode, Option.map_some]
    exact ⟨h.toSound.step hc hcovers hplain, fun {n x} hx => hqueue n x hx⟩

end Overlay

end RustP2p
