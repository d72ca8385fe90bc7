import RustP2p.Quic.Discovery

/-!
# QUIC payloads reach their peer

What `Discovery` finds is used here.  After the rounds of route queries a node submits a QUIC
payload for a peer, several links away.  The core sender sends the packet to the first hop, each
relay looks the peer up and sends it on, and the dispatcher of the peer hands the payload
to the QUIC socket there, with the id of the node that submitted it (`quic_delivered`).

The induction is on the number of links that are left.  Every lookup, at the sender and at
each relay, gives a hop that is one link nearer to the peer (`Settled.lookup`), so the packet
passes as many relays as a shortest way has, and one to live for each of them is enough.
-/

namespace RustP2p

open ProtocolLayer Transition

/-! ## Sending -/

namespace Transport

variable {t : Transport} {env : Env} {p : PeerId} {r : Route} {data : List UInt8}

/-- Where lookup gives a route and the core accepts, the bytes are sent over it. -/
theorem sendWire_effects (hlookup : (t.routeFor p).1 = .ok r)
    (hsends : ∀ key, env.sendToRoute key = .ok ()) :
    (t.sendWire env p data).effects = [.toRoute r.routeKey data] := by
  simp only [sendWire]
  split
  next route _ heq =>
    rw [heq] at hlookup
    cases hlookup
    simp only [sendWireToRoute, hsends]
  next e _ heq =>
    rw [heq] at hlookup
    cases hlookup

end Transport

namespace ProtocolLayer

variable {l : ProtocolLayer} {env : Env} {p : PeerId} {r : Route} {packet : Packet}

/-- A packet that has more than one to live is forwarded over the route of its destination. -/
theorem forwardPacket_effects (httl : 1 < packet.ttl)
    (hlookup : (l.transport.routeFor packet.dest).1 = .ok r)
    (hsends : ∀ key, env.sendToRoute key = .ok ()) :
    (l.forwardPacket env packet).effects =
      [.toRoute r.routeKey (packet.setTtl (packet.ttl - 1)).buf] := by
  simp only [forwardPacket, Packet.decrementTtl, if_neg (UInt8.not_le.mpr httl)]
  simp only [Packet.setTtl_dest, Outcome.map_effects]
  exact Transport.sendWire_effects hlookup hsends

/-- A submitted payload waits behind the others: over the route itself if it is direct, else for
another lookup. -/
theorem trySendQuicPayload_queue {payload : List UInt8}
    (hlookup : (l.transport.routeFor p).1 = .ok r)
    (hbuild : Packet.build .quicRelay l.peerId p l.maxTtl payload = .ok packet) :
    (l.trySendQuicPayload p payload).state.queue = l.queue ++
      [if r.metric = 0 then .routePacket r.routeKey packet.buf else .peerPacket p packet.buf] := by
  simp only [trySendQuicPayload, hbuild]
  split
  next route t heq =>
    have hqueue := l.transport.routeFor_outbound p
    rw [heq] at hlookup hqueue
    cases hlookup
    simp only [queue, Outcome.ok_state]
    split
    next => exact congrArg (fun queue => queue ++ _) hqueue
    next => exact congrArg (fun queue => queue ++ _) hqueue
  next e t heq =>
    rw [heq] at hlookup
    cases hlookup

/-- A relayed packet is admitted like the packet it was. -/
theorem screen_setTtl (h : l.screen packet.buf = .ok (some packet)) (ttl : UInt8) :
    l.screen (packet.setTtl ttl).buf = .ok (some (packet.setTtl ttl)) := by
  obtain ⟨⟨first, rest, n, hbuf, hclass⟩, hparse, hother, hspecified⟩ := screen_eq_some.mp h
  refine screen_eq_some.mpr ⟨⟨first, rest.set 3 ttl, n, ?_, hclass⟩, Packet.parse_setTtl hparse ttl,
    ?_, ?_⟩
  · simp only [Packet.setTtl, hbuf, List.set_cons_succ]
  · rwa [Packet.setTtl_src]
  · rwa [Packet.setTtl_src]

end ProtocolLayer

/-! ## One hop -/

namespace Overlay

open Network

/-- A state after so many rounds, in a run in which every ingested entry was covered. -/
def Settled (c : Codec) (t : Topology) (rounds : ℕ) (net : Network) : Prop :=
  ∃ net₀ es, Met t net₀ ∧ Rounds c t rounds net₀ es net ∧
    Along (step c t) (fun net e => coversAt c net e = true) net₀ es

section Hops

variable {c : Codec} {t : Topology} {rounds d : ℕ} {net net' : Network} {n p q : PeerId}
  {k : RouteKey} {env : Env} {packet : Packet}

theorem Rounds.append {net₀ : Network} {i : ℕ} {es es' : List (PeerId × Event)}
    (h : Rounds c t i net₀ es net) (hrun : Transition.run (step c t) net es' = some net') :
    Rounds c t i net₀ (es ++ es') net' := by
  induction h with
  | none ran =>
      refine .none ?_
      rw [run_append, ran]
      exact hrun
  | round hround ran _ ih =>
      rw [List.append_assoc]
      exact .round hround ran (ih hrun)

/-- A step that ingests no more than it should leaves the network settled. -/
theorem Settled.step (h : Settled c t rounds net) {e : PeerId × Event}
    (hcovers : coversAt c net e = true) (hstep : Overlay.step c t net e = some net') :
    Settled c t rounds net' := by
  obtain ⟨net₀, es, hmet, hrounds, halong⟩ := h
  refine ⟨net₀, es ++ [e], hmet, hrounds.append (run_snoc (run_nil net) hstep), ?_⟩
  rw [along_append hrounds.run]
  exact ⟨halong, hcovers, by rw [hstep]; trivial⟩

theorem Settled.ordered (h : Settled c t rounds net) (n : PeerId) : (net n).layer.Ordered n := by
  obtain ⟨net₀, es, hmet, hrounds, -⟩ := h
  exact ordered_run hrounds.run hmet.ordered n

/-- Lookup gives a hop that is one link nearer.  That is so of the layer of a node, and of what
an arriving packet makes of it. -/
theorem Settled.lookup (h : Settled c t rounds net) (hc : c.Faithful) {l : ProtocolLayer}
    (hevolves : Evolves (net n).layer l)
    (hroutes : ∀ {k m}, l.HasRoute p k m → (net n).layer.HasRoute p k m)
    (hp : t.graph.edist n p = (d + 1 : ℕ)) (hd : d ≤ rounds) :
    ∃ r q k', (l.transport.routeFor p).1 = .ok r ∧ r.metric.toNat = d ∧
      t.link n r.routeKey = some (q, k') ∧ t.graph.edist q p = d := by
  have hordered := h.ordered n
  obtain ⟨net₀, es, hmet, hrounds, hcovers⟩ := h
  obtain ⟨hpolicy, hsorted⟩ := hordered.evolves hevolves
  obtain ⟨r, hr, hmem, hmetric⟩ := ((hrounds.reachesIn hc hmet hp hd).evolves hevolves
    hordered.policy).lookup hpolicy (hsorted p)
  obtain ⟨heq, hrelays⟩ := Topology.eq_of_relays_le hp
    ((hrounds.sound hc hmet hcovers).routes (hroutes ⟨r, hmem, rfl, rfl⟩)) hmetric
  obtain ⟨q, k', hlink⟩ := Topology.link_of_relays_le (Eq.le hrelays)
  rw [Topology.relays_of_link hlink] at hrelays
  exact ⟨r, q, k', hr, heq, hlink, hrelays⟩

/-- What is sent over a link may arrive at its other end. -/
theorem arrives_of_sent {k' : RouteKey} {data : List UInt8} (hlink : t.link n k = some (q, k'))
    (hsent : .toRoute k data ∈ (net n).sent) : arrives t net q k' data = true := by
  simp only [arrives, t.symm hlink, List.any_eq_true]
  exact ⟨_, hsent, by simp [carried]⟩

/-- A packet for `p` is handled at `q` and at nodes nearer and nearer to `p`, until it has passed
so many relays.  Each of them looks `p` up, finds a hop that is one link nearer, and sends the
packet there, with one less to live. -/
inductive Relayed (c : Codec) (t : Topology) (env : Env) (p : PeerId) :
    ℕ → PeerId → Packet → Network → List (PeerId × Event) → Network → Prop where
  | arrived (packet : Packet) (net : Network) : Relayed c t env p 0 p packet net [] net
  | relay {d : ℕ} {q q' : PeerId} {k k' : RouteKey} {r : Route} {packet : Packet}
      {net mid net' : Network} {hops : List (PeerId × Event)} (dest : packet.dest = p)
      (far : t.graph.edist q p = (d + 1 : ℕ))
      (finds : (((net q).layer.arrive env packet k).2.transport.routeFor p).1 = .ok r)
      (leads : t.link q r.routeKey = some (q', k')) (near : t.graph.edist q' p = d)
      (steps : Overlay.step c t net (q, .packet env packet.buf k) = some mid)
      (sends : (mid q).sent = (net q).sent ++
        [.toRoute r.routeKey (packet.setTtl (packet.ttl - 1)).buf])
      (rest : Relayed c t env p d q' (packet.setTtl (packet.ttl - 1)) mid hops net') :
      Relayed c t env p (d + 1) q packet net ((q, .packet env packet.buf k) :: hops) net'

theorem Relayed.run {hops : List (PeerId × Event)}
    (h : Relayed c t env p d q packet net hops net') :
    Transition.run (Overlay.step c t) net hops = some net' := by
  induction h with
  | arrived packet net => rfl
  | relay _ _ _ _ _ steps _ _ ih =>
      rw [run_cons, steps]
      exact ih

theorem Relayed.packets {hops : List (PeerId × Event)}
    (h : Relayed c t env p d q packet net hops net') :
    hops.length = d ∧ ∀ e ∈ hops, ∃ data key, e.2 = .packet env data key := by
  induction h with
  | arrived packet net => exact ⟨rfl, List.forall_mem_nil _⟩
  | relay _ _ _ _ _ _ _ _ ih =>
      exact ⟨congrArg Nat.succ ih.1, List.forall_mem_cons.mpr ⟨⟨_, _, rfl⟩, ih.2⟩⟩

/-- A relay sends a packet one link nearer to its destination. -/
theorem Settled.relay (h : Settled c t rounds net) (hc : c.Faithful)
    (hidle : (net q).dispatcher = .idle) (harrives : arrives t net q k packet.buf = true)
    (hscreen : (net q).layer.screen packet.buf = .ok (some packet)) (hdest : packet.dest = p)
    (hbroadcast : p.isBroadcast = false) (hp : t.graph.edist q p = (d + 1 : ℕ)) (hd : d ≤ rounds)
    (httl : 1 < packet.ttl) (hsends : ∀ key, env.sendToRoute key = .ok ()) :
    ∃ net' q' k' r, Overlay.step c t net (q, .packet env packet.buf k) = some net' ∧
      Settled c t rounds net' ∧ (∀ x, x ≠ q → net' x = net x) ∧
      (((net q).layer.arrive env packet k).2.transport.routeFor p).1 = .ok r ∧
      t.link q r.routeKey = some (q', k') ∧ t.graph.edist q' p = d ∧
      (net' q).sent = (net q).sent ++
        [.toRoute r.routeKey (packet.setTtl (packet.ttl - 1)).buf] := by
  have hlocal : (net q).layer.isLocal packet = false := by
    have hself : p ≠ (net q).layer.peerId := by
      rw [(h.ordered q).peerId]
      exact Topology.ne_of_edist hp
    simp [ProtocolLayer.isLocal, hdest, hself, hbroadcast]
  have hquiet := quiet_arrive (net q).layer env packet k
  obtain ⟨r, q', k', hlookup, -, hlink, hnear⟩ := h.lookup hc
    (evolves_arrive (net q).layer env packet k)
    (fun hroute => (hquiet.back hroute).resolve_right id) hp hd
  have hhandling : handleTransportPacket c env (net q).layer packet.buf k =
      .done (((net q).layer.arrive env packet k).2.forwardPacket env packet) := by
    rw [handleTransportPacket_of_screen hscreen, handlePacket_forward hlocal]
  have heffects : ((net q).handlePacket c env packet.buf k).sent = (net q).sent ++
      [.toRoute r.routeKey (packet.setTtl (packet.ttl - 1)).buf] := by
    simp only [Node.handlePacket, hhandling]
    rw [forwardPacket_effects httl (by rw [hdest]; exact hlookup) hsends]
  have hstep : Overlay.step c t net (q, .packet env packet.buf k) =
      some (Function.update net q ((net q).handlePacket c env packet.buf k)) := by
    simp only [Overlay.step, enabled, harrives, if_true, Node.step, hidle, Option.map_some]
  refine ⟨_, q', k', r, hstep, h.step ?_ hstep, fun x hx => Function.update_of_ne hx _ _, hlookup,
    hlink, hnear, ?_⟩
  · simp only [coversAt, hscreen, hlocal, Bool.not_false, Bool.true_or]
  · rw [Function.update_self, heffects]

/-- A step that is no packet leaves the network settled. -/
theorem Settled.step_plain (h : Settled c t rounds net) {e : Event} {node : Node}
    (hplain : ∀ env data key, e ≠ .packet env data key)
    (hnode : Node.step c (net n) e = some node) :
    Overlay.step c t net (n, e) = some (Function.update net n node) ∧
      Settled c t rounds (Function.update net n node) := by
  have hstep : Overlay.step c t net (n, e) = some (Function.update net n node) := by
    have henabled : enabled t net n e = true := by
      cases e with
      | packet env data key => exact absurd rfl (hplain env data key)
      | _ => rfl
    simp only [Overlay.step, henabled, if_true, hnode, Option.map_some]
  refine ⟨hstep, h.step ?_ hstep⟩
  cases e with
  | packet env data key => exact absurd rfl (hplain env data key)
  | _ => rfl

/-! ## The relays -/

/-- A packet that arrives within so many links of its destination passes so many relays and
arrives there. -/
theorem Settled.relays (h : Settled c t rounds net) (hc : c.Faithful) {protocol : ProtocolType}
    {maxTtl ttl : UInt8} {payload : List UInt8}
    (hbuild : Packet.build protocol n p maxTtl payload = .ok packet)
    (hspecified : n.isUnspecified = false) (hbroadcast : p.isBroadcast = false)
    (hsends : ∀ key, env.sendToRoute key = .ok ())
    (hidle : ∀ x, t.graph.edist x p ≤ d → (net x).dispatcher = .idle)
    (harrives : arrives t net q k (packet.setTtl ttl).buf = true) (hq : t.graph.edist q p = d)
    (hn : (d : ℕ∞) < t.graph.edist n p) (hd : d ≤ rounds) (httl : d < ttl.toNat) :
    ∃ hops net' k' ttl', Relayed c t env p d q (packet.setTtl ttl) net hops net' ∧
      Settled c t rounds net' ∧ net' p = net p ∧ arrives t net' p k' (packet.setTtl ttl').buf = true := by
  induction d generalizing net q k ttl with
  | zero =>
      obtain rfl : q = p := SimpleGraph.edist_eq_zero_iff.mp (by exact_mod_cast hq)
      exact ⟨[], net, k, ttl, .arrived _ net, h, rfl, harrives⟩
  | succ d ih =>
      have hqn : n ≠ q := by
        rintro rfl
        rw [hq] at hn
        exact lt_irrefl _ hn
      have hscreen := screen_setTtl (screen_build (l := (net q).layer) hbuild
        (by rw [(h.ordered q).peerId]; exact hqn) hspecified) ttl
      have hlive : 1 < (packet.setTtl ttl).ttl := by
        rw [Packet.setTtl_ttl, UInt8.lt_iff_toNat_lt]
        exact Nat.lt_of_le_of_lt (Nat.le_add_left 1 d) httl
      have hdest : (packet.setTtl ttl).dest = p := by
        rw [Packet.setTtl_dest]
        exact (Packet.build_fields hbuild).2.1
      obtain ⟨mid, q', k', r, hstep, hmid, hothers, hfinds, hleads, hnear, hforwards⟩ := h.relay hc
        (hidle q (Eq.le hq)) harrives hscreen hdest hbroadcast hq (Nat.le_of_succ_le hd) hlive hsends
      have hsame : (packet.setTtl ttl).setTtl ((packet.setTtl ttl).ttl - 1) =
          packet.setTtl (ttl - 1) := by
        rw [setTtl_setTtl, Packet.setTtl_ttl]
      have hnext : arrives t mid q' k' (packet.setTtl (ttl - 1)).buf = true := by
        refine arrives_of_sent hleads ?_
        rw [hforwards, hsame]
        exact List.mem_append_right _ List.mem_cons_self
      have hclose {x : PeerId} (hx : t.graph.edist x p ≤ d) : mid x = net x := by
        refine hothers x ?_
        rintro rfl
        rw [hq] at hx
        exact absurd (by exact_mod_cast hx : d + 1 ≤ d) (Nat.not_succ_le_self d)
      have hleft : (ttl - 1).toNat = ttl.toNat - 1 := by
        refine UInt8.toNat_sub_of_le _ _ (UInt8.le_of_lt ?_)
        rwa [Packet.setTtl_ttl] at hlive
      obtain ⟨hops, net', k'', ttl', hrelayed, hsettled, hpeer, hlast⟩ := ih hmid
        (fun x hx => by
          rw [hclose hx]
          exact hidle x (hx.trans (by exact_mod_cast Nat.le_succ d)))
        hnext hnear (lt_trans (by exact_mod_cast Nat.lt_succ_self d) hn) (Nat.le_of_succ_le hd)
        (by omega)
      refine ⟨(q, .packet env (packet.setTtl ttl).buf k) :: hops, net', k'', ttl',
        .relay hdest hq hfinds hleads hnear hstep hforwards (hsame ▸ hrelayed), hsettled, ?_,
        hlast⟩
      rw [hpeer]
      exact hclose (by rw [SimpleGraph.edist_self]; exact zero_le)

/-! ## The sender -/

/-- The core sender takes the head of its queue and sends it. -/
theorem Settled.coreSend (h : Settled c t rounds net) (hsends : ∀ key, env.sendToRoute key = .ok ())
    {x : CoreOutboundPacket} {rest : List CoreOutboundPacket}
    (hqueue : (net n).layer.queue = x :: rest) :
    ∃ net', Overlay.step c t net (n, .task .coreSend env) = some net' ∧
      Settled c t rounds net' ∧ (∀ y, y ≠ n → net' y = net y) ∧ (net' n).layer.queue = rest ∧
        (∀ {dest data r}, x = .peerPacket dest data →
          ((net n).layer.transport.routeFor dest).1 = .ok r →
            .toRoute r.routeKey data ∈ (net' n).sent) ∧
        ∀ {key data}, x = .routePacket key data → .toRoute key data ∈ (net' n).sent := by
  obtain ⟨o, hsend, hrest, heffects⟩ : ∃ o, (net n).layer.transport.coreSend env = some o ∧
      o.state.outbound = rest ∧
        (∀ {dest data r}, x = .peerPacket dest data →
          ((net n).layer.transport.routeFor dest).1 = .ok r →
            o.effects = [.toRoute r.routeKey data]) ∧
        ∀ {key data}, x = .routePacket key data → o.effects = [.toRoute key data] := by
    simp only [Transport.coreSend]
    rw [ProtocolLayer.queue] at hqueue
    rw [hqueue]
    cases x with
    | peerPacket dest data =>
        refine ⟨_, rfl, Transport.sendWire_outbound _ env dest data, ?_, fun heq => by cases heq⟩
        rintro dest' data' r heq hlookup
        cases heq
        exact Transport.sendWire_effects hlookup hsends
    | routePacket key data =>
        refine ⟨_, rfl, by rw [Transport.sendWireToRoute_state], (fun heq => by cases heq), ?_⟩
        rintro key' data' heq
        cases heq
        simp only [Transport.sendWireToRoute, hsends]
  have hnode : Node.step c (net n) (.task .coreSend env) = some
      { net n with
        layer := { (net n).layer with transport := o.state }
        sent := (net n).sent ++ o.effects } := by
    simp only [Node.step, Task.run, hsend, Option.map_some]
    rfl
  obtain ⟨hstep, hsettled⟩ := h.step_plain (fun _ _ _ heq => by cases heq) hnode
  refine ⟨_, hstep, hsettled, fun y hy => Function.update_of_ne hy _ _, ?_, ?_, ?_⟩
  · rw [Function.update_self]
    exact hrest
  · intro dest data r hx hlookup
    rw [Function.update_self, heffects.1 hx hlookup]
    exact List.mem_append_right _ List.mem_cons_self
  · intro key data hx
    rw [Function.update_self, heffects.2 hx]
    exact List.mem_append_right _ List.mem_cons_self

/-- What waits last is sent in the end, to a neighbour one link nearer to the peer. -/
theorem Settled.drain (h : Settled c t rounds net) (hc : c.Faithful)
    (hsends : ∀ key, env.sendToRoute key = .ok ()) (hp : t.graph.edist n p = (d + 1 : ℕ))
    (hd : d ≤ rounds) {data : List UInt8} {front : List CoreOutboundPacket} {x : CoreOutboundPacket}
    (hqueue : (net n).layer.queue = front ++ [x])
    (hx : x = .peerPacket p data ∨ ∃ key q k', x = .routePacket key data ∧
      t.link n key = some (q, k') ∧ t.graph.edist q p = d) :
    ∃ sends net' key q k', Transition.run (Overlay.step c t) net sends = some net' ∧
      (∀ e ∈ sends, e = (n, .task .coreSend env)) ∧ Settled c t rounds net' ∧
        (∀ y, y ≠ n → net' y = net y) ∧ t.link n key = some (q, k') ∧ t.graph.edist q p = d ∧
          .toRoute key data ∈ (net' n).sent := by
  induction front generalizing net with
  | nil =>
      obtain ⟨net', hstep, hsettled, hothers, -, hpeer, hroute⟩ := h.coreSend hsends hqueue
      have hrun : Transition.run (Overlay.step c t) net [(n, .task .coreSend env)] = some net' :=
        run_snoc (run_nil net) hstep
      rcases hx with hx | ⟨key, q, k', hx, hlink, hnear⟩
      · obtain ⟨r, q, k', hlookup, -, hlink, hnear⟩ := h.lookup hc (.refl _) id hp hd
        exact ⟨_, net', r.routeKey, q, k', hrun, fun e he => List.mem_singleton.mp he, hsettled,
          hothers, hlink, hnear, hpeer hx hlookup⟩
      · exact ⟨_, net', key, q, k', hrun, fun e he => List.mem_singleton.mp he, hsettled, hothers,
          hlink, hnear, hroute hx⟩
  | cons y front ih =>
      obtain ⟨mid, hstep, hsettled, hothers, hrest, -⟩ := h.coreSend hsends hqueue
      obtain ⟨sends, net', key, q, k', hrun, hall, hsettled', hothers', hlink, hnear, hsent⟩ :=
        ih hsettled hrest
      refine ⟨(n, .task .coreSend env) :: sends, net', key, q, k', ?_,
        List.forall_mem_cons.mpr ⟨rfl, hall⟩, hsettled', fun y hy => ?_, hlink, hnear, hsent⟩
      · rw [run_cons, hstep]
        exact hrun
      · rw [hothers' y hy, hothers y hy]

/-! ## The receiver -/

/-- What waits in the `quic` channel is read, and then what the dispatcher has for it. -/
theorem Settled.read (h : Settled c t rounds net) {payload : TransportPayload}
    (hsending : (net p).dispatcher = .sendingQuic payload) :
    ∃ reads net', Transition.run (Overlay.step c t) net reads = some net' ∧
      (∀ e ∈ reads, e = (p, .quicReceived) ∨ e = (p, .quicSent)) ∧
        (net' p).quicQueue = [payload] := by
  generalize hqueue : (net p).quicQueue = queue
  induction queue generalizing net with
  | nil =>
      have hnode : Node.step c (net p) .quicSent = some
          { net p with
            dispatcher := Node.nextDispatcher (net p).layer
            quicQueue := (net p).quicQueue ++ [payload] } := by
        simp only [Node.step, Node.finishQuic, hsending, hqueue]
        rfl
      obtain ⟨hstep, -⟩ := h.step_plain (fun _ _ _ heq => by cases heq) hnode
      refine ⟨[(p, .quicSent)], _, run_snoc (run_nil net) hstep,
        fun e he => Or.inr (List.mem_singleton.mp he), ?_⟩
      rw [Function.update_self]
      simp only [hqueue, List.nil_append]
  | cons head rest ih =>
      have hnode : Node.step c (net p) .quicReceived = some { net p with quicQueue := rest } := by
        simp only [Node.step, hqueue]
      obtain ⟨hstep, hsettled⟩ := h.step_plain (fun _ _ _ heq => by cases heq) hnode
      obtain ⟨reads, net', hrun, hall, hread⟩ := ih hsettled
        (by rw [Function.update_self]; exact hsending) (by rw [Function.update_self])
      refine ⟨(p, .quicReceived) :: reads, net', ?_,
        List.forall_mem_cons.mpr ⟨Or.inl rfl, hall⟩, hread⟩
      rw [run_cons, hstep]
      exact hrun

/-- A QUIC packet that arrives at the node it is for goes to its dispatcher. -/
theorem Settled.receive (h : Settled c t rounds net) (env : Env)
    (hidle : (net p).dispatcher = .idle) (harrives : arrives t net p k packet.buf = true)
    (hscreen : (net p).layer.screen packet.buf = .ok (some packet)) (hdest : packet.dest = p)
    (htype : packet.protocol = .ok .quicRelay) :
    ∃ net', Overlay.step c t net (p, .packet env packet.buf k) = some net' ∧
      Settled c t rounds net' ∧
        (net' p).dispatcher = .sendingQuic ⟨packet.src, packet.payload⟩ := by
  have hlocal : (net p).layer.isLocal packet = true := by
    simp [ProtocolLayer.isLocal, hdest, (h.ordered p).peerId]
  have hhandling : handleTransportPacket c env (net p).layer packet.buf k =
      .sendQuic ((net p).layer.arrive env packet k).2 ⟨packet.src, packet.payload⟩ := by
    rw [handleTransportPacket_of_screen hscreen, handlePacket_local hlocal htype]
    rfl
  have hstep : Overlay.step c t net (p, .packet env packet.buf k) =
      some (Function.update net p ((net p).handlePacket c env packet.buf k)) := by
    simp only [Overlay.step, enabled, harrives, if_true, Node.step, hidle, Option.map_some]
  refine ⟨_, hstep, h.step ?_ hstep, ?_⟩
  · simp only [coversAt, hscreen, ingested, htype, List.filter_nil, List.all_nil, Bool.or_true]
  · rw [Function.update_self]
    simp only [Node.handlePacket, hhandling]

end Hops

/-- A QUIC payload for a peer that the rounds have reached is delivered.  Its core sender sends
it to a neighbour one link nearer, it passes as many relays as a shortest way has, each of which
looks the peer up and sends it one link nearer, and then the QUIC socket of the peer has it, as
coming from the node that submitted it.  The nodes on the way must be ready for a packet, the
cores must accept what is sent, and the packet must have one to live for each link. -/
theorem quic_delivered {c : Codec} {t : Topology} (hc : c.Faithful) {net₀ net : Network}
    (hmet : Met t net₀) {rounds : ℕ} {es : List (PeerId × Event)}
    (hrounds : Rounds c t rounds net₀ es net)
    (hcovers : Along (step c t) (fun net e => coversAt c net e = true) net₀ es) {n p : PeerId}
    {d : ℕ} (hp : t.graph.edist n p = (d + 1 : ℕ)) (hd : d ≤ rounds) {env : Env}
    (hsends : ∀ key, env.sendToRoute key = .ok ())
    (hidle : ∀ q, t.graph.edist q p ≤ d → (net q).dispatcher = .idle) {payload : List UInt8}
    {packet : Packet}
    (hbuild : Packet.build .quicRelay n p (net n).layer.maxTtl payload = .ok packet)
    (httl : d < (net n).layer.maxTtl.toNat) :
    ∃ sends hops reads net', run (step c t) net
        ((n, .task (.sendQuic p payload) env) :: sends ++ hops ++ reads) = some net' ∧
      (∀ e ∈ sends, e = (n, .task .coreSend env)) ∧
      (hops.length = d ∧ ∀ e ∈ hops, ∃ data key, e.2 = .packet env data key) ∧
      (∃ sent near key q k, run (step c t) net ((n, .task (.sendQuic p payload) env) :: sends) =
          some sent ∧
        t.link n key = some (q, k) ∧ .toRoute key packet.buf ∈ (sent n).sent ∧
        t.graph.edist q p = d ∧ Relayed c t env p d q packet sent hops near) ∧
      (∀ e ∈ reads, e.1 = p) ∧ (net' p).quicQueue = [⟨n, payload⟩] := by
  have hsettled : Settled c t rounds net := ⟨net₀, es, hmet, hrounds, hcovers⟩
  have hspecified : n.isUnspecified = false :=
    (hmet.specified_of_edist (by rw [SimpleGraph.edist_comm]; exact hp)).1
  have hbroadcast : p.isBroadcast = false := (hmet.specified_of_edist hp).2
  -- The payload is submitted, and the core sender comes to it.
  obtain ⟨r, q, k', hlookup, hmetric, hlink, hnear⟩ := hsettled.lookup hc (.refl _) id hp hd
  have hqueue := trySendQuicPayload_queue hlookup
    (by rw [(hsettled.ordered n).peerId]; exact hbuild)
  have hwaits : (if r.metric = 0 then .routePacket r.routeKey packet.buf
      else .peerPacket p packet.buf) = CoreOutboundPacket.peerPacket p packet.buf ∨
      ∃ key q k', (if r.metric = 0 then .routePacket r.routeKey packet.buf
        else .peerPacket p packet.buf) = CoreOutboundPacket.routePacket key packet.buf ∧
        t.link n key = some (q, k') ∧ t.graph.edist q p = d := by
    split
    next => exact Or.inr ⟨r.routeKey, q, k', rfl, hlink, hnear⟩
    next => exact Or.inl rfl
  obtain ⟨hstep, hsubmitted⟩ := hsettled.step_plain (n := n)
    (e := .task (.sendQuic p payload) env) (fun _ _ _ heq => by cases heq) rfl
  obtain ⟨sends, sent, key, q, k, hrun, hall, hsent, hothers, hfirst, hnear, htransit⟩ :=
    hsubmitted.drain hc hsends hp hd (by rw [Function.update_self]; exact hqueue) hwaits
  have hunchanged {x : PeerId} (hx : t.graph.edist x p ≤ d) : sent x = net x := by
    have hxn : x ≠ n := by
      rintro rfl
      rw [hp] at hx
      exact absurd (by exact_mod_cast hx : d + 1 ≤ d) (Nat.not_succ_le_self d)
    rw [hothers x hxn, Function.update_of_ne hxn]
  -- The relays pass it on.
  obtain ⟨hsrc, hdest, hpayload, -, hfull, -, htype⟩ := Packet.build_fields hbuild
  have harrives := arrives_of_sent hfirst htransit
  rw [← setTtl_ttl_self packet] at harrives
  obtain ⟨hops, near, k'', ttl, hrelayed, hnear', hpeer, hlast⟩ :=
    hsent.relays hc hbuild hspecified hbroadcast hsends
      (fun x hx => by rw [hunchanged hx]; exact hidle x hx) harrives hnear
      (by rw [hp]; exact_mod_cast Nat.lt_succ_self d) hd (by rw [hfull]; exact httl)
  rw [setTtl_ttl_self] at hrelayed
  -- The peer gets it.
  have hself : sent p = net p := hunchanged (by rw [SimpleGraph.edist_self]; exact zero_le)
  have hscreen := screen_setTtl (screen_build (l := (near p).layer) hbuild
    (by rw [(hnear'.ordered p).peerId]; exact (Topology.ne_of_edist hp).symm) hspecified) ttl
  obtain ⟨got, hgot, hreceived, hsending⟩ := hnear'.receive env
    (by rw [hpeer, hself]; exact hidle p (by rw [SimpleGraph.edist_self]; exact zero_le)) hlast
    hscreen (by rw [Packet.setTtl_dest, hdest]) (by rw [Packet.setTtl_protocol, htype])
  obtain ⟨reads, net', hrun'', hreads, hread⟩ := hreceived.read hsending
  have hsubmit : run (step c t) net ((n, .task (.sendQuic p payload) env) :: sends) =
      some sent := by
    rw [run_cons, hstep]
    exact hrun
  refine ⟨sends, hops, (p, .packet env (packet.setTtl ttl).buf k'') :: reads, net', ?_, hall,
    hrelayed.packets, ⟨sent, near, key, q, k, hsubmit, hfirst, htransit, hnear, hrelayed⟩,
    List.forall_mem_cons.mpr ⟨rfl, fun e he => ?_⟩, ?_⟩
  · rw [run_append, run_append, hsubmit, Option.bind_some, hrelayed.run, Option.bind_some, run_cons,
      hgot]
    exact hrun''
  · rcases hreads e he with rfl | rfl <;> rfl
  · rw [hread, Packet.setTtl_src, Packet.setTtl_payload, hsrc, hpayload]

deriving instance DecidableEq for Dispatcher

/-- After one round on the chain, a payload of `a` reaches `c` over one relay. -/
theorem quic_delivered_chain :
    ∃ net, Transition.run (step roundCodec chain) chainNetwork roundEvents = some net ∧
      ∃ sends hops reads net', Transition.run (step roundCodec chain) net
          ((⟨"a"⟩, .task (.sendQuic ⟨"c"⟩ [1, 2, 3]) (Env.atMillis 2)) :: sends ++ hops ++ reads) =
            some net' ∧
        (∀ e ∈ sends, e = (⟨"a"⟩, .task .coreSend (Env.atMillis 2))) ∧
        (hops.length = 1 ∧ ∀ e ∈ hops, ∃ data key, e.2 = .packet (Env.atMillis 2) data key) ∧
        (∀ e ∈ reads, e.1 = ⟨"c"⟩) ∧ (net' ⟨"c"⟩).quicQueue = [⟨⟨"a"⟩, [1, 2, 3]⟩] := by
  have hcovers : Along (step roundCodec chain)
      (fun net e => coversAt roundCodec net e = true) chainNetwork roundEvents := by
    decide +kernel
  obtain ⟨net, hrun, hready, httl⟩ :
      ∃ net, Transition.run (step roundCodec chain) chainNetwork roundEvents = some net ∧
        (∀ q ∈ [(⟨"b"⟩ : PeerId), ⟨"c"⟩, ⟨"d"⟩], (net q).dispatcher = .idle) ∧
          (net ⟨"a"⟩).layer.maxTtl = 3 := by
    decide +kernel
  have hrounds : Rounds roundCodec chain 1 chainNetwork (roundEvents ++ []) net :=
    .round round_chain hrun (.none rfl)
  rw [List.append_nil] at hrounds
  have hidle : ∀ q, chain.graph.edist q ⟨"c"⟩ ≤ (1 : ℕ) → (net q).dispatcher = .idle := by
    intro q hq
    refine hready q ?_
    rcases SimpleGraph.edist_le_one_iff_adj_or_eq.mp (by exact_mod_cast hq) with
      ⟨k, k', hadj⟩ | rfl
    · have hnear : ∀ e ∈ chainLinks, e.2.1 = ⟨"c"⟩ → e.1.1 ∈ [(⟨"b"⟩ : PeerId), ⟨"c"⟩, ⟨"d"⟩] := by
        decide
      exact hnear _ (mem_chainLinks hadj) rfl
    · decide
  obtain ⟨packet, hbuild⟩ : ∃ packet,
      Packet.build .quicRelay ⟨"a"⟩ ⟨"c"⟩ 3 [1, 2, 3] = .ok packet := ⟨_, rfl⟩
  have haccepts : ∀ key, (Env.atMillis 2).sendToRoute key = .ok () := fun _ => rfl
  obtain ⟨sends, hops, reads, net', hdelivered, hsends, hhops, -, hreads, hqueue⟩ :=
    quic_delivered faithful_roundCodec met_chain hrounds hcovers edist_chain (Nat.le_refl 1)
      haccepts hidle (by rw [httl]; exact hbuild) (by rw [httl]; decide)
  exact ⟨net, hrun, sends, hops, reads, net', hdelivered, hsends, hhops, hreads, hqueue⟩

end Overlay

end RustP2p
