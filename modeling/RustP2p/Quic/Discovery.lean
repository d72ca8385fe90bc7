import RustP2p.Quic.Overlay
import RustP2p.Quic.PayloadFormat

/-!
# Route discovery finds the shortest ways

Every node asks the peers it knows for their routes, again and again.  The answer lists
the peers that the answering node has a route to, with the metric of its first route, and
the asking node takes each of them to be one hop further.

Here that is shown to work, in the network of `Overlay`.  The nodes begin with direct
routes to their neighbours.  A *round* is a part of a run in which every node asks each
neighbour over their link and reads the answer (`Exchange`).  Whatever else happens, in
whatever order, after `d` rounds a node reaches every peer that is `d + 1` links away:
lookup gives a route with the metric `d`, and its first hop begins a shortest way
(`discovery_shortest`).

One half is progress.  `ReachesIn` says that a layer has a route over so few relays, no
step takes that away, and each round carries it one link further (`Spread.round`).  The other half
is `Overlay.Sound`: no metric is below the number of relays.
-/

namespace RustP2p

open ProtocolLayer Transition

/-! ## Distances -/

namespace Topology

variable {t : Topology} {n p : PeerId} {d : ℕ}

/-- On a shortest way the neighbour is one link nearer. -/
theorem exists_nearer (h : t.graph.edist n p = (d + 1 : ℕ)) :
    ∃ k q k', t.link n k = some (q, k') ∧ t.graph.edist q p = d := by
  obtain ⟨walk, hlength⟩ := SimpleGraph.exists_walk_of_edist_eq_coe h
  cases walk with
  | nil => cases hlength
  | @cons _ q _ hadj rest =>
      rw [SimpleGraph.Walk.length_cons, Nat.add_right_cancel_iff] at hlength
      obtain ⟨k, k', hlink⟩ := hadj
      have hle : t.graph.edist q p ≤ d := hlength ▸ rest.edist_le
      obtain ⟨e, he⟩ := ENat.ne_top_iff_exists.mp (ne_top_of_le_ne_top (ENat.natCast_ne_top d) hle)
      refine ⟨k, q, k', hlink, ?_⟩
      have hfar := edist_le_of_link hlink (Eq.le he.symm)
      rw [h] at hfar
      rw [← he] at hle ⊢
      have hle' : e ≤ d := by exact_mod_cast hle
      have hge : d + 1 ≤ e + 1 := by exact_mod_cast hfar
      exact_mod_cast (by omega : e = d)

/-- A metric that is sound and no more than the relays of a shortest way is their number. -/
theorem eq_of_relays_le {k : RouteKey} {m : ℕ} (h : t.graph.edist n p = (d + 1 : ℕ))
    (hrelays : t.relays n k p ≤ m) (hm : m ≤ d) : m = d ∧ t.relays n k p = d := by
  obtain ⟨q, k', hlink⟩ := link_of_relays_le hrelays
  rw [relays_of_link hlink] at hrelays ⊢
  -- A shorter way from the neighbour would make a shorter way from here.
  obtain ⟨e, he⟩ := ENat.ne_top_iff_exists.mp
    (ne_top_of_le_ne_top (ENat.natCast_ne_top m) hrelays)
  have hfar := edist_le_of_link hlink (Eq.le he.symm)
  rw [h] at hfar
  rw [← he] at hrelays ⊢
  have hfar' : d + 1 ≤ e + 1 := by exact_mod_cast hfar
  have hrelays' : e ≤ m := by exact_mod_cast hrelays
  exact ⟨by omega, by exact_mod_cast (by omega : e = d)⟩

theorem ne_of_edist (h : t.graph.edist n p = (d + 1 : ℕ)) : p ≠ n := by
  rintro rfl
  rw [SimpleGraph.edist_self] at h
  exact absurd h.symm (by exact_mod_cast Nat.succ_ne_zero d)

end Topology

/-! ## One node -/

/-- Every entry that was encoded comes back with its peer and its metric. -/
theorem entry_of_decode {c : Codec} (hc : c.Faithful) {reply reply' : RouteReplyPayload}
    (h : decodeRouteReplyPayload c (encodeRouteReplyPayload c reply) = .ok reply')
    {entry : RouteEntry} (hentry : entry ∈ reply.peers) :
    ∃ entry' ∈ reply'.peers,
      entry'.peer.peerId = entry.peer.peerId ∧ entry'.metric = entry.metric := by
  obtain ⟨pb, hpb, h⟩ := bind_eq_ok.mp h
  cases decodeMsg_encode hc.routeReply hpb
  obtain ⟨peers, hpeers, h⟩ := bind_eq_ok.mp h
  cases h
  obtain ⟨entry', hmem, hdecode⟩ := forall_of_mapM hpeers _ (List.mem_map_of_mem hentry)
  exact ⟨entry', hmem, routeEntryFromPb_toPb hdecode⟩

namespace ProtocolLayer

variable {c : Codec} {env : Env} {l l' : ProtocolLayer} {own p q : PeerId} {d : ℕ}

/-- The layer has a route to the peer over at most so many relays. -/
def ReachesIn (l : ProtocolLayer) (p : PeerId) (d : ℕ) : Prop :=
  ∃ k m, l.HasRoute p k m ∧ m.toNat ≤ d

/-- Routes stay, and do not get longer. -/
theorem ReachesIn.evolves (h : l.ReachesIn p d) (hevolves : Evolves l l')
    (hpolicy : l.transport.routes.loadBalance = .minHopLowestLatency) : l'.ReachesIn p d := by
  obtain ⟨k, m, hroute, hm⟩ := h
  obtain ⟨m', hroute', -, hle⟩ := RouteTable.Evolves.has hevolves hroute
  exact ⟨k, m', hroute', Nat.le_trans
    (UInt8.le_iff_toNat_le.mp (hle (by rw [hpolicy]; decide))) hm⟩

/-- What is reached, lookup finds, over as few relays. -/
theorem ReachesIn.lookup (h : l.ReachesIn p d)
    (hpolicy : l.transport.routes.loadBalance = .minHopLowestLatency)
    (hsorted : (l.transport.routes.route p).Pairwise (RouteTable.policyLe .minHopLowestLatency)) :
    ∃ r, (l.transport.routeFor p).1 = .ok r ∧ r ∈ l.transport.routesOf p ∧ r.metric.toNat ≤ d := by
  obtain ⟨k, m, ⟨x, hx, -, rfl⟩, hle⟩ := h
  obtain ⟨r, hr⟩ := RouteTable.getRouteById_isOk (List.ne_nil_of_mem hx)
  have hpicked := RouteTable.picked_of_getRouteById hr
  rw [hpolicy] at hpicked
  exact ⟨r, hr, hpicked.mem, Nat.le_trans
    (UInt8.le_iff_toNat_le.mp (hpicked.least_metric hsorted x hx)) hle⟩

/-- What the layer reaches, it advertises. -/
theorem Ordered.advertises (h : l.Ordered own) (env : Env) (hreaches : l.ReachesIn p d)
    (hp : p ≠ own) {requester : PeerId} (hrequester : p ≠ requester) :
    ∃ entry ∈ l.discoveryEntries env requester, entry.peer.peerId = p ∧ entry.metric.toNat ≤ d := by
  obtain ⟨k, m, hroute, hm⟩ := hreaches
  obtain ⟨info, hinfo, hid⟩ := h.acquainted hroute hp
  obtain ⟨r, hr, -, hmetric⟩ := hroute
  obtain ⟨first, hfirst⟩ : ∃ first, (l.transport.routesOf p).head? = some first :=
    Option.isSome_iff_exists.mp (List.isSome_head?.mpr (List.ne_nil_of_mem hr))
  have hle : first.metric ≤ r.metric :=
    RouteTable.le_of_head? (fun x => UInt8.le_refl x.metric) (h.sorted p) hfirst r hr
  have hknown : info ∈ l.transport.knownPeers := by
    obtain ⟨e, he, heq⟩ := List.mem_map.mp (DashMap.mem_pairs.mpr hinfo)
    cases heq
    exact List.mem_map_of_mem he
  refine ⟨⟨info, first.metric⟩, List.mem_cons_of_mem _ (List.mem_filterMap.mpr
    ⟨info, hknown, ?_⟩), hid, ?_⟩
  · rw [hid, if_neg hrequester, hfirst]
    rfl
  · rw [hmetric] at hle
    exact Nat.le_trans (UInt8.le_iff_toNat_le.mp hle) hm

section Handling

variable {data reply : List UInt8} {key : RouteKey} {packet : Packet}

/-- A route query is answered with what the layer has after it. -/
theorem build_of_query (hscreen : l.screen data = .ok (some packet))
    (hlocal : l.isLocal packet = true) (htype : packet.protocol = .ok .idRouteQuery)
    (hsent : .toRoute key reply ∈ (handleTransportPacket c env l data key).effects) :
    let l' := (handleTransportPacket c env l data key).layer
    ∃ packet', Packet.build .idRouteReply l'.peerId packet.src l'.maxTtl
      (encodeRouteReplyPayload c ⟨l'.discoveryEntries env packet.src⟩) = .ok packet' ∧
        packet'.buf = reply := by
  rw [handleTransportPacket_of_screen hscreen, handlePacket_local hlocal htype] at hsent ⊢
  simp only [dispatch, Handling.layer, Handling.effects, onIdRouteQuery,
    sendProtocolToRoute_state] at hsent ⊢
  generalize confirmRelayRouteFromControl _ env _ key packet.metric = l' at hsent ⊢
  simp only [sendProtocolToRoute] at hsent
  split at hsent
  next => cases hsent
  next packet' hbuild =>
    cases Transport.effects_sendWireToRoute hsent
    exact ⟨packet', hbuild, rfl⟩

/-- A built packet is admitted by every other node. -/
theorem screen_build {protocol : ProtocolType} {dest : PeerId} {maxTtl : UInt8}
    {payload : List UInt8} (hbuild : Packet.build protocol q dest maxTtl payload = .ok packet)
    (hother : q ≠ l.peerId) (hspecified : q.isUnspecified = false) :
    l.screen packet.buf = .ok (some packet) := by
  have hsrc : packet.src = q := (Packet.build_fields hbuild).1
  refine screen_eq_some.mpr ⟨⟨0x80 ||| protocol.toByte, packet.buf.tail, protocol.toByte, ?_,
    (Packet.protocol_of_byte protocol).2.2⟩, Packet.parse_build hbuild, ?_, ?_⟩
  · rw [(Packet.build_eq_ok hbuild).1]
    rfl
  · rw [hsrc]
    exact hother
  · rw [hsrc]
    exact hspecified

/-- An entry that is ingested is reached over one more relay at most. -/
theorem reachesIn_ingestRouteEntries {entries : List RouteEntry} {entry : RouteEntry}
    (hentry : entry ∈ entries) (hself : entry.peer.peerId ≠ l.peerId)
    (hspecified : entry.peer.peerId.isUnspecified = false)
    (hpolicy : l.transport.routes.loadBalance = .minHopLowestLatency) :
    (l.ingestRouteEntries env entries key).ReachesIn entry.peer.peerId
      (entry.metric.toNat + 1) := by
  obtain ⟨pre, post, rfl⟩ := List.append_of_mem hentry
  have hingest : l.ingestRouteEntries env (pre ++ entry :: post) key =
      (ingestRouteEntry env key (l.ingestRouteEntries env pre key) entry).ingestRouteEntries env
        post key := by
    simp only [ingestRouteEntries, List.foldl_append, List.foldl_cons]
  have hpre := evolves_ingestRouteEntries l env pre key
  have hid : (l.ingestRouteEntries env pre key).peerId = l.peerId :=
    (adds_ingestRouteEntries l env pre key).peerId
  generalize l.ingestRouteEntries env pre key = m at hingest hpre hid
  have hskip : ¬ (entry.peer.peerId = m.peerId ∨ entry.peer.peerId.isUnspecified = true) := by
    rw [hid, hspecified]
    simpa using hself
  have hconfirm : ingestRouteEntry env key m entry =
      (m.learnPeerNat entry.peer).confirmPeerRoute env entry.peer key
        (saturatingAdd entry.metric 1) := by
    simp only [ingestRouteEntry, if_neg hskip]
  have hlearn := evolves_learnPeerNat m entry.peer
  rw [hingest, hconfirm]
  generalize m.learnPeerNat entry.peer = m' at hlearn
  refine ReachesIn.evolves ?_ (evolves_ingestRouteEntries _ env post key) ?_
  · obtain ⟨k, metric, hroute, hle⟩ := RouteTable.exists_has_addRoute m'.transport.routes
      env.instant entry.peer.peerId (.fromDefaultRt key (saturatingAdd entry.metric 1))
    refine ⟨k, metric, Transport.hasRoute_confirmPeerRoute_iff.mpr hroute, ?_⟩
    have hsum := UInt8.le_iff_toNat_le.mp hle
    have hstored : (Route.fromDefaultRt key (saturatingAdd entry.metric 1)).metric =
      saturatingAdd entry.metric 1 := rfl
    rw [hstored, saturatingAdd_toNat, UInt8.toNat_one] at hsum
    omega
  · have hconfirmed := (hpre.trans hlearn).trans
      (evolves_confirmPeerRoute m' env entry.peer key (saturatingAdd entry.metric 1))
    exact (RouteTable.Evolves.policy hconfirmed).trans hpolicy

/-- So is an entry of a route reply that the layer reads. -/
theorem reachesIn_of_reply (env : Env) (key : RouteKey)
    (hscreen : l.screen data = .ok (some packet)) (hlocal : l.isLocal packet = true)
    (htype : packet.protocol = .ok .idRouteReply) {payload : RouteReplyPayload}
    (hdecode : decodeRouteReplyPayload c packet.payload = .ok payload) {entry : RouteEntry}
    (hentry : entry ∈ payload.peers) (hself : entry.peer.peerId ≠ l.peerId)
    (hspecified : entry.peer.peerId.isUnspecified = false)
    (hpolicy : l.transport.routes.loadBalance = .minHopLowestLatency) :
    (handleTransportPacket c env l data key).layer.ReachesIn entry.peer.peerId
      (entry.metric.toNat + 1) := by
  rw [handleTransportPacket_of_screen hscreen, handlePacket_local hlocal htype]
  simp only [dispatch, Handling.layer, onIdRouteReply, hdecode, Outcome.ok_state]
  have harrive := evolves_arrive l env packet key
  have hid : (l.arrive env packet key).2.peerId = l.peerId := (quiet_arrive l env packet key).peerId
  generalize l.arrive env packet key = arrived at harrive hid
  obtain ⟨peer, m⟩ := arrived
  have htcp := evolves_confirmTcpRoute m env peer key packet.metric
  have hidTcp : (m.confirmTcpRoute env peer key packet.metric).peerId = m.peerId :=
    (writes_confirmTcpRoute (W := fun _ => True) m env peer key (fun _ _ => trivial)
      trivial).peerId
  generalize m.confirmTcpRoute env peer key packet.metric = m₁ at htcp hidTcp
  have hrelay := evolves_confirmRelayRouteFromControl m₁ env peer key packet.metric
  have hidRelay : (m₁.confirmRelayRouteFromControl env peer key packet.metric).peerId =
      m₁.peerId :=
    (writes_confirmRelayRouteFromControl (W := fun _ => True) m₁ env peer key
      fun _ => trivial).peerId
  refine reachesIn_ingestRouteEntries hentry ?_ hspecified ?_
  · rw [hidRelay, hidTcp, hid]
    exact hself
  · exact (RouteTable.Evolves.policy ((harrive.trans htcp).trans hrelay)).trans hpolicy

end Handling

theorem ReachesIn.mono {d' : ℕ} (h : l.ReachesIn p d) (hd : d ≤ d') : l.ReachesIn p d' := by
  obtain ⟨k, m, hroute, hm⟩ := h
  exact ⟨k, m, hroute, Nat.le_trans hm hd⟩

end ProtocolLayer

/-! ## The network -/

namespace Overlay

open Network

/-- Nodes that start as in `Network.Initial` and go by the fewest hops.  They know their neighbours
and begin with a direct route to each. -/
structure Met (t : Topology) (net : Network) : Prop extends Network.Initial t net where
  queue : ∀ n, (net n).layer.queue = []
  transport : ∀ n, (net n).layer.transport.peerId = n
  policy : ∀ n, (net n).layer.transport.routes.loadBalance = .minHopLowestLatency
  acquainted : ∀ {n p k m}, (net n).layer.HasRoute p k m → (net n).layer.Acquainted p
  route : ∀ {n k q k'}, t.link n k = some (q, k') → (net n).layer.HasRoute q k 0
  specified : ∀ {n k q k'}, t.link n k = some (q, k') →
    q.isUnspecified = false ∧ q.isBroadcast = false

/-- In the run the node `q` answers a route query of `n`, and `n` handles the answer and can
read it. -/
inductive Exchange (c : Codec) (t : Topology) (net : Network) (n q : PeerId) :
    List (PeerId × Event) → Prop where
  | intro {before between after : List (PeerId × Event)} {asked : Network} {env env' : Env}
      {query reply : List UInt8} {key key' : RouteKey} {packet packet' : Packet}
      {payload : RouteReplyPayload} (ran : run (step c t) net before = some asked)
      (screened : (asked q).layer.screen query = .ok (some packet))
      (isLocal : (asked q).layer.isLocal packet = true)
      (type : packet.protocol = .ok .idRouteQuery) (asker : packet.src = n)
      (answered : .toRoute key reply ∈
        (handleTransportPacket c env (asked q).layer query key).effects)
      (parsed : Packet.parse reply = .ok packet')
      (read : decodeRouteReplyPayload c packet'.payload = .ok payload) :
      Exchange c t net n q (before ++ (q, .packet env query key) :: between ++
        (n, .packet env' reply key') :: after)

/-- Every node asks each of its neighbours. -/
def Round (c : Codec) (t : Topology) (net : Network) (es : List (PeerId × Event)) : Prop :=
  ∀ {n k q k'}, t.link n k = some (q, k') → Exchange c t net n q es

/-- A run with so many rounds, one after another. -/
inductive Rounds (c : Codec) (t : Topology) :
    ℕ → Network → List (PeerId × Event) → Network → Prop where
  | none {net net' : Network} {es : List (PeerId × Event)}
      (ran : run (step c t) net es = some net') : Rounds c t 0 net es net'
  | round {i : ℕ} {net mid net' : Network} {es rest : List (PeerId × Event)}
      (round : Round c t net es) (ran : run (step c t) net es = some mid)
      (later : Rounds c t i mid rest net') : Rounds c t (i + 1) net (es ++ rest) net'

section Runs

variable {c : Codec} {t : Topology} {net net' : Network} {n p q : PeerId} {d i : ℕ}
  {es : List (PeerId × Event)}

theorem Rounds.run (h : Rounds c t i net es net') : run (step c t) net es = some net' := by
  induction h with
  | none ran => exact ran
  | round _ ran _ ih =>
      rw [run_append, ran]
      exact ih

/-- The layer of a node that has handled a packet. -/
theorem layer_of_packet {env : Env} {data : List UInt8} {key : RouteKey}
    (h : step c t net (n, .packet env data key) = some net') :
    (net' n).layer = (handleTransportPacket c env (net n).layer data key).layer := by
  obtain ⟨-, node, hnode, rfl⟩ := step_eq_some h
  rw [Function.update_self]
  cases Node.Move.of_step hnode with
  | packet idle => exact Node.handlePacket_layer c _ env data key

/-- What `q` reaches before an exchange, `n` reaches after it, over one more relay at most. -/
theorem Exchange.reachesIn (h : Exchange c t net n q es) (hc : c.Faithful)
    (hordered : ∀ n, (net n).layer.Ordered n)
    (hrun : Transition.run (step c t) net es = some net') (hnq : q ≠ n)
    (hq : q.isUnspecified = false) (hp : p.isUnspecified = false) (hpn : p ≠ n) (hpq : p ≠ q)
    (hreaches : (net q).layer.ReachesIn p d) : (net' n).layer.ReachesIn p (d + 1) := by
  cases h with
  | @intro before between after asked env env' query reply key key' packet packet' payload
      ran screened isLocal type asker answered parsed read =>
    -- The run up to the query, the query, the run up to the answer, and the answer.
    rw [run_append, run_append, ran, Option.bind_some, run_cons] at hrun
    obtain ⟨heard, hheard, hrun⟩ := Option.bind_eq_some_iff.mp hrun
    obtain ⟨told, htold, hbetween⟩ := Option.bind_eq_some_iff.mp hheard
    obtain ⟨learnt, hlearnt, hafter⟩ := Option.bind_eq_some_iff.mp hrun
    have hasked := ordered_run ran hordered
    have hanswer : ∀ n, (told n).layer.Ordered n := ordered_step htold hasked
    have hordered' := ordered_run hbetween hanswer
    -- What `q` says.
    have htells : (told q).layer.ReachesIn p d :=
      hreaches.evolves ((evolves_run ran q).trans (evolves_step htold q)) (hordered q).policy
    rw [layer_of_packet htold] at htells
    have hq' := hanswer q
    rw [layer_of_packet htold] at hq'
    obtain ⟨built, hbuild, rfl⟩ := build_of_query screened isLocal type answered
    rw [asker] at hbuild
    obtain ⟨entry, hentry, hid, hmetric⟩ := hq'.advertises env htells hpq hpn
    rw [hq'.peerId] at hbuild
    -- What `n` reads.
    cases (Packet.parse_build hbuild).symm.trans parsed
    obtain ⟨-, hdest, hpayload, -, -, -, htype⟩ := Packet.build_fields hbuild
    rw [hpayload] at read
    obtain ⟨entry', hentry', hid', hmetric'⟩ := entry_of_decode hc read hentry
    have hn := (hordered' n).peerId
    have hlocal : (heard n).layer.isLocal packet' = true := by
      simp [ProtocolLayer.isLocal, hdest, hn]
    have hlearns := reachesIn_of_reply (c := c) env' key'
      (screen_build hbuild (by rw [hn]; exact hnq) hq) hlocal htype (by rw [hpayload]; exact read)
      hentry' (by rw [hid', hid, hn]; exact hpn) (by rw [hid', hid]; exact hp) (hordered' n).policy
    rw [← layer_of_packet hlearnt, hid', hid, hmetric'] at hlearns
    have hpolicy : (learnt n).layer.transport.routes.loadBalance = .minHopLowestLatency :=
      (RouteTable.Evolves.policy (evolves_step hlearnt n)).trans (hordered' n).policy
    exact (hlearns.evolves (evolves_run hafter n) hpolicy).mono (Nat.succ_le_succ hmetric)

/-- Every node reaches the peers that are no more than `i + 1` links away, over as few relays as
there can be. -/
def Spread (t : Topology) (i : ℕ) (net : Network) : Prop :=
  ∀ {n p d}, t.graph.edist n p = (d + 1 : ℕ) → d ≤ i → (net n).layer.ReachesIn p d

theorem Met.ordered (h : Met t net) (n : PeerId) : (net n).layer.Ordered n where
  peerId := h.peerId n
  transport := h.transport n
  policy := h.policy n
  sorted := by
    intro p
    refine List.pairwise_of_forall_mem_list fun x hx y hy => ?_
    have hzero {r : Route} (hr : r ∈ (net n).layer.transport.routes.route p) : r.metric = 0 :=
      (h.direct ⟨r, hr, rfl, rfl⟩).1
    simp only [RouteTable.policyLe, hzero hx, hzero hy]
    exact UInt8.le_refl 0
  acquainted := fun hroute _ => h.acquainted hroute

/-- A peer that has a link has an id of its own. -/
theorem Met.specified_of_edist (h : Met t net) (hp : t.graph.edist n p = (d + 1 : ℕ)) :
    p.isUnspecified = false ∧ p.isBroadcast = false := by
  rw [SimpleGraph.edist_comm] at hp
  obtain ⟨k, q, k', hlink, -⟩ := Topology.exists_nearer hp
  exact h.specified (t.symm hlink)

/-- The neighbours are reached from the start. -/
theorem Met.spread (h : Met t net) : Spread t 0 net := by
  intro n p d hp hd
  obtain rfl : d = 0 := by omega
  obtain ⟨k, q, k', hlink, hq⟩ := Topology.exists_nearer hp
  obtain rfl : q = p := SimpleGraph.edist_eq_zero_iff.mp (by exact_mod_cast hq)
  exact ⟨k, 0, h.route hlink, Nat.le_refl 0⟩

/-- A round carries the routes one link further. -/
theorem Spread.round (h : Spread t i net) (hc : c.Faithful)
    (hordered : ∀ n, (net n).layer.Ordered n) {net₀ : Network} (hmet : Met t net₀)
    (hround : Round c t net es) (hrun : Transition.run (step c t) net es = some net') :
    Spread t (i + 1) net' := by
  intro n p d hp hd
  rcases Nat.le_or_eq_of_le_succ hd with hnear | rfl
  · exact (h hp hnear).evolves (evolves_run hrun n) (hordered n).policy
  · obtain ⟨k, q, k', hlink, hq⟩ := Topology.exists_nearer hp
    exact (hround hlink).reachesIn hc hordered hrun (t.irrefl hlink).symm (hmet.specified hlink).1
      (hmet.specified_of_edist hp).1 (Topology.ne_of_edist hp) (Topology.ne_of_edist hq)
      (h hq (Nat.le_refl i))

/-- So each of several rounds does. -/
theorem Rounds.spread (h : Rounds c t i net es net') (hc : c.Faithful)
    (hordered : ∀ n, (net n).layer.Ordered n) {net₀ : Network} (hmet : Met t net₀)
    (hspread : Spread t d net) : Spread t (d + i) net' := by
  induction h generalizing d with
  | none ran =>
      intro n p e hp he
      exact (hspread hp he).evolves (evolves_run ran n) (hordered n).policy
  | round hround ran _ ih =>
      rw [Nat.add_comm _ 1, ← Nat.add_assoc]
      exact ih (ordered_run ran hordered) (hspread.round hc hordered hmet hround ran)

theorem Met.sound (h : Met t net) : Sound c t net :=
  ⟨Network.sound_initial h.toInitial, fun {n x} hx => by rw [h.queue n] at hx; cases hx⟩

/-- Every run in which the ingested entries are covered is sound. -/
theorem Rounds.sound (h : Rounds c t i net es net') (hc : c.Faithful) (hmet : Met t net)
    (hcovers : Along (step c t) (fun net e => Network.coversAt c net e = true) net es) :
    Sound c t net' :=
  run_invariant_along (fun _ _ _ hcovers hstep hm => hm.step hc hcovers hstep) h.run hcovers
    hmet.sound

/-- After `rounds` rounds every peer that is no more than `rounds + 1` links away is reached, over
as few relays as there can be. -/
theorem Rounds.reachesIn (h : Rounds c t i net es net') (hc : c.Faithful) (hmet : Met t net)
    (hp : t.graph.edist n p = (d + 1 : ℕ)) (hd : d ≤ i) : (net' n).layer.ReachesIn p d :=
  h.spread hc hmet.ordered hmet hmet.spread hp (by omega)

end Runs

/-- After `rounds` rounds of route queries a node finds every peer that is no more than
`rounds + 1` links away, over as few relays as there can be: at most so many by the metric of
the route.  Where every ingested entry was covered, the metric is right, and the route begins a
shortest way. -/
theorem discovery_shortest {c : Codec} {t : Topology} (hc : c.Faithful) {net₀ net : Network}
    (hmet : Met t net₀) {rounds : ℕ} {es : List (PeerId × Event)}
    (hrounds : Rounds c t rounds net₀ es net) {n p : PeerId} {d : ℕ}
    (hp : t.graph.edist n p = (d + 1 : ℕ)) (hd : d ≤ rounds) :
    ∃ r, ((net n).layer.transport.routeFor p).1 = .ok r ∧ r.metric.toNat ≤ d ∧
      (Along (step c t) (fun net e => coversAt c net e = true) net₀ es →
        r.metric.toNat = d ∧ t.relays n r.routeKey p = d) := by
  have hordered := ordered_run hrounds.run hmet.ordered n
  obtain ⟨r, hr, hmem, hmetric⟩ := (hrounds.reachesIn hc hmet hp hd).lookup hordered.policy
    (hordered.sorted p)
  refine ⟨r, hr, hmetric, fun hcovers => ?_⟩
  exact Topology.eq_of_relays_le hp
    ((hrounds.sound hc hmet hcovers).routes ⟨r, hmem, rfl, rfl⟩) hmetric

/-! ## One round on the chain -/

/-- A peer of the chain in a route reply.  Only the sender knows about its NAT. -/
def roundEntry (id : PeerId) (natInfo : Option Pb.NatInfo) : Pb.RouteEntry :=
  ⟨some (chainPeer id.value (chainCodec.socketAddr.format (chainAddr (chainNumber id))) natInfo), 0⟩

/-- The protobuf bytes of the id and the address of a node of the chain. -/
def roundEntryBytes (id : PeerId) : List UInt8 :=
  [10, 1, 96 + chainNumber id, 18, 13, 49, 48, 46, 48, 46, 48, 46, 48 + chainNumber id, 58, 53, 48,
    48, 48, 32, 1, 40, 1]

/-- The neighbours that `q` advertises to `n`. -/
def roundOthers (n q : PeerId) : List PeerId :=
  ((chainNeighbours q).map Prod.fst).filter fun p => p ≠ n

/-- The route reply of `q` to `n`. -/
def roundMessage (n q : PeerId) : Pb.RouteReplyPayload :=
  ⟨roundEntry q (some chainNat) :: (roundOthers n q).map fun p => roundEntry p none⟩

/-- Its protobuf bytes. -/
def roundMessageBytes (n q : PeerId) : List UInt8 :=
  [10, 35, 10, 33] ++ roundEntryBytes q ++ [50, 9, 58, 7, 48, 46, 48, 46, 48, 46, 48] ++
    (roundOthers n q).flatMap fun p => [10, 24, 10, 22] ++ roundEntryBytes p

/-- A codec that knows the replies along the links. -/
def roundCodec : Codec :=
  { chainCodec with
    routeReply := .ofTable (chainLinks.map fun e =>
      (roundMessage e.1.1 e.2.1, roundMessageBytes e.1.1 e.2.1)) }

/-- The route query of `n` to `q`. -/
def roundQuery (n q : PeerId) : Packet where
  buf := [137, 3, 0, 3, 3, 0, 0, 0, 15, 0, 1, 0, 1, 96 + chainNumber n, 96 + chainNumber q]
  src := n
  dest := q
  payloadOffset := 15
  header_le := Packet.header_le_fifteen
  offset_le := by simp

/-- The packet with the reply of `q` to `n`. -/
def roundReply (n q : PeerId) : Packet where
  buf := [138, 3, 0, 3, 3, 0, 0, 0, .ofNat (15 + (roundMessageBytes n q).length), 0, 1, 0, 1,
    96 + chainNumber q, 96 + chainNumber n] ++ roundMessageBytes n q
  src := q
  dest := n
  payloadOffset := 15
  header_le := Packet.header_le_fifteen
  offset_le := by simp

/-- All nodes of the chain ask their neighbours. -/
def roundAsks : List (PeerId × Event) :=
  [⟨"a"⟩, ⟨"b"⟩, ⟨"c"⟩, ⟨"d"⟩].flatMap fun n =>
    List.replicate ((chainNeighbours n).length + 1) (n, .task .maintain (Env.atMillis 1))

/-- A query arrives over a link. -/
def roundHeard (e : (PeerId × RouteKey) × (PeerId × RouteKey)) : PeerId × Event :=
  (e.2.1, .packet (Env.atMillis 1) (roundQuery e.1.1 e.2.1).buf e.2.2)

/-- The reply comes back over it. -/
def roundLearnt (e : (PeerId × RouteKey) × (PeerId × RouteKey)) : PeerId × Event :=
  (e.1.1, .packet (Env.atMillis 1) (roundReply e.1.1 e.2.1).buf e.1.2)

/-- All queries arrive before the first reply does. -/
def roundEvents : List (PeerId × Event) :=
  roundAsks ++ chainLinks.map roundHeard ++ chainLinks.map roundLearnt

/-- The query at a link is heard and answered, when those at the links before have been. -/
def Answered (before : List ((PeerId × RouteKey) × (PeerId × RouteKey)))
    (e : (PeerId × RouteKey) × (PeerId × RouteKey)) : Prop :=
  ∃ asked, Transition.run (step roundCodec chain) chainNetwork
      (roundAsks ++ before.map roundHeard) = some asked ∧
    (asked e.2.1).layer.screen (roundQuery e.1.1 e.2.1).buf = .ok (some (roundQuery e.1.1 e.2.1)) ∧
      (asked e.2.1).layer.isLocal (roundQuery e.1.1 e.2.1) = true ∧
        .toRoute e.2.2 (roundReply e.1.1 e.2.1).buf ∈ (handleTransportPacket roundCodec
          (Env.atMillis 1) (asked e.2.1).layer (roundQuery e.1.1 e.2.1).buf e.2.2).effects

instance (before : List ((PeerId × RouteKey) × (PeerId × RouteKey)))
    (e : (PeerId × RouteKey) × (PeerId × RouteKey)) : Decidable (Answered before e) :=
  inferInstanceAs (Decidable (∃ _, _ ∧ _))

/-- In the run every node asks each of its neighbours. -/
theorem round_chain : Round roundCodec chain chainNetwork roundEvents := by
  intro n k q k' hlink
  have hanswers : ∀ i (h : i < chainLinks.length), Answered (chainLinks.take i) chainLinks[i] := by
    decide +kernel
  have hreads : ∀ e ∈ chainLinks,
      Packet.parse (roundReply e.1.1 e.2.1).buf = .ok (roundReply e.1.1 e.2.1) ∧
      (decodeRouteReplyPayload roundCodec (roundReply e.1.1 e.2.1).payload).toOption.isSome ∧
      (roundQuery e.1.1 e.2.1).protocol = .ok .idRouteQuery := by
    decide +kernel
  have hmem := mem_chainLinks hlink
  obtain ⟨hparsed, hread, htype⟩ := hreads _ hmem
  obtain ⟨i, hi, hget⟩ := List.getElem_of_mem hmem
  obtain ⟨asked, hrun, hscreen, hlocal, hanswer⟩ := hanswers i hi
  rw [hget] at hscreen hlocal hanswer
  have hsplit : chainLinks =
      chainLinks.take i ++ ((n, k), (q, k')) :: chainLinks.drop (i + 1) := by
    rw [← hget, ← List.drop_eq_getElem_cons hi, List.take_append_drop]
  have hevents : roundEvents = (roundAsks ++ (chainLinks.take i).map roundHeard) ++
      roundHeard ((n, k), (q, k')) ::
        ((chainLinks.drop (i + 1)).map roundHeard ++ (chainLinks.take i).map roundLearnt) ++
      roundLearnt ((n, k), (q, k')) :: (chainLinks.drop (i + 1)).map roundLearnt := by
    rw [roundEvents]
    nth_rewrite 1 2 [hsplit]
    simp
  rw [hevents]
  cases hpayload : decodeRouteReplyPayload roundCodec (roundReply n q).payload with
  | error e => rw [hpayload] at hread; cases hread
  | ok payload =>
      exact .intro hrun hscreen hlocal htype rfl hanswer hparsed hpayload

/-- The layer of a node of the chain is in order, and nothing waits for its core sender. -/
theorem ordered_chainNode (id : PeerId) (i : UInt8) (neighbours : List (PeerId × UInt8)) :
    (chainNode id i neighbours).layer.Ordered id ∧
      (chainNode id i neighbours).layer.queue = [] := by
  have hfold (l : ProtocolLayer) (hl : l.Ordered id) (hqueue : l.queue = []) :
      (neighbours.foldl meet l).Ordered id ∧ (neighbours.foldl meet l).queue = [] := by
    induction neighbours generalizing l with
    | nil => exact ⟨hl, hqueue⟩
    | cons e rest ih =>
        exact ih (meet l e) (hl.confirmPeerRoute _ _ _ _)
          ((l.queue_confirmPeerRoute _ _ _ _).trans hqueue)
  refine hfold _ ⟨rfl, rfl, rfl, fun _ => .nil, fun hroute _ => ?_⟩ rfl
  exact absurd hroute (Startup.not_hasRoute _ _ _ _)

/-- The nodes of the chain know their neighbours and have direct routes to them. -/
theorem met_chain : Met chain chainNetwork where
  toInitial := initial_chainNetwork
  queue := fun n => (ordered_chainNode n _ _).2
  transport := fun n => (ordered_chainNode n _ _).1.transport
  policy := fun n => (ordered_chainNode n _ _).1.policy
  acquainted := by
    intro n p k m hroute
    obtain ⟨k', hlink⟩ := (initial_chainNetwork.direct hroute).2
    exact (ordered_chainNode n _ _).1.acquainted hroute (chain.irrefl hlink).symm
  route := by
    have hjoined : ∀ e ∈ chainLinks, (chainNetwork e.1.1).layer.HasRoute e.2.1 e.1.2 0 := by
      decide +kernel
    intro n k q k' hlink
    exact hjoined ((n, k), (q, k')) (mem_chainLinks hlink)
  specified := by
    have hspecified : ∀ e ∈ chainLinks,
        e.2.1.isUnspecified = false ∧ e.2.1.isBroadcast = false := by decide
    intro n k q k' hlink
    exact hspecified ((n, k), (q, k')) (mem_chainLinks hlink)

/-- A codec in which no two messages have the same encoding is faithful. -/
theorem faithful_ofTable {μ : Type} [DecidableEq μ] {table : List (μ × List UInt8)}
    (hbytes : ∀ e ∈ table, e.2 ≠ [0xff]) (hinjective : ∀ e ∈ table, ∀ e' ∈ table, e.2 = e'.2 →
      e.1 = e'.1) : (Message.ofTable table).Faithful := by
  intro m m' h
  simp only [Message.ofTable] at h
  split at h
  next e' hdecode =>
    cases h
    have hmem' := List.mem_of_find?_eq_some hdecode
    have hbytes' := List.find?_some hdecode
    cases hencode : table.find? fun e => e.1 = m with
    | none =>
        rw [hencode] at hbytes'
        exact absurd (of_decide_eq_true hbytes') (hbytes e' hmem')
    | some e =>
        rw [hencode] at hbytes'
        have hm : e.1 = m := by simpa using List.find?_some hencode
        rw [← hm]
        exact hinjective e' hmem' e (List.mem_of_find?_eq_some hencode) (of_decide_eq_true hbytes')
  next => cases h

theorem faithful_roundCodec : roundCodec.Faithful where
  hello := faithful_chainCodec.hello
  routeReply := faithful_ofTable (by decide) (by decide)
  punch := faithful_chainCodec.punch

/-- From `a` to `c` there are two links. -/
theorem edist_chain : chain.graph.edist ⟨"a"⟩ ⟨"c"⟩ = (1 + 1 : ℕ) := by
  refine le_antisymm ?_ ?_
  · have hab : chain.link ⟨"a"⟩ (chainKey 2) = some (⟨"b"⟩, chainKey 1) := by decide
    have hbc : chain.link ⟨"b"⟩ (chainKey 3) = some (⟨"c"⟩, chainKey 2) := by decide
    have hcc : chain.graph.edist ⟨"c"⟩ ⟨"c"⟩ ≤ (0 : ℕ) := by simp
    have hnear := Topology.edist_le_of_link hbc hcc
    exact Topology.edist_le_of_link hab hnear
  · by_contra hlt
    have hone : chain.graph.edist ⟨"a"⟩ ⟨"c"⟩ ≤ 1 := by simpa using hlt
    rcases SimpleGraph.edist_le_one_iff_adj_or_eq.mp hone with ⟨k, k', hadj⟩ | heq
    · have hnone : ∀ e ∈ chainLinks, ¬ (e.1.1 = ⟨"a"⟩ ∧ e.2.1 = ⟨"c"⟩) := by decide
      exact hnone _ (mem_chainLinks hadj) ⟨rfl, rfl⟩
    · exact absurd heq (by decide)

/-- After one round `a` knows the shortest way to `c`, with its one relay. -/
theorem discovery_shortest_chain :
    ∃ net, Transition.run (step roundCodec chain) chainNetwork roundEvents = some net ∧
      ∃ r, ((net ⟨"a"⟩).layer.transport.routeFor ⟨"c"⟩).1 = .ok r ∧ r.metric.toNat = 1 ∧
        chain.relays ⟨"a"⟩ r.routeKey ⟨"c"⟩ = (1 : ℕ) := by
  have hcovers : Transition.Along (step roundCodec chain)
      (fun net e => coversAt roundCodec net e = true) chainNetwork roundEvents := by
    decide +kernel
  obtain ⟨net, hrun, -⟩ :
      ∃ net, Transition.run (step roundCodec chain) chainNetwork roundEvents = some net ∧ True := by
    decide +kernel
  have hrounds : Rounds roundCodec chain 1 chainNetwork (roundEvents ++ []) net :=
    .round round_chain hrun (.none rfl)
  rw [List.append_nil] at hrounds
  obtain ⟨r, hr, -, hexact⟩ := discovery_shortest faithful_roundCodec met_chain hrounds
    edist_chain (Nat.le_refl 1)
  exact ⟨net, hrun, r, hr, hexact hcovers⟩

end Overlay

end RustP2p
