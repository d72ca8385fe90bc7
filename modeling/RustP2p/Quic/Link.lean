import RustP2p.Core.RouteOrder
import RustP2p.Quic.Protocol

/-!
# What is reported of a route and what is used

Three readers pick the best route of a peer.  Sending uses `get_route_by_id`,
which takes the first direct route, if there is one.  `link_info` takes the first
route of the list, and so does `discovery_entries` for the metric it advertises.

They agree as long as a peer with a direct route has one at the head of its list.
The fewest hops and round robin sort by metric and always have it there.  The
other two policies do not.
-/

namespace RustP2p

open RouteTable (Picked)

/-! ## The two picks -/

/-- The reported metric is the one that is used.  Under round robin only the kind of
the route is compared. -/
def SameMetric (policy : LoadBalance) (reported used : UInt8) : Prop :=
  if policy = .roundRobin then reported = 0 ↔ used = 0 else reported = used

/-- The first route agrees with the picked one exactly if no route is direct or the
first one is. -/
theorem agrees_with_head_iff {policy : LoadBalance} {l : List Route} {first r : Route}
    (hfirst : l.head? = some first) (hr : Picked policy l r) :
    ((first.metric = 0 ↔ r.isDirect = true) ∧ SameMetric policy first.metric r.metric) ↔
      (∀ x ∈ l, x.metric ≠ 0) ∨ first.metric = 0 := by
  have hmem := List.mem_of_head? hfirst
  cases hr with
  | direct found =>
      have hzero : r.metric = 0 := Route.isDirect_iff.mp (List.find?_some found)
      have hdirect : ¬ ∀ x ∈ l, x.metric ≠ 0 := fun h => h r (List.mem_of_find?_eq_some found) hzero
      simp only [Route.isDirect_iff, hzero, iff_true, hdirect, false_or]
      constructor
      · exact And.left
      · intro h
        refine ⟨h, ?_⟩
        simp [SameMetric, h]
  | head relay turns found =>
      obtain rfl : first = r := by
        rw [hfirst] at found
        exact Option.some.inj found
      refine iff_of_true ⟨Route.isDirect_iff.symm, ?_⟩ (Or.inl relay)
      simp [SameMetric]
  | turn relay turns mem =>
      refine iff_of_true ⟨?_, ?_⟩ (Or.inl relay)
      · simp [relay first hmem, relay r mem]
      · simp [SameMetric, turns, relay first hmem, relay r mem]

/-- Sorted by metric, a direct route is at the head of the list. -/
theorem head_direct_of_sorted {l : List Route} {first : Route} (hfirst : l.head? = some first)
    (hl : l.Pairwise fun x y => x.metric ≤ y.metric) :
    (∀ x ∈ l, x.metric ≠ 0) ∨ first.metric = 0 := by
  by_cases h : ∀ x ∈ l, x.metric ≠ 0
  · exact Or.inl h
  · simp only [ne_eq, not_forall, not_not] at h
    obtain ⟨x, hx, hzero⟩ := h
    have hle := RouteTable.le_of_head? (fun x => UInt8.le_refl x.metric) hl hfirst x hx
    rw [hzero] at hle
    exact Or.inr (UInt8.le_zero_iff.mp hle)

/-- The packet is queued for the route to the peer.  Only a direct route is queued by
its key; a relay route is looked up again when the packet is sent. -/
def CoreOutboundPacket.QueuedFor (p : PeerId) (route : Route) : CoreOutboundPacket → Prop
  | .routePacket routeKey _ => route.isDirect = true ∧ routeKey = route.routeKey
  | .peerPacket dest _ => route.isDirect = false ∧ dest = p

namespace ProtocolLayer

/-- What is reported and advertised of the link to a peer agrees with the route that
sending to it uses. -/
def ReportsUsedRoute (l : ProtocolLayer) (p : PeerId) : Prop :=
  ∃ route info, (l.transport.routeFor p).1 = .ok route ∧
    (∀ env data, ∀ e ∈ (l.transport.sendWire env p data).effects,
      e = .toRoute route.routeKey data) ∧
    (∀ payload, ∀ o ∈ (l.trySendQuicPayload p payload).state.transport.outbound,
      o ∈ l.transport.outbound ∨ o.QueuedFor p route) ∧
    l.transport.linkInfo p = some info ∧
    (l.transport.linkMode p = some .direct ↔ route.isDirect = true) ∧
    SameMetric l.transport.routes.loadBalance info.metric route.metric ∧
    -- The entry a node makes for itself is not about a route.
    ∀ env requester, ∀ entry ∈ l.discoveryEntries env requester, entry.peer.peerId = p →
      p ≠ l.peerId → SameMetric l.transport.routes.loadBalance entry.metric route.metric

/-- Sending to a peer goes over the route that lookup gives. -/
theorem effects_sendWire_of_routeFor {t : Transport} {p : PeerId} {route : Route}
    (hroute : (t.routeFor p).1 = .ok route) {env : Env} {data : List UInt8} {e : Effect}
    (he : e ∈ (t.sendWire env p data).effects) : e = .toRoute route.routeKey data := by
  simp only [Transport.sendWire] at he
  split at he
  next found t' hfound =>
    rw [hfound] at hroute
    cases hroute
    exact Transport.effects_sendWireToRoute he
  next e' t' hfound =>
    rw [hfound] at hroute
    cases hroute

/-- So is QUIC ciphertext queued for it. -/
theorem queuedFor_trySendQuicPayload {l : ProtocolLayer} {p : PeerId} {route : Route}
    (hroute : (l.transport.routeFor p).1 = .ok route) {payload : List UInt8}
    {o : CoreOutboundPacket}
    (ho : o ∈ (l.trySendQuicPayload p payload).state.transport.outbound) :
    o ∈ l.transport.outbound ∨ o.QueuedFor p route := by
  simp only [trySendQuicPayload] at ho
  split at ho
  next => exact Or.inl ho
  next packet hbuild =>
    split at ho
    next found t' hfound =>
      rw [hfound] at hroute
      cases hroute
      -- Lookup leaves the queue alone.
      obtain rfl : (l.transport.routeFor p).2 = t' := by rw [hfound]
      simp only [Outcome.ok_state] at ho
      split at ho
      next hdirect =>
        simp only [Transport.trySendWireToRoute, List.mem_append, List.mem_singleton] at ho
        rcases ho with hold | rfl
        · exact Or.inl hold
        · exact Or.inr ⟨Route.isDirect_iff.mpr hdirect, rfl⟩
      next hrelay =>
        simp only [Transport.trySendWire, List.mem_append, List.mem_singleton] at ho
        rcases ho with hold | rfl
        · exact Or.inl hold
        · exact Or.inr ⟨by simpa [Route.isDirect] using hrelay, rfl⟩
    next e' t' hfound =>
      rw [hfound] at hroute
      cases hroute

/-- The metric advertised for another peer is the one of its first route. -/
theorem metric_of_discoveryEntries {l : ProtocolLayer} {env : Env} {requester : PeerId}
    {entry : RouteEntry} (h : entry ∈ l.discoveryEntries env requester)
    (hself : entry.peer.peerId ≠ l.peerId) :
    ((l.transport.routesOf entry.peer.peerId).head?).map Route.metric = some entry.metric := by
  rcases head_of_discoveryEntries h with hown | ⟨route, hroute, hmetric⟩
  · exact absurd hown hself
  · rw [hroute, Option.map_some, hmetric]

/-- What is reported depends on the first route only. -/
theorem reportsUsedRoute_iff_head {l : ProtocolLayer} {p : PeerId} {route first : Route}
    (hroute : (l.transport.routeFor p).1 = .ok route)
    (hfirst : (l.transport.routesOf p).head? = some first) :
    l.ReportsUsedRoute p ↔ (first.metric = 0 ↔ route.isDirect = true) ∧
      SameMetric l.transport.routes.loadBalance first.metric route.metric := by
  have hinfo : l.transport.linkInfo p =
      some ⟨p, if first.metric = 0 then .direct else .relay, first.metric⟩ := by
    rw [Transport.linkInfo, RouteTable.routeOne_eq]
    rw [Transport.routesOf] at hfirst
    rw [hfirst]
    rfl
  have hmode : l.transport.linkMode p = some .direct ↔ first.metric = 0 := by
    rw [Transport.linkMode, hinfo]
    by_cases hzero : first.metric = 0 <;> simp [hzero]
  constructor
  · intro h
    obtain ⟨route', info, hroute', -, -, hinfo', hdirect, hmetric, -⟩ := h
    rw [hroute] at hroute'
    cases hroute'
    rw [hinfo] at hinfo'
    cases hinfo'
    rw [hmode] at hdirect
    exact ⟨hdirect, hmetric⟩
  · intro h
    obtain ⟨hdirect, hmetric⟩ := h
    refine ⟨route, _, hroute, ?_, ?_, hinfo, hmode.trans hdirect, hmetric, ?_⟩
    · intro env data e he
      exact effects_sendWire_of_routeFor hroute he
    · intro payload o ho
      exact queuedFor_trySendQuicPayload hroute ho
    · rintro env requester entry hentry rfl hself
      have hadvertised := metric_of_discoveryEntries hentry hself
      rw [hfirst] at hadvertised
      rw [← Option.some.inj hadvertised]
      exact hmetric

/-- After every history of its route table, what a layer reports of a peer with a route
agrees with the route it uses exactly if the policy sorts by metric, or the peer
has no direct route, or its first route is direct. -/
theorem reportsUsedRoute_iff (policy : LoadBalance) (ops : List (RouteOp PeerId))
    (l : ProtocolLayer) (hl : l.transport.routes = (RouteTable.new policy).runOps ops)
    (p : PeerId) (hp : l.transport.routesOf p ≠ []) :
    l.ReportsUsedRoute p ↔
      policy = .minHopLowestLatency ∨ policy = .roundRobin ∨
        (∀ r ∈ l.transport.routesOf p, r.metric ≠ 0) ∨
        ∃ r, (l.transport.routesOf p).head? = some r ∧ r.metric = 0 := by
  have hpolicy : l.transport.routes.loadBalance = policy := by
    rw [hl]
    exact RouteTable.loadBalance_runOps _ ops
  have hsorted := RouteTable.pairwise_runOps policy ops p
  rw [← hl] at hsorted
  obtain ⟨route, hroute⟩ := RouteTable.getRouteById_isOk hp
  obtain ⟨first, hfirst⟩ : ∃ first, (l.transport.routesOf p).head? = some first :=
    ⟨_, List.head?_eq_some_head hp⟩
  have hpicked := RouteTable.picked_of_getRouteById hroute
  rw [reportsUsedRoute_iff_head hroute hfirst, agrees_with_head_iff hfirst hpicked, hfirst]
  simp only [Option.some.injEq, exists_eq_left']
  constructor
  · intro h
    exact Or.inr (Or.inr h)
  · intro h
    rcases h with rfl | rfl | h
    · exact head_direct_of_sorted hfirst hsorted
    · exact head_direct_of_sorted hfirst hsorted
    · exact h

/-- A layer that confirmed a direct route to `b` and then a relay route. -/
def twoRoutes (policy : LoadBalance) : ProtocolLayer :=
  let transport := Transport.bind ⟨"a"⟩ (.v4 ⟨10, 0, 0, 9⟩ 5000) (.v4 ⟨0, 0, 0, 0⟩ 5000) none policy
  let transport := transport.confirmRoute (Env.atMillis 0) ⟨"b"⟩ RouteTable.pathOne 0
  let transport := transport.confirmRoute (Env.atMillis 1) ⟨"b"⟩ RouteTable.pathTwo 1
  .new ⟨"a"⟩ transport 16 none [] .default

/-- The history of its route table. -/
def twoRoutesHistory : List (RouteOp PeerId) :=
  [.addRoute 0 ⟨"b"⟩ (.fromDefaultRt RouteTable.pathOne 0),
    .addRoute 1 ⟨"b"⟩ (.fromDefaultRt RouteTable.pathTwo 1)]

theorem reportsUsedRoute_iff_minHop :
    (twoRoutes .minHopLowestLatency).ReportsUsedRoute ⟨"b"⟩ ↔
      LoadBalance.minHopLowestLatency = .minHopLowestLatency ∨
        LoadBalance.minHopLowestLatency = .roundRobin ∨
        (∀ r ∈ (twoRoutes .minHopLowestLatency).transport.routesOf ⟨"b"⟩, r.metric ≠ 0) ∨
        ∃ r, ((twoRoutes .minHopLowestLatency).transport.routesOf ⟨"b"⟩).head? = some r ∧
          r.metric = 0 :=
  reportsUsedRoute_iff .minHopLowestLatency twoRoutesHistory (twoRoutes .minHopLowestLatency) rfl
    ⟨"b"⟩ (by decide)

/-- Under the most recent policy the relay route comes first.  It is reported, and the
direct route is used. -/
theorem most_recent_reports_unused_route :
    ¬ ∀ (policy : LoadBalance) (ops : List (RouteOp PeerId)) (l : ProtocolLayer) (p : PeerId),
      l.transport.routes = (RouteTable.new policy).runOps ops → l.transport.routesOf p ≠ [] →
      l.ReportsUsedRoute p := by
  intro h
  obtain ⟨route, info, hroute, -, -, -, hmode, -⟩ :=
    h .mostRecent twoRoutesHistory (twoRoutes .mostRecent) ⟨"b"⟩ rfl (by decide)
  have hused : ((twoRoutes .mostRecent).transport.routeFor ⟨"b"⟩).1 =
      .ok (.fromDefaultRt RouteTable.pathOne 0) := by rfl
  rw [hused] at hroute
  cases hroute
  exact absurd (hmode.mpr rfl) (by decide)

end ProtocolLayer

end RustP2p
