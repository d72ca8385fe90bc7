import RustP2p.Core.RouteOps

/-!
# The order of a peer's routes

Each policy keeps the list of a peer in an order (`policyLe`): by round trip for
the lowest latency, by metric for the fewest hops and for round robin.  The most
recent policy only moves the route it just wrote to the front.

`Change.order` sorts the changes of a list by what they do to its order.  They
leave a sublist of the routes, or they put the list in order again, or they
write a round trip in place.  The last of these is not followed by a sort unless
the policy is the lowest latency.  So the order by metric survives it, and the
order by metric and round trip (`Route.sortKeyLe`) does not.  `KeepsOrder` says
when a measurement leaves that order as it is.
-/

namespace RustP2p

namespace Route

theorem sortKeyLe_refl (x : Route) : sortKeyLe x x := Or.inr ⟨rfl, UInt32.le_refl _⟩

theorem sortKeyLe_total (x y : Route) : sortKeyLe x y ∨ sortKeyLe y x := by
  by_cases heq : x.metric = y.metric
  · rcases UInt32.le_total x.rtt y.rtt with hle | hge
    · exact Or.inl (Or.inr ⟨heq, hle⟩)
    · exact Or.inr (Or.inr ⟨heq.symm, hge⟩)
  · rcases UInt8.lt_or_lt_of_ne heq with hlt | hgt
    · exact Or.inl (Or.inl hlt)
    · exact Or.inr (Or.inl hgt)

theorem sortKeyLe_trans {x y z : Route} (hxy : sortKeyLe x y) (hyz : sortKeyLe y z) :
    sortKeyLe x z := by
  rcases hxy with hxy | ⟨hxy, hrtt⟩
  · rcases hyz with hyz | ⟨hyz, -⟩
    · exact Or.inl (UInt8.lt_trans hxy hyz)
    · exact Or.inl (hyz ▸ hxy)
  · rcases hyz with hyz | ⟨hyz, hrtt'⟩
    · exact Or.inl (hxy ▸ hyz)
    · exact Or.inr ⟨hxy.trans hyz, UInt32.le_trans hrtt hrtt'⟩

theorem metric_le_of_sortKeyLe {x y : Route} (h : sortKeyLe x y) : x.metric ≤ y.metric := by
  rcases h with hlt | ⟨heq, -⟩
  · exact UInt8.le_of_lt hlt
  · exact UInt8.le_of_eq heq

/-- A direct route comes before every relay route. -/
theorem sortKeyLe_of_direct {x y : Route} (hx : x.metric = 0) (hy : y.metric ≠ 0) :
    sortKeyLe x y := by
  refine Or.inl ?_
  rw [hx]
  exact UInt8.pos_iff_ne_zero.mpr hy

end Route

namespace RouteTable

/-! ## Sorted lists -/

/-- `sort_by_key` with the round trip. -/
theorem pairwise_sortByRtt (l : List TimedRoute) :
    (l.insertionSort fun x y => x.1.rtt ≤ y.1.rtt).Pairwise fun x y => x.1.rtt ≤ y.1.rtt := by
  have : Std.Total fun x y : TimedRoute => x.1.rtt ≤ y.1.rtt :=
    ⟨fun x y => UInt32.le_total x.1.rtt y.1.rtt⟩
  have : IsTrans TimedRoute fun x y => x.1.rtt ≤ y.1.rtt := ⟨fun _ _ _ => UInt32.le_trans⟩
  exact List.pairwise_insertionSort _ l

/-- `sort_by_key` with the metric and the round trip. -/
theorem pairwise_sortBySortKey (l : List TimedRoute) :
    (l.insertionSort fun x y => Route.sortKeyLe x.1 y.1).Pairwise
      fun x y => Route.sortKeyLe x.1 y.1 := by
  have : Std.Total fun x y : TimedRoute => Route.sortKeyLe x.1 y.1 :=
    ⟨fun x y => Route.sortKeyLe_total x.1 y.1⟩
  have : IsTrans TimedRoute fun x y => Route.sortKeyLe x.1 y.1 :=
    ⟨fun _ _ _ => Route.sortKeyLe_trans⟩
  exact List.pairwise_insertionSort _ l

/-- The first route of a list in order comes before every other. -/
theorem le_of_head? {R : Route → Route → Prop} (hrefl : ∀ x, R x x) {l : List Route} {r : Route}
    (hl : l.Pairwise R) (h : l.head? = some r) : ∀ x ∈ l, R r x := by
  obtain ⟨rest, rfl⟩ := List.head?_eq_some_iff.mp h
  intro x hx
  rcases List.mem_cons.mp hx with rfl | hx
  · exact hrefl x
  · exact (List.pairwise_cons.mp hl).1 x hx

/-- So does the first route with a property before the others that have it. -/
theorem le_of_find? {R : Route → Route → Prop} (hrefl : ∀ x, R x x) {q : Route → Bool}
    {l : List Route} {r : Route} (hl : l.Pairwise R) (h : l.find? q = some r) :
    ∀ x ∈ l, q x = true → R r x := by
  intro x hx hq
  refine le_of_head? hrefl (hl.filter q) ?_ x (List.mem_filter.mpr ⟨hx, hq⟩)
  rw [List.head?_filter]
  exact h

variable {ι : Type}

/-- What a change does to the order of a list. -/
theorem Change.order {policy : LoadBalance} {p : ι} {op : RouteOp ι} {l l' : List TimedRoute}
    (h : Change policy p op l l') :
    (l'.map Prod.fst).Sublist (l.map Prod.fst) ∨
      (∃ index routes, l' = reorder policy index routes) ∨
      ∃ pre x time post rtt, op = .updateRtt p x.routeKey rtt ∧ l = pre ++ (x, time) :: post ∧
        l' = if policy = .lowestLatency
          then (pre ++ ({ x with rtt := rtt }, time) :: post).insertionSort
            fun x y => x.1.rtt ≤ y.1.rtt
          else pre ++ ({ x with rtt := rtt }, time) :: post := by
  cases h with
  | same => exact Or.inl (List.Sublist.refl _)
  | touched =>
      refine Or.inl ?_
      simp only [List.map_append, List.map_cons]
      exact List.Sublist.refl _
  | updated => exact Or.inr (Or.inl ⟨_, _, rfl⟩)
  | pushed => exact Or.inr (Or.inl ⟨_, _, rfl⟩)
  | @measured x rtt pre post time => exact Or.inr (Or.inr ⟨pre, x, time, post, rtt, rfl, rfl, rfl⟩)
  | removed => exact Or.inl (List.filter_sublist.map _)
  | cleared => exact Or.inl (List.nil_sublist _)

/-! ## The order of each policy -/

/-- The order each policy keeps a list in. -/
def policyLe : LoadBalance → Route → Route → Prop
  | .mostRecent, _, _ => True
  | .lowestLatency, x, y => x.rtt ≤ y.rtt
  | _, x, y => x.metric ≤ y.metric

theorem pairwise_reorder (policy : LoadBalance) (index : Nat) (l : List TimedRoute) :
    ((reorder policy index l).map Prod.fst).Pairwise (policyLe policy) := by
  rw [List.pairwise_map]
  have byMetric := (pairwise_sortBySortKey l).imp fun h => Route.metric_le_of_sortKeyLe h
  cases policy with
  | mostRecent => exact List.pairwise_of_forall fun _ _ => trivial
  | lowestLatency => exact pairwise_sortByRtt l
  | minHopLowestLatency => exact byMetric
  | roundRobin => exact byMetric

/-- A round trip written in place changes no metric. -/
theorem pairwise_measured {policy : LoadBalance} (hpolicy : policy ≠ .lowestLatency)
    {pre post : List Route} {x : Route} {rtt : UInt32}
    (h : (pre ++ x :: post).Pairwise (policyLe policy)) :
    (pre ++ { x with rtt := rtt } :: post).Pairwise (policyLe policy) := by
  cases policy with
  | lowestLatency => exact absurd rfl hpolicy
  | mostRecent => exact List.pairwise_of_forall fun _ _ => trivial
  | minHopLowestLatency => simpa only [List.pairwise_append, List.pairwise_cons,
      List.forall_mem_cons, policyLe] using h
  | roundRobin => simpa only [List.pairwise_append, List.pairwise_cons,
      List.forall_mem_cons, policyLe] using h

/-- A change leaves a list in the order of the policy. -/
theorem Change.pairwise {policy : LoadBalance} {p : ι} {op : RouteOp ι} {l l' : List TimedRoute}
    (h : Change policy p op l l') (hl : (l.map Prod.fst).Pairwise (policyLe policy)) :
    (l'.map Prod.fst).Pairwise (policyLe policy) := by
  rcases h.order with hsub | ⟨index, routes, rfl⟩ | ⟨pre, x, time, post, rtt, -, rfl, rfl⟩
  · exact hl.sublist hsub
  · exact pairwise_reorder policy index routes
  · split
    next hpolicy =>
      subst hpolicy
      rw [List.pairwise_map]
      exact pairwise_sortByRtt _
    next hpolicy =>
      rw [List.map_append, List.map_cons] at hl ⊢
      exact pairwise_measured hpolicy hl

variable [DecidableEq ι]

/-- Every list of the table is in the order of its policy. -/
theorem pairwise_runOps (policy : LoadBalance) (ops : List (RouteOp ι)) (p : ι) :
    (((new policy : RouteTable ι).runOps ops).route p).Pairwise (policyLe policy) :=
  runOps_lists (J := fun l => (l.map Prod.fst).Pairwise (policyLe policy))
    (fun _ _ _ h hl => h.pairwise hl) List.Pairwise.nil ops

/-- What lookup picks from a list in order of the round trip. -/
theorem Picked.least_rtt {l : List Route} {r : Route} (h : Picked .lowestLatency l r)
    (hl : l.Pairwise (policyLe .lowestLatency)) :
    if ∃ d ∈ l, d.isDirect = true then
      r.isDirect = true ∧ ∀ d ∈ l, d.isDirect = true → r.rtt ≤ d.rtt
    else ∀ d ∈ l, r.rtt ≤ d.rtt := by
  cases h with
  | direct first =>
      have hr : r.isDirect = true := List.find?_some first
      rw [if_pos ⟨r, List.mem_of_find?_eq_some first, hr⟩]
      exact ⟨hr, le_of_find? (fun x => UInt32.le_refl x.rtt) hl first⟩
  | head relay turns first =>
      rw [if_neg (by simpa using relay)]
      exact le_of_head? (fun x => UInt32.le_refl x.rtt) hl first
  | turn relay turns mem => cases turns

/-- What lookup picks from a list in order of the metric, without round robin. -/
theorem Picked.least_metric {l : List Route} {r : Route} (h : Picked .minHopLowestLatency l r)
    (hl : l.Pairwise (policyLe .minHopLowestLatency)) : ∀ d ∈ l, r.metric ≤ d.metric := by
  cases h with
  | direct first =>
      have hr : r.metric = 0 := Route.isDirect_iff.mp (List.find?_some first)
      intro d hd
      rw [hr]
      exact UInt8.zero_le
  | head relay turns first => exact le_of_head? (fun x => UInt8.le_refl x.metric) hl first
  | turn relay turns mem => cases turns

/-- After every history the list of a peer is sorted by round trip under the lowest
latency policy, and by metric under the fewest hops and round robin.  So lookup
gives a direct route of least round trip if there is a direct one, and a route of
least round trip otherwise.  Under the fewest hops it gives a route of least metric. -/
theorem selection_order (policy : LoadBalance) (ops : List (RouteOp ι)) (p : ι) :
    let t := (new policy : RouteTable ι).runOps ops
    (policy = .lowestLatency → (t.route p).Pairwise fun x y => x.rtt ≤ y.rtt) ∧
      (policy = .minHopLowestLatency ∨ policy = .roundRobin →
        (t.route p).Pairwise fun x y => x.metric ≤ y.metric) ∧
      (t.route p ≠ [] → ∃ r ∈ t.route p, (t.getRouteById p).1 = .ok r ∧
        (policy = .lowestLatency →
          if ∃ d ∈ t.route p, d.isDirect = true then
            r.isDirect = true ∧ ∀ d ∈ t.route p, d.isDirect = true → r.rtt ≤ d.rtt
          else ∀ d ∈ t.route p, r.rtt ≤ d.rtt) ∧
        (policy = .minHopLowestLatency → ∀ d ∈ t.route p, r.metric ≤ d.metric)) := by
  intro t
  have hsorted : (t.route p).Pairwise (policyLe policy) := pairwise_runOps policy ops p
  have hpolicy : t.loadBalance = policy := loadBalance_runOps _ ops
  refine ⟨?_, ?_, ?_⟩
  · intro h
    subst h
    exact hsorted
  · intro h
    rcases h with rfl | rfl
    · exact hsorted
    · exact hsorted
  · intro hroutes
    obtain ⟨r, hr⟩ := getRouteById_isOk hroutes
    have hpicked := picked_of_getRouteById hr
    rw [hpolicy] at hpicked
    refine ⟨r, hpicked.mem, hr, ?_, ?_⟩
    · intro h
      subst h
      exact hpicked.least_rtt hsorted
    · intro h
      subst h
      exact hpicked.least_metric hsorted

/-! ## Fewest hops, then lowest latency -/

/-- A measurement leaves its route where the order by metric and round trip has it:
not below a route of the same metric listed before, and not above one listed after. -/
def KeepsOrder (t : RouteTable ι) : RouteOp ι → Prop
  | .updateRtt id key rtt => (t.route id).Pairwise fun x y => x.metric = y.metric →
      (x.routeKey = key → rtt ≤ y.rtt) ∧ (y.routeKey = key → x.rtt ≤ rtt)
  | _ => True

instance (t : RouteTable ι) : (op : RouteOp ι) → Decidable (t.KeepsOrder op)
  | .updateRtt _ _ _ => inferInstanceAs (Decidable (List.Pairwise _ _))
  | .addRoute _ _ _ => isTrue trivial
  | .addRouteIfAbsent _ _ _ => isTrue trivial
  | .updateReadTime _ _ _ => isTrue trivial
  | .getRouteById _ => isTrue trivial
  | .removeRoute _ _ => isTrue trivial
  | .removeAll _ => isTrue trivial

/-- A measurement that keeps the order keeps the list sorted. -/
theorem sortKey_measured {pre post : List Route} {x : Route} {rtt : UInt32}
    (hl : (pre ++ x :: post).Pairwise Route.sortKeyLe)
    (hkeeps : (pre ++ x :: post).Pairwise fun y z => y.metric = z.metric →
      (y.routeKey = x.routeKey → rtt ≤ z.rtt) ∧ (z.routeKey = x.routeKey → y.rtt ≤ rtt)) :
    (pre ++ { x with rtt := rtt } :: post).Pairwise Route.sortKeyLe := by
  simp only [List.pairwise_append, List.pairwise_cons, List.forall_mem_cons] at hl hkeeps ⊢
  obtain ⟨hpre, ⟨hx, hpost⟩, hbetween⟩ := hl
  obtain ⟨-, ⟨hkeepsx, -⟩, hkeepsbetween⟩ := hkeeps
  refine ⟨hpre, ⟨?_, hpost⟩, ?_⟩
  · intro y hy
    rcases hx y hy with hlt | ⟨heq, -⟩
    · exact Or.inl hlt
    · exact Or.inr ⟨heq, (hkeepsx y hy heq).1 trivial⟩
  · intro y hy
    refine ⟨?_, (hbetween y hy).2⟩
    rcases (hbetween y hy).1 with hlt | ⟨heq, -⟩
    · exact Or.inl hlt
    · exact Or.inr ⟨heq, ((hkeepsbetween y hy).1 heq).2 trivial⟩

/-- A call that keeps the order keeps every list sorted by metric and round trip. -/
theorem sortKey_apply {t : RouteTable ι} {op : RouteOp ι} (hop : t.KeepsOrder op)
    (hpolicy : t.loadBalance = .minHopLowestLatency) {p : ι}
    (h : (t.route p).Pairwise Route.sortKeyLe) :
    ((t.apply op).route p).Pairwise Route.sortKeyLe := by
  have hchange := change_apply t op p
  rw [hpolicy] at hchange
  simp only [route] at h ⊢
  rcases hchange.order with hsub | ⟨index, routes, hroutes⟩ |
    ⟨pre, x, time, post, rtt, rfl, hl, hl'⟩
  · exact h.sublist hsub
  · rw [hroutes, List.pairwise_map]
    exact pairwise_sortBySortKey routes
  · simp only [KeepsOrder, route, hl, List.map_append, List.map_cons] at hop
    rw [hl, List.map_append, List.map_cons] at h
    rw [hl', if_neg (by decide), List.map_append, List.map_cons]
    exact sortKey_measured h hop

/-- What lookup picks from such a list. -/
theorem Picked.least_sortKey {l : List Route} {r : Route} (h : Picked .minHopLowestLatency l r)
    (hl : l.Pairwise Route.sortKeyLe) : ∀ d ∈ l, Route.sortKeyLe r d := by
  cases h with
  | direct first =>
      intro d hd
      by_cases hdirect : d.isDirect = true
      · exact le_of_find? Route.sortKeyLe_refl hl first d hd hdirect
      · exact Route.sortKeyLe_of_direct (Route.isDirect_iff.mp (List.find?_some first))
          (by simpa using hdirect)
  | head relay turns first => exact le_of_head? Route.sortKeyLe_refl hl first
  | turn relay turns mem => cases turns

/-- A route of the peer that is least in metric and round trip. -/
def Least (t : RouteTable ι) (p : ι) (r : Route) : Prop :=
  r ∈ t.route p ∧ ∀ d ∈ t.route p, Route.sortKeyLe r d

instance (t : RouteTable ι) (p : ι) (r : Route) : Decidable (t.Least p r) :=
  inferInstanceAs (Decidable (_ ∧ _))

/-- Under the fewest hops, in a history whose measurements keep the order, lookup and
the first route of a peer are least in metric and round trip. -/
theorem minHop_lowest_latency (ops : List (RouteOp ι))
    (hops : Transition.Along step KeepsOrder (new .minHopLowestLatency : RouteTable ι) ops)
    (p : ι) :
    let t := (new .minHopLowestLatency : RouteTable ι).runOps ops
    t.route p ≠ [] → ∃ r r', (t.getRouteById p).1 = .ok r ∧ t.routeOne p = some r' ∧
      t.Least p r ∧ t.Least p r' := by
  intro t hroutes
  have hpolicy : t.loadBalance = .minHopLowestLatency := loadBalance_runOps _ ops
  have hsorted : (t.route p).Pairwise Route.sortKeyLe := by
    refine (Transition.run_invariant_along (I := fun t : RouteTable ι =>
      t.loadBalance = .minHopLowestLatency ∧ (t.route p).Pairwise Route.sortKeyLe) ?_
      (run_step _ ops) hops ⟨rfl, List.Pairwise.nil⟩).2
    intro s op s' hop hstep hs
    obtain ⟨hs, hsorted⟩ := hs
    cases hstep
    exact ⟨by rw [loadBalance_apply, hs], sortKey_apply hop hs hsorted⟩
  obtain ⟨r, hr⟩ := getRouteById_isOk hroutes
  have hpicked := picked_of_getRouteById hr
  rw [hpolicy] at hpicked
  have hhead := List.head?_eq_some_head hroutes
  refine ⟨r, (t.route p).head hroutes, hr, by rw [routeOne_eq, hhead], ?_, ?_⟩
  · exact ⟨hpicked.mem, hpicked.least_sortKey hsorted⟩
  · exact ⟨List.head_mem hroutes, le_of_head? Route.sortKeyLe_refl hsorted hhead⟩

/-- Two direct routes, the second of which is measured at `rtt`. -/
def measuredHistory (rtt : UInt32) : List (RouteOp Nat) :=
  [.addRoute 0 1 ⟨pathOne, 0, 30⟩, .addRoute 1 1 ⟨pathTwo, 0, 9999⟩, .updateRtt 1 pathTwo rtt]

theorem minHop_lowest_latency_slower :
    let t := (new .minHopLowestLatency : RouteTable Nat).runOps (measuredHistory 40)
    ∃ r r', (t.getRouteById 1).1 = .ok r ∧ t.routeOne 1 = some r' ∧ t.Least 1 r ∧ t.Least 1 r' :=
  minHop_lowest_latency (measuredHistory 40) (by decide) 1 (by decide)

/-- A second direct route that is measured to be the faster one stays behind the first,
and lookup goes on using the slower route. -/
theorem faster_route_stays_behind :
    ¬ ∀ (ops : List (RouteOp Nat)) (p : Nat) (r : Route),
      (((new .minHopLowestLatency : RouteTable Nat).runOps ops).getRouteById p).1 = .ok r →
      ((new .minHopLowestLatency : RouteTable Nat).runOps ops).Least p r := by
  intro h
  exact absurd (h (measuredHistory 20) 1 ⟨pathOne, 0, 30⟩ (by rfl)) (by decide)

end RouteTable

end RustP2p
