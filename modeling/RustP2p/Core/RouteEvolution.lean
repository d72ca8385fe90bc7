import RustP2p.Core.RouteOrder

/-!
# Tables that grow

A table that is only added to, touched, measured and looked up in: no call on it takes
a route away.  `Evolves t u` says that such calls lead from `t` to `u`, where nobody
looks at the order in which the map of the table iterates (`Alike`).

The facts about histories hold along the way.  A route stays under its key and does
not get longer (`Evolves.has`), and the lists stay in the order of the policy
(`Evolves.pairwise`).
-/

namespace RustP2p

/-- The call takes routes away. -/
def RouteOp.removes {ι : Type} : RouteOp ι → Bool
  | .removeRoute _ _ => true
  | .removeAll _ => true
  | _ => false

namespace RouteTable

variable {ι : Type} [DecidableEq ι]

/-! ## Tables up to iteration order -/

/-- The tables have the same entries, the same index and the same policy. -/
structure Alike (t u : RouteTable ι) : Prop where
  entries : ∀ p, t.routeTable.get p = u.routeTable.get p
  index : ∀ k, t.routeKeyTable.get k = u.routeKeyTable.get k
  policy : t.loadBalance = u.loadBalance

variable {t u v : RouteTable ι} {p : ι} {k : RouteKey} {m : UInt8}

theorem Alike.refl (t : RouteTable ι) : Alike t t := ⟨fun _ => rfl, fun _ => rfl, rfl⟩

theorem Alike.trans (h : Alike t u) (h' : Alike u v) : Alike t v :=
  ⟨fun p => (h.entries p).trans (h'.entries p), fun k => (h.index k).trans (h'.index k),
    h.policy.trans h'.policy⟩

theorem Alike.timedRoutes (h : Alike t u) (p : ι) : t.timedRoutes p = u.timedRoutes p := by
  simp only [RouteTable.timedRoutes, h.entries]

theorem Alike.route (h : Alike t u) (p : ι) : t.route p = u.route p := by
  simp only [RouteTable.route, h.timedRoutes]

theorem Alike.has (h : Alike t u) : t.Has p k m ↔ u.Has p k m := by
  simp only [Has, h.route]

theorem Alike.setRoutes (h : Alike t u) (id : ι) (routes : List TimedRoute) :
    Alike (t.setRoutes id routes) (u.setRoutes id routes) := by
  refine ⟨fun p => ?_, h.index, h.policy⟩
  simp only [RouteTable.setRoutes, DashMap.get_insert, h.entries]

theorem Alike.insertIndex (h : Alike t u) (key : RouteKey) (id : ι) :
    Alike { t with routeKeyTable := t.routeKeyTable.insert key id }
      { u with routeKeyTable := u.routeKeyTable.insert key id } := by
  refine ⟨h.entries, fun k => ?_, h.policy⟩
  simp only [DashMap.get_insert, h.index]

theorem Alike.addRoute_ (h : Alike t u) (now : Instant) (id : ι) (route : Route)
    (onlyIfAbsent : Bool) :
    Alike (t.addRoute_ now id route onlyIfAbsent).2 (u.addRoute_ now id route onlyIfAbsent).2 := by
  obtain ⟨entries, index, policy⟩ := t
  obtain ⟨entries', index', policy'⟩ := u
  obtain rfl : policy = policy' := h.policy
  simp only [RouteTable.addRoute_, h.timedRoutes]
  split
  next => exact h.setRoutes id _
  next =>
    split
    next => exact h
    next => exact h.setRoutes id _
    next => exact h.setRoutes id _
    next =>
      split
      next => exact (h.insertIndex route.routeKey id).setRoutes id _
      next => exact h.setRoutes id _

/-- Lookup reads its answer off the entry. -/
theorem Alike.getRouteById (h : Alike t u) (id : ι) :
    (t.getRouteById id).1 = (u.getRouteById id).1 ∧
      Alike (t.getRouteById id).2 (u.getRouteById id).2 := by
  obtain ⟨entries, index, policy⟩ := t
  obtain ⟨entries', index', policy'⟩ := u
  obtain rfl : policy = policy' := h.policy
  have hentries : ∀ p, DashMap.get entries p = DashMap.get entries' p := h.entries
  simp only [RouteTable.getRouteById, hentries]
  split
  next => exact ⟨rfl, h⟩
  next entry hentry =>
    split
    next => exact ⟨rfl, h⟩
    next =>
      split
      next => split <;> exact ⟨rfl, h⟩
      next =>
        split
        next =>
          refine ⟨rfl, fun p => ?_, h.index, rfl⟩
          simp only [DashMap.get_insert, hentries]
        next => exact ⟨rfl, h⟩

/-- A call that takes nothing away does the same to both. -/
theorem Alike.apply (h : Alike t u) {op : RouteOp ι} (hop : op.removes = false) :
    Alike (t.apply op) (u.apply op) := by
  cases op with
  | addRoute now id route => exact h.addRoute_ now id route false
  | addRouteIfAbsent now id route => exact h.addRoute_ now id route true
  | updateReadTime now id key =>
      simp only [RouteTable.apply, RouteTable.updateReadTime, h.timedRoutes]
      split
      next => exact h.setRoutes id _
      next => exact h
  | updateRtt id key rtt =>
      simp only [RouteTable.apply, RouteTable.updateRtt, h.timedRoutes, h.policy]
      split
      next => exact h.setRoutes id _
      next => exact h
  | getRouteById id => exact (h.getRouteById id).2
  | removeRoute id key => cases hop
  | removeAll id => cases hop

theorem Alike.runOps (h : Alike t u) {ops : List (RouteOp ι)}
    (hops : ∀ op ∈ ops, op.removes = false) : Alike (t.runOps ops) (u.runOps ops) := by
  induction ops generalizing t u with
  | nil => exact h
  | cons op ops ih =>
      exact ih (h.apply (hops op List.mem_cons_self))
        fun op' hop' => hops op' (List.mem_cons_of_mem _ hop')

/-! ## Growing tables -/

/-- Calls that take nothing away lead from the one table to the other. -/
def Evolves (t u : RouteTable ι) : Prop :=
  ∃ ops : List (RouteOp ι), (∀ op ∈ ops, op.removes = false) ∧ Alike u (t.runOps ops)

theorem Alike.evolves (h : Alike u t) : Evolves t u :=
  ⟨[], fun _ hop => absurd hop List.not_mem_nil, h⟩

theorem Evolves.refl (t : RouteTable ι) : Evolves t t := (Alike.refl t).evolves

theorem Evolves.trans (h : Evolves t u) (h' : Evolves u v) : Evolves t v := by
  obtain ⟨ops, hops, hu⟩ := h
  obtain ⟨ops', hops', hv⟩ := h'
  refine ⟨ops ++ ops', fun op hop => ?_, ?_⟩
  · rcases List.mem_append.mp hop with hop | hop
    · exact hops op hop
    · exact hops' op hop
  · rw [runOps_append]
    exact hv.trans (hu.runOps hops')

/-- One call. -/
theorem evolves_apply (t : RouteTable ι) {op : RouteOp ι} (hop : op.removes = false) :
    Evolves t (t.apply op) := by
  refine ⟨[op], fun op' hop' => ?_, .refl _⟩
  rw [List.mem_singleton.mp hop', hop]

theorem Evolves.policy (h : Evolves t u) : u.loadBalance = t.loadBalance := by
  obtain ⟨ops, -, hu⟩ := h
  exact hu.policy.trans (loadBalance_runOps t ops)

/-- A route stays: a direct one stays direct, and no other gets longer unless the policy goes
by latency. -/
theorem Evolves.has (h : Evolves t u) (hroute : t.Has p k m) :
    ∃ m', u.Has p k m' ∧ (m = 0 → m' = 0) ∧ (t.loadBalance ≠ .lowestLatency → m' ≤ m) := by
  obtain ⟨ops, hops, hu⟩ := h
  have hremove : .removeRoute p k ∉ ops := fun hop => by cases hops _ hop
  have hclear : .removeAll p ∉ ops := fun hop => by cases hops _ hop
  obtain ⟨m', hm', hrest⟩ := hroute.runOps hremove hclear
  exact ⟨m', hu.has.mpr hm', hrest⟩

/-- A list stays in the order of the policy. -/
theorem Evolves.pairwise (h : Evolves t u)
    (hsorted : (t.route p).Pairwise (policyLe t.loadBalance)) :
    (u.route p).Pairwise (policyLe t.loadBalance) := by
  obtain ⟨ops, -, hu⟩ := h
  rw [hu.route]
  refine (runOps_invariant (I := fun s => s.loadBalance = t.loadBalance ∧
    (s.route p).Pairwise (policyLe t.loadBalance)) ?_ ops ⟨rfl, hsorted⟩).2
  rintro s op ⟨hpolicy, hs⟩
  have hchange := change_apply s op p
  rw [hpolicy] at hchange
  exact ⟨by rw [loadBalance_apply, hpolicy], hchange.pairwise hs⟩

/-- A table that grew out of an empty one has no key twice in a list. -/
theorem Evolves.nodup_keys {policy : LoadBalance} (h : Evolves (new policy) t) (p : ι) :
    (keys (t.timedRoutes p)).Nodup := by
  obtain ⟨ops, -, ht⟩ := h
  rw [ht.timedRoutes]
  exact nodup_keys_runOps policy ops p

/-- After a route was offered there is one that is no longer. -/
theorem exists_has_addRoute (t : RouteTable ι) (now : Instant) (id : ι) (r : Route) :
    ∃ k m, (t.addRoute now id r).2.Has id k m ∧ m ≤ r.metric := by
  have hadded := added_addRoute_ t now id r false
  simp only [addRoute]
  generalize (t.addRoute_ now id r false).2 = t' at hadded
  cases hadded with
  | @rejected x mem beaten =>
      exact ⟨x.routeKey, x.metric, ⟨x, mem, rfl, rfl⟩, UInt8.le_of_lt beaten.1⟩
  | @touched pre post x time list key known =>
      refine ⟨x.routeKey, x.metric, (has_touched list).mpr (has_iff_listed.mpr ?_), ?_⟩
      · rw [list]
        exact ⟨(x, time), List.mem_append_right _ (.head _), rfl, rfl⟩
      · rcases known with honly | ⟨hzero, -⟩
        · cases honly
        · rw [hzero]
          exact UInt8.zero_le
  | @updated pre post x x' time list key overwrites unbeaten upgrade changed =>
      refine ⟨x'.routeKey, r.metric, has_setRoutes.mpr ?_, UInt8.le_refl _⟩
      rw [if_pos rfl, listed_perm (reorder_perm _ _ _)]
      exact ⟨(x', now), List.mem_append_right _ (.head _), rfl, by rw [changed]⟩
  | pushed passed indexed =>
      exact ⟨r.routeKey, r.metric, has_pushed.mpr (Or.inr ⟨rfl, rfl, rfl⟩), UInt8.le_refl _⟩

end RouteTable

end RustP2p
