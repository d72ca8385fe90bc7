import RustP2p.Core.RouteAdds

/-!
# The most recent route

Under the most recent policy `add_route_` puts the route it wrote first in the
list.  It swaps it with the route that was first, and so the route added before
goes to the place the new one came from, which is the end of the list for a new
key.  As long as the first route stays, lookup gives the route added last.  When
the first route is removed, the route behind it moves up, and this need not be
the one that was added last before it.

`lastAdd` numbers the calls of a history and gives the last one that added a key.
`LatestFirst` says that the first key of a list was added after all others.
`mostRecent_iff` is about the histories that offer a peer routes of one metric,
where no route is ever rejected.
-/

namespace RustP2p

namespace RouteTable

variable {ι : Type} [DecidableEq ι]

/-! ## When a key was last added -/

/-- The call is an `add_route` of the key for the peer. -/
def adds (p : ι) (k : RouteKey) : RouteOp ι → Bool
  | .addRoute _ id r => id = p ∧ r.routeKey = k
  | _ => false

/-- The number of the last call that added the key, from one on, and zero when there
was none. -/
def lastAdd (p : ι) (k : RouteKey) (ops : List (RouteOp ι)) : Nat :=
  ops.length - ops.reverse.findIdx (adds p k)

theorem lastAdd_le (p : ι) (k : RouteKey) (ops : List (RouteOp ι)) :
    lastAdd p k ops ≤ ops.length := Nat.sub_le _ _

theorem lastAdd_concat (p : ι) (k : RouteKey) (ops : List (RouteOp ι)) (op : RouteOp ι) :
    lastAdd p k (ops ++ [op]) = if adds p k op then ops.length + 1 else lastAdd p k ops := by
  simp only [lastAdd, List.reverse_append, List.reverse_singleton, List.singleton_append,
    List.findIdx_cons, List.length_append, List.length_singleton]
  cases adds p k op with
  | true => simp
  | false => simp

/-- The first key was added after all the others. -/
def LatestFirst (p : ι) (ops : List (RouteOp ι)) : List RouteKey → Prop
  | [] => True
  | k :: rest => ∀ k' ∈ rest, lastAdd p k' ops < lastAdd p k ops

instance (p : ι) (ops : List (RouteOp ι)) : (l : List RouteKey) → Decidable (LatestFirst p ops l)
  | [] => isTrue trivial
  | _ :: _ => inferInstanceAs (Decidable (∀ _ ∈ _, _))

/-- A call that adds no key leaves the numbers of all keys. -/
theorem latestFirst_concat_of_not_adds {p : ι} {ops : List (RouteOp ι)} {op : RouteOp ι}
    (hop : ∀ k, adds p k op = false) (l : List RouteKey) :
    LatestFirst p (ops ++ [op]) l ↔ LatestFirst p ops l := by
  cases l with
  | nil => exact Iff.rfl
  | cons k rest => simp only [LatestFirst, lastAdd_concat, hop, Bool.false_eq_true, if_false]

/-- The key that was just added is the latest. -/
theorem latestFirst_concat_add {p : ι} {ops : List (RouteOp ι)} {now : Instant} {r : Route}
    {rest : List RouteKey} (hnodup : (r.routeKey :: rest).Nodup) :
    LatestFirst p (ops ++ [.addRoute now p r]) (r.routeKey :: rest) := by
  intro k hk
  have hne : r.routeKey ≠ k := by
    rintro rfl
    exact (List.nodup_cons.mp hnodup).1 hk
  have hle := lastAdd_le p k ops
  simp only [lastAdd_concat, adds, hne, decide_true, decide_false, and_false, and_true,
    Bool.false_eq_true, if_false, if_true]
  omega

/-! ## Histories with one metric -/

/-- The call offers the peer a route of metric `m` with `add_route`, or does not offer it
any and does not drop all of its routes. -/
def OneMetric (p : ι) (m : UInt8) : RouteOp ι → Prop
  | .addRoute _ id r => id = p → r.metric = m
  | .addRouteIfAbsent _ id _ => id ≠ p
  | .removeAll id => id ≠ p
  | _ => True

instance (p : ι) (m : UInt8) : (op : RouteOp ι) → Decidable (OneMetric p m op)
  | .addRoute _ _ _ => inferInstanceAs (Decidable (_ → _))
  | .addRouteIfAbsent _ _ _ => inferInstanceAs (Decidable (¬ _))
  | .removeAll _ => inferInstanceAs (Decidable (¬ _))
  | .updateReadTime _ _ _ => isTrue trivial
  | .updateRtt _ _ _ => isTrue trivial
  | .getRouteById _ => isTrue trivial
  | .removeRoute _ _ => isTrue trivial

/-- Every route of the peer has the metric of the history. -/
theorem metric_runOps {p : ι} {m : UInt8} {ops : List (RouteOp ι)}
    (hops : ∀ op ∈ ops, OneMetric p m op) (policy : LoadBalance) :
    ∀ k m', ((new policy : RouteTable ι).runOps ops).Has p k m' → m' = m := by
  induction ops using List.reverseRecOn with
  | nil =>
      intro k m' h
      exact absurd h (not_has_new policy p k m')
  | append_singleton ops op ih =>
      intro k m' h
      have hbefore := ih fun op hop => hops op (List.mem_append_left _ hop)
      have hop := hops op (List.mem_append_right _ (.head _))
      rw [runOps_append] at h
      generalize (new policy : RouteTable ι).runOps ops = t at h hbefore
      change (t.apply op).Has p k m' at h
      cases op with
      | addRoute now id r =>
          rcases has_addRoute h with hold | ⟨rfl, -, rfl⟩
          · exact hbefore k m' hold
          · exact hop rfl
      | addRouteIfAbsent now id r =>
          rcases has_addRoute_ h with hold | ⟨rfl, -, -⟩
          · exact hbefore k m' hold
          · exact absurd rfl hop
      | updateReadTime now id key => exact hbefore k m' (has_updateReadTime.mp h)
      | updateRtt id key rtt => exact hbefore k m' (has_updateRtt.mp h)
      | getRouteById id => exact hbefore k m' (has_getRouteById.mp h)
      | removeRoute id key => exact hbefore k m' (has_removeRoute.mp h).1
      | removeAll id => exact hbefore k m' (has_removeAll.mp h).1

/-! ## What a call does to the keys of the peer -/

theorem head?_swapAt_front {α : Type} (pre post : List α) (e : α) :
    (swapAt (pre ++ e :: post) 0 pre.length).head? = some e := by
  cases pre with
  | nil => simp [swapAt]
  | cons x pre =>
      have hget : (x :: (pre ++ e :: post))[pre.length + 1]? = some e := by simp
      simp only [swapAt, List.cons_append, List.length_cons, List.getElem?_cons_zero, hget,
        List.set_cons_zero, List.set_cons_succ, List.head?_cons]

/-- Under the most recent policy a route that has the metric of all the others is
accepted and comes first. -/
theorem keys_addRoute {t : RouteTable ι} {p : ι} {now : Instant} {r : Route}
    (hpolicy : t.loadBalance = .mostRecent)
    (hmetric : ∀ k m, t.Has p k m → m = r.metric) :
    (t.addRoute now p r).1 = true ∧
      (keys ((t.addRoute now p r).2.timedRoutes p)).head? = some r.routeKey := by
  have same {e : TimedRoute} (he : e ∈ t.timedRoutes p) : e.1.metric = r.metric :=
    hmetric _ _ (has_iff_listed.mpr ⟨e, he, rfl, rfl⟩)
  have unbeaten {x : Route} (hx : x.metric = r.metric) : ¬ x.metric < r.metric := by
    rw [hx]
    exact UInt8.lt_irrefl _
  have first {pre post : List TimedRoute} {x : Route} (hx : x.routeKey = r.routeKey) :
      (keys (reorder t.loadBalance pre.length (pre ++ (x, now) :: post))).head? =
        some r.routeKey := by
    rw [hpolicy, reorder, keys, List.head?_map, head?_swapAt_front, Option.map_some, hx]
  constructor
  · rw [← Bool.not_eq_false, addRoute_eq_false_iff]
    have hscan : Scanned t.loadBalance false now r (t.timedRoutes p)
      (scan t.loadBalance false now r (t.timedRoutes p)) := scanned_scan
    intro hrejected
    rw [hrejected] at hscan
    generalize t.timedRoutes p = l at hscan same
    cases hscan with
    | rejected passed beaten =>
        exact unbeaten (same (List.mem_append_right _ (.head _))) beaten.1
  · have hadded := added_addRoute_ t now p r false
    simp only [addRoute]
    generalize (t.addRoute_ now p r false).2 = t' at hadded
    cases hadded with
    | rejected mem beaten =>
        obtain ⟨e, he, rfl⟩ := List.mem_map.mp mem
        exact absurd beaten.1 (unbeaten (same he))
    | @touched pre post x time list key known =>
        have hx : x.metric = r.metric := same (e := (x, time)) (by simp [list])
        rcases known with honly | ⟨hzero, hrelay⟩
        · cases honly
        · exact absurd (hx.symm.trans hzero) hrelay
    | updated list key overwrites unbeaten upgrade changed =>
        subst changed
        rw [timedRoutes_setRoutes, if_pos rfl]
        exact first key
    | pushed =>
        rw [timedRoutes_setRoutes, if_pos rfl]
        exact first rfl

theorem keys_removeRoute (t : RouteTable ι) (p : ι) (key : RouteKey) :
    keys ((t.removeRoute p key).timedRoutes p) =
      (keys (t.timedRoutes p)).filter fun k => k ≠ key := by
  rw [timedRoutes_removeRoute, if_pos rfl, keys, keys, List.filter_map]
  rfl

/-- Every other call of such a history leaves the keys of the peer in place. -/
theorem keys_apply_of_other {t : RouteTable ι} {p : ι} {m : UInt8} {op : RouteOp ι}
    (hpolicy : t.loadBalance = .mostRecent) (hop : OneMetric p m op)
    (hadd : ∀ now r, op ≠ .addRoute now p r) (hremove : ∀ key, op ≠ .removeRoute p key) :
    keys ((t.apply op).timedRoutes p) = keys (t.timedRoutes p) := by
  have hchange := change_apply t op p
  rw [hpolicy] at hchange
  generalize (t.apply op).timedRoutes p = l' at hchange
  generalize t.timedRoutes p = l at hchange
  cases hchange with
  | same => rfl
  | touched => rw [keys_append_cons, keys_append_cons]
  | updated => exact absurd rfl (hadd _ _)
  | pushed offers passed =>
      cases op with
      | addRoute now id r =>
          cases offers
          exact absurd rfl (hadd _ _)
      | addRouteIfAbsent now id r =>
          cases offers
          exact absurd rfl hop
      | _ => cases offers
  | measured => rw [if_neg (by decide), keys_append_cons, keys_append_cons]
  | removed => exact absurd rfl (hremove _)
  | cleared => exact absurd rfl hop

/-- With one metric lookup gives the first route. -/
theorem getRouteById_eq_head {t : RouteTable ι} {p : ι} {m : UInt8} {r : Route}
    (hpolicy : t.loadBalance = .mostRecent) (hmetric : ∀ k m', t.Has p k m' → m' = m)
    (h : (t.getRouteById p).1 = .ok r) : (t.route p).head? = some r := by
  have hpicked := picked_of_getRouteById h
  have same {x : Route} (hx : x ∈ t.route p) : x.metric = m :=
    hmetric x.routeKey x.metric ⟨x, hx, rfl, rfl⟩
  rw [hpolicy] at hpicked
  cases hpicked with
  | direct first =>
      -- One of them is direct, and so are all.
      have hm : m = 0 := by
        rw [← same (List.mem_of_find?_eq_some first)]
        exact Route.isDirect_iff.mp (List.find?_some first)
      rw [← first]
      cases hl : t.route p with
      | nil => rfl
      | cons x rest =>
          have hx : x.isDirect = true := by
            rw [Route.isDirect_iff, same (x := x) (by simp [hl]), hm]
          rw [List.head?_cons, List.find?_cons_of_pos hx]
  | head relay turns first => exact first
  | turn relay turns mem => cases turns

/-! ## Recency -/

/-- When the call removes the first route of the peer, the first of the routes behind it
was added after the rest of them. -/
def KeepsRecency (p : ι) (ops : List (RouteOp ι)) (t : RouteTable ι) : RouteOp ι → Prop
  | .removeRoute id key =>
      id = p → (t.routeOne p).map Route.routeKey = some key →
        LatestFirst p ops ((t.route p).tail.map Route.routeKey)
  | _ => True

instance (p : ι) (ops : List (RouteOp ι)) (t : RouteTable ι) :
    (op : RouteOp ι) → Decidable (KeepsRecency p ops t op)
  | .removeRoute _ _ => inferInstanceAs (Decidable (_ → _ → _))
  | .addRoute _ _ _ => isTrue trivial
  | .addRouteIfAbsent _ _ _ => isTrue trivial
  | .updateReadTime _ _ _ => isTrue trivial
  | .updateRtt _ _ _ => isTrue trivial
  | .getRouteById _ => isTrue trivial
  | .removeAll _ => isTrue trivial

theorem keys_timedRoutes (t : RouteTable ι) (p : ι) :
    keys (t.timedRoutes p) = (t.route p).map Route.routeKey := by
  rw [route, List.map_map]
  rfl

/-- Removing a key leaves the latest first, if it is not the first key or the latest of
the rest comes next. -/
theorem latestFirst_filter_iff {p : ι} {ops : List (RouteOp ι)} {key : RouteKey}
    {l : List RouteKey} (hnodup : l.Nodup) (hl : LatestFirst p ops l) :
    LatestFirst p ops (l.filter fun k => k ≠ key) ↔
      (l.head? = some key → LatestFirst p ops l.tail) := by
  cases l with
  | nil => simp [LatestFirst]
  | cons k rest =>
      simp only [List.head?_cons, Option.some.injEq, List.tail_cons]
      by_cases hk : k = key
      · subst hk
        have hrest : (k :: rest).filter (fun k' => k' ≠ k) = rest := by
          rw [List.filter_cons_of_neg (by simp), List.filter_eq_self]
          intro k' hk'
          have hne : k' ≠ k := by
            rintro rfl
            exact (List.nodup_cons.mp hnodup).1 hk'
          simpa using hne
        rw [hrest]
        simp
      · rw [List.filter_cons_of_pos (by simpa using hk)]
        simp only [hk, false_imp_iff, iff_true]
        intro k' hk'
        exact hl k' (List.mem_of_mem_filter hk')

/-- One call keeps the latest route first exactly if it meets the condition. -/
theorem latestFirst_apply {t : RouteTable ι} {p : ι} {m : UInt8} {ops : List (RouteOp ι)}
    {op : RouteOp ι} (hpolicy : t.loadBalance = .mostRecent)
    (hmetric : ∀ k m', t.Has p k m' → m' = m) (hop : OneMetric p m op)
    (hnodup : (keys (t.timedRoutes p)).Nodup) (hnodup' : (keys ((t.apply op).timedRoutes p)).Nodup)
    (h : LatestFirst p ops (keys (t.timedRoutes p))) :
    LatestFirst p (ops ++ [op]) (keys ((t.apply op).timedRoutes p)) ↔ KeepsRecency p ops t op := by
  by_cases hadd : ∃ now r, op = .addRoute now p r
  · obtain ⟨now, r, rfl⟩ := hadd
    simp only [KeepsRecency, iff_true]
    have hfirst : (keys ((t.addRoute now p r).2.timedRoutes p)).head? = some r.routeKey :=
      (keys_addRoute hpolicy (hop rfl ▸ hmetric)).2
    obtain ⟨rest, hrest⟩ := List.head?_eq_some_iff.mp hfirst
    simp only [apply] at hnodup' ⊢
    rw [hrest] at hnodup' ⊢
    exact latestFirst_concat_add hnodup'
  · have hnone : ∀ k, adds p k op = false := by
      intro k
      cases op with
      | addRoute now id r =>
          have hid : id ≠ p := by
            rintro rfl
            exact hadd ⟨now, r, rfl⟩
          simp [adds, hid]
      | _ => rfl
    rw [latestFirst_concat_of_not_adds hnone]
    by_cases hremove : ∃ key, op = .removeRoute p key
    · obtain ⟨key, rfl⟩ := hremove
      simp only [KeepsRecency, apply, forall_const]
      rw [keys_removeRoute, latestFirst_filter_iff hnodup h, keys_timedRoutes, routeOne_eq,
        List.head?_map, List.map_tail]
    · have hkeys := keys_apply_of_other hpolicy hop (fun now r heq => hadd ⟨now, r, heq⟩)
        (fun key heq => hremove ⟨key, heq⟩)
      rw [hkeys]
      simp only [h, true_iff]
      cases op with
      | removeRoute id key =>
          intro hid
          subst hid
          exact absurd ⟨key, rfl⟩ hremove
      | _ => trivial

/-- The route of the peer that was added after all its others. -/
def Latest (p : ι) (ops : List (RouteOp ι)) (t : RouteTable ι) (r : Route) : Prop :=
  r ∈ t.route p ∧
    ∀ x ∈ t.route p, x ≠ r → lastAdd p x.routeKey ops < lastAdd p r.routeKey ops

/-- Lookup gives the latest route, if the peer has one. -/
def LooksUpLatest (p : ι) (ops : List (RouteOp ι)) (t : RouteTable ι) : Prop :=
  t.route p ≠ [] → ∃ r, (t.getRouteById p).1 = .ok r ∧ t.Latest p ops r

theorem looksUpLatest_iff {t : RouteTable ι} {p : ι} {m : UInt8} {ops : List (RouteOp ι)}
    (hpolicy : t.loadBalance = .mostRecent) (hmetric : ∀ k m', t.Has p k m' → m' = m)
    (hnodup : (keys (t.timedRoutes p)).Nodup) :
    t.LooksUpLatest p ops ↔ LatestFirst p ops (keys (t.timedRoutes p)) := by
  rw [keys_timedRoutes] at hnodup ⊢
  simp only [LooksUpLatest, Latest]
  cases hl : t.route p with
  | nil => simp [LatestFirst]
  | cons x rest =>
      have hroutes : t.route p ≠ [] := by simp [hl]
      obtain ⟨r, hr⟩ := getRouteById_isOk hroutes
      have hfirst := getRouteById_eq_head hpolicy hmetric hr
      rw [hl] at hfirst hnodup
      cases hfirst
      rw [List.map_cons, List.nodup_cons] at hnodup
      simp only [hr, Except.ok.injEq, ne_eq, reduceCtorEq, not_false_eq_true, forall_const,
        exists_eq_left', List.mem_cons, true_or, true_and, List.map_cons, LatestFirst,
        List.mem_map, forall_exists_index, and_imp, forall_apply_eq_imp_iff₂, forall_eq_or_imp,
        not_true_eq_false, false_imp_iff]
      constructor
      · intro h y hy
        refine h y hy ?_
        rintro rfl
        exact hnodup.1 (List.mem_map.mpr ⟨y, hy, rfl⟩)
      · intro h y hy _
        exact h y hy

/-- In a history under the most recent policy that offers a peer routes of one metric,
every route offered is accepted.  Lookup gives the route added last all along the
history exactly if each removal of the first route finds the latest of the others
right behind it. -/
theorem mostRecent_iff (p : ι) (m : UInt8) (ops : List (RouteOp ι))
    (hops : ∀ op ∈ ops, OneMetric p m op) :
    (∀ pre now r post, ops = pre ++ .addRoute now p r :: post →
      (((new .mostRecent : RouteTable ι).runOps pre).addRoute now p r).1 = true) ∧
    ((∀ pre, pre <+: ops → ((new .mostRecent : RouteTable ι).runOps pre).LooksUpLatest p pre) ↔
      ∀ pre op post, ops = pre ++ op :: post →
        KeepsRecency p pre ((new .mostRecent : RouteTable ι).runOps pre) op) := by
  have hpolicy (pre : List (RouteOp ι)) :
      ((new .mostRecent : RouteTable ι).runOps pre).loadBalance = .mostRecent :=
    loadBalance_runOps _ pre
  have hmetric {pre : List (RouteOp ι)} (hpre : pre <+: ops) :
      ∀ k m', ((new .mostRecent : RouteTable ι).runOps pre).Has p k m' → m' = m :=
    metric_runOps (fun op hop => hops op (hpre.subset hop)) .mostRecent
  constructor
  · rintro pre now r post rfl
    have hr : r.metric = m := hops (.addRoute now p r) (by simp) rfl
    exact (keys_addRoute (hpolicy pre) (hr ▸ hmetric ⟨_, rfl⟩)).1
  · have hiff := Transition.history_iff (I := fun pre (t : RouteTable ι) =>
        LatestFirst p pre (keys (t.timedRoutes p))) (C := KeepsRecency p)
      (run_step (new .mostRecent : RouteTable ι) ops) trivial ?_
    · constructor
      · intro h pre op post heq
        refine hiff.mp ?_ pre op post _ heq (run_step _ pre)
        intro pre' t hpre' ht
        rw [run_step] at ht
        cases ht
        exact (looksUpLatest_iff (hpolicy pre') (hmetric hpre')
          (nodup_keys_runOps .mostRecent pre' p)).mp (h pre' hpre')
      · intro h pre hpre
        refine (looksUpLatest_iff (hpolicy pre) (hmetric hpre)
          (nodup_keys_runOps .mostRecent pre p)).mpr (hiff.mpr ?_ pre _ hpre (run_step _ pre))
        intro pre' op post t heq ht
        rw [run_step] at ht
        cases ht
        exact h pre' op post heq
    · intro pre t op t' hpre ht hstep hfirst
      rw [run_step] at ht
      cases ht
      cases hstep
      have hnodup' := nodup_keys_runOps .mostRecent (pre ++ [op]) p
      rw [runOps_append] at hnodup'
      exact latestFirst_apply (hpolicy pre) (hmetric ((List.prefix_append pre [op]).trans hpre))
        (hops op (hpre.subset (by simp))) (nodup_keys_runOps .mostRecent pre p) hnodup' hfirst

/-- A third path to a peer. -/
def pathThree : RouteKey := ⟨.udp, .v4 ⟨0, 0, 0, 0⟩ 5000, .v4 ⟨10, 0, 0, 3⟩ 4000⟩

/-- Three routes that are added one after the other, and the removal of the last. -/
def removedHistory : List (RouteOp Nat) :=
  [.addRoute 0 1 ⟨pathOne, 0, 9999⟩, .addRoute 1 1 ⟨pathTwo, 0, 9999⟩,
    .addRoute 2 1 ⟨pathThree, 0, 9999⟩, .removeRoute 1 pathThree]

theorem mostRecent_iff_removed :
    (∀ pre now r post, removedHistory = pre ++ .addRoute now 1 r :: post →
      (((new .mostRecent : RouteTable Nat).runOps pre).addRoute now 1 r).1 = true) ∧
    ((∀ pre, pre <+: removedHistory →
        ((new .mostRecent : RouteTable Nat).runOps pre).LooksUpLatest 1 pre) ↔
      ∀ pre op post, removedHistory = pre ++ op :: post →
        KeepsRecency 1 pre ((new .mostRecent : RouteTable Nat).runOps pre) op) :=
  mostRecent_iff 1 0 removedHistory (by decide)

/-- After the removal lookup gives the first route that was added. -/
theorem removal_uncovers_oldest :
    ¬ ∀ (p : Nat) (m : UInt8) (ops : List (RouteOp Nat)), (∀ op ∈ ops, OneMetric p m op) →
      ((new .mostRecent : RouteTable Nat).runOps ops).LooksUpLatest p ops := by
  intro h
  obtain ⟨r, hr, -, hlatest⟩ := h 1 0 removedHistory (by decide) (by decide)
  cases hr
  have hlt := hlatest ⟨pathTwo, 0, 9999⟩ (by decide) (by decide)
  exact absurd hlt (by decide)

end RouteTable

end RustP2p
